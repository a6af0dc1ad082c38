import GridDispatch.Proofs.Lifecycle.Requests

/-!
# Lifecycle of every solicitation

Main statement: `Run.lifecycle`. Wherever a run of requests has come to, in any order of their steps,
every solicitation has a life by the rules, and the order in which its events were written is the
order of their times and ids. Whole requests, each amid others, make such a run
(`Service.CourseAmid.lives`).
-/

namespace GridDispatch

/-- What is true of the events of `p` after a run over `past`. -/
structure Lifecycle (p : Service) (past : List Service) (entries : List Entry) : Prop where
  events : p.ledger.events = entries.map fun x => EventRow.of x.event
  ids : entries.Pairwise fun a b => a.event.eventId < b.event.eventId
  /-- A request that wrote an event was resolved in a service of the run. -/
  resolved : ∀ x ∈ entries, ∀ q r, x.cause = .change q r → q ∈ past
  life : ∀ row ∈ p.ledger.envelopes, Life row (about row.id entries)
  times : ∀ row ∈ p.ledger.envelopes,
    (about row.id entries).Pairwise fun a b => a.event.time ≤ b.event.time
  /-- By time and id, the newest first, is the reverse of the order of writing. -/
  rowsOf : ∀ row ∈ p.ledger.envelopes,
    p.ledger.rowsOf row.id = ((about row.id entries).map fun x => EventRow.of x.event).reverse

section

variable {p p' : Service} {past : List Service} {entries : List Entry}

theorem Ledger.Journal.lives (h : p.ledger.Journal entries)
    (hresolved : ∀ x ∈ entries, ∀ q r, x.cause = .change q r → q ∈ past) :
    Lifecycle p past entries where
  events := h.events
  ids := h.ids
  resolved := hresolved
  life := h.life
  times := fun row hrow => (h.life row hrow).times
  rowsOf := fun _ hrow => h.rowsOf hrow

theorem Run.lifecycle (h : Run p past entries) : Lifecycle p past entries :=
  h.journal.1.lives fun _ hx _ _ hcause => h.resolved_mem hx hcause

/-- Wherever requests have come to that were carried out amid others, from a service without
solicitations on, they have come to it by such a run. -/
theorem Service.CourseAmid.lives (henvelopes : p.ledger.envelopes = [])
    (hevents : p.ledger.events = []) (h : p.CourseAmid p') :
    ∃ past entries, Run p' past entries ∧ Lifecycle p' past entries := by
  obtain ⟨past, entries, hrun⟩ := h.continues.exists_run ⟨[], [], .start henvelopes hevents⟩
  exact ⟨past, entries, hrun, hrun.journal.1.lives fun _ hx _ _ hcause => hrun.resolved_mem hx hcause⟩

end

/-- A batch, an acceptance by the company and, after an hour on a clock that was set back before, a
sweep. -/
theorem lifecycle_of_late :
    let p : Service := ⟨.empty, ⟨⟨[], [⟨"CTEEP", "MOS", none⟩], [("tito", "CTEEP")]⟩, []⟩, .default,
      .silent, 100⟩
    let sent := (p.alone.submit "ana" "ONS" "first"
      ⟨0, [⟨"SYNCHRONOUS", "MAXIMIZE", "MOS", "CTEEP", ⟨.null, .null, .null, .null, .null⟩⟩]⟩).2
    let accepted := (Service.alone { sent.service with now := 40 }).changeStatus
      ⟨1, "tito", "ACCEPTED", none⟩
    let p' := (Service.alone { accepted.2.service with now := 3700 }).markLate.2.service
    p'.ledger.events.map (fun row => (row.status, row.time)) =
        [("NEW", .int 100), ("ACCEPTED", .int 100), ("LATE", .int 3700)] ∧
      ∃ past entries, Run p' past entries ∧ Lifecycle p' past entries := by
  intro p sent accepted p'
  have halone (q : Service) : q.alone.Continuing := List.forall_mem_nil _
  have hsent : p.CourseAmid sent.service := .single (.submit "ana" "ONS" "first" _ (halone p))
  have hset : p.CourseAmid { sent.service with now := 40 } :=
    hsent.tail (.outside ⟨rfl, rfl, rfl, rfl⟩)
  have haccepted : p.CourseAmid accepted.2.service :=
    hset.tail (.change ⟨1, "tito", "ACCEPTED", none⟩ (halone _))
  have hpassed : p.CourseAmid { accepted.2.service with now := 3700 } :=
    haccepted.tail (.outside ⟨rfl, rfl, rfl, rfl⟩)
  have hmarked : p.CourseAmid p' := hpassed.tail (.sweep (halone _))
  obtain ⟨past, entries, hrun⟩ := hmarked.continues.exists_run ⟨[], [], .start rfl rfl⟩
  refine ⟨?_, past, entries, hrun, hrun.lifecycle⟩
  subst p' accepted sent p
  cbv

end GridDispatch
