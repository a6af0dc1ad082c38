import GridDispatch.Proofs.Visibility

/-!
# Reading on in the stream

A reader of the stream looks up the token and then reads from the token before to that one, at once
or after more has been written. `Polls` is a course of requests with such a reader. What the reader
got is the stream from its beginning, without a gap and with nothing twice (`Polls.complete`): that
is kept by whatever is written (`Reader.UpToDate.writes`) and by each reading
(`Reader.UpToDate.fetch`). Nobody gets past an update that cannot be read; requests write none, so a
reader gets on if all that others write can be read.
-/

namespace GridDispatch

open Ledger

/-- A reader got the updates up to a token, and looked up the token to read to next. -/
structure Reader where
  upTo : Int
  next : Option Int
  got : List Update

/-- Requests one after the other and whatever else is written, with a reader in between who belongs to
the company all the time. `P` is what is known of the ledger at the start and after others wrote. -/
inductive Polls (user company : String) (P : Ledger → Prop) : Service → Reader → Prop
  | start {p : Service} : p.ledger.Built → P p.ledger →
    p.directory.registry.companyOf user = some company → Polls user company P p ⟨0, none, []⟩
  | request {p : Service} {r : Reader} (asked : Request) : Polls user company P p r →
    Polls user company P (p.after asked) r
  | outside {p p' : Service} {r : Reader} : Polls user company P p r → Writes p.ledger p'.ledger →
    P p'.ledger → p'.directory.registry.companyOf user = some company → Polls user company P p' r
  | look {p : Service} {r : Reader} : Polls user company P p r →
    Polls user company P p { r with next := some p.ledger.token }
  | fetch {p : Service} {r : Reader} {stop : Int} {updates : List Update} :
    Polls user company P p r → r.next = some stop → p.updates user r.upTo stop = .ok updates →
    Polls user company P p ⟨stop, none, r.got ++ updates⟩

/-- The reader got all that the company is shown up to the token, and nothing twice. -/
structure Reader.UpToDate (company : String) (l : Ledger) (r : Reader) : Prop where
  inOrder : l.InOrder
  nonneg : 0 ≤ r.upTo
  le_token : r.upTo ≤ l.token
  next : ∀ stop ∈ r.next, r.upTo ≤ stop ∧ stop ≤ l.token
  readable : l.Readable 0 r.upTo
  got : r.got = (l.stream.filter (Service.shows company)).filter (Update.between 0 r.upTo)

namespace Reader.UpToDate

variable {company user : String} {l l' : Ledger} {r : Reader} {p : Service}

theorem le_lastUpdate (h : r.UpToDate company l) : r.upTo ≤ l.lastUpdate :=
  h.le_token.trans h.inOrder.le_token.2.2

theorem writes (h : r.UpToDate company l) (hwrites : Writes l l') : r.UpToDate company l' where
  inOrder := h.inOrder.writes hwrites
  nonneg := h.nonneg
  le_token := h.le_token.trans (hwrites.token_le h.inOrder)
  next stop hstop := (h.next stop hstop).imp_right fun hle => hle.trans (hwrites.token_le h.inOrder)
  readable := hwrites.readable h.le_lastUpdate h.readable
  got := by
    -- what was written since is above every token that could be looked up before
    obtain ⟨new, hnew, habove⟩ := hwrites.stream
    have hlast := h.le_lastUpdate
    have hnone : (new.filter (Service.shows company)).filter (Update.between 0 r.upTo) = [] := by
      refine List.filter_eq_nil_iff.2 fun u hu => ?_
      have := habove u (List.mem_of_mem_filter hu)
      simp only [Update.between, decide_eq_true_eq]
      omega
    rw [hnew, List.filter_append, List.filter_append, hnone, List.append_nil, h.got]

theorem sorted (h : r.UpToDate company l) : (r.got.map Update.streamId).Pairwise (· < ·) := by
  rw [h.got]
  exact h.inOrder.stream_counted.sorted.sublist
    ((List.filter_sublist.trans List.filter_sublist).map _)

theorem look (h : r.UpToDate company l) : UpToDate company l { r with next := some l.token } where
  inOrder := h.inOrder
  nonneg := h.nonneg
  le_token := h.le_token
  next stop hstop := by
    cases hstop
    exact ⟨h.le_token, Int.le_refl _⟩
  readable := h.readable
  got := h.got

theorem fetch (h : r.UpToDate company p.ledger)
    (huser : p.directory.registry.companyOf user = some company) {stop : Int}
    (hstop : r.next = some stop) {updates : List Update}
    (hupdates : p.updates user r.upTo stop = .ok updates) :
    UpToDate company p.ledger ⟨stop, none, r.got ++ updates⟩ := by
  obtain ⟨hle, htoken⟩ := h.next stop hstop
  have hcompany := Service.companyOf_of_updates hupdates huser
  obtain ⟨hreadable, rfl⟩ := (Service.updates_eq_ok_iff h.inOrder hcompany hle).1 hupdates
  refine ⟨h.inOrder, h.nonneg.trans hle, htoken, nofun, h.readable.append hreadable, ?_⟩
  rw [h.got]
  exact Update.filter_between_append h.nonneg hle
    (h.inOrder.stream_counted.sorted.sublist (List.filter_sublist.map _))

end Reader.UpToDate

namespace Polls

variable {user company : String} {P : Ledger → Prop} {p : Service} {r : Reader}

theorem upToDate (h : Polls user company P p r) :
    r.UpToDate company p.ledger ∧ p.directory.registry.companyOf user = some company := by
  induction h with
  | start hbuilt _ huser =>
    refine ⟨⟨hbuilt.inOrder, Int.le_refl _, hbuilt.inOrder.le_token.2.1, nofun,
      fun row _ hstart hstop => absurd hstop (Int.not_le.2 hstart), ?_⟩, huser⟩
    refine (List.filter_eq_nil_iff.2 fun u _ => ?_).symm
    simp only [Update.between, decide_eq_true_eq]
    omega
  | @request p r asked _ ih =>
    have hworks := p.after_works asked
    exact ⟨ih.1.writes hworks.writes, hworks.directory ▸ ih.2⟩
  | outside _ hwrites _ huser ih => exact ⟨ih.1.writes hwrites, huser⟩
  | look _ ih => exact ⟨ih.1.look, ih.2⟩
  | fetch _ hstop hupdates ih => exact ⟨ih.1.fetch ih.2 hstop hupdates, ih.2⟩

/-- Requests write nothing that cannot be read. -/
theorem legible (h : Polls user company P p r) (hP : ∀ l, P l → l.Legible) : p.ledger.Legible := by
  induction h with
  | start _ hp => exact hP _ hp
  | request asked _ ih => exact Service.legible_covers.after _ asked ih
  | outside _ _ hp => exact hP _ hp
  | look _ ih => exact ih
  | fetch _ _ _ ih => exact ih

/-- Wherever a reader has come to, the readings together are one reading from the beginning, with
tokens that go up; the operator gets all that was recorded. Any reading can be cut in two. If all
that others wrote can be read, the next reading succeeds, and so does any other. -/
theorem complete (h : Polls user company P p r) (hup : Lookup.companyOf ∉ p.directory.down) :
    p.updates user 0 r.upTo = .ok r.got ∧ (r.got.map Update.streamId).Pairwise (· < ·) ∧
      (company = Company.operatorCode → ∀ row ∈ p.ledger.updates, row.streamId ≤ r.upTo →
        ∃ u ∈ r.got, row.read = .ok u) ∧
      (∀ a b c, a ≤ b → b ≤ c → ∀ updates, p.updates user a c = .ok updates ↔
        ∃ first second, p.updates user a b = .ok first ∧ p.updates user b c = .ok second ∧
          updates = first ++ second) ∧
      ((∀ l, P l → l.Legible) →
        (∀ stop ∈ r.next, ∃ updates, p.updates user r.upTo stop = .ok updates) ∧
          ∀ a b, a ≤ b → ∃ updates, p.updates user a b = .ok updates) := by
  obtain ⟨hr, huser⟩ := h.upToDate
  have hcompany : p.directory.companyOf user = .ok (some company) := by
    simp only [Directory.companyOf, Directory.ask, if_neg hup, huser]
  have hread {start stop : Int} {updates : List Update} (hle : start ≤ stop) :
      p.updates user start stop = .ok updates ↔ _ :=
    Service.updates_eq_ok_iff hr.inOrder hcompany hle
  refine ⟨(hread hr.nonneg).2 ⟨hr.readable, hr.got⟩, hr.sorted, ?_, ?_, fun hP => ?_⟩
  · intro hoperator row hrow hle
    have hpos := (hr.inOrder.updates.bounds row.streamId (List.mem_map_of_mem hrow)).1
    obtain ⟨u, hu⟩ := hr.readable row hrow hpos hle
    refine ⟨u, ?_, hu⟩
    rw [hr.got, List.mem_filter, List.mem_filter, mem_stream]
    simp only [Service.shows, hoperator, decide_true, Bool.true_or, Update.between,
      UpdateRow.streamId_of_read hu, decide_eq_true_eq]
    exact ⟨⟨⟨row, hrow, hu⟩, trivial⟩, hpos, hle⟩
  · intro a b c hab hbc updates
    have hcut := Update.filter_between_append hab hbc
      (hr.inOrder.stream_counted.sorted.sublist
        ((List.filter_sublist (p := Service.shows company)).map Update.streamId))
    rw [hread (hab.trans hbc), ← hcut]
    constructor
    · rintro ⟨hreadable, rfl⟩
      exact ⟨_, _, (hread hab).2 ⟨hreadable.mono (Int.le_refl a) hbc, rfl⟩,
        (hread hbc).2 ⟨hreadable.mono hab (Int.le_refl c), rfl⟩, rfl⟩
    · rintro ⟨first, second, hfirst, hsecond, rfl⟩
      obtain ⟨hreadable, rfl⟩ := (hread hab).1 hfirst
      obtain ⟨hreadable', rfl⟩ := (hread hbc).1 hsecond
      exact ⟨hreadable.append hreadable', rfl⟩
  · have hall (a b : Int) (hab : a ≤ b) : ∃ updates, p.updates user a b = .ok updates :=
      ⟨_, (hread hab).2 ⟨(h.legible hP).readable a b, rfl⟩⟩
    exact ⟨fun stop hstop => hall _ _ (hr.next stop hstop).1, hall⟩

/-- A reader of one company looks up the token, reads after an acceptance was announced, and reads
on. -/
theorem complete_amid_acceptance :
    let p : Service := ⟨.empty, ⟨⟨[], [⟨"CTEEP", "MOS", none⟩, ⟨"CHESF", "PIR", none⟩],
      [("tito", "CTEEP")]⟩, []⟩, .default, .silent, 100⟩
    let mos : RawSolicitation :=
      ⟨"SYNCHRONOUS", "MAXIMIZE", "MOS", "CTEEP", ⟨.null, .null, .null, .null, .null⟩⟩
    let pir : RawSolicitation := { mos with substation := "PIR", companyCode := "CHESF" }
    let sent := p.after (.submit "ana" "ONS" "first" ⟨0, [mos, pir]⟩)
    let accepted := sent.after (.change ⟨1, "tito", "ACCEPTED", none⟩)
    sent.ledger.token = 2 ∧ accepted.ledger.token = 3 ∧
      Lookup.companyOf ∉ accepted.directory.down ∧ ∃ first second,
        Polls "tito" "CTEEP" Ledger.Legible accepted ⟨3, none, first ++ second⟩ ∧
        accepted.updates "tito" 0 2 = .ok first ∧ accepted.updates "tito" 2 3 = .ok second ∧
        accepted.updates "tito" 0 3 = .ok (first ++ second) ∧
        (first ++ second).map Update.streamId = [1, 3] := by
  intro p mos pir sent accepted
  have hcomputed : sent.ledger.token = 2 ∧ accepted.ledger.token = 3 ∧
      (accepted.updates "tito" 0 3).toOption.map (List.map Update.streamId) = some [1, 3] := by
    subst accepted sent mos pir p
    cbv
  obtain ⟨htoken, htoken', htokens⟩ := hcomputed
  have hup : Lookup.companyOf ∉ accepted.directory.down := by
    rw [(sent.after_works _).directory, (p.after_works _).directory]
    exact List.not_mem_nil
  have hlooked : Polls "tito" "CTEEP" Ledger.Legible sent ⟨0, some 2, []⟩ := by
    have hsent : Polls "tito" "CTEEP" Ledger.Legible sent ⟨0, none, []⟩ :=
      .request (.submit "ana" "ONS" "first" ⟨0, [mos, pir]⟩)
        (.start .refl (List.forall_mem_nil _) (by decide))
    rw [← htoken]
    exact hsent.look
  have haccepted : Polls "tito" "CTEEP" Ledger.Legible accepted ⟨0, some 2, []⟩ :=
    hlooked.request (.change ⟨1, "tito", "ACCEPTED", none⟩)
  obtain ⟨first, hfirst⟩ := ((complete haccepted hup).2.2.2.2 fun _ => id).1 2 rfl
  have hread : Polls "tito" "CTEEP" Ledger.Legible accepted ⟨2, some 3, first⟩ := by
    rw [← htoken']
    exact (haccepted.fetch rfl hfirst).look
  obtain ⟨second, hsecond⟩ := ((complete hread hup).2.2.2.2 fun _ => id).1 3 rfl
  have hlast := hread.fetch rfl hsecond
  have hall := (complete hlast hup).1
  refine ⟨htoken, htoken', hup, first, second, hlast, hfirst, hsecond, hall, ?_⟩
  simpa [hall, Except.toOption] using htokens

end Polls
end GridDispatch
