import GridDispatch.Proofs.Ledger.Stream
import GridDispatch.Proofs.Recount.Requests

/-!
# The stream recounts the events

Main statement: `Service.Course.recounted`. Wherever requests that are carried out one after the other
have come to from a store without solicitations, the stream of updates is an account of the events.
Recording an update is best effort, so it passes over the events whose update was refused; where the
storage takes every update, the k-th update tells of the k-th event.
-/

namespace GridDispatch

open Ledger

section Courses

variable {origin : Ledger} {p p' : Service} {events : List Event} {updates : List Update}

theorem Recounted.start (hempty : p.ledger.envelopes = []) (href : p.ledger.Referenced) :
    Recounted p.ledger p [] [] := by
  have hunknown (id : Int) : p.ledger.hasEnvelope id ≠ true := by
    simp [Ledger.hasEnvelope, hempty]
  have hevents : p.ledger.events = [] :=
    List.eq_nil_iff_forall_not_mem.2 fun row hrow => hunknown _ (href.events row hrow)
  have hupdates : p.ledger.updates = [] :=
    List.eq_nil_iff_forall_not_mem.2 fun row hrow => hunknown _ (href.updates row hrow)
  exact
    { run := ⟨[], [], .start hempty hevents⟩
      written := by simp [hempty]
      rows := hevents
      lastEvent := (Int.add_zero _).symm
      bound := fun hne => absurd rfl hne
      recorded := ⟨hupdates, (Int.add_zero _).symm, rfl⟩
      account := .nil }

theorem Recounted.next (h : Recounted origin p events updates) (hnext : p.Next p') :
    ∃ events' updates', Recounted origin p' events' updates' := by
  cases hnext with
  | submit requesterId companyCode groupId batch hquiet =>
    exact Shared.submit_recounted h hquiet requesterId companyCode groupId batch
  | change r hquiet => exact Shared.changeStatus_recounted h hquiet r
  | sweep hquiet => exact Shared.markLate_recounted h hquiet
  | outside hledger => exact ⟨events, updates, h.of_ledger hledger⟩

theorem Recounted.course (h : Recounted origin p events updates) (hcourse : p.Course p') :
    ∃ events' updates', Recounted origin p' events' updates' := by
  induction hcourse with
  | refl => exact ⟨events, updates, h⟩
  | tail _ hnext ih =>
    obtain ⟨events', updates', h'⟩ := ih
    exact h'.next hnext

/-- The ledger holds these events and updates, and the updates, as they are read, are an account of
the events. -/
structure Ledger.Recounts (origin l : Ledger) (events : List Event) (updates : List Update) :
    Prop where
  eventRows : l.events = events.map EventRow.of
  updateRows : l.updates = updates.map UpdateRow.of
  nodup : (l.envelopes.map EnvelopeRow.id).Nodup
  eventIds : (events.map Event.eventId).Pairwise (· < ·)
  streamIds : (updates.map Update.streamId).Pairwise (· < ·)
  updatesBetween : ∀ start stop,
    l.updatesBetween start stop = .ok (updates.filter (Update.between start stop))
  account : Account origin l.envelopes events updates

/-- The k-th update tells of the k-th event, and replaying the updates of a solicitation gives the
statuses of its events from the oldest to the newest. -/
structure Ledger.RecountsAll (l : Ledger) (events : List Event) (updates : List Update) : Prop where
  length_eq : updates.length = events.length
  tells : ∀ (k : Nat) (hevent : k < events.length) (hupdate : k < updates.length),
    updates[k].Tells l.envelopes (events.take k) events[k]
  replay : ∀ id, replay id updates = (l.rowsOf id).reverse.map fun row => some row.status

theorem Recounted.recounts (h : Recounted origin p events updates) :
    origin.Recounts p.ledger events updates := by
  obtain ⟨entries, hjournal, rfl⟩ := h.journal
  have hplain := h.account.plain
  have hread : ∀ row ∈ p.ledger.updates, ∃ u, row.read = .ok u := by
    rw [h.recorded.rows]
    exact List.forall_mem_map.2 fun u hu => ⟨u, UpdateRow.read_of_plain (hplain u hu)⟩
  have hsorted : (p.ledger.updates.map UpdateRow.streamId).Pairwise (· < ·) :=
    h.recorded.streamIds ▸ h.account.streamIds.1
  exact
    { eventRows := h.rows
      updateRows := h.recorded.rows
      nodup := hjournal.nodup
      eventIds := by
        rw [List.map_map]
        exact List.pairwise_map.2 hjournal.ids
      streamIds := h.account.streamIds.1
      updatesBetween := by
        intro start stop
        rw [updatesBetween_of_sorted hsorted fun row hrow _ _ => hread row hrow,
          stream_of_plain h.recorded.rows hplain]
      account := h.account }

/-- There are tokens for all events if the tokens were not ahead of the ids of events, for these were
given out below the same bound. -/
theorem Recounted.room (h : Recounted origin p events updates)
    (hbehind : origin.lastUpdate ≤ origin.lastEvent) (hne : events ≠ []) :
    Room origin.lastUpdate [] events.length := by
  have hbound := h.bound hne
  have hlast := h.lastEvent
  simp only [Room, List.foldl_nil]
  omega

/-- If the storage takes every update and has a token left for each, nothing is passed over. -/
theorem Recounted.recountsAll (h : Recounted origin p events updates) (hopen : origin.Open .update)
    (hroom : origin.lastUpdate ≤ origin.lastEvent ∨ Room origin.lastUpdate [] events.length) :
    p.ledger.RecountsAll events updates := by
  have hlength : updates.length = events.length := by
    by_cases hnone : events = []
    · have hle := h.account.length_le
      rw [hnone] at hle ⊢
      exact Nat.le_zero.1 hle
    · refine h.account.length_eq hopen ?_
      exact hroom.elim (fun hbehind => h.room hbehind hnone) id
  obtain ⟨entries, hjournal, rfl⟩ := h.journal
  refine ⟨hlength, h.account.getElem_tells hlength, fun id => ?_⟩
  rw [h.account.replay_eq hlength, hjournal.rowsOf_eq, List.reverse_reverse, history_map_event,
    List.map_map, List.map_map]
  rfl

/-- From a store without solicitations, requests that are carried out one after the other leave an
account of the events in the stream of updates, which passes over an event exactly if the storage
refuses its update. If no row is refused, and there are tokens left, the k-th update tells of the
k-th event. -/
theorem Service.Course.recounted (hempty : p.ledger.envelopes = []) (href : p.ledger.Referenced)
    (h : p.Course p') :
    ∃ events updates, p.ledger.Recounts p'.ledger events updates ∧
      (p.ledger.Open .update →
        p.ledger.lastUpdate ≤ p.ledger.lastEvent ∨ Room p.ledger.lastUpdate [] events.length →
        p'.ledger.RecountsAll events updates) := by
  obtain ⟨events, updates, h'⟩ := (Recounted.start hempty href).course h
  exact ⟨events, updates, h'.recounts, h'.recountsAll⟩

end Courses

/-- A service without solicitations: CTEEP has a substation and a user, and the storage may refuse
rows. -/
def Service.unused (guards : List Guard) : Service where
  ledger := { Ledger.empty with guards }
  directory := ⟨⟨[], [⟨"CTEEP", "MOS", none⟩], [("tito", "CTEEP")]⟩, []⟩
  settings := .default
  bus := .silent
  now := 100

/-- A batch that the operator sends to CTEEP. -/
def Batch.synchronous : Batch :=
  ⟨0, [⟨"SYNCHRONOUS", "MAXIMIZE", "MOS", "CTEEP", ⟨.null, .null, .null, .null, .null⟩⟩]⟩

theorem Service.unused_referenced (guards : List Guard) : (unused guards).ledger.Referenced :=
  ⟨List.forall_mem_nil _, List.forall_mem_nil _⟩

/-- A batch, an acceptance, a second acceptance that is refused, and a sweep during which the clock
goes on. -/
theorem Service.Course.recounted_of_late :
    let p := Service.unused []
    let sent := (p.alone.submit "ana" "ONS" "first" .synchronous).2.service
    let accepted := (sent.alone.changeStatus ⟨1, "tito", "ACCEPTED", none⟩).2.service
    let again := (accepted.alone.changeStatus ⟨1, "tito", "ACCEPTED", none⟩).2.service
    let amid : Shared :=
      ⟨again, [fun q => { q with now := 3700 }, fun q => { q with now := 3800 }]⟩
    let p' := amid.markLate.2.service
    p.ledger.envelopes = [] ∧ p.ledger.Referenced ∧ p.Course p' ∧
      p'.ledger.updates.map (fun row => (row.streamId, row.kind)) =
        [(1, "CREATED"), (2, "STATUS_CHANGED"), (3, "STATUS_CHANGED")] ∧
      ∃ events updates, p.ledger.Recounts p'.ledger events updates ∧
        p'.ledger.RecountsAll events updates := by
  intro p sent accepted again amid p'
  have hsent : p.Next sent := .submit "ana" "ONS" "first" .synchronous (Shared.alone_quiet p)
  have haccepted : sent.Next accepted := .change _ (Shared.alone_quiet sent)
  have hagain : accepted.Next again := .change _ (Shared.alone_quiet accepted)
  have hamid : amid.Quiet :=
    List.forall_mem_cons.2 ⟨fun _ => rfl, List.forall_mem_singleton.2 fun _ => rfl⟩
  have hmarked : again.Next p' := .sweep hamid
  have hcourse : p.Course p' :=
    (((Relation.ReflTransGen.single hsent).tail haccepted).tail hagain).tail hmarked
  obtain ⟨events, updates, hrecounts, hall⟩ :=
    Service.Course.recounted rfl (Service.unused_referenced []) hcourse
  refine ⟨rfl, Service.unused_referenced [], hcourse, ?_, events, updates, hrecounts,
    hall (fun cell => rfl) (.inl (Int.le_refl _))⟩
  subst p' amid again accepted sent p
  cbv

/-- An event without an update: the storage refuses updates, and the batch is accepted
nevertheless. -/
theorem Service.Course.not_recounted_of_refused :
    let p := Service.unused [⟨.update, none, "disk I/O error"⟩]
    let p' := (p.alone.submit "ana" "ONS" "first" .synchronous).2.service
    p.ledger.envelopes = [] ∧ p.ledger.Referenced ∧ p.Course p' ∧
      ¬ p'.ledger.updates.length = p'.ledger.events.length := by
  intro p p'
  have hsent : p.Next p' := .submit "ana" "ONS" "first" .synchronous (Shared.alone_quiet p)
  have hchecked : p.checkBatch "ONS" .synchronous =
      .ok [⟨.synchronous, .maximize, "MOS", "CTEEP", .synchronous none⟩] := by
    subst p' p
    cbv
  have hlengths : p'.ledger.updates.length = 0 ∧ p'.ledger.events.length = 1 := by
    simp only [p', Shared.submit, Service.alone, hchecked]
    exact ⟨rfl, rfl⟩
  refine ⟨rfl, Service.unused_referenced _, .single hsent, ?_⟩
  rw [hlengths.1, hlengths.2]
  decide

end GridDispatch
