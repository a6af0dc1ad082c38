import GridDispatch.Proofs.Ledger.Onward
import GridDispatch.Proofs.Operations

/-!
# What is written stays

An `Occurrence` is an operation, or something that befalls the ledger from outside: events of a
solicitation are taken away, or the storage begins or ceases to refuse rows. `eventsIn` are the
events that come in during a course of occurrences. Their ids go up, whatever was taken away or
refused in between (`Chronicle.run`), so an id is never given to two events, and what is there
later was written under its id (`Occurrence.append_only`).
-/

namespace GridDispatch

open Ledger

inductive Occurrence
  | operation (op : Operation)
  | deletion (id : Int)
  | guards (guards : List Guard)

namespace Occurrence

def perform (s : Service) : Occurrence → Service
  | operation op => op.perform s
  | deletion id => { s with ledger := s.ledger.deleteEvents id }
  | guards new => { s with ledger := { s.ledger with guards := new } }

/-- One occurrence after the other. -/
def run (course : List Occurrence) (s : Service) : Service := course.foldl perform s

/-- The events that come in with an occurrence. -/
def newEvents (s : Service) (o : Occurrence) : List EventRow :=
  (o.perform s).ledger.events.drop s.ledger.events.length

/-- The events that come in during a course, in the order in which they are written. -/
def eventsIn (s : Service) : List Occurrence → List EventRow
  | [] => []
  | o :: course => o.newEvents s ++ eventsIn (o.perform s) course

theorem eventsIn_append (before after : List Occurrence) (s : Service) :
    eventsIn s (before ++ after) = eventsIn s before ++ eventsIn (run before s) after := by
  induction before generalizing s with
  | nil => rfl
  | cons o before ih =>
    rw [List.cons_append, eventsIn, eventsIn, ih, List.append_assoc]
    rfl

end Occurrence

/-! ## What an occurrence comes down to -/

theorem Service.wrote_writes {α : Type} (s : Service) {answer : Except StoreError (α × Ledger)}
    (h : ∀ a ledger, answer = .ok (a, ledger) → Write s.ledger ledger) :
    Writes s.ledger (s.wrote answer).ledger := by
  cases answer with
  | error e => exact .refl
  | ok written => exact .single (h written.1 written.2 rfl)

theorem Operation.perform_writes (s : Service) (op : Operation) :
    Writes s.ledger (op.perform s).ledger := by
  cases op with
  | create new requesterId status time => exact s.wrote_writes fun _ _ h => .create h
  | createBatch g news status time => exact s.wrote_writes fun _ _ h => .createBatch h
  | append id actor status time => exact s.wrote_writes fun _ _ h => .append h
  | appendIfCurrent id seen actor status time justification =>
    exact s.wrote_writes fun _ _ h => .appendIfCurrent h
  | record id userId kind content => exact s.wrote_writes fun _ _ h => .record h
  | request r => exact (s.after_works r).writes
  | setClock now => exact .refl

namespace Occurrence

theorem perform_writes (s : Service) (o : Occurrence) : Writes s.ledger (o.perform s).ledger := by
  cases o with
  | operation op => exact op.perform_writes s
  | deletion id => exact .single (.deleteEvents id)
  | guards guards => exact .single (.guards guards)

theorem run_writes (course : List Occurrence) (s : Service) :
    Writes s.ledger (run course s).ledger := by
  induction course generalizing s with
  | nil => exact .refl
  | cons o course ih => exact (o.perform_writes s).trans (ih (o.perform s))

theorem perform_envelopes (s : Service) (o : Occurrence) :
    s.ledger.envelopes <+: (o.perform s).ledger.envelopes := by
  cases o with
  | operation op => exact (grows_carried.perform s op).envelopes
  | deletion id => exact List.prefix_refl _
  | guards guards => exact List.prefix_refl _

theorem run_envelopes (course : List Occurrence) (s : Service) :
    s.ledger.envelopes <+: (run course s).ledger.envelopes := by
  induction course generalizing s with
  | nil => exact List.prefix_refl _
  | cons o course ih => exact (o.perform_envelopes s).trans (ih (o.perform s))

/-- New events come after the others, and none come in while some are taken away. -/
theorem perform_events (s : Service) (o : Occurrence) :
    (o.perform s).ledger.events = s.ledger.events ++ o.newEvents s ∨
      (o.perform s).ledger.events.Sublist s.ledger.events ∧ o.newEvents s = [] := by
  cases o with
  | operation op =>
    obtain ⟨new, hnew⟩ := (grows_carried.perform s op).events
    refine .inl ?_
    rw [newEvents, perform, hnew, List.drop_left]
  | deletion id =>
    have hsub : (s.ledger.deleteEvents id).events.Sublist s.ledger.events := List.filter_sublist
    exact .inr ⟨hsub, List.drop_eq_nil_of_le hsub.length_le⟩
  | guards guards => exact .inr ⟨List.Sublist.refl _, List.drop_length⟩

theorem perform_sublist (s : Service) (o : Occurrence) :
    (o.perform s).ledger.events.Sublist (s.ledger.events ++ o.newEvents s) := by
  rcases o.perform_events s with happended | ⟨hsub, hnone⟩
  · rw [happended]
  · rw [hnone, List.append_nil]
    exact hsub

/-- What is there in the end was there at first or has come in. -/
theorem run_sublist (course : List Occurrence) (s : Service) :
    (run course s).ledger.events.Sublist (s.ledger.events ++ eventsIn s course) := by
  induction course generalizing s with
  | nil => exact List.sublist_append_left _ _
  | cons o course ih =>
    rw [eventsIn, ← List.append_assoc]
    exact (ih (o.perform s)).trans ((o.perform_sublist s).append_right _)

end Occurrence

/-! ## The chronicle -/

/-- The ledger is what has come of events that were written in this order: their ids go up and were
all given out, and those that are still there are as they were written. -/
structure Chronicle (l : Ledger) (log : List EventRow) : Prop where
  inOrder : l.InOrder
  kept : l.events.Sublist log
  sorted : (log.map EventRow.eventId).Pairwise (· < ·)
  given : ∀ row ∈ log, row.eventId ≤ l.lastEvent

namespace Chronicle

variable {s : Service} {log : List EventRow}

theorem empty : Chronicle .empty [] :=
  ⟨empty_inOrder, .slnil, .nil, List.forall_mem_nil _⟩

theorem eq_of_eventId {l : Ledger} (h : Chronicle l log) {row row' : EventRow} (hrow : row ∈ log)
    (hrow' : row' ∈ log) (hid : row'.eventId = row.eventId) : row' = row := by
  have hnodup : (log.map EventRow.eventId).Nodup := h.sorted.imp fun hlt => by omega
  exact List.inj_on_of_nodup_map hnodup hrow' hrow hid

/-- An event that comes in has an id above every one that was given out, also to events that are
gone. -/
theorem above (h : Chronicle s.ledger log) (o : Occurrence) {row : EventRow}
    (hrow : row ∈ o.newEvents s) : s.ledger.lastEvent < row.eventId ∧
      row.eventId ≤ (o.perform s).ledger.lastEvent := by
  have hwrites := o.perform_writes s
  have hmem : row ∈ (o.perform s).ledger.events := List.mem_of_mem_drop hrow
  rcases hwrites.changes.onward.mem_events hmem with hold | habove
  -- a row that was there would come in a second time, under an id that is taken
  · rcases o.perform_events s with happended | ⟨-, hnone⟩
    · have hsorted := (h.inOrder.writes hwrites).events.sorted
      rw [happended, List.map_append] at hsorted
      have := (List.pairwise_append.1 hsorted).2.2 _ (List.mem_map_of_mem hold) _
        (List.mem_map_of_mem hrow)
      omega
    · rw [hnone] at hrow
      cases hrow
  · exact habove

theorem perform (h : Chronicle s.ledger log) (o : Occurrence) :
    Chronicle (o.perform s).ledger (log ++ o.newEvents s) where
  inOrder := h.inOrder.writes (o.perform_writes s)
  kept := (o.perform_sublist s).trans (h.kept.append_right _)
  sorted := by
    have hnew : ((o.newEvents s).map EventRow.eventId).Pairwise (· < ·) :=
      (h.inOrder.writes (o.perform_writes s)).events.sorted.sublist ((List.drop_sublist ..).map _)
    rw [List.map_append]
    refine List.pairwise_append.2 ⟨h.sorted, hnew, fun i hi j hj => ?_⟩
    obtain ⟨row, hrow, rfl⟩ := List.mem_map.1 hi
    obtain ⟨row', hrow', rfl⟩ := List.mem_map.1 hj
    have := h.given row hrow
    have := h.above o hrow'
    omega
  given row hrow := by
    rcases List.mem_append.1 hrow with hold | hnew
    · have := h.given row hold
      have := (o.perform_writes s).changes.onward.lastEvent_le
      omega
    · exact (h.above o hnew).2

theorem run (h : Chronicle s.ledger log) (course : List Occurrence) :
    Chronicle (Occurrence.run course s).ledger (log ++ Occurrence.eventsIn s course) := by
  induction course generalizing s log with
  | nil => simpa [Occurrence.run, Occurrence.eventsIn] using h
  | cons o course ih =>
    rw [Occurrence.eventsIn, ← List.append_assoc]
    exact ih (h.perform o)

end Chronicle

/-! ## Groups -/

namespace Ledger

variable {l l' : Ledger}

/-- Every solicitation that names a group belongs to one that is there. -/
def Grouped (l : Ledger) : Prop :=
  ∀ row ∈ l.envelopes, ∀ groupId ∈ row.groupId, ∃ g ∈ l.groups, g.groupId = groupId

theorem grouped_rowwise : Rowwise fun l l' => l.Grouped → l'.Grouped where
  refl _ h := h
  trans h h' hgrouped := h' (h hgrouped)
  insertGroup h hgrouped := by
    obtain rfl := insertGroup_eq_ok h
    intro row hrow name hname
    obtain ⟨g, hg, heq⟩ := hgrouped row hrow name hname
    exact ⟨g, List.mem_append_left _ hg, heq⟩
  insertEnvelope h hgrouped := by
    obtain ⟨⟨⟩, -, h⟩ := bind_eq_ok_iff.1 h
    obtain ⟨next, -, h⟩ := bind_eq_ok_iff.1 h
    split at h
    · rename_i hgroup
      cases h
      intro row hrow name hname
      rcases List.mem_append.1 hrow with hold | hnew
      · exact hgrouped row hold name hname
      · rw [List.mem_singleton.1 hnew] at hname
        obtain ⟨g, hg, heq⟩ := List.any_eq_true.1 ((Option.all_eq_true _ _).1 hgroup name hname)
        exact ⟨g, hg, of_decide_eq_true heq⟩
    · cases h
  insertEvent h hgrouped := by
    obtain ⟨rfl, -⟩ := insertEvent_eq_ok h
    exact hgrouped
  record h hgrouped := by
    obtain rfl := record_eq_ok h
    exact hgrouped

theorem Write.grouped (h : Write l l') (hgrouped : l.Grouped) : l'.Grouped :=
  grouped_rowwise.write (fun _ _ hgrouped => hgrouped) (fun _ _ hgrouped => hgrouped) h hgrouped

theorem Built.grouped (h : l.Built) : l.Grouped := by
  induction h with
  | refl => exact List.forall_mem_nil _
  | tail _ hwrite ih => exact hwrite.grouped ih

end Ledger

/-! ## Operations that are refused -/

/-- The error of a write that was refused. -/
def refusal? {α : Type} : Except StoreError α → Option StoreError
  | .error e => some e
  | .ok _ => none

namespace Operation

/-- The error of an operation that is a write to the store, if it is refused. -/
def refusal? (s : Service) : Operation → Option StoreError
  | create new requesterId status time =>
    GridDispatch.refusal? (s.ledger.create new requesterId status time)
  | createBatch g news status time =>
    GridDispatch.refusal? (s.ledger.createBatch g news status time)
  | append id actor status time => GridDispatch.refusal? (s.ledger.append id actor status time)
  | appendIfCurrent id seen actor status time justification =>
    GridDispatch.refusal? (s.ledger.appendIfCurrent id seen actor status time justification)
  | record id userId kind content => GridDispatch.refusal? (s.ledger.record id userId kind content)
  | request _ | setClock _ => none

variable {s : Service}

theorem perform_of_refusal? {op : Operation} {e : StoreError} (h : op.refusal? s = some e) :
    op.perform s = s := by
  have hwrote {α : Type} {answer : Except StoreError (α × Ledger)}
      (h : GridDispatch.refusal? answer = some e) : s.wrote answer = s := by
    cases answer with
    | error e => rfl
    | ok written => cases h
  cases op with
  | create | createBatch | append | appendIfCurrent | record => exact hwrote h
  | request | setClock => cases h

/-- A group with a name that is taken, or with a negative time, is refused with all of its
solicitations. -/
theorem createBatch_refused {g : Group} (news : List NewSolicitation) (status : Status) (time : Int)
    (h : g.creationTotalTime < 0 ∨ ∃ g' ∈ s.ledger.groups, g'.groupId = g.groupId) :
    ∃ e, (createBatch g news status time).refusal? s = some e := by
  have hgroup : ∃ e, s.ledger.insertGroup g = .error e := by
    simp only [insertGroup]
    split
    · exact ⟨_, rfl⟩
    · split
      · exact ⟨_, rfl⟩
      · rename_i htotal
        obtain ⟨g', hg', heq⟩ := h.resolve_left htotal
        have hused : (s.ledger.groups.any fun g' => decide (g'.groupId = g.groupId)) = true :=
          List.any_eq_true.2 ⟨g', hg', decide_eq_true heq⟩
        exact ⟨_, if_pos hused⟩
  obtain ⟨e, he⟩ := hgroup
  have hbatch : s.ledger.createBatch g news status time = .error e := by
    rw [Ledger.createBatch, he]
    rfl
  exact ⟨e, by rw [refusal?, hbatch]; rfl⟩

theorem append_refused {id : Int} (actor : Option String) (status : Status) (time : Int)
    (h : ¬ s.ledger.hasEnvelope id = true) :
    (append id actor status time).refusal? s = some (.noSolicitation id) := by
  rw [refusal?, Ledger.append, if_neg h]
  rfl

theorem appendIfCurrent_refused {id : Int} {seen : Marker} (actor : Option String) (status : Status)
    (time : Int) (justification : Option String)
    (h : ∀ head, s.ledger.head? id = some head → head.eventId ≠ seen.headEventId) :
    ∃ e, (appendIfCurrent id seen actor status time justification).refusal? s = some e := by
  simp only [refusal?, Ledger.appendIfCurrent]
  split
  · exact ⟨_, rfl⟩
  · rename_i head hhead
    rw [if_neg (h head hhead)]
    exact ⟨_, rfl⟩

end Operation

/-! ## Any course of occurrences -/

/-- From an empty ledger on, whatever is done and whatever is taken away: an envelope stays for
good, and an event stays as it is until it is taken away, since nothing else comes under its id.
The ids of the events that come in go up in the order of writing, and so do those of the
solicitations. Every event and update belongs to a solicitation and every solicitation of a group
to a group. A write that is refused leaves everything as it was; and one is refused that repeats a
group, that has a negative time, that is about no solicitation, or that asks for a head that is not
the head. -/
theorem Occurrence.append_only (s : Service) (before after : List Occurrence) :
    let start : Service := { s with ledger := .empty }
    let p := run before start
    let q := run after p
    (p.ledger.envelopes <+: q.ledger.envelopes ∧
      (q.ledger.envelopes.map EnvelopeRow.id).Pairwise (· < ·)) ∧
    (q.ledger.events.Sublist (p.ledger.events ++ eventsIn p after) ∧
      (∀ row ∈ eventsIn start before, ∀ row' ∈ q.ledger.events,
        row'.eventId = row.eventId → row' = row) ∧
      ((eventsIn start (before ++ after)).map EventRow.eventId).Pairwise (· < ·)) ∧
    (q.ledger.Referenced ∧ q.ledger.Grouped) ∧
    (∀ op e, Operation.refusal? q op = some e → op.perform q = q) ∧
    (∀ g news status time,
      g.creationTotalTime < 0 ∨ (∃ g' ∈ q.ledger.groups, g'.groupId = g.groupId) →
      ∃ e, (Operation.createBatch g news status time).refusal? q = some e) ∧
    (∀ id actor status time, ¬ q.ledger.hasEnvelope id = true →
      (Operation.append id actor status time).refusal? q = some (.noSolicitation id)) ∧
    ∀ id (seen : Marker) actor status time justification,
      (∀ head, q.ledger.head? id = some head → head.eventId ≠ seen.headEventId) →
      ∃ e, (Operation.appendIfCurrent id seen actor status time justification).refusal? q =
        some e := by
  intro start p q
  have hbuilt : q.ledger.Built := (run_writes before start).trans (run_writes after p)
  have hfirst : Chronicle p.ledger (eventsIn start before) :=
    Chronicle.run (s := start) .empty before
  have hall : Chronicle q.ledger (eventsIn start (before ++ after)) := by
    rw [eventsIn_append]
    exact hfirst.run after
  refine ⟨⟨run_envelopes after p, hbuilt.inOrder.envelopes.sorted⟩,
    ⟨run_sublist after p, fun row hrow row' hrow' => ?_, hall.sorted⟩,
    ⟨hbuilt.referenced, hbuilt.grouped⟩, fun _ _ h => Operation.perform_of_refusal? h,
    fun _ news status time h => Operation.createBatch_refused news status time h,
    fun _ actor status time h => Operation.append_refused actor status time h,
    fun _ _ actor status time justification h =>
      Operation.appendIfCurrent_refused actor status time justification h⟩
  refine hall.eq_of_eventId ?_ (hall.kept.subset hrow')
  rw [eventsIn_append]
  exact List.mem_append_left _ hrow

end GridDispatch
