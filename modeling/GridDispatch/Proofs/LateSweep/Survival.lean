import GridDispatch.Proofs.LateSweep.Candidates
import Mathlib.Data.List.Flatten

/-!
# A sweep survives every race

Main statement: `Shared.markLate_survives`. Whatever others append, delete or do to the clock while a
sweep is on its way, it makes nothing of the service but its marks, one for a candidate at most, and
announces them; a candidate that others do not touch is marked, and none that they have moved on or
taken away stops those after it. Only the storage can do that, by refusing an event, which
`Shared.not_swept_of_spent` shows; those before it were gone through all the same.
-/

namespace GridDispatch

open Ledger

namespace Ledger

variable {l : Ledger} {id cutoff : Int}

theorem hasEnvelope_of_mem_stale (h : id ∈ l.stale cutoff) : l.hasEnvelope id = true := by
  obtain ⟨row, hrow, hid⟩ := List.mem_filterMap.1 ((List.mergeSort_perm _ _).subset h)
  refine List.any_eq_true.2 ⟨row, hrow, ?_⟩
  split at hid
  · split at hid
    · cases hid
      exact decide_eq_true rfl
    · cases hid
  · cases hid

theorem accepted_of_mem_stale (h : id ∈ l.stale cutoff) : l.Accepted id := by
  obtain ⟨row, hrow, haccepted, -⟩ := mem_stale h
  exact ⟨row, hrow, haccepted⟩

/-- No solicitation is found twice. -/
theorem nodup_stale (h : (l.envelopes.map EnvelopeRow.id).Nodup) : (l.stale cutoff).Nodup := by
  refine (List.mergeSort_perm _ _).nodup_iff.2 (h.sublist ?_)
  generalize l.envelopes = rows
  induction rows with
  | nil => exact .slnil
  | cons row rows ih =>
    rw [List.filterMap_cons, List.map_cons]
    split
    · exact ih.cons _
    · rename_i id' hid
      split at hid
      · split at hid
        · cases hid
          exact ih.cons_cons _
        · cases hid
      · cases hid

end Ledger

/-- What a sweep that begins in `start` has made of it when it has given its answer, amid these acts
of others: the happenings, and updates of the solicitations that are told of. -/
structure Service.Swept (start : Service) (acts : List Interference)
    (answer : Except WorkflowError (List Int)) (q : Service) (trace : List Happening)
    (told : List Int) (updates : List Update) : Prop where
  /-- Nothing has happened but the acts of the others and the marks of the sweep. -/
  happened : Happened start trace q
  others : trace.filterMap Happening.act? = acts
  /-- Candidates were marked in order, each once at most. -/
  marked : (trace.filterMap Happening.marked?).Sublist (start.ledger.stale start.cutoff)
  nodup : (start.ledger.stale start.cutoff).Nodup
  ok : ∀ ids, answer = .ok ids → ids = trace.filterMap Happening.marked? ∧
    ∀ id ∈ start.ledger.stale start.cutoff, id ∈ ids ∨ ∃ x ∈ trace, x.Touches id
  /-- The storage refuses the event of a candidate when those before it were gone through. -/
  error : ∀ e, answer = .error e → ∃ done id rest,
    start.ledger.stale start.cutoff = done ++ id :: rest ∧
      (trace.filterMap Happening.marked?).Sublist done ∧
      (∀ i ∈ done, i ∈ trace.filterMap Happening.marked? ∨ ∃ x ∈ trace, x.Touches i) ∧
      q.RefusesLate id e
  /-- The updates that came in tell of the marks in order, each once at most. -/
  added : q.ledger.updates = start.ledger.updates ++ updates.map UpdateRow.of
  announced : told.Sublist (trace.filterMap Happening.marked?)
  tells : List.Forall₂ Update.TellsLate told updates

/-- The storage takes one event more if it has ids left for that and for all that has happened. -/
theorem Happened.not_refusesLate {start q : Service} {trace : List Happening} {id : Int}
    {e : WorkflowError} (h : Happened start trace q) (hopen : start.ledger.Open .event)
    (hknown : start.ledger.hasEnvelope id = true)
    (hroom : Room start.ledger.lastEvent (start.ledger.events.map EventRow.eventId)
      (trace.length + 1)) : ¬ q.RefusesLate id e := by
  rintro ⟨fault, time, -, hfault⟩
  refine insertEvent_ne_error ?_ ?_ ?_ hfault
  · intro cell
    rw [passGuards, h.moved.guards]
    exact hopen cell
  · have htop := h.moved.top
    simp only [Room] at hroom ⊢
    omega
  · rw [hasEnvelope, h.moved.envelopes]
    exact hknown

namespace Shared

/-- A sweep amid others makes its marks and announces them, and nothing else. It gives the ids of its
marks, and each candidate that is not among them was touched by others; or the storage refuses the
event of a candidate, and that goes for the candidates before it only. The storage refuses none if it
takes every event and has ids left. The sweep announces each of its marks if the storage takes every
update and has tokens left. -/
theorem markLate_survives (s : Service) (others : List (List Interference))
    (hread : ∀ row ∈ s.ledger.events, ∃ e, row.read = .ok e)
    (hkeys : (s.ledger.envelopes.map EnvelopeRow.id).Nodup) (hn : s.ledger.Numbered) :
    let start := Interference.run (others.take 1).flatten s
    let candidates := start.ledger.stale start.cutoff
    ∃ n answer q trace told updates,
      (s.amid others).markLate = (answer, q.amid ((others.drop 1).drop n)) ∧
      start.Swept ((others.drop 1).take n).flatten answer q trace told updates ∧
      (s.ledger.Open .event →
        Room start.ledger.lastEvent (start.ledger.events.map EventRow.eventId)
          ((others.drop 1).flatten.length + candidates.length) → ∃ ids, answer = .ok ids) ∧
      (s.ledger.Open .update →
        Room start.ledger.lastUpdate (start.ledger.updates.map UpdateRow.streamId)
          candidates.length → told = trace.filterMap Happening.marked?) := by
  intro start candidates
  have hmoved := (Interference.trace_happened (others.take 1).flatten s).moved
  have hlater : (s.amid others).later = start.amid (others.drop 1) := s.iterate_later_amid others 1
  have hnodup : candidates.Nodup := nodup_stale (hmoved.envelopes ▸ hkeys)
  obtain ⟨n, answer, q, trace, hmarked, hhappened, hothers, hswept⟩ :=
    markEach_amid candidates start (others.drop 1) hnodup (hmoved.legible hread)
      (hn.onward hmoved.onward)
  obtain ⟨told, updates, hupdates, hannounced, htells, hall⟩ := hhappened.updates
  have hanswer : (s.amid others).markLate = (answer, q.amid ((others.drop 1).drop n)) := by
    rw [markLate, readClock_eq, hlater]
    exact hmarked
  have hopen {table : Table} (h : s.ledger.Open table) : start.ledger.Open table := by
    intro cell
    rw [passGuards, hmoved.guards]
    exact h cell
  have hknown {id : Int} (hid : id ∈ candidates) : start.ledger.hasEnvelope id = true :=
    hasEnvelope_of_mem_stale hid
  have hmarks : (trace.filterMap Happening.marked?).Sublist candidates := by
    cases answer with
    | ok ids => exact hswept.2.marks
    | error e =>
      obtain ⟨done, id, rest, hcandidates, hdone, -⟩ := hswept
      rw [hcandidates]
      exact hdone.marks.trans (List.sublist_append_left ..)
  refine ⟨n, answer, q, trace, told, updates, hanswer,
    ⟨hhappened, hothers, hmarks, hnodup, ?_, ?_, hupdates, hannounced, htells⟩, ?_, ?_⟩
  · rintro ids rfl
    obtain ⟨rfl, hall⟩ := hswept
    exact ⟨rfl, fun id hid => hall.reached id hid (accepted_of_mem_stale hid)⟩
  · rintro e rfl
    obtain ⟨done, id, rest, hcandidates, hdone, hrefuses⟩ := hswept
    refine ⟨done, id, rest, hcandidates, hdone.marks, fun i hi => ?_, hrefuses⟩
    have hstale : i ∈ candidates := hcandidates ▸ List.mem_append_left _ hi
    exact hdone.reached i hi (accepted_of_mem_stale hstale)
  · intro hevents hroom
    cases answer with
    | ok ids => exact ⟨ids, rfl⟩
    | error e =>
      obtain ⟨done, id, rest, hcandidates, hdone, hrefuses⟩ := hswept
      have hid : id ∈ candidates := by
        rw [hcandidates]
        exact List.mem_append_right _ List.mem_cons_self
      -- an act of others and a candidate that was gone through each took one id at most
      have hacts : (trace.filterMap Happening.act?).length ≤ (others.drop 1).flatten.length := by
        rw [hothers]
        exact (List.take_sublist n _).flatten.length_le
      have hlength := hhappened.length_eq
      have hle := hdone.marks.length_le
      have hcount : candidates.length = done.length + (rest.length + 1) := by
        rw [hcandidates, List.length_append, List.length_cons]
      have hleft : Room start.ledger.lastEvent (start.ledger.events.map EventRow.eventId)
          (trace.length + 1) := by
        simp only [Room] at hroom ⊢
        omega
      exact absurd hrefuses (hhappened.not_refusesLate (hopen hevents) (hknown hid) hleft)
  · intro hopened hroom
    refine hall ⟨hopen hopened, fun id hid => hknown (hmarks.subset hid), ?_⟩
    have hle := hmarks.length_le
    simp only [Room] at hroom ⊢
    omega

end Shared

/-- A service with two solicitations of CTEEP that were accepted long ago, and with the last id that
an event has got. -/
def Service.waiting (lastEvent : Int) : Service where
  ledger :=
    { Ledger.empty with
      envelopes := [1, 2].map fun id => .of id
        ⟨.reactor, .turnOn, "MOS", "CTEEP", .switched 1 false none⟩ "ana" none
      events := [⟨1, 1, some "ana", .new, 100, none⟩, ⟨2, 2, some "ana", .new, 100, none⟩,
        ⟨3, 1, some "tito", .accepted, 200, none⟩,
        ⟨4, 2, some "tito", .accepted, 200, none⟩].map EventRow.of
      lastEnvelope := 2
      lastEvent }
  directory := ⟨.empty, []⟩
  settings := .default
  bus := .silent
  now := 1000

theorem Service.waiting_legible (lastEvent : Int) :
    ∀ row ∈ (waiting lastEvent).ledger.events, ∃ e, row.read = .ok e :=
  List.forall_mem_map.2 fun e _ => ⟨e, EventRow.read_of e⟩

theorem Service.waiting_numbered {lastEvent : Int} (h : 4 ≤ lastEvent) :
    (waiting lastEvent).ledger.Numbered := by
  have hids : (waiting lastEvent).ledger.events.map EventRow.eventId = [1, 2, 3, 4] := rfl
  constructor
  · intro id
    have hnodup : ((waiting lastEvent).ledger.events.map EventRow.eventId).Nodup := by
      rw [hids]
      decide
    exact hnodup.sublist (List.filter_sublist.map EventRow.eventId)
  · intro row hrow
    have hmem := List.mem_map_of_mem (f := EventRow.eventId) hrow
    rw [hids] at hmem
    have hle : ∀ i ∈ [1, 2, 3, 4], i ≤ (4 : Int) := by decide
    exact Int.le_trans (hle _ hmem) h

namespace Shared

/-- The first candidate is contested right when its turn has come, and the second is marked. -/
theorem markLate_survives_contest :
    let s := Service.waiting 4
    let acts := [Interference.append 1 (some "tito") .contested 900]
    (∀ row ∈ s.ledger.events, ∃ e, row.read = .ok e) ∧
      (s.ledger.envelopes.map EnvelopeRow.id).Nodup ∧ s.ledger.Numbered ∧
      s.ledger.stale s.cutoff = [1, 2] ∧ (s.amid [[], acts]).markLate.1 = .ok [2] ∧
      ∃ q trace updates, s.Swept acts (.ok [2]) q trace [2] updates := by
  intro s acts
  have hcandidates : s.ledger.stale s.cutoff = [1, 2] := by cbv
  have hanswer : (s.amid [[], acts]).markLate.1 = .ok [2] := by cbv
  have hrest : (s.amid [[], acts]).markLate.2.meanwhile = [] := by cbv
  have hnumbered := Service.waiting_numbered (Int.le_refl 4)
  refine ⟨Service.waiting_legible 4, by decide, hnumbered, hcandidates, hanswer, ?_⟩
  obtain ⟨n, answer, q, trace, told, updates, hmarked, hswept, -, hall⟩ :=
    markLate_survives s [[], acts] (Service.waiting_legible 4) (by decide) hnumbered
  rw [hmarked] at hanswer
  obtain rfl : answer = .ok [2] := hanswer
  obtain ⟨hids, -⟩ := hswept.ok [2] rfl
  have hroom : Room 0 [] ([1, 2] : List Int).length :=
    (by decide : (0 : Int) + (2 : Nat) ≤ Text.Range.signed.hi)
  rw [← hcandidates] at hroom
  obtain rfl := (hall (fun cell => rfl) hroom).trans hids.symm
  rw [hmarked] at hrest
  have hread : [acts].length ≤ n := List.drop_eq_nil_iff.1 (List.map_eq_nil_iff.1 hrest)
  have hacts : (([[], acts].drop 1).take n).flatten = acts := by
    rw [List.drop_one, List.tail_cons, List.take_of_length_le hread]
    exact List.append_nil acts
  exact ⟨q, trace, updates, hacts ▸ hswept⟩

/-- If no id of an event is left, the sweep is at its end with the first candidate. -/
theorem not_swept_of_spent :
    let s := Service.waiting Text.Range.signed.hi
    (∀ row ∈ s.ledger.events, ∃ e, row.read = .ok e) ∧
      (s.ledger.envelopes.map EnvelopeRow.id).Nodup ∧ s.ledger.Numbered ∧
      s.ledger.stale s.cutoff = [1, 2] ∧ ¬ ∃ ids, (s.amid []).markLate.1 = .ok ids := by
  intro s
  have hanswer : (s.amid []).markLate.1 = .error (.store .idsUsedUp) := by cbv
  refine ⟨Service.waiting_legible _, by decide, Service.waiting_numbered (by decide), by cbv, ?_⟩
  rintro ⟨ids, hids⟩
  rw [hanswer] at hids
  cases hids

end Shared

end GridDispatch
