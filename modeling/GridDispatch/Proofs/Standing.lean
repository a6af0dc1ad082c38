import GridDispatch.Proofs.Ledger.History
import Mathlib.Data.List.Pairwise
import Mathlib.Data.Prod.Lex

/-!
# The standing that events have

Events are ordered by their moments, which are pairs of a time and an id, and `State.Stands` says what
the standing of some events is: all of them in this order with the latest first, what the latest
tells, and the time of the earliest. Events of one moment stay as they were given, so there is one
such standing only (`State.Stands.unique`), and the one that is read off the events is it. Where the
ids differ, the order in which the events are given does not matter. Main statement:
`State.standing_exact`.
-/

namespace GridDispatch

/-- Where an event stands among others: its time and, within a second, its id. -/
def Event.moment (e : Event) : Int ×ₗ Int := toLex (e.time, e.eventId)

theorem Event.newer_iff_moment_le {a b : Event} : a.newer b = true ↔ b.moment ≤ a.moment := by
  rw [newer_iff, moment, moment, Prod.Lex.toLex_le_toLex, eq_comm (a := a.time)]

/-- The latest first. -/
def Ordered (events : List Event) : Prop :=
  events.Pairwise fun a b => b.moment ≤ a.moment

/-- The events of one moment, in the order in which they are given. -/
def eventsAt (m : Int ×ₗ Int) (events : List Event) : List Event :=
  events.filter fun e => decide (e.moment = m)

/-- The standing `s` is that of the events. -/
structure State.Stands (s : State) (events : List Event) : Prop where
  perm : s.events.Perm events
  ordered : Ordered s.events
  stable : ∀ m, eventsAt m s.events = eventsAt m events
  latest : ∃ head, s.events.head? = some head ∧ s.status = head.status ∧ s.updatedAt = head.time ∧
    s.headEventId = head.eventId ∧ ∀ e ∈ events, e.moment ≤ head.moment
  earliest : (∃ e ∈ events, e.time = s.createdAt) ∧ ∀ e ∈ events, s.createdAt ≤ e.time

section Order

variable {a e : Event} {xs ys events events' : List Event} {m : Int ×ₗ Int}

theorem mem_eventsAt : e ∈ eventsAt m events ↔ e ∈ events ∧ e.moment = m := by
  simp [eventsAt]

theorem eventsAt_cons_of_eq (h : e.moment = m) : eventsAt m (e :: events) = e :: eventsAt m events :=
  List.filter_cons_of_pos (decide_eq_true h)

theorem eventsAt_cons_of_ne (h : e.moment ≠ m) : eventsAt m (e :: events) = eventsAt m events :=
  List.filter_cons_of_neg (by simpa using h)

theorem ordered_newestFirst (events : List Event) : Ordered (newestFirst events) :=
  (newestFirst_sorted events).imp Event.newer_iff_moment_le.1

theorem Ordered.le_head (h : Ordered (a :: xs)) (he : e ∈ a :: xs) : e.moment ≤ a.moment := by
  rcases List.mem_cons.1 he with rfl | he
  · exact le_refl _
  · exact List.rel_of_pairwise_cons h he

/-- Events of one moment are in order as they are given, so they stay so among others. -/
theorem eventsAt_newestFirst (m : Int ×ₗ Int) (events : List Event) :
    eventsAt m (newestFirst events) = eventsAt m events := by
  have hequal : (eventsAt m events).Pairwise fun a b => a.newer b = true := by
    refine List.pairwise_of_forall_mem_list fun a ha b hb => ?_
    rw [Event.newer_iff_moment_le, (mem_eventsAt.1 ha).2, (mem_eventsAt.1 hb).2]
  have hkept : (eventsAt m events).Sublist (newestFirst events) :=
    List.sublist_mergeSort Event.newer_trans Event.newer_total hequal List.filter_sublist
  have hkept : (eventsAt m events).Sublist (eventsAt m (newestFirst events)) := by
    have hfilter := hkept.filter fun e => decide (e.moment = m)
    rwa [eventsAt, List.filter_filter, funext fun e => Bool.and_self _] at hfilter
  have hlength := ((newestFirst_perm events).filter fun e => decide (e.moment = m)).length_eq
  exact (hkept.eq_of_length hlength.symm).symm

/-- Events that are in order are known from those of each moment. -/
theorem Ordered.eq_of_eventsAt (hx : Ordered xs) (hy : Ordered ys)
    (h : ∀ m, eventsAt m xs = eventsAt m ys) : xs = ys := by
  induction xs generalizing ys with
  | nil =>
    cases ys with
    | nil => rfl
    | cons b ys =>
      have hb := h b.moment
      rw [eventsAt_cons_of_eq rfl] at hb
      cases hb
  | cons a xs ih =>
    have hmem {e : Event} : e ∈ a :: xs ↔ e ∈ ys := by
      have hat {zs : List Event} : e ∈ zs ↔ e ∈ eventsAt e.moment zs := by simp [mem_eventsAt]
      rw [hat, h, ← hat]
    cases ys with
    | nil => exact absurd (hmem.1 List.mem_cons_self) List.not_mem_nil
    | cons b ys =>
      -- neither of the first events is later than the other, so they are the first of one moment
      have hsame : b.moment = a.moment :=
        le_antisymm (hx.le_head (hmem.2 List.mem_cons_self)) (hy.le_head (hmem.1 List.mem_cons_self))
      have hfirst := h a.moment
      rw [eventsAt_cons_of_eq rfl, eventsAt_cons_of_eq hsame] at hfirst
      obtain ⟨rfl, hrest⟩ := List.cons.inj hfirst
      refine congrArg _ (ih hx.tail hy.tail fun m => ?_)
      by_cases hm : a.moment = m
      · exact hm ▸ hrest
      · have htail := h m
        rwa [eventsAt_cons_of_ne hm, eventsAt_cons_of_ne hm] at htail

/-- With ids of their own, events come out in one order however they are given. -/
theorem newestFirst_of_perm (hids : (events.map Event.eventId).Nodup) (h : events.Perm events') :
    newestFirst events = newestFirst events' := by
  have hsame := (newestFirst_perm events).trans (h.trans (newestFirst_perm events').symm)
  exact eq_of_newer_of_nodup (newestFirst_sorted events) (newestFirst_sorted events') hsame
    (((newestFirst_perm events).map _).nodup_iff.2 hids)

end Order

namespace State

variable {s s' : State} {events events' : List Event}

/-- Events have one standing only. -/
theorem Stands.unique (h : s.Stands events) (h' : s'.Stands events) : s = s' := by
  have hevents : s.events = s'.events :=
    h.ordered.eq_of_eventsAt h'.ordered fun m => (h.stable m).trans (h'.stable m).symm
  obtain ⟨head, hhead, hstatus, hupdated, hid, -⟩ := h.latest
  obtain ⟨head', hhead', hstatus', hupdated', hid', -⟩ := h'.latest
  obtain ⟨⟨first, hfirst, hcreated⟩, hleast⟩ := h.earliest
  obtain ⟨⟨first', hfirst', hcreated'⟩, hleast'⟩ := h'.earliest
  rw [hevents, hhead'] at hhead
  cases hhead
  have hage : s.createdAt = s'.createdAt :=
    le_antisymm (hcreated' ▸ hleast first' hfirst') (hcreated ▸ hleast' first hfirst)
  cases s
  cases s'
  rw [State.mk.injEq]
  exact ⟨hstatus.trans hstatus'.symm, hage, hupdated.trans hupdated'.symm, hid.trans hid'.symm,
    hevents⟩

theorem stands_of_ofEvents? (h : State.ofEvents? events = some s) : s.Stands events := by
  have hevents := events_of_ofEvents? h
  obtain ⟨head, hhead, hstatus, hupdated, hid⟩ := newest_of_ofEvents? h
  obtain ⟨first, hfirst, hcreated, hleast⟩ := oldest_of_ofEvents? h
  constructor
  · rw [hevents]
    exact newestFirst_perm events
  · rw [hevents]
    exact ordered_newestFirst events
  · rw [hevents]
    exact fun m => eventsAt_newestFirst m events
  · refine ⟨head, hevents ▸ hhead, hstatus, hupdated, hid, fun e he => ?_⟩
    exact Event.newer_iff_moment_le.1 (newer_of_newest hhead he)
  · exact ⟨⟨first, hfirst, hcreated⟩, hcreated ▸ hleast⟩

theorem ofEvents?_eq_some_iff : State.ofEvents? events = some s ↔ s.Stands events := by
  refine ⟨stands_of_ofEvents?, fun h => ?_⟩
  cases hof : State.ofEvents? events with
  | none =>
    obtain ⟨⟨first, hfirst, -⟩, -⟩ := h.earliest
    rw [ofEvents?_eq_none_iff.1 hof] at hfirst
    cases hfirst
  | some s' => rw [(stands_of_ofEvents? hof).unique h]

theorem ofEvents?_of_perm (hids : (events.map Event.eventId).Nodup) (h : events.Perm events') :
    State.ofEvents? events = State.ofEvents? events' := by
  rw [← ofEvents?_newestFirst, newestFirst_of_perm hids h, ofEvents?_newestFirst]

/-- No events have no standing, and the one that is read off any others is theirs. It is the same
however events with ids of their own are given, and the same again off the events that it holds. -/
theorem standing_exact (events : List Event) :
    (State.ofEvents? events = none ↔ events = []) ∧
    (∀ s, State.ofEvents? events = some s ↔ s.Stands events) ∧
    (∀ events', (events.map Event.eventId).Nodup → events.Perm events' →
      State.ofEvents? events = State.ofEvents? events') ∧
    ∀ s, State.ofEvents? events = some s → State.ofEvents? s.events = some s := by
  refine ⟨ofEvents?_eq_none_iff, fun s => ofEvents?_eq_some_iff, fun events' => ofEvents?_of_perm, ?_⟩
  intro s h
  rw [events_of_ofEvents? h, ofEvents?_newestFirst, h]

/-- Three events of which two share a second, given in order and in another order; and two that share
the id as well, which stay as they are given. -/
theorem standing_exact_of_tie :
    let new : Event := ⟨7, 1, some "ana", .new, 100, none⟩
    let accepted : Event := ⟨8, 1, some "tito", .accepted, 100, none⟩
    let late : Event := ⟨9, 1, none, .late, 400, none⟩
    let twin : Event := { new with status := .blocked }
    let s : State := ⟨.late, 100, 400, 9, [late, accepted, new]⟩
    (State.ofEvents? [late, accepted, new] = some s ∧
        ([late, accepted, new].map Event.eventId).Nodup ∧
        [late, accepted, new].Perm [new, late, accepted]) ∧
      State.ofEvents? [new, late, accepted] = some s ∧ State.ofEvents? s.events = some s ∧
      s.Stands [late, accepted, new] ∧
      State.Stands ⟨.blocked, 100, 100, 7, [twin, new]⟩ [twin, new] := by
  intro new accepted late twin s
  have hsorted : newestFirst [late, accepted, new] = [late, accepted, new] :=
    List.mergeSort_of_pairwise (by decide)
  have htwins : newestFirst [twin, new] = [twin, new] := List.mergeSort_of_pairwise (by decide)
  have hof : State.ofEvents? [late, accepted, new] = some s := by
    rw [State.ofEvents?, hsorted]
    rfl
  have hids : ([late, accepted, new].map Event.eventId).Nodup := by decide
  have hperm : [late, accepted, new].Perm [new, late, accepted] := by decide
  obtain ⟨-, hstands, hgiven, hagain⟩ := standing_exact [late, accepted, new]
  refine ⟨⟨hof, hids, hperm⟩, ?_, hagain s hof, (hstands s).1 hof, ?_⟩
  · rw [← hgiven _ hids hperm, hof]
  · refine ((standing_exact [twin, new]).2.1 _).1 ?_
    rw [State.ofEvents?, htwins]
    rfl

end State

end GridDispatch
