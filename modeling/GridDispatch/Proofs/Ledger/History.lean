import GridDispatch.Ledger.Reading
import GridDispatch.Proofs.Checked
import Mathlib.Data.List.Nodup
import Mathlib.Data.Set.List

/-!
# The history of a solicitation

`written` is the events of a solicitation in the order in which they were written, and `Logs` says
that they are the rows of a list of events, as they are wherever the standing can be read
(`state?_eq_ok_iff`). The head is then the newest of that list (`Logs.head?`), and it is the last
one when no event is older than the one before it (`newestFirst_of_chronological`).
-/

namespace GridDispatch

/-! ## The newest of some events -/

theorem Event.newer_refl (e : Event) : e.newer e = true :=
  Event.newer_iff.2 (.inr ⟨rfl, Int.le_refl _⟩)

theorem Event.eventId_eq_of_newer {a b : Event} (hab : a.newer b = true) (hba : b.newer a = true) :
    a.eventId = b.eventId := by
  rw [Event.newer_iff] at hab hba
  omega

theorem mem_of_newest {log : List Event} {head : Event}
    (h : (newestFirst log).head? = some head) : head ∈ log :=
  (newestFirst_perm log).subset (List.mem_of_head? h)

theorem newer_of_newest {log : List Event} {head : Event}
    (h : (newestFirst log).head? = some head) {e : Event} (he : e ∈ log) :
    head.newer e = true := by
  have hsorted := newestFirst_sorted log
  have hmem := (newestFirst_perm log).symm.subset he
  cases hlist : newestFirst log with
  | nil => simp [hlist] at h
  | cons a rest =>
    rw [hlist] at h hsorted hmem
    cases h
    rcases List.mem_cons.1 hmem with rfl | hrest
    · exact Event.newer_refl e
    · exact List.rel_of_pairwise_cons hsorted hrest

/-- Nothing is older than the last of events that stand with the newest first. -/
theorem newer_getLast {events : List Event} (h : events.Pairwise fun a b => a.newer b = true)
    (hne : events ≠ []) {e : Event} (he : e ∈ events) : e.newer (events.getLast hne) = true := by
  have hsplit := List.dropLast_concat_getLast hne
  rw [← hsplit] at he h
  rcases List.mem_append.1 he with hbefore | hlast
  · exact (List.pairwise_append.1 h).2.2 e hbefore _ (List.mem_singleton_self _)
  · rw [List.mem_singleton.1 hlast]
    exact Event.newer_refl _

theorem newest_eq_none_iff {log : List Event} : (newestFirst log).head? = none ↔ log = [] := by
  rw [List.head?_eq_none_iff]
  exact ⟨fun h => by simpa [h] using (newestFirst_perm log).symm,
    fun h => by simpa [h] using newestFirst_perm log⟩

/-- An event goes before the first of the others that it is as new as. -/
theorem newestFirst_cons (e : Event) (log : List Event) : newestFirst (e :: log) =
    ((newestFirst log).takeWhile fun e' => !e.newer e') ++
      e :: (newestFirst log).dropWhile fun e' => !e.newer e' := by
  obtain ⟨before, after, hcons, hlog, hbefore⟩ :=
    List.mergeSort_cons Event.newer_trans Event.newer_total e log
  have hsorted : (before ++ e :: after).Pairwise fun a b => a.newer b = true :=
    hcons ▸ newestFirst_sorted (e :: log)
  have hafter : ∀ e' ∈ after, e.newer e' = true :=
    (List.pairwise_cons.1 (List.pairwise_append.1 hsorted).2.1).1
  have htake : after.takeWhile (fun e' => !e.newer e') = [] := by
    cases after with
    | nil => rfl
    | cons e' after => simp [hafter e' List.mem_cons_self]
  have hdrop : after.dropWhile (fun e' => !e.newer e') = after := by
    cases after with
    | nil => rfl
    | cons e' after => simp [hafter e' List.mem_cons_self]
  change (e :: log).mergeSort Event.newer = (List.takeWhile _ (log.mergeSort Event.newer)) ++
    e :: List.dropWhile _ (log.mergeSort Event.newer)
  rw [hcons, hlog, List.takeWhile_append_of_pos hbefore, List.dropWhile_append_of_pos hbefore, htake,
    hdrop, List.append_nil]

/-- An event with a new id that is not older than any other comes first. -/
theorem newestFirst_concat {log : List Event} {e : Event}
    (h : ∀ e' ∈ log, e'.time ≤ e.time ∧ e'.eventId < e.eventId) :
    newestFirst (log ++ [e]) = e :: newestFirst log := by
  induction log with
  | nil => simp [newestFirst]
  | cons e' log ih =>
    obtain ⟨⟨htime, hid⟩, hlog⟩ := List.forall_mem_cons.1 h
    have hnewer : e'.newer e = false := by
      rw [Bool.eq_false_iff, ne_eq, Event.newer_iff]
      omega
    rw [List.cons_append, newestFirst_cons, ih hlog, newestFirst_cons]
    simp [hnewer]

theorem newest_append {log : List Event} {e : Event}
    (h : ∀ e' ∈ log, e'.time ≤ e.time ∧ e'.eventId < e.eventId) :
    (newestFirst (log ++ [e])).head? = some e := by
  rw [newestFirst_concat h, List.head?_cons]

theorem newestFirst_newestFirst (log : List Event) :
    newestFirst (newestFirst log) = newestFirst log :=
  List.mergeSort_of_pairwise (newestFirst_sorted log)

/-- Events with ids of their own can stand with the newest first in one way only. -/
theorem eq_of_newer_of_nodup {log log' : List Event}
    (h : log.Pairwise fun a b => a.newer b = true) (h' : log'.Pairwise fun a b => a.newer b = true)
    (hperm : log.Perm log') (hids : (log.map Event.eventId).Nodup) : log = log' := by
  refine List.Perm.eq_of_pairwise (fun a b ha hb hab hba => ?_) h h' hperm
  exact List.inj_on_of_nodup_map hids ha (hperm.symm.subset hb) (Event.eventId_eq_of_newer hab hba)

/-- Events whose ids go up and whose times do not go back have their newest last. -/
theorem newestFirst_of_chronological {log : List Event}
    (h : log.Pairwise fun a b => a.eventId < b.eventId ∧ a.time ≤ b.time) :
    newestFirst log = log.reverse := by
  have hsorted : log.reverse.Pairwise fun a b => a.newer b = true := by
    rw [List.pairwise_reverse]
    exact h.imp fun hab => Event.newer_iff.2 (by omega)
  have hids : (log.map Event.eventId).Nodup := List.pairwise_map.2 (h.imp fun hab => by omega)
  have hperm := (newestFirst_perm log).trans (List.reverse_perm log).symm
  exact eq_of_newer_of_nodup (newestFirst_sorted log) hsorted hperm
    (((newestFirst_perm log).map _).nodup_iff.2 hids)

/-! ## The standing that is read off some events -/

theorem State.ofEvents?_newestFirst (log : List Event) :
    State.ofEvents? (newestFirst log) = State.ofEvents? log := by
  simp only [State.ofEvents?, newestFirst_newestFirst]

theorem State.ofEvents?_eq_none_iff {log : List Event} : State.ofEvents? log = none ↔ log = [] := by
  rw [← newest_eq_none_iff, State.ofEvents?]
  cases newestFirst log <;> simp

theorem State.ofEvents?_eq_some {log : List Event} {s : State} (h : State.ofEvents? log = some s) :
    ∃ head rest, newestFirst log = head :: rest ∧
      s = ⟨head.status, ((head :: rest).getLast (List.cons_ne_nil head rest)).time, head.time,
        head.eventId, head :: rest⟩ := by
  rw [State.ofEvents?] at h
  cases hlist : newestFirst log with
  | nil => simp [hlist] at h
  | cons head rest =>
    simp only [hlist] at h
    cases h
    exact ⟨head, rest, rfl, rfl⟩

/-- The standing is that of the newest event. -/
theorem State.newest_of_ofEvents? {log : List Event} {s : State}
    (h : State.ofEvents? log = some s) : ∃ head, (newestFirst log).head? = some head ∧
      s.status = head.status ∧ s.updatedAt = head.time ∧ s.headEventId = head.eventId := by
  obtain ⟨head, rest, hlist, rfl⟩ := ofEvents?_eq_some h
  exact ⟨head, by rw [hlist, List.head?_cons], rfl, rfl, rfl⟩

theorem State.events_of_ofEvents? {log : List Event} {s : State}
    (h : State.ofEvents? log = some s) : s.events = newestFirst log := by
  obtain ⟨head, rest, hlist, rfl⟩ := ofEvents?_eq_some h
  exact hlist.symm

/-- The oldest event tells when the solicitation was created. -/
theorem State.oldest_of_ofEvents? {log : List Event} {s : State}
    (h : State.ofEvents? log = some s) :
    ∃ first ∈ log, first.time = s.createdAt ∧ ∀ e ∈ log, first.time ≤ e.time := by
  obtain ⟨head, rest, hlist, rfl⟩ := ofEvents?_eq_some h
  have hne : head :: rest ≠ [] := List.cons_ne_nil head rest
  have hsorted := newestFirst_sorted log
  have hmem {e : Event} : e ∈ head :: rest ↔ e ∈ log := hlist ▸ (newestFirst_perm log).mem_iff
  rw [hlist] at hsorted
  refine ⟨_, hmem.1 (List.getLast_mem hne), rfl, fun e he => ?_⟩
  have hnewer := Event.newer_iff.1 (newer_getLast hsorted hne (hmem.2 he))
  omega

/-- An event that is newer than all others takes the place of the head. -/
theorem State.ofEvents?_concat {log : List Event} {e : Event} {s : State}
    (h : ∀ e' ∈ log, e'.time ≤ e.time ∧ e'.eventId < e.eventId) (hof : State.ofEvents? log = some s) :
    State.ofEvents? (log ++ [e]) =
      some ⟨e.status, s.createdAt, e.time, e.eventId, e :: s.events⟩ := by
  obtain ⟨head, rest, hlist, rfl⟩ := ofEvents?_eq_some hof
  rw [State.ofEvents?, newestFirst_concat h, hlist]
  simp only [List.getLast_cons_cons]

/-- Where ids go up and times do not go back, the standing is that of the last event, and the first
one tells when the solicitation was created. -/
theorem State.ofEvents?_of_chronological {log : List Event} {first last : Event}
    (h : log.Pairwise fun a b => a.eventId < b.eventId ∧ a.time ≤ b.time)
    (hfirst : log.head? = some first) (hlast : log.getLast? = some last) :
    ∃ s, State.ofEvents? log = some s ∧ s.status = last.status ∧ s.createdAt = first.time ∧
      s.updatedAt = last.time := by
  have hlist := newestFirst_of_chronological h
  rw [State.ofEvents?]
  cases hnewest : newestFirst log with
  | nil =>
    rw [hnewest, eq_comm, List.reverse_eq_nil_iff] at hlist
    rw [hlist] at hfirst
    cases hfirst
  | cons head rest =>
    rw [hnewest] at hlist
    have hhead : some head = some last := by
      rw [← hlast, ← List.head?_reverse, ← hlist]
      rfl
    have hend : some ((head :: rest).getLast (by simp)) = some first := by
      rw [← List.getLast?_eq_some_getLast, hlist, List.getLast?_reverse, hfirst]
    cases hhead
    exact ⟨_, rfl, rfl, congrArg Event.time (Option.some.inj hend), rfl⟩

/-! ## Rows that can be read -/

theorem EventRow.read_eq_ok_iff {row : EventRow} {e : Event} :
    row.read = .ok e ↔ row = EventRow.of e := by
  constructor
  · intro h
    obtain ⟨eventId, solicitationId, actor, status, time, justification⟩ := row
    simp only [EventRow.read] at h
    split at h
    · rename_i hstatus
      cases h
      have hname := Named.ofName?_eq_some_iff.1 hstatus
      subst hname
      rfl
    · cases h
    · cases h
  · rintro rfl
    exact EventRow.read_of e

theorem EventRow.of_injective : Function.Injective EventRow.of := by
  intro a b h
  have hread := EventRow.read_of a
  rw [h, EventRow.read_of] at hread
  exact (Except.ok.inj hread).symm

theorem EventRow.mapM_read_eq_ok_iff {rows : List EventRow} {events : List Event} :
    rows.mapM EventRow.read = .ok events ↔ rows = events.map EventRow.of := by
  rw [mapM_eq_ok_iff, ← List.forall₂_eq_eq_eq, List.forall₂_map_right_iff]
  simp only [EventRow.read_eq_ok_iff]

theorem EventRow.forM_check_of (events : List Event) :
    (events.map EventRow.of).forM EventRow.check = .ok () := by
  refine forM_eq_ok_iff.2 fun row hrow => ?_
  obtain ⟨e, -, rfl⟩ := List.mem_map.1 hrow
  exact EventRow.check_of e

namespace Ledger

variable {l : Ledger} {id : Int} {log : List Event}

/-- The events of a solicitation in the order in which they were written. -/
def written (l : Ledger) (id : Int) : List EventRow :=
  l.events.filter fun row => decide (row.solicitationId = id)

/-- What was written about a solicitation is `log`. -/
def Logs (l : Ledger) (id : Int) (log : List Event) : Prop :=
  l.written id = log.map EventRow.of

theorem mem_written {row : EventRow} :
    row ∈ l.written id ↔ row ∈ l.events ∧ row.solicitationId = id := by
  simp [written]

theorem Logs.mem_written (h : l.Logs id log) {e : Event} (he : e ∈ log) :
    EventRow.of e ∈ l.written id := by
  rw [h]
  exact List.mem_map_of_mem he

theorem Logs.rowsOf (h : l.Logs id log) : l.rowsOf id = (newestFirst log).map EventRow.of := by
  have hmap := List.map_mergeSort (r := Event.newer) (s := EventRow.newer) (f := EventRow.of)
    (l := log) fun a _ b _ => (EventRow.newer_of a b).symm
  rw [newestFirst, hmap]
  exact congrArg (List.mergeSort · EventRow.newer) h

theorem Logs.head? (h : l.Logs id log) :
    l.head? id = (newestFirst log).head?.map EventRow.of := by
  rw [Ledger.head?, h.rowsOf, List.head?_map]

theorem Logs.eventsOf (h : l.Logs id log) : l.eventsOf id = .ok (newestFirst log) := by
  rw [Ledger.eventsOf, h.rowsOf, EventRow.forM_check_of]
  exact EventRow.mapM_read_eq_ok_iff.2 rfl

theorem Logs.state? (h : l.Logs id log) : l.state? id = .ok (State.ofEvents? log) := by
  rw [Ledger.state?, h.eventsOf, ← State.ofEvents?_newestFirst]
  rfl

theorem Logs.unique {log' : List Event} (h : l.Logs id log) (h' : l.Logs id log') : log = log' :=
  List.map_injective_iff.2 EventRow.of_injective (h.symm.trans h')

/-- What was written about a solicitation after new events came in. -/
theorem Logs.of_append {l' : Ledger} {new : List Event}
    (hevents : l'.events = l.events ++ new.map EventRow.of) (h : l'.Logs id log) :
    ∃ old, l.Logs id old ∧ log = old ++ new.filter fun e => decide (e.solicitationId = id) := by
  rw [Logs, written, hevents, List.filter_append, List.filter_map, eq_comm,
    List.map_eq_append_iff] at h
  obtain ⟨old, rest, rfl, hold, hrest⟩ := h
  refine ⟨old, hold.symm, ?_⟩
  rw [List.map_injective_iff.2 EventRow.of_injective hrest]
  rfl

/-- After one event came in, which may be about another solicitation. -/
theorem Logs.of_concat {l' : Ledger} {e : Event} (hevents : l'.events = l.events ++ [EventRow.of e])
    (h : l'.Logs id log) : (e.solicitationId = id ∧ ∃ old, l.Logs id old ∧ log = old ++ [e]) ∨
      (e.solicitationId ≠ id ∧ l.Logs id log) := by
  have hadded : l'.events = l.events ++ [e].map EventRow.of := hevents
  obtain ⟨old, hold, rfl⟩ := Logs.of_append hadded h
  rw [List.filter_singleton]
  by_cases hid : e.solicitationId = id
  · rw [decide_eq_true hid]
    exact .inl ⟨hid, old, hold, rfl⟩
  · rw [decide_eq_false hid, cond_false, List.append_nil]
    exact .inr ⟨hid, hold⟩

theorem exists_logs (h : ∀ row ∈ l.written id, ∃ e, EventRow.of e = row) : ∃ log, l.Logs id log := by
  have hrange : l.written id ∈ Set.range (List.map EventRow.of) := by
    rw [Set.range_list_map]
    exact h
  obtain ⟨log, hlog⟩ := hrange
  exact ⟨log, hlog.symm⟩

/-- Rows whose reading succeeds are rows of events. -/
theorem exists_logs_of_rowsOf {events : List Event} (h : l.rowsOf id = events.map EventRow.of) :
    ∃ log, l.Logs id log := by
  refine exists_logs fun row hrow => ?_
  have hmem : row ∈ l.rowsOf id := (List.mergeSort_perm _ _).symm.subset hrow
  rw [h] at hmem
  obtain ⟨e, -, rfl⟩ := List.mem_map.1 hmem
  exact ⟨e, rfl⟩

/-- The standing can be read exactly where the rows are rows of events, and it is theirs. -/
theorem state?_eq_ok_iff {s : Option State} :
    l.state? id = .ok s ↔ ∃ log, l.Logs id log ∧ State.ofEvents? log = s := by
  constructor
  · intro h
    obtain ⟨events, hevents, hstate⟩ := bind_eq_ok_iff.1 h
    obtain ⟨⟨⟩, -, hread⟩ := bind_eq_ok_iff.1 hevents
    obtain ⟨log, hlog⟩ := exists_logs_of_rowsOf (EventRow.mapM_read_eq_ok_iff.1 hread)
    refine ⟨log, hlog, ?_⟩
    rw [hlog.state?] at h
    exact Except.ok.inj h
  · rintro ⟨log, hlog, rfl⟩
    exact hlog.state?

end Ledger

end GridDispatch
