import GridDispatch.Proofs.Ledger.Built
import GridDispatch.Proofs.Ledger.History

/-!
# How the events of a ledger go on

`Onward l l'` says what can become of the events of a ledger in the course of time: those of a
solicitation stay as they are or all go, and the ones that come after them have ids that were never
given out before. So an id that is seen again belongs to the event that had it
(`Onward.logs_of_head`), provided that the ids are in order to begin with (`Numbered`).
-/

namespace GridDispatch.Ledger

variable {l l' l'' : Ledger} {id : Int} {log : List Event}

/-- No two events of a solicitation share an id, and every id of an event was given out. -/
structure Numbered (l : Ledger) : Prop where
  nodup : ∀ id, ((l.written id).map EventRow.eventId).Nodup
  le_last : ∀ row ∈ l.events, row.eventId ≤ l.lastEvent

/-- The events of a solicitation stay, or all go, and new ones come after them. -/
structure Onward (l l' : Ledger) : Prop where
  lastEvent_le : l.lastEvent ≤ l'.lastEvent
  written : ∀ id, ∃ new : List Event,
    (l'.written id = l.written id ++ new.map EventRow.of ∨ l'.written id = new.map EventRow.of) ∧
      (new.map Event.eventId).Nodup ∧
      ∀ e ∈ new, l.lastEvent < e.eventId ∧ e.eventId ≤ l'.lastEvent

namespace Onward

/-- Nothing happens to the events. -/
theorem of_events (hevents : l'.events = l.events) (hlast : l'.lastEvent = l.lastEvent) :
    l.Onward l' :=
  ⟨by omega, fun id => ⟨[], .inl (by simp [Ledger.written, hevents]), by simp, by simp⟩⟩

theorem refl (l : Ledger) : l.Onward l := of_events rfl rfl

theorem trans (h : l.Onward l') (h' : l'.Onward l'') : l.Onward l'' := by
  have hle := h.lastEvent_le
  have hle' := h'.lastEvent_le
  refine ⟨by omega, fun id => ?_⟩
  obtain ⟨new, hnew, hnodup, hids⟩ := h.written id
  obtain ⟨new', hnew', hnodup', hids'⟩ := h'.written id
  rcases hnew' with hkept' | hgone'
  · refine ⟨new ++ new', ?_, ?_, ?_⟩
    · rcases hnew with hkept | hgone
      · exact .inl (by rw [hkept', hkept, List.map_append, List.append_assoc])
      · exact .inr (by rw [hkept', hgone, List.map_append])
    · rw [List.map_append]
      refine List.nodup_append.2 ⟨hnodup, hnodup', fun i hi j hj => ?_⟩
      obtain ⟨e, he, rfl⟩ := List.mem_map.1 hi
      obtain ⟨e', he', rfl⟩ := List.mem_map.1 hj
      have := hids e he
      have := hids' e' he'
      omega
    · intro e he
      rcases List.mem_append.1 he with he | he
      · have := hids e he
        omega
      · have := hids' e he
        omega
  · exact ⟨new', .inr hgone', hnodup', fun e he => by have := hids' e he; omega⟩

theorem withEvent {e : Event} (h : l.lastEvent < e.eventId) : l.Onward (l.withEvent e) := by
  refine ⟨by simp only [Ledger.withEvent]; omega, fun id => ?_⟩
  by_cases hid : e.solicitationId = id
  · refine ⟨[e], .inl ?_, by simp, by simpa [Ledger.withEvent] using h⟩
    simp [Ledger.written, Ledger.withEvent, EventRow.of, hid]
  · refine ⟨[], .inl ?_, by simp, by simp⟩
    simp [Ledger.written, Ledger.withEvent, EventRow.of, hid]

theorem insertEvent {eventId time : Int} {actor : Option String} {status : Status}
    {justification : Option String}
    (h : l.insertEvent id actor status time justification = .ok (eventId, l')) : l.Onward l' := by
  obtain ⟨rfl, -, hlast, -⟩ := insertEvent_eq_ok h
  exact withEvent hlast

theorem deleteEvents (l : Ledger) (id : Int) : l.Onward (l.deleteEvents id) := by
  refine ⟨Int.le_refl _, fun id' => ⟨[], ?_, by simp, by simp⟩⟩
  simp only [Ledger.written, Ledger.deleteEvents, List.filter_filter, List.map_nil, List.append_nil]
  by_cases hid : id' = id
  · subst hid
    exact .inr (List.filter_eq_nil_iff.2 fun row _ => by simp)
  · refine .inl (List.filter_congr fun row _ => ?_)
    by_cases hrow : row.solicitationId = id' <;> simp [hrow, hid]

/-- An event was there before, or it came in under an id that was not given out. -/
theorem mem_events (h : l.Onward l') {row : EventRow} (hrow : row ∈ l'.events) :
    row ∈ l.events ∨ l.lastEvent < row.eventId ∧ row.eventId ≤ l'.lastEvent := by
  obtain ⟨new, hnew, -, hids⟩ := h.written row.solicitationId
  have hmem : row ∈ l'.written row.solicitationId := mem_written.2 ⟨hrow, rfl⟩
  have hcases : row ∈ l.events ∨ row ∈ new.map EventRow.of := by
    rcases hnew with hkept | hgone
    · rw [hkept] at hmem
      exact (List.mem_append.1 hmem).imp_left fun hold => (mem_written.1 hold).1
    · rw [hgone] at hmem
      exact .inr hmem
  refine hcases.imp_right fun hmem => ?_
  obtain ⟨e, he, rfl⟩ := List.mem_map.1 hmem
  exact hids e he

end Onward

theorem Change.onward (h : Change l l') : l.Onward l' := by
  cases h with
  | group | envelope | update | guards => exact .of_events rfl rfl
  | event hid => exact .withEvent hid
  | deleteEvents id => exact .deleteEvents l id

theorem Changes.onward (h : Changes l l') : l.Onward l' := by
  induction h with
  | refl => exact .refl l
  | tail _ hchange ih => exact ih.trans hchange.onward

theorem InOrder.numbered (h : l.InOrder) : l.Numbered where
  nodup id := (h.events.sorted.sublist (List.filter_sublist.map _)).imp fun hlt => by omega
  le_last row hrow := (h.events.bounds _ (List.mem_map_of_mem hrow)).2

theorem Numbered.onward (hn : l.Numbered) (h : l.Onward l') : l'.Numbered := by
  have hle := h.lastEvent_le
  constructor
  · intro id
    obtain ⟨new, hnew, hnodup, hids⟩ := h.written id
    have hmap : (new.map EventRow.of).map EventRow.eventId = new.map Event.eventId := by
      rw [List.map_map]
      rfl
    rcases hnew with hkept | hgone
    · rw [hkept, List.map_append, hmap]
      refine List.nodup_append.2 ⟨hn.nodup id, hnodup, fun i hi j hj => ?_⟩
      obtain ⟨row, hrow, rfl⟩ := List.mem_map.1 hi
      obtain ⟨e, he, rfl⟩ := List.mem_map.1 hj
      have := hn.le_last row (mem_written.1 hrow).1
      have := hids e he
      omega
    · rw [hgone, hmap]
      exact hnodup
  · intro row hrow
    rcases h.mem_events hrow with hold | ⟨-, hgiven⟩
    · have := hn.le_last row hold
      omega
    · exact hgiven

/-- A head that still has the id which was seen is the event that was seen; whatever came
meanwhile has not taken its place. -/
theorem Onward.logs_of_head (hn : l.Numbered) (h : l.Onward l') (hlog : l.Logs id log)
    {head : Event} (hhead : head ∈ log) {row : EventRow} (hrow : l'.head? id = some row)
    (heq : row.eventId = head.eventId) :
    ∃ new, l'.Logs id (log ++ new) ∧ (newestFirst (log ++ new)).head? = some head := by
  obtain ⟨new, hnew, -, hids⟩ := h.written id
  have hgiven : head.eventId ≤ l.lastEvent :=
    hn.le_last _ (mem_written.1 (hlog.mem_written hhead)).1
  -- a new event has an id above all that were given out, so it is not the head
  have hnot : ∀ e ∈ new, EventRow.of e ≠ row := by
    rintro e he rfl
    have hid : e.eventId = head.eventId := heq
    have := hids e he
    omega
  rcases hnew with hkept | hgone
  · have hlog' : l'.Logs id (log ++ new) := by
      rw [Logs, hkept, hlog, List.map_append]
    refine ⟨new, hlog', ?_⟩
    rw [hlog'.head?] at hrow
    obtain ⟨e, he, rfl⟩ := Option.map_eq_some_iff.1 hrow
    rcases List.mem_append.1 (mem_of_newest he) with hold | hnew
    · have hnodup : (log.map Event.eventId).Nodup := by
        have hids' := hn.nodup id
        rw [hlog, List.map_map] at hids'
        exact hids'
      rw [he, List.inj_on_of_nodup_map hnodup hold hhead heq]
    · exact absurd rfl (hnot e hnew)
  · have hlog' : l'.Logs id new := hgone
    rw [hlog'.head?] at hrow
    obtain ⟨e, he, rfl⟩ := Option.map_eq_some_iff.1 hrow
    exact absurd rfl (hnot e (mem_of_newest he))

/-- An event has come since, or it was there with everything that was. -/
theorem Onward.new_or_kept (h : l.Onward l') {log' : List Event} (hlog' : l'.Logs id log')
    {e : Event} (he : e ∈ log') :
    l.lastEvent < e.eventId ∨ ∃ log, l.Logs id log ∧ log ⊆ log' ∧ e ∈ log := by
  obtain ⟨new, hnew, -, hids⟩ := h.written id
  have hof : EventRow.of e ∈ new.map EventRow.of → l.lastEvent < e.eventId := by
    intro hmem
    obtain ⟨e', he', heq⟩ := List.mem_map.1 hmem
    have hid : e'.eventId = e.eventId := congrArg EventRow.eventId heq
    exact hid ▸ (hids e' he').1
  rcases hnew with hkept | hgone
  · obtain ⟨log, rest, rfl, hlog, hrest⟩ := List.map_eq_append_iff.1 (hlog'.symm.trans hkept)
    rcases List.mem_append.1 he with hold | hnew
    · exact .inr ⟨log, hlog.symm, List.subset_append_left log rest, hold⟩
    · exact .inl (hof (hrest ▸ List.mem_map_of_mem hnew))
  · exact .inl (hof (hlog'.symm.trans hgone ▸ List.mem_map_of_mem he))

end GridDispatch.Ledger
