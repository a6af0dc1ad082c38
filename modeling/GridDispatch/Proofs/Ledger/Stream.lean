import GridDispatch.Proofs.Ledger.Built

/-!
# The stream of updates

`Ledger.stream` is the updates of a ledger that can be read, as they are read. Where the ledger is in
order and all updates from one token to another can be read, reading gives the part of the stream
between the two (`InOrder.updatesBetween_eq`); where one of them cannot, it gives the error of one
(`exists_of_updatesBetween_eq_error`). Tokens count up in the stream, and nothing in it is above the
token of the ledger (`InOrder.le_token`). Writing only adds updates, above every token that was handed
out (`Writes.updates`), and so it goes for the stream (`Writes.stream`).
-/

namespace GridDispatch

theorem UpdateRow.streamId_of_read {row : UpdateRow} {u : Update} (h : row.read = .ok u) :
    u.streamId = row.streamId := by
  simp only [read] at h
  split at h
  · cases h
  · split at h
    · cases h
      rfl
    · cases h

/-- The update is above one token and not above another. -/
def Update.between (start stop : Int) (u : Update) : Bool :=
  decide (start < u.streamId ∧ u.streamId ≤ stop)

/-- Two halves of an interval make up the whole, in a list in which tokens count up. -/
theorem Update.filter_between_append {updates : List Update} {a b c : Int} (hab : a ≤ b)
    (hbc : b ≤ c) (h : (updates.map Update.streamId).Pairwise (· < ·)) :
    updates.filter (between a b) ++ updates.filter (between b c) = updates.filter (between a c) := by
  induction updates with
  | nil => rfl
  | cons u updates ih =>
    obtain ⟨habove, hsorted⟩ := List.pairwise_cons.1 h
    have ih := ih hsorted
    by_cases hu : u.streamId ≤ b
    · have hlater : between b c u = false := by
        simp only [between, decide_eq_false_iff_not]
        omega
      have hsame : between a b u = between a c u := by
        simp only [between, decide_eq_decide]
        omega
      simp only [List.filter_cons, hlater, hsame]
      split
      · simpa using ih
      · simpa using ih
    · -- tokens count up, so that from here on nothing is left for the first half
      have hle : ∀ v ∈ u :: updates, b < v.streamId := by
        intro v hv
        rcases List.mem_cons.1 hv with rfl | hv
        · omega
        · have := habove _ (List.mem_map_of_mem hv)
          omega
      have hnone : (u :: updates).filter (between a b) = [] := by
        refine List.filter_eq_nil_iff.2 fun v hv => ?_
        have := hle v hv
        simp only [between, decide_eq_true_eq]
        omega
      rw [hnone, List.nil_append]
      refine List.filter_congr fun v hv => ?_
      have := hle v hv
      simp only [between, decide_eq_decide]
      omega

namespace Ledger

variable {l l' : Ledger}

/-- All updates from one token to another can be read. -/
def Readable (l : Ledger) (start stop : Int) : Prop :=
  ∀ row ∈ l.updates, start < row.streamId → row.streamId ≤ stop → ∃ u, row.read = .ok u

/-- All updates can be read. -/
def Legible (l : Ledger) : Prop := ∀ row ∈ l.updates, ∃ u, row.read = .ok u

theorem Legible.readable (h : l.Legible) (start stop : Int) : l.Readable start stop :=
  fun row hrow _ _ => h row hrow

theorem Readable.mono {a b a' b' : Int} (h : l.Readable a b) (ha : a ≤ a') (hb : b' ≤ b) :
    l.Readable a' b' :=
  fun row hrow hstart hstop => h row hrow (Int.lt_of_le_of_lt ha hstart) (Int.le_trans hstop hb)

theorem Readable.append {a b c : Int} (h : l.Readable a b) (h' : l.Readable b c) :
    l.Readable a c := by
  intro row hrow hstart hstop
  by_cases hle : row.streamId ≤ b
  · exact h row hrow hstart hle
  · exact h' row hrow (Int.not_le.1 hle) hstop

theorem Legible.withUpdate (h : l.Legible) {u : Update} (hplain : u.content.Plain) :
    (l.withUpdate u).Legible :=
  List.forall_mem_append.2 ⟨h, List.forall_mem_singleton.2 ⟨u, UpdateRow.read_of_plain hplain⟩⟩

/-- The updates that can be read, as they are read, in the order in which they were recorded. -/
def stream (l : Ledger) : List Update := l.updates.filterMap fun row => row.read.toOption

theorem mem_filterMap_read {rows : List UpdateRow} {u : Update} :
    u ∈ rows.filterMap (fun row => row.read.toOption) ↔ ∃ row ∈ rows, row.read = .ok u := by
  simp only [List.mem_filterMap]
  refine exists_congr fun row => and_congr_right fun _ => ?_
  cases row.read <;> simp [Except.toOption]

theorem mem_stream {u : Update} : u ∈ l.stream ↔ ∃ row ∈ l.updates, row.read = .ok u :=
  mem_filterMap_read

/-- Of the rows that come in at the end those are read that can be. -/
theorem stream_append {rows : List UpdateRow} (h : l'.updates = l.updates ++ rows) :
    l'.stream = l.stream ++ rows.filterMap fun row => row.read.toOption := by
  rw [stream, h, List.filterMap_append]
  rfl

theorem stream_append_of_plain {u : Update} (h : l'.updates = l.updates ++ [UpdateRow.of u])
    (hplain : u.content.Plain) : l'.stream = l.stream ++ [u] := by
  rw [stream_append h, List.filterMap_cons, UpdateRow.read_of_plain hplain]
  rfl

/-- Plain updates are read as they were written. -/
theorem stream_of_plain {updates : List Update} (hrows : l.updates = updates.map UpdateRow.of)
    (hplain : ∀ u ∈ updates, u.content.Plain) : l.stream = updates := by
  rw [stream, hrows, List.filterMap_map]
  refine (List.filterMap_congr fun u hu => ?_).trans List.filterMap_some
  simp only [Function.comp, UpdateRow.read_of_plain (hplain u hu), Except.toOption]

/-- Where tokens count up, reading gives a part of the stream if all of that part can be read. -/
theorem updatesBetween_of_sorted (hsorted : (l.updates.map UpdateRow.streamId).Pairwise (· < ·))
    {start stop : Int} (hreadable : l.Readable start stop) :
    l.updatesBetween start stop = .ok (l.stream.filter (Update.between start stop)) := by
  have hkept : (l.updates.filter fun row =>
      decide (start < row.streamId ∧ row.streamId ≤ stop)).Pairwise
        fun a b => decide (a.streamId ≤ b.streamId) = true := by
    refine ((List.pairwise_map.1 hsorted).sublist List.filter_sublist).imp fun hlt => ?_
    simp only [decide_eq_true_eq]
    omega
  have hread : ∀ row ∈ l.updates.filter fun row =>
      decide (start < row.streamId ∧ row.streamId ≤ stop), ∃ u, row.read = .ok u := by
    intro row hrow
    obtain ⟨hmem, hbetween⟩ := List.mem_filter.1 hrow
    obtain ⟨hstart, hstop⟩ := of_decide_eq_true hbetween
    exact hreadable row hmem hstart hstop
  rw [updatesBetween, List.mergeSort_of_pairwise hkept, mapM_eq_filterMap hread, stream,
    List.filterMap_filter, List.filter_filterMap]
  refine congrArg _ (List.filterMap_congr fun row _ => ?_)
  cases hrow : row.read with
  | error e => simp [Except.toOption]
  | ok u => simp [Except.toOption, Option.filter, Update.between, UpdateRow.streamId_of_read hrow]

/-- Reading fails on an update between the tokens that cannot be read. -/
theorem exists_of_updatesBetween_eq_error {start stop : Int} {e : StoreError}
    (h : l.updatesBetween start stop = .error e) :
    ∃ row ∈ l.updates, start < row.streamId ∧ row.streamId ≤ stop ∧ row.read = .error e := by
  obtain ⟨row, hrow, hread⟩ := exists_of_mapM_eq_error h
  obtain ⟨hmem, hbetween⟩ := List.mem_filter.1 (List.mem_mergeSort.1 hrow)
  obtain ⟨hstart, hstop⟩ := of_decide_eq_true hbetween
  exact ⟨row, hmem, hstart, hstop, hread⟩

/-- What was read could be read. -/
theorem readable_of_updatesBetween {start stop : Int} {updates : List Update}
    (h : l.updatesBetween start stop = .ok updates) : l.Readable start stop := by
  intro row hrow hstart hstop
  have hmem : row ∈ (l.updates.filter fun row =>
      decide (start < row.streamId ∧ row.streamId ≤ stop)).mergeSort
        fun a b => decide (a.streamId ≤ b.streamId) :=
    List.mem_mergeSort.2 (List.mem_filter.2 ⟨hrow, decide_eq_true ⟨hstart, hstop⟩⟩)
  obtain ⟨u, -, hread⟩ := (exists_of_forall₂ (mapM_eq_ok_iff.1 h)).1 row hmem
  exact ⟨u, hread⟩

/-- Each update that can be read has the token of its row. -/
theorem map_streamId_stream (l : Ledger) :
    (l.stream.map Update.streamId).Sublist (l.updates.map UpdateRow.streamId) := by
  unfold stream
  generalize l.updates = rows
  induction rows with
  | nil => exact .slnil
  | cons row rows ih =>
    cases hread : row.read with
    | error e =>
      simp only [List.filterMap_cons, hread, Except.toOption, List.map_cons]
      exact ih.cons _
    | ok u =>
      simp only [List.filterMap_cons, hread, Except.toOption, List.map_cons]
      rw [UpdateRow.streamId_of_read hread]
      exact ih.cons_cons _

namespace InOrder

theorem stream_counted (h : l.InOrder) : Counted (l.stream.map Update.streamId) l.lastUpdate :=
  h.updates.sublist l.map_streamId_stream

theorem updatesBetween_eq (h : l.InOrder) {start stop : Int} (hreadable : l.Readable start stop) :
    l.updatesBetween start stop = .ok (l.stream.filter (Update.between start stop)) :=
  updatesBetween_of_sorted h.updates.sorted hreadable

/-- Every token was given out, and none is above the token of the ledger. -/
theorem le_token (h : l.InOrder) :
    (∀ row ∈ l.updates, row.streamId ≤ l.token) ∧ 0 ≤ l.token ∧ l.token ≤ l.lastUpdate := by
  have hcounted := h.updates
  rw [token]
  cases hmax : (l.updates.map UpdateRow.streamId).max? with
  | none =>
    rw [List.max?_eq_none_iff, List.map_eq_nil_iff] at hmax
    exact ⟨by simp [hmax], Int.le_refl _, hcounted.last_nonneg⟩
  | some top =>
    obtain ⟨hmem, htop⟩ := List.max?_eq_some_iff.1 hmax
    obtain ⟨hpos, hle⟩ := hcounted.bounds top hmem
    exact ⟨fun row hrow => htop _ (List.mem_map_of_mem hrow), Int.le_of_lt hpos, hle⟩

end InOrder

/-! ## How it goes on -/

/-- Updates stay as they are written, and new ones get tokens above every one that was given out. -/
theorem Change.updates (h : Change l l') : l.lastUpdate ≤ l'.lastUpdate ∧
    ∃ new : List Update, l'.updates = l.updates ++ new.map UpdateRow.of ∧
      ∀ u ∈ new, l.lastUpdate < u.streamId := by
  cases h with
  | @update u hid => exact ⟨Int.le_of_lt hid, [u], rfl, List.forall_mem_singleton.2 hid⟩
  | _ => exact ⟨Int.le_refl _, [], (List.append_nil _).symm, List.forall_mem_nil _⟩

theorem Writes.updates (h : Writes l l') : l.lastUpdate ≤ l'.lastUpdate ∧
    ∃ new : List Update, l'.updates = l.updates ++ new.map UpdateRow.of ∧
      ∀ u ∈ new, l.lastUpdate < u.streamId := by
  have hchanges := h.changes
  clear h
  induction hchanges with
  | refl => exact ⟨Int.le_refl _, [], (List.append_nil _).symm, List.forall_mem_nil _⟩
  | tail _ hchange ih =>
    obtain ⟨hle, new, hnew, habove⟩ := ih
    obtain ⟨hle', new', hnew', habove'⟩ := hchange.updates
    refine ⟨Int.le_trans hle hle', new ++ new', ?_, ?_⟩
    · rw [hnew', hnew, List.map_append, List.append_assoc]
    · intro u hu
      rcases List.mem_append.1 hu with hu | hu
      · exact habove u hu
      · exact Int.lt_of_le_of_lt hle (habove' u hu)

/-- So what comes into the stream comes after all that was in it. -/
theorem Writes.stream (h : Writes l l') :
    ∃ new, l'.stream = l.stream ++ new ∧ ∀ u ∈ new, l.lastUpdate < u.streamId := by
  obtain ⟨-, new, hnew, habove⟩ := h.updates
  refine ⟨_, stream_append hnew, fun u hu => ?_⟩
  obtain ⟨row, hrow, hread⟩ := mem_filterMap_read.1 hu
  obtain ⟨v, hv, rfl⟩ := List.mem_map.1 hrow
  rw [UpdateRow.streamId_of_read hread]
  exact habove v hv

/-- What was written later has no part in a reading up to a token that was given out before. -/
theorem Writes.readable (h : Writes l l') {start stop : Int} (hstop : stop ≤ l.lastUpdate)
    (hreadable : l.Readable start stop) : l'.Readable start stop := by
  obtain ⟨-, new, hnew, habove⟩ := h.updates
  intro row hrow hstart hle
  rw [hnew, List.mem_append] at hrow
  rcases hrow with hold | hlater
  · exact hreadable row hold hstart hle
  · obtain ⟨u, hu, rfl⟩ := List.mem_map.1 hlater
    exact absurd (Int.lt_of_le_of_lt hstop (habove u hu)) (Int.not_lt.2 hle)

theorem Writes.token_le (h : Writes l l') (hl : l.InOrder) : l.token ≤ l'.token := by
  obtain ⟨hbound, hnonneg, -⟩ := (hl.writes h).le_token
  obtain ⟨-, new, hnew, -⟩ := h.updates
  rw [token]
  cases hmax : (l.updates.map UpdateRow.streamId).max? with
  | none => exact hnonneg
  | some top =>
    obtain ⟨row, hrow, rfl⟩ := List.mem_map.1 (List.max?_mem hmax)
    exact hbound row (hnew ▸ List.mem_append_left _ hrow)

end Ledger

end GridDispatch
