import Mathlib.Data.List.Nodup
import Mathlib.Data.List.Permutation
import Mathlib.Order.Lattice

/-!
# Lists with ids in them

Facts about lists in general that the theory of the ledger needs: the greatest of a list of ids, lists
whose elements are told apart by their ids, and lists that are sorted strictly.
-/

namespace GridDispatch

/-! ## The greatest id -/

theorem foldl_max_le_iff {used : List Int} {last bound : Int} :
    used.foldl max last ≤ bound ↔ last ≤ bound ∧ ∀ i ∈ used, i ≤ bound := by
  induction used generalizing last with
  | nil => simp
  | cons i used ih => rw [List.foldl_cons, ih, Int.max_le, List.forall_mem_cons, and_assoc]

theorem le_foldl_max (used : List Int) (last : Int) :
    last ≤ used.foldl max last ∧ ∀ i ∈ used, i ≤ used.foldl max last :=
  foldl_max_le_iff.1 (Int.le_refl _)

theorem foldl_max_of_le {used : List Int} {last : Int} (h : ∀ i ∈ used, i ≤ last) :
    used.foldl max last = last :=
  Int.le_antisymm (foldl_max_le_iff.2 ⟨Int.le_refl _, h⟩) (le_foldl_max used last).1

variable {α : Type}

/-! ## Elements with ids -/

/-- Where no two elements have the same id, one element has the id of `x`. -/
theorem filter_eq_singleton_of_nodup (id : α → Int) {xs : List α} (h : (xs.map id).Nodup) {x : α}
    (hx : x ∈ xs) : (xs.filter fun y => decide (id y = id x)) = [x] := by
  induction xs with
  | nil => cases hx
  | cons y xs ih =>
    obtain ⟨hy, hxs⟩ := List.nodup_cons.1 h
    rcases List.mem_cons.1 hx with rfl | hx
    · have hnone : (xs.filter fun y => decide (id y = id x)) = [] := by
        refine List.filter_eq_nil_iff.2 fun y hyxs hid => hy ?_
        rw [← of_decide_eq_true hid]
        exact List.mem_map_of_mem hyxs
      rw [List.filter_cons_of_pos (by simp), hnone]
    · have hne : id y ≠ id x := fun heq => hy (heq ▸ List.mem_map_of_mem hx)
      rw [List.filter_cons_of_neg (by simpa using hne), ih hxs hx]

/-- Lists in which ids go up are equal if they have the same elements. -/
theorem eq_of_mem_iff_of_ids (id : α → Int) {xs ys : List α} (hxs : (xs.map id).Pairwise (· < ·))
    (hys : (ys.map id).Pairwise (· < ·)) (h : ∀ a, a ∈ xs ↔ a ∈ ys) : xs = ys := by
  have hnodup {zs : List α} (hzs : (zs.map id).Pairwise (· < ·)) : zs.Nodup :=
    (List.pairwise_map.1 hzs).imp fun hlt heq => by rw [heq] at hlt; omega
  refine List.Perm.eq_of_pairwise (fun a b _ _ hab hba => ?_) (List.pairwise_map.1 hxs)
    (List.pairwise_map.1 hys) ((List.perm_ext_iff_of_nodup (hnodup hxs) (hnodup hys)).2 h)
  omega

/-! ## Order -/

theorem nodup_eraseDups [BEq α] [LawfulBEq α] (xs : List α) : xs.eraseDups.Nodup := by
  match xs with
  | [] => exact List.nodup_nil
  | x :: xs =>
    rw [List.eraseDups_cons, List.nodup_cons]
    refine ⟨fun hmem => ?_, nodup_eraseDups _⟩
    rw [List.mem_eraseDups, List.mem_filter] at hmem
    simp at hmem
termination_by xs.length
decreasing_by
  rw [List.length_cons]
  exact Nat.lt_succ_of_le (List.length_filter_le ..)

/-- Elements that differ are sorted into strict order. -/
theorem pairwise_lt_mergeSort [LinearOrder α] {le : α → α → Bool}
    (hle : ∀ a b, le a b = true ↔ a ≤ b) {xs : List α} (h : xs.Nodup) :
    (xs.mergeSort le).Pairwise (· < ·) := by
  have hsorted : (xs.mergeSort le).Pairwise fun a b => le a b = true := by
    refine List.pairwise_mergeSort (fun a b c hab hbc => ?_) (fun a b => ?_) xs
    · rw [hle] at hab hbc ⊢
      exact le_trans hab hbc
    · rw [Bool.or_eq_true, hle, hle]
      exact le_total a b
  have hnodup : (xs.mergeSort le).Nodup := (List.mergeSort_perm xs le).nodup_iff.2 h
  exact (hsorted.and hnodup).imp fun {a b} hab => lt_of_le_of_ne ((hle a b).1 hab.1) hab.2

/-- In a list in order, an element is among the first `n` exactly if fewer than `n` come before
it. -/
theorem mem_take_iff_of_pairwise {before : α → α → Bool} {xs : List α}
    (h : xs.Pairwise fun a b => before a b = true ∧ before b a = false) {x : α}
    (hself : before x x = false) (hx : x ∈ xs) (n : Nat) :
    x ∈ xs.take n ↔ (xs.filter (before · x)).length < n := by
  induction xs generalizing n with
  | nil => cases hx
  | cons y xs ih =>
    obtain ⟨hy, hxs⟩ := List.pairwise_cons.1 h
    rcases List.mem_cons.1 hx with rfl | hrest
    · have hnone : xs.filter (before · x) = [] :=
        List.filter_eq_nil_iff.2 fun z hz => by simp [(hy z hz).2]
      rw [List.filter_cons, if_neg (by simp [hself]), hnone]
      cases n with
      | zero => simp
      | succ n => simp
    · have hne : x ≠ y := by
        rintro rfl
        exact absurd (hy x hrest).1 (by simp [hself])
      rw [List.filter_cons, if_pos (hy x hrest).1, List.length_cons]
      cases n with
      | zero => simp
      | succ n => rw [List.take_succ_cons, List.mem_cons, or_iff_right hne, ih hxs hrest,
          Nat.add_lt_add_iff_right]

end GridDispatch
