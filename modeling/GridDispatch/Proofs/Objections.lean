import GridDispatch.Proofs.Checked

/-!
# Checks in a row

A check objects to something with an error. Where checks come in a row, the answer is an objection
of the first check that has one (`FirstOf`). A computation raises the objections of checks if its
error is such an answer; what is raised by two computations in turn is raised by their checks in a
row (`Raises.bind`).
-/

namespace GridDispatch

variable {α β ε : Type}

/-- The objection `e`, if `p` holds. -/
def objection (p : Prop) (e : ε) : ε → Prop := fun e' => p ∧ e' = e

/-- An objection of the first check that has one. -/
inductive FirstOf : List (ε → Prop) → ε → Prop
  | here {check : ε → Prop} {checks : List (ε → Prop)} {e : ε} (h : check e) :
    FirstOf (check :: checks) e
  | later {check : ε → Prop} {checks : List (ε → Prop)} {e : ε} (hnone : ∀ e', ¬ check e')
    (h : FirstOf checks e) : FirstOf (check :: checks) e

namespace FirstOf

variable {check : ε → Prop} {checks checks' : List (ε → Prop)} {e : ε}

theorem nil_iff : FirstOf [] e ↔ False := ⟨nofun, False.elim⟩

theorem cons_iff : FirstOf (check :: checks) e ↔
    check e ∨ (∀ e', ¬ check e') ∧ FirstOf checks e := by
  constructor
  · rintro (h | ⟨hnone, h⟩)
    · exact .inl h
    · exact .inr ⟨hnone, h⟩
  · rintro (h | ⟨hnone, h⟩)
    · exact .here h
    · exact .later hnone h

theorem append_iff : FirstOf (checks ++ checks') e ↔
    FirstOf checks e ∨ (∀ e', ¬ FirstOf checks e') ∧ FirstOf checks' e := by
  induction checks with
  | nil => simp [nil_iff]
  | cons check checks ih =>
    rw [List.cons_append, cons_iff, ih, cons_iff]
    constructor
    · rintro (h | ⟨hnone, h | ⟨hchecks, h⟩⟩)
      · exact .inl (.inl h)
      · exact .inl (.inr ⟨hnone, h⟩)
      · refine .inr ⟨fun e' he' => ?_, h⟩
        rcases cons_iff.1 he' with he' | ⟨-, he'⟩
        · exact hnone e' he'
        · exact hchecks e' he'
    · rintro ((h | ⟨hnone, h⟩) | ⟨hchecks, h⟩)
      · exact .inl h
      · exact .inr ⟨hnone, .inl h⟩
      · have hnone : ∀ e', ¬ check e' := fun e' he' => hchecks e' (.here he')
        exact .inr ⟨hnone, .inr ⟨fun e' he' => hchecks e' (.later hnone he'), h⟩⟩

/-- A check that objects decides. -/
theorem cons_of_exists (h : ∃ e', check e') : FirstOf (check :: checks) e ↔ check e := by
  rw [cons_iff, or_iff_left]
  rintro ⟨hnone, -⟩
  obtain ⟨e', he'⟩ := h
  exact hnone e' he'

/-- A check that does not object is passed over. -/
theorem cons_of_forall (h : ∀ e', ¬ check e') : FirstOf (check :: checks) e ↔ FirstOf checks e := by
  rw [cons_iff, or_iff_right (h e), and_iff_right h]

theorem single_iff : FirstOf [check] e ↔ check e := by
  rw [cons_iff, nil_iff, and_false, or_false]

theorem exists_check (h : FirstOf checks e) : ∃ check ∈ checks, check e := by
  induction h with
  | here h => exact ⟨_, List.mem_cons_self, h⟩
  | later _ _ ih =>
    obtain ⟨check, hmem, h⟩ := ih
    exact ⟨check, List.mem_cons_of_mem _ hmem, h⟩

end FirstOf

/-- The errors of a computation are the objections that checks raise in a row. -/
def Raises (x : Except ε α) (checks : List (ε → Prop)) : Prop :=
  ∀ e, x = .error e ↔ FirstOf checks e

namespace Raises

variable {x : Except ε α} {f : α → Except ε β} {checks checks' : List (ε → Prop)}

theorem ok (a : α) : Raises (.ok a : Except ε α) [] := fun _ => ⟨nofun, nofun⟩

theorem of_single {check : ε → Prop} (h : ∀ e, x = .error e ↔ check e) : Raises x [check] := by
  intro e
  rw [h, FirstOf.single_iff]

theorem not_firstOf_of_ok {a : α} (h : Raises x checks) (hx : x = .ok a) (e : ε) :
    ¬ FirstOf checks e := by
  intro he
  rw [(h e).2 he] at hx
  cases hx

theorem bind (hx : Raises x checks) (hf : ∀ a, x = .ok a → Raises (f a) checks') :
    Raises (x >>= f) (checks ++ checks') := by
  intro e
  rw [bind_eq_error_iff, FirstOf.append_iff, hx e]
  refine or_congr_right ?_
  constructor
  · rintro ⟨a, ha, he⟩
    exact ⟨hx.not_firstOf_of_ok ha, (hf a ha e).1 he⟩
  · rintro ⟨hnone, he⟩
    cases hxa : x with
    | error e' => exact absurd ((hx e').1 hxa) (hnone e')
    | ok a => exact ⟨a, rfl, (hf a hxa e).2 he⟩

theorem map {g : α → β} (h : Raises x checks) : Raises (x.map g) checks := fun e => by
  rw [map_eq_error_iff, h e]

end Raises

end GridDispatch
