/-!
# Finite kinds with text names

`Named α` lists the values of a finite kind with a text name for each. `ofName?` is the value of a
name; blanks and case matter. Main statement: `ofName?_eq_some_iff`.
-/

namespace GridDispatch

class Named (α : Type) where
  /-- The values, in the order in which they are listed. -/
  all : List α
  name : α → String
  mem_all : ∀ a, a ∈ all
  name_inj : ∀ {a b}, name a = name b → a = b

namespace Named

variable {α : Type} [Named α]

/-- The value with the given name. -/
def ofName? (s : String) : Option α :=
  all.find? fun a => name a == s

theorem ofName?_eq_some_iff {s : String} {a : α} : ofName? s = some a ↔ name a = s := by
  constructor
  · intro h
    simpa using List.find?_some h
  · rintro rfl
    cases h : (ofName? (name a) : Option α) with
    | none => exact absurd (List.find?_eq_none.1 h a (mem_all a)) (by simp)
    | some b => rw [name_inj (a := b) (b := a) (by simpa using List.find?_some h)]

theorem ofName?_eq_none_iff {s : String} : (ofName? s : Option α) = none ↔ ∀ a : α, name a ≠ s := by
  rw [Option.eq_none_iff_forall_ne_some]
  exact forall_congr' fun a => not_congr ofName?_eq_some_iff

theorem ofName?_name (a : α) : ofName? (name a) = some a :=
  ofName?_eq_some_iff.2 rfl

end Named

export Named (name ofName?)

end GridDispatch
