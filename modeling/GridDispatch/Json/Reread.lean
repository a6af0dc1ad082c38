import GridDispatch.Json.Parser
import GridDispatch.Json.Printer

/-!
# Printed values read back

A value is printed exactly, but a double that is read is not always the one that was printed. All
else comes back as it was (`reread_of_noReal`), unless it nests too deep to be read: `depth` counts how
deep that is.
-/

namespace GridDispatch.Json

mutual

/-- The value as it is after its doubles were printed and read. -/
def reread : Json → Json
  | real x =>
    match parse x.write with
    | .ok v => v
    | .error _ => real x
  | arr items => arr (rereadItems items)
  | obj members => obj (rereadMembers members)
  | v => v

def rereadItems : List Json → List Json
  | [] => []
  | v :: vs => v.reread :: rereadItems vs

def rereadMembers : List (String × Json) → List (String × Json)
  | [] => []
  | (k, v) :: ms => (k, v.reread) :: rereadMembers ms

end

mutual

/-- Whether a double occurs in a value. -/
def hasReal : Json → Bool
  | real _ => true
  | arr items => itemsHaveReal items
  | obj members => membersHaveReal members
  | _ => false

def itemsHaveReal : List Json → Bool
  | [] => false
  | v :: vs => v.hasReal || itemsHaveReal vs

def membersHaveReal : List (String × Json) → Bool
  | [] => false
  | (_, v) :: ms => v.hasReal || membersHaveReal ms

end

mutual

/-- How many containers of a value are within one another. -/
def depth : Json → Nat
  | arr items => itemsDepth items + 1
  | obj members => membersDepth members + 1
  | _ => 0

def itemsDepth : List Json → Nat
  | [] => 0
  | v :: vs => max v.depth (itemsDepth vs)

def membersDepth : List (String × Json) → Nat
  | [] => 0
  | (_, v) :: ms => max v.depth (membersDepth ms)

end

/-- A value that comes back as it was printed: no double is in it, and it does not nest too deep. -/
structure Plain (v : Json) : Prop where
  noReal : v.hasReal = false
  depth_le : v.depth ≤ depthBound

mutual

theorem reread_of_noReal : ∀ {v : Json}, v.hasReal = false → v.reread = v
  | null, _ | bool _, _ | int _, _ | str _, _ => by simp [reread]
  | real _, h => by simp [hasReal] at h
  | arr items, h => by
    rw [reread, rereadItems_of_noReal (by simpa [hasReal] using h)]
  | obj members, h => by
    rw [reread, rereadMembers_of_noReal (by simpa [hasReal] using h)]

theorem rereadItems_of_noReal : ∀ {vs : List Json}, itemsHaveReal vs = false → rereadItems vs = vs
  | [], _ => rfl
  | v :: vs, h => by
    simp only [itemsHaveReal, Bool.or_eq_false_iff] at h
    rw [rereadItems, reread_of_noReal h.1, rereadItems_of_noReal h.2]

theorem rereadMembers_of_noReal : ∀ {ms : List (String × Json)},
    membersHaveReal ms = false → rereadMembers ms = ms
  | [], _ => rfl
  | (k, v) :: ms, h => by
    simp only [membersHaveReal, Bool.or_eq_false_iff] at h
    rw [rereadMembers, reread_of_noReal h.1, rereadMembers_of_noReal h.2]

end

/-! ## Lists within one another -/

/-- So many lists within one another. -/
def nested : Nat → Json
  | 0 => null
  | n + 1 => arr [nested n]

theorem depth_nested (n : Nat) : (nested n).depth = n := by
  induction n with
  | zero => rfl
  | succ n ih => rw [nested, depth, itemsDepth, itemsDepth, ih, Nat.max_zero]

theorem toList_print_arr (v : Json) : (arr [v]).print.toList = '[' :: (v.print.toList ++ [']']) := by
  simp [print, printItems]

theorem exists_toList_print_nested (n : Nat) :
    ∃ rest, (nested (n + 1)).print.toList = List.replicate n '[' ++ '[' :: rest := by
  induction n with
  | zero => exact ⟨_, toList_print_arr null⟩
  | succ n ih =>
    obtain ⟨rest, hrest⟩ := ih
    refine ⟨rest ++ [']'], ?_⟩
    rw [nested, toList_print_arr, hrest, List.replicate_succ, List.cons_append, List.append_assoc,
      List.cons_append]

/-- One list more than may nest is refused. -/
theorem exists_parse_nested : ∃ fault, parse (nested (depthBound + 1)).print = .error fault := by
  obtain ⟨rest, hrest⟩ := exists_toList_print_nested depthBound
  exact ⟨_, parse_of_brackets hrest⟩

end GridDispatch.Json
