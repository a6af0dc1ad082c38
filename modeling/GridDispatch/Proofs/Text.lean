import GridDispatch.Text.Blank
import GridDispatch.Text.Numeral
import Mathlib.Data.List.DropRight
import Mathlib.Data.Nat.Digits.Defs

/-!
# Trimmed texts and numerals

A text that was trimmed has nothing left to trim (`Text.trim_trim`). A text is read into a range of
numbers exactly if it is a numeral of a number of the range: digits, with a sign before them or not
(`Text.Range.readChars_eq_ok_iff`), and what is written of a number is such a numeral
(`Text.Range.stands_write`).
-/

namespace GridDispatch.Text

/-! ## Trimming -/

theorem trimChars_trimChars (cs : List Char) : trimChars (trimChars cs) = trimChars cs := by
  -- what is cut off at the end leaves a beginning, and that has no blank in front
  have hfirstpart : (cs.dropWhile isBlank).rdropWhile isBlank <+: cs.dropWhile isBlank :=
    List.rdropWhile_prefix _ _
  have hfront : ((cs.dropWhile isBlank).rdropWhile isBlank).dropWhile isBlank =
      (cs.dropWhile isBlank).rdropWhile isBlank := by
    rw [List.dropWhile_eq_self_iff]
    intro hlen
    have hlen' : 0 < (cs.dropWhile isBlank).length := hlen.trans_le hfirstpart.length_le
    have hfirst := List.dropWhile_get_zero_not isBlank cs hlen'
    simpa [hfirstpart.getElem hlen] using hfirst
  change (((cs.dropWhile isBlank).rdropWhile isBlank).dropWhile isBlank).rdropWhile isBlank =
    (cs.dropWhile isBlank).rdropWhile isBlank
  rw [hfront, List.rdropWhile_idempotent]

theorem trim_trim (s : String) : trim (trim s) = trim s := by
  rw [trim, toList_trim, trimChars_trimChars, trim]

/-- Characters without any blank among them have nothing to trim. -/
theorem trimChars_eq_self {cs : List Char} (h : ∀ c ∈ cs, isBlank c = false) :
    trimChars cs = cs := by
  have hfront : cs.dropWhile isBlank = cs := by
    rw [List.dropWhile_eq_self_iff]
    exact fun hlen => by simp [h]
  have hend : cs.rdropWhile isBlank = cs := by
    rw [List.rdropWhile_eq_self_iff]
    exact fun hne => by simp [h]
  have htrim : trimChars cs = (cs.dropWhile isBlank).rdropWhile isBlank := rfl
  rw [htrim, hfront, hend]

theorem trim_ofList {cs : List Char} (h : ∀ c ∈ cs, isBlank c = false) :
    trim (String.ofList cs) = String.ofList cs := by
  rw [trim, String.toList_ofList, trimChars_eq_self h]

/-! ## Numerals -/

/-- The characters are decimal digits, the highest first, at least one; together they make `n`. -/
def Spells (cs : List Char) (n : Nat) : Prop :=
  cs ≠ [] ∧ ∃ ds : List Nat, cs.map digit? = ds.map some ∧ Nat.ofDigits 10 ds.reverse = n

/-- The numerals that a range has for a number: digits, with a plus sign or without one, and digits
with a minus sign if there are negative numbers in the range. -/
inductive Numeral (r : Range) : List Char → Int → Prop
  | plain {cs : List Char} {n : Nat} (h : Spells cs n) : Numeral r cs n
  | plus {cs : List Char} {n : Nat} (h : Spells cs n) : Numeral r ('+' :: cs) n
  | minus {cs : List Char} {n : Nat} (hneg : r.lo < 0) (h : Spells cs n) : Numeral r ('-' :: cs) (-n)

namespace Range

variable {r : Range} {n m : Int} {cs : List Char}

theorem has_iff : r.has n = true ↔ r.lo ≤ n ∧ n ≤ r.hi := decide_eq_true_iff

theorem zero_mem_signed : signed.lo ≤ 0 ∧ 0 ≤ signed.hi := by decide

theorem zero_mem_unsigned : unsigned.lo ≤ 0 ∧ 0 ≤ unsigned.hi := by decide

/-- Digits after `n` are read exactly if the number that they make with it is not above the range. -/
theorem up_eq_ok_iff (hn : 0 ≤ n ∧ n ≤ r.hi) : r.up n cs = .ok m ↔
    ∃ ds : List Nat, cs.map digit? = ds.map some ∧
      m = n * 10 ^ ds.length + (Nat.ofDigits 10 ds.reverse : Nat) ∧ m ≤ r.hi := by
  induction cs generalizing n with
  | nil =>
    constructor
    · intro h
      cases h
      exact ⟨[], rfl, by simp, hn.2⟩
    · rintro ⟨ds, hds, rfl, -⟩
      obtain rfl : ds = [] := by simpa using hds.symm
      simp [up]
  | cons c cs ih =>
    rw [up]
    cases hc : digit? c with
    | none =>
      constructor
      · intro h
        cases h
      · rintro ⟨ds, hds, -⟩
        cases ds with
        | nil => cases hds
        | cons d ds =>
          rw [List.map_cons, List.map_cons, hc] at hds
          cases (List.cons.inj hds).1
    | some d =>
      have hstep (ds : List Nat) :
          n * 10 ^ (d :: ds).length + (Nat.ofDigits 10 (d :: ds).reverse : Nat) =
            (n * 10 + d) * 10 ^ ds.length + (Nat.ofDigits 10 ds.reverse : Nat) := by
        rw [List.reverse_cons, Nat.ofDigits_append, Nat.ofDigits_singleton, List.length_reverse,
          List.length_cons]
        push_cast
        ring
      constructor
      · intro h
        dsimp only at h
        split at h
        · rename_i hle
          obtain ⟨ds, hds, hm, hmle⟩ := (ih ⟨by omega, hle⟩).1 h
          exact ⟨d :: ds, by rw [List.map_cons, List.map_cons, hc, hds], hm.trans (hstep ds).symm, hmle⟩
        · cases h
      · rintro ⟨ds, hds, hm, hmle⟩
        cases ds with
        | nil => cases hds
        | cons d' ds =>
          rw [List.map_cons, List.map_cons, hc] at hds
          obtain ⟨hd, hrest⟩ := List.cons.inj hds
          cases hd
          rw [hstep] at hm
          -- a number only grows by the digits after it
          have hgrows : n * 10 + d ≤ (n * 10 + d) * 10 ^ ds.length :=
            le_mul_of_one_le_right (by omega) (one_le_pow₀ (by norm_num))
          have hle : n * 10 + d ≤ r.hi := by omega
          exact (if_pos hle).trans ((ih ⟨by omega, hle⟩).2 ⟨ds, hrest, hm, hmle⟩)

/-- Reading downwards is reading upwards with all signs turned. -/
theorem down_eq_ok_iff_up : r.down n cs = .ok m ↔ (⟨-r.hi, -r.lo⟩ : Range).up (-n) cs = .ok (-m) := by
  induction cs generalizing n with
  | nil => simp [down, up]
  | cons c cs ih =>
    rw [down, up]
    cases digit? c with
    | none => simp
    | some d =>
      have hturn : -n * 10 + (d : Int) = -(n * 10 - d) := by ring
      dsimp only
      rw [hturn]
      by_cases hle : r.lo ≤ n * 10 - d
      · rw [if_pos hle, if_pos (Int.neg_le_neg hle), ih]
      · rw [if_neg hle, if_neg (fun h => hle (Int.neg_le_neg_iff.1 h))]
        simp

/-- After no number at all, digits are read exactly if they spell a number that is not above the
range. -/
theorem up_zero_eq_ok_iff (hcs : cs ≠ []) (hr : 0 ≤ r.hi) : r.up 0 cs = .ok n ↔
    ∃ m : Nat, Spells cs m ∧ n = m ∧ n ≤ r.hi := by
  rw [up_eq_ok_iff ⟨Int.le_refl 0, hr⟩]
  constructor
  · rintro ⟨ds, hds, rfl, hle⟩
    exact ⟨_, ⟨hcs, ds, hds, rfl⟩, by simp, hle⟩
  · rintro ⟨m, ⟨-, ds, hds, rfl⟩, rfl, hle⟩
    exact ⟨ds, hds, by simp, hle⟩

theorem down_zero_eq_ok_iff (hcs : cs ≠ []) (hr : r.lo ≤ 0) : r.down 0 cs = .ok n ↔
    ∃ m : Nat, Spells cs m ∧ n = -m ∧ r.lo ≤ n := by
  have hturned : (0 : Int) ≤ (⟨-r.hi, -r.lo⟩ : Range).hi := Int.neg_nonneg_of_nonpos hr
  rw [down_eq_ok_iff_up, Int.neg_zero, up_zero_eq_ok_iff hcs hturned]
  refine exists_congr fun m => and_congr_right fun _ => ?_
  constructor
  · rintro ⟨hm, hle⟩
    exact ⟨by omega, Int.neg_le_neg_iff.1 hle⟩
  · rintro ⟨hm, hle⟩
    exact ⟨by omega, Int.neg_le_neg hle⟩

end Range

/-- Digits begin with a digit. -/
theorem Spells.isDigit_head {c : Char} {cs : List Char} {n : Nat} (h : Spells (c :: cs) n) :
    isDigit c = true := by
  obtain ⟨-, ds, hds, -⟩ := h
  cases ds with
  | nil => cases hds
  | cons d ds => exact Option.isSome_of_eq_some (List.cons.inj hds).1

theorem ne_sign_of_isDigit {c : Char} (h : isDigit c = true) : c ≠ '+' ∧ c ≠ '-' := by
  constructor
  · rintro rfl
    exact absurd h (by decide)
  · rintro rfl
    exact absurd h (by decide)

theorem Spells.ne_nil {cs : List Char} {n : Nat} (h : Spells cs n) : cs ≠ [] := h.1

namespace Range

variable {r : Range} {n : Int} {cs : List Char}

theorem readChars_plus (hcs : cs ≠ []) : r.readChars ('+' :: cs) = r.up 0 cs := by
  cases cs with
  | nil => exact absurd rfl hcs
  | cons c cs => rfl

theorem readChars_minus (hcs : cs ≠ []) (hneg : r.lo < 0) :
    r.readChars ('-' :: cs) = r.down 0 cs := by
  cases cs with
  | nil => exact absurd rfl hcs
  | cons c cs => exact if_pos hneg

theorem readChars_minus_of_nonneg (hcs : cs ≠ []) (hneg : ¬ r.lo < 0) :
    r.readChars ('-' :: cs) = .error .notDigit := by
  cases cs with
  | nil => exact absurd rfl hcs
  | cons c cs => exact if_neg hneg

theorem readChars_unsigned {c : Char} (hplus : c ≠ '+') (hminus : c ≠ '-') :
    r.readChars (c :: cs) = r.up 0 (c :: cs) := by
  unfold readChars
  split
  · rename_i heq
    cases heq
  all_goals simp_all

/-- A text is read exactly if it is a numeral of a number of the range. -/
theorem readChars_eq_ok_iff (hr : r.lo ≤ 0 ∧ 0 ≤ r.hi) :
    r.readChars cs = .ok n ↔ Numeral r cs n ∧ r.has n = true := by
  rw [has_iff]
  constructor
  · intro h
    cases cs with
    | nil => cases h
    | cons c cs =>
      by_cases hplus : c = '+'
      · subst hplus
        have hcs : cs ≠ [] := by
          rintro rfl
          cases h
        rw [readChars_plus hcs] at h
        obtain ⟨m, hm, rfl, hle⟩ := (up_zero_eq_ok_iff hcs hr.2).1 h
        exact ⟨.plus hm, by omega, hle⟩
      · by_cases hminus : c = '-'
        · subst hminus
          have hcs : cs ≠ [] := by
            rintro rfl
            cases h
          have hneg : r.lo < 0 := by
            by_contra hnot
            rw [readChars_minus_of_nonneg hcs hnot] at h
            cases h
          rw [readChars_minus hcs hneg] at h
          obtain ⟨m, hm, rfl, hle⟩ := (down_zero_eq_ok_iff hcs hr.1).1 h
          exact ⟨.minus hneg hm, hle, by omega⟩
        · rw [readChars_unsigned hplus hminus] at h
          obtain ⟨m, hm, rfl, hle⟩ := (up_zero_eq_ok_iff (List.cons_ne_nil c cs) hr.2).1 h
          exact ⟨.plain hm, by omega, hle⟩
  · rintro ⟨hnumeral, hlo, hhi⟩
    cases hnumeral with
    | @plain cs m h =>
      cases cs with
      | nil => exact absurd rfl h.ne_nil
      | cons c cs =>
        obtain ⟨hplus, hminus⟩ := ne_sign_of_isDigit h.isDigit_head
        rw [readChars_unsigned hplus hminus]
        exact (up_zero_eq_ok_iff h.ne_nil hr.2).2 ⟨m, h, rfl, hhi⟩
    | @plus cs m h =>
      rw [readChars_plus h.ne_nil]
      exact (up_zero_eq_ok_iff h.ne_nil hr.2).2 ⟨m, h, rfl, hhi⟩
    | @minus cs m hneg h =>
      rw [readChars_minus h.ne_nil hneg]
      exact (down_zero_eq_ok_iff h.ne_nil hr.1).2 ⟨m, h, rfl, hlo⟩

/-- A text stands for a number of a range if it is a numeral of it, blanks apart. -/
def Stands (r : Range) (s : String) (n : Int) : Prop :=
  Numeral r (trim s).toList n ∧ r.has n = true

theorem read_trim_eq_ok_iff {s : String} (hr : r.lo ≤ 0 ∧ 0 ≤ r.hi) :
    r.read (trim s) = .ok n ↔ r.Stands s n :=
  readChars_eq_ok_iff hr

end Range

/-! ## What is written of a number -/

theorem spells_digits (n : Nat) : Spells (digits n) n := by
  fun_induction digits n with
  | case1 n hn => exact ⟨List.cons_ne_nil _ _, [n], by simp [digit?_digitChar hn], by simp⟩
  | case2 n hn ih =>
    obtain ⟨-, ds, hds, hvalue⟩ := ih
    refine ⟨by simp, ds ++ [n % 10], ?_, ?_⟩
    · simp [hds, digit?_digitChar_mod]
    · rw [List.reverse_append, List.reverse_singleton, List.singleton_append, Nat.ofDigits_cons,
        hvalue]
      omega

theorem isDigit_of_mem_digits {n : Nat} {c : Char} (h : c ∈ digits n) : isDigit c = true := by
  obtain ⟨-, ds, hds, -⟩ := spells_digits n
  have hmem : digit? c ∈ ds.map some := hds ▸ List.mem_map_of_mem h
  obtain ⟨d, -, hd⟩ := List.mem_map.1 hmem
  exact Option.isSome_of_eq_some hd.symm

theorem isBlank_of_isDigit {c : Char} (h : isDigit c = true) : isBlank c = false := by
  have hc : 48 ≤ c.toNat ∧ c.toNat ≤ 57 := by
    by_contra hnot
    rw [isDigit, digit?, if_neg hnot] at h
    cases h
  simp [isBlank]
  omega

theorem isBlank_of_mem_writeChars {n : Int} {c : Char} (h : c ∈ writeChars n) :
    isBlank c = false := by
  cases n with
  | ofNat n => exact isBlank_of_isDigit (isDigit_of_mem_digits h)
  | negSucc n =>
    rcases List.mem_cons.1 h with rfl | h
    · decide
    · exact isBlank_of_isDigit (isDigit_of_mem_digits h)

theorem trim_write (n : Int) : trim (write n) = write n :=
  trim_ofList fun _ h => isBlank_of_mem_writeChars h

theorem Range.numeral_write {r : Range} {n : Int} (h : r.has n = true) :
    Numeral r (write n).toList n := by
  rw [write, String.toList_ofList]
  cases n with
  | ofNat n => exact .plain (spells_digits n)
  | negSucc n =>
    have hneg : r.lo < 0 := (has_iff.1 h).1.trans_lt (Int.negSucc_lt_zero n)
    exact .minus hneg (spells_digits (n + 1))

/-- What is written of a number of the range stands for it. -/
theorem Range.stands_write {r : Range} {n : Int} (h : r.has n = true) : r.Stands (write n) n := by
  rw [Stands, trim_write]
  exact ⟨numeral_write h, h⟩

end GridDispatch.Text
