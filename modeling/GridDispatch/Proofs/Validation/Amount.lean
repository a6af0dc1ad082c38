import GridDispatch.Proofs.Validation.Fields

/-!
# Amounts as they are sent

The grammar of an amount, said without trimming and without reading: figures `'0'` to `'9'` with a
sign before them or none (`Text.Decimal`), and blanks around them (`Text.Padded`). Reading takes
exactly the numbers of 64 bits that are sent in it, and finds nothing exactly where nothing is sent.
Main statement: `readAmount_exact`.
-/

namespace GridDispatch

namespace Text

/-! ## Blanks around a text -/

def Blanks (cs : List Char) : Prop :=
  ∀ c ∈ cs, isBlank c = true

instance (cs : List Char) : Decidable (Blanks cs) :=
  decidable_of_iff (cs.all isBlank = true) List.all_eq_true

/-- The text is `cs` with blanks around it or not. -/
def Padded (cs text : List Char) : Prop :=
  ∃ before after, text = before ++ cs ++ after ∧ Blanks before ∧ Blanks after

theorem padded_trimChars (text : List Char) : Padded (trimChars text) text := by
  refine ⟨text.takeWhile isBlank, (text.dropWhile isBlank).rtakeWhile isBlank, ?_,
    fun c hc => List.mem_takeWhile_imp hc, fun c hc => List.mem_rtakeWhile_imp hc⟩
  have hend : trimChars text ++ (text.dropWhile isBlank).rtakeWhile isBlank =
      text.dropWhile isBlank := List.rdropWhile_append_rtakeWhile
  rw [List.append_assoc, hend, List.takeWhile_append_dropWhile]

variable {cs text : List Char} {n : Int}

theorem Padded.trimChars_eq (h : Padded cs text) : trimChars text = trimChars cs := by
  obtain ⟨before, after, rfl, hbefore, hafter⟩ := h
  exact trimChars_pad hbefore hafter cs

theorem trimChars_eq_nil_iff : trimChars text = [] ↔ Blanks text := by
  constructor
  · intro h
    obtain ⟨before, after, htext, hbefore, hafter⟩ := padded_trimChars text
    rw [h, List.append_nil] at htext
    rw [htext]
    exact fun c hc => (List.mem_append.1 hc).elim (hbefore c) (hafter c)
  · intro h
    have hpadded : Padded [] text := ⟨text, [], by simp, h, List.forall_mem_nil _⟩
    exact hpadded.trimChars_eq

theorem trim_eq_empty_iff {s : String} : trim s = "" ↔ Blanks s.toList := by
  rw [← trimChars_eq_nil_iff, ← toList_trim, String.toList_eq_nil_iff]

/-! ## Figures -/

/-- The characters of decimal figures. -/
def figures (fs : List (Fin 10)) : List Char :=
  fs.map fun f => Nat.digitChar f.val

/-- The number that figures make, the highest of them first. -/
def valueOf (fs : List (Fin 10)) : Nat :=
  Nat.ofDigits 10 (fs.map Fin.val).reverse

/-- At least one figure, with a sign before the first or none, and the number that it stands for. -/
inductive Decimal : List Char → Int → Prop
  | unsigned {fs : List (Fin 10)} (h : fs ≠ []) : Decimal (figures fs) (valueOf fs)
  | plus {fs : List (Fin 10)} (h : fs ≠ []) : Decimal ('+' :: figures fs) (valueOf fs)
  | minus {fs : List (Fin 10)} (h : fs ≠ []) : Decimal ('-' :: figures fs) (-valueOf fs)

theorem digit?_eq_some_iff {c : Char} {d : Nat} :
    digit? c = some d ↔ d < 10 ∧ c = Nat.digitChar d := by
  constructor
  · intro h
    rw [digit?] at h
    split at h
    · rename_i hc
      cases h
      have hlt : c.toNat - 48 < 10 := by omega
      refine ⟨hlt, Char.toNat_inj.1 ?_⟩
      rw [Nat.toNat_digitChar_of_lt_ten hlt]
      omega
    · cases h
  · rintro ⟨hlt, rfl⟩
    have hall : ∀ d < 10, digit? (Nat.digitChar d) = some d := by decide
    exact hall d hlt

theorem map_digit?_eq_iff {ds : List Nat} : cs.map digit? = ds.map some ↔
    ∃ fs : List (Fin 10), cs = figures fs ∧ ds = fs.map Fin.val := by
  constructor
  · intro h
    induction cs generalizing ds with
    | nil =>
      obtain rfl : ds = [] := by simpa using h.symm
      exact ⟨[], rfl, rfl⟩
    | cons c cs ih =>
      cases ds with
      | nil => cases h
      | cons d ds =>
        obtain ⟨hd, hrest⟩ := List.cons.inj h
        obtain ⟨hlt, rfl⟩ := digit?_eq_some_iff.1 hd
        obtain ⟨fs, rfl, rfl⟩ := ih hrest
        exact ⟨⟨d, hlt⟩ :: fs, rfl, rfl⟩
  · rintro ⟨fs, rfl, rfl⟩
    rw [figures, List.map_map, List.map_map]
    exact List.map_congr_left fun f _ => digit?_eq_some_iff.2 ⟨f.isLt, rfl⟩

theorem spells_iff {n : Nat} :
    Spells cs n ↔ ∃ fs : List (Fin 10), fs ≠ [] ∧ cs = figures fs ∧ n = valueOf fs := by
  constructor
  · rintro ⟨hne, ds, hds, rfl⟩
    obtain ⟨fs, rfl, rfl⟩ := map_digit?_eq_iff.1 hds
    exact ⟨fs, fun hfs => hne (hfs ▸ rfl), rfl, rfl⟩
  · rintro ⟨fs, hne, rfl, rfl⟩
    exact ⟨by simpa [figures] using hne, _, map_digit?_eq_iff.2 ⟨fs, rfl, rfl⟩, rfl⟩

theorem numeral_signed_iff : Numeral Range.signed cs n ↔ Decimal cs n := by
  constructor
  · rintro (h | h | ⟨-, h⟩)
    all_goals obtain ⟨fs, hne, rfl, rfl⟩ := spells_iff.1 h
    · exact .unsigned hne
    · exact .plus hne
    · exact .minus hne
  · rintro (h | h | h)
    · exact .plain (spells_iff.2 ⟨_, h, rfl, rfl⟩)
    · exact .plus (spells_iff.2 ⟨_, h, rfl, rfl⟩)
    · exact .minus (by decide) (spells_iff.2 ⟨_, h, rfl, rfl⟩)

theorem isBlank_of_mem_figures {fs : List (Fin 10)} {c : Char} (h : c ∈ figures fs) :
    isBlank c = false := by
  obtain ⟨f, -, rfl⟩ := List.mem_map.1 h
  exact isBlank_of_isDigit (Option.isSome_of_eq_some (digit?_eq_some_iff.2 ⟨f.isLt, rfl⟩))

theorem Decimal.isBlank_of_mem (h : Decimal cs n) : ∀ c ∈ cs, isBlank c = false := by
  cases h with
  | unsigned => exact fun c => isBlank_of_mem_figures
  | plus | minus =>
    exact List.forall_mem_cons.2 ⟨by decide, fun c => isBlank_of_mem_figures⟩

/-- A text stands for a number exactly if the number is in it in decimal, with blanks around it or
not. -/
theorem Range.stands_signed_iff {s : String} : Range.signed.Stands s n ↔
    (∃ cs, Padded cs s.toList ∧ Decimal cs n) ∧ Range.signed.has n = true := by
  rw [Stands, toList_trim, numeral_signed_iff]
  refine and_congr_left fun _ => ⟨fun h => ⟨_, padded_trimChars _, h⟩, ?_⟩
  rintro ⟨cs, hpadded, h⟩
  rwa [hpadded.trimChars_eq, trimChars_eq_self h.isBlank_of_mem]

end Text

/-! ## Amounts -/

namespace Json

/-- The ways in which a number is sent: as it is, or as a text in decimal. -/
inductive Sends : Json → Int → Prop
  | number {n : Int} : Sends (.int n) n
  | decimal {s : String} {cs : List Char} {n : Int} (hpadded : Text.Padded cs s.toList)
    (h : Text.Decimal cs n) : Sends (.str s) n

/-- The ways in which nothing is sent. -/
inductive SendsNothing : Json → Prop
  | null : SendsNothing .null
  | blanks {s : String} (h : Text.Blanks s.toList) : SendsNothing (.str s)

variable {v : Json} {n : Int}

theorem vacant_iff : v.Vacant ↔ v.SendsNothing := by
  constructor
  · rintro (_ | h)
    · exact .null
    · exact .blanks (Text.trim_eq_empty_iff.1 h)
  · rintro (_ | h)
    · exact .null
    · exact .blank (Text.trim_eq_empty_iff.2 h)

theorem isAmount_iff : v.IsAmount n ↔ v.Sends n ∧ Text.Range.signed.has n = true := by
  constructor
  · rintro (h | h)
    · exact ⟨.number, h⟩
    · obtain ⟨⟨cs, hpadded, hdecimal⟩, hhas⟩ := Text.Range.stands_signed_iff.1 h
      exact ⟨.decimal hpadded hdecimal, hhas⟩
  · rintro ⟨_ | ⟨hpadded, hdecimal⟩, hhas⟩
    · exact .number hhas
    · exact .numeral (Text.Range.stands_signed_iff.2 ⟨⟨_, hpadded, hdecimal⟩, hhas⟩)

end Json

section Amount

variable {v : Json} {n : Int}

theorem readAmount_eq_absent_iff : readAmount v = .absent ↔ v.Vacant := by
  refine ⟨fun h => ?_, readAmount_of_vacant⟩
  cases v with
  | null => exact .null
  | int n =>
    rw [readAmount] at h
    split at h <;> cases h
  | str s =>
    rw [readAmount] at h
    split at h
    · exact .blank ‹_›
    · split at h <;> cases h
  | _ => cases h

theorem has_signed_iff : Text.Range.signed.has n = true ↔ -2 ^ 63 ≤ n ∧ n < 2 ^ 63 := by
  simp only [Text.Range.has_iff, Text.Range.signed]
  omega

theorem readAmount_eq_malformed_iff : readAmount v = .malformed ↔
    readAmount v ≠ .absent ∧ ∀ n, readAmount v ≠ .value n := by
  cases readAmount v <;> simp

/-- An amount is read exactly where a number of 64 bits is sent, and it is absent exactly where nothing
is; everything else is malformed. What is written of a number is read as the number, whatever blanks
are around it. -/
theorem readAmount_exact :
    (∀ v n, readAmount v = .value n ↔ v.Sends n ∧ -2 ^ 63 ≤ n ∧ n < 2 ^ 63) ∧
    (∀ v, readAmount v = .absent ↔ v.SendsNothing) ∧
    (∀ v, readAmount v = .malformed ↔
      ¬ v.SendsNothing ∧ ∀ n, v.Sends n → ¬ (-2 ^ 63 ≤ n ∧ n < 2 ^ 63)) ∧
    ∀ n : Int, -2 ^ 63 ≤ n ∧ n < 2 ^ 63 → ∀ s : String,
      Text.Padded (Text.write n).toList s.toList → readAmount (.str s) = .value n := by
  have hvalue (v : Json) (n : Int) :
      readAmount v = .value n ↔ v.Sends n ∧ -2 ^ 63 ≤ n ∧ n < 2 ^ 63 := by
    rw [readAmount_eq_value_iff, Json.isAmount_iff, has_signed_iff]
  have habsent (v : Json) : readAmount v = .absent ↔ v.SendsNothing :=
    readAmount_eq_absent_iff.trans Json.vacant_iff
  refine ⟨hvalue, habsent, fun v => ?_, fun n hn s hs => ?_⟩
  · rw [readAmount_eq_malformed_iff, ne_eq, habsent]
    exact and_congr_right fun _ => forall_congr' fun n => by rw [ne_eq, hvalue, not_and]
  · have hdecimal := Text.numeral_signed_iff.1 (Text.Range.numeral_write (has_signed_iff.2 hn))
    exact (hvalue _ n).2 ⟨.decimal hs hdecimal, hn⟩

/-- The least number of 64 bits between blanks, and the number below it with a leading zero. -/
theorem readAmount_exact_of_least :
    let s : String := "\u00a0" ++ Text.write (-2 ^ 63) ++ "\r\n"
    let below : Json := .str "-09223372036854775809"
    ((-2 ^ 63 ≤ (-2 ^ 63 : Int) ∧ (-2 ^ 63 : Int) < 2 ^ 63) ∧
        Text.Padded (Text.write (-2 ^ 63)).toList s.toList) ∧
      readAmount (.str s) = .value (-2 ^ 63) ∧
      below.Sends (-2 ^ 63 - 1) ∧ ∀ n, below.Sends n → ¬ (-2 ^ 63 ≤ n ∧ n < 2 ^ 63) := by
  intro s below
  have hbounds : -2 ^ 63 ≤ (-2 ^ 63 : Int) ∧ (-2 ^ 63 : Int) < 2 ^ 63 := by decide
  have hpadded : Text.Padded (Text.write (-2 ^ 63)).toList s.toList :=
    ⟨['\u00a0'], ['\r', '\n'], by simp [s], by decide, by decide⟩
  have hfigures : "-09223372036854775809".toList = [] ++ '-' ::
      Text.figures [0, 9, 2, 2, 3, 3, 7, 2, 0, 3, 6, 8, 5, 4, 7, 7, 5, 8, 0, 9] ++ [] := rfl
  have hread : readAmount below = .malformed := by decide +kernel
  obtain ⟨-, -, hmalformed, hwritten⟩ := readAmount_exact
  exact ⟨⟨hbounds, hpadded⟩, hwritten _ hbounds s hpadded,
    .decimal ⟨[], [], hfigures, by decide, by decide⟩ (.minus (by decide)),
    ((hmalformed below).1 hread).2⟩

end Amount

end GridDispatch
