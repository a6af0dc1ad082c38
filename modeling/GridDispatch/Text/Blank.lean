/-!
# Blank text

Codes, names and numbers arrive padded. `isBlank` is the blank characters of Unicode (property
White_Space), `trim` takes them off both ends, and `filled?` drops a text that has nothing else.
-/

namespace GridDispatch.Text

/-- A character with the Unicode property White_Space. -/
def isBlank (c : Char) : Bool :=
  let n := c.toNat
  (0x09 ≤ n && n ≤ 0x0D) || n == 0x20 || n == 0x85 || n == 0xA0 || n == 0x1680 ||
    (0x2000 ≤ n && n ≤ 0x200A) || n == 0x2028 || n == 0x2029 || n == 0x202F ||
    n == 0x205F || n == 0x3000

/-- The characters without the blanks at the end. -/
def dropBlankEnd (cs : List Char) : List Char :=
  (cs.reverse.dropWhile isBlank).reverse

/-- The characters without the blanks at either end. -/
def trimChars (cs : List Char) : List Char :=
  dropBlankEnd (cs.dropWhile isBlank)

/-- The text without the blanks at either end. -/
def trim (s : String) : String :=
  String.ofList (trimChars s.toList)

/-- The trimmed text, if anything is left of it. -/
def filled? (s : String) : Option String :=
  if trim s = "" then none else some (trim s)

theorem toList_trim (s : String) : (trim s).toList = trimChars s.toList := by
  simp [trim]

theorem dropBlankEnd_append_blank {bs : List Char} (h : ∀ c ∈ bs, isBlank c = true)
    (cs : List Char) : dropBlankEnd (cs ++ bs) = dropBlankEnd cs := by
  have : (bs.reverse ++ cs.reverse).dropWhile isBlank = cs.reverse.dropWhile isBlank := by
    rw [List.dropWhile_append_of_pos (by simpa using h)]
  simp [dropBlankEnd, this]

/-- Blanks around a text do not matter. -/
theorem trimChars_pad {as bs : List Char} (ha : ∀ c ∈ as, isBlank c = true)
    (hb : ∀ c ∈ bs, isBlank c = true) (cs : List Char) :
    trimChars (as ++ cs ++ bs) = trimChars cs := by
  unfold trimChars
  rw [List.append_assoc, List.dropWhile_append_of_pos ha, List.dropWhile_append]
  split
  · rename_i h
    have h' : cs.dropWhile isBlank = [] := by simpa using h
    rw [h', ← List.nil_append (bs.dropWhile isBlank)]
    exact dropBlankEnd_append_blank (fun c hc => hb c (List.dropWhile_sublist _ |>.subset hc)) _
  · exact dropBlankEnd_append_blank hb _

end GridDispatch.Text
