import GridDispatch.Ledger.Row
import Mathlib.Tactic.ByContra

/-!
# Columns of parameters

What is read of a flat row. `Equipment.needs` and `Equipment.takes` are the columns that all and some
parameters of an equipment fill (`Equipment.mem_needs_iff`, `Equipment.mem_takes_iff`). A row that
lacks a needed column is corrupt, but a column that the equipment has no use for is passed over, so
that the parameters are those of the row without it. Main statement: `Params.ofColumns?_exact`.
-/

namespace GridDispatch

inductive Params.Column
  | amount
  | voltage
  | staggered
  | voltagePrimary
  | voltageSecondary
  deriving DecidableEq, Repr

/-- The column is not empty. -/
def Columns.fills (c : Columns) : Params.Column → Bool
  | .amount => c.amount.isSome
  | .voltage => c.voltage.isSome
  | .staggered => c.staggered.isSome
  | .voltagePrimary => c.voltagePrimary.isSome
  | .voltageSecondary => c.voltageSecondary.isSome

namespace Params

/-- Parameters of the equipment without anything that can be left out. -/
def least : Equipment → Params
  | .capacitor | .reactor => switched 1 true none
  | .transformer => transformer 1 .kv500 none none
  | .synchronous => synchronous none

/-- Parameters of the equipment with everything that can be there. -/
def most : Equipment → Params
  | .capacitor | .reactor => switched 1 true (some .kv500)
  | .transformer => transformer 1 .kv500 (some .kv500) (some .kv500)
  | .synchronous => synchronous (some 1)

theorem fits_least (e : Equipment) : (least e).Fits e := by
  cases e <;> decide

theorem fits_most (e : Equipment) : (most e).Fits e := by
  cases e <;> decide

end Params

namespace Equipment

/-- The columns without which the equipment has no parameters. -/
def needs : Equipment → List Params.Column
  | capacitor | reactor => [.amount, .staggered]
  | transformer => [.amount, .voltage]
  | synchronous => []

/-- The columns that the equipment has a use for. -/
def takes : Equipment → List Params.Column
  | capacitor | reactor => [.amount, .voltage, .staggered]
  | transformer => [.amount, .voltage, .voltagePrimary, .voltageSecondary]
  | synchronous => [.amount]

variable {e : Equipment} {column : Params.Column}

theorem mem_needs_iff :
    column ∈ e.needs ↔ ∀ p : Params, p.Fits e → p.columns.fills column = true := by
  constructor
  · intro h p hfits
    cases p with
    | switched amount staggered voltage =>
      obtain rfl | rfl : column = .amount ∨ column = .staggered := by
        rcases hfits with rfl | rfl <;> simpa [needs] using h
      all_goals rfl
    | transformer amount voltage primary secondary =>
      cases hfits
      obtain rfl | rfl : column = .amount ∨ column = .voltage := by simpa [needs] using h
      all_goals rfl
    | synchronous amount =>
      cases hfits
      cases h
  · intro h
    -- what the least parameters leave empty is not needed
    have hleast := h _ (Params.fits_least e)
    cases e with
    | capacitor | reactor =>
      cases column with
      | amount | staggered => decide
      | _ => cases hleast
    | transformer =>
      cases column with
      | amount | voltage => decide
      | _ => cases hleast
    | synchronous => cases column <;> cases hleast

theorem mem_takes_iff :
    column ∈ e.takes ↔ ∃ p : Params, p.Fits e ∧ p.columns.fills column = true := by
  constructor
  · intro h
    refine ⟨_, Params.fits_most e, ?_⟩
    have hall : ∀ column ∈ e.takes, (Params.most e).columns.fills column = true := by
      cases e <;> decide
    exact hall column h
  · rintro ⟨p, hfits, hfills⟩
    cases p with
    | switched amount staggered voltage =>
      rcases hfits with rfl | rfl
      all_goals
        cases column with
        | voltagePrimary | voltageSecondary => cases hfills
        | _ => decide
    | transformer amount voltage primary secondary =>
      cases hfits
      cases column with
      | staggered => cases hfills
      | _ => decide
    | synchronous amount =>
      cases hfits
      cases column with
      | amount => decide
      | _ => cases hfills

end Equipment

/-- The row with those columns emptied that the equipment has no use for. -/
def Columns.usedBy (c : Columns) (e : Equipment) : Columns where
  amount := if .amount ∈ e.takes then c.amount else none
  voltage := if .voltage ∈ e.takes then c.voltage else none
  staggered := if .staggered ∈ e.takes then c.staggered else none
  voltagePrimary := if .voltagePrimary ∈ e.takes then c.voltagePrimary else none
  voltageSecondary := if .voltageSecondary ∈ e.takes then c.voltageSecondary else none

section Reading

variable {c : Columns} {e : Equipment} {column : Params.Column} {p : Params}

theorem Columns.fills_of_usedBy (h : (c.usedBy e).fills column = true) :
    c.fills column = true := by
  have hkept {α : Type} {x : Option α} (column : Params.Column)
      (h : (if column ∈ e.takes then x else none).isSome = true) : x.isSome = true := by
    split at h
    · exact h
    · cases h
  cases column <;> exact hkept _ h

theorem Columns.usedBy_of_taken (h : ∀ column, c.fills column = true → column ∈ e.takes) :
    c.usedBy e = c := by
  have hkept {α : Type} {x : Option α} (column : Params.Column) (hx : x.isSome = c.fills column) :
      (if column ∈ e.takes then x else none) = x := by
    split
    · rfl
    · rename_i huseless
      cases x with
      | none => rfl
      | some a => exact absurd (h column hx.symm) huseless
  rw [usedBy, hkept .amount rfl, hkept .voltage rfl, hkept .staggered rfl,
    hkept .voltagePrimary rfl, hkept .voltageSecondary rfl]

namespace Params

/-- What the equipment has no use for does not matter. -/
theorem ofColumns?_usedBy (e : Equipment) (c : Columns) :
    ofColumns? e (c.usedBy e) = ofColumns? e c := by
  cases e <;> rfl

theorem columns_of_ofColumns? (h : ofColumns? e c = some p) : p.columns = c.usedBy e := by
  cases e with
  | capacitor | reactor =>
    obtain ⟨amount, hamount, h⟩ := Option.bind_eq_some_iff.1 h
    obtain ⟨staggered, hstaggered, h⟩ := Option.bind_eq_some_iff.1 h
    cases h
    simp [columns, Columns.usedBy, Equipment.takes, hamount, hstaggered]
  | transformer =>
    obtain ⟨amount, hamount, h⟩ := Option.bind_eq_some_iff.1 h
    obtain ⟨voltage, hvoltage, h⟩ := Option.bind_eq_some_iff.1 h
    cases h
    simp [columns, Columns.usedBy, Equipment.takes, hamount, hvoltage]
  | synchronous =>
    cases h
    simp [columns, Columns.usedBy, Equipment.takes]

theorem ofColumns?_eq_some_iff :
    ofColumns? e c = some p ↔ p.Fits e ∧ p.columns = c.usedBy e := by
  constructor
  · intro h
    exact ⟨fits_of_ofColumns? h, columns_of_ofColumns? h⟩
  · rintro ⟨hfits, hcolumns⟩
    rw [← ofColumns?_usedBy, ← hcolumns, ofColumns?_columns hfits]

/-- A row that has what is needed is read. -/
theorem exists_ofColumns? (h : ∀ column ∈ e.needs, c.fills column = true) :
    ∃ p, ofColumns? e c = some p := by
  cases e with
  | capacitor | reactor =>
    obtain ⟨amount, hamount⟩ := Option.isSome_iff_exists.1 (h .amount (by decide))
    obtain ⟨staggered, hstaggered⟩ := Option.isSome_iff_exists.1 (h .staggered (by decide))
    exact ⟨switched amount staggered c.voltage, by simp [ofColumns?, hamount, hstaggered]⟩
  | transformer =>
    obtain ⟨amount, hamount⟩ := Option.isSome_iff_exists.1 (h .amount (by decide))
    obtain ⟨voltage, hvoltage⟩ := Option.isSome_iff_exists.1 (h .voltage (by decide))
    exact ⟨transformer amount voltage c.voltagePrimary c.voltageSecondary,
      by simp [ofColumns?, hamount, hvoltage]⟩
  | synchronous => exact ⟨synchronous c.amount, rfl⟩

theorem ofColumns?_eq_none_iff :
    ofColumns? e c = none ↔ ∃ column ∈ e.needs, c.fills column = false := by
  constructor
  · intro hnone
    by_contra hmissing
    obtain ⟨p, hp⟩ := exists_ofColumns? (e := e) (c := c) fun column hneeded => by
      by_contra hempty
      exact hmissing ⟨column, hneeded, Bool.eq_false_iff.2 hempty⟩
    rw [hnone] at hp
    cases hp
  · rintro ⟨column, hneeded, hempty⟩
    rw [Option.eq_none_iff_forall_ne_some]
    intro p hp
    obtain ⟨hfits, hcolumns⟩ := ofColumns?_eq_some_iff.1 hp
    have hfills := Equipment.mem_needs_iff.1 hneeded p hfits
    rw [hcolumns] at hfills
    rw [Columns.fills_of_usedBy hfills] at hempty
    cases hempty

/-- The columns come back exactly where none of them is without use. -/
theorem columns_eq_iff (h : ofColumns? e c = some p) :
    p.columns = c ↔ ∀ column, c.fills column = true → column ∈ e.takes := by
  obtain ⟨hfits, hcolumns⟩ := ofColumns?_eq_some_iff.1 h
  constructor
  · rintro rfl column hfills
    exact Equipment.mem_takes_iff.2 ⟨p, hfits, hfills⟩
  · intro htaken
    rw [hcolumns, Columns.usedBy_of_taken htaken]

end Params

/-- A row of known names is corrupt exactly where its columns are not read, and the solicitation has
the parameters that are read of them. -/
theorem EnvelopeRow.read_cases {row : EnvelopeRow} {action : Action} (h : row.Holds e action c) :
    (Params.ofColumns? e c = none ∧ row.read = row.corrupt (.columnsDisagree e)) ∨
      ∃ solicitation, Params.ofColumns? e c = some solicitation.params ∧
        row.read = .ok solicitation := by
  rw [read_of_holds h]
  cases Params.ofColumns? e c with
  | none => exact .inl ⟨rfl, rfl⟩
  | some params => exact .inr ⟨_, rfl, rfl⟩

end Reading

/-- The parameters that are read of a row are those in the columns that the equipment has a use for.
A row is corrupt exactly if it lacks a column that the equipment needs; of a row that is read, all
columns come back exactly if the equipment has a use for each that is filled. -/
theorem Params.ofColumns?_exact (e : Equipment) (c : Columns) :
    (∀ p, ofColumns? e c = some p ↔ p.Fits e ∧ p.columns = c.usedBy e) ∧
    (ofColumns? e c = none ↔ ∃ column ∈ e.needs, c.fills column = false) ∧
    (∀ p, ofColumns? e c = some p →
      (p.columns = c ↔ ∀ column, c.fills column = true → column ∈ e.takes)) ∧
    ∀ (row : EnvelopeRow) (action : Action), row.Holds e action c →
      (row.read = row.corrupt (.columnsDisagree e) ↔
        ∃ column ∈ e.needs, c.fills column = false) ∧
      ∀ solicitation, row.read = .ok solicitation → (solicitation.params.columns = c ↔
        ∀ column, c.fills column = true → column ∈ e.takes) := by
  refine ⟨fun p => ofColumns?_eq_some_iff, ofColumns?_eq_none_iff, fun p => columns_eq_iff, ?_⟩
  intro row action hrow
  rw [← ofColumns?_eq_none_iff]
  rcases EnvelopeRow.read_cases hrow with ⟨hnone, hread⟩ | ⟨solicitation, hsome, hread⟩
  · rw [hread, hnone]
    refine ⟨iff_of_true rfl rfl, ?_⟩
    intro solicitation h
    cases h
  · rw [hread, hsome]
    refine ⟨iff_of_false ?_ (Option.some_ne_none _), ?_⟩
    · intro h
      cases h
    · intro solicitation' h
      cases h
      exact columns_eq_iff hsome

/-- A transformer of which a flag is stored. The flag is passed over, and only without it do all columns
come back. -/
theorem Params.ofColumns?_exact_of_flagged :
    let c : Columns := ⟨some (-3), some .kv230, some true, none, some .kv88⟩
    let p : Params := transformer (-3) .kv230 none (some .kv88)
    let solicitation : Solicitation := ⟨7, .transformer, .adjust, "JAG", "CTEEP", p, "ana", none⟩
    let row : EnvelopeRow := ⟨7, "TRANSFORMER", "ADJUST", "JAG", "CTEEP", .int (-3), some "230kV",
      .int 1, none, some "88kV", "ana", none⟩
    (ofColumns? .transformer c = some p ∧ row.Holds .transformer .adjust c ∧
        row.read = .ok solicitation) ∧
      solicitation.params.columns ≠ c ∧ p.columns = { c with staggered := none } := by
  intro c p solicitation row
  have hof : ofColumns? .transformer c = some p := rfl
  have hholds : row.Holds .transformer .adjust c := ⟨rfl, rfl, rfl, rfl, rfl, rfl, rfl⟩
  have hread : row.read = .ok solicitation := (EnvelopeRow.read_of_holds hholds).trans rfl
  obtain ⟨-, hrow⟩ := (ofColumns?_exact .transformer c).2.2.2 row .adjust hholds
  refine ⟨⟨hof, hholds, hread⟩, ?_, ?_⟩
  · intro hback
    exact absurd ((hrow solicitation hread).1 hback .staggered rfl) (by decide)
  · refine ((ofColumns?_exact .transformer { c with staggered := none }).2.2.1 p hof).2 ?_
    intro column hfills
    cases column with
    | staggered | voltagePrimary => cases hfills
    | _ => decide

/-- A voltage that is stored of synchronous equipment is passed over. -/
theorem Params.not_columns_of_voltage :
    let c : Columns := ⟨none, some .kv500, none, none, none⟩
    ofColumns? .synchronous c = some (synchronous none) ∧ (synchronous none).columns ≠ c :=
  ⟨rfl, by decide⟩

end GridDispatch
