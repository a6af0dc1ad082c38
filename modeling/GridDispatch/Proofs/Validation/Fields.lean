import GridDispatch.Proofs.Objections
import GridDispatch.Proofs.Text
import GridDispatch.Validation

/-!
# What parameter fields hold

What it is for a JSON value to be vacant, an amount, a voltage level or a flag, whichever way it was
sent. `Fields.Carries` says which parameters fields have for an equipment and an action, and
`Fields.objections` what can be wrong with the fields, in the order in which they are looked at.
Main statements: the parameters that are read are those that the fields carry
(`Fields.params_eq_ok_iff`), the faults are the objections (`Fields.params_raises`), and fields that
do not matter may be dropped first (`Fields.params_normalize`).
-/

namespace GridDispatch

namespace Json

/-- Null or a text of blanks. -/
inductive Vacant : Json → Prop
  | null : Vacant .null
  | blank {s : String} (h : Text.trim s = "") : Vacant (.str s)

/-- A whole number of 64 bits, or a text that stands for it. -/
inductive IsAmount : Json → Int → Prop
  | number {n : Int} (h : Text.Range.signed.has n = true) : IsAmount (.int n) n
  | numeral {s : String} {n : Int} (h : Text.Range.signed.Stands s n) : IsAmount (.str s) n

inductive IsLevel : Json → Voltage → Prop
  | named {s : String} {level : Voltage} (h : level.name = Text.trim s) : IsLevel (.str s) level

inductive IsFlag : Json → Bool → Prop
  | bool (b : Bool) : IsFlag (.bool b) b
  | text {s : String} {b : Bool} (h : Text.trim s = if b then "true" else "false") :
    IsFlag (.str s) b

/-- A level or, where the field is vacant, none. -/
inductive IsLevel? (v : Json) : Option Voltage → Prop
  | absent (h : v.Vacant) : IsLevel? v none
  | present {level : Voltage} (h : v.IsLevel level) : IsLevel? v (some level)

end Json

/-! ## Readers of fields -/

section Readers

variable {v : Json} {s : String}

theorem read_trim_blank (h : Text.trim s = "") :
    Text.Range.signed.read (Text.trim s) = .error .empty := by
  rw [h]
  rfl

theorem readAmount_eq_value_iff {n : Int} : readAmount v = .value n ↔ v.IsAmount n := by
  cases v with
  | int m =>
    rw [readAmount]
    split
    · rename_i hm
      constructor
      · intro h
        cases h
        exact .number hm
      · rintro ⟨⟩
        rfl
    · rename_i hm
      refine ⟨nofun, ?_⟩
      rintro ⟨h⟩
      exact absurd h hm
  | str s =>
    have hnumeral : (Json.str s).IsAmount n ↔ Text.Range.signed.read (Text.trim s) = .ok n := by
      rw [Text.Range.read_trim_eq_ok_iff Text.Range.zero_mem_signed]
      constructor
      · rintro (_ | h)
        exact h
      · exact .numeral
    rw [readAmount, hnumeral]
    split
    · rename_i hblank
      rw [read_trim_blank hblank]
      exact ⟨nofun, nofun⟩
    · cases Text.Range.signed.read (Text.trim s) <;> simp
  | _ => exact ⟨nofun, nofun⟩

theorem Voltage.name_ne_blank (level : Voltage) : level.name ≠ "" := by
  cases level <;> decide

theorem readVoltage_eq_absent_iff : readVoltage v = .absent ↔ v.Vacant := by
  cases v with
  | null => exact iff_of_true rfl .null
  | str s =>
    rw [readVoltage]
    split
    · rename_i hblank
      exact iff_of_true rfl (.blank hblank)
    · rename_i hblank
      refine iff_of_false ?_ ?_
      · split <;> nofun
      · rintro ⟨⟩
        contradiction
  | _ => exact ⟨nofun, nofun⟩

theorem readVoltage_eq_value_iff {level : Voltage} :
    readVoltage v = .value level ↔ v.IsLevel level := by
  cases v with
  | str s =>
    have hnamed : (Json.str s).IsLevel level ↔ level.name = Text.trim s := by
      constructor
      · rintro ⟨h⟩
        exact h
      · exact .named
    rw [readVoltage, hnamed]
    split
    · rename_i hblank
      refine iff_of_false nofun ?_
      rw [hblank]
      exact level.name_ne_blank
    · have hname : ofName? (Text.trim s) = some level ↔ level.name = Text.trim s :=
        Named.ofName?_eq_some_iff
      rw [← hname]
      cases (ofName? (Text.trim s) : Option Voltage) with
      | none => exact ⟨nofun, nofun⟩
      | some level' => simp
  | _ => exact ⟨nofun, nofun⟩

theorem readStaggered_eq_value_iff {b : Bool} : readStaggered v = .value b ↔ v.IsFlag b := by
  cases v with
  | bool b' =>
    constructor
    · intro h
      cases h
      exact .bool b
    · rintro ⟨⟩
      rfl
  | str s =>
    have htext : (Json.str s).IsFlag b ↔ Text.trim s = if b then "true" else "false" := by
      constructor
      · rintro ⟨⟩
        assumption
      · exact .text
    rw [readStaggered, htext]
    cases b with
    | true => split_ifs <;> simp_all
    | false => split_ifs <;> simp_all
  | _ => exact ⟨nofun, nofun⟩

/-! A vacant field is read as null, so it does not matter whether blanks are dropped before. -/

theorem Fields.keep_cases (v : Json) : keep v = v ∨ v.Vacant ∧ keep v = .null := by
  cases v with
  | str s =>
    rw [keep]
    split
    · rename_i hblank
      exact .inr ⟨.blank hblank, rfl⟩
    · exact .inl rfl
  | _ => exact .inl rfl

theorem readAmount_of_vacant (h : v.Vacant) : readAmount v = .absent := by
  cases h with
  | null => rfl
  | blank hblank => rw [readAmount, if_pos hblank]

theorem readVoltage_of_vacant (h : v.Vacant) : readVoltage v = .absent :=
  readVoltage_eq_absent_iff.2 h

theorem readStaggered_of_vacant (h : v.Vacant) : readStaggered v = .absent := by
  cases h with
  | null => rfl
  | blank hblank => rw [readStaggered, if_pos hblank]

theorem readAmount_keep : readAmount (Fields.keep v) = readAmount v := by
  obtain h | ⟨hvacant, h⟩ := Fields.keep_cases v
  · rw [h]
  · rw [h, readAmount_of_vacant hvacant]
    rfl

theorem readVoltage_keep : readVoltage (Fields.keep v) = readVoltage v := by
  obtain h | ⟨hvacant, h⟩ := Fields.keep_cases v
  · rw [h]
  · rw [h, readVoltage_of_vacant hvacant]
    rfl

theorem readStaggered_keep : readStaggered (Fields.keep v) = readStaggered v := by
  obtain h | ⟨hvacant, h⟩ := Fields.keep_cases v
  · rw [h]
  · rw [h, readStaggered_of_vacant hvacant]
    rfl

end Readers

/-! ## Checks of single fields -/

section Checks

variable {v : Json}

theorem requiredAmount_eq_ok_iff {least n : Int} :
    requiredAmount least v = .ok n ↔ v.IsAmount n ∧ least ≤ n := by
  rw [← readAmount_eq_value_iff, requiredAmount]
  cases readAmount v with
  | value m =>
    dsimp only
    split
    · rename_i hle
      constructor
      · intro h
        cases h
        exact ⟨rfl, hle⟩
      · rintro ⟨⟨⟩, -⟩
        rfl
    · rename_i hle
      refine ⟨nofun, ?_⟩
      rintro ⟨⟨⟩, h⟩
      exact absurd h hle
  | absent => exact ⟨nofun, fun h => nomatch h.1⟩
  | malformed => exact ⟨nofun, fun h => nomatch h.1⟩

theorem optionalVoltage_eq_ok_iff {level : Option Voltage} :
    optionalVoltage v = .ok level ↔ v.IsLevel? level := by
  have hlevel : v.IsLevel? level ↔
      (v.Vacant ∧ level = none) ∨ ∃ l, v.IsLevel l ∧ level = some l := by
    constructor
    · rintro (h | h)
      · exact .inl ⟨h, rfl⟩
      · exact .inr ⟨_, h, rfl⟩
    · rintro (⟨h, rfl⟩ | ⟨l, h, rfl⟩)
      · exact .absent h
      · exact .present h
  simp only [hlevel, ← readVoltage_eq_absent_iff, ← readVoltage_eq_value_iff, optionalVoltage]
  cases readVoltage v <;> simp [eq_comm]

theorem requiredVoltage_eq_ok_iff {level : Voltage} :
    requiredVoltage v = .ok level ↔ v.IsLevel level := by
  rw [← readVoltage_eq_value_iff, requiredVoltage]
  cases readVoltage v <;> simp

theorem requiredStaggered_eq_ok_iff {b : Bool} : requiredStaggered v = .ok b ↔ v.IsFlag b := by
  rw [← readStaggered_eq_value_iff, requiredStaggered]
  cases readStaggered v <;> simp

/-- A computation with one fault only has it exactly where it gives nothing. -/
theorem Raises.of_fault {α ε : Type} {x : Except ε α} {holds : α → Prop} {fault : ε}
    (hok : ∀ a, x = .ok a ↔ holds a) (hfault : ∀ e, x = .error e → e = fault) :
    Raises x [objection (¬ ∃ a, holds a) fault] := by
  refine .of_single fun e => ?_
  constructor
  · intro h
    refine ⟨?_, hfault e h⟩
    rintro ⟨a, ha⟩
    rw [(hok a).2 ha] at h
    cases h
  · rintro ⟨hnone, rfl⟩
    cases hx : x with
    | error e' => rw [hfault e' hx]
    | ok a => exact absurd ⟨a, (hok a).1 hx⟩ hnone

theorem requiredAmount_raises {least : Int} : Raises (requiredAmount least v)
    [objection (¬ ∃ n, v.IsAmount n ∧ least ≤ n) .badAmount] := by
  refine .of_fault (fun _ => requiredAmount_eq_ok_iff) fun e h => ?_
  rw [requiredAmount] at h
  split at h
  · split at h <;> cases h
    rfl
  · cases h
    rfl

theorem optionalVoltage_raises :
    Raises (optionalVoltage v) [objection (¬ ∃ level, v.IsLevel? level) .badVoltage] := by
  refine .of_fault (fun _ => optionalVoltage_eq_ok_iff) fun e h => ?_
  rw [optionalVoltage] at h
  split at h <;> cases h
  rfl

theorem requiredStaggered_raises :
    Raises (requiredStaggered v) [objection (¬ ∃ b, v.IsFlag b) .noStaggered] := by
  refine .of_fault (fun _ => requiredStaggered_eq_ok_iff) fun e h => ?_
  rw [requiredStaggered] at h
  split at h <;> cases h
  rfl

theorem requiredVoltage_raises : Raises (requiredVoltage v)
    [objection v.Vacant .noVoltage, objection (¬ ∃ level, v.IsLevel level) .badVoltage] := by
  intro e
  simp only [FirstOf.cons_iff, FirstOf.nil_iff, objection, ← readVoltage_eq_absent_iff,
    ← readVoltage_eq_value_iff, requiredVoltage]
  cases readVoltage v <;> simp [eq_comm]

end Checks

/-! ## Parameters -/

/-- The parameters that fields have for an equipment and an action. -/
inductive Fields.Carries (f : Fields) : Equipment → Action → Params → Prop
  | switched {equipment : Equipment} {action : Action} {amount : Int} {staggered : Bool}
    {voltage : Option Voltage} (hequipment : equipment = .capacitor ∨ equipment = .reactor)
    (hamount : f.amount.IsAmount amount ∧ 1 ≤ amount) (hvoltage : f.voltage.IsLevel? voltage)
    (hstaggered : f.staggered.IsFlag staggered) :
    Carries f equipment action (.switched amount staggered voltage)
  | transformer {action : Action} {amount : Int} {voltage : Voltage}
    {primary secondary : Option Voltage} (hvoltage : f.voltage.IsLevel voltage)
    (hamount : f.amount.IsAmount amount ∧ (if action = .adjustForTape then -100000 else 1) ≤ amount)
    (hprimary : f.voltagePrimary.IsLevel? primary)
    (hsecondary : f.voltageSecondary.IsLevel? secondary) :
    Carries f .transformer action (.transformer amount voltage primary secondary)
  | adjusted {amount : Int} (hamount : f.amount.IsAmount amount ∧ 1 ≤ amount) :
    Carries f .synchronous .adjust (.synchronous (some amount))
  | synchronous {action : Action} (haction : action ≠ .adjust) :
    Carries f .synchronous action (.synchronous none)

theorem Fields.Carries.fits {f : Fields} {equipment : Equipment} {action : Action} {p : Params}
    (h : f.Carries equipment action p) : p.Fits equipment := by
  cases h with
  | switched hequipment => exact hequipment
  | transformer => rfl
  | adjusted => rfl
  | synchronous => rfl

namespace Fields

variable {f f' : Fields} {equipment : Equipment} {action : Action}

/-- What can be wrong with the fields, in the order in which they are looked at. -/
def objections (f : Fields) : Equipment → Action → List (ValidationFault → Prop)
  | .capacitor, _ | .reactor, _ =>
    [objection (¬ ∃ n, f.amount.IsAmount n ∧ 1 ≤ n) .badAmount,
      objection (¬ ∃ level, f.voltage.IsLevel? level) .badVoltage,
      objection (¬ ∃ b, f.staggered.IsFlag b) .noStaggered]
  | .transformer, action =>
    [objection f.voltage.Vacant .noVoltage,
      objection (¬ ∃ level, f.voltage.IsLevel level) .badVoltage,
      objection (¬ ∃ n, f.amount.IsAmount n ∧
        (if action = .adjustForTape then -100000 else 1) ≤ n) .badAmount,
      objection (¬ ∃ level, f.voltagePrimary.IsLevel? level) .badVoltage,
      objection (¬ ∃ level, f.voltageSecondary.IsLevel? level) .badVoltage]
  | .synchronous, action =>
    [objection (action = .adjust ∧ ¬ ∃ n, f.amount.IsAmount n ∧ 1 ≤ n) .badAmount]

/-- The fields that matter for the equipment and the action are the same. -/
def Agree (f f' : Fields) : Equipment → Action → Prop
  | .capacitor, _ | .reactor, _ =>
    f.amount = f'.amount ∧ f.voltage = f'.voltage ∧ f.staggered = f'.staggered
  | .transformer, _ => f.amount = f'.amount ∧ f.voltage = f'.voltage ∧
    f.voltagePrimary = f'.voltagePrimary ∧ f.voltageSecondary = f'.voltageSecondary
  | .synchronous, action => action = .adjust → f.amount = f'.amount

theorem params_normalize :
    (f.normalize equipment action).params equipment action = f.params equipment action := by
  cases equipment with
  | capacitor | reactor =>
    simp only [normalize, params, requiredAmount, optionalVoltage, requiredStaggered,
      readAmount_keep, readVoltage_keep, readStaggered_keep]
  | transformer =>
    simp only [normalize, params, requiredAmount, optionalVoltage, requiredVoltage,
      readAmount_keep, readVoltage_keep]
  | synchronous =>
    simp only [normalize, params, requiredAmount]
    split
    · rw [readAmount_keep]
    · rfl

theorem params_congr (h : f.Agree f' equipment action) :
    f.params equipment action = f'.params equipment action := by
  cases equipment with
  | capacitor | reactor =>
    obtain ⟨hamount, hvoltage, hstaggered⟩ := h
    simp only [params, hamount, hvoltage, hstaggered]
  | transformer =>
    obtain ⟨hamount, hvoltage, hprimary, hsecondary⟩ := h
    simp only [params, hamount, hvoltage, hprimary, hsecondary]
  | synchronous =>
    rw [params, params]
    split
    · rename_i haction
      rw [h haction]
    · rfl

theorem params_eq_ok_iff {p : Params} :
    f.params equipment action = .ok p ↔ f.Carries equipment action p := by
  cases equipment with
  | capacitor | reactor =>
    rw [params]
    simp only [bind_eq_ok_iff, requiredAmount_eq_ok_iff, optionalVoltage_eq_ok_iff,
      requiredStaggered_eq_ok_iff]
    constructor
    · rintro ⟨amount, hamount, voltage, hvoltage, staggered, hstaggered, hp⟩
      cases hp
      exact .switched (by simp) hamount hvoltage hstaggered
    · rintro ⟨-, hamount, hvoltage, hstaggered⟩
      exact ⟨_, hamount, _, hvoltage, _, hstaggered, rfl⟩
  | transformer =>
    rw [params]
    simp only [bind_eq_ok_iff, requiredAmount_eq_ok_iff, optionalVoltage_eq_ok_iff,
      requiredVoltage_eq_ok_iff]
    constructor
    · rintro ⟨voltage, hvoltage, amount, hamount, primary, hprimary, secondary, hsecondary, hp⟩
      cases hp
      exact .transformer hvoltage hamount hprimary hsecondary
    · intro h
      cases h with
      | switched hequipment => simp at hequipment
      | transformer hvoltage hamount hprimary hsecondary =>
        exact ⟨_, hvoltage, _, hamount, _, hprimary, _, hsecondary, rfl⟩
  | synchronous =>
    rw [params]
    split
    · rename_i haction
      subst haction
      simp only [bind_eq_ok_iff, requiredAmount_eq_ok_iff]
      constructor
      · rintro ⟨amount, hamount, hp⟩
        cases hp
        exact .adjusted hamount
      · intro h
        cases h with
        | switched hequipment => simp at hequipment
        | adjusted hamount => exact ⟨_, hamount, rfl⟩
        | synchronous haction => exact absurd rfl haction
    · rename_i haction
      constructor
      · intro hp
        cases hp
        exact .synchronous haction
      · intro h
        cases h with
        | switched hequipment => simp at hequipment
        | adjusted hamount => exact absurd rfl haction
        | synchronous => rfl

theorem params_raises : Raises (f.params equipment action) (f.objections equipment action) := by
  cases equipment with
  | capacitor | reactor =>
    exact requiredAmount_raises.bind fun _ _ => optionalVoltage_raises.bind fun _ _ =>
      requiredStaggered_raises.bind fun _ _ => .ok _
  | transformer =>
    exact requiredVoltage_raises.bind fun _ _ => requiredAmount_raises.bind fun _ _ =>
      optionalVoltage_raises.bind fun _ _ => optionalVoltage_raises.bind fun _ _ => .ok _
  | synchronous =>
    rw [params, objections]
    split
    · rename_i haction
      simp only [haction, true_and]
      exact requiredAmount_raises.bind fun _ _ => .ok _
    · rename_i haction
      exact .of_single fun e => ⟨nofun, fun h => absurd h.1.1 haction⟩

end Fields

end GridDispatch
