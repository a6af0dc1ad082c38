import GridDispatch.Proofs.Validation

/-!
# Requests rebuilt from solicitations

An accepted request can be sent again as it was understood: with its names and codes trimmed and its
parameters written out (`RawSolicitation.Rebuilds`). It is accepted as the same solicitation, and
dropping the fields that do not matter changes nothing either. Main statement: `validate_rebuilt`.
Every kind of field has one lemma that what is written of a value stands for it.
-/

namespace GridDispatch

namespace Json

/-- The ways to write an amount. -/
inductive WritesAmount (n : Int) : Json → Prop
  | number : WritesAmount n (.int n)
  | numeral : WritesAmount n (.str (Text.write n))

inductive WritesLevel? : Option Voltage → Json → Prop
  | absent : WritesLevel? none .null
  | present {level : Voltage} : WritesLevel? (some level) (.str level.name)

inductive WritesFlag (b : Bool) : Json → Prop
  | bool : WritesFlag b (.bool b)
  | text : WritesFlag b (.str (if b then "true" else "false"))

variable {v v' : Json}

theorem IsAmount.has {n : Int} (h : v.IsAmount n) : Text.Range.signed.has n = true := by
  cases h with
  | number h => exact h
  | numeral h => exact h.2

theorem IsAmount.of_writes {n : Int} (h : v.IsAmount n) (hwrites : WritesAmount n v') :
    v'.IsAmount n := by
  cases hwrites with
  | number => exact .number h.has
  | numeral => exact .numeral (Text.Range.stands_write h.has)

/-- A name that is read from a trimmed text has nothing to trim. -/
theorem IsLevel.trim_name {level : Voltage} (h : v.IsLevel level) :
    Text.trim level.name = level.name := by
  obtain ⟨hname⟩ := h
  rw [hname, Text.trim_trim]

theorem IsLevel?.of_writes {level : Option Voltage} (h : v.IsLevel? level)
    (hwrites : WritesLevel? level v') : v'.IsLevel? level := by
  cases hwrites with
  | absent => exact .absent .null
  | present =>
    cases h with
    | present h => exact .present (.named h.trim_name.symm)

theorem IsFlag.of_writes {b : Bool} (hwrites : WritesFlag b v') : v'.IsFlag b := by
  cases hwrites with
  | bool => exact .bool b
  | text =>
    refine .text ?_
    cases b <;> decide

end Json

/-- The fields are written from the parameters; a field without use for them may hold anything. -/
inductive Fields.Writes (f : Fields) : Params → Prop
  | switched {amount : Int} {staggered : Bool} {voltage : Option Voltage}
    (hamount : Json.WritesAmount amount f.amount) (hvoltage : Json.WritesLevel? voltage f.voltage)
    (hstaggered : Json.WritesFlag staggered f.staggered) :
    Writes f (.switched amount staggered voltage)
  | transformer {amount : Int} {voltage : Voltage} {primary secondary : Option Voltage}
    (hamount : Json.WritesAmount amount f.amount)
    (hvoltage : Json.WritesLevel? (some voltage) f.voltage)
    (hprimary : Json.WritesLevel? primary f.voltagePrimary)
    (hsecondary : Json.WritesLevel? secondary f.voltageSecondary) :
    Writes f (.transformer amount voltage primary secondary)
  | adjusted {amount : Int} (hamount : Json.WritesAmount amount f.amount) :
    Writes f (.synchronous (some amount))
  | synchronous : Writes f (.synchronous none)

theorem Fields.Carries.of_writes {f f' : Fields} {equipment : Equipment} {action : Action}
    {p : Params} (h : f.Carries equipment action p) (hwrites : f'.Writes p) :
    f'.Carries equipment action p := by
  cases h with
  | switched hequipment hamount hvoltage hstaggered =>
    obtain ⟨hamount', hvoltage', hstaggered'⟩ := hwrites
    exact .switched hequipment ⟨hamount.1.of_writes hamount', hamount.2⟩
      (hvoltage.of_writes hvoltage') (.of_writes hstaggered')
  | transformer hvoltage hamount hprimary hsecondary =>
    cases hwrites with
    | transformer hamount' hvoltage' hprimary' hsecondary' =>
      have hlevel := (Json.IsLevel?.present hvoltage).of_writes hvoltage'
      cases hlevel with
      | present hlevel =>
        exact .transformer hlevel ⟨hamount.1.of_writes hamount', hamount.2⟩
          (hprimary.of_writes hprimary') (hsecondary.of_writes hsecondary')
  | adjusted hamount =>
    cases hwrites with
    | adjusted hamount' => exact .adjusted ⟨hamount.1.of_writes hamount', hamount.2⟩
  | synchronous haction => exact .synchronous haction

/-- The request is rebuilt from the solicitation. -/
structure RawSolicitation.Rebuilds (raw : RawSolicitation) (new : NewSolicitation) : Prop where
  equipment : raw.equipment = new.equipment.name
  action : raw.action = new.action.name
  substation : raw.substation = new.substationCode
  companyCode : raw.companyCode = new.companyCode
  fields : raw.fields.Writes new.params

theorem RawSolicitation.Asks.of_rebuilds {raw raw' : RawSolicitation} {new : NewSolicitation}
    (h : raw.Asks new) (hrebuilds : raw'.Rebuilds new) : raw'.Asks new := by
  have htrimmed {s t : String} (hs : s = Text.trim t) : s = Text.trim s := by
    rw [hs, Text.trim_trim]
  refine ⟨?_, ?_, h.offered, ?_, ?_, h.params.of_writes hrebuilds.fields⟩
  · rw [hrebuilds.equipment]
    exact htrimmed h.equipment
  · rw [hrebuilds.action]
    exact htrimmed h.action
  · rw [hrebuilds.substation]
    exact htrimmed h.substationCode
  · rw [hrebuilds.companyCode]
    exact htrimmed h.companyCode

/-- Fields that are normalized for the names of a request do not change what is said about it. -/
theorem validate_normalize {raw : RawSolicitation} {equipment : Equipment} {action : Action}
    (hequipment : equipment.name = Text.trim raw.equipment)
    (haction : action.name = Text.trim raw.action) :
    validate { raw with fields := raw.fields.normalize equipment action } = validate raw := by
  by_cases hoffered : action ∈ equipment.actions
  · rw [validate_of_offered hequipment haction hoffered, ← Fields.params_normalize]
    exact validate_of_offered hequipment haction hoffered
  · have hbad : ∀ action ∈ equipment.actions, action.name ≠ Text.trim raw.action := by
      intro action' hoffered' haction'
      exact hoffered (action.eq_of_name haction haction' ▸ hoffered')
    rw [validate_of_badAction hequipment hbad]
    exact validate_of_badAction hequipment hbad

/-- A request that is rebuilt from the solicitation that another one was accepted as is accepted as the
same one; and normalized fields, be the request accepted or not, change nothing. -/
theorem validate_rebuilt :
    (∀ raw new, validate raw = .ok new → ∀ raw' : RawSolicitation, raw'.Rebuilds new →
      validate raw' = .ok new) ∧
    ∀ (raw : RawSolicitation) (equipment : Equipment) (action : Action),
      equipment.name = Text.trim raw.equipment → action.name = Text.trim raw.action →
        validate { raw with fields := raw.fields.normalize equipment action } = validate raw := by
  refine ⟨fun raw new hvalid raw' hrebuilds => ?_, fun raw equipment action => validate_normalize⟩
  exact validate_eq_ok_iff.2 ((validate_eq_ok_iff.1 hvalid).of_rebuilds hrebuilds)

/-- The least amount for the tape of a transformer, rebuilt as a text. -/
theorem validate_rebuilt_of_least :
    let raw : RawSolicitation := ⟨"TRANSFORMER ", " ADJUST_FOR_TAPE", "JAG\n", "CTEEP",
      ⟨.str "-0100000", .str " 440kV", .arr [], .str "", .null⟩⟩
    let new : NewSolicitation :=
      ⟨.transformer, .adjustForTape, "JAG", "CTEEP", .transformer (-100000) .kv440 none none⟩
    let raw' : RawSolicitation := ⟨"TRANSFORMER", "ADJUST_FOR_TAPE", "JAG", "CTEEP",
      ⟨.str (Text.write (-100000)), .str "440kV", .bool true, .null, .null⟩⟩
    (validate raw = .ok new ∧ raw'.Rebuilds new) ∧ validate raw' = .ok new := by
  intro raw new raw'
  have hvalid : validate raw = .ok new := by decide +kernel
  have hrebuilds : raw'.Rebuilds new :=
    ⟨rfl, rfl, rfl, rfl, .transformer .numeral .present .absent .absent⟩
  exact ⟨⟨hvalid, hrebuilds⟩, validate_rebuilt.1 raw new hvalid raw' hrebuilds⟩

end GridDispatch
