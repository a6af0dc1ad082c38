import GridDispatch.Proofs.Validation.Fields

/-!
# What is asked in a request

Which solicitation a request asks for (`RawSolicitation.Asks`), and what can be wrong with it, in the
order in which it is looked at (`RawSolicitation.objections`). Main statement: `validate_exact`.
The three lemmas `validate_of_unknown`, `validate_of_badAction` and `validate_of_offered` are all that
the results on validation know about it.
-/

namespace GridDispatch

namespace RawSolicitation

/-- Blanks around names and codes apart, the names of the request are those of an equipment and of
an action that it offers, the codes are the same, and the fields carry the parameters. -/
structure Asks (raw : RawSolicitation) (new : NewSolicitation) : Prop where
  equipment : new.equipment.name = Text.trim raw.equipment
  action : new.action.name = Text.trim raw.action
  offered : new.action ∈ new.equipment.actions
  substationCode : new.substationCode = Text.trim raw.substation
  companyCode : new.companyCode = Text.trim raw.companyCode
  params : raw.fields.Carries new.equipment new.action new.params

/-- What can be wrong with a request: its equipment, its action, its fields. -/
def objections (raw : RawSolicitation) : List (ValidationError → Prop) :=
  [objection (∀ equipment : Equipment, equipment.name ≠ Text.trim raw.equipment)
      ⟨.unknownEquipment, raw.equipment⟩,
    fun e => ∃ equipment : Equipment, equipment.name = Text.trim raw.equipment ∧
      objection (∀ action ∈ equipment.actions, action.name ≠ Text.trim raw.action)
        ⟨.badAction, equipment.name⟩ e,
    fun e => ∃ (equipment : Equipment) (action : Action),
      equipment.name = Text.trim raw.equipment ∧ action.name = Text.trim raw.action ∧
        FirstOf (raw.fields.objections equipment action) e.fault ∧ e.equipment = equipment.name]

end RawSolicitation

section Validate

variable {raw : RawSolicitation} {equipment : Equipment} {action : Action}

theorem validate_of_unknown
    (h : ∀ equipment : Equipment, equipment.name ≠ Text.trim raw.equipment) :
    validate raw = .error ⟨.unknownEquipment, raw.equipment⟩ := by
  have hnone : (ofName? (Text.trim raw.equipment) : Option Equipment) = none :=
    Named.ofName?_eq_none_iff.2 h
  rw [validate, hnone]

theorem validate_of_badAction (hequipment : equipment.name = Text.trim raw.equipment)
    (h : ∀ action ∈ equipment.actions, action.name ≠ Text.trim raw.action) :
    validate raw = .error ⟨.badAction, equipment.name⟩ := by
  have hsome : (ofName? (Text.trim raw.equipment) : Option Equipment) = some equipment :=
    Named.ofName?_eq_some_iff.2 hequipment
  have hnone : (ofName? (Text.trim raw.action)).filter equipment.actions.contains = none := by
    rw [Option.filter_eq_none_iff]
    intro action haction hoffered
    exact h action (List.contains_iff_mem.1 hoffered) (Named.ofName?_eq_some_iff.1 haction)
  rw [validate, hsome]
  dsimp only
  rw [hnone]

/-- With a known equipment and an action that it offers, everything depends on the fields. -/
theorem validate_of_offered (hequipment : equipment.name = Text.trim raw.equipment)
    (haction : action.name = Text.trim raw.action) (hoffered : action ∈ equipment.actions) :
    validate raw = ((raw.fields.params equipment action).mapError (⟨·, equipment.name⟩)).map
      fun params =>
        ⟨equipment, action, Text.trim raw.substation, Text.trim raw.companyCode, params⟩ := by
  have hsome : (ofName? (Text.trim raw.equipment) : Option Equipment) = some equipment :=
    Named.ofName?_eq_some_iff.2 hequipment
  have hfilter : (ofName? (Text.trim raw.action)).filter equipment.actions.contains = some action :=
    Option.filter_eq_some_iff.2
      ⟨Named.ofName?_eq_some_iff.2 haction, List.contains_iff_mem.2 hoffered⟩
  rw [validate, hsome]
  dsimp only
  rw [hfilter]
  dsimp only
  rw [Fields.params_normalize]
  cases raw.fields.params equipment action <;> rfl

/-- The three ways in which the names of a request can be. -/
theorem RawSolicitation.names_cases (raw : RawSolicitation) :
    (∀ equipment : Equipment, equipment.name ≠ Text.trim raw.equipment) ∨
      ∃ equipment : Equipment, equipment.name = Text.trim raw.equipment ∧
        ((∀ action ∈ equipment.actions, action.name ≠ Text.trim raw.action) ∨
          ∃ action ∈ equipment.actions, action.name = Text.trim raw.action) := by
  by_cases hequipment : ∃ equipment : Equipment, equipment.name = Text.trim raw.equipment
  · obtain ⟨equipment, hequipment⟩ := hequipment
    refine .inr ⟨equipment, hequipment, ?_⟩
    by_cases haction : ∃ action ∈ equipment.actions, action.name = Text.trim raw.action
    · exact .inr haction
    · exact .inl fun action hoffered hname => haction ⟨action, hoffered, hname⟩
  · exact .inl (not_exists.1 hequipment)

theorem Equipment.eq_of_name {e e' : Equipment} {s : String} (h : e.name = s) (h' : e'.name = s) :
    e = e' :=
  Named.name_inj (h.trans h'.symm)

theorem Action.eq_of_name {a a' : Action} {s : String} (h : a.name = s) (h' : a'.name = s) :
    a = a' :=
  Named.name_inj (h.trans h'.symm)

theorem validate_eq_ok_iff {new : NewSolicitation} : validate raw = .ok new ↔ raw.Asks new := by
  constructor
  · intro h
    rcases raw.names_cases with
      hunknown | ⟨equipment, hequipment, hbad | ⟨action, hoffered, haction⟩⟩
    · rw [validate_of_unknown hunknown] at h
      cases h
    · rw [validate_of_badAction hequipment hbad] at h
      cases h
    · rw [validate_of_offered hequipment haction hoffered] at h
      obtain ⟨params, hparams, rfl⟩ := map_eq_ok_iff.1 h
      rw [mapError_eq_ok_iff, Fields.params_eq_ok_iff] at hparams
      exact ⟨hequipment, haction, hoffered, rfl, rfl, hparams⟩
  · rintro ⟨hequipment, haction, hoffered, hsubstation, hcompany, hparams⟩
    rw [validate_of_offered hequipment haction hoffered, Fields.params_eq_ok_iff.2 hparams,
      ← hsubstation, ← hcompany]
    rfl

/-- The parameters of what was accepted go with its equipment. -/
theorem fits_of_validate {new : NewSolicitation} (h : validate raw = .ok new) :
    new.params.Fits new.equipment :=
  (validate_eq_ok_iff.1 h).params.fits

theorem validate_raises : Raises (validate raw) raw.objections := by
  intro e
  rw [RawSolicitation.objections]
  rcases raw.names_cases with hunknown | ⟨equipment, hequipment, hactions⟩
  · rw [validate_of_unknown hunknown, FirstOf.cons_of_exists ⟨_, hunknown, rfl⟩]
    exact ⟨fun h => ⟨hunknown, (Except.error.inj h).symm⟩, fun h => congrArg _ h.2.symm⟩
  · rw [FirstOf.cons_of_forall fun _ h => h.1 equipment hequipment]
    rcases hactions with hbad | ⟨action, hoffered, haction⟩
    · rw [validate_of_badAction hequipment hbad,
        FirstOf.cons_of_exists ⟨_, equipment, hequipment, hbad, rfl⟩]
      constructor
      · intro h
        exact ⟨equipment, hequipment, hbad, (Except.error.inj h).symm⟩
      · rintro ⟨equipment', hequipment', -, rfl⟩
        rw [equipment.eq_of_name hequipment hequipment']
    · have hnone (e' : ValidationError) : ¬ ∃ equipment : Equipment,
          equipment.name = Text.trim raw.equipment ∧
            objection (∀ action ∈ equipment.actions, action.name ≠ Text.trim raw.action)
              ⟨.badAction, equipment.name⟩ e' := by
        rintro ⟨equipment', hequipment', hbad, -⟩
        exact hbad action (equipment.eq_of_name hequipment hequipment' ▸ hoffered) haction
      rw [validate_of_offered hequipment haction hoffered, FirstOf.cons_of_forall hnone,
        FirstOf.single_iff, map_eq_error_iff, mapError_eq_error_iff]
      constructor
      · rintro ⟨fault, hfault, rfl⟩
        exact ⟨equipment, action, hequipment, haction, (Fields.params_raises fault).1 hfault, rfl⟩
      · rintro ⟨equipment', action', hequipment', haction', hfault, hname⟩
        cases equipment.eq_of_name hequipment hequipment'
        cases action.eq_of_name haction haction'
        exact ⟨e.fault, (Fields.params_raises e.fault).2 hfault, by rw [← hname]⟩

/-- Fields that do not matter for the equipment and the action of a request may hold anything. -/
theorem validate_congr {fields : Fields}
    (h : ∀ (equipment : Equipment) (action : Action), equipment.name = Text.trim raw.equipment →
      action.name = Text.trim raw.action → action ∈ equipment.actions →
        raw.fields.Agree fields equipment action) :
    validate { raw with fields } = validate raw := by
  rcases raw.names_cases with hunknown | ⟨equipment, hequipment, hbad | ⟨action, hoffered, haction⟩⟩
  · rw [validate_of_unknown hunknown]
    exact validate_of_unknown hunknown
  · rw [validate_of_badAction hequipment hbad]
    exact validate_of_badAction hequipment hbad
  · rw [validate_of_offered hequipment haction hoffered,
      Fields.params_congr (h equipment action hequipment haction hoffered)]
    exact validate_of_offered hequipment haction hoffered

/-- A request is accepted exactly as the solicitation that it asks for, and otherwise refused with the
first objection to it. Fields that do not matter for its equipment and its action may hold anything. -/
theorem validate_exact (raw : RawSolicitation) :
    (∀ new, validate raw = .ok new ↔ raw.Asks new) ∧
    (∀ e, validate raw = .error e ↔ FirstOf raw.objections e) ∧
    ∀ fields : Fields,
      (∀ (equipment : Equipment) (action : Action), equipment.name = Text.trim raw.equipment →
        action.name = Text.trim raw.action → action ∈ equipment.actions →
          raw.fields.Agree fields equipment action) →
        validate { raw with fields } = validate raw :=
  ⟨fun _ => validate_eq_ok_iff, validate_raises, fun _ => validate_congr⟩

/-- A request in padded texts with a list in a field that does not matter, and what is wrong with it
once the amount is taken away: nothing is said about the voltage, which is wrong as well. -/
theorem validate_exact_of_padded :
    let fields : Fields := ⟨.str " +07", .str "\t", .str "true ", .arr [], .null⟩
    let raw : RawSolicitation := ⟨" CAPACITOR", "TURN_ON ", "JAG", " CTEEP ", fields⟩
    raw.Asks ⟨.capacitor, .turnOn, "JAG", "CTEEP", .switched 7 true none⟩ ∧
      FirstOf { raw with fields := ⟨.null, .int 0, .null, .null, .null⟩ }.objections
        ⟨.badAmount, "CAPACITOR"⟩ := by
  intro fields raw
  exact ⟨((validate_exact raw).1 _).1 (by decide +kernel),
    ((validate_exact _).2.1 _).1 (by decide +kernel)⟩

end Validate

end GridDispatch
