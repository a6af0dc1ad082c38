import GridDispatch.Proofs.Wire.Records

/-!
# The wire format

Main statement: `wire_roundTrips`. For each type that goes over the wire, what is written of a value
is read back as it was, and whatever is read is read again as it is once it was written. A raw
request has second names for some of its fields: it does not matter which one is used, and it is an
error to use both.
-/

namespace GridDispatch

/-! ## Second names -/

/-- The members with the one name in the place of the other. -/
def renamed {β : Type} (old new : String) (members : List (String × β)) : List (String × β) :=
  members.map fun m => if m.1 = old then (new, m.2) else m

section Renamed

variable {β : Type} {old new name : String} {members : List (String × β)}

theorem lookup_renamed_of_ne (hold : name ≠ old) (hnew : name ≠ new) :
    (renamed old new members).lookup name = members.lookup name := by
  induction members with
  | nil => rfl
  | cons m members ih =>
    obtain ⟨name', v⟩ := m
    change List.lookup name ((if name' = old then (new, v) else (name', v)) ::
      renamed old new members) = _
    by_cases h : name' = old
    · subst h
      rw [if_pos rfl, lookup_cons_eq_ite, lookup_cons_eq_ite, if_neg hnew, if_neg hold, ih]
    · rw [if_neg h, lookup_cons_eq_ite, lookup_cons_eq_ite, ih]

theorem lookup_renamed_old (hne : old ≠ new) : (renamed old new members).lookup old = none := by
  refine lookup_eq_none fun hmem => ?_
  obtain ⟨m, hm, hname⟩ := List.mem_map.1 hmem
  obtain ⟨m', -, rfl⟩ := List.mem_map.1 hm
  split at hname
  · exact hne hname.symm
  · rename_i hother
    exact hother hname

/-- What was under the old name is under the new one, if nothing else was. -/
theorem lookup_renamed_new (hnone : members.lookup new = none) :
    (renamed old new members).lookup new = members.lookup old := by
  induction members with
  | nil => rfl
  | cons m members ih =>
    obtain ⟨name', v⟩ := m
    change List.lookup new ((if name' = old then (new, v) else (name', v)) ::
      renamed old new members) = _
    rw [lookup_cons_eq_ite] at hnone
    by_cases hnew : new = name'
    · rw [if_pos hnew] at hnone
      cases hnone
    · rw [if_neg hnew] at hnone
      by_cases h : name' = old
      · rw [if_pos h, lookup_cons_eq_ite, lookup_cons_eq_ite, if_pos rfl, if_pos h.symm]
      · rw [if_neg h, lookup_cons_eq_ite, lookup_cons_eq_ite, if_neg hnew, if_neg (Ne.symm h),
          ih hnone]

end Renamed

namespace Slot

variable {slot : Slot} {old new : String} {members : List (String × Json)}

/-- A field that may be under either name is found under either. -/
theorem pick?_renamed (hother : slot.other = some old) (hne : old ≠ slot.name)
    (hnone : members.lookup slot.name = none) :
    slot.pick? (renamed old slot.name members) = slot.pick? members := by
  have hnew : (renamed old slot.name members).lookup slot.name = members.lookup old :=
    lookup_renamed_new hnone
  have hold : (renamed old slot.name members).lookup old = none := lookup_renamed_old hne
  simp only [pick?, hother, Option.bind_some, hnew, hold, hnone]
  cases members.lookup old with
  | none => rfl
  | some v => rfl

theorem pick?_renamed_of_ne (hname : slot.name ≠ old ∧ slot.name ≠ new)
    (hother : ∀ other ∈ slot.other, other ≠ old ∧ other ≠ new) :
    slot.pick? (renamed old new members) = slot.pick? members := by
  have hothers : (slot.other.bind fun other => (renamed old new members).lookup other) =
      slot.other.bind fun other => members.lookup other := by
    refine Option.bind_congr fun other hmem => ?_
    exact lookup_renamed_of_ne (hother other hmem).1 (hother other hmem).2
  simp only [pick?, lookup_renamed_of_ne hname.1 hname.2, hothers]

theorem pick?_eq_none (hother : slot.other = some old) (hold : members.lookup old ≠ none)
    (hname : members.lookup slot.name ≠ none) : slot.pick? members = none := by
  obtain ⟨v, hv⟩ := Option.ne_none_iff_exists'.1 hold
  obtain ⟨w, hw⟩ := Option.ne_none_iff_exists'.1 hname
  simp only [pick?, hother, Option.bind_some, hv, hw]

end Slot

theorem pickAll_congr {members members' : List (String × Json)} {slots : List Slot}
    (h : ∀ slot ∈ slots, slot.pick? members' = slot.pick? members) :
    pickAll members' slots = pickAll members slots := by
  induction slots with
  | nil => rfl
  | cons slot slots ih =>
    obtain ⟨hslot, hslots⟩ := List.forall_mem_cons.1 h
    rw [pickAll, pickAll, hslot, ih hslots]

theorem pickAll_eq_none {members : List (String × Json)} {slots : List Slot} {slot : Slot}
    (hslot : slot ∈ slots) (h : slot.pick? members = none) : pickAll members slots = none := by
  induction slots with
  | nil => cases hslot
  | cons first slots ih =>
    rw [pickAll]
    rcases List.mem_cons.1 hslot with rfl | hrest
    · rw [h]
      rfl
    · rw [ih hrest]
      cases first.pick? members <;> rfl

/-! ## Raw requests -/

namespace RawSolicitation

/-- The fields of a raw request. -/
def slots : List Slot :=
  [.open? "equipment", .open? "action", ⟨"substation", some "substation_code", true⟩,
    .open? "company_code", .open? "amount", .open? "voltage", .open? "staggered",
    ⟨"voltage_primary", some "at", true⟩, ⟨"voltage_secondary", some "bt", true⟩]

/-- The second names, each with the first one. -/
def secondNames : List (String × String) :=
  [("substation_code", "substation"), ("at", "voltage_primary"), ("bt", "voltage_secondary")]

theorem exists_read : ∃ read : Record → Option RawSolicitation,
    ∀ members, decode? (.obj members) = (pickAll members slots).bind read :=
  ⟨_, fun _ => rfl⟩

/-- Each second name is that of one field, and of no other. -/
theorem secondNames_slots : ∀ p ∈ secondNames, p.1 ≠ p.2 ∧
    (∃ slot ∈ slots, slot.name = p.2 ∧ slot.other = some p.1) ∧
    ∀ slot ∈ slots, slot.name = p.2 ∧ slot.other = some p.1 ∨
      (slot.name ≠ p.1 ∧ slot.name ≠ p.2) ∧ ∀ other ∈ slot.other, other ≠ p.1 ∧ other ≠ p.2 := by
  decide

variable {old new : String} {members : List (String × Json)}

theorem decode?_renamed (h : (old, new) ∈ secondNames) (hnone : members.lookup new = none) :
    (decode? (.obj (renamed old new members)) : Option RawSolicitation) =
      decode? (.obj members) := by
  obtain ⟨read, hread⟩ := exists_read
  obtain ⟨hne, -, hslots⟩ := secondNames_slots _ h
  rw [hread, hread, pickAll_congr fun slot hslot => ?_]
  rcases hslots slot hslot with ⟨rfl, hother⟩ | ⟨hname, hother⟩
  · exact Slot.pick?_renamed hother hne hnone
  · exact Slot.pick?_renamed_of_ne hname hother

theorem decode?_eq_none (h : (old, new) ∈ secondNames) (hold : members.lookup old ≠ none)
    (hnew : members.lookup new ≠ none) :
    (decode? (.obj members) : Option RawSolicitation) = none := by
  obtain ⟨read, hread⟩ := exists_read
  obtain ⟨-, ⟨slot, hslot, rfl, hother⟩, -⟩ := secondNames_slots _ h
  rw [hread, pickAll_eq_none hslot (Slot.pick?_eq_none hother hold hnew)]
  rfl

end RawSolicitation

/-! ## All types -/

/-- Every type that goes over the wire round-trips. In a raw request the second name of a field may
stand for the first one, if that is not there, and both together are an error. -/
theorem wire_roundTrips :
    (RoundTrips RawSolicitation ∧ RoundTrips Batch ∧ RoundTrips ListRequest ∧
      RoundTrips ListResponse ∧ RoundTrips SubmitReceipt ∧ RoundTrips ChangeReceipt ∧
      RoundTrips Params ∧ RoundTrips NewSolicitation ∧ RoundTrips Solicitation ∧
      RoundTrips Event ∧ RoundTrips Marker ∧ RoundTrips State ∧ RoundTrips View ∧
      RoundTrips Group ∧ RoundTrips Filter ∧ RoundTrips Page ∧ RoundTrips Update ∧
      RoundTrips Notification ∧ RoundTrips Settings ∧ RoundTrips Equipment ∧ RoundTrips Action ∧
      RoundTrips Voltage ∧ RoundTrips Company ∧ RoundTrips Status ∧ RoundTrips SortHint ∧
      RoundTrips SortView ∧ RoundTrips UpdateKind ∧ RoundTrips Conflict) ∧
    ∀ old new, (old, new) ∈ RawSolicitation.secondNames → ∀ members : List (String × Json),
      (members.lookup new = none →
        (decode? (.obj (renamed old new members)) : Option RawSolicitation) =
          decode? (.obj members)) ∧
      (members.lookup old ≠ none → members.lookup new ≠ none →
        (decode? (.obj members) : Option RawSolicitation) = none) := by
  constructor
  · and_intros
    all_goals infer_instance
  · intro old new h members
    exact ⟨RawSolicitation.decode?_renamed h, RawSolicitation.decode?_eq_none h⟩

/-- A request that gives a substation by its second name, with a member that nobody knows: it means
the same as with the first name, and it is read again as it is. -/
theorem wire_roundTrips_of_second :
    let members := [("substation_code", Json.str "MOS"), ("remark", .int 7)]
    let raw : RawSolicitation := ⟨"", "", "MOS", "", ⟨.null, .null, .null, .null, .null⟩⟩
    decode? (.obj members) = some raw ∧ decode? (encode raw) = some raw ∧
      decode? (.obj [("substation", Json.str "MOS"), ("remark", .int 7)]) = some raw ∧
      (decode? (.obj (("substation", .str "MOS") :: members)) : Option RawSolicitation) = none := by
  intro members raw
  obtain ⟨⟨⟨hencode, hagain⟩, -⟩, hnames⟩ := wire_roundTrips
  have hsecond : ("substation_code", "substation") ∈ RawSolicitation.secondNames :=
    List.mem_cons_self
  have hread : decode? (.obj members) = some raw := rfl
  obtain ⟨hrenamed, -⟩ := hnames _ _ hsecond members
  obtain ⟨-, htwice⟩ := hnames _ _ hsecond (("substation", .str "MOS") :: members)
  exact ⟨hread, (hagain _ raw hread).2, (hrenamed rfl).trans hread, htwice nofun nofun⟩

end GridDispatch
