import GridDispatch.Proofs.Checked
import GridDispatch.Wire.Basic

/-!
# Laws of wire shapes

A wire shape round-trips (`RoundTrips`) if what is written of a value in the bounds of 64 bits is
read back as it was, and if nothing else is ever read. Whole numbers, texts, finite kinds, options
and lists of what round-trips do so. A record does so (`RoundTrips.of_fields`) because all its
fields are found in what was written (`gather_obj`), and each of them round-trips.
-/

namespace GridDispatch

open Wire

variable {α : Type}

/-! ## Values in bounds -/

/-- Which values of a type there are in 64 bits: the whole numbers in them are in range. -/
class Bounded (α : Type) where
  InBounds : α → Prop

export Bounded (InBounds)

/-- All values of the type are in bounds. -/
class Unbounded (α : Type) [Bounded α] : Prop where
  inBounds : ∀ a : α, InBounds a

attribute [simp] Unbounded.inBounds

namespace Bounded

/-- There are no whole numbers in the values of the type. -/
abbrev all (α : Type) : Bounded α := ⟨fun _ => True⟩

instance : Bounded Json := .all Json
instance : Bounded String := .all String
instance : Bounded Bool := .all Bool
instance : Bounded Int := ⟨fun n => Text.Range.signed.has n = true⟩
instance : Bounded Nat := ⟨fun n => Text.Range.unsigned.has n = true⟩
instance [Bounded α] : Bounded (Option α) := ⟨fun o => ∀ a ∈ o, InBounds a⟩
instance [Bounded α] : Bounded (List α) := ⟨fun as => ∀ a ∈ as, InBounds a⟩

instance : Unbounded Json := ⟨fun _ => trivial⟩
instance : Unbounded String := ⟨fun _ => trivial⟩
instance : Unbounded Bool := ⟨fun _ => trivial⟩
instance [Bounded α] [Unbounded α] : Unbounded (Option α) := ⟨fun _ a _ => Unbounded.inBounds a⟩
instance [Bounded α] [Unbounded α] : Unbounded (List α) := ⟨fun _ a _ => Unbounded.inBounds a⟩

end Bounded

/-! ## Shapes that round-trip -/

/-- What is written of a value in bounds is read back as it was. What is read is in bounds, and so
it is read again as it is if it is written. -/
class RoundTrips (α : Type) [Wire α] [Bounded α] : Prop where
  decode?_encode : ∀ a : α, InBounds a → decode? (encode a) = some a
  decode?_again : ∀ (j : Json) (a : α), decode? j = some a →
    InBounds a ∧ decode? (encode a) = some a

namespace RoundTrips

theorem of_inBounds [Wire α] [Bounded α]
    (hencode : ∀ a : α, InBounds a → decode? (encode a) = some a)
    (hdecode : ∀ (j : Json) (a : α), decode? j = some a → InBounds a) : RoundTrips α where
  decode?_encode := hencode
  decode?_again j a h := ⟨hdecode j a h, hencode a (hdecode j a h)⟩

attribute [simp] decode?_encode

theorem inBounds [Wire α] [Bounded α] [RoundTrips α] {j : Json} {a : α} (h : decode? j = some a) :
    InBounds a :=
  (decode?_again j a h).1

/-- A value that is read as it is. -/
@[simp]
theorem decode?_json (j : Json) : decode? j = some j := rfl

instance : RoundTrips Json := of_inBounds (fun _ _ => rfl) fun _ _ _ => trivial

instance : RoundTrips String := of_inBounds (fun _ _ => rfl) fun _ _ _ => trivial

instance : RoundTrips Bool := of_inBounds (fun _ _ => rfl) fun _ _ _ => trivial

instance : RoundTrips Int := of_inBounds (fun _ h => if_pos h) fun j a h => by
  cases j with
  | int n =>
    obtain ⟨hn, h⟩ := Option.ite_none_right_eq_some.1 h
    cases h
    exact hn
  | _ => cases h

instance : RoundTrips Nat := of_inBounds (fun _ h => if_pos h) fun j a h => by
  cases j with
  | int n =>
    obtain ⟨hn, h⟩ := Option.ite_none_right_eq_some.1 h
    cases h
    have hrange : Text.Range.unsigned.lo ≤ n ∧ n ≤ Text.Range.unsigned.hi := of_decide_eq_true hn
    have hnonneg : 0 ≤ n := hrange.1
    change Text.Range.unsigned.has n.toNat = true
    rwa [Int.toNat_of_nonneg hnonneg]
  | _ => cases h

/-- The name of a value is read back. -/
theorem ofNamed [Named α] : @RoundTrips α (.ofNamed α) (.all α) :=
  @of_inBounds α (.ofNamed α) (.all α) (fun a _ => Named.ofName?_name a) fun _ _ _ => trivial

end RoundTrips

/-- No value of the type is written as null. -/
class NeverNull (α : Type) [Wire α] : Prop where
  encode_ne_null : ∀ a : α, encode a ≠ .null

instance : NeverNull String := ⟨fun _ => Json.noConfusion⟩
instance : NeverNull Int := ⟨fun _ => Json.noConfusion⟩
instance : NeverNull Nat := ⟨fun _ => Json.noConfusion⟩
instance [Wire α] : NeverNull (List α) := ⟨fun _ => Json.noConfusion⟩

theorem NeverNull.ofNamed [Named α] : @NeverNull α (.ofNamed α) :=
  @NeverNull.mk α (.ofNamed α) fun _ => Json.noConfusion

section Containers

variable [Wire α]

theorem decode?_option {j : Json} (h : j ≠ .null) :
    (decode? j : Option (Option α)) = (decode? j).map some := by
  cases j with
  | null => exact absurd rfl h
  | _ => rfl

instance [Bounded α] [RoundTrips α] [NeverNull α] : RoundTrips (Option α) := .of_inBounds
  (fun o ho => by
    cases o with
    | none => rfl
    | some a =>
      change decode? (encode a) = some (some a)
      rw [decode?_option (NeverNull.encode_ne_null a), RoundTrips.decode?_encode a (ho a rfl)]
      rfl)
  (fun j o h => by
    by_cases hj : j = .null
    · subst hj
      cases h
      exact nofun
    · rw [decode?_option hj] at h
      obtain ⟨a, ha, rfl⟩ := Option.map_eq_some_iff.1 h
      rintro _ ⟨⟩
      exact RoundTrips.inBounds ha)

instance [Bounded α] [RoundTrips α] : RoundTrips (List α) := .of_inBounds
  (fun as has => by
    change (as.map encode).mapM decode? = some as
    rw [mapM_eq_some_iff, List.forall₂_map_left_iff, List.forall₂_same]
    exact fun a ha => RoundTrips.decode?_encode a (has a ha))
  (fun j as h => by
    cases j with
    | arr items =>
      have hall : List.Forall₂ (fun j a => decode? j = some a) items as := mapM_eq_some_iff.1 h
      intro a ha
      obtain ⟨j, -, hj⟩ := (exists_of_forall₂ hall).2 a ha
      exact RoundTrips.inBounds hj
    | _ => cases h)

end Containers

/-! ## Fields -/

theorem lookup_cons_eq_ite {β : Type} (name name' : String) (v : β) (r : List (String × β)) :
    List.lookup name ((name', v) :: r) = if name = name' then some v else r.lookup name := by
  rw [List.lookup_cons]
  by_cases h : name = name'
  · rw [if_pos h, beq_iff_eq.2 h]
  · rw [if_neg h, beq_eq_false_iff_ne.2 h]

namespace Record

variable [Wire α] {r : Record} {name name' : String} {v : Json} {a default : α}

@[simp]
theorem required_cons : (required ((name', v) :: r) name : Option α) =
    if name = name' then decode? v else required r name := by
  simp only [required, lookup_cons_eq_ite]
  by_cases h : name = name'
  · rw [if_pos h, if_pos h]
  · rw [if_neg h, if_neg h]

@[simp]
theorem orElse_cons : orElse ((name', v) :: r) name default =
    if name = name' then decode? v else orElse r name default := by
  simp only [orElse, lookup_cons_eq_ite]
  by_cases h : name = name'
  · rw [if_pos h, if_pos h]
  · rw [if_neg h, if_neg h]

variable [Bounded α] [RoundTrips α]

theorem inBounds_of_required (h : r.required name = some a) : InBounds a := by
  simp only [required] at h
  split at h
  · cases h
  · exact RoundTrips.inBounds h

theorem inBounds_of_orElse (hdefault : InBounds default) (h : r.orElse name default = some a) :
    InBounds a := by
  simp only [orElse] at h
  split at h
  · cases h
    exact hdefault
  · exact RoundTrips.inBounds h

theorem inBounds_of_optional [NeverNull α] {o : Option α} (h : r.optional name = some o) :
    InBounds o := by
  refine inBounds_of_orElse (fun a ha => ?_) h
  cases ha

end Record

/-! ## Records -/

/-- Fields of different names, and with second names that are not the name of any. -/
def Slot.Distinct (slots : List Slot) : Prop :=
  (slots.map Slot.name).Nodup ∧ ∀ other ∈ slots.filterMap Slot.other, other ∉ slots.map Slot.name

instance (slots : List Slot) : Decidable (Slot.Distinct slots) :=
  inferInstanceAs (Decidable (_ ∧ _))

theorem Slot.pick?_of_lookup {slot : Slot} {members : List (String × Json)} {v : Json}
    (hname : members.lookup slot.name = some v)
    (hother : ∀ other ∈ slot.other, members.lookup other = none) :
    slot.pick? members = some [(slot.name, v)] := by
  have hnone : (slot.other.bind fun name => members.lookup name) = none :=
    Option.bind_eq_none_iff.2 hother
  simp only [pick?, hname, hnone]

theorem lookup_of_nodup {β : Type} {members : List (String × β)} (h : (members.map Prod.fst).Nodup)
    {m : String × β} (hm : m ∈ members) : members.lookup m.1 = some m.2 := by
  induction members with
  | nil => cases hm
  | cons first rest ih =>
    obtain ⟨hfirst, hrest⟩ := List.nodup_cons.1 h
    rw [lookup_cons_eq_ite]
    rcases List.mem_cons.1 hm with rfl | hm
    · rw [if_pos rfl]
    · have hne : m.1 ≠ first.1 := fun heq => hfirst (heq ▸ List.mem_map_of_mem hm)
      rw [if_neg hne, ih hrest hm]

theorem lookup_eq_none {β : Type} {members : List (String × β)} {name : String}
    (h : name ∉ members.map Prod.fst) : members.lookup name = none := by
  refine List.lookup_eq_none_iff.2 fun m hm => bne_iff_ne.2 fun heq => h ?_
  exact heq ▸ List.mem_map_of_mem hm

theorem pickAll_eq {slots : List Slot} {members fields : List (String × Json)}
    (hnames : fields.map Prod.fst = slots.map Slot.name)
    (hfields : ∀ m ∈ fields, members.lookup m.1 = some m.2)
    (hothers : ∀ other ∈ slots.filterMap Slot.other, members.lookup other = none) :
    pickAll members slots = some fields := by
  induction slots generalizing fields with
  | nil =>
    rw [List.map_eq_nil_iff.1 hnames]
    rfl
  | cons slot slots ih =>
    cases fields with
    | nil => cases hnames
    | cons m fields =>
      obtain ⟨hname, hrest⟩ := List.cons.inj hnames
      obtain ⟨hm, hfields⟩ := List.forall_mem_cons.1 hfields
      have hpicked : slot.pick? members = some [(slot.name, m.2)] := by
        refine Slot.pick?_of_lookup (hname ▸ hm) fun other hother => hothers other ?_
        exact List.mem_filterMap.2 ⟨slot, List.mem_cons_self, hother⟩
      have hpicks : pickAll members slots = some fields := ih hrest hfields fun other hother => by
        obtain ⟨slot', hslot', hof⟩ := List.mem_filterMap.1 hother
        exact hothers other (List.mem_filterMap.2 ⟨slot', List.mem_cons_of_mem slot hslot', hof⟩)
      rw [pickAll, hpicked, hpicks, ← hname]
      rfl

/-- An object that has each field once, under its own name, is a record of the fields. -/
theorem gather_obj {slots : List Slot} {members : List (String × Json)}
    (hnames : members.map Prod.fst = slots.map Slot.name) (hdistinct : Slot.Distinct slots) :
    gather slots (.obj members) = some members :=
  pickAll_eq hnames (fun _ hm => lookup_of_nodup (hnames ▸ hdistinct.1) hm)
    fun other hother => lookup_eq_none (hnames ▸ hdistinct.2 other hother)

/-- A type of records round-trips if it is written with each field once, if its values in bounds are
read off the fields, and if whatever is read off fields is in bounds. -/
theorem RoundTrips.of_fields [Wire α] [Bounded α] {slots : List Slot} {fields : α → Record}
    {read : Record → Option α} (hencode : ∀ a : α, encode a = .obj (fields a))
    (hdecode : ∀ j : Json, decode? j = (gather slots j).bind read)
    (hnames : ∀ a : α, (fields a).map Prod.fst = slots.map Slot.name)
    (hdistinct : Slot.Distinct slots) (hread : ∀ a : α, InBounds a → read (fields a) = some a)
    (hbounds : ∀ (r : Record) (a : α), read r = some a → InBounds a) : RoundTrips α := by
  refine of_inBounds (fun a ha => ?_) fun j a h => ?_
  · rw [hencode, hdecode, gather_obj (hnames a) hdistinct]
    exact hread a ha
  · rw [hdecode] at h
    obtain ⟨r, -, hr⟩ := Option.bind_eq_some_iff.1 h
    exact hbounds r a hr

end GridDispatch
