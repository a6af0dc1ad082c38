import GridDispatch.Proofs.Wire.Laws
import GridDispatch.Wire.Records

/-!
# The library's types round-trip

Which values of each type are in bounds, and that each type round-trips: what was written has every
field once (`gather_obj`), so each is read back, and what was read has fields that were read, so it
is in bounds. Parameters and views are read from the members of an object directly.
-/

namespace GridDispatch

/-! ## Finite kinds -/

instance : Bounded Equipment := .all Equipment
instance : Bounded Action := .all Action
instance : Bounded Voltage := .all Voltage
instance : Bounded Company := .all Company
instance : Bounded Status := .all Status
instance : Bounded SortHint := .all SortHint
instance : Bounded SortView := .all SortView
instance : Bounded UpdateKind := .all UpdateKind
instance : Bounded Conflict := .all Conflict

instance : Unbounded Equipment := ⟨fun _ => trivial⟩
instance : Unbounded Action := ⟨fun _ => trivial⟩
instance : Unbounded Voltage := ⟨fun _ => trivial⟩
instance : Unbounded Status := ⟨fun _ => trivial⟩
instance : Unbounded UpdateKind := ⟨fun _ => trivial⟩

instance : RoundTrips Equipment := .ofNamed
instance : RoundTrips Action := .ofNamed
instance : RoundTrips Voltage := .ofNamed
instance : RoundTrips Company := .ofNamed
instance : RoundTrips Status := .ofNamed
instance : RoundTrips SortHint := .ofNamed
instance : RoundTrips SortView := .ofNamed
instance : RoundTrips UpdateKind := .ofNamed
instance : RoundTrips Conflict := .ofNamed

instance : NeverNull Voltage := .ofNamed

/-! ## Values for null -/

/-- Nothing that is written of the type has an empty object in the place of null. -/
class Unrelaxed (α : Type) [Wire α] : Prop where
  relaxed_encode : ∀ a : α, (encode a).relaxed = encode a

attribute [simp] Unrelaxed.relaxed_encode

instance : Unrelaxed Int := ⟨fun _ => rfl⟩
instance : Unrelaxed String := ⟨fun _ => rfl⟩
instance : Unrelaxed Bool := ⟨fun _ => rfl⟩
instance : Unrelaxed Voltage := ⟨fun _ => rfl⟩
instance : Unrelaxed Equipment := ⟨fun _ => rfl⟩
instance : Unrelaxed Action := ⟨fun _ => rfl⟩
instance : Unrelaxed Params := ⟨fun p => by cases p <;> rfl⟩

instance {α : Type} [Wire α] [Unrelaxed α] : Unrelaxed (Option α) where
  relaxed_encode o := by
    cases o with
    | none => rfl
    | some a => exact Unrelaxed.relaxed_encode a

/-! ## Parameters -/

instance : Bounded Params where
  InBounds
    | .switched amount _ _ => InBounds amount
    | .transformer amount _ _ _ => InBounds amount
    | .synchronous amount => InBounds amount

namespace Params

theorem inBounds_of_ofRecord? {kind : String} {r : Record} {p : Params}
    (h : ofRecord? kind r = some p) : InBounds p := by
  simp only [ofRecord?] at h
  split at h
  · obtain ⟨amount, hamount, h⟩ := Option.bind_eq_some_iff.1 h
    obtain ⟨staggered, -, h⟩ := Option.bind_eq_some_iff.1 h
    obtain ⟨voltage, -, ⟨⟩⟩ := Option.bind_eq_some_iff.1 h
    exact (Record.inBounds_of_required hamount : InBounds amount)
  · obtain ⟨amount, hamount, h⟩ := Option.bind_eq_some_iff.1 h
    obtain ⟨voltage, -, h⟩ := Option.bind_eq_some_iff.1 h
    obtain ⟨primary, -, h⟩ := Option.bind_eq_some_iff.1 h
    obtain ⟨secondary, -, ⟨⟩⟩ := Option.bind_eq_some_iff.1 h
    exact (Record.inBounds_of_required hamount : InBounds amount)
  · obtain ⟨amount, hamount, ⟨⟩⟩ := Option.bind_eq_some_iff.1 h
    exact Record.inBounds_of_optional hamount
  · cases h

/-- The members of a case are read as the case. -/
theorem ofRecord?_members {p : Params} (h : InBounds p) :
    ofRecord? p.kind (Record.relaxed (("kind", .str p.kind) :: p.members)) = some p := by
  cases p with
  | switched amount staggered voltage =>
    have hamount : InBounds amount := h
    simp [ofRecord?, kind, members, Record.relaxed, Record.optional, hamount]
  | transformer amount voltage primary secondary =>
    have hamount : InBounds amount := h
    simp [ofRecord?, kind, members, Record.relaxed, Record.optional, hamount]
  | synchronous amount =>
    have hamount : InBounds amount := h
    simp [ofRecord?, kind, members, Record.relaxed, Record.optional, hamount]

end Params

instance : RoundTrips Params := .of_inBounds
  (fun p h => Option.bind_eq_some_iff.2 ⟨p.kind, rfl, Params.ofRecord?_members h⟩)
  (fun j p h => by
    simp only [decode?] at h
    split at h
    · obtain ⟨kind, -, h⟩ := Option.bind_eq_some_iff.1 h
      exact Params.inBounds_of_ofRecord? h
    · obtain ⟨r, -, h⟩ := Option.bind_eq_some_iff.1 h
      exact Params.inBounds_of_ofRecord? h
    · cases h)

/-! ## Solicitations -/

instance : Bounded NewSolicitation := ⟨fun n => InBounds n.params⟩

instance : RoundTrips NewSolicitation :=
  .of_fields (fun _ => rfl) (fun _ => rfl) (fun _ => rfl) (by decide)
    (fun n hparams => by simp [show InBounds n.params from hparams])
    (fun r n h => by
      simp only [Option.bind_eq_bind, Option.bind_eq_some_iff, Option.pure_def,
        Option.some.injEq] at h
      obtain ⟨-, -, -, -, -, -, -, -, params, hparams, rfl⟩ := h
      exact (Record.inBounds_of_required hparams : InBounds params))

namespace Solicitation

instance : Bounded Solicitation := ⟨fun s => InBounds s.id ∧ InBounds s.params⟩

theorem inBounds_of_ofRecord? {r : Record} {s : Solicitation} (h : ofRecord? r = some s) :
    InBounds s := by
  simp only [ofRecord?, Option.bind_eq_bind, Option.bind_eq_some_iff, Option.pure_def,
    Option.some.injEq] at h
  obtain ⟨id, hid, -, -, -, -, -, -, -, -, params, hparams, -, -, -, -, rfl⟩ := h
  exact ⟨Record.inBounds_of_required hid, Record.inBounds_of_required hparams⟩

theorem ofRecord?_members {s : Solicitation} (h : InBounds s) : ofRecord? s.members = some s := by
  obtain ⟨hid, hparams⟩ := h
  simp [ofRecord?, members, Record.optional, hid, hparams]

end Solicitation

instance : RoundTrips Solicitation :=
  .of_fields (fun _ => rfl) (fun _ => rfl) (fun _ => rfl) (by decide)
    (fun _ => Solicitation.ofRecord?_members) (fun _ _ => Solicitation.inBounds_of_ofRecord?)

instance : Bounded Event :=
  ⟨fun e => InBounds e.eventId ∧ InBounds e.solicitationId ∧ InBounds e.time⟩

instance : RoundTrips Event :=
  .of_fields (fun _ => rfl) (fun _ => rfl) (fun _ => rfl) (by decide)
    (fun e ⟨hid, hsolicitation, htime⟩ => by simp [Record.optional, hid, hsolicitation, htime])
    (fun r e h => by
      simp only [Option.bind_eq_bind, Option.bind_eq_some_iff, Option.pure_def,
        Option.some.injEq] at h
      obtain ⟨id, hid, solicitationId, hsolicitation, -, -, -, -, time, htime, -, -, rfl⟩ := h
      exact ⟨Record.inBounds_of_required hid, Record.inBounds_of_required hsolicitation,
        Record.inBounds_of_required htime⟩)

instance : Bounded Marker := ⟨fun m => InBounds m.headEventId⟩

instance : RoundTrips Marker :=
  .of_fields (fun _ => rfl) (fun _ => rfl) (fun _ => rfl) (by decide)
    (fun m hid => by simp [show InBounds m.headEventId from hid])
    (fun r m h => by
      simp only [Option.bind_eq_bind, Option.bind_eq_some_iff, Option.pure_def,
        Option.some.injEq] at h
      obtain ⟨id, hid, -, -, rfl⟩ := h
      exact (Record.inBounds_of_required hid : InBounds id))

instance : Bounded State := ⟨fun s =>
  InBounds s.createdAt ∧ InBounds s.updatedAt ∧ InBounds s.headEventId ∧ InBounds s.events⟩

instance : RoundTrips State :=
  .of_fields (fun _ => rfl) (fun _ => rfl) (fun _ => rfl) (by decide)
    (fun s ⟨hcreated, hupdated, hid, hevents⟩ => by simp [hcreated, hupdated, hid, hevents])
    (fun r s h => by
      simp only [Option.bind_eq_bind, Option.bind_eq_some_iff, Option.pure_def,
        Option.some.injEq] at h
      obtain ⟨-, -, created, hcreated, updated, hupdated, id, hid, events, hevents, rfl⟩ := h
      exact ⟨Record.inBounds_of_required hcreated, Record.inBounds_of_required hupdated,
        Record.inBounds_of_required hid, Record.inBounds_of_required hevents⟩)

namespace View

instance : Bounded View := ⟨fun v =>
  InBounds v.solicitation ∧ InBounds v.createdAt ∧ InBounds v.updatedAt ∧ InBounds v.events⟩

/-- Parameters that were written name their kind by a word. -/
theorem withKind_encode (p : Params) : Params.withKind (encode p) = encode p := by
  cases p <;> rfl

/-- The solicitation is read from its members, whatever stands behind them. -/
theorem ofRecord?_members {s : Solicitation} (h : InBounds s) (rest : List (String × Json)) :
    Solicitation.ofRecord? (Record.relaxed ((s.members ++ rest).map fun m =>
      if m.1 = "params" then (m.1, Params.withKind m.2) else m)) = some s := by
  obtain ⟨hid, hparams⟩ := h
  simp [Solicitation.ofRecord?, Solicitation.members, Record.relaxed, Record.optional,
    withKind_encode, hid, hparams]

end View

instance : RoundTrips View := .of_inBounds
  (fun v ⟨hsolicitation, hcreated, hupdated, hevents⟩ => by
    refine Option.bind_eq_some_iff.2 ⟨_, View.ofRecord?_members hsolicitation _, ?_⟩
    simp [Solicitation.members, hcreated, hupdated, hevents])
  (fun j v h => by
    cases j with
    | obj members =>
      obtain ⟨s, hs, h⟩ := Option.bind_eq_some_iff.1 h
      simp only [Option.bind_eq_bind, Option.bind_eq_some_iff, Option.pure_def, Option.some.injEq]
        at h
      obtain ⟨-, -, created, hcreated, updated, hupdated, events, hevents, rfl⟩ := h
      exact ⟨Solicitation.inBounds_of_ofRecord? hs, Record.inBounds_of_required hcreated,
        Record.inBounds_of_required hupdated, Record.inBounds_of_required hevents⟩
    | _ => cases h)

instance : Bounded Group := ⟨fun g => InBounds g.creationTotalTime ∧ InBounds g.createdAt⟩

instance : RoundTrips Group :=
  .of_fields (fun _ => rfl) (fun _ => rfl) (fun _ => rfl) (by decide)
    (fun g ⟨htotal, hcreated⟩ => by simp [htotal, hcreated])
    (fun r g h => by
      simp only [Option.bind_eq_bind, Option.bind_eq_some_iff, Option.pure_def,
        Option.some.injEq] at h
      obtain ⟨-, -, -, -, total, htotal, created, hcreated, rfl⟩ := h
      exact ⟨Record.inBounds_of_required htotal, Record.inBounds_of_required hcreated⟩)

/-! ## Lists -/

instance : Bounded Filter := .all Filter

instance : RoundTrips Filter :=
  .of_fields (fun _ => rfl) (fun _ => rfl) (fun _ => rfl) (by decide)
    (fun f _ => by simp [Record.optional])
    (fun _ _ _ => trivial)

instance : Bounded Page := ⟨fun p => InBounds p.fromId ∧ InBounds p.limit⟩

instance : RoundTrips Page :=
  .of_fields (fun _ => rfl) (fun _ => rfl) (fun _ => rfl) (by decide)
    (fun p ⟨hfrom, hlimit⟩ => by simp [Record.optional, hfrom, hlimit])
    (fun r p h => by
      simp only [Option.bind_eq_bind, Option.bind_eq_some_iff, Option.pure_def,
        Option.some.injEq] at h
      obtain ⟨fromId, hfrom, limit, hlimit, rfl⟩ := h
      exact ⟨Record.inBounds_of_optional hfrom, Record.inBounds_of_required hlimit⟩)

instance : Bounded ListRequest := ⟨fun r => InBounds r.fromId ∧ InBounds r.limit⟩

instance : RoundTrips ListRequest :=
  .of_fields (fun _ => rfl) (fun _ => rfl) (fun _ => rfl) (by decide)
    (fun r ⟨hfrom, hlimit⟩ => by simp [Record.optional, hfrom, hlimit])
    (fun r p h => by
      simp only [Option.bind_eq_bind, Option.bind_eq_some_iff, Option.pure_def,
        Option.some.injEq] at h
      obtain ⟨-, -, -, -, -, -, -, -, fromId, hfrom, limit, hlimit, -, -, rfl⟩ := h
      exact ⟨Record.inBounds_of_optional hfrom, Record.inBounds_of_optional hlimit⟩)

instance : Bounded ListResponse := ⟨fun l => InBounds l.solicitations ∧ InBounds l.count⟩

instance : RoundTrips ListResponse :=
  .of_fields (fun _ => rfl) (fun _ => rfl) (fun _ => rfl) (by decide)
    (fun l ⟨hsolicitations, hcount⟩ => by simp [hsolicitations, hcount])
    (fun r l h => by
      simp only [Option.bind_eq_bind, Option.bind_eq_some_iff, Option.pure_def,
        Option.some.injEq] at h
      obtain ⟨solicitations, hsolicitations, count, hcount, rfl⟩ := h
      exact ⟨Record.inBounds_of_required hsolicitations, Record.inBounds_of_required hcount⟩)

/-! ## Requests and receipts -/

instance : Bounded RawSolicitation := .all RawSolicitation
instance : Unbounded RawSolicitation := ⟨fun _ => trivial⟩

instance : RoundTrips RawSolicitation :=
  .of_fields (fun _ => rfl) (fun _ => rfl) (fun _ => rfl) (by decide)
    (fun raw _ => by simp)
    (fun _ _ _ => trivial)

instance : Bounded Batch := ⟨fun b => InBounds b.creationTotalTime⟩

instance : RoundTrips Batch :=
  .of_fields (fun _ => rfl) (fun _ => rfl) (fun _ => rfl) (by decide)
    (fun b htotal => by simp [show InBounds b.creationTotalTime from htotal])
    (fun r b h => by
      simp only [Option.bind_eq_bind, Option.bind_eq_some_iff, Option.pure_def,
        Option.some.injEq] at h
      obtain ⟨total, htotal, -, -, rfl⟩ := h
      have hzero : Text.Range.signed.has 0 = true := by decide
      exact (Record.inBounds_of_orElse hzero htotal : InBounds total))

instance : Bounded SubmitReceipt := ⟨fun s => InBounds s.ids⟩

instance : RoundTrips SubmitReceipt :=
  .of_fields (fun _ => rfl) (fun _ => rfl) (fun _ => rfl) (by decide)
    (fun s hids => by simp [show InBounds s.ids from hids])
    (fun r s h => by
      simp only [Option.bind_eq_bind, Option.bind_eq_some_iff, Option.pure_def,
        Option.some.injEq] at h
      obtain ⟨-, -, ids, hids, -, -, rfl⟩ := h
      exact (Record.inBounds_of_required hids : InBounds ids))

instance : Bounded ChangeReceipt := ⟨fun c => InBounds c.solicitationId ∧ InBounds c.streamToken⟩

instance : RoundTrips ChangeReceipt :=
  .of_fields (fun _ => rfl) (fun _ => rfl) (fun _ => rfl) (by decide)
    (fun c ⟨hid, htoken⟩ => by simp [Record.optional, hid, htoken])
    (fun r c h => by
      simp only [Option.bind_eq_bind, Option.bind_eq_some_iff, Option.pure_def,
        Option.some.injEq] at h
      obtain ⟨id, hid, -, -, token, htoken, rfl⟩ := h
      exact ⟨Record.inBounds_of_required hid, Record.inBounds_of_optional htoken⟩)

/-! ## Updates and settings -/

instance : Bounded Update := ⟨fun u => InBounds u.streamId ∧ InBounds u.solicitationId⟩

instance : RoundTrips Update :=
  .of_fields (fun _ => rfl) (fun _ => rfl) (fun _ => rfl) (by decide)
    (fun u ⟨hstream, hid⟩ => by simp [Record.optional, hstream, hid])
    (fun r u h => by
      simp only [Option.bind_eq_bind, Option.bind_eq_some_iff, Option.pure_def,
        Option.some.injEq] at h
      obtain ⟨stream, hstream, id, hid, -, -, -, -, -, -, rfl⟩ := h
      exact ⟨Record.inBounds_of_required hstream, Record.inBounds_of_required hid⟩)

instance : Bounded Notification := ⟨fun n => InBounds n.token⟩

instance : RoundTrips Notification :=
  .of_fields (fun _ => rfl) (fun _ => rfl) (fun _ => rfl) (by decide)
    (fun n htoken => by simp [Record.optional, show InBounds n.token from htoken])
    (fun r n h => by
      simp only [Option.bind_eq_bind, Option.bind_eq_some_iff, Option.pure_def,
        Option.some.injEq] at h
      obtain ⟨-, -, token, htoken, -, -, rfl⟩ := h
      exact (Record.inBounds_of_required htoken : InBounds token))

instance : Bounded Settings := ⟨fun c =>
  InBounds c.acceptanceWindow ∧ InBounds c.lateAfter ∧ InBounds c.sweepInterval ∧
    InBounds c.listDefaultLimit ∧ InBounds c.listMaxLimit⟩

instance : RoundTrips Settings :=
  .of_fields (fun _ => rfl) (fun _ => rfl) (fun _ => rfl) (by decide)
    (fun c ⟨hwindow, hlate, hsweep, hdefault, hmax⟩ => by
      simp [hwindow, hlate, hsweep, hdefault, hmax])
    (fun r c h => by
      simp only [Option.bind_eq_bind, Option.bind_eq_some_iff, Option.pure_def,
        Option.some.injEq] at h
      obtain ⟨window, hwindow, late, hlate, sweep, hsweep, default, hdefault, max, hmax, -, -, -, -,
        rfl⟩ := h
      exact ⟨Record.inBounds_of_required hwindow, Record.inBounds_of_required hlate,
        Record.inBounds_of_required hsweep, Record.inBounds_of_required hdefault,
        Record.inBounds_of_required hmax⟩)

end GridDispatch
