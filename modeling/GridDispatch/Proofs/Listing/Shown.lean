import GridDispatch.Proofs.Ledger.History
import GridDispatch.Proofs.Ledger.Views
import GridDispatch.Proofs.Listing.Order

/-!
# Joined rows and their views

The list query works on joined rows of texts and cells, and what it answers are views. In a ledger
whose rows can be read (`Ledger.Decodes`) each joined row shows a view: `Shown` is a row with the
view that it shows, and the query sorts (`Shown.order_eq`) and filters (`Shown.keeps_iff`) the rows
as the views are to be.
-/

namespace GridDispatch

/-- All rows can be read, no two envelopes share an id, and there are fewer than `noLimit`. -/
structure Ledger.Decodes (l : Ledger) : Prop where
  envelopes : ∀ row ∈ l.envelopes, row.check = .ok () ∧ ∃ solicitation, row.read = .ok solicitation
  events : ∀ row ∈ l.events, ∃ e, row.read = .ok e
  nodup : (l.envelopes.map EnvelopeRow.id).Nodup
  bounded : l.envelopes.length < noLimit

/-- A solicitation passes a filter. -/
structure Filter.Admits (registry : Registry) (filter : Filter) (v : View) : Prop where
  company : ∀ code ∈ filter.companyCode, v.solicitation.companyCode = code
  substation : filter.substations = [] ∨ v.solicitation.substationCode ∈ filter.substations
  table : ∀ table ∈ filter.tableCode, ∃ s ∈ registry.substations,
    s.companyCode = v.solicitation.companyCode ∧ s.code = v.solicitation.substationCode ∧
      s.tableCode = some table
  expired : filter.excludeExpired = true → v.status ≠ .late

/-- A joined row with the view that it shows. -/
structure Shown (l : Ledger) where
  joined : Joined
  view : View
  mem : joined.envelope ∈ l.envelopes
  check : joined.envelope.check = .ok ()
  viewOf : l.viewOf joined.envelope = .ok view
  id_eq : joined.envelope.id = view.id
  company_eq : joined.envelope.companyCode = view.solicitation.companyCode
  substation_eq : joined.envelope.substationCode = view.solicitation.substationCode
  status_eq : joined.head.status = view.status.name
  changed_eq : joined.head.time = .int view.updatedAt
  created_eq : joined.created = .int view.createdAt

variable {l : Ledger} {row : EnvelopeRow} {log : List Event}

/-! ## Rows that can be read -/

theorem Ledger.Decodes.exists_logs (h : l.Decodes) (id : Int) : ∃ log, l.Logs id log := by
  refine Ledger.exists_logs fun row hrow => ?_
  obtain ⟨e, he⟩ := h.events row (Ledger.mem_written.1 hrow).1
  exact ⟨e, (EventRow.read_eq_ok_iff.1 he).symm⟩

/-- A row is joined exactly if it has events. -/
theorem Joined.of?_eq_none_iff (hlog : l.Logs row.id log) : of? l row = none ↔ log = [] := by
  have hrows := hlog.rowsOf
  rw [← newest_eq_none_iff]
  cases hnewest : newestFirst log with
  | nil =>
    rw [hnewest, List.map_nil] at hrows
    simp only [of?, hrows, List.head?_nil]
  | cons head rest =>
    rw [hnewest, List.map_cons] at hrows
    simp only [of?, hrows, List.head?_cons]
    exact ⟨nofun, nofun⟩

/-- It is joined with its newest event and with the time of its oldest. -/
theorem Joined.of?_eq_some (hlog : l.Logs row.id log) {state : State}
    (hstate : State.ofEvents? log = some state) {j : Joined} (hj : of? l row = some j) :
    j.envelope = row ∧ j.head.status = state.status.name ∧ j.head.time = .int state.updatedAt ∧
      j.created = .int state.createdAt := by
  obtain ⟨head, rest, hnewest, rfl⟩ := State.ofEvents?_eq_some hstate
  have hrows := hlog.rowsOf
  rw [hnewest, List.map_cons] at hrows
  simp only [of?, hrows] at hj
  cases hj
  refine ⟨rfl, rfl, rfl, ?_⟩
  have hlast := List.getLast_map (f := EventRow.of) (l := head :: rest) (by simp)
  exact congrArg EventRow.time hlast

/-- Each joined row of a ledger that can be read shows a view. -/
theorem Ledger.Decodes.exists_shown (h : l.Decodes) (hrow : row ∈ l.envelopes) {j : Joined}
    (hj : Joined.of? l row = some j) : ∃ x : Shown l, x.joined = j := by
  obtain ⟨log, hlog⟩ := h.exists_logs row.id
  obtain ⟨hcheck, solicitation, hread⟩ := h.envelopes row hrow
  obtain ⟨hid, hcompany, hsubstation⟩ := EnvelopeRow.codes_of_read hread
  cases hstate : State.ofEvents? log with
  | none =>
    have hnone := (Joined.of?_eq_none_iff hlog).2 (State.ofEvents?_eq_none_iff.1 hstate)
    rw [hnone] at hj
    cases hj
  | some state =>
    obtain ⟨rfl, hstatus, hchanged, hcreated⟩ := Joined.of?_eq_some hlog hstate hj
    have hview : l.viewOf j.envelope = .ok (View.of solicitation state) := by
      refine bind_eq_ok_iff.2 ⟨solicitation, hread, bind_eq_ok_iff.2 ⟨some state, ?_, rfl⟩⟩
      rw [hlog.state?, hstate]
    exact ⟨⟨j, View.of solicitation state, hrow, hcheck, hview, hid.symm, hcompany.symm,
      hsubstation.symm, hstatus, hchanged, hcreated⟩, rfl⟩

namespace Shown

/-! ## What the query does to rows and views -/

/-- The view is what is found by its id. -/
theorem find? (h : l.Decodes) (x : Shown l) : l.find? x.view.id = .ok (some x.view) := by
  have hsome : (l.envelope? x.view.id).isSome := List.find?_isSome.2
    ⟨x.joined.envelope, x.mem, by simp [x.id_eq]⟩
  obtain ⟨row, hrow⟩ := Option.isSome_iff_exists.1 hsome
  have hid : row.id = x.view.id := by simpa using List.find?_some hrow
  have hsame : row = x.joined.envelope := List.inj_on_of_nodup_map h.nodup
    (List.mem_of_find?_eq_some hrow) x.mem (hid.trans x.id_eq.symm)
  simp only [Ledger.find?, hrow, hsame, x.check, x.viewOf]
  rfl

theorem changed_cell (x : Shown l) (view : SortView) :
    x.joined.changed view = .int (x.view.changed view) := by
  rw [Joined.changed, x.status_eq, SortView.turned_name, x.changed_eq, View.changed]
  split
  · rfl
  · rfl

theorem orderBy_eq (x y : Shown l) (view : SortView) (hint : SortHint) :
    Joined.orderBy view x.joined y.joined hint = View.orderBy view hint x.view y.view := by
  cases hint with
  | status =>
    rw [Joined.orderBy, x.changed_cell, y.changed_cell, x.status_eq, y.status_eq,
      SortView.rank_name, SortView.rank_name]
    rfl
  | creationTime =>
    rw [Joined.orderBy, x.created_eq, y.created_eq]
    rfl
  | substation =>
    rw [Joined.orderBy, x.substation_eq, y.substation_eq]
    rfl

/-- Rows are ordered as their views are. -/
theorem order_eq (x y : Shown l) (view : SortView) (hints : List SortHint) :
    Joined.order view x.joined y.joined hints = View.order view hints x.view y.view := by
  induction hints with
  | nil =>
    rw [Joined.order, x.id_eq, y.id_eq]
    rfl
  | cons hint hints ih =>
    rw [Joined.order, x.orderBy_eq, ih]
    rfl

theorem inTable_iff {registry : Registry} {companyCode code table : String} :
    registry.inTable companyCode code table = true ↔ ∃ s ∈ registry.substations,
      s.companyCode = companyCode ∧ s.code = code ∧ s.tableCode = some table := by
  simp only [Registry.inTable, List.any_eq_true, Bool.and_eq_true, beq_iff_eq, and_assoc]

/-- A filter keeps the rows whose views it admits. -/
theorem keeps_iff (x : Shown l) (registry : Registry) (filter : Filter) :
    x.joined.keeps registry filter = true ↔ filter.Admits registry x.view := by
  have hlate : x.joined.head.status = Status.late.name ↔ x.view.status = .late := by
    rw [x.status_eq]
    have hinj : name x.view.status = name Status.late → x.view.status = .late := Named.name_inj
    exact ⟨hinj, congrArg Status.name⟩
  simp only [Joined.keeps, Bool.and_eq_true, Bool.or_eq_true, Option.all_eq_true,
    beq_iff_eq, Bool.not_eq_true', Bool.and_eq_false_iff, List.isEmpty_iff,
    List.contains_iff_mem, inTable_iff, x.company_eq, x.substation_eq]
  constructor
  · rintro ⟨⟨⟨hcompany, hsubstation⟩, htable⟩, hexpired⟩
    refine ⟨hcompany, hsubstation, htable, fun hasked hstatus => ?_⟩
    rcases hexpired with hoff | hother
    · rw [hasked] at hoff
      cases hoff
    · rw [beq_eq_false_iff_ne] at hother
      exact hother (hlate.2 hstatus)
  · rintro ⟨hcompany, hsubstation, htable, hexpired⟩
    refine ⟨⟨⟨hcompany, hsubstation⟩, htable⟩, ?_⟩
    cases hasked : filter.excludeExpired with
    | false => exact .inl rfl
    | true => exact .inr (beq_eq_false_iff_ne.2 fun hname => hexpired hasked (hlate.1 hname))

end Shown

end GridDispatch
