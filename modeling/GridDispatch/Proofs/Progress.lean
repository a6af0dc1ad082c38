import GridDispatch.Proofs.Recount

/-!
# What can still be moved

A solicitation that is neither executed nor canceled can be moved on by somebody, with one exception:
the only way on from a renewed request is an acceptance, and there is none once the window since
creation has passed (`Authority.movable_iff`). Main statement: `Run.movable`; that the exception
occurs is shown by `Run.not_movable_of_required`.
-/

namespace GridDispatch

/-- The operator, a transmission company or the system may give a solicitation of this status another
one at `now`. -/
def Authority.Movable (a : Authority) (status : Status) (createdAt now : Int) : Prop :=
  ∃ role ∈ [Role.operator, .transmission, .system], ∃ requested,
    a.check role status requested createdAt now = .ok ()

/-- A change that is in a table, other than an acceptance, is granted at any time. -/
theorem Authority.check_of_ne_accepted {a : Authority} {role : Role} {current requested : Status}
    {createdAt now : Int} (hallowed : requested ∈ role.targets current) (hne : requested ≠ current)
    (haccepted : requested ≠ .accepted) : a.check role current requested createdAt now = .ok () :=
  Authority.check_eq_ok_iff.2 ⟨hne, hallowed, fun h => absurd h haccepted⟩

/-- Nothing is moved that is executed or canceled, and a renewed request can only be accepted. -/
theorem Role.source_of_mem_targets {role : Role} {current requested : Status}
    (h : requested ∈ role.targets current) : current ≠ .executed ∧ current ≠ .canceled ∧
      (current = .required → requested = .accepted) := by
  refine ⟨?_, ?_, ?_⟩
  · rintro rfl
    cases role <;> cases h
  · rintro rfl
    cases role <;> cases h
  · rintro rfl
    cases role with
    | transmission => exact List.mem_singleton.1 h
    | operator | system | unknown => cases h

theorem Authority.movable_iff {a : Authority} {status : Status} {createdAt now : Int} :
    a.Movable status createdAt now ↔ status ≠ .executed ∧ status ≠ .canceled ∧
      (status = .required → elapsed createdAt now ≤ a.window) := by
  constructor
  · rintro ⟨role, -, requested, hcheck⟩
    obtain ⟨-, hallowed, hintime⟩ := Authority.check_eq_ok_iff.1 hcheck
    obtain ⟨hexecuted, hcanceled, honly⟩ := Role.source_of_mem_targets hallowed
    exact ⟨hexecuted, hcanceled, fun hrequired => hintime (honly hrequired)⟩
  · rintro ⟨hexecuted, hcanceled, hintime⟩
    -- the operator withdraws what nobody has taken on, and the company does the rest
    cases status with
    | new | blocked | contested =>
      refine ⟨.operator, by simp, .canceled, ?_⟩
      apply Authority.check_of_ne_accepted
      all_goals simp [Role.targets]
    | accepted | late =>
      refine ⟨.transmission, by simp, .executed, ?_⟩
      apply Authority.check_of_ne_accepted
      all_goals simp [Role.targets]
    | required =>
      refine ⟨.transmission, by simp, .accepted, Authority.check_eq_ok_iff.2 ⟨?_, ?_, ?_⟩⟩
      · exact Status.noConfusion
      · exact List.mem_singleton_self _
      · exact fun _ => hintime rfl
    | executed => exact absurd rfl hexecuted
    | canceled => exact absurd rfl hcanceled

/-- Wherever a run of requests has come to, every solicitation has a standing, and at any time there
is somebody who can move it on, unless it is executed or canceled, or a renewed request that the
acceptance comes too late for. -/
theorem Run.movable {p : Service} {past : List Service} {entries : List Entry}
    (h : Run p past entries) {row : EnvelopeRow} (hrow : row ∈ p.ledger.envelopes) :
    ∃ state, p.ledger.state? row.id = .ok (some state) ∧ ∀ now,
      p.authority.Movable state.status state.createdAt now ↔
        state.status ≠ .executed ∧ state.status ≠ .canceled ∧
          (state.status = .required → elapsed state.createdAt now ≤ p.settings.acceptanceWindow) := by
  obtain ⟨state, -, -, hstate, -⟩ := h.journal.1.state? hrow
  refine ⟨state, hstate, fun now => ?_⟩
  exact Authority.movable_iff

/-- A request with nobody else around goes on with a run. -/
theorem Service.after_continues (p : Service) (r : Request) : Continues p (p.after r) := by
  rw [← continuesIn_true]
  exact after_continuesIn covers_true p r

/-- A service without solicitations, with a user of the operator and one of CTEEP. -/
def Service.staffed : Service where
  ledger := .empty
  directory := ⟨⟨[], [⟨"CTEEP", "MOS", none⟩], [("ana", "ONS"), ("tito", "CTEEP")]⟩, []⟩
  settings := .default
  bus := .silent
  now := 100

/-- A solicitation that the company contests and the operator asks for again, all at once. -/
def Service.insisting : Service :=
  ((staffed.after (.submit "ana" "ONS" "first" .synchronous)).after
    (.change ⟨1, "tito", "CONTESTED", none⟩)).after (.change ⟨1, "ana", "REQUIRED", none⟩)

theorem Service.insisting_run (now : Int) :
    ∃ past entries, Run { insisting with now } past entries := by
  have hstart : ∃ past entries, Run staffed past entries := ⟨[], [], .start rfl rfl⟩
  have hsent := (staffed.after_continues (.submit "ana" "ONS" "first" .synchronous)).exists_run hstart
  have hcontested := (after_continues _ (.change ⟨1, "tito", "CONTESTED", none⟩)).exists_run hsent
  have hinsisting := (after_continues _ (.change ⟨1, "ana", "REQUIRED", none⟩)).exists_run hcontested
  have htime : Continues insisting { insisting with now } := .of_sameRows ⟨rfl, rfl, rfl, rfl⟩
  exact htime.exists_run hinsisting

theorem Service.insisting_envelopes : insisting.ledger.envelopes =
    [.of 1 ⟨.synchronous, .maximize, "MOS", "CTEEP", .synchronous none⟩ "ana" (some "first")] := by
  cbv

theorem Service.insisting_state : insisting.ledger.state? 1 = .ok (some ⟨.required, 100, 100, 3,
    [⟨3, 1, some "ana", .required, 100, none⟩, ⟨2, 1, some "tito", .contested, 100, none⟩,
      ⟨1, 1, some "ana", .new, 100, none⟩]⟩) := by
  cbv

/-- At the last moment of the window the company can still accept what the operator insists on. -/
theorem Run.movable_of_required :
    let p : Service := { Service.insisting with now := 400 }
    ∃ past entries, Run p past entries ∧ ∃ row ∈ p.ledger.envelopes, ∃ state,
      p.ledger.state? row.id = .ok (some state) ∧ state.status = .required ∧
        p.authority.Movable state.status state.createdAt p.now := by
  intro p
  obtain ⟨past, entries, hrun⟩ := Service.insisting_run 400
  have hrow : _ ∈ p.ledger.envelopes := Service.insisting_envelopes ▸ List.mem_singleton_self _
  obtain ⟨state, hstate, hmovable⟩ := hrun.movable hrow
  obtain rfl : _ = state := Option.some.inj (Except.ok.inj (Service.insisting_state.symm.trans hstate))
  refine ⟨past, entries, hrun, _, hrow, _, hstate, rfl, (hmovable 400).2 ⟨?_, ?_, ?_⟩⟩
  · exact Status.noConfusion
  · exact Status.noConfusion
  · intro _
    have hwindow : p.settings.acceptanceWindow = 300 := by cbv
    rw [hwindow]
    decide

/-- A second later nobody can move it on any more. -/
theorem Run.not_movable_of_required :
    let p : Service := { Service.insisting with now := 401 }
    ∃ past entries, Run p past entries ∧ ∃ row ∈ p.ledger.envelopes, ∃ state,
      p.ledger.state? row.id = .ok (some state) ∧ state.status ≠ .executed ∧
        state.status ≠ .canceled ∧ ¬ p.authority.Movable state.status state.createdAt p.now := by
  intro p
  obtain ⟨past, entries, hrun⟩ := Service.insisting_run 401
  have hrow : _ ∈ p.ledger.envelopes := Service.insisting_envelopes ▸ List.mem_singleton_self _
  refine ⟨past, entries, hrun, _, hrow, _, Service.insisting_state, Status.noConfusion,
    Status.noConfusion, fun hmovable => ?_⟩
  obtain ⟨-, -, hintime⟩ := Authority.movable_iff.1 hmovable
  have hwindow : p.authority.window = 300 := by cbv
  have hle : elapsed 100 401 ≤ p.authority.window := hintime rfl
  rw [hwindow] at hle
  exact absurd hle (by decide)

end GridDispatch
