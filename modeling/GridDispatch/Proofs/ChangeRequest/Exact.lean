import GridDispatch.Proofs.ChangeRequest
import GridDispatch.Proofs.Ledger.Batch
import GridDispatch.Proofs.Objections
import GridDispatch.Proofs.Transition.Alone

/-!
# A change with nobody else around

Main statement: `Service.changeStatus_exact`. A request for a change that nobody interferes with is
answered with the first objection to it, in the order in which it is looked at, and then leaves
everything as it was; or it makes just the change that it asks for (`Service.Changed`). Two outages
are among the objections, that of the directory first and that of the storage last, and what could
not be recorded is not told (`Service.not_changed_of_outage`).
-/

namespace GridDispatch

open Ledger

theorem Role.ofCompanyCode_eq_transmission_iff {code : String} :
    Role.ofCompanyCode code = .transmission ↔
      code = Company.cteep.name ∨ code = Company.chesf.name := by
  constructor
  · intro h
    simp only [ofCompanyCode] at h
    split at h
    · rename_i company hcompany
      have hname := Named.ofName?_eq_some_iff.1 hcompany
      cases company with
      | ons => cases h
      | cteep => exact .inl hname.symm
      | chesf => exact .inr hname.symm
    · cases h
  · rintro (rfl | rfl) <;> decide

/-- Every solicitation can be read and has events. -/
def Ledger.Whole (l : Ledger) : Prop :=
  ∀ row ∈ l.envelopes, row.check = .ok () ∧ ∃ v, l.viewOf row = .ok v

/-- Then nobody knows an id, or it finds a view. -/
theorem Ledger.Whole.find?_cases {l : Ledger} (h : l.Whole) (id : Int) :
    (∀ row ∈ l.envelopes, row.id ≠ id) ∧ l.find? id = .ok none ∨
      l.hasEnvelope id = true ∧ ∃ v, l.find? id = .ok (some v) := by
  cases hfound : l.envelope? id with
  | none =>
    refine .inl ⟨fun row hrow => ?_, by rw [find?, hfound]⟩
    simpa using List.find?_eq_none.1 hfound row hrow
  | some row =>
    obtain ⟨hcheck, v, hview⟩ := h row (List.mem_of_find?_eq_some hfound)
    have hfind : l.find? id = .ok (some v) := by
      rw [find?, hfound]
      exact bind_eq_ok_iff.2 ⟨(), hcheck, bind_eq_ok_iff.2 ⟨v, hview, rfl⟩⟩
    exact .inr ⟨hasEnvelope_of_find? hfind, v, hfind⟩

namespace Service

variable {s : Service} {r : ChangeRequest} {company : String} {v : View} {requested : Status}

/-! ## What there is to object to a request -/

/-- The directory does not say which company the user belongs to. -/
def OutOfReach (s : Service) (r : ChangeRequest) (e : WorkflowError) : Prop :=
  ∃ outage, s.directory.companyOf r.actor = .error outage ∧ e = .unavailable outage

/-- The user is a transmission company's, and the solicitation another's. -/
def Foreign (s : Service) (r : ChangeRequest) : Prop :=
  ∃ company v, s.directory.companyOf r.actor = .ok (some company) ∧
    s.ledger.find? r.id = .ok (some v) ∧
      (company = Company.cteep.name ∨ company = Company.chesf.name) ∧
        v.solicitation.companyCode ≠ company

/-- The authority refuses the change of the current status. -/
def Forbids (s : Service) (r : ChangeRequest) (e : WorkflowError) : Prop :=
  ∃ company v requested refusal, s.Concerns r company v requested ∧
    s.authority.check (.ofCompanyCode company) v.status requested v.createdAt s.now = .error refusal ∧
      e = .refused refusal

/-- What there is to object to a request for a change, in the order in which it is looked at. -/
def changeObjections (s : Service) (r : ChangeRequest) : List (WorkflowError → Prop) :=
  [objection (s.directory.companyOf r.actor = .ok none) .userWithoutCompany,
    objection (∀ row ∈ s.ledger.envelopes, row.id ≠ r.id) (.noSolicitation r.id),
    objection (∀ status : Status, status.name ≠ Text.trim r.status)
      (.badRequest (.unknownStatus r.status)),
    objection (s.Foreign r) .otherCompany,
    s.Forbids r]

/-- The storage refuses the event of the change. -/
def RefusesChange (s : Service) (r : ChangeRequest) (e : WorkflowError) : Prop :=
  ∃ company v requested fault, s.Concerns r company v requested ∧
    s.ledger.insertEvent r.id (some r.actor) requested (max s.now v.updatedAt)
      (r.justification.bind Text.filled?) = .error fault ∧ e = .store fault

theorem Concerns.unique {company' : String} {v' : View} {requested' : Status}
    (h : s.Concerns r company v requested) (h' : s.Concerns r company' v' requested') :
    company' = company ∧ v' = v ∧ requested' = requested := by
  refine ⟨?_, ?_, Named.name_inj (h'.status.trans h.status.symm)⟩
  · exact Option.some.inj (Except.ok.inj (h'.company.symm.trans h.company))
  · exact Option.some.inj (Except.ok.inj (h'.view.symm.trans h.view))

theorem companyOf_raises : Raises (s.companyOf r.actor) [s.OutOfReach r,
    objection (s.directory.companyOf r.actor = .ok none) .userWithoutCompany] := by
  intro e
  rw [companyOf]
  cases hcompany : s.directory.companyOf r.actor with
  | error outage =>
    rw [FirstOf.cons_of_exists ⟨_, outage, hcompany, rfl⟩]
    constructor
    · intro h
      exact ⟨outage, hcompany, (Except.error.inj h).symm⟩
    · rintro ⟨outage', houtage, rfl⟩
      cases hcompany.symm.trans houtage
      rfl
  | ok found =>
    have hreached (e' : WorkflowError) : ¬ s.OutOfReach r e' := by
      rintro ⟨outage, houtage, -⟩
      cases hcompany.symm.trans houtage
    rw [FirstOf.cons_of_forall hreached, FirstOf.single_iff]
    cases found with
    | none => exact ⟨fun h => ⟨rfl, (Except.error.inj h).symm⟩, fun h => congrArg _ h.2.symm⟩
    | some company => simp [objection]

theorem view_raises (hwhole : s.ledger.Whole) (id : Int) : Raises (s.view id)
    [objection (∀ row ∈ s.ledger.envelopes, row.id ≠ id) (.noSolicitation id)] := by
  refine .of_single fun e => ?_
  rcases hwhole.find?_cases id with ⟨hunknown, hfind⟩ | ⟨hknown, v, hfind⟩
  · simp only [Service.view, hfind]
    exact ⟨fun h => ⟨hunknown, (Except.error.inj h).symm⟩, fun h => congrArg _ h.2.symm⟩
  · simp only [Service.view, hfind]
    constructor
    · intro h
      cases h
    · rintro ⟨hunknown, -⟩
      obtain ⟨row, hrow, hid⟩ := List.any_eq_true.1 hknown
      exact absurd (of_decide_eq_true hid) (hunknown row hrow)

/-- What is looked at before the transition. -/
theorem checkChange_raises (hwhole : s.ledger.Whole) : Raises (s.checkChange r)
    [s.OutOfReach r,
      objection (s.directory.companyOf r.actor = .ok none) .userWithoutCompany,
      objection (∀ row ∈ s.ledger.envelopes, row.id ≠ r.id) (.noSolicitation r.id),
      objection (∀ status : Status, status.name ≠ Text.trim r.status)
        (.badRequest (.unknownStatus r.status)),
      objection (s.Foreign r) .otherCompany] := by
  refine companyOf_raises.bind fun company hcompany =>
    (view_raises hwhole r.id).bind fun v hview e => ?_
  have hforeign : s.Foreign r ↔ Role.ofCompanyCode company = .transmission ∧
      v.solicitation.companyCode ≠ company := by
    rw [Role.ofCompanyCode_eq_transmission_iff]
    constructor
    · rintro ⟨company', v', hcompany', hview', hforeign⟩
      cases (companyOf_eq_ok hcompany).symm.trans hcompany'
      cases (view_eq_ok hview).symm.trans hview'
      exact hforeign
    · intro hforeign
      exact ⟨company, v, companyOf_eq_ok hcompany, view_eq_ok hview, hforeign⟩
  split
  · rename_i hnone
    have hunknown : ∀ status : Status, status.name ≠ Text.trim r.status :=
      Named.ofName?_eq_none_iff.1 hnone
    rw [FirstOf.cons_of_exists ⟨_, hunknown, rfl⟩]
    exact ⟨fun h => ⟨hunknown, (Except.error.inj h).symm⟩, fun h => congrArg _ h.2.symm⟩
  · rename_i requested hrequested
    have hnone (e' : WorkflowError) : ¬ objection (∀ status : Status, status.name ≠
        Text.trim r.status) (.badRequest (.unknownStatus r.status)) e' :=
      fun h => h.1 requested (Named.ofName?_eq_some_iff.1 hrequested)
    rw [FirstOf.cons_of_forall hnone, FirstOf.single_iff, objection, hforeign]
    dsimp only
    split
    · rename_i hown
      exact ⟨fun h => ⟨hown, (Except.error.inj h).symm⟩, fun h => congrArg _ h.2.symm⟩
    · rename_i hown
      exact ⟨nofun, fun h => absurd h.1 hown⟩

/-! ## The transition -/

theorem Concerns.forbids_iff (h : s.Concerns r company v requested) {e : WorkflowError} :
    s.Forbids r e ↔ ∃ refusal, s.authority.check (.ofCompanyCode company) v.status requested
      v.createdAt s.now = .error refusal ∧ e = .refused refusal := by
  constructor
  · rintro ⟨company', v', requested', refusal, h', hcheck⟩
    obtain ⟨rfl, rfl, rfl⟩ := h.unique h'
    exact ⟨refusal, hcheck⟩
  · rintro ⟨refusal, hcheck⟩
    exact ⟨company, v, requested, refusal, h, hcheck⟩

theorem Concerns.refusesChange_iff (h : s.Concerns r company v requested) {e : WorkflowError} :
    s.RefusesChange r e ↔ ∃ fault, s.ledger.insertEvent r.id (some r.actor) requested
      (max s.now v.updatedAt) (r.justification.bind Text.filled?) = .error fault ∧
        e = .store fault := by
  constructor
  · rintro ⟨company', v', requested', fault, h', hinsert⟩
    obtain ⟨rfl, rfl, rfl⟩ := h.unique h'
    exact ⟨fault, hinsert⟩
  · rintro ⟨fault, hinsert⟩
    exact ⟨company, v, requested, fault, h, hinsert⟩

theorem Concerns.apply_raises (h : s.Concerns r company v requested) :
    Raises ((r.transition company requested).apply s.alone).1 [s.Forbids r, s.RefusesChange r] := by
  intro e
  cases hcheck : s.authority.check (.ofCompanyCode company) v.status requested v.createdAt s.now with
  | error refusal =>
    rw [Transition.apply_alone_of_refused (t := r.transition company requested) h.view hcheck,
      FirstOf.cons_of_exists ⟨_, h.forbids_iff.2 ⟨refusal, hcheck, rfl⟩⟩, h.forbids_iff, hcheck]
    simp [eq_comm]
  | ok granted =>
    have hallowed (e' : WorkflowError) : ¬ s.Forbids r e' := by
      rw [h.forbids_iff, hcheck]
      simp
    rw [Transition.apply_alone_of_granted (t := r.transition company requested) h.view hcheck,
      FirstOf.cons_of_forall hallowed, FirstOf.single_iff, h.refusesChange_iff]
    simp only [ChangeRequest.transition]
    cases s.ledger.insertEvent r.id (some r.actor) requested (max s.now v.updatedAt)
      (r.justification.bind Text.filled?) <;> simp [eq_comm]

theorem Concerns.apply_eq_ok (h : s.Concerns r company v requested) {applied : Applied} {p : Shared}
    (happly : (r.transition company requested).apply s.alone = (.ok applied, p)) :
    ∃ ledger, s.ledger.insertEvent r.id (some r.actor) requested (max s.now v.updatedAt)
        (r.justification.bind Text.filled?) = .ok (applied.eventId, ledger) ∧
      applied.source = v.status ∧ p = { s with ledger }.alone := by
  cases hcheck : s.authority.check (.ofCompanyCode company) v.status requested v.createdAt s.now with
  | error refusal =>
    rw [Transition.apply_alone_of_refused (t := r.transition company requested) h.view hcheck]
      at happly
    cases happly
  | ok granted =>
    rw [Transition.apply_alone_of_granted (t := r.transition company requested) h.view hcheck]
      at happly
    simp only [ChangeRequest.transition] at happly
    split at happly
    · cases happly
    · rename_i eventId ledger hinsert
      cases happly
      exact ⟨ledger, hinsert, rfl, rfl⟩

/-! ## The request -/

theorem changeStatus_fst (s : Service) (r : ChangeRequest) : (s.alone.changeStatus r).1 =
    s.checkChange r >>= fun p => (p.1.apply s.alone).1.map fun applied =>
      let after := (p.1.apply s.alone).2.service
      ⟨p.1.id, p.1.requested, (after.announce p.1.id p.1.actor .statusChanged
        (changedContent p.1 applied.source p.2) (after.directory.recipients p.2.companyCode)).1⟩ := by
  have hsame : s.alone.service.checkChange r = s.checkChange r := rfl
  rw [Shared.changeStatus, hsame]
  cases s.checkChange r with
  | error e => rfl
  | ok p =>
    obtain ⟨t, solicitation⟩ := p
    change _ = (t.apply s.alone).1.map _
    dsimp only
    cases t.apply s.alone with
    | mk result after => cases result <;> rfl

theorem changeStatus_raises (hwhole : s.ledger.Whole) : Raises (s.alone.changeStatus r).1
    (s.OutOfReach r :: s.changeObjections r ++ [s.RefusesChange r]) := by
  rw [changeStatus_fst]
  refine (checkChange_raises hwhole).bind fun p hp => ?_
  obtain ⟨company, v, requested, hconcerns, ht, -⟩ := concerns_of_checkChange hp
  rw [ht]
  exact hconcerns.apply_raises.map

theorem changeStatus_eq_error {e : WorkflowError} {after : Shared}
    (h : s.alone.changeStatus r = (.error e, after)) : after = s.alone := by
  simp only [Shared.changeStatus] at h
  split at h
  · cases h
    rfl
  · split at h
    · rename_i happly
      cases h
      -- with nobody else around, the service is the same at every reading of the clock
      obtain rfl | rfl | rfl := Transition.apply_eq_error happly <;> rfl
    · cases h

/-- What is objected to the request itself is neither a fault of the storage or the directory nor that
others act at the same time. -/
theorem kind_of_objection {e : WorkflowError} (h : FirstOf (s.changeObjections r) e) :
    e.kind ≠ .conflict .concurrent ∧ e.kind ≠ .store ∧ e.kind ≠ .collaborator := by
  obtain ⟨check, hmem, hcheck⟩ := h.exists_check
  simp only [changeObjections, List.mem_cons, List.not_mem_nil, or_false] at hmem
  rcases hmem with rfl | rfl | rfl | rfl | rfl
  · rw [hcheck.2]
    decide
  · rw [hcheck.2]
    exact ⟨nofun, nofun, nofun⟩
  · rw [hcheck.2]
    exact ⟨nofun, nofun, nofun⟩
  · rw [hcheck.2]
    decide
  · obtain ⟨company, v, requested, refusal, -, -, rfl⟩ := hcheck
    cases refusal <;> simp [WorkflowError.kind]

theorem kind_ne_concurrent {e : WorkflowError}
    (h : FirstOf (s.OutOfReach r :: s.changeObjections r ++ [s.RefusesChange r]) e) :
    e.kind ≠ .conflict .concurrent := by
  rw [List.cons_append, FirstOf.cons_iff, FirstOf.append_iff, FirstOf.single_iff] at h
  obtain ⟨outage, -, rfl⟩ | ⟨-, h | ⟨-, company, v, requested, fault, -, -, rfl⟩⟩ := h
  · nofun
  · exact (kind_of_objection h).1
  · nofun

/-- What a change makes of `s`, and its receipt: an event, which is the head and takes the place of
the one that was there in the view; and an update with the token that is given back, of which the
recipients are told, if it could be recorded. Nothing else is different. -/
structure Changed (s : Service) (r : ChangeRequest) (receipt : ChangeReceipt) (q : Service)
    (company : String) (v : View) (e : Event) : Prop where
  concerns : s.Concerns r company v receipt.status
  solicitationId : receipt.solicitationId = r.id
  event : e = ⟨e.eventId, r.id, some r.actor, receipt.status, max s.now v.updatedAt,
    r.justification.bind Text.filled?⟩
  eventId : nextId s.ledger.lastEvent (s.ledger.events.map EventRow.eventId) = .ok e.eventId
  head : q.ledger.head? r.id = some (EventRow.of e)
  view : q.ledger.find? r.id = .ok (some (v.after e))
  others : ∀ id, id ≠ r.id → q.ledger.find? id = s.ledger.find? id
  told : ∀ token, receipt.streamToken = some token → q.ledger.token = token ∧ q = { s with
    ledger := (s.ledger.withEvent e).withUpdate ⟨token, r.id, some r.actor, .statusChanged,
      changedContent (r.transition company receipt.status) v.status v.solicitation⟩
    bus := (s.bus.publish (.of token (s.directory.recipients v.solicitation.companyCode))).2 }
  untold : receipt.streamToken = none → q = { s with ledger := s.ledger.withEvent e }
  recorded : s.ledger.Open .update →
    Room s.ledger.lastUpdate (s.ledger.updates.map UpdateRow.streamId) 1 →
      ∃ token, receipt.streamToken = some token

/-- The event of a change is the newest of its solicitation, since its time does not go back. -/
theorem Concerns.found_after (h : s.Concerns r company v requested) {e : Event} {q : Service}
    (hid : e.solicitationId = r.id) (htime : v.updatedAt ≤ e.time)
    (hused : ∀ row ∈ s.ledger.events, row.eventId < e.eventId)
    (hsame : (s.ledger.withEvent e).SameRows q.ledger) :
    q.ledger.head? r.id = some (EventRow.of e) ∧ q.ledger.find? r.id = .ok (some (v.after e)) ∧
      ∀ id, id ≠ r.id → q.ledger.find? id = s.ledger.find? id := by
  have hwritten : q.ledger.written r.id = s.ledger.written r.id ++ [EventRow.of e] := by
    rw [← written_withEvent hid]
    exact congrArg (List.filter _) hsame.events
  obtain ⟨hhead, hfind⟩ := find?_of_newest h.view htime hused hsame.envelopes hwritten
  refine ⟨hhead, hfind, fun id hother => ?_⟩
  rw [hsame.find?]
  exact find?_withEvent_of_ne fun heq => hother (heq.symm.trans hid)

theorem changed_of_changeStatus {receipt : ChangeReceipt} {after : Shared}
    (h : s.alone.changeStatus r = (.ok receipt, after)) :
    ∃ q company v e, after = q.alone ∧ s.Changed r receipt q company v e := by
  have hservice : s.alone.service = s := rfl
  simp only [Shared.changeStatus, hservice] at h
  split at h
  · cases h
  · rename_i t solicitation hcheck
    obtain ⟨company, v, requested, hconcerns, rfl, rfl, -⟩ := concerns_of_checkChange hcheck
    split at h
    · cases h
    · rename_i applied p happly
      obtain ⟨ledger, hinsert, hsource, rfl⟩ := hconcerns.apply_eq_ok happly
      have hnext := nextId_of_insertEvent hinsert
      obtain ⟨rfl, hknown, -, hused⟩ := insertEvent_eq_ok hinsert
      let e : Event := ⟨applied.eventId, r.id, some r.actor, requested, max s.now v.updatedAt,
        r.justification.bind Text.filled?⟩
      let p : Service := { s with ledger := s.ledger.withEvent e }
      let content := changedContent (r.transition company requested) v.status v.solicitation
      let recipients := s.directory.recipients v.solicitation.companyCode
      have hrecorded : s.ledger.Open .update →
          Room s.ledger.lastUpdate (s.ledger.updates.map UpdateRow.streamId) 1 →
          ∃ token l, p.ledger.record r.id (some r.actor) .statusChanged content = .ok (token, l) := by
        intro hopen hroom
        obtain ⟨token, hrecord, -⟩ := exists_record (l := p.ledger) (n := 0)
          (hopen.of_guards rfl) hknown hroom (some r.actor) .statusChanged content
        exact ⟨token, _, hrecord⟩
      have hfound := hconcerns.found_after (e := e) rfl (Int.le_max_right ..) hused
        (p.announce_sameRows r.id (some r.actor) .statusChanged content recipients)
      rw [hsource] at h
      change (Except.ok (⟨r.id, requested, (p.announce r.id (some r.actor) .statusChanged content
        recipients).1⟩ : ChangeReceipt), (p.announce r.id (some r.actor) .statusChanged content
          recipients).2.alone) = _ at h
      cases hrecord : p.ledger.record r.id (some r.actor) .statusChanged content with
      | error fault =>
        rw [announce_of_refused recipients hrecord] at h hfound
        cases h
        refine ⟨p, company, v, e, rfl, hconcerns, rfl, rfl, hnext, hfound.1, hfound.2.1, hfound.2.2,
          nofun, fun _ => rfl, fun hopen hroom => ?_⟩
        obtain ⟨token, l, htaken⟩ := hrecorded hopen hroom
        cases hrecord.symm.trans htaken
      | ok recorded =>
        obtain ⟨token, l⟩ := recorded
        rw [announce_of_record recipients hrecord] at h hfound
        cases h
        obtain ⟨rfl, -, habove⟩ := record_eq_withUpdate hrecord
        refine ⟨_, company, v, e, rfl, hconcerns, rfl, rfl, hnext, hfound.1, hfound.2.1, hfound.2.2,
          fun token' htoken => ?_, nofun, fun _ _ => ⟨token, rfl⟩⟩
        cases htoken
        exact ⟨token_withUpdate habove, rfl⟩

/-- Without interference, and if every solicitation can be read and has events, a request for a change
is answered with the first objection to it, and never as concurrent; whatever the error, it leaves
everything as it was. It is carried out if there is none, by one event and one update; the update is
missing if it could not be recorded. The storage has nothing to object if it takes every event and has
an id left. -/
theorem changeStatus_exact (s : Service) (r : ChangeRequest) (hwhole : s.ledger.Whole) :
    ∃ (answer : Except WorkflowError ChangeReceipt) (q : Service),
      s.alone.changeStatus r = (answer, q.alone) ∧
      (∀ e, answer = .error e ↔
        FirstOf (s.OutOfReach r :: s.changeObjections r ++ [s.RefusesChange r]) e) ∧
      (∀ e, answer = .error e → q = s ∧ e.kind ≠ .conflict .concurrent) ∧
      (∀ receipt, answer = .ok receipt → ∃ company v e, s.Changed r receipt q company v e) ∧
      (s.ledger.Open .event →
        Room s.ledger.lastEvent (s.ledger.events.map EventRow.eventId) 1 →
        ∀ e, ¬ s.RefusesChange r e) := by
  have hraises := changeStatus_raises (r := r) hwhole
  have hopen : s.ledger.Open .event →
      Room s.ledger.lastEvent (s.ledger.events.map EventRow.eventId) 1 →
      ∀ e, ¬ s.RefusesChange r e := by
    rintro hopen hroom e ⟨company, v, requested, fault, hconcerns, hinsert, -⟩
    exact insertEvent_ne_error hopen hroom (hasEnvelope_of_find? hconcerns.view) hinsert
  obtain ⟨answer, after, h⟩ : ∃ answer after, s.alone.changeStatus r = (answer, after) :=
    ⟨_, _, rfl⟩
  rw [h] at hraises
  cases answer with
  | error e =>
    obtain rfl := changeStatus_eq_error h
    refine ⟨.error e, s, h, hraises, fun e' he' => ⟨rfl, ?_⟩, nofun, hopen⟩
    exact kind_ne_concurrent ((hraises e').1 he')
  | ok receipt =>
    obtain ⟨q, company, v, e, rfl, hchanged⟩ := changed_of_changeStatus h
    refine ⟨.ok receipt, q, h, hraises, nofun, fun receipt' hreceipt => ?_, hopen⟩
    cases hreceipt
    exact ⟨company, v, e, hchanged⟩

/-- A service with a reactor of CTEEP that was asked for at 100, and the last ids that were given out;
its clock is slow. -/
def asked (lastEvent lastUpdate : Int) : Service :=
  let s := holding [⟨1, 1, some "ana", .new, 100, none⟩] 90
  { s with
    ledger := { s.ledger with lastEvent, lastUpdate }
    directory := ⟨⟨[], [], [("ana", "ONS"), ("rui", "CHESF")]⟩, []⟩ }

theorem asked_whole (lastEvent lastUpdate : Int) : (asked lastEvent lastUpdate).ledger.Whole := by
  intro row hrow
  rw [List.mem_singleton.1 hrow]
  exact ⟨by cbv, _, by cbv⟩

/-- The operator cancels what it has asked for. The event is not older than the one before it. -/
theorem changeStatus_exact_of_asked :
    let s := asked 1 0
    s.ledger.Whole ∧ ∃ q : Service,
      s.alone.changeStatus ⟨1, "ana", " CANCELED ", some " gone\n"⟩ =
        (.ok ⟨1, .canceled, some 1⟩, q.alone) ∧
      q.ledger.head? 1 = some (EventRow.of ⟨2, 1, some "ana", .canceled, 100, some "gone"⟩) ∧
      (∀ id, id ≠ 1 → q.ledger.find? id = s.ledger.find? id) ∧ q.ledger.token = 1 := by
  intro s
  have hwhole : s.ledger.Whole := asked_whole 1 0
  refine ⟨hwhole, ?_⟩
  let r : ChangeRequest := ⟨1, "ana", " CANCELED ", some " gone\n"⟩
  have hanswer : (s.alone.changeStatus r).1 = .ok ⟨1, .canceled, some 1⟩ := by cbv
  obtain ⟨answer, q, hchange, -, -, hok, -⟩ := changeStatus_exact s r hwhole
  rw [hchange] at hanswer
  obtain rfl : answer = .ok ⟨1, .canceled, some 1⟩ := hanswer
  obtain ⟨company, v, e, hchanged⟩ := hok _ rfl
  have hid : e.eventId = 2 := Except.ok.inj (hchanged.eventId.symm.trans (by decide))
  have htime : v.updatedAt = 100 := by
    have hfind : (s.ledger.find? 1).map (Option.map View.updatedAt) = .ok (some 100) := by cbv
    rw [hchanged.concerns.view] at hfind
    exact Option.some.inj (Except.ok.inj hfind)
  have he : e = ⟨2, 1, some "ana", .canceled, 100, some "gone"⟩ := by
    rw [hchanged.event, hid, htime]
    decide
  exact ⟨q, hchange, he ▸ hchanged.head, hchanged.others, (hchanged.told 1 rfl).1⟩

/-- The directory is out of order, or no id of an event is left, or no token: there is nothing to
object to the request itself, but in the first two cases it is not carried out, and in the third it is
without an update. -/
theorem not_changed_of_outage :
    let r : ChangeRequest := ⟨1, "ana", "CANCELED", none⟩
    let lost : Service :=
      { asked 1 0 with directory := ⟨(asked 1 0).directory.registry, [.companyOf]⟩ }
    let full := asked Text.Range.signed.hi 0
    let mute := asked 1 Text.Range.signed.hi
    (lost.ledger.Whole ∧ full.ledger.Whole ∧ mute.ledger.Whole) ∧
      (∃ e, (lost.alone.changeStatus r).1 = .error e ∧ ¬ FirstOf (lost.changeObjections r) e) ∧
      (∃ e, (full.alone.changeStatus r).1 = .error e ∧ ¬ FirstOf (full.changeObjections r) e) ∧
      (mute.alone.changeStatus r).1 = .ok ⟨1, .canceled, none⟩ ∧
      (mute.alone.changeStatus r).2.service.ledger.updates = [] := by
  intro r lost full mute
  have hlost : (lost.alone.changeStatus r).1 = .error (.unavailable ⟨.companyOf⟩) := by cbv
  have hfull : (full.alone.changeStatus r).1 = .error (.store .idsUsedUp) := by cbv
  refine ⟨⟨asked_whole 1 0, asked_whole _ 0, asked_whole 1 _⟩, ⟨_, hlost, fun h => ?_⟩,
    ⟨_, hfull, fun h => ?_⟩, by cbv, by cbv⟩
  · exact (kind_of_objection h).2.2 rfl
  · exact (kind_of_objection h).2.1 rfl

end Service

end GridDispatch
