import GridDispatch.Proofs.Lifecycle.Journal
import GridDispatch.Proofs.Transition

/-!
# Runs of requests in any order

Requests run side by side, and each takes effect in steps: it reads, and later it writes in one go.
What it has read may be any service that there was before, for others go on meanwhile. A `Run` is a
course of such steps from a service without solicitations, in any order. In each of them the events
form a journal in order (`Run.journal`): every solicitation lives by the rules, whatever users asked
for, however the clock was moved and whoever was assigned to which company.
-/

namespace GridDispatch

/-- One step from `p` on, by something that may have read any service of `seen`. -/
inductive Step (seen : List Service) (p : Service) : Cause → Service → Prop
  /-- The clock, the directory, the settings, the bus or the updates change. -/
  | outside {p' : Service} : p.ledger.SameRows p'.ledger → Step seen p .outside p'
  /-- A batch that was found right is written. -/
  | submit {q : Service} {requesterId companyCode groupId : String} {batch : Batch}
      {news : List NewSolicitation} {ids : List Int} {ledger : Ledger} :
    q ∈ seen → q.checkBatch companyCode batch = .ok news →
    p.ledger.createBatch ⟨groupId, requesterId, batch.creationTotalTime, p.now⟩ news .new p.now =
      .ok (ids, ledger) →
    Step seen p .submit { p with ledger }
  /-- A change that a user asked for, and that was found right in `q`, is attempted with the standing
  that was read in `q'`. -/
  | change {q q' : Service} {r : ChangeRequest} {t : Transition} {solicitation : Solicitation}
      {applied : Applied} {s' : Shared} :
    q ∈ seen → q.checkChange r = .ok (t, solicitation) → q' ∈ seen →
    t.attempt ⟨q', [fun _ => p]⟩ = (.ok applied, s') →
    Step seen p (.change q r) s'.service
  /-- The sweep attempts to mark a solicitation late, with the standing that was read in `q`. -/
  | sweep {q : Service} {id : Int} {applied : Applied} {s' : Shared} :
    q ∈ seen → (Transition.late id).attempt ⟨q, [fun _ => p]⟩ = (.ok applied, s') →
    Step seen p .sweep s'.service

/-- `p` comes at the end of a course of steps over `past`, the latest first, in which the entries
were written. -/
inductive Run : Service → List Service → List Entry → Prop
  | start {p : Service} : p.ledger.envelopes = [] → p.ledger.events = [] → Run p [] []
  | step {p p' : Service} {past : List Service} {entries : List Entry} {cause : Cause}
      {new : List Event} :
    Run p past entries → Step (p :: past) p cause p' →
    p'.ledger.events = p.ledger.events ++ new.map EventRow.of →
    Run p' (p :: past) (entries ++ new.map fun e => ⟨e, cause⟩)

/-! ## What each step leaves in order -/

/-- What is known of a service that was there before. -/
structure Before (q p : Service) : Prop where
  numbered : q.ledger.Numbered
  onward : q.ledger.Onward p.ledger
  envelopes : q.ledger.envelopes ⊆ p.ledger.envelopes

variable {p p' q : Service} {seen past : List Service} {entries : List Entry} {cause : Cause}

theorem Before.trans (h : Before q p) (h' : Before p p') : Before q p' :=
  ⟨h.numbered, h.onward.trans h'.onward, List.Subset.trans h.envelopes h'.envelopes⟩

/-- The head that a transition replaces is the last event of a solicitation that is there. -/
theorem Ledger.Journal.last_of_replaces (h : p.ledger.Journal entries) {t : Transition}
    {head e : Event} (hreplaces : t.Replaces p head e p') :
    ∃ row ∈ p.ledger.envelopes, row.id = t.id ∧
      ∃ a, (about row.id entries).getLast? = some a ∧ a.event = head := by
  obtain ⟨log, hlog, hhead⟩ := hreplaces.logs
  obtain ⟨hevent, hid⟩ := Ledger.mem_written.1 (hlog.mem_written (mem_of_newest hhead))
  rw [h.events] at hevent
  obtain ⟨x, hx, hof⟩ := List.mem_map.1 hevent
  obtain ⟨row, hrow, hrowid⟩ := h.known x hx
  have hxid : x.event.solicitationId = t.id :=
    (congrArg EventRow.solicitationId hof).trans hid
  have hsame : row.id = t.id := hrowid.trans hxid
  exact ⟨row, hrow, hsame, h.getLast?_of_newest hrow (hsame ▸ hlog) hhead⟩

/-- A transition that replaces the head adds to the life of its solicitation. -/
theorem Ledger.Journal.replaces (h : p.ledger.Journal entries) {t : Transition} {head e : Event}
    (hreplaces : t.Replaces p head e p')
    (hfollows : ∀ row ∈ p.ledger.envelopes, row.id = t.id → ∀ a : Entry, a.event = head →
      Follows row.companyCode a ⟨e, cause⟩) :
    p'.ledger.Journal (entries ++ [⟨e, cause⟩]) := by
  obtain ⟨row, hrow, hsame, a, hlast, ha⟩ := h.last_of_replaces hreplaces
  rw [hreplaces.wrote]
  exact h.withEvent (x := ⟨e, cause⟩) hrow (hreplaces.solicitationId_eq.trans hsame.symm)
    hreplaces.ungiven hlast (hfollows row hrow hsame a ha)

/-- An attempt with a standing that was read before replaces the head. -/
theorem Before.attempt_replaces (h : Before q p) {t : Transition} {applied : Applied} {s' : Shared}
    (hattempt : t.attempt ⟨q, [fun _ => p]⟩ = (.ok applied, s')) :
    ∃ head e, t.Replaces p head e s'.service := by
  obtain ⟨head, e, hreplaces, -⟩ := t.attempt_replaces h.numbered h.onward hattempt
  exact ⟨head, e, hreplaces⟩

theorem Transition.Replaces.envelopes {t : Transition} {head e : Event}
    (h : t.Replaces p head e p') : p'.ledger.envelopes = p.ledger.envelopes := by
  rw [h.wrote]
  rfl

/-- What a request asks for follows the head that it replaces. -/
theorem follows_of_change (h : p.ledger.Journal entries) (hq : Before q p) {r : ChangeRequest}
    {t : Transition} {solicitation : Solicitation}
    (hcheck : q.checkChange r = .ok (t, solicitation)) {head e : Event}
    (hreplaces : t.Replaces p head e p') {row : EnvelopeRow} (hrow : row ∈ p.ledger.envelopes)
    (hid : row.id = t.id) {a : Entry} (ha : a.event = head) :
    Follows row.companyCode a ⟨e, .change q r⟩ := by
  obtain ⟨company, requested, hcompany, hrequested, rfl, row₀, hrow₀, hid₀, -, hown⟩ :=
    Service.checkChange_eq_ok hcheck
  have hsame : row₀ = row :=
    List.inj_on_of_nodup_map h.nodup (hq.envelopes hrow₀) hrow (hid₀.trans hid.symm)
  rw [hsame] at hown
  rw [hreplaces.event]
  refine .change hcompany hrequested ?_ ?_
  · exact ha ▸ entitled_of_role hreplaces.allowed hown
  · exact ha ▸ hreplaces.time_le

theorem follows_of_late {id : Int} {head e : Event}
    (hreplaces : (Transition.late id).Replaces p head e p') {owner : String} {a : Entry}
    (ha : a.event = head) : Follows owner a ⟨e, .sweep⟩ := by
  rw [hreplaces.event]
  refine .late ?_ ?_
  · exact ha ▸ Role.eq_accepted_of_late hreplaces.allowed
  · exact ha ▸ hreplaces.time_le

/-- Each step writes events that go on with the lives of the solicitations. -/
theorem Step.journal (h : p.ledger.Journal entries) (hseen : ∀ q ∈ seen, Before q p)
    (hstep : Step seen p cause p') :
    ∃ new : List Event, p'.ledger.events = p.ledger.events ++ new.map EventRow.of ∧
      p'.ledger.Journal (entries ++ new.map fun e => ⟨e, cause⟩) ∧ Before p p' := by
  cases hstep with
  | outside hsame =>
    refine ⟨[], by simp [hsame.events], by simpa using h.sameRows hsame, h.numbered, ?_, ?_⟩
    · exact .of_events hsame.events hsame.lastEvent
    · exact hsame.envelopes ▸ List.Subset.refl _
  | submit _ _ hbatch =>
    obtain ⟨l, hgroup, henter⟩ := bind_eq_ok_iff.1 hbatch
    have hsame : p.ledger.SameRows l := by
      rw [Ledger.insertGroup_eq_ok hgroup]
      exact ⟨rfl, rfl, rfl, rfl⟩
    obtain ⟨new, hevents, hjournal, honward, hsub⟩ := (h.sameRows hsame).enterAll henter
    refine ⟨new, hsame.events ▸ hevents, hjournal, h.numbered, ?_, hsame.envelopes ▸ hsub⟩
    exact (Ledger.Onward.of_events hsame.events hsame.lastEvent).trans honward
  | change hq hcheck hq' hattempt =>
    obtain ⟨head, e, hreplaces⟩ := (hseen _ hq').attempt_replaces hattempt
    refine ⟨[e], by rw [hreplaces.wrote]; rfl, ?_, h.numbered, hreplaces.onward, ?_⟩
    · exact h.replaces hreplaces fun row hrow hid a ha =>
        follows_of_change h (hseen _ hq) hcheck hreplaces hrow hid ha
    · exact hreplaces.envelopes ▸ List.Subset.refl _
  | sweep hq hattempt =>
    obtain ⟨head, e, hreplaces⟩ := (hseen _ hq).attempt_replaces hattempt
    refine ⟨[e], by rw [hreplaces.wrote]; rfl, ?_, h.numbered, hreplaces.onward, ?_⟩
    · exact h.replaces hreplaces fun row _ _ a ha => follows_of_late hreplaces ha
    · exact hreplaces.envelopes ▸ List.Subset.refl _

/-! ## What holds in every run -/

namespace Run

theorem journal_start (henvelopes : p.ledger.envelopes = []) (hevents : p.ledger.events = []) :
    p.ledger.Journal [] where
  events := hevents
  ids := .nil
  le_last := List.forall_mem_nil _
  known := List.forall_mem_nil _
  nodup := by simp [henvelopes]
  life := by simp [henvelopes]

/-- The events form a journal in order, and they go on from every service before. -/
theorem journal (h : Run p past entries) :
    p.ledger.Journal entries ∧ ∀ q ∈ p :: past, Before q p := by
  induction h with
  | start henvelopes hevents =>
    have hjournal := journal_start henvelopes hevents
    refine ⟨hjournal, fun q hq => ?_⟩
    rw [List.mem_singleton.1 hq]
    exact ⟨hjournal.numbered, .refl _, List.Subset.refl _⟩
  | step _ hstep hnew ih =>
    obtain ⟨hjournal, hbefore⟩ := ih
    obtain ⟨written, hevents, hjournal', hlast⟩ := hstep.journal hjournal hbefore
    have hsame : written = _ := List.map_injective_iff.2 EventRow.of_injective
      (List.append_cancel_left (hevents.symm.trans hnew))
    rw [hsame] at hjournal'
    refine ⟨hjournal', fun q hq => ?_⟩
    rcases List.mem_cons.1 hq with rfl | hold
    · exact ⟨hjournal'.numbered, .refl _, List.Subset.refl _⟩
    · exact (hbefore q hold).trans hlast

/-- No step that can be taken is left out for want of its events. -/
theorem take (h : Run p past entries) (hstep : Step (p :: past) p cause p') :
    ∃ entries', Run p' (p :: past) entries' := by
  obtain ⟨hjournal, hbefore⟩ := h.journal
  obtain ⟨new, hevents, -, -⟩ := hstep.journal hjournal hbefore
  exact ⟨_, h.step hstep hevents⟩

/-- A request that wrote an event was resolved in a service of the run. -/
theorem resolved_mem (h : Run p past entries) {x : Entry} (hx : x ∈ entries) {r : ChangeRequest}
    (hcause : x.cause = .change q r) : q ∈ past := by
  induction h with
  | start => cases hx
  | step _ hstep _ ih =>
    rcases List.mem_append.1 hx with hold | hnew
    · exact List.mem_cons_of_mem _ (ih hold)
    · obtain ⟨e, -, rfl⟩ := List.mem_map.1 hnew
      cases hcause
      cases hstep with
      | change hq => exact hq

end Run

end GridDispatch
