import GridDispatch.Proofs.Listing.Paging
import GridDispatch.Proofs.Progress
import GridDispatch.Proofs.Recount
import GridDispatch.Proofs.Settings
import GridDispatch.Proofs.Submission
import GridDispatch.Proofs.LateSweep
import Mathlib.Data.Int.Interval

/-!
# Arithmetic that fits

Main statement: `Run.exact`. Under settings that were loaded, and with a clock that never shows a
time before zero but may otherwise jump as it likes, no difference of times leaves 64 bits, and
every list has as many rows as its limit lets through. What carries it is that the rows of the
ledger stay regular (`Run.regular`): an event has a time of the clock or of an event before it, and
ids are given out from one on.
-/

namespace GridDispatch

open Ledger

/-- A service under the settings `c`, with a clock that shows no time before zero, and with ids that
are counted from one on. -/
structure Service.Under (c : Settings) (p : Service) : Prop where
  settings : p.settings = c
  now : 0 ≤ p.now ∧ p.now ≤ Text.Range.signed.hi
  counted : 0 ≤ p.ledger.lastEnvelope

/-- The rows are such as requests write under a clock from zero on. -/
structure Ledger.Regular (l : Ledger) : Prop where
  events : ∀ row ∈ l.events, ∃ e, row = EventRow.of e ∧ 0 ≤ e.time ∧ e.time ≤ Text.Range.signed.hi
  envelopes : ∀ row ∈ l.envelopes, row.Written
  ids : ∀ row ∈ l.envelopes, 1 ≤ row.id ∧ row.id ≤ Text.Range.signed.hi

/-! ## Services under settings -/

theorem Service.under_covers (c : Settings) : Covers fun p p' => p.Under c → p'.Under c where
  refl _ := id
  trans h h' := h' ∘ h
  createBatch := by
    intro p g news status time ids ledger hbatch h
    obtain ⟨entered, -, -, rfl, hids, -⟩ := createBatch_eq_ok hbatch
    refine ⟨h.settings, h.now, ?_⟩
    change 0 ≤ (entered.map Entered.id).getLastD p.ledger.lastEnvelope
    have hcounted := h.counted
    rcases hlast : (entered.map Entered.id).getLast? with _ | i
    · rwa [List.getLastD_eq_getLast?, hlast]
    · have hi := (hids.above i (List.mem_of_getLast? hlast)).1
      rw [List.getLastD_eq_getLast?, hlast, Option.getD_some]
      omega
  appendIfCurrent := by
    intro p id eventId time seen actor status justification ledger happend h
    obtain ⟨rfl, -⟩ := insertEvent_eq_ok (appendIfCurrent_eq_ok happend).2
    exact ⟨h.settings, h.now, h.counted⟩
  record := by
    intro p id token userId kind content ledger bus _ hrecord h
    obtain ⟨rfl, -⟩ := record_eq_withUpdate hrecord
    exact ⟨h.settings, h.now, h.counted⟩

/-! ## Regular ledgers -/

namespace Ledger.Regular

variable {l l' : Ledger} {p q : Service}

theorem sameRows (h : l.Regular) (hsame : l.SameRows l') : l'.Regular where
  events := hsame.events ▸ h.events
  envelopes := hsame.envelopes ▸ h.envelopes
  ids := hsame.envelopes ▸ h.ids

theorem withEvent (h : l.Regular) {e : Event} (he : 0 ≤ e.time ∧ e.time ≤ Text.Range.signed.hi) :
    (l.withEvent e).Regular where
  events := List.forall_mem_append.2 ⟨h.events, List.forall_mem_singleton.2 ⟨e, rfl, he⟩⟩
  envelopes := h.envelopes
  ids := h.ids

theorem withEntered (h : l.Regular) {g : Group} {status : Status} {time : Int}
    {entered : List Entered} (htime : 0 ≤ time ∧ time ≤ Text.Range.signed.hi)
    (hfits : ∀ x ∈ entered, x.new.params.Fits x.new.equipment)
    (hids : ∀ x ∈ entered, 1 ≤ x.id ∧ x.id ≤ Text.Range.signed.hi) :
    ((l.withGroup g).withEntered g status time entered).Regular where
  events := by
    refine List.forall_mem_append.2 ⟨h.events, List.forall_mem_map.2 fun x _ => ?_⟩
    exact ⟨x.event g status time, rfl, htime⟩
  envelopes := by
    refine List.forall_mem_append.2 ⟨h.envelopes, List.forall_mem_map.2 fun x hx => ?_⟩
    exact ⟨x.id, x.new, g.requesterId, some g.groupId, hfits x hx, rfl⟩
  ids := List.forall_mem_append.2 ⟨h.ids, List.forall_mem_map.2 hids⟩

/-- The dates of a standing are times of events. -/
theorem dates (h : l.Regular) {id : Int} {state : State} (hstate : l.state? id = .ok (some state)) :
    (0 ≤ state.createdAt ∧ state.createdAt ≤ Text.Range.signed.hi) ∧
      0 ≤ state.updatedAt ∧ state.updatedAt ≤ Text.Range.signed.hi := by
  obtain ⟨log, hlog, hof⟩ := state?_eq_ok_iff.1 hstate
  have htimes : ∀ e ∈ log, 0 ≤ e.time ∧ e.time ≤ Text.Range.signed.hi := by
    intro e he
    obtain ⟨e', heq, htime⟩ := h.events _ (mem_written.1 (hlog.mem_written he)).1
    rwa [EventRow.of_injective heq]
  obtain ⟨head, hhead, -, hupdated, -⟩ := State.newest_of_ofEvents? hof
  obtain ⟨first, hfirst, hcreated, -⟩ := State.oldest_of_ofEvents? hof
  rw [← hcreated, hupdated]
  exact ⟨htimes first hfirst, htimes head (mem_of_newest hhead)⟩

/-- A transition writes at the time of the clock, or of the head if that is later. -/
theorem attempt (hq : q.ledger.Regular) (hp : p.ledger.Regular)
    (hnow : 0 ≤ p.now ∧ p.now ≤ Text.Range.signed.hi) {t : Transition} {applied : Applied}
    {s' : Shared} (h : t.attempt ⟨q, [fun _ => p]⟩ = (.ok applied, s')) :
    s'.service.ledger.Regular := by
  obtain ⟨state, ledger, ⟨hstate, -⟩, -, happend, rfl⟩ := Transition.attempt_eq_ok h
  obtain ⟨rfl, -⟩ := insertEvent_eq_ok (appendIfCurrent_eq_ok happend).2
  obtain ⟨-, hupdated⟩ := hq.dates hstate
  refine hp.withEvent ?_
  change 0 ≤ max p.now state.updatedAt ∧ max p.now state.updatedAt ≤ Text.Range.signed.hi
  omega

/-- Ids from one on leave less rows than it takes to lift the limit of a page. -/
theorem length_lt (h : l.Regular) (hnodup : (l.envelopes.map EnvelopeRow.id).Nodup) :
    l.envelopes.length < noLimit := by
  have hsub : (l.envelopes.map EnvelopeRow.id).toFinset ⊆
      Finset.Icc 1 Text.Range.signed.hi := by
    intro i hi
    obtain ⟨row, hrow, rfl⟩ := List.mem_map.1 (List.mem_toFinset.1 hi)
    exact Finset.mem_Icc.2 (h.ids row hrow)
  have hcard := Finset.card_le_card hsub
  rw [List.toFinset_card_of_nodup hnodup, List.length_map, Int.card_Icc] at hcard
  have hhi : (Text.Range.signed.hi + 1 - 1).toNat = 9223372036854775807 := rfl
  rw [hhi] at hcard
  exact Nat.lt_of_le_of_lt hcard (by decide)

end Ledger.Regular

/-! ## Runs under settings -/

section Runs

variable {c : Settings} {p p' q : Service} {seen past : List Service} {entries : List Entry}
  {cause : Cause}

theorem Step.regular (hstep : Step seen p cause p') (hseen : ∀ q ∈ seen, q.ledger.Regular)
    (hp : p.ledger.Regular) (hunder : p.Under c) : p'.ledger.Regular := by
  cases hstep with
  | outside hsame => exact hp.sameRows hsame
  | submit _ hcheck hbatch =>
    obtain ⟨entered, rfl, -, rfl, hids, -⟩ := createBatch_eq_ok hbatch
    obtain ⟨-, -, -, hvalid, -⟩ := Service.checkBatch_eq_ok_iff.1 hcheck
    refine hp.withEntered hunder.now (fun x hx => ?_) fun x hx => ?_
    · obtain ⟨raw, -, hvalidated⟩ := (exists_of_forall₂ hvalid).2 x.new (List.mem_map_of_mem hx)
      exact fits_of_validate hvalidated
    · have habove := (hids.above x.id (List.mem_map_of_mem hx)).1
      have hcounted := hunder.counted
      exact ⟨by omega, hids.bound x.id (List.mem_map_of_mem hx)⟩
  | change _ _ hq hattempt => exact (hseen _ hq).attempt hp hunder.now hattempt
  | sweep hq hattempt => exact (hseen _ hq).attempt hp hunder.now hattempt

namespace Run

theorem regular (h : Run p past entries) (hunder : ∀ q ∈ p :: past, q.Under c) :
    ∀ q ∈ p :: past, q.ledger.Regular := by
  induction h with
  | start henvelopes hevents =>
    refine List.forall_mem_singleton.2 ⟨?_, ?_, ?_⟩
    · simp [hevents]
    · simp [henvelopes]
    · simp [henvelopes]
  | step _ hstep _ ih =>
    obtain ⟨-, hbefore⟩ := List.forall_mem_cons.1 hunder
    have hregular := ih hbefore
    refine List.forall_mem_cons.2 ⟨?_, hregular⟩
    exact hstep.regular hregular (hregular _ List.mem_cons_self) (hbefore _ List.mem_cons_self)

/-- What was there before is the end of a run, too. -/
theorem of_mem (h : Run p past entries) (hq : q ∈ p :: past) :
    ∃ past' entries', Run q past' entries' := by
  induction h with
  | start henvelopes hevents =>
    rw [List.mem_singleton.1 hq]
    exact ⟨[], [], .start henvelopes hevents⟩
  | step hrun hstep hnew ih =>
    rcases List.mem_cons.1 hq with rfl | hold
    · exact ⟨_, _, hrun.step hstep hnew⟩
    · exact ih hold

/-- All that is there can be read, at any time. -/
theorem decodes (h : Run p past entries) (hunder : ∀ q ∈ p :: past, q.Under c)
    (hq : q ∈ p :: past) : q.ledger.Decodes := by
  obtain ⟨past', entries', hrun⟩ := h.of_mem hq
  have hjournal := hrun.journal.1
  have hregular := h.regular hunder q hq
  have hevents : q.ledger.events = (entries'.map Entry.event).map EventRow.of := by
    rw [hjournal.events, List.map_map]
    rfl
  exact decodes_of_written hregular.envelopes hevents hjournal.nodup
    (hregular.length_lt hjournal.nodup)

end Run

/-! ## What is exact -/

/-- The arithmetic of requests that work on these services under the settings `c`. -/
structure Settings.Exact (c : Settings) (seen : List Service) : Prop where
  /-- The time since a creation that was read before fits. -/
  age : ∀ q ∈ seen, ∀ q' ∈ seen, ∀ id state, q.ledger.state? id = .ok (some state) →
    Text.Range.signed.has (q'.now - state.createdAt) = true
  /-- A transition is too late exactly if it is an acceptance that could be made but for the time,
  and that time is the true difference. -/
  expired : ∀ q ∈ seen, ∀ q' ∈ seen, ∀ (t : Transition) (passed window : Int),
    (t.attempt ⟨q, [fun _ => q']⟩).1 = .error (.refused (.expired passed window)) ↔
      ∃ state, q.ledger.state? t.id = .ok (some state) ∧ t.requested = .accepted ∧
        t.requested ≠ state.status ∧ t.requested ∈ t.role.targets state.status ∧
        window = c.acceptanceWindow ∧ passed = q'.now - state.createdAt ∧ window < passed
  /-- A sweep looks for what was accepted before the true difference. -/
  cutoff : ∀ q ∈ seen, Text.Range.signed.has (q.now - c.lateAfter) = true ∧
    ∀ s : Shared, s.later.service = q →
      s.markLate = s.later.markEach (q.ledger.stale (q.now - c.lateAfter))
  limit : ∀ asked : Option Nat,
    clamp? 1 c.listMaxLimit (asked.getD c.listDefaultLimit) = some (c.listLimit asked) ∧
      1 ≤ c.listLimit asked ∧ c.listLimit asked ≤ c.listMaxLimit
  /-- No list request comes to limits that are crossed. -/
  uncrossed : ∀ q ∈ seen, ∀ viewer (r : ListRequest), q.list viewer r ≠ .error .crossedLimits
  /-- A list is shown to who may make the request, and has as many rows as the viewer may see of what
  is asked for, or as the limit lets through. -/
  rows : ∀ q ∈ seen, ∀ viewer (r : ListRequest) response, q.list viewer r = .ok response →
    q.Permits viewer r ∧ ∃ hints all, readHints r.sort = .ok hints ∧ q.Lists viewer r hints all ∧
      response.solicitations = all.take (c.listLimit r.limit) ∧
      response.solicitations.length = min (c.listLimit r.limit) all.length ∧
      response.count = response.solicitations.length
  /-- A valid request within the bounds of the storage is answered with a list. -/
  listed : ∀ q ∈ seen, ∀ viewer (r : ListRequest) hints,
    q.Permits viewer r → readHints r.sort = .ok hints →
    ListQuery.values r.filter ⟨r.fromId, c.listLimit r.limit⟩ ≤ valueBound →
    SortHint.keyCount (SortHint.orStatus hints) ≤ keyBound →
    ∃ response, q.list viewer r = .ok response

/-! ## Runs are exact -/

theorem Service.Under.age_fits (h : p.Under c) (hq : q.ledger.Regular) {id : Int} {state : State}
    (hstate : q.ledger.state? id = .ok (some state)) :
    Text.Range.signed.has (p.now - state.createdAt) = true := by
  obtain ⟨hcreated, -⟩ := hq.dates hstate
  have hnow := h.now
  rw [Text.Range.has_iff]
  simp only [Text.Range.signed] at *
  omega

theorem Service.Under.cutoff_fits (h : p.Under c) (hc : c.Sound) :
    Text.Range.signed.has (p.now - c.lateAfter) = true := by
  have hnow := h.now
  have hlate := hc.lateAfter
  rw [Text.Range.has_iff]
  simp only [Text.Range.signed] at *
  omega

/-- Under settings that were loaded from whatever texts, and on a clock that shows no time before
zero, the arithmetic of requests is exact wherever a run of them has come to. -/
theorem Run.exact {texts : TextStore} (hload : Settings.load texts = .ok c)
    (h : Run p past entries) (hunder : ∀ q ∈ p :: past, q.Under c) : c.Exact (p :: past) := by
  have hc := Settings.sound_of_load hload
  have hregular := h.regular hunder
  exact
    { age := fun q hq q' hq' id state hstate => (hunder q' hq').age_fits (hregular q hq) hstate
      expired := by
        intro q hq q' hq' t passed window
        rw [Transition.attempt_eq_refused_iff]
        refine exists_congr fun state => and_congr_right fun hstate => ?_
        have hage : elapsed state.createdAt q'.now = q'.now - state.createdAt :=
          wrap_of_has ((hunder q' hq').age_fits (hregular q hq) hstate)
        have hwindow : q'.authority.window = c.acceptanceWindow :=
          congrArg Settings.acceptanceWindow (hunder q' hq').settings
        rw [← hage, ← hwindow]
        exact Authority.check_eq_expired_iff
      cutoff := by
        intro q hq
        have hfits := (hunder q hq).cutoff_fits hc
        have hcutoff : q.cutoff = q.now - c.lateAfter := by
          rw [Service.cutoff, (hunder q hq).settings, wrap_of_has hfits]
        refine ⟨hfits, fun s hs => ?_⟩
        subst hs
        rw [← hcutoff, Shared.markLate, Shared.readClock_eq, Service.cutoff]
      limit := fun asked => ⟨hc.listLimit?_eq asked, hc.listLimit_bounds asked⟩
      uncrossed := by
        intro q hq viewer r hstop
        have hnone := Service.listLimit?_of_crossedLimits hstop
        rw [(hunder q hq).settings, hc.listLimit?_eq] at hnone
        cases hnone
      rows := by
        intro q hq viewer r response hresponse
        obtain ⟨hpermits, hints, -, -, hhints, -⟩ := Service.list_eq_ok_iff.1 hresponse
        obtain ⟨all, hlists, hlist⟩ := Service.exists_lists (h.decodes hunder hq) hpermits hhints
        obtain ⟨limit, hlimit, -, rfl⟩ := (hlist response).1 hresponse
        rw [(hunder q hq).settings] at hlimit
        obtain rfl := Settings.listLimit_of_listLimit? hlimit
        exact ⟨hpermits, hints, all, hhints, hlists, rfl, List.length_take, rfl⟩
      listed := by
        intro q hq viewer r hints hpermits hhints hvalues hkeys
        obtain ⟨all, -, hlist⟩ := Service.exists_lists (h.decodes hunder hq) hpermits hhints
        have hlimit := hc.listLimit?_eq r.limit
        rw [← (hunder q hq).settings] at hlimit hvalues
        exact ⟨_, (hlist _).2 ⟨_, hlimit, ⟨hvalues, hkeys⟩, rfl⟩⟩ }

end Runs

/-! ### At the edge of 64 bits -/

namespace Service

/-- The longest time that can be allowed, and the greatest limit. -/
def edgeTexts : TextStore :=
  ⟨[("acceptance_window_secs", "0"), ("late_after_secs", "9223372036854775807"),
    ("list_max_limit", "18446744073709551615")]⟩

def edgeSettings : Settings :=
  ⟨0, 9223372036854775807, 60, 50, 18446744073709551615, "info", false⟩

/-- A batch is sent at the last moment of the clock, and accepted after the clock was set back to
zero; what is swept then is nothing. -/
def edge : Service :=
  let sent := { staffed with settings := edgeSettings, now := 9223372036854775807 }.after
    (.submit "ana" "ONS" "first" .synchronous)
  let accepted := { sent with now := 0 }.after (.change ⟨1, "tito", "ACCEPTED", none⟩)
  { accepted with now := 5 }.after .sweep

theorem continuesIn_under {c : Settings} (p : Service) {now : Int}
    (hnow : 0 ≤ now ∧ now ≤ Text.Range.signed.hi) :
    ContinuesIn (Under c) p { p with now } :=
  .of_sameRows ⟨rfl, rfl, rfl, rfl⟩ fun h => ⟨h.settings, hnow, h.counted⟩

theorem edge_run : ∃ past entries, Run edge past entries ∧
    ∀ q ∈ edge :: past, q.Under edgeSettings := by
  let start : Service := { staffed with settings := edgeSettings, now := 9223372036854775807 }
  have hstart : ∀ q ∈ [start], q.Under edgeSettings :=
    List.forall_mem_singleton.2 ⟨rfl, by decide, by decide⟩
  have hkept := under_covers edgeSettings
  let sent := start.after (.submit "ana" "ONS" "first" .synchronous)
  let accepted := { sent with now := 0 }.after (.change ⟨1, "tito", "ACCEPTED", none⟩)
  have hsent : ContinuesIn (Under edgeSettings) start { sent with now := 0 } :=
    (after_continuesIn hkept start _).trans (continuesIn_under sent (by decide))
  have haccepted : ContinuesIn (Under edgeSettings) { sent with now := 0 }
      { accepted with now := 5 } :=
    (after_continuesIn hkept _ _).trans (continuesIn_under accepted (by decide))
  have hswept : ContinuesIn (Under edgeSettings) { accepted with now := 5 } edge :=
    after_continuesIn hkept _ .sweep
  obtain ⟨past, entries, hrun, -, hunder⟩ :=
    (hsent.trans (haccepted.trans hswept)) [] [] (.start rfl rfl) hstart
  exact ⟨past, entries, hrun, hunder⟩

end Service

theorem Run.exact_of_edge :
    Settings.load Service.edgeTexts = .ok Service.edgeSettings ∧
      Service.edge.ledger.events.map (fun row => (row.status, row.time)) =
        [("NEW", .int 9223372036854775807), ("ACCEPTED", .int 9223372036854775807)] ∧
      ∃ past entries, Run Service.edge past entries ∧
        (∀ q ∈ Service.edge :: past, q.Under Service.edgeSettings) ∧
        Service.edgeSettings.Exact (Service.edge :: past) := by
  have hload : Settings.load Service.edgeTexts = .ok Service.edgeSettings := rfl
  obtain ⟨past, entries, hrun, hunder⟩ := Service.edge_run
  exact ⟨hload, by cbv, past, entries, hrun, hunder, hrun.exact hload hunder⟩

end GridDispatch
