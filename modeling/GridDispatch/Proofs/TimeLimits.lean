import GridDispatch.Proofs.Progress
import GridDispatch.Proofs.TimeLimits.Invariant

/-!
# Time limits

Main statement: `Service.TimelyCourse.limits`. Requests are carried out one after the other, and the
clock never goes back. Then every acceptance comes within the window since its solicitation was
created, also one of many, and what is marked late was left accepted for longer than it may be.
-/

namespace GridDispatch

open Ledger

/-! ## Requests -/

theorem Role.ofCompanyCode_ne_system (code : String) : Role.ofCompanyCode code ≠ .system := by
  simp only [ofCompanyCode]
  split
  · split <;> exact Role.noConfusion
  · exact Role.noConfusion

theorem Service.announce_clock (s : Service) (id : Int) (userId : Option String) (kind : UpdateKind)
    (content : Json) (recipients : Option (List String)) :
    (s.announce id userId kind content recipients).2.settings = s.settings ∧
      (s.announce id userId kind content recipients).2.now = s.now := by
  simp only [announce]
  split
  · exact ⟨rfl, rfl⟩
  · exact ⟨rfl, rfl⟩

theorem Service.announceCreated_clock (s : Service) (requesterId groupId : String)
    (created : List (Int × NewSolicitation)) :
    (s.announceCreated requesterId groupId created).settings = s.settings ∧
      (s.announceCreated requesterId groupId created).now = s.now := by
  induction created generalizing s with
  | nil => exact ⟨rfl, rfl⟩
  | cons entry created ih =>
    obtain ⟨hsettings, hnow⟩ := s.announce_clock entry.1 (some requesterId) .created
      (createdContent entry.1 entry.2 groupId) (s.directory.recipients entry.2.companyCode)
    obtain ⟨hsettings', hnow'⟩ := ih (s.announce entry.1 (some requesterId) .created
      (createdContent entry.1 entry.2 groupId) (s.directory.recipients entry.2.companyCode)).2
    exact ⟨hsettings'.trans hsettings, hnow'.trans hnow⟩

theorem OnTime.announce {c : Settings} {p : Service} (h : OnTime c p) (id : Int)
    (userId : Option String) (kind : UpdateKind) (content : Json)
    (recipients : Option (List String)) :
    OnTime c (p.announce id userId kind content recipients).2 := by
  obtain ⟨hsettings, hnow⟩ := p.announce_clock id userId kind content recipients
  exact h.outside (p.announce_sameRows ..) hsettings (Int.le_of_eq hnow.symm) (hnow ▸ h.bound)

namespace Shared

variable {c : Settings} {s : Shared}

theorem changeStatus_onTime (h : OnTime c s.service) (hticks : s.Ticks) (r : ChangeRequest) :
    OnTime c (s.changeStatus r).2.service := by
  simp only [changeStatus]
  split
  · exact h
  · rename_i t solicitation hcheck
    split
    · rename_i happly
      exact (h.failed hticks happly).1
    · rename_i applied s' happly
      have ht : t.Steps s.service (.change s.service r) := fun _ _ _ _ _ hq hq' hattempt =>
        .change hq hcheck hq' hattempt
      have huser : t.role ≠ .system := by
        obtain ⟨company, requested, -, -, rfl, -⟩ := Service.checkChange_eq_ok hcheck
        exact Role.ofCompanyCode_ne_system company
      obtain ⟨hnext, -⟩ := h.transition hticks ht (fun hrole => absurd hrole huser) happly
      exact hnext.announce ..

/-- What the sweep has not come to yet stays overdue. -/
theorem markEach_onTime (h : OnTime c s.service) (hticks : s.Ticks) {ids : List Int}
    (hoverdue : ∀ id ∈ ids, c.Overdue s.service id) : OnTime c (s.markEach ids).2.service := by
  induction ids generalizing s with
  | nil => exact h
  | cons id ids ih =>
    obtain ⟨hfirst, hrest⟩ := List.forall_mem_cons.1 hoverdue
    simp only [markEach]
    split
    · rename_i applied s' happly
      have ht : (Transition.late id).Steps s.service .sweep := fun _ _ _ _ _ _ hq' hattempt =>
        .sweep hq' hattempt
      obtain ⟨hnext, hticks', hle, e, hlate, hevents⟩ :=
        h.transition hticks ht (fun _ => hfirst) happly
      have hsame := s'.service.announceLate_sameRows id
      have hnow : (s'.service.announceLate id).now = s'.service.now := (s'.service.announce_clock ..).2
      have hannounced : OnTime c (s'.service.announceLate id) := hnext.announce ..
      have hmarked := ih (s := { s' with service := s'.service.announceLate id }) hannounced
        (hticks'.of_meanwhile rfl hnow) fun id' hid' log hlog last hlast haccepted => ?_
      · split
        · rename_i hok
          rw [hok] at hmarked
          exact hmarked
        · rename_i hfailed
          rw [hfailed] at hmarked
          exact hmarked
      · rw [hnow]
        rcases Logs.of_concat (hsame.events.trans hevents) hlog with ⟨-, old, -, rfl⟩ | ⟨-, hold⟩
        · rw [List.getLast?_concat] at hlast
          cases hlast
          rw [hlate] at haccepted
          cases haccepted
        · have hlong := hrest id' hid' log hold last hlast haccepted
          omega
    · rename_i e s' happly
      obtain ⟨hnext, hticks', hages⟩ := h.failed hticks happly
      split
      · exact ih hnext hticks' fun id' hid' => (hrest id' hid').ages hages
      · exact hnext

/-- What the sweep finds is overdue. -/
theorem overdue_of_mem_stale {p : Service} (h : OnTime c p)
    (hlate : 0 ≤ c.lateAfter ∧ c.lateAfter ≤ Text.Range.signed.hi) {id : Int}
    (hid : id ∈ p.ledger.stale p.cutoff) : c.Overdue p id := by
  intro log hlog last hlast haccepted
  cases hof : State.ofEvents? log with
  | none =>
    rw [State.ofEvents?_eq_none_iff.1 hof] at hlast
    cases hlast
  | some state =>
    obtain ⟨head, hhead, -, hupdated, -⟩ := State.newest_of_ofEvents? hof
    obtain ⟨log', first, last', hlog', -, hlast', -, -, hupdated'⟩ :=
      h.ends_of_state? (hlog.state?.trans (congrArg _ hof))
    rw [Option.mem_def, hlog.unique hlog', hlast'] at hlast
    cases hlast
    obtain ⟨row, hrow, -, hbefore⟩ := mem_stale hid
    rw [hlog.head?, hhead] at hrow
    cases hrow
    have hbefore : head.time < p.cutoff := Int.compare_eq_lt.1 hbefore
    have hhi : Text.Range.signed.hi = 9223372036854775807 := rfl
    have hstarted := h.started
    have hbound := h.bound
    have hcutoff : p.cutoff = p.now - c.lateAfter := by
      rw [Service.cutoff, h.settings]
      exact wrap_of_fits (by omega)
    omega

theorem markLate_onTime (h : OnTime c s.service) (hticks : s.Ticks)
    (hlate : 0 ≤ c.lateAfter ∧ c.lateAfter ≤ Text.Range.signed.hi) :
    OnTime c s.markLate.2.service := by
  rw [markLate, readClock_eq]
  obtain ⟨hages, hlater⟩ := hticks.later
  have hstart := h.ages hages
  exact markEach_onTime hstart hlater fun id hid => overdue_of_mem_stale hstart hlate hid

theorem submit_onTime (h : OnTime c s.service) (hticks : s.Ticks)
    (requesterId companyCode groupId : String) (batch : Batch) :
    OnTime c (s.submit requesterId companyCode groupId batch).2.service := by
  obtain ⟨hages, -⟩ := hticks.later
  have hlater := h.ages hages
  have hrun := (submit_continues hticks.quiet.continuing requesterId companyCode groupId
    batch).1.exists_run h.run
  obtain ⟨answer, s', hsubmit⟩ :
    ∃ answer s', s.submit requesterId companyCode groupId batch = (answer, s') := ⟨_, _, rfl⟩
  rw [hsubmit] at hrun ⊢
  cases answer with
  | error e =>
    rcases submit_eq_error hsubmit with rfl | rfl
    · exact h
    · exact hlater
  | ok receipt =>
    obtain ⟨entered, -, -, -, -, -, -, hservice⟩ := submit_entered hsubmit
    let g : Group := ⟨groupId, requesterId, batch.creationTotalTime, s.later.service.now⟩
    let q : Service := { s.later.service with
      ledger := (s.later.service.ledger.withGroup g).withEntered g .new g.createdAt entered }
    have hsame := q.announceCreated_sameRows requesterId groupId (entered.map fun x => (x.id, x.new))
    obtain ⟨hsettings, hnow⟩ :=
      q.announceCreated_clock requesterId groupId (entered.map fun x => (x.id, x.new))
    have hs' : s'.service =
      q.announceCreated requesterId groupId (entered.map fun x => (x.id, x.new)) := hservice
    have hevents : s'.service.ledger.events = s.later.service.ledger.events ++
        (entered.map (Entered.event g .new g.createdAt)).map EventRow.of := by
      rw [hs', hsame.events, List.map_map]
      rfl
    refine hlater.adds hrun (hs' ▸ hsettings) (hs' ▸ hnow) hevents ?_ fun id log _ hlimits => ?_
    · refine List.forall_mem_map.2 fun x _ => ⟨?_, Int.le_refl _⟩
      exact hlater.started
    · refine hlimits.append_new fun e he => ?_
      obtain ⟨x, -, rfl⟩ := List.mem_map.1 (List.mem_of_mem_filter he)
      rfl

end Shared

/-! ## Requests one after the other -/

namespace Service

/-- The service after a request while which the clock shows these times. -/
def afterAt (s : Service) (readings : List Int) : Request → Service
  | .submit requesterId companyCode groupId batch =>
    ((s.timed readings).submit requesterId companyCode groupId batch).2.service
  | .change r => ((s.timed readings).changeStatus r).2.service
  | .sweep => (s.timed readings).markLate.2.service

/-- One request while which the clock goes on; or something changes that is not about solicitations
and their events. -/
inductive Timely (p : Service) : Service → Prop
  | request {readings : List Int} (r : Request) :
    Forward p.now readings → Timely p (p.afterAt readings r)
  | outside {p' : Service} : p.ledger.SameRows p'.ledger → p'.settings = p.settings →
    Forward p.now [p'.now] → Timely p p'

/-- Requests one after the other, on a clock that never goes back. -/
abbrev TimelyCourse : Service → Service → Prop := Relation.ReflTransGen Timely

theorem timed_ticks {p : Service} {readings : List Int} (h : Forward p.now readings) :
    (p.timed readings).Ticks := ⟨readings, rfl, h⟩

variable {c : Settings} {p p' : Service}

theorem Timely.onTime (hlate : 0 ≤ c.lateAfter ∧ c.lateAfter ≤ Text.Range.signed.hi)
    (h : OnTime c p) (htimely : p.Timely p') : OnTime c p' := by
  cases htimely with
  | request r hforward =>
    have hticks := timed_ticks hforward
    cases r with
    | submit requesterId companyCode groupId batch =>
      exact Shared.submit_onTime h hticks requesterId companyCode groupId batch
    | change r => exact Shared.changeStatus_onTime h hticks r
    | sweep => exact Shared.markLate_onTime h hticks hlate
  | outside hsame hsettings hforward =>
    obtain ⟨hsorted, hbound⟩ := hforward
    exact h.outside hsame hsettings (List.rel_of_pairwise_cons hsorted (List.mem_singleton_self _))
      (hbound _ (List.mem_singleton_self _))

theorem TimelyCourse.onTime (hlate : 0 ≤ c.lateAfter ∧ c.lateAfter ≤ Text.Range.signed.hi)
    (h : OnTime c p) (hcourse : p.TimelyCourse p') : OnTime c p' := by
  induction hcourse with
  | refl => exact h
  | tail _ htimely ih => exact htimely.onTime hlate ih

/-- From a store without solicitations, wherever requests have come to on a clock that never goes
back: the events of every solicitation, in the order in which they were written, begin as new, the
time of the first is the time of creation, no acceptance comes later than the window after that, and
whatever is marked late was left accepted for longer than it may be. -/
theorem TimelyCourse.limits (henvelopes : p.ledger.envelopes = []) (hevents : p.ledger.events = [])
    (hnow : 0 ≤ p.now ∧ p.now ≤ Text.Range.signed.hi)
    (hlate : 0 ≤ p.settings.lateAfter ∧ p.settings.lateAfter ≤ Text.Range.signed.hi)
    (h : p.TimelyCourse p') {row : EnvelopeRow} (hrow : row ∈ p'.ledger.envelopes) :
    ∃ first rest state, p'.ledger.Logs row.id (first :: rest) ∧ first.status = .new ∧
      p'.ledger.state? row.id = .ok (some state) ∧ state.createdAt = first.time ∧
      (∀ e ∈ first :: rest, e.status = .accepted →
        e.time - state.createdAt ≤ p.settings.acceptanceWindow) ∧
      (first :: rest).IsChain fun a b => b.status = .late →
        a.status = .accepted ∧ p.settings.lateAfter < b.time - a.time := by
  have hstart : OnTime p.settings p :=
    { run := ⟨[], [], .start henvelopes hevents⟩
      settings := rfl
      started := hnow.1
      bound := hnow.2
      times := by simp [hevents]
      limits := by
        intro id log hlog
        rw [Logs, written, hevents, List.filter_nil, eq_comm, List.map_eq_nil_iff] at hlog
        rw [hlog]
        exact .nil _ }
  have hontime := h.onTime hlate hstart
  obtain ⟨past, entries, hrun⟩ := hontime.run
  have hjournal := hrun.journal.1
  obtain ⟨first, rest, habout, -, hnew, -⟩ := (hjournal.life row hrow).begins
  have hlogs := hjournal.logs row.id
  obtain ⟨state, first', last, hstate, hfirst, -, -, hcreated, -⟩ := hjournal.state? hrow
  rw [habout] at hlogs hfirst
  cases hfirst
  obtain ⟨haccepted, hchain⟩ := hontime.limits row.id _ hlogs
  exact ⟨_, _, state, hlogs, hnew, hstate, hcreated, fun e he hstatus =>
    hcreated ▸ haccepted _ rfl e he hstatus, hchain⟩

/-! ### An acceptance of what is asked for again -/

def sentAt150 : Service := staffed.afterAt [150] (.submit "ana" "ONS" "first" .synchronous)

def contestedAt170 : Service := sentAt150.afterAt [170] (.change ⟨1, "tito", "CONTESTED", none⟩)

def requiredAt180 : Service := contestedAt170.afterAt [180] (.change ⟨1, "ana", "REQUIRED", none⟩)

def acceptedAt440 : Service := requiredAt180.afterAt [440] (.change ⟨1, "tito", "ACCEPTED", none⟩)

def sweptAt741 : Service := acceptedAt440.afterAt [741, 750] .sweep

theorem sweptAt741_course : staffed.TimelyCourse sweptAt741 := by
  have hsent : staffed.Timely sentAt150 :=
    .request _ ⟨by decide, by decide⟩
  have hcontested : sentAt150.Timely contestedAt170 := by
    have hnow : sentAt150.now = 150 := by cbv
    exact .request _ (hnow ▸ ⟨by decide, by decide⟩)
  have hrequired : contestedAt170.Timely requiredAt180 := by
    have hnow : contestedAt170.now = 170 := by cbv
    exact .request _ (hnow ▸ ⟨by decide, by decide⟩)
  have haccepted : requiredAt180.Timely acceptedAt440 := by
    have hnow : requiredAt180.now = 180 := by cbv
    exact .request _ (hnow ▸ ⟨by decide, by decide⟩)
  have hswept : acceptedAt440.Timely sweptAt741 := by
    have hnow : acceptedAt440.now = 440 := by cbv
    exact .request _ (hnow ▸ ⟨by decide, by decide⟩)
  exact ((((Relation.ReflTransGen.single hsent).tail hcontested).tail hrequired).tail
    haccepted).tail hswept

/-- A solicitation that is contested, asked for again, accepted 290 seconds after it was created,
and left for 310 more. -/
theorem TimelyCourse.limits_of_late :
    sweptAt741.ledger.events.map (fun row => (row.solicitationId, row.status, row.time)) =
        [(1, "NEW", .int 150), (1, "CONTESTED", .int 170), (1, "REQUIRED", .int 180),
          (1, "ACCEPTED", .int 440), (1, "LATE", .int 750)] ∧
      staffed.TimelyCourse sweptAt741 ∧ ∀ row ∈ sweptAt741.ledger.envelopes, ∃ first rest state,
        sweptAt741.ledger.Logs row.id (first :: rest) ∧ first.status = .new ∧
        sweptAt741.ledger.state? row.id = .ok (some state) ∧ state.createdAt = first.time ∧
        (∀ e ∈ first :: rest, e.status = .accepted → e.time - state.createdAt ≤ 300) ∧
        (first :: rest).IsChain fun a b => b.status = .late →
          a.status = .accepted ∧ 300 < b.time - a.time :=
  ⟨by cbv, sweptAt741_course, fun _ hrow => sweptAt741_course.limits rfl rfl
    ⟨by decide, by decide⟩ ⟨by decide, by decide⟩ hrow⟩

end Service

end GridDispatch
