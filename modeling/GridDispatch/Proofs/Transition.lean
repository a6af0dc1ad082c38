import GridDispatch.Proofs.Interference
import GridDispatch.Proofs.Ledger.LostHead
import GridDispatch.Workflow.Transition

/-!
# Transitions amid others

A transition reads the head, and others may act before it writes. It writes nothing unless the head
is still there, so the event that it replaces is the one that the authority has judged
(`Transition.attempt_replaces`): heads are told apart by their ids, and an id is never given out
twice. A transition that loses the head is tried once more (`Transition.apply_of_loses`), and only
one that loses it again is reported as concurrent (`Transition.apply_eq_concurrent_iff`).
-/

namespace GridDispatch

theorem Role.eq_accepted_of_late {status : Status}
    (h : Status.late ∈ Role.system.targets status) : status = .accepted := by
  cases status with
  | accepted => rfl
  | _ => cases h

namespace Transition

variable {t : Transition} {s s' : Shared} {state : State} {applied : Applied}

/-- The standing that is read, and from which the authority lets the transition pass. -/
def Granted (t : Transition) (s : Shared) (state : State) : Prop :=
  s.service.ledger.state? t.id = .ok (some state) ∧
    s.later.service.authority.check t.role state.status t.requested state.createdAt
      s.later.service.now = .ok ()

/-- The transition passes, but when it is to be written the solicitation has another head. -/
def Loses (t : Transition) (s : Shared) : Prop :=
  ∃ state head, t.Granted s state ∧ s.later.service.ledger.head? t.id = some head ∧
    head.eventId ≠ state.headEventId

/-! ## One attempt -/

/-- An attempt that passes comes down to a write after the clock was read. -/
theorem attempt_of_granted (h : t.Granted s state) :
    t.attempt s =
      match s.later.service.ledger.appendIfCurrent t.id state.marker t.actor t.requested
        (max s.later.service.now state.updatedAt) t.justification with
      | .error e => (.error (.ofStore e), s.later)
      | .ok (eventId, ledger) => (.ok ⟨eventId, state.status⟩, s.later.withLedger ledger) := by
  obtain ⟨hstate, hcheck⟩ := h
  cases happend : s.later.service.ledger.appendIfCurrent t.id state.marker t.actor t.requested
      (max s.later.service.now state.updatedAt) t.justification with
  | error e => simp only [attempt, hstate, Shared.readClock_eq, hcheck, happend]
  | ok written => simp only [attempt, hstate, Shared.readClock_eq, hcheck, happend]

/-- An attempt that does not pass writes nothing, and not because of a lost head. -/
theorem attempt_of_not_granted (h : ∀ state, ¬ t.Granted s state) :
    ∃ e, (t.attempt s = (.error e, s) ∨ t.attempt s = (.error e, s.later)) ∧
      ∀ id, e ≠ .concurrent id := by
  cases hstate : s.service.ledger.state? t.id with
  | error fault =>
    refine ⟨.ofStore fault, .inl (by simp only [attempt, hstate]), fun id hid => ?_⟩
    obtain ⟨expected, actual, rfl⟩ := WorkflowError.ofStore_eq_concurrent hid
    exact Ledger.state?_ne_staleHead hstate
  | ok found =>
    cases found with
    | none => exact ⟨.noSolicitation t.id, .inl (by simp only [attempt, hstate]), nofun⟩
    | some state =>
      cases hcheck : s.later.service.authority.check t.role state.status t.requested
          state.createdAt s.later.service.now with
      | error refusal =>
        refine ⟨.refused refusal, .inr ?_, nofun⟩
        simp only [attempt, hstate, Shared.readClock_eq, hcheck]
      | ok _ => exact absurd ⟨hstate, hcheck⟩ (h state)

theorem attempt_eq_ok (h : t.attempt s = (.ok applied, s')) :
    ∃ state ledger, t.Granted s state ∧ applied.source = state.status ∧
      s.later.service.ledger.appendIfCurrent t.id state.marker t.actor t.requested
        (max s.later.service.now state.updatedAt) t.justification = .ok (applied.eventId, ledger) ∧
      s' = s.later.withLedger ledger := by
  by_cases hgranted : ∃ state, t.Granted s state
  · obtain ⟨state, hgranted⟩ := hgranted
    rw [attempt_of_granted hgranted] at h
    split at h
    · cases h
    · rename_i happend
      cases h
      exact ⟨state, _, hgranted, rfl, happend, rfl⟩
  · obtain ⟨e, he | he, -⟩ := attempt_of_not_granted (not_exists.1 hgranted)
    · rw [he] at h
      cases h
    · rw [he] at h
      cases h

theorem attempt_eq_error {e : WorkflowError} (h : t.attempt s = (.error e, s')) :
    s' = s ∨ s' = s.later := by
  by_cases hgranted : ∃ state, t.Granted s state
  · obtain ⟨state, hgranted⟩ := hgranted
    rw [attempt_of_granted hgranted] at h
    split at h
    · exact .inr (Prod.mk.inj h).2.symm
    · cases h
  · obtain ⟨e', he | he, -⟩ := attempt_of_not_granted (not_exists.1 hgranted)
    · exact .inl (Prod.mk.inj (he.symm.trans h)).2.symm
    · exact .inr (Prod.mk.inj (he.symm.trans h)).2.symm

/-- An attempt is refused for the reason that the authority gives. -/
theorem attempt_eq_refused_iff {refusal : Refusal} :
    (t.attempt s).1 = .error (.refused refusal) ↔
      ∃ state, s.service.ledger.state? t.id = .ok (some state) ∧
        s.later.service.authority.check t.role state.status t.requested state.createdAt
          s.later.service.now = .error refusal := by
  constructor
  · intro h
    simp only [attempt, Shared.readClock_eq] at h
    split at h
    · exact absurd (Except.error.inj h) WorkflowError.ofStore_ne_refused
    · cases h
    · rename_i state hstate
      split at h
      · rename_i hcheck
        cases h
        exact ⟨state, hstate, hcheck⟩
      · split at h
        · exact absurd (Except.error.inj h) WorkflowError.ofStore_ne_refused
        · cases h
  · rintro ⟨state, hstate, hcheck⟩
    simp only [attempt, hstate, Shared.readClock_eq, hcheck]

theorem attempt_of_loses (h : t.Loses s) : t.attempt s = (.error (.concurrent t.id), s.later) := by
  obtain ⟨state, head, hgranted, hhead, hne⟩ := h
  have happend : s.later.service.ledger.appendIfCurrent t.id state.marker t.actor t.requested
      (max s.later.service.now state.updatedAt) t.justification =
        .error (.staleHead t.id state.headEventId head.eventId) :=
    Ledger.appendIfCurrent_eq_staleHead_iff.2 ⟨rfl, rfl, head, hhead, hne, rfl⟩
  rw [attempt_of_granted hgranted, happend]
  rfl

/-- Nothing but a lost head makes an attempt concurrent. -/
theorem loses_of_attempt {id : Int} (h : (t.attempt s).1 = .error (.concurrent id)) :
    t.Loses s := by
  by_cases hgranted : ∃ state, t.Granted s state
  · obtain ⟨state, hgranted⟩ := hgranted
    rw [attempt_of_granted hgranted] at h
    split at h
    · rename_i happend
      obtain ⟨expected, actual, rfl⟩ :=
        WorkflowError.ofStore_eq_concurrent (Except.error.inj h)
      obtain ⟨-, -, head, hhead, hne, -⟩ := Ledger.appendIfCurrent_eq_staleHead_iff.1 happend
      exact ⟨state, head, hgranted, hhead, hne⟩
    · cases h
  · obtain ⟨e, he | he, hconcurrent⟩ := attempt_of_not_granted (not_exists.1 hgranted)
    · rw [he] at h
      exact absurd (Except.error.inj h) (hconcurrent id)
    · rw [he] at h
      exact absurd (Except.error.inj h) (hconcurrent id)

/-! ## What is written -/

/-- `after` is `before` with one more event, that of the transition; it takes the place of the head,
from whose status the role may make the transition. -/
structure Replaces (t : Transition) (before : Service) (head e : Event) (after : Service) :
    Prop where
  logs : ∃ log, before.ledger.Logs t.id log ∧ (newestFirst log).head? = some head
  allowed : t.requested ∈ t.role.targets head.status
  event : e = ⟨e.eventId, t.id, t.actor, t.requested, e.time, t.justification⟩
  time_le : head.time ≤ e.time
  unused : ∀ row ∈ before.ledger.events, row.eventId < e.eventId
  ungiven : before.ledger.lastEvent < e.eventId
  wrote : after = { before with ledger := before.ledger.withEvent e }

namespace Replaces

variable {before after : Service} {head e : Event}

theorem head_before (h : t.Replaces before head e after) :
    before.ledger.head? t.id = some (EventRow.of head) := by
  obtain ⟨log, hlog, hhead⟩ := h.logs
  rw [hlog.head?, hhead, Option.map_some]

theorem solicitationId_eq (h : t.Replaces before head e after) : e.solicitationId = t.id :=
  congrArg Event.solicitationId h.event

theorem onward (h : t.Replaces before head e after) : before.ledger.Onward after.ledger := by
  rw [h.wrote]
  exact .withEvent h.ungiven

/-- The new event comes last and is the newest. -/
theorem logs_after (h : t.Replaces before head e after) : ∃ log, before.ledger.Logs t.id log ∧
    after.ledger.Logs t.id (log ++ [e]) ∧
    (newestFirst log).head? = some head ∧ (newestFirst (log ++ [e])).head? = some e := by
  obtain ⟨log, hlog, hhead⟩ := h.logs
  refine ⟨log, hlog, ?_, hhead, newest_append fun e' he' => ⟨?_, ?_⟩⟩
  · rw [h.wrote, Ledger.Logs, List.map_append, ← hlog]
    simp [Ledger.written, Ledger.withEvent, EventRow.of, h.solicitationId_eq]
  · have hnewer := Event.newer_iff.1 (newer_of_newest hhead he')
    have := h.time_le
    omega
  · exact h.unused _ (Ledger.mem_written.1 (hlog.mem_written he')).1

theorem head_after (h : t.Replaces before head e after) :
    after.ledger.head? t.id = some (EventRow.of e) := by
  obtain ⟨log, -, hafter, -, hnewest⟩ := h.logs_after
  rw [hafter.head?, hnewest, Option.map_some]

end Replaces

/-- An attempt that succeeds replaces the head by its event. The head is the one that was judged,
although others have acted since. -/
theorem attempt_replaces (hn : s.service.ledger.Numbered)
    (honward : s.service.ledger.Onward s.later.service.ledger)
    (h : t.attempt s = (.ok applied, s')) :
    ∃ head e, t.Replaces s.later.service head e s'.service ∧ applied = ⟨e.eventId, head.status⟩ ∧
      s'.meanwhile = s.later.meanwhile := by
  obtain ⟨state, ledger, ⟨hstate, hcheck⟩, hsource, happend, rfl⟩ := attempt_eq_ok h
  obtain ⟨log, hlog, hof⟩ := Ledger.state?_eq_ok_iff.1 hstate
  obtain ⟨head, hhead, hstatus, htime, hid⟩ := State.newest_of_ofEvents? hof
  obtain ⟨⟨row, hrow, hseen⟩, hinsert⟩ := Ledger.appendIfCurrent_eq_ok happend
  obtain ⟨new, hlog', hhead'⟩ :=
    honward.logs_of_head hn hlog (mem_of_newest hhead) hrow (hseen.trans hid)
  obtain ⟨rfl, -, hlast, hused⟩ := Ledger.insertEvent_eq_ok hinsert
  obtain ⟨-, hallowed, -⟩ := Authority.check_eq_ok_iff.1 hcheck
  refine ⟨head, ⟨applied.eventId, t.id, t.actor, t.requested,
    max s.later.service.now state.updatedAt, t.justification⟩, ?_, ?_, rfl⟩
  · exact
      { logs := ⟨log ++ new, hlog', hhead'⟩
        allowed := hstatus ▸ hallowed
        event := rfl
        time_le := by simp only [htime]; omega
        unused := hused
        ungiven := hlast
        wrote := rfl }
  · rw [← hstatus, ← hsource]

/-! ## The second attempt -/

theorem apply_of_loses (h : t.Loses s) : t.apply s = t.attempt s.later := by
  simp only [apply, attempt_of_loses h]

theorem apply_of_not_loses (h : ¬ t.Loses s) : t.apply s = t.attempt s := by
  simp only [apply]
  split
  · rename_i hattempt
    exact absurd (loses_of_attempt (congrArg Prod.fst hattempt)) h
  · rfl

theorem apply_eq_concurrent_iff {id : Int} :
    (t.apply s).1 = .error (.concurrent id) ↔ id = t.id ∧ t.Loses s ∧ t.Loses s.later := by
  constructor
  · intro h
    by_cases hloses : t.Loses s
    · rw [apply_of_loses hloses] at h
      have hagain := loses_of_attempt h
      rw [attempt_of_loses hagain] at h
      cases h
      exact ⟨rfl, hloses, hagain⟩
    · rw [apply_of_not_loses hloses] at h
      exact absurd (loses_of_attempt h) hloses
  · rintro ⟨rfl, hloses, hagain⟩
    rw [apply_of_loses hloses, attempt_of_loses hagain]

/-- The shared service right before the write, if there is one. -/
def turn (t : Transition) (s : Shared) : Shared :=
  match (t.attempt s).1 with
  | .error (.concurrent _) => s.later.later
  | _ => s.later

theorem turn_of_loses (h : t.Loses s) : t.turn s = s.later.later := by
  simp only [turn, attempt_of_loses h]

theorem turn_of_not_loses (h : ¬ t.Loses s) : t.turn s = s.later := by
  simp only [turn]
  split
  · exact absurd (loses_of_attempt ‹_›) h
  · rfl

theorem turn_cases (t : Transition) (s : Shared) :
    t.turn s = s.later ∨ t.turn s = s.later.later := by
  by_cases h : t.Loses s
  · exact .inr (turn_of_loses h)
  · exact .inl (turn_of_not_loses h)

theorem apply_replaces (hn : s.service.ledger.Numbered)
    (honward : s.service.ledger.Onward s.later.service.ledger)
    (honward' : s.later.service.ledger.Onward s.later.later.service.ledger)
    (h : t.apply s = (.ok applied, s')) :
    ∃ head e, t.Replaces (t.turn s).service head e s'.service ∧
      applied = ⟨e.eventId, head.status⟩ ∧ s'.meanwhile = (t.turn s).meanwhile := by
  by_cases hloses : t.Loses s
  · rw [apply_of_loses hloses] at h
    rw [turn_of_loses hloses]
    exact attempt_replaces (hn.onward honward) honward' h
  · rw [apply_of_not_loses hloses] at h
    rw [turn_of_not_loses hloses]
    exact attempt_replaces hn honward h

theorem apply_eq_error {e : WorkflowError} (h : t.apply s = (.error e, s')) :
    s' = s ∨ s' = s.later ∨ s' = s.later.later := by
  by_cases hloses : t.Loses s
  · rw [apply_of_loses hloses] at h
    exact .inr (attempt_eq_error h)
  · rw [apply_of_not_loses hloses] at h
    exact (attempt_eq_error h).imp_right .inl

/-! ## Amid the acts of others -/

/-- What a transition that was answered so has made of `before`: with one event more, which is the
head in the place of the one whose status is given back, or nothing. -/
def Outcome (t : Transition) (before after : Service) : Except WorkflowError Applied → Prop
  | .ok applied => ∃ head e : Event,
      applied = ⟨e.eventId, head.status⟩ ∧
      e = ⟨e.eventId, t.id, t.actor, t.requested, e.time, t.justification⟩ ∧
      after = { before with ledger := before.ledger.withEvent e } ∧
      before.ledger.head? t.id = some (EventRow.of head) ∧
      after.ledger.head? t.id = some (EventRow.of e) ∧
      t.requested ∈ t.role.targets head.status
  | .error _ => after = before

theorem Replaces.outcome {before after : Service} {head e : Event}
    (h : t.Replaces before head e after) :
    t.Outcome before after (.ok ⟨e.eventId, head.status⟩) :=
  ⟨head, e, rfl, h.event, h.wrote, h.head_before, h.head_after, h.allowed⟩

/-- Whatever others append, delete or do to the clock at the readings of a transition, it reads the
clock twice at most; if it succeeds, it leaves one event more than the others, in the place of the
head that was judged, and otherwise it leaves what they do. It is reported as concurrent exactly if
it loses the head twice. -/
theorem apply_amid (t : Transition) (s : Service) (others : List (List Interference))
    (hn : s.ledger.Numbered) :
    ∃ (readings : Nat) (answer : Except WorkflowError Applied) (after : Service), readings ≤ 2 ∧
      t.apply (s.amid others) = (answer, after.amid (others.drop readings)) ∧
      t.Outcome (Interference.run (others.take readings).flatten s) after answer ∧
      ∀ id, answer = .error (.concurrent id) ↔
        id = t.id ∧ t.Loses (s.amid others) ∧ t.Loses (s.amid others).later := by
  have horderly := s.amid_orderly others
  have hreadings := s.iterate_later_amid others
  have hone : (s.amid others).later = _ := hreadings 1
  have htwo : (s.amid others).later.later = _ := hreadings 2
  have hconcurrent : ∀ id, (t.apply (s.amid others)).1 = .error (.concurrent id) ↔
      id = t.id ∧ t.Loses (s.amid others) ∧ t.Loses (s.amid others).later :=
    fun _ => apply_eq_concurrent_iff
  obtain ⟨answer, s', h⟩ : ∃ answer s', t.apply (s.amid others) = (answer, s') := ⟨_, _, rfl⟩
  rw [h] at hconcurrent ⊢
  cases answer with
  | ok applied =>
    obtain ⟨head, e, hreplaces, rfl, hmeanwhile⟩ :=
      apply_replaces hn horderly.onward horderly.later.onward h
    rcases t.turn_cases (s.amid others) with hturn | hturn
    · rw [hturn, hone] at hreplaces hmeanwhile
      refine ⟨1, _, s'.service, by decide, ?_, hreplaces.outcome, hconcurrent⟩
      rw [← Shared.eq_amid hmeanwhile]
    · rw [hturn, htwo] at hreplaces hmeanwhile
      refine ⟨2, _, s'.service, by decide, ?_, hreplaces.outcome, hconcurrent⟩
      rw [← Shared.eq_amid hmeanwhile]
  | error e =>
    rcases apply_eq_error h with rfl | rfl | rfl
    · exact ⟨0, .error e, s, by decide, rfl, rfl, hconcurrent⟩
    · exact ⟨1, .error e, _, by decide, congrArg _ hone, rfl, hconcurrent⟩
    · exact ⟨2, .error e, _, by decide, congrArg _ htwo, rfl, hconcurrent⟩

/-- The operator cancels what the company contests at the same time: the first attempt loses the
head, the second takes the place of the contest. -/
theorem cancel_amid_contest :
    let s := Service.holding [⟨1, 1, some "ana", .new, 100, none⟩] 200
    let others := [[Interference.append 1 (some "tito") .contested 150], [.setClock 120]]
    let cancel : Transition := ⟨1, some "ana", .operator, .canceled, none⟩
    s.ledger.Numbered ∧ (cancel.apply (s.amid others)).1 = .ok ⟨3, .contested⟩ ∧
      ∃ (readings : Nat) (answer : Except WorkflowError Applied) (after : Service), readings ≤ 2 ∧
        cancel.apply (s.amid others) = (answer, after.amid (others.drop readings)) ∧
        cancel.Outcome (Interference.run (others.take readings).flatten s) after answer ∧
        ∀ id, answer = .error (.concurrent id) ↔
          id = 1 ∧ cancel.Loses (s.amid others) ∧ cancel.Loses (s.amid others).later := by
  intro s others cancel
  have hn : s.ledger.Numbered := Service.holding_numbered (by decide) 200
  exact ⟨hn, by cbv, apply_amid cancel s others hn⟩

end Transition

end GridDispatch
