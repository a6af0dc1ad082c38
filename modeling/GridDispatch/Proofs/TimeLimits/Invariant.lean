import GridDispatch.Proofs.LateSweep
import GridDispatch.Proofs.Recount.Requests

/-!
# Limits on a clock that never goes back

What holds between requests while the clock never goes back (`OnTime`): no event is ahead of the
clock, and the events of each solicitation keep the limits that are set (`Settings.Limits`). So an
event has the time of the clock and not that of the head, although it has whichever is later
(`OnTime.granted`).
-/

namespace GridDispatch

open Ledger

/-! ## A clock that goes on -/

/-- The readings of a 64-bit clock that shows `now` and never goes back. -/
structure Forward (now : Int) (readings : List Int) : Prop where
  sorted : (now :: readings).Pairwise (· ≤ ·)
  bound : ∀ time ∈ readings, time ≤ Text.Range.signed.hi

namespace Service

/-- A service with which nothing happens but that the clock shows these times. -/
def timed (s : Service) (readings : List Int) : Shared :=
  s.amid (readings.map fun now => [.setClock now])

/-- Time passes. -/
structure Ages (p q : Service) : Prop where
  eq : q = { p with now := q.now }
  le : p.now ≤ q.now
  bound : p.now ≤ Text.Range.signed.hi → q.now ≤ Text.Range.signed.hi

theorem Ages.refl (p : Service) : p.Ages p := ⟨rfl, Int.le_refl _, id⟩

theorem Ages.settings {p q : Service} (h : p.Ages q) : q.settings = p.settings := by
  rw [h.eq]

theorem Ages.ledger {p q : Service} (h : p.Ages q) : q.ledger = p.ledger := by
  rw [h.eq]

theorem Ages.trans {p q r : Service} (h : p.Ages q) (h' : q.Ages r) : p.Ages r := by
  refine ⟨?_, Int.le_trans h.le h'.le, fun hp => h'.bound (h.bound hp)⟩
  rw [h'.eq, h.eq]

end Service

namespace Shared

variable {s : Shared}

/-- While a request is on its way, the clock goes on. -/
def Ticks (s : Shared) : Prop :=
  ∃ readings, s = s.service.timed readings ∧ Forward s.service.now readings

theorem Ticks.later (h : s.Ticks) : s.service.Ages s.later.service ∧ s.later.Ticks := by
  obtain ⟨readings, hs, hsorted, hbound⟩ := h
  rw [hs]
  cases readings with
  | nil => exact ⟨.refl _, [], rfl, hsorted, hbound⟩
  | cons time readings =>
    obtain ⟨hle, hrest⟩ := List.pairwise_cons.1 hsorted
    refine ⟨⟨rfl, hle time List.mem_cons_self, fun _ => hbound time List.mem_cons_self⟩,
      readings, rfl, hrest, fun t ht => hbound t (List.mem_cons_of_mem _ ht)⟩

theorem Ticks.of_meanwhile {s' : Shared} (h : s.Ticks) (hrest : s'.meanwhile = s.meanwhile)
    (hnow : s'.service.now = s.service.now) : s'.Ticks := by
  obtain ⟨readings, hs, hforward⟩ := h
  rw [hs] at hrest
  exact ⟨readings, Shared.eq_amid hrest, hnow ▸ hforward⟩

theorem Ticks.quiet (h : s.Ticks) : s.Quiet := by
  obtain ⟨readings, hs, -⟩ := h
  rw [hs]
  intro act hact p
  obtain ⟨acts, hacts, rfl⟩ := List.mem_map.1 hact
  obtain ⟨time, -, rfl⟩ := List.mem_map.1 hacts
  rfl

theorem Ticks.turn (h : s.Ticks) (t : Transition) :
    s.service.Ages (t.turn s).service ∧ (t.turn s).Ticks := by
  obtain ⟨hages, hlater⟩ := h.later
  rcases t.turn_cases s with hturn | hturn
  · rw [hturn]
    exact ⟨hages, hlater⟩
  · rw [hturn]
    obtain ⟨hages', hlater'⟩ := hlater.later
    exact ⟨hages.trans hages', hlater'⟩

end Shared

/-! ## Limits -/

/-- Acceptances come within the window since the first event, and what is late follows an acceptance
that was left for longer than it may be. -/
structure Settings.Limits (c : Settings) (log : List Event) : Prop where
  accepted : ∀ first ∈ log.head?, ∀ e ∈ log, e.status = .accepted →
    e.time - first.time ≤ c.acceptanceWindow
  late : log.IsChain fun a b => b.status = .late → a.status = .accepted ∧ c.lateAfter < b.time - a.time

namespace Settings.Limits

variable {c : Settings} {log : List Event}

theorem nil (c : Settings) : c.Limits [] := ⟨nofun, .nil⟩

theorem append (h : c.Limits log) {e : Event}
    (haccepted : e.status = .accepted →
      ∃ first, log.head? = some first ∧ e.time - first.time ≤ c.acceptanceWindow)
    (hlate : ∀ last ∈ log.getLast?, e.status = .late →
      last.status = .accepted ∧ c.lateAfter < e.time - last.time) : c.Limits (log ++ [e]) := by
  constructor
  · intro first hfirst x hx hstatus
    rcases List.mem_append.1 hx with hold | hnew
    · obtain ⟨first', hfirst'⟩ : ∃ first', log.head? = some first' :=
        Option.isSome_iff_exists.1 (by simpa using List.ne_nil_of_mem hold)
      rw [List.head?_append, hfirst'] at hfirst
      cases hfirst
      exact h.accepted first hfirst' x hold hstatus
    · rw [List.mem_singleton.1 hnew] at hstatus ⊢
      obtain ⟨first', hfirst', hle⟩ := haccepted hstatus
      rw [List.head?_append, hfirst'] at hfirst
      cases hfirst
      exact hle
  · refine List.isChain_append.2 ⟨h.late, List.isChain_singleton _, fun last hlast x hx => ?_⟩
    cases hx
    exact hlate last hlast

theorem append_new (h : c.Limits log) {new : List Event} (hnew : ∀ e ∈ new, e.status = .new) :
    c.Limits (log ++ new) := by
  induction new generalizing log with
  | nil => simpa using h
  | cons e new ih =>
    obtain ⟨he, hrest⟩ := List.forall_mem_cons.1 hnew
    rw [List.append_cons]
    refine ih (h.append (fun hstatus => ?_) fun _ _ hstatus => ?_) hrest
    · rw [he] at hstatus
      cases hstatus
    · rw [he] at hstatus
      cases hstatus

end Settings.Limits

/-! ## What holds between requests -/

/-- `p` was come to by requests, no event is ahead of its clock, and the limits were kept. -/
structure OnTime (c : Settings) (p : Service) : Prop where
  run : ∃ past entries, Run p past entries
  settings : p.settings = c
  started : 0 ≤ p.now
  bound : p.now ≤ Text.Range.signed.hi
  times : ∀ e, EventRow.of e ∈ p.ledger.events → 0 ≤ e.time ∧ e.time ≤ p.now
  limits : ∀ id log, p.ledger.Logs id log → c.Limits log

namespace OnTime

variable {c : Settings} {p p' q : Service}

/-- Time may pass, and anything may change that is not about solicitations and their events. -/
theorem outside (h : OnTime c p) (hsame : p.ledger.SameRows p'.ledger)
    (hsettings : p'.settings = p.settings) (hle : p.now ≤ p'.now)
    (hbound : p'.now ≤ Text.Range.signed.hi) : OnTime c p' where
  run := (Continues.of_sameRows hsame).exists_run h.run
  settings := hsettings.trans h.settings
  started := Int.le_trans h.started hle
  bound := hbound
  times := by
    intro e he
    rw [hsame.events] at he
    obtain ⟨hfrom, hto⟩ := h.times e he
    exact ⟨hfrom, Int.le_trans hto hle⟩
  limits := by
    intro id log hlog
    refine h.limits id log ?_
    rw [Logs, written, hsame.events] at hlog
    exact hlog

theorem ages (h : OnTime c p) (hages : p.Ages q) : OnTime c q := by
  exact h.outside (hages.ledger ▸ .refl p.ledger) hages.settings hages.le (hages.bound h.bound)

/-- Events come in that are not ahead of the clock, and that keep the limits. -/
theorem adds (h : OnTime c p) (hrun : ∃ past entries, Run p' past entries)
    (hsettings : p'.settings = p.settings) (hnow : p'.now = p.now) {new : List Event}
    (hevents : p'.ledger.events = p.ledger.events ++ new.map EventRow.of)
    (htimes : ∀ e ∈ new, 0 ≤ e.time ∧ e.time ≤ p.now)
    (hlimits : ∀ id log, p.ledger.Logs id log → c.Limits log →
      c.Limits (log ++ new.filter fun e => decide (e.solicitationId = id))) : OnTime c p' where
  run := hrun
  settings := hsettings.trans h.settings
  started := hnow ▸ h.started
  bound := hnow ▸ h.bound
  times := by
    intro e he
    rw [hnow]
    rw [hevents] at he
    rcases List.mem_append.1 he with hold | hnew
    · exact h.times e hold
    · obtain ⟨e', he', heq⟩ := List.mem_map.1 hnew
      rw [← EventRow.of_injective heq]
      exact htimes e' he'
  limits := by
    intro id log hlog
    obtain ⟨old, hold, rfl⟩ := Logs.of_append hevents hlog
    exact hlimits id old hold (h.limits id old hold)

/-- The standing of a solicitation is told by the first of its events and the last. -/
theorem ends_of_state? (h : OnTime c p) {id : Int} {state : State}
    (hstate : p.ledger.state? id = .ok (some state)) :
    ∃ log first last, p.ledger.Logs id log ∧ log.head? = some first ∧ log.getLast? = some last ∧
      state.status = last.status ∧ state.createdAt = first.time ∧ state.updatedAt = last.time := by
  obtain ⟨past, entries, hrun⟩ := h.run
  have hjournal := hrun.journal.1
  by_cases hknown : ∃ row ∈ p.ledger.envelopes, row.id = id
  · obtain ⟨row, hrow, rfl⟩ := hknown
    obtain ⟨state', first, last, hstate', hfirst, hlast, hends⟩ := hjournal.state? hrow
    cases hstate.symm.trans hstate'
    refine ⟨_, first.event, last.event, hjournal.logs row.id, ?_, ?_, hends⟩
    · rw [List.head?_map, hfirst]
      rfl
    · rw [List.getLast?_map, hlast]
      rfl
  · have hnone := hjournal.about_eq_nil fun row hrow hid => hknown ⟨row, hrow, hid⟩
    have hnil : State.ofEvents? [] = none := State.ofEvents?_eq_none_iff.2 rfl
    rw [(hjournal.logs id).state?, hnone, List.map_nil, hnil] at hstate
    cases hstate

end OnTime

/-! ## Transitions -/

namespace Transition

variable {t : Transition} {s s' : Shared} {applied : Applied}

/-- While nobody else writes, a transition that succeeds adds its event to the standing that it has
read, at the time of the clock or of the head. -/
theorem attempt_writes (hquiet : s.Quiet) (h : t.attempt s = (.ok applied, s')) :
    ∃ state e, s.service.ledger.state? t.id = .ok (some state) ∧
      s.later.service.authority.check t.role state.status t.requested state.createdAt
        s.later.service.now = .ok () ∧
      e = ⟨applied.eventId, t.id, t.actor, t.requested,
        max s.later.service.now state.updatedAt, t.justification⟩ ∧
      s' = s.later.withLedger (s.service.ledger.withEvent e) := by
  obtain ⟨state, ledger, ⟨hstate, hcheck⟩, -, happend, rfl⟩ := attempt_eq_ok h
  obtain ⟨-, hinsert⟩ := appendIfCurrent_eq_ok happend
  obtain ⟨rfl, -⟩ := insertEvent_eq_ok hinsert
  refine ⟨state, _, hstate, hcheck, rfl, ?_⟩
  rw [hquiet.ledger_later]

theorem apply_writes (hquiet : s.Quiet) (h : t.apply s = (.ok applied, s')) :
    ∃ state e, s.service.ledger.state? t.id = .ok (some state) ∧
      (t.turn s).service.authority.check t.role state.status t.requested state.createdAt
        (t.turn s).service.now = .ok () ∧
      e = ⟨applied.eventId, t.id, t.actor, t.requested,
        max (t.turn s).service.now state.updatedAt, t.justification⟩ ∧
      s' = (t.turn s).withLedger (s.service.ledger.withEvent e) := by
  by_cases hloses : t.Loses s
  · rw [apply_of_loses hloses] at h
    rw [turn_of_loses hloses, ← hquiet.ledger_later]
    exact attempt_writes hquiet.later h
  · rw [apply_of_not_loses hloses] at h
    rw [turn_of_not_loses hloses]
    exact attempt_writes hquiet h

end Transition

/-- Nobody but the system marks anything late, and nothing but what is accepted. -/
theorem Role.source_of_late {role : Role} {status : Status} (h : Status.late ∈ role.targets status) :
    role = .system ∧ status = .accepted := by
  cases role with
  | system => exact ⟨rfl, Role.eq_accepted_of_late h⟩
  | operator | transmission | unknown => cases status <;> simp [Role.targets] at h

/-- What is accepted has been left so for longer than it may be. -/
def Settings.Overdue (c : Settings) (p : Service) (id : Int) : Prop :=
  ∀ log, p.ledger.Logs id log → ∀ last ∈ log.getLast?, last.status = .accepted →
    c.lateAfter < p.now - last.time

theorem Settings.Overdue.ages {c : Settings} {p q : Service} {id : Int} (h : c.Overdue p id)
    (hages : p.Ages q) : c.Overdue q id := by
  intro log hlog last hlast haccepted
  rw [hages.ledger] at hlog
  have hlong := h log hlog last hlast haccepted
  have hle := hages.le
  omega

/-- The event of a change that is granted has the time of the clock and keeps the limits, provided
that the system makes it with nothing but what is overdue. -/
theorem OnTime.granted {c : Settings} {p : Service} (h : OnTime c p) {role : Role} {id : Int}
    {state : State} {e : Event} (hstate : p.ledger.state? id = .ok (some state))
    (hcheck : p.authority.check role state.status e.status state.createdAt p.now = .ok ())
    (htime : e.time = max p.now state.updatedAt) (hoverdue : role = .system → c.Overdue p id) :
    e.time = p.now ∧ ∀ log, p.ledger.Logs id log → c.Limits log → c.Limits (log ++ [e]) := by
  obtain ⟨log, first, last, hlog, hfirst, hlast, hstatus, hcreated, hupdated⟩ :=
    h.ends_of_state? hstate
  obtain ⟨-, hallowed, hintime⟩ := Authority.check_eq_ok_iff.1 hcheck
  have hmem (x : Event) (hx : x ∈ log) : 0 ≤ x.time ∧ x.time ≤ p.now :=
    h.times x (mem_written.1 (hlog.mem_written hx)).1
  obtain ⟨hfrom, hahead⟩ := hmem first (List.mem_of_head? hfirst)
  obtain ⟨-, hto⟩ := hmem last (List.mem_of_getLast? hlast)
  have hnow : e.time = p.now := by omega
  refine ⟨hnow, fun log' hlog' hlimits => ?_⟩
  obtain rfl := hlog.unique hlog'
  refine hlimits.append (fun haccepted => ⟨first, hfirst, ?_⟩) fun x hx hlate => ?_
  · have hhi : Text.Range.signed.hi = 9223372036854775807 := rfl
    have hbound := h.bound
    have hpassed : elapsed first.time e.time = e.time - first.time := wrap_of_fits (by omega)
    have hwindow := hintime haccepted
    rw [hcreated, ← hnow, hpassed] at hwindow
    exact h.settings ▸ hwindow
  · obtain ⟨hrole, hsource⟩ := Role.source_of_late (hlate ▸ hallowed)
    rw [Option.mem_def, hlast] at hx
    cases hx
    have haccepted := hstatus.symm.trans hsource
    have hlong := hoverdue hrole log hlog last hlast haccepted
    exact ⟨haccepted, hnow ▸ hlong⟩

section Transitions

variable {c : Settings} {s s' : Shared} {t : Transition} {applied : Applied}

/-- A transition adds one event and keeps the limits. -/
theorem OnTime.transition (h : OnTime c s.service) (hticks : s.Ticks) {cause : Cause}
    (ht : t.Steps s.service cause) (hoverdue : t.role = .system → c.Overdue s.service t.id)
    (happly : t.apply s = (.ok applied, s')) :
    OnTime c s'.service ∧ s'.Ticks ∧ s.service.now ≤ s'.service.now ∧
      ∃ e, e.status = t.requested ∧
        s'.service.ledger.events = s.service.ledger.events ++ [EventRow.of e] := by
  obtain ⟨hcontinues, -⟩ := Transition.apply_continues ht hticks.quiet.continuing
  rw [happly] at hcontinues
  obtain ⟨state, e, hstate, hcheck, he, rfl⟩ := Transition.apply_writes hticks.quiet happly
  obtain ⟨hages, hturn⟩ := hticks.turn t
  have hq := h.ages hages
  have hid : e.solicitationId = t.id := by rw [he]
  have hrequested : e.status = t.requested := by rw [he]
  obtain ⟨hnow, hlimits⟩ := hq.granted (e := e) (hages.ledger ▸ hstate) (hrequested ▸ hcheck)
    (by rw [he]) fun hrole => (hoverdue hrole).ages hages
  let p := (t.turn s).withLedger (s.service.ledger.withEvent e)
  have hevents : p.service.ledger.events =
      (t.turn s).service.ledger.events ++ [e].map EventRow.of := by
    rw [hages.ledger]
    rfl
  refine ⟨hq.adds (hcontinues.exists_run h.run) rfl rfl hevents ?_ ?_,
    hturn.of_meanwhile rfl rfl, hages.le, e, hrequested, rfl⟩
  · exact List.forall_mem_singleton.2 ⟨hnow ▸ hq.started, Int.le_of_eq hnow⟩
  · intro id log hlog hkept
    rw [List.filter_singleton]
    by_cases hsame : t.id = id
    · rw [hid, decide_eq_true hsame]
      exact hlimits log (hsame ▸ hlog) hkept
    · rw [hid, decide_eq_false hsame]
      simpa using hkept

/-- One that fails leaves what the clock has come to. -/
theorem OnTime.failed (h : OnTime c s.service) (hticks : s.Ticks) {e : WorkflowError}
    (happly : t.apply s = (.error e, s')) :
    OnTime c s'.service ∧ s'.Ticks ∧ s.service.Ages s'.service := by
  obtain ⟨hages, hlater⟩ := hticks.later
  rcases Transition.apply_eq_error happly with rfl | rfl | rfl
  · exact ⟨h, hticks, .refl _⟩
  · exact ⟨h.ages hages, hlater, hages⟩
  · obtain ⟨hages', hlater'⟩ := hlater.later
    exact ⟨h.ages (hages.trans hages'), hlater', hages.trans hages'⟩

end Transitions

end GridDispatch
