import GridDispatch.Proofs.Announcement
import GridDispatch.Proofs.Transition

/-!
# What the sweep marks late

The sweep judges the age of an acceptance when it begins, and the transitions that it makes then ask
for the status only. So a mark replaces an acceptance from before the cutoff, or one that came after
the sweep had begun (`Shared.marks_amid`); `Shared.marks_of_renewed` shows that the latter happens.
`Shared.marks` are the writes of a sweep in order, each with the service before and after it; they are
all that it adds to the events (`Shared.mem_events_markEach`), and a sweep that comes to its end
gives their ids (`Shared.markLate_eq_ok`).
-/

namespace GridDispatch

/-- A solicitation that was marked late, with the service right before and right after the write. -/
structure Mark where
  id : Int
  before : Service
  after : Service

/-- The mark put the row at the end of the events. -/
def Mark.Writes (m : Mark) (row : EventRow) : Prop :=
  m.after.ledger.events = m.before.ledger.events ++ [row]

theorem wrap_of_has {n : Int} (h : Text.Range.signed.has n = true) : wrap n = n := by
  have hbounds : Text.Range.signed.lo ≤ n ∧ n ≤ Text.Range.signed.hi := of_decide_eq_true h
  simp only [Text.Range.signed] at hbounds
  exact wrap_of_fits (by omega)

/-- Acceptances from before this time are late. -/
def Service.cutoff (s : Service) : Int := wrap (s.now - s.settings.lateAfter)

namespace Shared

variable {s s' : Shared} {ids : List Int}

/-- The marks that `markEach` makes. -/
def marksEach (s : Shared) : List Int → List Mark
  | [] => []
  | id :: ids =>
    match (Transition.late id).apply s with
    | (.ok _, s') =>
      ⟨id, ((Transition.late id).turn s).service, s'.service⟩ ::
        marksEach { s' with service := s'.service.announceLate id } ids
    | (.error e, s') => if e.concernsOne then marksEach s' ids else []

/-- The marks that `markLate` makes. -/
def marks (s : Shared) : List Mark :=
  s.later.marksEach (s.later.service.ledger.stale s.later.service.cutoff)

/-- A sweep that comes to its end gives the ids of its marks. -/
theorem markEach_eq_ok {marked : List Int} (h : s.markEach ids = (.ok marked, s')) :
    marked = (s.marksEach ids).map Mark.id := by
  induction ids generalizing s marked with
  | nil =>
    cases h
    rfl
  | cons id ids ih =>
    obtain ⟨answer, s₁, happly⟩ : ∃ answer s₁, (Transition.late id).apply s = (answer, s₁) :=
      ⟨_, _, rfl⟩
    cases answer with
    | ok applied =>
      simp only [markEach, happly] at h
      simp only [marksEach, happly]
      split at h
      · rename_i hrest
        cases h
        rw [List.map_cons, ← ih hrest]
      · cases h
    | error e =>
      simp only [markEach, happly] at h
      simp only [marksEach, happly]
      split at h
      · rename_i hone
        rw [if_pos hone]
        exact ih h
      · cases h

theorem markLate_eq_ok {marked : List Int} (h : s.markLate = (.ok marked, s')) :
    marked = s.marks.map Mark.id := by
  rw [markLate, readClock_eq] at h
  exact markEach_eq_ok h

end Shared

/-! ## What has come since the sweep began -/

theorem Ledger.mem_stale {l : Ledger} {id cutoff : Int} (h : id ∈ l.stale cutoff) :
    ∃ head, l.head? id = some head ∧ head.status = Status.accepted.name ∧
      head.time.order (.int cutoff) = .lt := by
  obtain ⟨row, -, hrow⟩ := List.mem_filterMap.1 ((List.mergeSort_perm _ _).subset h)
  split at hrow
  · rename_i head hhead
    split at hrow
    · rename_i hstale
      cases hrow
      exact ⟨head, hhead, hstale⟩
    · cases hrow
  · cases hrow

/-- What a service can have become since `start` while only these acts of others and marks of the
sweep took place. -/
structure Since (start : Service) (acts : List Interference) (p : Service) : Prop where
  onward : start.ledger.Onward p.ledger
  source : ∀ row ∈ p.ledger.events, row ∈ start.ledger.events ∨
    row.status = Status.late.name ∨ Interference.Appended acts row

namespace Since

variable {start p p' : Service} {acts : List Interference}

theorem refl (start : Service) (acts : List Interference) : Since start acts start :=
  ⟨.refl _, fun _ hrow => .inl hrow⟩

theorem run (h : Since start acts p) {acts' : List Interference} (hsub : acts' ⊆ acts) :
    Since start acts (Interference.run acts' p) := by
  refine ⟨h.onward.trans (Interference.run_onward acts' p), fun row hrow => ?_⟩
  rcases Interference.mem_events_run hrow with hold | happended
  · exact h.source row hold
  · exact .inr (.inr (happended.mono hsub))

theorem replaces (h : Since start acts p) {id : Int} {head e : Event}
    (hreplaces : (Transition.late id).Replaces p head e p') : Since start acts p' := by
  refine ⟨h.onward.trans hreplaces.onward, fun row hrow => ?_⟩
  rw [hreplaces.wrote] at hrow
  rcases List.mem_append.1 hrow with hold | hnew
  · exact h.source row hold
  · rw [List.mem_singleton.1 hnew, hreplaces.event]
    exact .inr (.inl rfl)

theorem sameRows (h : Since start acts p) (hsame : p.ledger.SameRows p'.ledger) :
    Since start acts p' := by
  refine ⟨h.onward.trans (.of_events hsame.events hsame.lastEvent), fun row hrow => ?_⟩
  rw [hsame.events] at hrow
  exact h.source row hrow

end Since

/-- A shared service to which a sweep can have come; others have nothing but these acts to do. -/
structure Shared.During (start : Service) (acts : List Interference) (s : Shared) : Prop where
  since : Since start acts s.service
  rest : ∀ act ∈ s.meanwhile, ∃ acts', acts' ⊆ acts ∧ act = Interference.run acts'

namespace Shared

variable {start : Service} {acts : List Interference} {s s' : Shared}

theorem During.later (h : s.During start acts) : s.later.During start acts := by
  obtain ⟨service, meanwhile⟩ := s
  cases meanwhile with
  | nil => exact h
  | cons act rest =>
    obtain ⟨acts', hsub, rfl⟩ := h.rest act List.mem_cons_self
    exact ⟨h.since.run hsub, fun act hact => h.rest act (List.mem_cons_of_mem _ hact)⟩

theorem During.turn (h : s.During start acts) (t : Transition) :
    (t.turn s).During start acts := by
  rcases t.turn_cases s with hturn | hturn
  · exact hturn ▸ h.later
  · exact hturn ▸ h.later.later

theorem During.orderly (h : s.During start acts) : s.Orderly := by
  intro act hact p
  obtain ⟨acts', -, rfl⟩ := h.rest act hact
  exact Interference.run_onward acts' p

/-- A mark replaces the head, and the sweep goes on. -/
theorem During.marked (hn : start.ledger.Numbered) (h : s.During start acts) {id : Int}
    {applied : Applied} (happly : (Transition.late id).apply s = (.ok applied, s')) :
    (∃ head e, (Transition.late id).Replaces ((Transition.late id).turn s).service head e
      s'.service) ∧
      Shared.During start acts { s' with service := s'.service.announceLate id } := by
  obtain ⟨head, e, hreplaces, -, hmeanwhile⟩ := Transition.apply_replaces
    (hn.onward h.since.onward) h.orderly.onward h.orderly.later.onward happly
  have hturn := h.turn (Transition.late id)
  refine ⟨⟨head, e, hreplaces⟩, ?_, fun act hact => hturn.rest act (hmeanwhile ▸ hact)⟩
  exact (hturn.since.replaces hreplaces).sameRows (s'.service.announceLate_sameRows id)

/-- A candidate that is passed over leaves what others have done. -/
theorem During.passed (h : s.During start acts) {id : Int} {e : WorkflowError}
    (happly : (Transition.late id).apply s = (.error e, s')) : s'.During start acts := by
  rcases Transition.apply_eq_error happly with rfl | rfl | rfl
  · exact h
  · exact h.later
  · exact h.later.later

/-- Each mark replaces the head of a candidate. -/
theorem mem_marksEach (hn : start.ledger.Numbered) {ids : List Int} (h : s.During start acts)
    {m : Mark} (hm : m ∈ s.marksEach ids) : m.id ∈ ids ∧ Since start acts m.before ∧
      ∃ head e, (Transition.late m.id).Replaces m.before head e m.after := by
  induction ids generalizing s with
  | nil => cases hm
  | cons id ids ih =>
    simp only [marksEach] at hm
    split at hm
    · rename_i applied s' happly
      obtain ⟨hreplaces, hnext⟩ := h.marked hn happly
      rcases List.mem_cons.1 hm with rfl | hrest
      · exact ⟨List.mem_cons_self, (h.turn _).since, hreplaces⟩
      · obtain ⟨hid, hsince⟩ := ih hnext hrest
        exact ⟨List.mem_cons_of_mem _ hid, hsince⟩
    · rename_i e s' happly
      split at hm
      · obtain ⟨hid, hsince⟩ := ih (h.passed happly) hm
        exact ⟨List.mem_cons_of_mem _ hid, hsince⟩
      · cases hm

/-! ## What the sweep leaves in the ledger -/

theorem During.mem_events_later (h : s.During start acts) {row : EventRow}
    (hrow : row ∈ s.later.service.ledger.events) :
    row ∈ s.service.ledger.events ∨ Interference.Appended acts row := by
  obtain ⟨service, meanwhile⟩ := s
  cases meanwhile with
  | nil => exact .inl hrow
  | cons act rest =>
    obtain ⟨acts', hsub, rfl⟩ := h.rest act List.mem_cons_self
    exact (Interference.mem_events_run hrow).imp_right fun happended => happended.mono hsub

theorem During.mem_events_later_later (h : s.During start acts) {row : EventRow}
    (hrow : row ∈ s.later.later.service.ledger.events) :
    row ∈ s.service.ledger.events ∨ Interference.Appended acts row := by
  rcases h.later.mem_events_later hrow with hlater | happended
  · exact h.mem_events_later hlater
  · exact .inr happended

/-- The sweep adds its marks to what others leave, and nothing else. -/
theorem mem_events_markEach (hn : start.ledger.Numbered) {ids : List Int}
    (h : s.During start acts) {row : EventRow}
    (hrow : row ∈ (s.markEach ids).2.service.ledger.events) :
    row ∈ s.service.ledger.events ∨ Interference.Appended acts row ∨
      ∃ m ∈ s.marksEach ids, m.Writes row := by
  induction ids generalizing s with
  | nil => exact .inl hrow
  | cons id ids ih =>
    obtain ⟨answer, s', happly⟩ : ∃ answer s', (Transition.late id).apply s = (answer, s') :=
      ⟨_, _, rfl⟩
    cases answer with
    | ok applied =>
      obtain ⟨⟨head, e, hreplaces⟩, hnext⟩ := h.marked hn happly
      have hlast : row ∈
          (markEach { s' with service := s'.service.announceLate id } ids).2.service.ledger.events := by
        simp only [markEach, happly] at hrow
        split at hrow
        · rename_i hmarked
          rw [hmarked]
          exact hrow
        · rename_i hfailed
          rw [hfailed]
          exact hrow
      simp only [marksEach, happly]
      rcases ih hnext hlast with hold | happended | ⟨m, hm, hwrites⟩
      · rw [(s'.service.announceLate_sameRows id).events, hreplaces.wrote] at hold
        rcases List.mem_append.1 hold with hbefore | hnew
        · have hother : row ∈ s.service.ledger.events ∨ Interference.Appended acts row := by
            rcases (Transition.late id).turn_cases s with hturn | hturn
            · exact h.mem_events_later (hturn ▸ hbefore)
            · exact h.mem_events_later_later (hturn ▸ hbefore)
          exact hother.imp_right .inl
        · refine .inr (.inr ⟨_, List.mem_cons_self, ?_⟩)
          rw [List.mem_singleton.1 hnew, Mark.Writes, hreplaces.wrote]
          rfl
      · exact .inr (.inl happended)
      · exact .inr (.inr ⟨m, List.mem_cons_of_mem _ hm, hwrites⟩)
    | error e =>
      have hpassed {old : EventRow} (hold : old ∈ s'.service.ledger.events) :
          old ∈ s.service.ledger.events ∨ Interference.Appended acts old := by
        rcases Transition.apply_eq_error happly with rfl | rfl | rfl
        · exact .inl hold
        · exact h.mem_events_later hold
        · exact h.mem_events_later_later hold
      simp only [markEach, happly] at hrow
      simp only [marksEach, happly]
      split at hrow
      · rename_i hone
        rw [if_pos hone]
        rcases ih (h.passed happly) hrow with hold | happended | hmark
        · exact (hpassed hold).imp_right .inl
        · exact .inr (.inl happended)
        · exact .inr (.inr hmark)
      · exact (hpassed hrow).imp_right .inl

end Shared

/-! ## The age of what is marked -/

/-- The acceptance was appended by others since `start`, and not before the cutoff. -/
def Event.Renewed (start : Service) (acts : List Interference) (e : Event) : Prop :=
  start.ledger.lastEvent < e.eventId ∧ start.cutoff ≤ e.time ∧
    Interference.append e.solicitationId e.actor .accepted e.time ∈ acts

/-- A candidate's acceptance that is not before the cutoff has come since the sweep began. -/
theorem Since.renewed {start p : Service} {acts : List Interference} (h : Since start acts p)
    (hn : start.ledger.Numbered) {id : Int} (hid : id ∈ start.ledger.stale start.cutoff)
    {log : List Event} (hlog : p.ledger.Logs id log) {head : Event}
    (hhead : (newestFirst log).head? = some head) (hstatus : head.status = .accepted)
    (hfresh : start.cutoff ≤ head.time) : head.Renewed start acts := by
  have hmem := mem_of_newest hhead
  rcases h.onward.new_or_kept hlog hmem with hnew | ⟨log', hlog', hsub, hkept⟩
  · refine ⟨hnew, hfresh, ?_⟩
    rcases h.source _ (Ledger.mem_written.1 (hlog.mem_written hmem)).1 with hold | hlate | hother
    · have hle : head.eventId ≤ start.ledger.lastEvent := hn.le_last _ hold
      omega
    · have hname : Status.accepted.name = Status.late.name := hstatus ▸ hlate
      exact absurd hname (by decide)
    · obtain ⟨eventId, id', actor, status, time, hact, heq⟩ := hother
      have hread := EventRow.read_of head
      rw [heq, EventRow.read_of] at hread
      cases Except.ok.inj hread
      cases hstatus
      exact hact
  · -- it was the head of the candidate when the sweep began, and older than the cutoff
    obtain ⟨row, hrow, -, hold⟩ := Ledger.mem_stale hid
    rw [hlog'.head?] at hrow
    obtain ⟨head', hhead', rfl⟩ := Option.map_eq_some_iff.1 hrow
    have hbefore : head'.time < start.cutoff := Int.compare_eq_lt.1 hold
    have hnewer := Event.newer_iff.1 (newer_of_newest hhead' hkept)
    omega

namespace Shared

/-- A sweep amid others adds its marks to the events and nothing else. Each mark replaces an
acceptance; it is not from before the cutoff exactly if others have appended it since the sweep
began. -/
theorem marks_amid (s : Service) (others : List (List Interference)) (hn : s.ledger.Numbered) :
    let start := Interference.run (others.take 1).flatten s
    let acts := (others.drop 1).flatten
    (∀ row ∈ (s.amid others).markLate.2.service.ledger.events, row ∈ start.ledger.events ∨
      Interference.Appended acts row ∨ ∃ m ∈ (s.amid others).marks, m.Writes row) ∧
    ∀ m ∈ (s.amid others).marks, ∃ head e : Event,
      (Transition.late m.id).Replaces m.before head e m.after ∧ head.status = .accepted ∧
      (start.cutoff ≤ head.time ↔ head.Renewed start acts) := by
  intro start acts
  have hlater : (s.amid others).later = start.amid (others.drop 1) :=
    s.iterate_later_amid others 1
  have hnstart : start.ledger.Numbered := hn.onward (Interference.run_onward _ s)
  have hduring : (start.amid (others.drop 1)).During start acts := by
    refine ⟨.refl _ _, fun act hact => ?_⟩
    obtain ⟨acts', hacts, rfl⟩ := List.mem_map.1 hact
    exact ⟨acts', fun i hi => List.mem_flatten_of_mem hacts hi, rfl⟩
  constructor
  · intro row hrow
    rw [markLate, readClock_eq, hlater] at hrow
    rw [marks, hlater]
    exact mem_events_markEach hnstart hduring hrow
  · intro m hm
    rw [marks, hlater] at hm
    obtain ⟨hid, hsince, head, e, hreplaces⟩ := mem_marksEach hnstart hduring hm
    have hstatus := Role.eq_accepted_of_late hreplaces.allowed
    refine ⟨head, e, hreplaces, hstatus, fun hfresh => ?_, fun h => h.2.1⟩
    obtain ⟨log, hlog, hhead⟩ := hreplaces.logs
    exact hsince.renewed hnstart hid hlog hhead hstatus hfresh

/-- A solicitation that was accepted at 200 and is accepted again at 900, while the sweep of 1000 is
on its way. -/
theorem marks_amid_renewal :
    let s := Service.holding
      [⟨1, 1, some "ana", .new, 100, none⟩, ⟨2, 1, some "tito", .accepted, 200, none⟩] 1000
    let others := [[], [Interference.append 1 (some "tito") .accepted 900]]
    let start := Interference.run (others.take 1).flatten s
    let acts := (others.drop 1).flatten
    s.ledger.Numbered ∧ (s.amid others).marks.map Mark.id = [1] ∧
      (∀ row ∈ (s.amid others).markLate.2.service.ledger.events, row ∈ start.ledger.events ∨
        Interference.Appended acts row ∨ ∃ m ∈ (s.amid others).marks, m.Writes row) ∧
      ∀ m ∈ (s.amid others).marks, ∃ head e : Event,
        (Transition.late m.id).Replaces m.before head e m.after ∧ head.status = .accepted ∧
        (start.cutoff ≤ head.time ↔ head.Renewed start acts) := by
  intro s others start acts
  have hn : s.ledger.Numbered := Service.holding_numbered (by decide) 1000
  exact ⟨hn, by cbv, marks_amid s others hn⟩

/-- The sweep marks that solicitation late although the acceptance that it replaces is not from
before the cutoff. -/
theorem marks_of_renewed :
    let s := Service.holding
      [⟨1, 1, some "ana", .new, 100, none⟩, ⟨2, 1, some "tito", .accepted, 200, none⟩] 1000
    let others := [[], [Interference.append 1 (some "tito") .accepted 900]]
    let start := Interference.run (others.take 1).flatten s
    (s.amid others).markLate.1 = .ok [1] ∧
      ¬ ∀ m ∈ (s.amid others).marks, ∀ head : Event,
        m.before.ledger.head? m.id = some (EventRow.of head) → head.time < start.cutoff := by
  intro s others start
  have hmarks : (s.amid others).marks.map (fun m => m.before.ledger.head? m.id) =
      [some (EventRow.of ⟨3, 1, some "tito", .accepted, 900, none⟩)] := by cbv
  have hcutoff : start.cutoff = 700 := by cbv
  refine ⟨by cbv, fun h => ?_⟩
  obtain ⟨m, hm, hhead⟩ := List.mem_map.1 (hmarks ▸ List.mem_singleton_self _)
  have hlt := h m hm _ hhead
  rw [hcutoff] at hlt
  exact absurd hlt (by decide)

end Shared

end GridDispatch
