import GridDispatch.Proofs.Lifecycle.Run
import GridDispatch.Proofs.Requests

/-!
# Whole requests as parts of runs

A request that is carried out while others act is a part of a run if whatever the others do is one:
`Shared.submit_continues`, `Shared.changeStatus_continues` and `Shared.markLate_continues`. So is a
course of such requests (`Service.CourseAmid`), and what the others do may again be such courses, to
any depth. If the others keep to services with a property that no write takes away, so does the run
(`ContinuesIn`).
-/

namespace GridDispatch

variable {P : Service → Prop} {p p' p'' : Service} {s s' : Shared}

/-- A run that has come to `p` can go on to `p'`, and nothing that was there before is lost. -/
def Continues (p p' : Service) : Prop :=
  ∀ past entries, Run p past entries → ∃ past' entries', Run p' past' entries' ∧
    p :: past ⊆ p' :: past'

/-- The same of a run through services with a property. -/
def ContinuesIn (P : Service → Prop) (p p' : Service) : Prop :=
  ∀ past entries, Run p past entries → (∀ q ∈ p :: past, P q) → ∃ past' entries',
    Run p' past' entries' ∧ p :: past ⊆ p' :: past' ∧ ∀ q ∈ p' :: past', P q

theorem continuesIn_true : ContinuesIn (fun _ => True) = Continues := by
  funext p p'
  simp [ContinuesIn, Continues]

namespace ContinuesIn

theorem refl (p : Service) : ContinuesIn P p p := fun past entries h hall =>
  ⟨past, entries, h, List.Subset.refl _, hall⟩

theorem trans (h : ContinuesIn P p p') (h' : ContinuesIn P p' p'') : ContinuesIn P p p'' := by
  intro past entries hrun hall
  obtain ⟨past', entries', hrun', hsub, hall'⟩ := h past entries hrun hall
  obtain ⟨past'', entries'', hrun'', hsub', hall''⟩ := h' past' entries' hrun' hall'
  exact ⟨past'', entries'', hrun'', List.Subset.trans hsub hsub', hall''⟩

/-- A step may be taken that has read what was there on the way. -/
theorem step {q : Service} {cause : Cause} (h : ContinuesIn P p p') (h' : ContinuesIn P p' p'')
    (hstep : ∀ seen, p ∈ seen → p' ∈ seen → Step seen p'' cause q) (hq : P p'' → P q) :
    ContinuesIn P p q := by
  intro past entries hrun hall
  obtain ⟨past', entries', hrun', hsub, hall'⟩ := h past entries hrun hall
  obtain ⟨past'', entries'', hrun'', hsub', hall''⟩ := h' past' entries' hrun' hall'
  have hseen : p :: past ⊆ p'' :: past'' := List.Subset.trans hsub hsub'
  obtain ⟨entries₁, hrun₁⟩ :=
    hrun''.take (hstep _ (hseen List.mem_cons_self) (hsub' List.mem_cons_self))
  refine ⟨_, entries₁, hrun₁, List.Subset.trans hseen (List.subset_cons_self _ _), ?_⟩
  exact List.forall_mem_cons.2 ⟨hq (hall'' _ List.mem_cons_self), hall''⟩

/-- What is not about solicitations and their events may change at any time. -/
theorem of_sameRows (h : p.ledger.SameRows p'.ledger) (hp : P p → P p') : ContinuesIn P p p' :=
  (refl p).step (refl p) (fun _ _ _ => .outside h) hp

end ContinuesIn

namespace Continues

theorem refl (p : Service) : Continues p p := by
  rw [← continuesIn_true]
  exact .refl p

theorem trans (h : Continues p p') (h' : Continues p' p'') : Continues p p'' := by
  rw [← continuesIn_true] at *
  exact ContinuesIn.trans h h'

theorem exists_run (h : Continues p p') (hrun : ∃ past entries, Run p past entries) :
    ∃ past entries, Run p' past entries := by
  obtain ⟨past, entries, hrun⟩ := hrun
  obtain ⟨past', entries', hrun', -⟩ := h past entries hrun
  exact ⟨past', entries', hrun'⟩

theorem of_sameRows (h : p.ledger.SameRows p'.ledger) : Continues p p' := by
  rw [← continuesIn_true]
  exact .of_sameRows h id

end Continues

/-- Whatever the others do is a part of a run. -/
def Shared.Continuing (s : Shared) : Prop := ∀ act ∈ s.meanwhile, ∀ p : Service, Continues p (act p)

theorem Shared.continuing_eq (s : Shared) :
    s.Continuing = s.OthersIn (ContinuesIn fun _ => True) := by
  rw [continuesIn_true]
  rfl

/-! ## Transitions -/

/-- An attempt depends on nothing but what was read and what is there when it writes. -/
theorem Transition.attempt_replay {t : Transition} {applied : Applied}
    (h : t.attempt s = (.ok applied, s')) :
    t.attempt ⟨s.service, [fun _ => s.later.service]⟩ = (.ok applied, ⟨s'.service, []⟩) := by
  obtain ⟨state, ledger, hgranted, hsource, happend, rfl⟩ := attempt_eq_ok h
  have hreplay : t.Granted ⟨s.service, [fun _ => s.later.service]⟩ state := hgranted
  have hwrite : (Shared.later ⟨s.service, [fun _ => s.later.service]⟩).service =
    s.later.service := rfl
  rw [attempt_of_granted hreplay, hwrite, happend, ← hsource]
  rfl

/-- `t` makes a step of a run wherever an attempt with a standing that was read before succeeds. -/
def Transition.Steps (t : Transition) (q : Service) (cause : Cause) : Prop :=
  ∀ (seen : List Service) (p q' : Service) (applied : Applied) (s' : Shared),
    q ∈ seen → q' ∈ seen → t.attempt ⟨q', [fun _ => p]⟩ = (.ok applied, s') →
    Step seen p cause s'.service

section Writing

variable (hP : Service.Covers fun p p' => P p → P p')
include hP

theorem Transition.apply_continuesIn {t : Transition} {cause : Cause}
    (ht : t.Steps s.service cause) (hs : s.OthersIn (ContinuesIn P)) :
    ContinuesIn P s.service (t.apply s).2.service ∧
      (t.apply s).2.OthersIn (ContinuesIn P) := by
  obtain ⟨answer, s', happly⟩ : ∃ answer s', t.apply s = (answer, s') := ⟨_, _, rfl⟩
  have hlater := hs.rel_later .refl
  have hlater' := hs.later.rel_later .refl
  rw [happly]
  cases answer with
  | error e =>
    rcases apply_eq_error happly with rfl | rfl | rfl
    · exact ⟨.refl _, hs⟩
    · exact ⟨hlater, hs.later⟩
    · exact ⟨hlater.trans hlater', hs.later.later⟩
  | ok applied =>
    by_cases hloses : t.Loses s
    · rw [apply_of_loses hloses] at happly
      obtain ⟨hwrites, hrest⟩ := hP.attempt happly
      have hstep (seen : List Service) (hq : s.service ∈ seen) (hq' : s.later.service ∈ seen) :
          Step seen s.later.later.service cause s'.service :=
        ht seen _ _ _ ⟨s'.service, []⟩ hq hq' (attempt_replay happly)
      exact ⟨hlater.step hlater' hstep hwrites,
        hs.later.later.of_meanwhile fun _ hact => hrest ▸ hact⟩
    · rw [apply_of_not_loses hloses] at happly
      obtain ⟨hwrites, hrest⟩ := hP.attempt happly
      have hstep (seen : List Service) (hq : s.service ∈ seen) (hq' : s.service ∈ seen) :
          Step seen s.later.service cause s'.service :=
        ht seen _ _ _ ⟨s'.service, []⟩ hq hq' (attempt_replay happly)
      exact ⟨(ContinuesIn.refl _).step hlater hstep hwrites,
        hs.later.of_meanwhile fun _ hact => hrest ▸ hact⟩

namespace Shared

/-! ## Requests -/

theorem changeStatus_continuesIn (hs : s.OthersIn (ContinuesIn P)) (r : ChangeRequest) :
    ContinuesIn P s.service (s.changeStatus r).2.service ∧
      (s.changeStatus r).2.OthersIn (ContinuesIn P) := by
  simp only [changeStatus]
  split
  · exact ⟨.refl _, hs⟩
  · rename_i t solicitation hcheck
    have ht : t.Steps s.service (.change s.service r) := fun _ _ _ _ _ hq hq' hattempt =>
      .change hq hcheck hq' hattempt
    obtain ⟨hcontinues, hothers⟩ := Transition.apply_continuesIn hP ht hs
    split
    · rename_i happly
      rw [happly] at hcontinues hothers
      exact ⟨hcontinues, hothers⟩
    · rename_i applied s' happly
      rw [happly] at hcontinues hothers
      refine ⟨hcontinues.trans (.of_sameRows ?_ ?_), hothers⟩
      · exact s'.service.announce_sameRows ..
      · exact hP.announce s'.service _ _ _ (changedContent_plain ..) _

theorem markEach_continuesIn (hs : s.OthersIn (ContinuesIn P)) (ids : List Int) :
    ContinuesIn P s.service (s.markEach ids).2.service ∧
      (s.markEach ids).2.OthersIn (ContinuesIn P) := by
  induction ids generalizing s with
  | nil => exact ⟨.refl _, hs⟩
  | cons id ids ih =>
    have ht : (Transition.late id).Steps s.service .sweep := fun _ _ _ _ _ _ hq' hattempt =>
      .sweep hq' hattempt
    obtain ⟨hcontinues, hothers⟩ := Transition.apply_continuesIn hP ht hs
    simp only [markEach]
    split
    · rename_i applied s' happly
      rw [happly] at hcontinues hothers
      have hannounced : ContinuesIn P s'.service (s'.service.announceLate id) :=
        .of_sameRows (s'.service.announceLate_sameRows id) (hP.announceLate s'.service id)
      obtain ⟨hrest, hrest'⟩ := ih (s := { s' with service := s'.service.announceLate id }) hothers
      have hall := (hcontinues.trans hannounced).trans hrest
      split
      · rename_i hmarked
        rw [hmarked] at hall hrest'
        exact ⟨hall, hrest'⟩
      · rename_i hfailed
        rw [hfailed] at hall hrest'
        exact ⟨hall, hrest'⟩
    · rename_i e s' happly
      rw [happly] at hcontinues hothers
      split
      · obtain ⟨hrest, hrest'⟩ := ih hothers
        exact ⟨hcontinues.trans hrest, hrest'⟩
      · exact ⟨hcontinues, hothers⟩

theorem markLate_continuesIn (hs : s.OthersIn (ContinuesIn P)) :
    ContinuesIn P s.service s.markLate.2.service ∧ s.markLate.2.OthersIn (ContinuesIn P) := by
  rw [markLate, readClock_eq]
  obtain ⟨hcontinues, hothers⟩ := markEach_continuesIn hP hs.later
    (s.later.service.ledger.stale (wrap (s.later.service.now - s.later.service.settings.lateAfter)))
  exact ⟨(hs.rel_later .refl).trans hcontinues, hothers⟩

theorem submit_continuesIn (hs : s.OthersIn (ContinuesIn P))
    (requesterId companyCode groupId : String) (batch : Batch) :
    ContinuesIn P s.service (s.submit requesterId companyCode groupId batch).2.service ∧
      (s.submit requesterId companyCode groupId batch).2.OthersIn (ContinuesIn P) := by
  have hlater := hs.rel_later .refl
  simp only [submit, readClock_eq]
  split
  · exact ⟨.refl _, hs⟩
  · rename_i news hcheck
    split
    · exact ⟨hlater, hs.later⟩
    · rename_i ids ledger hbatch
      have hwritten : ContinuesIn P s.service (s.later.withLedger ledger).service :=
        (ContinuesIn.refl _).step hlater (fun _ hq _ => .submit hq hcheck hbatch)
          (hP.createBatch hbatch)
      have hannounced : ContinuesIn P (s.later.withLedger ledger).service
          ((s.later.withLedger ledger).service.announceCreated requesterId groupId
            (ids.zip news)) :=
        .of_sameRows (Service.announceCreated_sameRows ..) (hP.announceCreated _ _ _ _)
      exact ⟨hwritten.trans hannounced, hs.later⟩

end Shared

/-- A request with nobody else around. -/
theorem Service.after_continuesIn (p : Service) (r : Request) : ContinuesIn P p (p.after r) := by
  have halone : p.alone.OthersIn (ContinuesIn P) := .alone p
  cases r with
  | submit requesterId companyCode groupId batch =>
    exact (Shared.submit_continuesIn hP halone requesterId companyCode groupId batch).1
  | change r => exact (Shared.changeStatus_continuesIn hP halone r).1
  | sweep => exact (Shared.markLate_continuesIn hP halone).1

end Writing

/-! ## Requests of which nothing else is known -/

theorem Service.covers_true : Covers fun _ _ => True → True where
  refl _ := id
  trans _ _ := id
  createBatch _ := id
  appendIfCurrent _ := id
  record _ _ _ := id

theorem Transition.apply_continues {t : Transition} {cause : Cause}
    (ht : t.Steps s.service cause) (hs : s.Continuing) :
    Continues s.service (t.apply s).2.service ∧ (t.apply s).2.Continuing := by
  rw [Shared.continuing_eq] at *
  rw [← continuesIn_true]
  exact apply_continuesIn Service.covers_true ht hs

namespace Shared

theorem changeStatus_continues (hs : s.Continuing) (r : ChangeRequest) :
    Continues s.service (s.changeStatus r).2.service ∧ (s.changeStatus r).2.Continuing := by
  rw [continuing_eq] at *
  rw [← continuesIn_true]
  exact changeStatus_continuesIn Service.covers_true hs r

theorem markLate_continues (hs : s.Continuing) :
    Continues s.service s.markLate.2.service ∧ s.markLate.2.Continuing := by
  rw [continuing_eq] at *
  rw [← continuesIn_true]
  exact markLate_continuesIn Service.covers_true hs

theorem submit_continues (hs : s.Continuing) (requesterId companyCode groupId : String)
    (batch : Batch) :
    Continues s.service (s.submit requesterId companyCode groupId batch).2.service ∧
      (s.submit requesterId companyCode groupId batch).2.Continuing := by
  rw [continuing_eq] at *
  rw [← continuesIn_true]
  exact submit_continuesIn Service.covers_true hs requesterId companyCode groupId batch

end Shared

/-! ## Courses of requests amid others -/

namespace Service

/-- One request amid others whose acts are parts of runs; or something changes that is not about
solicitations and their events. -/
inductive NextAmid : Service → Service → Prop
  | submit {s : Shared} (requesterId companyCode groupId : String) (batch : Batch) :
    s.Continuing → NextAmid s.service (s.submit requesterId companyCode groupId batch).2.service
  | change {s : Shared} (r : ChangeRequest) :
    s.Continuing → NextAmid s.service (s.changeStatus r).2.service
  | sweep {s : Shared} : s.Continuing → NextAmid s.service s.markLate.2.service
  | outside {p p' : Service} : p.ledger.SameRows p'.ledger → NextAmid p p'

/-- Requests one after the other, each amid others. -/
abbrev CourseAmid : Service → Service → Prop := Relation.ReflTransGen NextAmid

theorem NextAmid.continues (h : NextAmid p p') : Continues p p' := by
  cases h with
  | submit requesterId companyCode groupId batch hs =>
    exact (Shared.submit_continues hs requesterId companyCode groupId batch).1
  | change r hs => exact (Shared.changeStatus_continues hs r).1
  | sweep hs => exact (Shared.markLate_continues hs).1
  | outside hsame => exact .of_sameRows hsame

theorem CourseAmid.continues (h : CourseAmid p p') : Continues p p' := by
  induction h with
  | refl => exact .refl p
  | tail _ hnext ih => exact ih.trans hnext.continues

end Service

/-- What the others do may be such courses again. -/
theorem Shared.continuing_of_courses
    (h : ∀ act ∈ s.meanwhile, ∀ p : Service, p.CourseAmid (act p)) : s.Continuing :=
  fun act hact p => (h act hact p).continues

end GridDispatch
