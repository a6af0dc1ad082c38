import GridDispatch.Proofs.Announcement
import GridDispatch.Proofs.Ledger.Built
import GridDispatch.Proofs.Transition
import GridDispatch.Workflow.Change
import GridDispatch.Workflow.Submit
import GridDispatch.Workflow.Sweep

/-!
# What requests do to a service

`Request` is what users and the sweep ask of a service, and `Service.after` is the service after a
request that nobody interferes with. A request comes down to writes: whatever goes from write to
write (`Service.Covers`) is true of the whole request, also amid others of whom it is true
(`Service.Covers.submit`, `Service.Covers.changeStatus`, `Service.Covers.markLate`). A
`Service.Course` is requests one after the other, during which nobody else works on the ledger.
-/

namespace GridDispatch

open Ledger

inductive Request
  | submit (requesterId companyCode groupId : String) (batch : Batch)
  | change (r : ChangeRequest)
  | sweep

namespace Service

/-- The service after a request that is carried out with nobody else around. -/
def after (s : Service) : Request → Service
  | .submit requesterId companyCode groupId batch =>
    (s.alone.submit requesterId companyCode groupId batch).2.service
  | .change r => (s.alone.changeStatus r).2.service
  | .sweep => s.alone.markLate.2.service

/-- A relation between services that goes from write to write and that everything is in which a
request writes. -/
structure Covers (R : Service → Service → Prop) : Prop where
  refl (p : Service) : R p p
  trans {p p' p'' : Service} : R p p' → R p' p'' → R p p''
  createBatch {p : Service} {g : Group} {news : List NewSolicitation} {status : Status} {time : Int}
    {ids : List Int} {ledger : Ledger} :
    p.ledger.createBatch g news status time = .ok (ids, ledger) → R p { p with ledger }
  appendIfCurrent {p : Service} {id eventId time : Int} {seen : Marker} {actor : Option String}
    {status : Status} {justification : Option String} {ledger : Ledger} :
    p.ledger.appendIfCurrent id seen actor status time justification = .ok (eventId, ledger) →
      R p { p with ledger }
  record {p : Service} {id token : Int} {userId : Option String} {kind : UpdateKind} {content : Json}
    {ledger : Ledger} (bus : Bus) : content.Plain →
    p.ledger.record id userId kind content = .ok (token, ledger) → R p { p with ledger, bus }

end Service

section Covers

variable {R : Service → Service → Prop} {s s' : Shared}

namespace Service.Covers

theorem later (hR : Covers R) (h : s.OthersIn R) : R s.service s.later.service :=
  h.rel_later hR.refl

theorem announce (hR : Covers R) (p : Service) (id : Int) (userId : Option String)
    (kind : UpdateKind) {content : Json} (hplain : content.Plain)
    (recipients : Option (List String)) :
    R p (p.announce id userId kind content recipients).2 := by
  simp only [Service.announce]
  split
  · exact hR.refl p
  · rename_i hrecord
    exact hR.record _ hplain hrecord

theorem announceLate (hR : Covers R) (p : Service) (id : Int) : R p (p.announceLate id) :=
  hR.announce p _ _ _ (lateContent_plain ..) _

theorem announceCreated (hR : Covers R) (p : Service) (requesterId groupId : String)
    (created : List (Int × NewSolicitation)) :
    R p (p.announceCreated requesterId groupId created) := by
  induction created generalizing p with
  | nil => exact hR.refl p
  | cons entry created ih =>
    exact hR.trans (hR.announce p _ _ _ (createdContent_plain ..) _) (ih _)

theorem attempt (hR : Covers R) {t : Transition} {applied : Applied}
    (h : t.attempt s = (.ok applied, s')) :
    R s.later.service s'.service ∧ s'.meanwhile = s.later.meanwhile := by
  obtain ⟨state, ledger, -, -, happend, rfl⟩ := Transition.attempt_eq_ok h
  exact ⟨hR.appendIfCurrent happend, rfl⟩

theorem apply (hR : Covers R) (t : Transition) (hs : s.OthersIn R) :
    R s.service (t.apply s).2.service ∧ (t.apply s).2.OthersIn R := by
  obtain ⟨answer, s', happly⟩ : ∃ answer s', t.apply s = (answer, s') := ⟨_, _, rfl⟩
  have hlater := hR.later hs
  have hlater' := hR.later hs.later
  rw [happly]
  cases answer with
  | error e =>
    rcases Transition.apply_eq_error happly with rfl | rfl | rfl
    · exact ⟨hR.refl _, hs⟩
    · exact ⟨hlater, hs.later⟩
    · exact ⟨hR.trans hlater hlater', hs.later.later⟩
  | ok applied =>
    by_cases hloses : t.Loses s
    · rw [Transition.apply_of_loses hloses] at happly
      obtain ⟨hattempt, hrest⟩ := hR.attempt happly
      exact ⟨hR.trans (hR.trans hlater hlater') hattempt,
        hs.later.later.of_meanwhile fun _ hact => hrest ▸ hact⟩
    · rw [Transition.apply_of_not_loses hloses] at happly
      obtain ⟨hattempt, hrest⟩ := hR.attempt happly
      exact ⟨hR.trans hlater hattempt, hs.later.of_meanwhile fun _ hact => hrest ▸ hact⟩

theorem changeStatus (hR : Covers R) (hs : s.OthersIn R) (r : ChangeRequest) :
    R s.service (s.changeStatus r).2.service := by
  simp only [Shared.changeStatus]
  split
  · exact hR.refl _
  · rename_i t solicitation _
    have happlied := (hR.apply t hs).1
    split
    · rename_i happly
      rw [happly] at happlied
      exact happlied
    · rename_i applied s' happly
      rw [happly] at happlied
      exact hR.trans happlied (hR.announce s'.service _ _ _ (changedContent_plain ..) _)

theorem markEach (hR : Covers R) (hs : s.OthersIn R) (ids : List Int) :
    R s.service (s.markEach ids).2.service := by
  induction ids generalizing s with
  | nil => exact hR.refl _
  | cons id ids ih =>
    obtain ⟨happlied, hothers⟩ := hR.apply (.late id) hs
    simp only [Shared.markEach]
    split
    · rename_i applied s' happly
      rw [happly] at happlied hothers
      have hannounced : R s'.service (s'.service.announceLate id) := hR.announceLate s'.service id
      have hrest := ih (s := { s' with service := s'.service.announceLate id }) hothers
      have hall := hR.trans (hR.trans happlied hannounced) hrest
      split
      · rename_i hmarked
        rw [hmarked] at hall
        exact hall
      · rename_i hfailed
        rw [hfailed] at hall
        exact hall
    · rename_i e s' happly
      rw [happly] at happlied hothers
      split
      · exact hR.trans happlied (ih hothers)
      · exact happlied

theorem markLate (hR : Covers R) (hs : s.OthersIn R) : R s.service s.markLate.2.service := by
  rw [Shared.markLate, Shared.readClock_eq]
  exact hR.trans (hR.later hs) (hR.markEach hs.later _)

theorem submit (hR : Covers R) (hs : s.OthersIn R) (requesterId companyCode groupId : String)
    (batch : Batch) :
    R s.service (s.submit requesterId companyCode groupId batch).2.service := by
  simp only [Shared.submit, Shared.readClock_eq]
  split
  · exact hR.refl _
  · rename_i news _
    split
    · exact hR.later hs
    · rename_i ids ledger hbatch
      have hentered : R s.later.service (s.later.withLedger ledger).service := hR.createBatch hbatch
      exact hR.trans (hR.trans (hR.later hs) hentered) (hR.announceCreated ..)

/-- A request that nobody interferes with is in the relation. -/
theorem after (hR : Covers R) (p : Service) (r : Request) : R p (p.after r) := by
  have halone := Shared.OthersIn.alone (R := R) p
  cases r with
  | submit requesterId companyCode groupId batch =>
    exact hR.submit halone requesterId companyCode groupId batch
  | change r => exact hR.changeStatus halone r
  | sweep => exact hR.markLate halone

end Service.Covers
end Covers

/-- The ledger was written to, with the same reference data and settings. -/
structure Service.Works (p p' : Service) : Prop where
  writes : Writes p.ledger p'.ledger
  directory : p'.directory = p.directory
  settings : p'.settings = p.settings

theorem Service.works_covers : Covers Works where
  refl _ := ⟨.refl, rfl, rfl⟩
  trans h h' :=
    ⟨h.writes.trans h'.writes, h'.directory.trans h.directory, h'.settings.trans h.settings⟩
  createBatch h := ⟨.single (.createBatch h), rfl, rfl⟩
  appendIfCurrent h := ⟨.single (.appendIfCurrent h), rfl, rfl⟩
  record _ _ h := ⟨.single (.record h), rfl, rfl⟩

theorem Service.after_works (s : Service) (r : Request) : s.Works (s.after r) :=
  works_covers.after s r

/-! ## Requests one after the other -/

namespace Shared

variable {s s' : Shared}

/-- While a request is carried out the clock may be set and anything else may change that is not in
the ledger. -/
def Quiet (s : Shared) : Prop := ∀ act ∈ s.meanwhile, ∀ p : Service, (act p).ledger = p.ledger

theorem alone_quiet (p : Service) : p.alone.Quiet := List.forall_mem_nil _

namespace Quiet

theorem of_meanwhile (h : s.Quiet) (hsub : s'.meanwhile ⊆ s.meanwhile) : s'.Quiet :=
  OthersIn.of_meanwhile (R := fun p p' => p'.ledger = p.ledger) h hsub

theorem later (h : s.Quiet) : s.later.Quiet :=
  OthersIn.later (R := fun p p' => p'.ledger = p.ledger) h

theorem ledger_later (h : s.Quiet) : s.later.service.ledger = s.service.ledger :=
  OthersIn.rel_later (R := fun p p' => p'.ledger = p.ledger) h fun _ => rfl

theorem turn (h : s.Quiet) (t : Transition) :
    (t.turn s).Quiet ∧ (t.turn s).service.ledger = s.service.ledger := by
  rcases t.turn_cases s with hturn | hturn
  · rw [hturn]
    exact ⟨h.later, h.ledger_later⟩
  · rw [hturn]
    exact ⟨h.later.later, h.later.ledger_later.trans h.ledger_later⟩

theorem orderly (h : s.Quiet) : s.Orderly := by
  intro act hact p
  rw [h act hact p]
  exact .refl _

end Quiet
end Shared

namespace Service

/-- One request; or something changes that is not in the ledger. -/
inductive Next : Service → Service → Prop
  | submit {s : Shared} (requesterId companyCode groupId : String) (batch : Batch) :
    s.Quiet → Next s.service (s.submit requesterId companyCode groupId batch).2.service
  | change {s : Shared} (r : ChangeRequest) :
    s.Quiet → Next s.service (s.changeStatus r).2.service
  | sweep {s : Shared} : s.Quiet → Next s.service s.markLate.2.service
  | outside {p p' : Service} : p'.ledger = p.ledger → Next p p'

/-- Requests one after the other. -/
abbrev Course : Service → Service → Prop := Relation.ReflTransGen Next

end Service

end GridDispatch
