import GridDispatch.Proofs.Ledger.Write
import GridDispatch.Workflow.Change
import GridDispatch.Workflow.Submit
import GridDispatch.Workflow.Sweep

/-!
# Announcements

Announcing something adds to the updates and to the bus at most: the solicitations and their events
stay as they are (`Service.announce_sameRows`). What is announced is plain, so that it is read as it
was recorded.
-/

namespace GridDispatch

/-! ## Contents -/

theorem createdContent_plain (id : Int) (new : NewSolicitation) (groupId : String) :
    (createdContent id new groupId).Plain :=
  ⟨rfl, (by decide : 1 ≤ Json.depthBound)⟩

theorem changedContent_plain (t : Transition) (source : Status) (solicitation : Solicitation) :
    (changedContent t source solicitation).Plain := by
  obtain ⟨id, actor, role, requested, justification⟩ := t
  cases justification <;> exact ⟨rfl, (by decide : 1 ≤ Json.depthBound)⟩

theorem lateContent_plain (id : Int) (companyCode : Option String) :
    (lateContent id companyCode).Plain := by
  cases companyCode <;> exact ⟨rfl, (by decide : 1 ≤ Json.depthBound)⟩

/-! ## Rows -/

namespace Ledger

/-- The two ledgers hold the same solicitations and events and have given out the same ids. -/
structure SameRows (l l' : Ledger) : Prop where
  envelopes : l'.envelopes = l.envelopes
  events : l'.events = l.events
  lastEnvelope : l'.lastEnvelope = l.lastEnvelope
  lastEvent : l'.lastEvent = l.lastEvent

theorem SameRows.refl (l : Ledger) : l.SameRows l := ⟨rfl, rfl, rfl, rfl⟩

theorem SameRows.trans {l l' l'' : Ledger} (h : l.SameRows l') (h' : l'.SameRows l'') :
    l.SameRows l'' where
  envelopes := h'.envelopes.trans h.envelopes
  events := h'.events.trans h.events
  lastEnvelope := h'.lastEnvelope.trans h.lastEnvelope
  lastEvent := h'.lastEvent.trans h.lastEvent

end Ledger

namespace Service

theorem announce_of_record {s : Service} {id token : Int} {userId : Option String}
    {kind : UpdateKind} {content : Json} {l : Ledger} (recipients : Option (List String))
    (h : s.ledger.record id userId kind content = .ok (token, l)) :
    s.announce id userId kind content recipients = (some token,
      { s with ledger := l, bus := (s.bus.publish (.of token recipients)).2 }) := by
  simp only [announce, h]

theorem announce_of_refused {s : Service} {id : Int} {userId : Option String} {kind : UpdateKind}
    {content : Json} {e : StoreError} (recipients : Option (List String))
    (h : s.ledger.record id userId kind content = .error e) :
    s.announce id userId kind content recipients = (none, s) := by
  simp only [announce, h]

theorem announce_sameRows (s : Service) (id : Int) (userId : Option String) (kind : UpdateKind)
    (content : Json) (recipients : Option (List String)) :
    s.ledger.SameRows (s.announce id userId kind content recipients).2.ledger := by
  simp only [announce]
  split
  · exact .refl _
  · rename_i hrecord
    rw [Ledger.record_eq_ok hrecord]
    exact ⟨rfl, rfl, rfl, rfl⟩

theorem announceLate_sameRows (s : Service) (id : Int) :
    s.ledger.SameRows (s.announceLate id).ledger :=
  s.announce_sameRows ..

theorem announceCreated_sameRows (s : Service) (requesterId groupId : String)
    (created : List (Int × NewSolicitation)) :
    s.ledger.SameRows (s.announceCreated requesterId groupId created).ledger := by
  induction created generalizing s with
  | nil => exact .refl _
  | cons entry created ih => exact (s.announce_sameRows ..).trans (ih _)

end Service

end GridDispatch
