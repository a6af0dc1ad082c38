import GridDispatch.Proofs.Ledger.Growth
import GridDispatch.Proofs.Requests
import GridDispatch.Proofs.Submission

/-!
# Operations one after the other

An `Operation` is one of the writes to the store, a request to the service, or the passing of time.
Operations let the ledger grow (`Operation.run_grows`), and every event and update belongs to a
solicitation that is there, whatever they are (`Operation.run_referenced`).
-/

namespace GridDispatch

open Ledger

inductive Operation
  | create (new : NewSolicitation) (requesterId : String) (status : Status) (time : Int)
  | createBatch (g : Group) (news : List NewSolicitation) (status : Status) (time : Int)
  | append (id : Int) (actor : Option String) (status : Status) (time : Int)
  | appendIfCurrent (id : Int) (seen : Marker) (actor : Option String) (status : Status) (time : Int)
      (justification : Option String)
  | record (id : Int) (userId : Option String) (kind : UpdateKind) (content : Json)
  | request (r : Request)
  | setClock (now : Int)

/-- The service after a write to its ledger. One that is refused leaves everything as it was. -/
def Service.wrote {α : Type} (s : Service) : Except StoreError (α × Ledger) → Service
  | .ok (_, ledger) => { s with ledger }
  | .error _ => s

namespace Operation

def perform (s : Service) : Operation → Service
  | create new requesterId status time => s.wrote (s.ledger.create new requesterId status time)
  | createBatch g news status time => s.wrote (s.ledger.createBatch g news status time)
  | append id actor status time => s.wrote (s.ledger.append id actor status time)
  | appendIfCurrent id seen actor status time justification =>
    s.wrote (s.ledger.appendIfCurrent id seen actor status time justification)
  | record id userId kind content => s.wrote (s.ledger.record id userId kind content)
  | request r => s.after r
  | setClock now => { s with now }

/-- One operation after the other. -/
def run (ops : List Operation) (s : Service) : Service := ops.foldl perform s

end Operation

/-! ## What an operation comes down to -/

/-- A relation between ledgers that goes from write to write and that everything is in which the
program writes. -/
structure Ledger.Carried (R : Ledger → Ledger → Prop) : Prop where
  refl (l : Ledger) : R l l
  trans {l l' l'' : Ledger} : R l l' → R l' l'' → R l l''
  create {l l' : Ledger} {new : NewSolicitation} {requesterId : String} {status : Status}
    {time id : Int} : l.create new requesterId status time = .ok (id, l') → R l l'
  createBatch {l l' : Ledger} {g : Group} {news : List NewSolicitation} {status : Status} {time : Int}
    {ids : List Int} : l.createBatch g news status time = .ok (ids, l') → R l l'
  insertEvent {l l' : Ledger} {id eventId time : Int} {actor : Option String} {status : Status}
    {justification : Option String} :
    l.insertEvent id actor status time justification = .ok (eventId, l') → R l l'
  record {l l' : Ledger} {id token : Int} {userId : Option String} {kind : UpdateKind}
    {content : Json} : l.record id userId kind content = .ok (token, l') → R l l'

theorem Ledger.Rowwise.carried {R : Ledger → Ledger → Prop} (hR : Rowwise R) : Carried R where
  refl := hR.refl
  trans := hR.trans
  create := hR.enter
  createBatch := hR.createBatch
  insertEvent := hR.insertEvent
  record := hR.record

namespace Ledger.Carried

variable {R : Ledger → Ledger → Prop}

theorem covers (hR : Carried R) : Service.Covers fun p p' => R p.ledger p'.ledger where
  refl p := hR.refl p.ledger
  trans h h' := hR.trans h h'
  createBatch h := hR.createBatch h
  appendIfCurrent h := hR.insertEvent (appendIfCurrent_eq_ok h).2
  record _ _ h := hR.record h

theorem wrote (hR : Carried R) {α : Type} (s : Service) {answer : Except StoreError (α × Ledger)}
    (h : ∀ a ledger, answer = .ok (a, ledger) → R s.ledger ledger) :
    R s.ledger (s.wrote answer).ledger := by
  cases answer with
  | error e => exact hR.refl s.ledger
  | ok written => exact h written.1 written.2 rfl

theorem perform (hR : Carried R) (s : Service) (op : Operation) :
    R s.ledger (op.perform s).ledger := by
  cases op with
  | create new requesterId status time => exact hR.wrote s fun _ _ h => hR.create h
  | createBatch g news status time => exact hR.wrote s fun _ _ h => hR.createBatch h
  | append id actor status time => exact hR.wrote s fun _ _ h => hR.insertEvent (append_eq_ok h)
  | appendIfCurrent id seen actor status time justification =>
    exact hR.wrote s fun _ _ h => hR.insertEvent (appendIfCurrent_eq_ok h).2
  | record id userId kind content => exact hR.wrote s fun _ _ h => hR.record h
  | request r => exact hR.covers.after s r
  | setClock now => exact hR.refl s.ledger

theorem run (hR : Carried R) (ops : List Operation) (s : Service) :
    R s.ledger (Operation.run ops s).ledger := by
  induction ops generalizing s with
  | nil => exact hR.refl s.ledger
  | cons op ops ih => exact hR.trans (hR.perform s op) (ih (op.perform s))

end Ledger.Carried

/-! ## Growth -/

theorem Ledger.grows_carried : Carried Grows where
  refl := .refl
  trans := .trans
  create := .enter
  createBatch := .createBatch
  insertEvent := .insertEvent
  record := .record

theorem Operation.run_grows (ops : List Operation) (s : Service) :
    s.ledger.Grows (run ops s).ledger :=
  grows_carried.run ops s

/-! ## References -/

/-- Every write of a row keeps to what is there. -/
theorem Ledger.referenced_rowwise : Rowwise fun l l' => l.Referenced → l'.Referenced where
  refl _ h := h
  trans h h' href := h' (h href)
  insertGroup h href := by
    obtain rfl := insertGroup_eq_ok h
    exact ⟨href.events, href.updates⟩
  insertEnvelope h href := by
    obtain ⟨rfl, -⟩ := insertEnvelope_eq_ok h
    have hgrows {l : Ledger} (row : EnvelopeRow) : l.Grows (l.withEnvelope row) :=
      ⟨List.prefix_append .., [], (List.append_nil _).symm⟩
    exact ⟨fun row hrow => (hgrows _).hasEnvelope (href.events row hrow),
      fun row hrow => (hgrows _).hasEnvelope (href.updates row hrow)⟩
  insertEvent h href := by
    obtain ⟨rfl, hknown, -⟩ := insertEvent_eq_ok h
    refine ⟨fun row hrow => ?_, href.updates⟩
    rcases List.mem_append.1 hrow with hold | hnew
    · exact href.events row hold
    · rw [List.mem_singleton.1 hnew]
      exact hknown
  record h href := by
    obtain ⟨⟨⟩, -, h⟩ := bind_eq_ok_iff.1 h
    obtain ⟨next, -, h⟩ := bind_eq_ok_iff.1 h
    split at h
    · rename_i hknown
      cases h
      refine ⟨href.events, fun row hrow => ?_⟩
      rcases List.mem_append.1 hrow with hold | hnew
      · exact href.updates row hold
      · rw [List.mem_singleton.1 hnew]
        exact hknown
    · cases h

namespace Ledger

variable {l l' : Ledger}

theorem Write.referenced (h : Write l l') (href : l.Referenced) : l'.Referenced :=
  referenced_rowwise.write
    (fun _ _ href => ⟨fun row hrow => href.events row (List.mem_of_mem_filter hrow), href.updates⟩)
    (fun _ _ href => ⟨href.events, href.updates⟩) h href

theorem Built.referenced (h : l.Built) : l.Referenced := by
  induction h with
  | refl => exact ⟨List.forall_mem_nil _, List.forall_mem_nil _⟩
  | tail _ hwrite ih => exact hwrite.referenced ih

end Ledger

theorem Operation.run_referenced {s : Service} (h : s.ledger.Referenced) (ops : List Operation) :
    (run ops s).ledger.Referenced :=
  referenced_rowwise.carried.run ops s h

end GridDispatch
