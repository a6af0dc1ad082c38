import GridDispatch.Proofs.LateSweep
import GridDispatch.Proofs.Ledger.Found
import GridDispatch.Proofs.Submission

/-!
# What happens during a sweep

While a sweep is on its way the others act, and the sweep marks one solicitation after the other and
announces each. `Happened p trace q` says that `p` has become `q` by just these happenings. Whatever
happens, no more events come in than there are happenings (`Happened.moved`), the events of a
solicitation stay as they are unless it is marked or others touch them (`Happened.written`), and each
mark is announced once at most (`Happened.updates`).
-/

namespace GridDispatch

open Ledger

/-- The mark puts a late event without an actor in the place of an acceptance. -/
def Mark.Made (m : Mark) : Prop :=
  ∃ head e, (Transition.late m.id).Replaces m.before head e m.after ∧ head.status = .accepted ∧
    nextId m.before.ledger.lastEvent (m.before.ledger.events.map EventRow.eventId) = .ok e.eventId

/-- Somebody else acts on the service, or the sweep marks a solicitation and announces that. -/
inductive Happening
  | act (i : Interference) (before : Service)
  | mark (m : Mark)

namespace Happening

def act? : Happening → Option Interference
  | act i _ => some i
  | mark _ => none

def marked? : Happening → Option Int
  | act _ _ => none
  | mark m => some m.id

/-- Somebody else changes the events of a solicitation. -/
def Touches (id : Int) : Happening → Prop
  | act i p => (i.act p).ledger.written id ≠ p.ledger.written id
  | mark _ => False

end Happening

/-- The happenings in order make `q` of `p`. -/
inductive Happened : Service → List Happening → Service → Prop
  | nil {p : Service} : Happened p [] p
  | act {i : Interference} {p q : Service} {trace : List Happening} :
    Happened (i.act p) trace q → Happened p (.act i p :: trace) q
  | mark {m : Mark} {q : Service} {trace : List Happening} :
    m.Made → Happened (m.after.announceLate m.id) trace q → Happened m.before (.mark m :: trace) q

/-- The acts of others, one after the other. -/
def Interference.trace : List Interference → Service → List Happening
  | [], _ => []
  | i :: acts, p => .act i p :: trace acts (i.act p)

namespace Interference

theorem trace_happened (acts : List Interference) (p : Service) :
    Happened p (trace acts p) (run acts p) := by
  induction acts generalizing p with
  | nil => exact .nil
  | cons i acts ih => exact .act (ih (i.act p))

theorem trace_act? (acts : List Interference) (p : Service) :
    (trace acts p).filterMap Happening.act? = acts := by
  induction acts generalizing p with
  | nil => rfl
  | cons i acts ih => exact congrArg (i :: ·) (ih (i.act p))

theorem trace_marked? (acts : List Interference) (p : Service) :
    (trace acts p).filterMap Happening.marked? = [] := by
  induction acts generalizing p with
  | nil => rfl
  | cons i acts ih => exact ih (i.act p)

theorem trace_append (acts acts' : List Interference) (p : Service) :
    trace (acts ++ acts') p = trace acts p ++ trace acts' (run acts p) := by
  induction acts generalizing p with
  | nil => rfl
  | cons i acts ih => exact congrArg (.act i p :: ·) (ih (i.act p))

end Interference

/-! ## What becomes of the ledger -/

namespace Ledger

variable {l l' l'' : Ledger} {m n : Nat}

/-- At most `n` events have come in. Others may have gone, and updates may have come. -/
structure Moved (n : Nat) (l l' : Ledger) : Prop where
  envelopes : l'.envelopes = l.envelopes
  guards : l'.guards = l.guards
  legible : (∀ row ∈ l.events, ∃ e, row.read = .ok e) → ∀ row ∈ l'.events, ∃ e, row.read = .ok e
  onward : l.Onward l'
  top : (l'.events.map EventRow.eventId).foldl max l'.lastEvent ≤
    (l.events.map EventRow.eventId).foldl max l.lastEvent + n

theorem Moved.trans (h : Moved m l l') (h' : Moved n l' l'') : Moved (m + n) l l'' where
  envelopes := h'.envelopes.trans h.envelopes
  guards := h'.guards.trans h.guards
  legible := fun hread => h'.legible (h.legible hread)
  onward := h.onward.trans h'.onward
  top := by
    have := h.top
    have := h'.top
    push_cast
    omega

theorem Moved.mono (h : Moved m l l') (hle : m ≤ n) : Moved n l l' where
  envelopes := h.envelopes
  guards := h.guards
  legible := h.legible
  onward := h.onward
  top := by
    have := h.top
    omega

theorem Moved.of_sameRows (hsame : l.SameRows l') (hguards : l'.guards = l.guards) :
    Moved 0 l l' where
  envelopes := hsame.envelopes
  guards := hguards
  legible := fun hread => hsame.events ▸ hread
  onward := .of_events hsame.events hsame.lastEvent
  top := by
    rw [hsame.events, hsame.lastEvent]
    omega

theorem moved_withEvent {e : Event}
    (hnext : nextId l.lastEvent (l.events.map EventRow.eventId) = .ok e.eventId) :
    Moved 1 l (l.withEvent e) where
  envelopes := rfl
  guards := rfl
  legible := by
    intro hread row hrow
    rcases List.mem_append.1 hrow with hold | hnew
    · exact hread row hold
    · rw [List.mem_singleton.1 hnew]
      exact ⟨e, EventRow.read_of e⟩
  onward := .withEvent (lt_of_nextId hnext).1
  top := by
    obtain ⟨hid, -⟩ := nextId_eq_ok hnext
    refine foldl_max_le_iff.2 ⟨Int.le_of_eq hid, fun i hi => ?_⟩
    simp only [withEvent, List.map_append, List.mem_append] at hi
    rcases hi with hold | hnew
    · have := (lt_of_nextId hnext).2 i hold
      omega
    · rw [List.mem_singleton.1 hnew]
      exact Int.le_of_eq hid

theorem moved_deleteEvents (id : Int) : Moved 0 l (l.deleteEvents id) where
  envelopes := rfl
  guards := rfl
  legible := fun hread row hrow => hread row (List.mem_of_mem_filter hrow)
  onward := .deleteEvents l id
  top := by
    obtain ⟨hlast, hused⟩ := le_foldl_max (l.events.map EventRow.eventId) l.lastEvent
    refine foldl_max_le_iff.2 ⟨by simpa [Ledger.deleteEvents] using hlast, fun i hi => ?_⟩
    obtain ⟨row, hrow, rfl⟩ := List.mem_map.1 hi
    simpa using hused _ (List.mem_map_of_mem (List.mem_of_mem_filter hrow))

/-- The storage takes an update of each of these solicitations. -/
structure TakesUpdates (l : Ledger) (ids : List Int) : Prop where
  isOpen : l.Open .update
  known : ∀ id ∈ ids, l.hasEnvelope id = true
  room : Room l.lastUpdate (l.updates.map UpdateRow.streamId) ids.length

namespace TakesUpdates

variable {id : Int} {ids : List Int}

theorem congr (h : l.TakesUpdates ids) (hguards : l'.guards = l.guards)
    (henvelopes : l'.envelopes = l.envelopes) (hupdates : l'.updates = l.updates)
    (hlast : l'.lastUpdate = l.lastUpdate) : l'.TakesUpdates ids where
  isOpen := h.isOpen.of_guards hguards
  known := by
    intro id hid
    rw [hasEnvelope, henvelopes]
    exact h.known id hid
  room := by
    rw [hupdates, hlast]
    exact h.room

theorem record_ne_error (h : l.TakesUpdates (id :: ids)) {userId : Option String}
    {kind : UpdateKind} {content : Json} {e : StoreError} :
    l.record id userId kind content ≠ .error e := by
  intro herror
  obtain ⟨token, htaken, -⟩ :=
    exists_record h.isOpen (h.known id List.mem_cons_self) h.room userId kind content
  rw [htaken] at herror
  cases herror

theorem withUpdate (h : l.TakesUpdates (id :: ids)) {u : Update}
    (hnext : nextId l.lastUpdate (l.updates.map UpdateRow.streamId) = .ok u.streamId) :
    (l.withUpdate u).TakesUpdates ids where
  isOpen := h.isOpen
  known := fun id' hid' => h.known id' (List.mem_cons_of_mem id hid')
  room := by
    obtain ⟨token, htoken, hroom⟩ := h.room.next
    cases hnext.symm.trans htoken
    simpa [Ledger.withUpdate, UpdateRow.of] using hroom

end TakesUpdates

end Ledger

/-- What somebody else does to the ledger: it stays, an event comes in, or events go. -/
theorem Interference.act_moved (i : Interference) (p : Service) : p.ledger.Moved 1 (i.act p).ledger := by
  cases i with
  | append id actor status time =>
    simp only [act]
    split
    · rename_i eventId ledger happend
      have hinsert := append_eq_ok happend
      obtain ⟨rfl, -⟩ := insertEvent_eq_ok hinsert
      exact moved_withEvent (nextId_of_insertEvent hinsert)
    · exact (Moved.of_sameRows (.refl _) rfl).mono (by decide)
  | deleteEvents id => exact (moved_deleteEvents id).mono (by decide)
  | setClock now => exact (Moved.of_sameRows (.refl _) rfl).mono (by decide)

theorem Interference.act_updates (i : Interference) (p : Service) :
    (i.act p).ledger.updates = p.ledger.updates ∧ (i.act p).ledger.lastUpdate = p.ledger.lastUpdate := by
  cases i with
  | append id actor status time =>
    simp only [act]
    split
    · rename_i eventId ledger happend
      obtain ⟨rfl, -⟩ := insertEvent_eq_ok (append_eq_ok happend)
      exact ⟨rfl, rfl⟩
    · exact ⟨rfl, rfl⟩
  | deleteEvents id => exact ⟨rfl, rfl⟩
  | setClock now => exact ⟨rfl, rfl⟩

/-- The update that a solicitation was marked late. -/
def Update.TellsLate (id : Int) (u : Update) : Prop :=
  ∃ companyCode, u = ⟨u.streamId, id, none, .statusChanged, lateContent id companyCode⟩

/-- A mark is announced by an update, unless the storage refuses it. -/
theorem Service.announceLate_cases (s : Service) (id : Int) :
    s.announceLate id = s ∧ (∃ content e, s.ledger.record id none .statusChanged content = .error e) ∨
      ∃ u bus, s.announceLate id = { s with ledger := s.ledger.withUpdate u, bus } ∧
        u.TellsLate id ∧
        nextId s.ledger.lastUpdate (s.ledger.updates.map UpdateRow.streamId) = .ok u.streamId := by
  obtain ⟨companyCode, hannounce⟩ : ∃ companyCode, s.announceLate id =
      (s.announce id none .statusChanged (lateContent id companyCode) none).2 := ⟨_, rfl⟩
  rw [hannounce]
  cases hrecord : s.ledger.record id none .statusChanged (lateContent id companyCode) with
  | error e =>
    rw [announce_of_refused none hrecord]
    exact .inl ⟨rfl, _, e, hrecord⟩
  | ok recorded =>
    obtain ⟨token, l⟩ := recorded
    obtain ⟨rfl, -⟩ := record_eq_withUpdate hrecord
    rw [announce_of_record none hrecord]
    exact .inr ⟨_, _, rfl, ⟨companyCode, rfl⟩, nextId_of_record hrecord⟩

theorem Service.announceLate_guards (s : Service) (id : Int) :
    (s.announceLate id).ledger.guards = s.ledger.guards := by
  rcases s.announceLate_cases id with ⟨hsame, -⟩ | ⟨u, bus, hannounced, -⟩
  · rw [hsame]
  · rw [hannounced]
    rfl

/-- What a mark does to the ledger: its event comes in, and it is announced. -/
theorem Mark.Made.moved {m : Mark} (h : m.Made) :
    m.before.ledger.Moved 1 (m.after.announceLate m.id).ledger := by
  obtain ⟨head, e, hreplaces, -, hnext⟩ := h
  have hmarked : m.before.ledger.Moved 1 m.after.ledger := by
    rw [hreplaces.wrote]
    exact moved_withEvent hnext
  exact hmarked.trans
    (.of_sameRows (m.after.announceLate_sameRows m.id) (m.after.announceLate_guards m.id))

namespace Happened

variable {p q r : Service} {trace trace' : List Happening}

theorem trans (h : Happened p trace q) (h' : Happened q trace' r) :
    Happened p (trace ++ trace') r := by
  induction h with
  | nil => exact h'
  | act _ ih => exact .act (ih h')
  | mark hmade _ ih => exact .mark hmade (ih h')

/-- No more events come in than there are happenings. -/
theorem moved (h : Happened p trace q) : p.ledger.Moved trace.length q.ledger := by
  induction h with
  | nil => exact .of_sameRows (.refl _) rfl
  | @act i p q trace _ ih =>
    have hmoved := (i.act_moved p).trans ih
    exact hmoved.mono (by simp only [List.length_cons]; omega)
  | @mark m q trace hmade _ ih =>
    have hmoved := hmade.moved.trans ih
    exact hmoved.mono (by simp only [List.length_cons]; omega)

theorem length_eq (h : Happened p trace q) : trace.length =
    (trace.filterMap Happening.act?).length + (trace.filterMap Happening.marked?).length := by
  induction h with
  | nil => rfl
  | act _ ih => simp only [List.length_cons, List.filterMap_cons, Happening.act?, Happening.marked?, ih]; omega
  | mark _ _ ih => simp only [List.length_cons, List.filterMap_cons, Happening.act?, Happening.marked?, ih]; omega

/-- The events of a solicitation stay as they are unless it is marked or others touch them. -/
theorem written (h : Happened p trace q) {id : Int}
    (hmarked : id ∉ trace.filterMap Happening.marked?) (htouched : ∀ x ∈ trace, ¬ x.Touches id) :
    q.ledger.written id = p.ledger.written id := by
  induction h with
  | nil => rfl
  | act _ ih =>
    obtain ⟨hfirst, hrest⟩ := List.forall_mem_cons.1 htouched
    rw [ih hmarked hrest]
    exact not_not.1 hfirst
  | @mark m q trace hmade _ ih =>
    obtain ⟨-, hrest⟩ := List.forall_mem_cons.1 htouched
    obtain ⟨head, e, hreplaces, -⟩ := hmade
    have hother : e.solicitationId ≠ id := by
      rw [hreplaces.solicitationId_eq]
      exact fun heq => hmarked (heq ▸ List.mem_cons_self)
    rw [ih (fun hmem => hmarked (List.mem_cons_of_mem _ hmem)) hrest, Ledger.written,
      (m.after.announceLate_sameRows m.id).events, hreplaces.wrote]
    exact written_withEvent_of_ne hother

/-- Each mark is announced once at most, and once if the storage takes the update. -/
theorem updates (h : Happened p trace q) : ∃ told updates,
    q.ledger.updates = p.ledger.updates ++ updates.map UpdateRow.of ∧
    told.Sublist (trace.filterMap Happening.marked?) ∧ List.Forall₂ Update.TellsLate told updates ∧
    (p.ledger.TakesUpdates (trace.filterMap Happening.marked?) →
      told = trace.filterMap Happening.marked?) := by
  induction h with
  | nil => exact ⟨[], [], by simp, .slnil, .nil, fun _ => rfl⟩
  | @act i p q trace _ ih =>
    obtain ⟨told, updates, hupdates, hsub, htold, hall⟩ := ih
    obtain ⟨hsame, hlast⟩ := i.act_updates p
    have hmoved := i.act_moved p
    exact ⟨told, updates, hsame ▸ hupdates, hsub, htold, fun htakes =>
      hall (htakes.congr hmoved.guards hmoved.envelopes hsame hlast)⟩
  | @mark m q trace hmade _ ih =>
    obtain ⟨told, updates, hupdates, hsub, htold, hall⟩ := ih
    obtain ⟨head, e, hreplaces, -⟩ := hmade
    have hmarked {ids : List Int} (htakes : m.before.ledger.TakesUpdates ids) :
        m.after.ledger.TakesUpdates ids := by
      rw [hreplaces.wrote]
      exact htakes.congr rfl rfl rfl rfl
    have hbefore : m.after.ledger.updates = m.before.ledger.updates := by rw [hreplaces.wrote]; rfl
    rcases m.after.announceLate_cases m.id with
      ⟨hsame, content, fault, hrefused⟩ | ⟨u, bus, hannounced, htells, hnext⟩
    · rw [hsame, hbefore] at hupdates
      refine ⟨told, updates, hupdates, hsub.cons m.id, htold, fun htakes => ?_⟩
      exact absurd hrefused (hmarked htakes).record_ne_error
    · rw [hannounced] at hupdates hall
      refine ⟨m.id :: told, u :: updates, ?_, hsub.cons_cons m.id, .cons htells htold, fun htakes => ?_⟩
      · rw [hupdates, List.map_cons, List.append_cons, ← hbefore]
        rfl
      · exact congrArg _ (hall ((hmarked htakes).withUpdate hnext))

end Happened

end GridDispatch
