import GridDispatch.Proofs.Announcement
import GridDispatch.Proofs.Submission

/-!
# Accounts of events by updates

An update `Tells` of an event, given the events that were written before: it names the solicitation,
the actor, the status and the company, and unless the event is the first one of its solicitation also
the status that it replaced. An `Account` is updates that tell of events in the order in which these
were written, under consecutive tokens; an event is passed over exactly if the storage refuses its
update. Where none is, the k-th update tells of the k-th event (`Account.getElem_tells`), and
replaying the updates of a solicitation gives the statuses of its events (`Account.replay_eq`).
-/

namespace GridDispatch

/-- The events of a solicitation among some events. -/
def history (id : Int) (events : List Event) : List Event :=
  events.filter fun e => decide (e.solicitationId = id)

theorem history_append (id : Int) (events events' : List Event) :
    history id (events ++ events') = history id events ++ history id events' :=
  List.filter_append events events'

theorem history_singleton_of_ne {id : Int} {e : Event} (h : e.solicitationId ≠ id) :
    history id [e] = [] := by
  simp [history, h]

/-- The text under a name in an object. -/
def Json.textAt? (v : Json) (name : String) : Option String := (v.member? name).bind Json.text?

namespace Update

/-- The update tells of `e`, an event that was written after the events `before`. -/
structure Tells (envelopes : List EnvelopeRow) (before : List Event) (e : Event) (u : Update) :
    Prop where
  solicitationId : u.solicitationId = e.solicitationId
  userId : u.userId = e.actor
  status : u.content.textAt? "status" = some e.status.name
  company : ∃ row ∈ envelopes, row.id = e.solicitationId ∧
    u.content.textAt? "company_code" = some row.companyCode
  created : u.kind = .created ↔ history e.solicitationId before = []
  changed : ∀ last, (history e.solicitationId before).getLast? = some last →
    u.kind = .statusChanged ∧ u.content.textAt? "previous_status" = some last.status.name
  plain : u.content.Plain

theorem Tells.mono {envelopes envelopes' : List EnvelopeRow} {before : List Event} {e : Event}
    {u : Update} (h : u.Tells envelopes before e) (hsub : envelopes ⊆ envelopes') :
    u.Tells envelopes' before e := by
  obtain ⟨row, hrow, hcompany⟩ := h.company
  exact { h with company := ⟨row, hsub hrow, hcompany⟩ }

end Update

/-! ## Updates that are refused -/

namespace Ledger

variable {l l' : Ledger} {id : Int} {userId : Option String} {kind : UpdateKind} {content : Json}
  {u : Update}

/-- The storage does not take the update: there is no such token, or a guard refuses the row. -/
def Refuses (l : Ledger) (u : Update) : Prop :=
  Text.Range.signed.hi < u.streamId ∨
    ∃ e, l.passGuards .update (UpdateRow.of { u with streamId := unnumbered }).cell = .error e

theorem refuses_congr (h : l'.guards = l.guards) : l'.Refuses u ↔ l.Refuses u := by
  simp only [Refuses, passGuards, h]

/-- An update is recorded under the next token exactly if it is not refused. -/
theorem record_cases (hknown : l.hasEnvelope id = true)
    (htokens : ∀ i ∈ l.updates.map UpdateRow.streamId, i ≤ l.lastUpdate)
    (hu : u = ⟨l.lastUpdate + 1, id, userId, kind, content⟩) :
    ¬ l.Refuses u ∧ l.record id userId kind content = .ok (u.streamId, l.withUpdate u) ∨
      l.Refuses u ∧ ∃ e, l.record id userId kind content = .error e := by
  subst hu
  cases hpassed : l.passGuards .update
      (UpdateRow.of ⟨unnumbered, id, userId, kind, content⟩).cell with
  | error e =>
    refine .inr ⟨.inr ⟨e, hpassed⟩, e, ?_⟩
    simp only [record, hpassed, bind, Except.bind]
  | ok passed =>
    by_cases htoken : Text.Range.signed.hi < l.lastUpdate + 1
    · have hnext : nextId l.lastUpdate (l.updates.map UpdateRow.streamId) = .error .idsUsedUp := by
        rw [nextId, foldl_max_of_le htokens, if_neg (by omega)]
      refine .inr ⟨.inl htoken, .idsUsedUp, ?_⟩
      simp only [record, hpassed, hnext, bind, Except.bind]
    · have hnext : nextId l.lastUpdate (l.updates.map UpdateRow.streamId) =
          .ok (l.lastUpdate + 1) := by
        rw [nextId, foldl_max_of_le htokens, if_pos (by omega)]
      refine .inl ⟨?_, record_of_next hpassed hknown hnext⟩
      rintro (hhigh | ⟨e, he⟩)
      · exact htoken hhigh
      · rw [hpassed] at he
        cases he

end Ledger

/-! ## Accounts -/

/-- The updates tell of the events in the order of writing, with the tokens after the last one that
`origin` had given out; an event is passed over if its update is refused. -/
inductive Account (origin : Ledger) (envelopes : List EnvelopeRow) :
    List Event → List Update → Prop
  | nil : Account origin envelopes [] []
  | told {events : List Event} {updates : List Update} {e : Event} {u : Update} :
    Account origin envelopes events updates → u.Tells envelopes events e →
    u.streamId = origin.lastUpdate + updates.length + 1 → ¬ origin.Refuses u →
    Account origin envelopes (events ++ [e]) (updates ++ [u])
  | refused {events : List Event} {updates : List Update} {e : Event} {u : Update} :
    Account origin envelopes events updates → u.Tells envelopes events e →
    u.streamId = origin.lastUpdate + updates.length + 1 → origin.Refuses u →
    Account origin envelopes (events ++ [e]) updates

namespace Account

variable {origin : Ledger} {envelopes envelopes' : List EnvelopeRow} {events : List Event}
  {updates : List Update}

theorem length_le (h : Account origin envelopes events updates) :
    updates.length ≤ events.length := by
  induction h with
  | nil => exact Nat.le_refl _
  | told _ _ _ _ ih =>
    simp only [List.length_append, List.length_singleton]
    omega
  | refused _ _ _ _ ih =>
    simp only [List.length_append, List.length_singleton]
    omega

theorem plain (h : Account origin envelopes events updates) :
    ∀ u ∈ updates, u.content.Plain := by
  induction h with
  | nil => exact List.forall_mem_nil _
  | told _ htells _ _ ih =>
    exact List.forall_mem_append.2 ⟨ih, List.forall_mem_singleton.2 htells.plain⟩
  | refused _ _ _ _ ih => exact ih

/-- Tokens count up. -/
theorem streamIds (h : Account origin envelopes events updates) :
    (updates.map Update.streamId).Pairwise (· < ·) ∧
      ∀ i ∈ updates.map Update.streamId, i ≤ origin.lastUpdate + updates.length := by
  induction h with
  | nil => exact ⟨.nil, List.forall_mem_nil _⟩
  | told _ _ htoken _ ih =>
    obtain ⟨hsorted, hle⟩ := ih
    rw [List.map_append, List.map_singleton]
    constructor
    · refine List.pairwise_append.2 ⟨hsorted, List.pairwise_singleton .., fun i hi j hj => ?_⟩
      rw [List.mem_singleton.1 hj]
      have := hle i hi
      omega
    · intro i hi
      rw [List.length_append, List.length_singleton]
      rcases List.mem_append.1 hi with hold | hnew
      · have := hle i hold
        omega
      · rw [List.mem_singleton.1 hnew]
        omega
  | refused _ _ _ _ ih => exact ih

/-- Solicitations that come in later do not matter. -/
theorem mono (h : Account origin envelopes events updates) (hsub : envelopes ⊆ envelopes') :
    Account origin envelopes' events updates := by
  induction h with
  | nil => exact .nil
  | told _ htells htoken htaken ih => exact .told ih (htells.mono hsub) htoken htaken
  | refused _ htells htoken hrefused ih => exact .refused ih (htells.mono hsub) htoken hrefused

/-! ## Accounts that pass nothing over -/

/-- If no row is refused and there are tokens, nothing is passed over. -/
theorem length_eq (h : Account origin envelopes events updates) (hopen : origin.Open .update)
    (hroom : Room origin.lastUpdate [] events.length) : updates.length = events.length := by
  induction h with
  | nil => rfl
  | told _ _ _ _ ih =>
    simp only [Room, List.foldl_nil, List.length_append, List.length_singleton] at hroom ih ⊢
    have := ih (by omega)
    omega
  | @refused events updates e u h _ htoken hrefused _ =>
    have hle := h.length_le
    simp only [Room, List.foldl_nil, List.length_append, List.length_singleton] at hroom
    rcases hrefused with hhigh | ⟨fault, hfault⟩
    · omega
    · rw [hopen] at hfault
      cases hfault

/-- The k-th update tells of the k-th event. -/
theorem getElem_tells (h : Account origin envelopes events updates)
    (hlength : updates.length = events.length) (k : Nat) (hevent : k < events.length)
    (hupdate : k < updates.length) :
    updates[k].Tells envelopes (events.take k) events[k] := by
  induction h with
  | nil => cases hevent
  | @told events updates e u _ htells _ _ ih =>
    simp only [List.length_append, List.length_singleton] at hlength hevent
    by_cases hk : k < events.length
    · rw [List.getElem_append_left hk, List.getElem_append_left (by omega),
        List.take_append_of_le_length (by omega)]
      exact ih (by omega) hk (by omega)
    · obtain rfl : k = events.length := by omega
      simpa [show events.length = updates.length by omega] using htells
  | refused h _ _ _ _ =>
    have := h.length_le
    simp only [List.length_append, List.length_singleton] at hlength
    omega

end Account

/-- The statuses of a solicitation, in the order in which updates tell of them. -/
def replay (id : Int) (updates : List Update) : List (Option String) :=
  (updates.filter fun u => decide (u.solicitationId = id)).map fun u => u.content.textAt? "status"

/-- Replaying the updates of a solicitation gives the statuses of its events in order. -/
theorem Account.replay_eq {origin : Ledger} {envelopes : List EnvelopeRow} {events : List Event}
    {updates : List Update} (h : Account origin envelopes events updates)
    (hlength : updates.length = events.length) (id : Int) :
    replay id updates = (history id events).map fun e => some e.status.name := by
  induction h with
  | nil => rfl
  | @told events updates e u _ htells _ _ ih =>
    simp only [List.length_append, List.length_singleton] at hlength
    have hrest := ih (by omega)
    have hlast : replay id [u] = (history id [e]).map fun e => some e.status.name := by
      by_cases hid : e.solicitationId = id
      · simp [replay, history, htells.solicitationId, hid, htells.status]
      · simp [replay, history, htells.solicitationId, hid]
    rw [history_append, List.map_append, ← hrest, ← hlast, replay, replay, replay,
      List.filter_append, List.map_append]
  | refused h _ _ _ _ =>
    have := h.length_le
    simp only [List.length_append, List.length_singleton] at hlength
    omega

/-! ## What is announced -/

/-- The ledger holds these updates, as many as it has given out tokens since `origin`, and it refuses
what `origin` refuses. -/
structure Ledger.Recorded (origin l : Ledger) (updates : List Update) : Prop where
  rows : l.updates = updates.map UpdateRow.of
  lastUpdate : l.lastUpdate = origin.lastUpdate + updates.length
  guards : l.guards = origin.guards

theorem Ledger.Recorded.streamIds {origin l : Ledger} {updates : List Update}
    (h : origin.Recorded l updates) :
    l.updates.map UpdateRow.streamId = updates.map Update.streamId := by
  rw [h.rows, List.map_map]
  rfl

section Announced

variable {origin : Ledger} {s : Service} {events : List Event} {updates : List Update}

/-- What is announced goes on with the account, whether it is recorded or refused. -/
theorem Account.announce (h : Account origin s.ledger.envelopes events updates)
    (hrecorded : origin.Recorded s.ledger updates) {id : Int} {userId : Option String}
    {kind : UpdateKind} {content : Json} {e : Event} (hknown : s.ledger.hasEnvelope id = true)
    (htells : ∀ token, (⟨token, id, userId, kind, content⟩ : Update).Tells s.ledger.envelopes events e)
    (recipients : Option (List String)) :
    ∃ updates', origin.Recorded (s.announce id userId kind content recipients).2.ledger updates' ∧
      Account origin s.ledger.envelopes (events ++ [e]) updates' := by
  have htokens : ∀ i ∈ s.ledger.updates.map UpdateRow.streamId, i ≤ s.ledger.lastUpdate := by
    rw [hrecorded.streamIds, hrecorded.lastUpdate]
    exact h.streamIds.2
  have htoken : s.ledger.lastUpdate + 1 = origin.lastUpdate + updates.length + 1 := by
    rw [hrecorded.lastUpdate]
  rcases Ledger.record_cases hknown htokens rfl with ⟨htaken, hrecord⟩ | ⟨hrefused, e, hrecord⟩
  · have hannounced := Service.announce_of_record recipients hrecord
    rw [Ledger.refuses_congr hrecorded.guards] at htaken
    refine ⟨_, ?_, h.told (htells _) htoken htaken⟩
    rw [hannounced]
    exact
      { rows := by simp only [Ledger.withUpdate, hrecorded.rows, List.map_append, List.map_singleton]
        lastUpdate := by
          simp only [Ledger.withUpdate, List.length_append, List.length_singleton]
          omega
        guards := hrecorded.guards }
  · rw [Service.announce_of_refused recipients hrecord]
    rw [Ledger.refuses_congr hrecorded.guards] at hrefused
    exact ⟨updates, hrecorded, h.refused (htells _) htoken hrefused⟩

variable {g : Group}

/-- The update of a solicitation that came in tells of its first event. -/
theorem Ledger.Entered.update_tells (time : Int) {envelopes : List EnvelopeRow} {x : Entered}
    (hrow : x.row g ∈ envelopes) (hfirst : history x.id events = []) (token : Int) :
    (x.update g token).Tells envelopes events (x.event g .new time) where
  solicitationId := rfl
  userId := rfl
  status := rfl
  company := ⟨x.row g, hrow, rfl, rfl⟩
  created := ⟨fun _ => hfirst, fun _ => rfl⟩
  changed last hlast := by
    have hnone : history (x.event g .new time).solicitationId events = [] := hfirst
    rw [hnone] at hlast
    cases hlast
  plain := createdContent_plain ..

/-- A solicitation that came in is not among those that come in after it. -/
theorem history_entered (time : Int) {x : Ledger.Entered} {rest : List Ledger.Entered}
    (hfirst : ∀ y ∈ x :: rest, history y.id events = [])
    (hx : x.id ∉ rest.map Ledger.Entered.id) :
    ∀ y ∈ rest, history y.id (events ++ [x.event g .new time]) = [] := by
  intro y hy
  have hne : x.id ≠ y.id := fun heq => hx (heq ▸ List.mem_map_of_mem hy)
  rw [history_append, hfirst y (List.mem_cons_of_mem x hy), List.nil_append]
  exact history_singleton_of_ne hne

/-- The account goes on with the first events of the solicitations that are announced. -/
theorem Account.announceCreated (time : Int) (h : Account origin s.ledger.envelopes events updates)
    (hrecorded : origin.Recorded s.ledger updates) {entered : List Ledger.Entered}
    (hrows : ∀ x ∈ entered, x.row g ∈ s.ledger.envelopes)
    (hfirst : ∀ x ∈ entered, history x.id events = [])
    (hnodup : (entered.map Ledger.Entered.id).Nodup) :
    ∃ updates', origin.Recorded (s.announceCreated g.requesterId g.groupId
        (entered.map fun x => (x.id, x.new))).ledger updates' ∧
      Account origin s.ledger.envelopes
        (events ++ entered.map (Ledger.Entered.event g .new time)) updates' := by
  induction entered generalizing s events updates with
  | nil => exact ⟨updates, hrecorded, by simpa using h⟩
  | cons x entered ih =>
    obtain ⟨hx, hnodup⟩ := List.nodup_cons.1 hnodup
    have hrow := hrows x List.mem_cons_self
    have hknown : s.ledger.hasEnvelope x.id = true :=
      List.any_eq_true.2 ⟨x.row g, hrow, decide_eq_true rfl⟩
    obtain ⟨updates₁, hrecorded₁, h₁⟩ := h.announce hrecorded hknown
      (Ledger.Entered.update_tells time hrow (hfirst x List.mem_cons_self))
      (s.directory.recipients x.new.companyCode)
    have hsame := (s.announce_sameRows x.id (some g.requesterId) .created
      (createdContent x.id x.new g.groupId) (s.directory.recipients x.new.companyCode)).envelopes
    rw [List.map_cons, List.map_cons, Service.announceCreated, List.append_cons, ← hsame]
    rw [← hsame] at h₁ hrows
    exact ih h₁ hrecorded₁ (fun y hy => hrows y (List.mem_cons_of_mem x hy))
      (history_entered time hfirst hx) hnodup

end Announced

end GridDispatch
