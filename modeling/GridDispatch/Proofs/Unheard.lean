import GridDispatch.Proofs.Requests
import GridDispatch.Workflow.Browse

/-!
# Nobody hears of the bus

A `Call` is whatever can be asked of a service, and `Turn.run` gives the answers to calls that come
in turn, amid others. A bus may take its notifications in any pattern, and none of the answers
depends on it: services that are `Alike` but for their buses answer alike and stay alike
(`Alike.take`). So two runs that differ in the bus give the same answers and end with the same
ledger (`Service.unheard`).
-/

namespace GridDispatch

inductive Call
  | request (r : Request)
  | list (viewer : String) (r : ListRequest)
  | get (viewer : String) (id : Int)
  | updates (user : String) (start stop : Int)
  | token

inductive Answer
  | submitted (answer : Except WorkflowError SubmitReceipt)
  | changed (answer : Except WorkflowError ChangeReceipt)
  | swept (answer : Except WorkflowError (List Int))
  | listed (answer : Except WorkflowError ListResponse)
  | got (answer : Except WorkflowError View)
  | updates (answer : Except WorkflowError (List Update))
  | token (token : Int)

/-- The answer to a call, and the shared service after it. -/
def Call.answer (s : Shared) : Call → Answer × Shared
  | request (.submit requesterId companyCode groupId batch) =>
    (s.submit requesterId companyCode groupId batch).map .submitted id
  | request (.change r) => (s.changeStatus r).map .changed id
  | request .sweep => s.markLate.map .swept id
  | list viewer r => (.listed (s.service.list viewer r), s)
  | get viewer id => (.got (s.service.get viewer id), s)
  | updates user start stop => (.updates (s.service.updates user start stop), s)
  | token => (.token s.service.ledger.token, s)

/-- A call, and what others have done since the one before. -/
structure Turn where
  before : List Interference
  call : Call

namespace Turn

def take (s : Shared) (turn : Turn) : Answer × Shared :=
  turn.call.answer { s with service := Interference.run turn.before s.service }

/-- The answers to calls in turn, and the shared service after them. -/
def run (s : Shared) : List Turn → List Answer × Shared
  | [] => ([], s)
  | turn :: turns =>
    let (answer, s) := turn.take s
    let (answers, s) := run s turns
    (answer :: answers, s)

end Turn

/-! ## Services that differ in the bus -/

theorem Bus.publishAll_concat (b : Bus) (notices : List Notification) (n : Notification) :
    (b.publishAll (notices ++ [n])).2 = ((b.publishAll notices).2.publish n).2 := by
  induction notices generalizing b with
  | nil => rfl
  | cons first notices ih => exact ih (b.publish first).2

section

variable (bus bus' : Bus)

/-- The services are the same but for their buses, which were given the same notifications. -/
def Service.Alike (p p' : Service) : Prop :=
  ∃ notices, p.bus = (bus.publishAll notices).2 ∧
    p' = { p with bus := (bus'.publishAll notices).2 }

/-- The services are alike, and so they are after whatever others do. -/
structure Shared.Alike (s s' : Shared) : Prop where
  service : s.service.Alike bus bus' s'.service
  meanwhile : s'.meanwhile = s.meanwhile
  others : ∀ act ∈ s.meanwhile, ∀ p p' : Service, p.Alike bus bus' p' →
    (act p).Alike bus bus' (act p')

/-- The answers are the same, and the services are alike after them. -/
structure Shared.Echoes {α : Type} (r r' : α × Shared) : Prop where
  answer : r'.1 = r.1
  after : r.2.Alike bus bus' r'.2

end

variable {bus bus' : Bus}

theorem Shared.Echoes.exists_eq {α : Type} {r r' : α × Shared} (h : Echoes bus bus' r r') :
    ∃ answer s s', r = (answer, s) ∧ r' = (answer, s') ∧ s.Alike bus bus' s' := by
  obtain ⟨answer, s⟩ := r
  obtain ⟨answer', s'⟩ := r'
  obtain ⟨rfl : answer' = answer, hafter⟩ := h
  exact ⟨answer', s, s', rfl, rfl, hafter⟩

theorem Shared.Echoes.map {α β : Type} {r r' : α × Shared} (h : Echoes bus bus' r r') (f : α → β) :
    Echoes bus bus' (r.map f id) (r'.map f id) :=
  ⟨congrArg f h.answer, h.after⟩

theorem Interference.act_alike {p p' : Service} (i : Interference) (h : p.Alike bus bus' p') :
    (i.act p).Alike bus bus' (i.act p') := by
  obtain ⟨notices, hbus, rfl⟩ := h
  cases i with
  | append id actor status time =>
    simp only [act]
    split
    · exact ⟨notices, hbus, rfl⟩
    · exact ⟨notices, hbus, rfl⟩
  | deleteEvents id => exact ⟨notices, hbus, rfl⟩
  | setClock now => exact ⟨notices, hbus, rfl⟩

theorem Interference.run_alike {p p' : Service} (acts : List Interference)
    (h : p.Alike bus bus' p') : (run acts p).Alike bus bus' (run acts p') := by
  induction acts generalizing p p' with
  | nil => exact h
  | cons i acts ih => exact ih (i.act_alike h)

namespace Service.Alike

variable {p p' : Service}

/-- What does not depend on the bus is the same for both. -/
theorem reads {α : Type} (h : p.Alike bus bus' p') (f : Service → α)
    (hf : ∀ (q : Service) (b : Bus), f { q with bus := b } = f q) : f p' = f p := by
  obtain ⟨notices, -, rfl⟩ := h
  exact hf p _

theorem ledger (h : p.Alike bus bus' p') : p'.ledger = p.ledger :=
  h.reads Service.ledger fun _ _ => rfl

theorem directory (h : p.Alike bus bus' p') : p'.directory = p.directory :=
  h.reads Service.directory fun _ _ => rfl

theorem now (h : p.Alike bus bus' p') : p'.now = p.now :=
  h.reads Service.now fun _ _ => rfl

/-- Whether the bus accepts makes no difference to the token and to what is recorded. -/
theorem announce (h : p.Alike bus bus' p') (id : Int) (userId : Option String) (kind : UpdateKind)
    (content : Json) (recipients : Option (List String)) :
    (p'.announce id userId kind content recipients).1 =
        (p.announce id userId kind content recipients).1 ∧
      (p.announce id userId kind content recipients).2.Alike bus bus'
        (p'.announce id userId kind content recipients).2 := by
  obtain ⟨notices, hbus, rfl⟩ := h
  simp only [Service.announce]
  split
  · exact ⟨rfl, notices, hbus, rfl⟩
  · rename_i token ledger _
    refine ⟨rfl, notices ++ [.of token recipients], ?_, ?_⟩
    · rw [Bus.publishAll_concat, ← hbus]
    · rw [Bus.publishAll_concat]

/-- Each item of a batch is announced, whatever became of the notifications before it. -/
theorem announceCreated (h : p.Alike bus bus' p') (requesterId groupId : String)
    (created : List (Int × NewSolicitation)) :
    (p.announceCreated requesterId groupId created).Alike bus bus'
      (p'.announceCreated requesterId groupId created) := by
  induction created generalizing p p' with
  | nil => exact h
  | cons entry created ih =>
    simp only [Service.announceCreated, h.directory]
    exact ih (h.announce ..).2

theorem announceLate (h : p.Alike bus bus' p') (id : Int) :
    (p.announceLate id).Alike bus bus' (p'.announceLate id) := by
  simp only [Service.announceLate, h.ledger]
  exact (h.announce ..).2

end Service.Alike

/-! ## Requests amid others -/

namespace Shared.Alike

variable {s s' : Shared}

/-- What others do is alike for both, however much of it is still to come. -/
theorem of_service (h : s.Alike bus bus' s') {p p' : Service} (hp : p.Alike bus bus' p') :
    Alike bus bus' { s with service := p } { s' with service := p' } where
  service := hp
  meanwhile := h.meanwhile
  others := h.others

theorem later (h : s.Alike bus bus' s') : s.later.Alike bus bus' s'.later := by
  obtain ⟨service, meanwhile⟩ := s
  obtain ⟨service', meanwhile'⟩ := s'
  obtain rfl : meanwhile' = meanwhile := h.meanwhile
  cases meanwhile' with
  | nil => exact h
  | cons act acts =>
    exact ⟨h.others act List.mem_cons_self _ _ h.service, rfl,
      fun other hother => h.others other (List.mem_cons_of_mem act hother)⟩

theorem withLedger (h : s.Alike bus bus' s') (ledger : Ledger) :
    (s.withLedger ledger).Alike bus bus' (s'.withLedger ledger) := by
  obtain ⟨notices, hbus, heq⟩ := h.service
  exact h.of_service ⟨notices, hbus, by rw [heq]⟩

/-- A transition does not come near the bus. -/
theorem attempt (h : s.Alike bus bus' s') (t : Transition) :
    Echoes bus bus' (t.attempt s) (t.attempt s') := by
  have hauthority : s'.later.service.authority = s.later.service.authority :=
    h.later.service.reads Service.authority fun _ _ => rfl
  simp only [Transition.attempt, readClock_eq, h.service.ledger, h.later.service.ledger,
    h.later.service.now, hauthority]
  split
  · exact ⟨rfl, h⟩
  · exact ⟨rfl, h⟩
  · split
    · exact ⟨rfl, h.later⟩
    · split
      · exact ⟨rfl, h.later⟩
      · exact ⟨rfl, h.later.withLedger _⟩

theorem apply (h : s.Alike bus bus' s') (t : Transition) :
    Echoes bus bus' (t.apply s) (t.apply s') := by
  obtain ⟨answer, first, first', hs, hs', hfirst⟩ := (h.attempt t).exists_eq
  simp only [Transition.apply, hs, hs']
  cases answer with
  | ok applied => exact ⟨rfl, hfirst⟩
  | error e =>
    cases e with
    | concurrent id => exact hfirst.attempt t
    | _ => exact ⟨rfl, hfirst⟩

theorem changeStatus (h : s.Alike bus bus' s') (r : ChangeRequest) :
    Echoes bus bus' (s.changeStatus r) (s'.changeStatus r) := by
  have hcheck : s'.service.checkChange r = s.service.checkChange r :=
    h.service.reads (·.checkChange r) fun _ _ => rfl
  simp only [Shared.changeStatus, hcheck]
  split
  · exact ⟨rfl, h⟩
  · rename_i t solicitation _
    obtain ⟨answer, after, after', hs, hs', hafter⟩ := (h.apply t).exists_eq
    simp only [hs, hs']
    cases answer with
    | error e => exact ⟨rfl, hafter⟩
    | ok applied =>
      obtain ⟨htoken, htold⟩ := hafter.service.announce t.id t.actor .statusChanged
        (changedContent t applied.source solicitation)
        (after.service.directory.recipients solicitation.companyCode)
      simp only [hafter.service.directory, htoken]
      exact ⟨rfl, hafter.of_service htold⟩

theorem submit (h : s.Alike bus bus' s') (requesterId companyCode groupId : String)
    (batch : Batch) :
    Echoes bus bus' (s.submit requesterId companyCode groupId batch)
      (s'.submit requesterId companyCode groupId batch) := by
  have hcheck : s'.service.checkBatch companyCode batch = s.service.checkBatch companyCode batch :=
    h.service.reads (·.checkBatch companyCode batch) fun _ _ => rfl
  simp only [Shared.submit, hcheck, readClock_eq, h.later.service.ledger, h.later.service.now]
  split
  · exact ⟨rfl, h⟩
  · split
    · exact ⟨rfl, h.later⟩
    · rename_i ids ledger _
      have hentered := h.later.withLedger ledger
      exact ⟨rfl, hentered.of_service (hentered.service.announceCreated ..)⟩

/-- Each candidate is marked, whatever became of the notifications before it. -/
theorem markEach (h : s.Alike bus bus' s') (ids : List Int) :
    Echoes bus bus' (s.markEach ids) (s'.markEach ids) := by
  induction ids generalizing s s' with
  | nil => exact ⟨rfl, h⟩
  | cons id ids ih =>
    -- the candidates that are left are marked in services that are alike again
    obtain ⟨answer, after, after', hs, hs', hafter⟩ := (h.apply (.late id)).exists_eq
    simp only [Shared.markEach, hs, hs']
    cases answer with
    | error e =>
      simp only
      split
      · exact ih hafter
      · exact ⟨rfl, hafter⟩
    | ok applied =>
      obtain ⟨marked, rest, rest', hr, hr', hrest⟩ :=
        (ih (hafter.of_service (hafter.service.announceLate id))).exists_eq
      simp only [hr, hr']
      cases marked with
      | error e => exact ⟨rfl, hrest⟩
      | ok ids => exact ⟨rfl, hrest⟩

theorem markLate (h : s.Alike bus bus' s') : Echoes bus bus' s.markLate s'.markLate := by
  have hsettings : s'.later.service.settings = s.later.service.settings :=
    h.later.service.reads Service.settings fun _ _ => rfl
  simp only [Shared.markLate, readClock_eq, h.later.service.ledger, h.later.service.now, hsettings]
  exact h.later.markEach _

/-- No answer depends on the bus. -/
theorem answer (h : s.Alike bus bus' s') (call : Call) :
    Echoes bus bus' (call.answer s) (call.answer s') := by
  cases call with
  | request r =>
    cases r with
    | submit requesterId companyCode groupId batch => exact (h.submit ..).map _
    | change r => exact (h.changeStatus r).map _
    | sweep => exact h.markLate.map _
  | list viewer r =>
    exact ⟨congrArg Answer.listed (h.service.reads (·.list viewer r) fun _ _ => rfl), h⟩
  | get viewer id =>
    exact ⟨congrArg Answer.got (h.service.reads (·.get viewer id) fun _ _ => rfl), h⟩
  | updates user start stop =>
    exact ⟨congrArg Answer.updates (h.service.reads (·.updates user start stop) fun _ _ => rfl), h⟩
  | token => exact ⟨congrArg Answer.token (h.service.reads (·.ledger.token) fun _ _ => rfl), h⟩

theorem take (h : s.Alike bus bus' s') (turn : Turn) :
    Echoes bus bus' (turn.take s) (turn.take s') :=
  (h.of_service (Interference.run_alike turn.before h.service)).answer turn.call

theorem run (h : s.Alike bus bus' s') (turns : List Turn) :
    Echoes bus bus' (Turn.run s turns) (Turn.run s' turns) := by
  induction turns generalizing s s' with
  | nil => exact ⟨rfl, h⟩
  | cons turn turns ih =>
    obtain ⟨answer, after, after', hs, hs', hafter⟩ := (h.take turn).exists_eq
    obtain ⟨hanswers, hrest⟩ := ih hafter
    simp only [Turn.run, hs, hs']
    exact ⟨by rw [hanswers], hrest⟩

end Shared.Alike

/-- Services that differ in the bus only, amid the same others at the same clock readings: whatever
is asked of them in turn, the answers to all of it are the same, and so are the services in the end,
but for the bus. The one bus was given the same notifications as the other. -/
theorem Service.unheard (p : Service) (bus bus' : Bus) (others : List (List Interference))
    (turns : List Turn) :
    let r := Turn.run ({ p with bus }.amid others) turns
    let r' := Turn.run ({ p with bus := bus' }.amid others) turns
    r'.1 = r.1 ∧ r'.2.service = { r.2.service with bus := r'.2.service.bus } ∧
      ∃ notices, r.2.service.bus = (bus.publishAll notices).2 ∧
        r'.2.service.bus = (bus'.publishAll notices).2 := by
  intro r r'
  have hstart :
      ({ p with bus }.amid others).Alike bus bus' ({ p with bus := bus' }.amid others) := by
    refine ⟨⟨[], rfl, rfl⟩, rfl, fun act hact q q' hq => ?_⟩
    obtain ⟨acts, -, rfl⟩ := List.mem_map.1 hact
    exact Interference.run_alike acts hq
  obtain ⟨hanswers, hafter⟩ := hstart.run turns
  obtain ⟨notices, hbus, heq⟩ := hafter.service
  exact ⟨hanswers, by rw [heq], notices, hbus, by rw [heq]⟩

end GridDispatch
