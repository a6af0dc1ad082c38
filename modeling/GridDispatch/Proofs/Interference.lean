import GridDispatch.Proofs.Ledger.Onward
import GridDispatch.Workflow.Service

/-!
# What others do in the meantime

`Interference` is what somebody else can do to the events and to the clock while a request is on its
way: any number of acts take place at each of its clock readings. Whatever they do, the events go
on (`Interference.run_onward`). `Shared.later` is the shared service after one reading.
-/

namespace GridDispatch

/-- What somebody else may do at a clock reading. -/
inductive Interference
  | append (id : Int) (actor : Option String) (status : Status) (time : Int)
  | deleteEvents (id : Int)
  | setClock (now : Int)
  deriving DecidableEq, Repr

namespace Interference

/-- An event that is refused leaves everything as it was. -/
def act (s : Service) : Interference → Service
  | append id actor status time =>
    match s.ledger.append id actor status time with
    | .ok (_, ledger) => { s with ledger }
    | .error _ => s
  | deleteEvents id => { s with ledger := s.ledger.deleteEvents id }
  | setClock now => { s with now }

/-- One act after the other. -/
def run (acts : List Interference) (s : Service) : Service := acts.foldl act s

theorem run_append (acts acts' : List Interference) (s : Service) :
    run (acts ++ acts') s = run acts' (run acts s) :=
  List.foldl_append

theorem act_onward (i : Interference) (s : Service) : s.ledger.Onward (i.act s).ledger := by
  cases i with
  | append id actor status time =>
    simp only [act]
    split
    · exact .insertEvent (Ledger.append_eq_ok ‹_›)
    · exact .refl _
  | deleteEvents id => exact .deleteEvents _ id
  | setClock now => exact .refl _

theorem run_onward (acts : List Interference) (s : Service) :
    s.ledger.Onward (run acts s).ledger := by
  induction acts generalizing s with
  | nil => exact .refl _
  | cons i acts ih => exact (i.act_onward s).trans (ih (i.act s))

/-- One of the acts appends the row. -/
def Appended (acts : List Interference) (row : EventRow) : Prop :=
  ∃ eventId id actor status time, append id actor status time ∈ acts ∧
    row = EventRow.of ⟨eventId, id, actor, status, time, none⟩

theorem Appended.mono {acts acts' : List Interference} {row : EventRow} (h : Appended acts row)
    (hsub : acts ⊆ acts') : Appended acts' row := by
  obtain ⟨eventId, id, actor, status, time, hact, heq⟩ := h
  exact ⟨eventId, id, actor, status, time, hsub hact, heq⟩

theorem mem_events_act {i : Interference} {s : Service} {row : EventRow}
    (h : row ∈ (i.act s).ledger.events) : row ∈ s.ledger.events ∨ Appended [i] row := by
  cases i with
  | append id actor status time =>
    simp only [act] at h
    split at h
    · rename_i eventId ledger happend
      obtain ⟨rfl, -⟩ := Ledger.insertEvent_eq_ok (Ledger.append_eq_ok happend)
      rcases List.mem_append.1 h with hold | hnew
      · exact .inl hold
      · exact .inr ⟨eventId, id, actor, status, time, List.mem_singleton_self _,
          List.mem_singleton.1 hnew⟩
    · exact .inl h
  | deleteEvents id => exact .inl (List.mem_of_mem_filter h)
  | setClock now => exact .inl h

/-- What is there after some acts was there before, or one of them has appended it. -/
theorem mem_events_run {acts : List Interference} {s : Service} {row : EventRow}
    (h : row ∈ (run acts s).ledger.events) : row ∈ s.ledger.events ∨ Appended acts row := by
  induction acts generalizing s with
  | nil => exact .inl h
  | cons i acts ih =>
    rcases ih h with hfirst | hrest
    · exact (mem_events_act hfirst).imp_right fun hi =>
        hi.mono (List.cons_subset_cons i (List.nil_subset acts))
    · exact .inr (hrest.mono (List.subset_cons_self i acts))

end Interference

/-- A service with what others do to it, a list of acts for each clock reading. -/
def Service.amid (s : Service) (others : List (List Interference)) : Shared :=
  ⟨s, others.map Interference.run⟩

namespace Shared

/-- The shared service after one clock reading. -/
def later (s : Shared) : Shared := s.readClock.2

theorem readClock_eq (s : Shared) : s.readClock = (s.later.service.now, s.later) := by
  obtain ⟨service, meanwhile⟩ := s
  cases meanwhile <;> rfl

theorem later_meanwhile (s : Shared) : s.later.meanwhile = s.meanwhile.drop 1 := by
  obtain ⟨service, meanwhile⟩ := s
  cases meanwhile <;> rfl

/-- Everything that the others do is in the relation. -/
def OthersIn (R : Service → Service → Prop) (s : Shared) : Prop :=
  ∀ act ∈ s.meanwhile, ∀ p, R p (act p)

namespace OthersIn

variable {R : Service → Service → Prop} {s s' : Shared}

theorem alone (p : Service) : p.alone.OthersIn R := List.forall_mem_nil _

theorem of_meanwhile (h : s.OthersIn R) (hsub : s'.meanwhile ⊆ s.meanwhile) : s'.OthersIn R :=
  fun act hact => h act (hsub hact)

theorem later (h : s.OthersIn R) : s.later.OthersIn R :=
  h.of_meanwhile fun _ hact => List.mem_of_mem_drop (s.later_meanwhile ▸ hact)

/-- So is what they do next, if doing nothing is. -/
theorem rel_later (h : s.OthersIn R) (hrefl : ∀ p, R p p) : R s.service s.later.service := by
  obtain ⟨service, meanwhile⟩ := s
  cases meanwhile with
  | nil => exact hrefl service
  | cons act acts => exact h act List.mem_cons_self service

end OthersIn

/-- Whatever the others do, the events go on. -/
def Orderly (s : Shared) : Prop :=
  ∀ act ∈ s.meanwhile, ∀ p : Service, p.ledger.Onward (act p).ledger

theorem Orderly.later {s : Shared} (h : s.Orderly) : s.later.Orderly :=
  OthersIn.later (R := fun p p' => p.ledger.Onward p'.ledger) h

theorem Orderly.onward {s : Shared} (h : s.Orderly) :
    s.service.ledger.Onward s.later.service.ledger :=
  OthersIn.rel_later (R := fun p p' => p.ledger.Onward p'.ledger) h fun p => .refl p.ledger

end Shared

theorem Service.amid_orderly (s : Service) (others : List (List Interference)) :
    (s.amid others).Orderly := by
  intro act hact p
  obtain ⟨acts, -, rfl⟩ := List.mem_map.1 hact
  exact Interference.run_onward acts p

theorem Shared.eq_amid {s : Shared} {p : Service} {others : List (List Interference)}
    (h : s.meanwhile = (p.amid others).meanwhile) : s = s.service.amid others := by
  obtain ⟨service, meanwhile⟩ := s
  exact congrArg (Shared.mk service) h

/-- The shared service after some readings is what the acts at these readings made of it. -/
theorem Service.iterate_later_amid (s : Service) (others : List (List Interference)) (n : Nat) :
    Shared.later^[n] (s.amid others) =
      (Interference.run (others.take n).flatten s).amid (others.drop n) := by
  induction n generalizing s others with
  | zero => rfl
  | succ n ih =>
    cases others with
    | nil =>
      have hsame : (s.amid []).later = s.amid [] := rfl
      have hrest := ih s []
      simp only [List.take_nil, List.drop_nil] at hrest
      rw [Function.iterate_succ_apply, hsame, hrest]
      rfl
    | cons acts others =>
      have hone : (s.amid (acts :: others)).later = (Interference.run acts s).amid others := rfl
      rw [Function.iterate_succ_apply, hone, ih]
      simp [Interference.run_append]

/-- A service with one solicitation, of CTEEP, and the given events of it. -/
def Service.holding (log : List Event) (now : Int) : Service where
  ledger :=
    { Ledger.empty with
      envelopes := [.of 1 ⟨.reactor, .turnOn, "MOS", "CTEEP", .switched 1 false none⟩ "ana" none]
      events := log.map EventRow.of
      lastEnvelope := 1
      lastEvent := (log.map Event.eventId).foldl max 0 }
  directory := ⟨.empty, []⟩
  settings := .default
  bus := .silent
  now

theorem Service.holding_numbered {log : List Event} (h : (log.map Event.eventId).Nodup)
    (now : Int) : (Service.holding log now).ledger.Numbered := by
  have hids : (log.map EventRow.of).map EventRow.eventId = log.map Event.eventId := by
    rw [List.map_map]
    rfl
  constructor
  · intro id
    exact (hids ▸ h).sublist (List.filter_sublist.map EventRow.eventId)
  · intro row hrow
    have hmem := List.mem_map_of_mem (f := EventRow.eventId) hrow
    exact (le_foldl_max (log.map Event.eventId) 0).2 _ (hids ▸ hmem)

end GridDispatch
