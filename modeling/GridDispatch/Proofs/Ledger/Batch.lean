import GridDispatch.Proofs.Ledger.Built

/-!
# Batches of rows

What a series of rows that go in one after the other leaves behind, and when it goes in. The
solicitations of a group are `Entered` with an id and the id of their first event each, and
`Ledger.withEntered` is the ledger with them at its end (`createBatch_eq_ok`). All of them go in if
the storage takes every row and has ids left (`exists_createBatch`), and so does an update
(`exists_record`).
-/

namespace GridDispatch

/-! ## Ids -/

/-- Ids that were given out one after the other: they count up, above the last one given out before
and above all that were in use, and without gaps unless an id above the last one was in use. -/
structure GivenOut (last : Int) (used ids : List Int) : Prop where
  sorted : ids.Pairwise (· < ·)
  above : ∀ i ∈ ids, last < i ∧ ∀ j ∈ used, j < i
  bound : ∀ i ∈ ids, i ≤ Text.Range.signed.hi
  gapless : (∀ j ∈ used, j ≤ last) → ids.getLastD last = last + ids.length

theorem Ledger.nextId_eq_ok {last id : Int} {used : List Int} (h : nextId last used = .ok id) :
    id = used.foldl max last + 1 ∧ id ≤ Text.Range.signed.hi := by
  simp only [nextId] at h
  split at h
  · cases h
    exact ⟨rfl, by omega⟩
  · cases h

namespace GivenOut

variable {last i : Int} {used ids : List Int}

theorem nil (last : Int) (used : List Int) : GivenOut last used [] :=
  ⟨.nil, List.forall_mem_nil _, List.forall_mem_nil _, fun _ => (Int.add_zero last).symm⟩

theorem cons (hnext : Ledger.nextId last used = .ok i) (h : GivenOut i (used ++ [i]) ids) :
    GivenOut last used (i :: ids) := by
  obtain ⟨hlast, hused⟩ := Ledger.lt_of_nextId hnext
  obtain ⟨hi, hbound⟩ := Ledger.nextId_eq_ok hnext
  refine ⟨List.pairwise_cons.2 ⟨fun j hj => (h.above j hj).1, h.sorted⟩, fun j hj => ?_,
    List.forall_mem_cons.2 ⟨hbound, h.bound⟩, fun hle => ?_⟩
  · rcases List.mem_cons.1 hj with rfl | hj
    · exact ⟨hlast, hused⟩
    · obtain ⟨hlt, hall⟩ := h.above j hj
      exact ⟨by omega, fun k hk => hall k (List.mem_append_left _ hk)⟩
  · rw [foldl_max_of_le hle] at hi
    have hrest := h.gapless fun j hj => by
      rcases List.mem_append.1 hj with hj | hj
      · exact Int.le_of_lt (hused j hj)
      · exact Int.le_of_eq (List.mem_singleton.1 hj)
    rw [List.getLastD_cons, hrest, List.length_cons]
    omega

theorem nodup (h : GivenOut last used ids) : ids.Nodup := h.sorted.imp fun hlt => by omega

/-- What was given out without gaps had room. -/
theorem add_length_le (h : GivenOut last used ids) (hle : ∀ j ∈ used, j ≤ last) (hne : ids ≠ []) :
    last + ids.length ≤ Text.Range.signed.hi := by
  rw [← h.gapless hle]
  refine h.bound _ ?_
  rw [List.getLastD_eq_getLast?, List.getLast?_eq_some_getLast hne]
  exact List.getLast_mem hne

end GivenOut

/-- There are ids for so many rows more. -/
def Room (last : Int) (used : List Int) (n : Nat) : Prop :=
  used.foldl max last + n ≤ Text.Range.signed.hi

theorem Room.next {last : Int} {used : List Int} {n : Nat} (h : Room last used (n + 1)) :
    ∃ id, Ledger.nextId last used = .ok id ∧ Room id (used ++ [id]) n := by
  simp only [Room] at h
  refine ⟨used.foldl max last + 1, ?_, ?_⟩
  · rw [Ledger.nextId, if_pos (by omega)]
  · have hused : ∀ i ∈ used ++ [used.foldl max last + 1], i ≤ used.foldl max last + 1 := by
      intro i hi
      rcases List.mem_append.1 hi with hi | hi
      · have := (le_foldl_max used last).2 i hi
        omega
      · exact Int.le_of_eq (List.mem_singleton.1 hi)
    rw [Room, foldl_max_of_le hused]
    omega

namespace Ledger

variable {l l' : Ledger} {g : Group} {status : Status} {time id : Int} {new : NewSolicitation}
  {news : List NewSolicitation}

/-- What was there before has none of the ids that were given out. -/
theorem ne_of_hasEnvelope {ids : List Int}
    (h : GivenOut l.lastEnvelope (l.envelopes.map EnvelopeRow.id) ids) {i : Int} (hi : i ∈ ids)
    (hid : l.hasEnvelope id = true) : id ≠ i := by
  obtain ⟨row, hrow, heq⟩ := List.any_eq_true.1 hid
  have := (h.above i hi).2 row.id (List.mem_map_of_mem hrow)
  have := of_decide_eq_true heq
  omega

/-! ## What goes in -/

/-- A solicitation that was entered: with its id, and with the id of its first event. -/
structure Entered where
  id : Int
  eventId : Int
  new : NewSolicitation

namespace Entered

def row (g : Group) (x : Entered) : EnvelopeRow :=
  .of x.id x.new g.requesterId (some g.groupId)

def event (g : Group) (status : Status) (time : Int) (x : Entered) : Event :=
  ⟨x.eventId, x.id, some g.requesterId, status, time, none⟩

end Entered

def withGroup (l : Ledger) (g : Group) : Ledger := { l with groups := l.groups ++ [g] }

/-- The ledger with solicitations of a group at its end. -/
def withEntered (l : Ledger) (g : Group) (status : Status) (time : Int) (entered : List Entered) :
    Ledger :=
  { l with
    envelopes := l.envelopes ++ entered.map (Entered.row g)
    events := l.events ++ entered.map fun x => EventRow.of (x.event g status time)
    lastEnvelope := (entered.map Entered.id).getLastD l.lastEnvelope
    lastEvent := (entered.map Entered.eventId).getLastD l.lastEvent }

/-- The ledger with updates at its end. -/
def withUpdates (l : Ledger) (updates : List Update) : Ledger :=
  { l with
    updates := l.updates ++ updates.map UpdateRow.of
    lastUpdate := (updates.map Update.streamId).getLastD l.lastUpdate }

theorem withEntered_nil : l.withEntered g status time [] = l := by
  simp [withEntered]

theorem withEntered_cons (x : Entered) (entered : List Entered) :
    ((l.withEnvelope (x.row g)).withEvent (x.event g status time)).withEntered g status time entered =
      l.withEntered g status time (x :: entered) := by
  simp only [withEntered, withEvent, withEnvelope, List.map_cons, List.getLastD_cons,
    List.append_assoc, List.singleton_append]
  rfl

theorem withUpdates_nil : l.withUpdates [] = l := by
  simp [withUpdates]

theorem withUpdates_cons (u : Update) (updates : List Update) :
    (l.withUpdate u).withUpdates updates = l.withUpdates (u :: updates) := by
  simp only [withUpdates, withUpdate, List.map_cons, List.getLastD_cons, List.append_assoc,
    List.singleton_append]

theorem nextId_of_insertEnvelope {requesterId : String} {groupId : Option String}
    (h : l.insertEnvelope new requesterId groupId = .ok (id, l')) :
    nextId l.lastEnvelope (l.envelopes.map EnvelopeRow.id) = .ok id := by
  obtain ⟨⟨⟩, -, h⟩ := bind_eq_ok_iff.1 h
  obtain ⟨next, hnext, h⟩ := bind_eq_ok_iff.1 h
  split at h
  · cases h
    exact hnext
  · cases h

theorem nextId_of_insertEvent {eventId : Int} {actor justification : Option String}
    (h : l.insertEvent id actor status time justification = .ok (eventId, l')) :
    nextId l.lastEvent (l.events.map EventRow.eventId) = .ok eventId := by
  obtain ⟨⟨⟩, -, h⟩ := bind_eq_ok_iff.1 h
  obtain ⟨next, hnext, h⟩ := bind_eq_ok_iff.1 h
  split at h
  · cases h
    exact hnext
  · cases h

theorem enter_eq_entered (h : l.enter new g.requesterId (some g.groupId) status time = .ok (id, l')) :
    ∃ x : Entered, x.id = id ∧ x.new = new ∧
      l' = (l.withEnvelope (x.row g)).withEvent (x.event g status time) ∧
      nextId l.lastEnvelope (l.envelopes.map EnvelopeRow.id) = .ok x.id ∧
      nextId l.lastEvent (l.events.map EventRow.eventId) = .ok x.eventId := by
  obtain ⟨⟨id', l₁⟩, henvelope, h⟩ := bind_eq_ok_iff.1 h
  obtain ⟨⟨eventId, l₂⟩, hevent, h⟩ := bind_eq_ok_iff.1 h
  cases h
  have hid := nextId_of_insertEnvelope henvelope
  obtain ⟨rfl, -⟩ := insertEnvelope_eq_ok henvelope
  have heventId := nextId_of_insertEvent hevent
  exact ⟨⟨id, eventId, new⟩, rfl, rfl, (insertEvent_eq_ok hevent).1, hid, heventId⟩

theorem enterAll_eq_ok {ids : List Int} (h : l.enterAll g status time news = .ok (ids, l')) :
    ∃ entered : List Entered, entered.map Entered.new = news ∧ entered.map Entered.id = ids ∧
      l' = l.withEntered g status time entered ∧
      GivenOut l.lastEnvelope (l.envelopes.map EnvelopeRow.id) (entered.map Entered.id) ∧
      GivenOut l.lastEvent (l.events.map EventRow.eventId) (entered.map Entered.eventId) := by
  induction news generalizing l ids with
  | nil =>
    cases h
    exact ⟨[], rfl, rfl, withEntered_nil.symm, .nil .., .nil ..⟩
  | cons new news ih =>
    obtain ⟨⟨id, l₁⟩, henter, h⟩ := bind_eq_ok_iff.1 h
    obtain ⟨⟨ids', l₂⟩, hrest, h⟩ := bind_eq_ok_iff.1 h
    cases h
    obtain ⟨x, rfl, rfl, rfl, hid, heventId⟩ := enter_eq_entered henter
    obtain ⟨entered, rfl, rfl, rfl, hids, heventIds⟩ := ih hrest
    refine ⟨x :: entered, rfl, rfl, withEntered_cons x entered, .cons hid ?_, .cons heventId ?_⟩
    · simpa [withEvent, withEnvelope, Entered.row, EnvelopeRow.of] using hids
    · simpa [withEvent, withEnvelope, EventRow.of, Entered.event] using heventIds

theorem createBatch_eq_ok {ids : List Int} (h : l.createBatch g news status time = .ok (ids, l')) :
    ∃ entered : List Entered, entered.map Entered.new = news ∧ entered.map Entered.id = ids ∧
      l' = (l.withGroup g).withEntered g status time entered ∧
      GivenOut l.lastEnvelope (l.envelopes.map EnvelopeRow.id) (entered.map Entered.id) ∧
      GivenOut l.lastEvent (l.events.map EventRow.eventId) (entered.map Entered.eventId) := by
  obtain ⟨l₁, hgroup, h⟩ := bind_eq_ok_iff.1 h
  rw [insertGroup_eq_ok hgroup] at h
  exact enterAll_eq_ok h

/-! ## When it goes in -/

/-- No row is refused that goes into the table. -/
def Open (l : Ledger) (table : Table) : Prop := ∀ cell, l.passGuards table cell = .ok ()

/-- What is refused depends on nothing but the guards. -/
theorem Open.of_guards {table : Table} (h : l.Open table) (hguards : l'.guards = l.guards) :
    l'.Open table := by
  intro cell
  rw [passGuards, hguards]
  exact h cell

theorem record_of_next {userId : Option String} {kind : UpdateKind} {content : Json} {token : Int}
    (hpassed : l.passGuards .update (UpdateRow.of ⟨unnumbered, id, userId, kind, content⟩).cell = .ok ())
    (hknown : l.hasEnvelope id = true)
    (hnext : nextId l.lastUpdate (l.updates.map UpdateRow.streamId) = .ok token) :
    l.record id userId kind content =
      .ok (token, l.withUpdate ⟨token, id, userId, kind, content⟩) := by
  simp only [record, hpassed, hnext, hknown, if_pos, bind, Except.bind]
  rfl

theorem nextId_of_record {userId : Option String} {kind : UpdateKind} {content : Json} {token : Int}
    (h : l.record id userId kind content = .ok (token, l')) :
    nextId l.lastUpdate (l.updates.map UpdateRow.streamId) = .ok token := by
  obtain ⟨⟨⟩, -, h⟩ := bind_eq_ok_iff.1 h
  obtain ⟨next, hnext, h⟩ := bind_eq_ok_iff.1 h
  split at h
  · cases h
    exact hnext
  · cases h

theorem exists_record {n : Nat} (hopen : l.Open .update) (hknown : l.hasEnvelope id = true)
    (hroom : Room l.lastUpdate (l.updates.map UpdateRow.streamId) (n + 1))
    (userId : Option String) (kind : UpdateKind) (content : Json) :
    ∃ token, l.record id userId kind content =
        .ok (token, l.withUpdate ⟨token, id, userId, kind, content⟩) ∧
      Room token (l.updates.map UpdateRow.streamId ++ [token]) n := by
  obtain ⟨token, hnext, hroom'⟩ := hroom.next
  exact ⟨token, record_of_next (hopen _) hknown hnext, hroom'⟩

/-- An event of a solicitation that is there goes in unless the storage refuses it. -/
theorem insertEvent_ne_error {actor justification : Option String} {fault : StoreError}
    (hopen : l.Open .event)
    (hroom : Room l.lastEvent (l.events.map EventRow.eventId) 1) (hknown : l.hasEnvelope id = true) :
    l.insertEvent id actor status time justification ≠ .error fault := by
  intro h
  obtain ⟨next, hnext, -⟩ := hroom.next
  rcases bind_eq_error_iff.1 h with hguards | ⟨⟨⟩, -, h⟩
  · rw [hopen] at hguards
    cases hguards
  · rcases bind_eq_error_iff.1 h with hnone | ⟨next', -, h⟩
    · rw [hnext] at hnone
      cases hnone
    · rw [if_pos hknown] at h
      cases h

end Ledger
end GridDispatch
