import GridDispatch.Proofs.Ledger.Write
import Mathlib.Logic.Relation

/-!
# Ledgers that were built by writing

A `Write` is one of the ways in which the program writes to a ledger, or something that befalls it
from outside: events of a solicitation are taken away, or the storage begins or ceases to refuse
rows. Each of them comes down to changes of a row at a time (`Write.changes`). A ledger that was
built by writes is in order (`Built.inOrder`): the ids of each table count up in the order of
writing, and every update can be read.
-/

namespace GridDispatch

/-- The ids of the rows of a table go up, from one to the last one given out. -/
structure Counted (ids : List Int) (last : Int) : Prop where
  sorted : ids.Pairwise (· < ·)
  bounds : ∀ id ∈ ids, 0 < id ∧ id ≤ last
  last_nonneg : 0 ≤ last

namespace Counted

variable {ids : List Int} {last id : Int}

theorem nil : Counted [] 0 := ⟨.nil, List.forall_mem_nil _, Int.le_refl _⟩

/-- An id above the last one goes on with the count. -/
theorem append (h : Counted ids last) (hid : last < id) : Counted (ids ++ [id]) id := by
  have hlast := h.last_nonneg
  refine ⟨List.pairwise_append.2 ⟨h.sorted, List.pairwise_singleton .., fun i hi j hj => ?_⟩,
    fun i hi => ?_, by omega⟩
  · rw [List.mem_singleton.1 hj]
    have := h.bounds i hi
    omega
  · rcases List.mem_append.1 hi with hold | hnew
    · have := h.bounds i hold
      omega
    · rw [List.mem_singleton.1 hnew]
      omega

theorem sublist {ids' : List Int} (h : Counted ids last) (hsub : ids'.Sublist ids) :
    Counted ids' last :=
  ⟨h.sorted.sublist hsub, fun i hi => h.bounds i (hsub.subset hi), h.last_nonneg⟩

end Counted

namespace Ledger

variable {l l' l'' : Ledger}

/-- The ledger with an update at its end. -/
def withUpdate (l : Ledger) (u : Update) : Ledger :=
  { l with updates := l.updates ++ [UpdateRow.of u], lastUpdate := u.streamId }

theorem record_eq_withUpdate {id token : Int} {userId : Option String} {kind : UpdateKind}
    {content : Json} (h : l.record id userId kind content = .ok (token, l')) :
    l' = l.withUpdate ⟨token, id, userId, kind, content⟩ ∧ l.lastUpdate < token ∧
      ∀ row ∈ l.updates, row.streamId < token := by
  have hwrote := record_eq_ok h
  obtain ⟨⟨⟩, -, h⟩ := bind_eq_ok_iff.1 h
  obtain ⟨next, hnext, h⟩ := bind_eq_ok_iff.1 h
  obtain ⟨hlast, hused⟩ := lt_of_nextId hnext
  split at h
  · cases h
    exact ⟨hwrote, hlast, fun row hrow => hused _ (List.mem_map_of_mem hrow)⟩
  · cases h

/-- The token of an update that has the greatest is that of the ledger. -/
theorem token_withUpdate {u : Update} (h : ∀ row ∈ l.updates, row.streamId < u.streamId) :
    (l.withUpdate u).token = u.streamId := by
  have hmax : ((l.withUpdate u).updates.map UpdateRow.streamId).max? = some u.streamId := by
    rw [List.max?_eq_some_iff]
    refine ⟨List.mem_map_of_mem (List.mem_append_right _ (List.mem_singleton_self _)), ?_⟩
    intro token htoken
    obtain ⟨row, hrow, rfl⟩ := List.mem_map.1 htoken
    rcases List.mem_append.1 hrow with hold | hnew
    · exact Int.le_of_lt (h row hold)
    · rw [List.mem_singleton.1 hnew]
      exact Int.le_refl _
  rw [token, hmax, Option.getD_some]

/-! ## Changes -/

/-- A row comes in under an id above the last one given out, or something goes that takes no row
in. -/
inductive Change (l : Ledger) : Ledger → Prop
  | group (g : Group) : Change l { l with groups := l.groups ++ [g] }
  | envelope (row : EnvelopeRow) : l.lastEnvelope < row.id → Change l (l.withEnvelope row)
  | event {e : Event} : l.lastEvent < e.eventId → Change l (l.withEvent e)
  | update {u : Update} : l.lastUpdate < u.streamId → Change l (l.withUpdate u)
  | deleteEvents (id : Int) : Change l (l.deleteEvents id)
  | guards (guards : List Guard) : Change l { l with guards }

/-- Changes one after the other. -/
abbrev Changes : Ledger → Ledger → Prop := Relation.ReflTransGen Change

/-! ## Writes -/

/-- The program writes to the ledger, or something befalls it from outside. -/
inductive Write (l : Ledger) : Ledger → Prop
  | create {l' : Ledger} {new : NewSolicitation} {requesterId : String} {status : Status}
      {time id : Int} : l.create new requesterId status time = .ok (id, l') → Write l l'
  | createBatch {l' : Ledger} {g : Group} {news : List NewSolicitation} {status : Status}
      {time : Int} {ids : List Int} :
    l.createBatch g news status time = .ok (ids, l') → Write l l'
  | append {l' : Ledger} {id eventId time : Int} {actor : Option String} {status : Status} :
    l.append id actor status time = .ok (eventId, l') → Write l l'
  | appendIfCurrent {l' : Ledger} {id eventId time : Int} {seen : Marker} {actor : Option String}
      {status : Status} {justification : Option String} :
    l.appendIfCurrent id seen actor status time justification = .ok (eventId, l') → Write l l'
  | record {l' : Ledger} {id token : Int} {userId : Option String} {kind : UpdateKind}
      {content : Json} : l.record id userId kind content = .ok (token, l') → Write l l'
  | deleteEvents (id : Int) : Write l (l.deleteEvents id)
  | guards (guards : List Guard) : Write l { l with guards }

/-- Writes one after the other. -/
abbrev Writes : Ledger → Ledger → Prop := Relation.ReflTransGen Write

/-- The ledger was built from the empty one by writing. -/
def Built (l : Ledger) : Prop := Writes .empty l

/-! ## A row at a time -/

/-- A relation between ledgers that goes from row to row and that everything is in which the program
writes a row. -/
structure Rowwise (R : Ledger → Ledger → Prop) : Prop where
  refl (l : Ledger) : R l l
  trans {l l' l'' : Ledger} : R l l' → R l' l'' → R l l''
  insertGroup {l l' : Ledger} {g : Group} : l.insertGroup g = .ok l' → R l l'
  insertEnvelope {l l' : Ledger} {new : NewSolicitation} {requesterId : String}
    {groupId : Option String} {id : Int} :
    l.insertEnvelope new requesterId groupId = .ok (id, l') → R l l'
  insertEvent {l l' : Ledger} {id eventId time : Int} {actor : Option String} {status : Status}
    {justification : Option String} :
    l.insertEvent id actor status time justification = .ok (eventId, l') → R l l'
  record {l l' : Ledger} {id token : Int} {userId : Option String} {kind : UpdateKind}
    {content : Json} : l.record id userId kind content = .ok (token, l') → R l l'

namespace Rowwise

variable {R : Ledger → Ledger → Prop} {status : Status} {time : Int}

theorem enter (hR : Rowwise R) {new : NewSolicitation} {requesterId : String}
    {groupId : Option String} {id : Int}
    (h : l.enter new requesterId groupId status time = .ok (id, l')) : R l l' := by
  obtain ⟨⟨id', l₁⟩, henvelope, h⟩ := bind_eq_ok_iff.1 h
  obtain ⟨⟨eventId, l₂⟩, hevent, h⟩ := bind_eq_ok_iff.1 h
  cases h
  exact hR.trans (hR.insertEnvelope henvelope) (hR.insertEvent hevent)

theorem enterAll (hR : Rowwise R) {g : Group} {news : List NewSolicitation} {ids : List Int}
    (h : l.enterAll g status time news = .ok (ids, l')) : R l l' := by
  induction news generalizing l ids with
  | nil =>
    cases h
    exact hR.refl _
  | cons new news ih =>
    obtain ⟨⟨id, l₁⟩, henter, h⟩ := bind_eq_ok_iff.1 h
    obtain ⟨⟨ids', l₂⟩, hrest, h⟩ := bind_eq_ok_iff.1 h
    cases h
    exact hR.trans (hR.enter henter) (ih hrest)

theorem createBatch (hR : Rowwise R) {g : Group} {news : List NewSolicitation} {ids : List Int}
    (h : l.createBatch g news status time = .ok (ids, l')) : R l l' := by
  obtain ⟨l₁, hgroup, henter⟩ := bind_eq_ok_iff.1 h
  exact hR.trans (hR.insertGroup hgroup) (hR.enterAll henter)

/-- Every write is in the relation, if what befalls the ledger from outside is. -/
theorem write (hR : Rowwise R) (hdelete : ∀ (l : Ledger) (id : Int), R l (l.deleteEvents id))
    (hguards : ∀ (l : Ledger) (guards : List Guard), R l { l with guards }) (h : Write l l') :
    R l l' := by
  cases h with
  | create h => exact hR.enter h
  | createBatch h => exact hR.createBatch h
  | append h => exact hR.insertEvent (append_eq_ok h)
  | appendIfCurrent h => exact hR.insertEvent (appendIfCurrent_eq_ok h).2
  | record h => exact hR.record h
  | deleteEvents id => exact hdelete l id
  | guards guards => exact hguards l guards

end Rowwise

theorem changes_rowwise : Rowwise Changes where
  refl _ := .refl
  trans := .trans
  insertGroup h := by
    rw [insertGroup_eq_ok h]
    exact .single (.group _)
  insertEnvelope h := by
    obtain ⟨rfl, hlast, -⟩ := insertEnvelope_eq_ok h
    exact .single (.envelope _ hlast)
  insertEvent h := by
    obtain ⟨rfl, -, hlast, -⟩ := insertEvent_eq_ok h
    exact .single (.event hlast)
  record h := by
    obtain ⟨rfl, hlast, -⟩ := record_eq_withUpdate h
    exact .single (.update hlast)

theorem Write.changes (h : Write l l') : Changes l l' :=
  changes_rowwise.write (fun _ id => .single (.deleteEvents id))
    (fun _ guards => .single (.guards guards)) h

theorem Writes.changes (h : Writes l l') : Changes l l' := by
  induction h with
  | refl => exact .refl
  | tail _ hwrite ih => exact ih.trans hwrite.changes

/-! ## Order -/

/-- Ids count up in the order of writing. -/
structure InOrder (l : Ledger) : Prop where
  envelopes : Counted (l.envelopes.map EnvelopeRow.id) l.lastEnvelope
  events : Counted (l.events.map EventRow.eventId) l.lastEvent
  updates : Counted (l.updates.map UpdateRow.streamId) l.lastUpdate

theorem empty_inOrder : Ledger.empty.InOrder := ⟨.nil, .nil, .nil⟩

theorem InOrder.change (h : l.InOrder) (hchange : Change l l') : l'.InOrder := by
  cases hchange with
  | group g => exact ⟨h.envelopes, h.events, h.updates⟩
  | envelope row hid =>
    refine ⟨?_, h.events, h.updates⟩
    simpa [withEnvelope] using h.envelopes.append hid
  | event hid =>
    refine ⟨h.envelopes, ?_, h.updates⟩
    simpa [withEvent, EventRow.of] using h.events.append hid
  | update hid =>
    refine ⟨h.envelopes, h.events, ?_⟩
    simpa [withUpdate, UpdateRow.of] using h.updates.append hid
  | deleteEvents id =>
    exact ⟨h.envelopes, h.events.sublist (List.filter_sublist.map _), h.updates⟩
  | guards guards => exact ⟨h.envelopes, h.events, h.updates⟩

theorem InOrder.writes (h : l.InOrder) (hwrites : Writes l l') : l'.InOrder := by
  have hchanges := hwrites.changes
  clear hwrites
  induction hchanges with
  | refl => exact h
  | tail _ hchange ih => exact ih.change hchange

theorem Built.inOrder (h : l.Built) : l.InOrder := empty_inOrder.writes h

/-- Updates come in as rows of updates. -/
theorem Built.exists_update (h : l.Built) : ∀ row ∈ l.updates, ∃ u, row = UpdateRow.of u := by
  have hchanges := h.changes
  clear h
  induction hchanges with
  | refl => exact List.forall_mem_nil _
  | tail _ hchange ih =>
    cases hchange with
    | update => exact List.forall_mem_append.2 ⟨ih, List.forall_mem_singleton.2 ⟨_, rfl⟩⟩
    | _ => exact ih

end Ledger

end GridDispatch
