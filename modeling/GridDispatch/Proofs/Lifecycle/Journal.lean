import GridDispatch.Proofs.Announcement
import GridDispatch.Proofs.ChangeRequest
import GridDispatch.Proofs.Ledger.Onward
import Mathlib.Data.List.Chain

/-!
# The life of a solicitation

A journal is the events of a ledger in the order in which they were written, each with its cause. It
is in order (`Ledger.Journal`) if ids go up in it and if each solicitation lives by the rules
(`Life`): it begins as new, and what follows is an acceptance marked late, or a change that the
company of a user is entitled to.
-/

namespace GridDispatch

/-- What made an event: a batch, a user's request that was resolved in some service, or the sweep.
Whatever else happens makes none. -/
inductive Cause
  | outside
  | submit
  | change (resolved : Service) (r : ChangeRequest)
  | sweep

structure Entry where
  event : Event
  cause : Cause

/-- What may come after an event in the life of a solicitation of `owner`. -/
inductive Follows (owner : String) : Entry → Entry → Prop
  | late {a : Entry} {eventId id time : Int} :
    a.event.status = .accepted → a.event.time ≤ time →
    Follows owner a ⟨⟨eventId, id, none, .late, time, none⟩, .sweep⟩
  | change {a : Entry} {resolved : Service} {r : ChangeRequest} {company : String}
      {requested : Status} {eventId time : Int} :
    resolved.directory.companyOf r.actor = .ok (some company) →
    ofName? (Text.trim r.status) = some requested →
    Entitled company owner a.event.status requested → a.event.time ≤ time →
    Follows owner a ⟨⟨eventId, r.id, some r.actor, requested, time,
      r.justification.bind Text.filled?⟩, .change resolved r⟩

/-- The solicitation begins as new by its requester, it never becomes new again, and one thing
follows the other. -/
structure Life (row : EnvelopeRow) (log : List Entry) : Prop where
  begins : ∃ first rest, log = first :: rest ∧ first.cause = .submit ∧
    first.event.status = .new ∧ first.event.actor = some row.requesterId ∧
    ∀ x ∈ rest, x.event.status ≠ .new
  follows : log.IsChain (Follows row.companyCode)

/-- The entries about a solicitation. -/
def about (id : Int) (entries : List Entry) : List Entry :=
  entries.filter fun x => decide (x.event.solicitationId = id)

/-- The journal of a ledger in which each solicitation lives by the rules. -/
structure Ledger.Journal (l : Ledger) (entries : List Entry) : Prop where
  events : l.events = entries.map fun x => EventRow.of x.event
  ids : entries.Pairwise fun a b => a.event.eventId < b.event.eventId
  le_last : ∀ x ∈ entries, x.event.eventId ≤ l.lastEvent
  known : ∀ x ∈ entries, ∃ row ∈ l.envelopes, row.id = x.event.solicitationId
  nodup : (l.envelopes.map EnvelopeRow.id).Nodup
  life : ∀ row ∈ l.envelopes, Life row (about row.id entries)

/-! ## Steps of a life -/

namespace Follows

variable {owner : String} {a b : Entry}

theorem time_le (h : Follows owner a b) : a.event.time ≤ b.event.time := by
  cases h with
  | late _ htime => exact htime
  | change _ _ _ htime => exact htime

theorem ne_new (h : Follows owner a b) : b.event.status ≠ .new := by
  cases h with
  | late => exact Status.noConfusion
  | change _ _ hentitled _ => exact hentitled.ne_new

end Follows

namespace Life

variable {row : EnvelopeRow} {log : List Entry}

theorem singleton {first : Entry} (hcause : first.cause = .submit) (hstatus : first.event.status = .new)
    (hactor : first.event.actor = some row.requesterId) : Life row [first] :=
  ⟨⟨first, [], rfl, hcause, hstatus, hactor, List.forall_mem_nil _⟩, List.isChain_singleton _⟩

/-- A life goes on with what follows its last event. -/
theorem append (h : Life row log) {a x : Entry} (hlast : log.getLast? = some a)
    (hfollows : Follows row.companyCode a x) : Life row (log ++ [x]) := by
  obtain ⟨first, rest, rfl, hcause, hstatus, hactor, hrest⟩ := h.begins
  constructor
  · refine ⟨first, rest ++ [x], rfl, hcause, hstatus, hactor, fun y hy => ?_⟩
    rcases List.mem_append.1 hy with hold | hnew
    · exact hrest y hold
    · rw [List.mem_singleton.1 hnew]
      exact hfollows.ne_new
  · refine List.isChain_append.2 ⟨h.follows, List.isChain_singleton _, fun y hy z hz => ?_⟩
    rw [Option.mem_def, hlast] at hy
    cases hy
    cases hz
    exact hfollows

/-- Times do not go back in a life. -/
theorem times (h : Life row log) : log.Pairwise fun a b => a.event.time ≤ b.event.time := by
  have htrans : IsTrans Entry fun a b => a.event.time ≤ b.event.time :=
    ⟨fun _ _ _ => Int.le_trans⟩
  exact (h.follows.imp fun _ _ => Follows.time_le).pairwise

end Life

/-! ## What a journal tells -/

theorem about_append (id : Int) (entries entries' : List Entry) :
    about id (entries ++ entries') = about id entries ++ about id entries' :=
  List.filter_append entries entries'

theorem about_singleton_self (x : Entry) : about x.event.solicitationId [x] = [x] := by
  simp [about]

theorem about_singleton_of_ne {id : Int} {x : Entry} (h : x.event.solicitationId ≠ id) :
    about id [x] = [] := by
  simp [about, h]

namespace Ledger.Journal

variable {l l' : Ledger} {entries : List Entry} {row : EnvelopeRow}

theorem logs (h : l.Journal entries) (id : Int) :
    l.Logs id ((about id entries).map Entry.event) := by
  rw [Logs, written, h.events, List.filter_map, List.map_map]
  rfl

theorem sameRows (h : l.Journal entries) (hsame : l.SameRows l') : l'.Journal entries where
  events := hsame.events.trans h.events
  ids := h.ids
  le_last := hsame.lastEvent ▸ h.le_last
  known := hsame.envelopes ▸ h.known
  nodup := hsame.envelopes ▸ h.nodup
  life := hsame.envelopes ▸ h.life

theorem numbered (h : l.Journal entries) : l.Numbered := by
  constructor
  · intro id
    have hids : ((about id entries).map fun x => x.event.eventId).Nodup :=
      List.pairwise_map.2 ((h.ids.sublist List.filter_sublist).imp fun hlt => by omega)
    rw [h.logs id, List.map_map, List.map_map]
    exact hids
  · intro row hrow
    rw [h.events] at hrow
    obtain ⟨x, hx, rfl⟩ := List.mem_map.1 hrow
    exact h.le_last x hx

/-- In the life of a solicitation ids go up and times do not go back. -/
theorem chronological (h : l.Journal entries) (hrow : row ∈ l.envelopes) :
    ((about row.id entries).map Entry.event).Pairwise fun a b =>
      a.eventId < b.eventId ∧ a.time ≤ b.time :=
  List.pairwise_map.2 ((h.ids.sublist List.filter_sublist).and (h.life row hrow).times)

/-- The newest first is the reverse of the order of writing. -/
theorem rowsOf (h : l.Journal entries) (hrow : row ∈ l.envelopes) :
    l.rowsOf row.id = ((about row.id entries).map fun x => EventRow.of x.event).reverse := by
  rw [(h.logs row.id).rowsOf, newestFirst_of_chronological (h.chronological hrow),
    List.map_reverse, List.map_map]
  rfl

/-- No event is known of a solicitation that is not there. -/
theorem about_eq_nil (h : l.Journal entries) {id : Int} (hid : ∀ row ∈ l.envelopes, row.id ≠ id) :
    about id entries = [] := by
  refine List.filter_eq_nil_iff.2 fun x hx heq => ?_
  obtain ⟨row, hrow, hrowid⟩ := h.known x hx
  exact hid row hrow (hrowid.trans (of_decide_eq_true heq))

/-- The same of any id, for a solicitation that is not there has no events. -/
theorem rowsOf_eq (h : l.Journal entries) (id : Int) :
    l.rowsOf id = ((about id entries).map fun x => EventRow.of x.event).reverse := by
  by_cases hknown : ∃ row ∈ l.envelopes, row.id = id
  · obtain ⟨row, hrow, rfl⟩ := hknown
    exact h.rowsOf hrow
  · rw [(h.logs id).rowsOf, h.about_eq_nil fun row hrow hid => hknown ⟨row, hrow, hid⟩]
    simp [newestFirst]

/-- The event that was written last is the head. -/
theorem getLast?_of_newest (h : l.Journal entries) (hrow : row ∈ l.envelopes) {log : List Event}
    (hlog : l.Logs row.id log) {head : Event} (hhead : (newestFirst log).head? = some head) :
    ∃ a, (about row.id entries).getLast? = some a ∧ a.event = head := by
  have hof : log = (about row.id entries).map Entry.event :=
    List.map_injective_iff.2 EventRow.of_injective (hlog.symm.trans (h.logs row.id))
  rw [hof, newestFirst_of_chronological (h.chronological hrow), List.head?_reverse,
    List.getLast?_map] at hhead
  exact Option.map_eq_some_iff.1 hhead

/-- The first event of a solicitation tells when it was created, and the last one is its head. -/
theorem state? (h : l.Journal entries) (hrow : row ∈ l.envelopes) :
    ∃ state first last, l.state? row.id = .ok (some state) ∧
      (about row.id entries).head? = some first ∧ (about row.id entries).getLast? = some last ∧
      state.status = last.event.status ∧ state.createdAt = first.event.time ∧
      state.updatedAt = last.event.time := by
  obtain ⟨first, rest, hlog, -⟩ := (h.life row hrow).begins
  have hfirst : (about row.id entries).head? = some first := by
    rw [hlog]
    rfl
  obtain ⟨last, hlast⟩ : ∃ last, (about row.id entries).getLast? = some last := by
    rw [hlog, List.getLast?_cons]
    exact ⟨_, rfl⟩
  obtain ⟨state, hof, hstatus, hcreated, hupdated⟩ :=
    State.ofEvents?_of_chronological (h.chronological hrow)
      (by rw [List.head?_map, hfirst]; rfl) (by rw [List.getLast?_map, hlast]; rfl)
  refine ⟨state, first, last, ?_, hfirst, hlast, hstatus, hcreated, hupdated⟩
  rw [(h.logs row.id).state?, hof]

/-! ## Writes -/

theorem ids_append (h : l.Journal entries) {x : Entry} (hnew : l.lastEvent < x.event.eventId) :
    (entries ++ [x]).Pairwise fun a b => a.event.eventId < b.event.eventId := by
  refine List.pairwise_append.2 ⟨h.ids, List.pairwise_singleton .., fun a ha y hy => ?_⟩
  rw [List.mem_singleton.1 hy]
  exact Int.lt_of_le_of_lt (h.le_last a ha) hnew

theorem le_last_append (h : l.Journal entries) {x : Entry}
    (hnew : l.lastEvent < x.event.eventId) :
    ∀ y ∈ entries ++ [x], y.event.eventId ≤ x.event.eventId := by
  intro y hy
  rcases List.mem_append.1 hy with hold | hlast
  · exact Int.le_trans (h.le_last y hold) (Int.le_of_lt hnew)
  · rw [List.mem_singleton.1 hlast]

/-- A new event that follows the last one of its solicitation. -/
theorem withEvent (h : l.Journal entries) (hrow : row ∈ l.envelopes) {a x : Entry}
    (hid : x.event.solicitationId = row.id) (hnew : l.lastEvent < x.event.eventId)
    (hlast : (about row.id entries).getLast? = some a) (hfollows : Follows row.companyCode a x) :
    (l.withEvent x.event).Journal (entries ++ [x]) where
  events := by
    simp only [Ledger.withEvent, h.events, List.map_append, List.map_cons, List.map_nil]
  ids := h.ids_append hnew
  le_last := h.le_last_append hnew
  known := by
    intro b hb
    rcases List.mem_append.1 hb with hold | hnew'
    · exact h.known b hold
    · exact ⟨row, hrow, by rw [List.mem_singleton.1 hnew', hid]⟩
  nodup := h.nodup
  life := by
    intro row' hrow'
    rw [about_append]
    by_cases hsame : row'.id = row.id
    · have heq : row' = row := List.inj_on_of_nodup_map h.nodup hrow' hrow hsame
      rw [heq, ← hid, about_singleton_self, hid]
      exact (h.life row hrow).append hlast hfollows
    · rw [about_singleton_of_ne (fun heq => hsame (heq.symm.trans hid)), List.append_nil]
      exact h.life row' hrow'

/-- A new solicitation with its first event. -/
theorem withEnvelope (h : l.Journal entries) {first : Entry}
    (hids : ∀ row' ∈ l.envelopes, row'.id < row.id)
    (hid : first.event.solicitationId = row.id) (hnew : l.lastEvent < first.event.eventId)
    (hlife : Life row [first]) :
    ((l.withEnvelope row).withEvent first.event).Journal (entries ++ [first]) where
  events := by
    simp only [Ledger.withEvent, Ledger.withEnvelope, h.events, List.map_append, List.map_cons,
      List.map_nil]
  ids := h.ids_append hnew
  le_last := h.le_last_append hnew
  known := by
    intro b hb
    rcases List.mem_append.1 hb with hold | hnew'
    · obtain ⟨row', hrow', hid'⟩ := h.known b hold
      exact ⟨row', List.mem_append_left _ hrow', hid'⟩
    · exact ⟨row, List.mem_append_right _ (List.mem_singleton_self row),
        by rw [List.mem_singleton.1 hnew', hid]⟩
  nodup := by
    simp only [Ledger.withEvent, Ledger.withEnvelope, List.map_append, List.map_cons, List.map_nil]
    refine List.nodup_append.2 ⟨h.nodup, List.nodup_singleton _, fun i hi j hj => ?_⟩
    obtain ⟨row', hrow', rfl⟩ := List.mem_map.1 hi
    rw [List.mem_singleton.1 hj]
    exact Int.ne_of_lt (hids row' hrow')
  life := by
    intro row' hrow'
    rw [about_append]
    rcases List.mem_append.1 hrow' with hold | hnew'
    · have hlt := hids row' hold
      rw [about_singleton_of_ne (by omega), List.append_nil]
      exact h.life row' hold
    · have hnone : about row.id entries = [] :=
        h.about_eq_nil fun row₀ hrow₀ => Int.ne_of_lt (hids row₀ hrow₀)
      rw [List.mem_singleton.1 hnew', hnone, ← hid, about_singleton_self, List.nil_append]
      exact hlife

/-- The solicitations of a group begin one after the other. -/
theorem enterAll {g : Group} {time : Int} {news : List NewSolicitation} {ids : List Int}
    (h : l.Journal entries) (henter : l.enterAll g .new time news = .ok (ids, l')) :
    ∃ new : List Event, l'.events = l.events ++ new.map EventRow.of ∧
      l'.Journal (entries ++ new.map fun e => ⟨e, .submit⟩) ∧ l.Onward l' ∧
      l.envelopes ⊆ l'.envelopes := by
  induction news generalizing l entries ids with
  | nil =>
    cases henter
    exact ⟨[], by simp, by simpa using h, .refl _, List.Subset.refl _⟩
  | cons first rest ih =>
    obtain ⟨⟨id, l₁⟩, hfirst, henter⟩ := bind_eq_ok_iff.1 henter
    obtain ⟨⟨ids', l₂⟩, hrest, henter⟩ := bind_eq_ok_iff.1 henter
    cases henter
    obtain ⟨⟨eventId, rfl, hlast, -⟩, hid⟩ := enter_eq_ok hfirst
    let row := EnvelopeRow.of id first g.requesterId (some g.groupId)
    let entry : Entry := ⟨⟨eventId, id, some g.requesterId, .new, time, none⟩, .submit⟩
    have hentry : ((l.withEnvelope row).withEvent entry.event).Journal (entries ++ [entry]) :=
      h.withEnvelope hid rfl hlast (.singleton rfl rfl rfl)
    obtain ⟨new, hevents, hjournal, honward, hsub⟩ := ih hentry hrest
    refine ⟨entry.event :: new, ?_, ?_, ?_, ?_⟩
    · rw [hevents, Ledger.withEvent, List.append_assoc]
      rfl
    · rw [List.map_cons, List.append_cons]
      exact hjournal
    · have hrow : l.Onward (l.withEnvelope row) := .of_events rfl rfl
      have hevent : (l.withEnvelope row).Onward ((l.withEnvelope row).withEvent entry.event) :=
        .withEvent hlast
      exact (hrow.trans hevent).trans honward
    · exact fun row hrow => hsub (List.mem_append_left _ hrow)

end Ledger.Journal

end GridDispatch
