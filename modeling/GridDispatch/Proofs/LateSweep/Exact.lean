import GridDispatch.Proofs.Heads
import GridDispatch.Proofs.Listing.Query
import GridDispatch.Proofs.Transition.Alone

/-!
# A sweep with nobody else around

Main statement: `Service.sweep_exact`. A sweep that nobody interferes with marks exactly the
solicitations whose acceptance is older than the cutoff, each by one event that becomes its head,
and leaves all others as they are; to sweep again at the same time does nothing. What the sweep
found before its first mark still holds when the turn of a candidate comes, since the mark of one
solicitation does not touch the events of another (`Ledger.find?_withEvent_of_ne`). Only the storage
can make less of it, which `Service.not_swept_of_full` shows.
-/

namespace GridDispatch

open Ledger

namespace Ledger

variable {l l' : Ledger} {id cutoff : Int} {v : View}

/-! ## The candidates -/

/-- The solicitation is accepted, and has been since before the cutoff. -/
def Overdue (l : Ledger) (cutoff : Int) (v : View) : Prop :=
  l.find? v.id = .ok (some v) ∧ v.status = .accepted ∧ v.updatedAt < cutoff

theorem Decodes.mem_stale_iff_overdue (hd : l.Decodes) :
    id ∈ l.stale cutoff ↔ ∃ v, v.id = id ∧ l.Overdue cutoff v := by
  rw [mem_stale_iff hd.events]
  constructor
  · rintro ⟨hknown, state, hstate, hstatus, hchanged⟩
    obtain ⟨row, hrow, hid⟩ := List.any_eq_true.1 hknown
    obtain rfl : row.id = id := of_decide_eq_true hid
    obtain ⟨hcheck, solicitation, hread⟩ := hd.envelopes row hrow
    have hfound : l.envelope? row.id = some row := envelope?_of_unique hrow fun row' hrow' hid' =>
      List.inj_on_of_nodup_map hd.nodup hrow' hrow hid'
    have hfind := find?_of_read hfound hcheck hread hstate
    have hid' : (View.of solicitation state).id = row.id := id_of_find? hfind
    exact ⟨View.of solicitation state, hid', hid' ▸ hfind, hstatus, hchanged⟩
  · rintro ⟨v, rfl, hfind, hstatus, hchanged⟩
    obtain ⟨log, state, hlog, hof, hv⟩ := exists_state_of_find? hfind
    rw [hv] at hstatus hchanged
    exact ⟨hasEnvelope_of_find? hfind, state, hlog.state?.trans (congrArg _ hof), hstatus, hchanged⟩

/-- The candidates of a sweep with their views. -/
theorem Decodes.exists_overdue (hd : l.Decodes) (cutoff : Int) : ∃ late : List View,
    late.map View.id = l.stale cutoff ∧ ∀ v, v ∈ late ↔ l.Overdue cutoff v := by
  have hrange : l.stale cutoff ∈
      Set.range (List.map fun v : { v // l.Overdue cutoff v } => v.1.id) := by
    rw [Set.range_list_map]
    intro id hid
    obtain ⟨v, hv, hoverdue⟩ := hd.mem_stale_iff_overdue.1 hid
    exact ⟨⟨v, hoverdue⟩, hv⟩
  obtain ⟨late, hlate⟩ := hrange
  refine ⟨late.map Subtype.val, by rw [← hlate, List.map_map]; rfl, fun v => ⟨?_, fun h => ?_⟩⟩
  · intro hv
    obtain ⟨w, -, rfl⟩ := List.mem_map.1 hv
    exact w.2
  · have hid : v.id ∈ l.stale cutoff := hd.mem_stale_iff_overdue.2 ⟨v, rfl, h⟩
    rw [← hlate] at hid
    obtain ⟨w, hw, hid⟩ := List.mem_map.1 hid
    have hsame : w.1 = v := Option.some.inj (Except.ok.inj (w.2.1.symm.trans (hid ▸ h.1)))
    exact List.mem_map.2 ⟨w, hw, hsame⟩

/-! ## Rows that come in -/

/-- The ledger with events at its end. -/
def withEvents (l : Ledger) (events : List Event) : Ledger :=
  { l with
    events := l.events ++ events.map EventRow.of
    lastEvent := (events.map Event.eventId).getLastD l.lastEvent }

theorem withEvents_nil : l.withEvents [] = l := by
  simp [withEvents]

theorem withEvents_cons (e : Event) (events : List Event) :
    (l.withEvent e).withEvents events = l.withEvents (e :: events) := by
  simp only [withEvents, withEvent, List.map_cons, List.getLastD_cons, List.append_assoc,
    List.singleton_append]

end Ledger

/-! ## One candidate -/

/-- The event that marks a solicitation late whose view is `v`. -/
def View.lateEvent (v : View) (now eventId : Int) : Event :=
  ⟨eventId, v.id, none, .late, max now v.updatedAt, none⟩

/-- The update that it was marked. -/
def View.lateUpdate (v : View) (token : Int) : Update :=
  ⟨token, v.id, none, .statusChanged, lateContent v.id (some v.solicitation.companyCode)⟩

/-- An accepted solicitation is marked unless the storage refuses the event. -/
theorem Transition.late_apply_alone {s : Service} {v : View}
    (hfind : s.ledger.find? v.id = .ok (some v)) (haccepted : v.status = .accepted) :
    (late v.id).apply s.alone =
      match s.ledger.insertEvent v.id none .late (max s.now v.updatedAt) none with
      | .error fault => (.error (.store fault), s.alone)
      | .ok (eventId, ledger) => (.ok ⟨eventId, .accepted⟩, { s with ledger }.alone) := by
  have hcheck : s.authority.check .system v.status .late v.createdAt s.now = .ok () := by
    rw [haccepted]
    exact Authority.check_eq_ok_iff.2
      ⟨Status.noConfusion, List.mem_singleton_self _, Status.noConfusion⟩
  rw [apply_alone_of_granted hfind hcheck, haccepted]
  rfl

/-- A mark is announced with the company of the solicitation, unless the storage refuses the
update. -/
theorem Service.announceLate_told {s : Service} {id : Int} {v : View}
    (hfind : s.ledger.find? id = .ok (some v)) :
    s.announceLate id = s ∧
        (∃ content fault, s.ledger.record id none .statusChanged content = .error fault) ∨
      ∃ token, nextId s.ledger.lastUpdate (s.ledger.updates.map UpdateRow.streamId) = .ok token ∧
        s.announceLate id = { s with
          ledger := s.ledger.withUpdate (v.lateUpdate token)
          bus := (s.bus.publish (.of token none)).2 } := by
  have hid := id_of_find? hfind
  have hannounce : s.announceLate id = (s.announce id none .statusChanged
      (lateContent id (some v.solicitation.companyCode)) none).2 := by
    simp only [announceLate, hfind]
  rw [hannounce]
  cases hrecord : s.ledger.record id none .statusChanged
      (lateContent id (some v.solicitation.companyCode)) with
  | error fault =>
    rw [announce_of_refused none hrecord]
    exact .inl ⟨rfl, _, fault, hrecord⟩
  | ok recorded =>
    obtain ⟨token, l⟩ := recorded
    have hnext := nextId_of_record hrecord
    obtain ⟨rfl, -⟩ := record_eq_withUpdate hrecord
    rw [announce_of_record none hrecord, ← hid]
    exact .inr ⟨token, hnext, rfl⟩

namespace Ledger

variable {l l' : Ledger}

theorem Decodes.congr (hd : l.Decodes) (henvelopes : l'.envelopes = l.envelopes)
    (hread : ∀ row ∈ l'.events, ∃ e, row.read = .ok e) : l'.Decodes where
  envelopes := henvelopes ▸ hd.envelopes
  events := hread
  nodup := henvelopes ▸ hd.nodup
  bounded := henvelopes ▸ hd.bounded

/-- The event that marks a solicitation becomes its head. -/
theorem find?_of_marked {v : View} {now eventId : Int} (hfind : l.find? v.id = .ok (some v))
    (hused : ∀ row ∈ l.events, row.eventId < eventId) (henvelopes : l'.envelopes = l.envelopes)
    (hwritten : l'.written v.id = l.written v.id ++ [EventRow.of (v.lateEvent now eventId)]) :
    l'.head? v.id = some (EventRow.of (v.lateEvent now eventId)) ∧
      ∃ v', l'.find? v.id = .ok (some v') ∧ v'.solicitation = v.solicitation ∧
        v'.status = .late ∧ v'.updatedAt = max now v.updatedAt := by
  have htime : v.updatedAt ≤ (v.lateEvent now eventId).time := Int.le_max_right ..
  obtain ⟨hhead, hfind'⟩ := find?_of_newest hfind htime hused henvelopes hwritten
  exact ⟨hhead, _, hfind', rfl, rfl, rfl⟩

end Ledger

/-- What marking solicitations late one after the other makes of `s`: an event of each of them, and
updates of those that could be recorded, of which everybody is told; nothing else. The views are
those from before. -/
structure Service.MarkedLate (s : Service) (late : List View) (events : List Event)
    (told : List View) (updates : List Update) (q : Service) : Prop where
  marked : List.Forall₂ (fun v e => e = v.lateEvent s.now e.eventId) late events
  eventIds : GivenOut s.ledger.lastEvent (s.ledger.events.map EventRow.eventId)
    (events.map Event.eventId)
  told_sublist : told.Sublist late
  announced : List.Forall₂ (fun v u => u = v.lateUpdate u.streamId) told updates
  tokens : GivenOut s.ledger.lastUpdate (s.ledger.updates.map UpdateRow.streamId)
    (updates.map Update.streamId)
  all : s.ledger.TakesUpdates (late.map View.id) → told = late
  after : q = { s with
    ledger := (s.ledger.withEvents events).withUpdates updates
    bus := (s.bus.publishAll (updates.map fun u => .of u.streamId none)).2 }

namespace Service.MarkedLate

variable {s q : Service} {v : View} {late told : List View} {events : List Event}
  {updates : List Update}

theorem nil (s : Service) : s.MarkedLate [] [] [] [] s where
  marked := .nil
  eventIds := .nil ..
  told_sublist := .slnil
  announced := .nil
  tokens := .nil ..
  all := fun _ => rfl
  after := by
    rw [withEvents_nil, withUpdates_nil]
    rfl

/-- One solicitation is marked and announced before the others. -/
theorem cons {eventId : Int} {v' : View}
    (hnext : nextId s.ledger.lastEvent (s.ledger.events.map EventRow.eventId) = .ok eventId)
    (hfind : (s.ledger.withEvent (v.lateEvent s.now eventId)).find? v.id = .ok (some v'))
    (hsame : v'.solicitation = v.solicitation)
    (h : ({ s with ledger := s.ledger.withEvent (v.lateEvent s.now eventId) }.announceLate
      v.id).MarkedLate late events told updates q) :
    ∃ events' told' updates', s.MarkedLate (v :: late) events' told' updates' q := by
  have hids {events : List Event} (hrest : GivenOut eventId
      ((s.ledger.withEvent (v.lateEvent s.now eventId)).events.map EventRow.eventId)
        (events.map Event.eventId)) :
      GivenOut s.ledger.lastEvent (s.ledger.events.map EventRow.eventId)
        ((v.lateEvent s.now eventId :: events).map Event.eventId) := by
    refine .cons hnext ?_
    simpa [withEvent, EventRow.of, View.lateEvent] using hrest
  have htakes {ids : List Int} (htakes : s.ledger.TakesUpdates ids) :
      (s.ledger.withEvent (v.lateEvent s.now eventId)).TakesUpdates ids :=
    htakes.congr rfl rfl rfl rfl
  rcases Service.announceLate_told
      (s := { s with ledger := s.ledger.withEvent (v.lateEvent s.now eventId) }) hfind with
    ⟨hquiet, content, fault, hrefused⟩ | ⟨token, htoken, htold⟩
  · rw [hquiet] at h
    refine ⟨v.lateEvent s.now eventId :: events, told, updates, ?_⟩
    exact
      { marked := .cons rfl h.marked
        eventIds := hids h.eventIds
        told_sublist := h.told_sublist.cons v
        announced := h.announced
        tokens := h.tokens
        all := fun hall => absurd hrefused (htakes hall).record_ne_error
        after := by
          rw [h.after, ← withEvents_cons] }
  · have hupdate : v'.lateUpdate token = v.lateUpdate token := by
      simp only [View.lateUpdate, View.id, hsame]
    rw [htold, hupdate] at h
    refine ⟨v.lateEvent s.now eventId :: events, v :: told, v.lateUpdate token :: updates, ?_⟩
    exact
      { marked := .cons rfl h.marked
        eventIds := hids h.eventIds
        told_sublist := h.told_sublist.cons_cons v
        announced := .cons rfl h.announced
        tokens := by
          refine .cons htoken ?_
          simpa [withEvent, withUpdate, UpdateRow.of, View.lateUpdate] using h.tokens
        all := fun hall => congrArg _ (h.all ((htakes hall).withUpdate htoken))
        after := by
          rw [h.after, ← withEvents_cons, ← withUpdates_cons]
          rfl }

end Service.MarkedLate

/-! ## All candidates -/

/-- What a sweep over candidates comes to: it marks them all, or the storage refuses the event of
one of them, and those before it are marked. -/
def Service.SweptAlone (s : Service) (late : List View) (q : Service) :
    Except WorkflowError (List Int) → Prop
  | .ok ids => ids = late.map View.id ∧
    ∃ events told updates, s.MarkedLate late events told updates q
  | .error e => ∃ done v rest events told updates, late = done ++ v :: rest ∧
    s.MarkedLate done events told updates q ∧ q.RefusesLate v.id e

namespace Shared

/-- The candidates are marked in turn. What was found of those to come still holds after a mark. -/
theorem markEach_alone (late : List View) (s : Service)
    (hnodup : (late.map View.id).Nodup)
    (hlate : ∀ v ∈ late, s.ledger.find? v.id = .ok (some v) ∧ v.status = .accepted) :
    ∃ answer q, s.alone.markEach (late.map View.id) = (answer, q.alone) ∧
      s.SweptAlone late q answer ∧
      (s.ledger.Open .event →
        Room s.ledger.lastEvent (s.ledger.events.map EventRow.eventId) late.length →
        ∃ ids, answer = .ok ids) := by
  induction late generalizing s with
  | nil =>
    exact ⟨.ok [], s, rfl, ⟨rfl, [], [], [], .nil s⟩, fun _ _ => ⟨[], rfl⟩⟩
  | cons v late ih =>
    obtain ⟨hfind, haccepted⟩ := hlate v List.mem_cons_self
    have happly := Transition.late_apply_alone hfind haccepted
    cases hinsert : s.ledger.insertEvent v.id none .late (max s.now v.updatedAt) none with
    | error fault =>
      rw [hinsert] at happly
      refine ⟨.error (.store fault), s, ?_, ⟨[], v, late, [], [], [], rfl, .nil s, fault, _, rfl,
        hinsert⟩, fun hopen hroom => ?_⟩
      · simp only [List.map_cons, markEach, happly]
        rfl
      · have hleft : Room s.ledger.lastEvent (s.ledger.events.map EventRow.eventId) 1 := by
          simp only [Room, List.length_cons] at hroom ⊢
          omega
        exact absurd hinsert (insertEvent_ne_error hopen hleft (hasEnvelope_of_find? hfind))
    | ok written =>
      obtain ⟨eventId, ledger⟩ := written
      have hnext := nextId_of_insertEvent hinsert
      obtain ⟨rfl, -, -, hused⟩ := insertEvent_eq_ok hinsert
      let p : Service := { s with ledger := s.ledger.withEvent (v.lateEvent s.now eventId) }
      have hmade : (Transition.late v.id).apply s.alone = (.ok ⟨eventId, .accepted⟩, p.alone) := by
        rw [happly, hinsert]
        rfl
      have hsame := p.announceLate_sameRows v.id
      have hwritten : p.ledger.written v.id =
          s.ledger.written v.id ++ [EventRow.of (v.lateEvent s.now eventId)] :=
        written_withEvent rfl
      have henvelopes : p.ledger.envelopes = s.ledger.envelopes := rfl
      obtain ⟨-, v', hfind', hsolicitation, -⟩ := find?_of_marked hfind hused henvelopes hwritten
      have hother : ∀ w ∈ late, (p.announceLate v.id).ledger.find? w.id = .ok (some w) ∧
          w.status = .accepted := by
        intro w hw
        obtain ⟨hfound, hstatus⟩ := hlate w (List.mem_cons_of_mem v hw)
        have hne : v.id ≠ w.id := fun heq =>
          (List.nodup_cons.1 hnodup).1 (heq ▸ List.mem_map_of_mem hw)
        refine ⟨?_, hstatus⟩
        rw [hsame.find?, ← hfound]
        exact find?_withEvent_of_ne hne
      obtain ⟨answer, q, hrest, hswept, htaken⟩ :=
        ih (p.announceLate v.id) (List.nodup_cons.1 hnodup).2 hother
      refine ⟨answer.map (v.id :: ·), q, ?_, ?_, fun hopen hroom => ?_⟩
      · have hrest' : markEach { p.alone with service := p.alone.service.announceLate v.id }
            (late.map View.id) = (answer, q.alone) := hrest
        simp only [List.map_cons, markEach, hmade, hrest']
        cases answer with
        | ok ids => rfl
        | error e => rfl
      · cases answer with
        | ok ids =>
          obtain ⟨rfl, events, told, updates, hmarked⟩ := hswept
          exact ⟨rfl, hmarked.cons hnext hfind' hsolicitation⟩
        | error e =>
          obtain ⟨done, w, rest, events, told, updates, rfl, hmarked, hrefuses⟩ := hswept
          obtain ⟨events', told', updates', hmarked'⟩ := hmarked.cons hnext hfind' hsolicitation
          exact ⟨v :: done, w, rest, events', told', updates', rfl, hmarked', hrefuses⟩
      · obtain ⟨next, hnext', hroom'⟩ := hroom.next
        cases hnext.symm.trans hnext'
        have hleft : Room (p.announceLate v.id).ledger.lastEvent
            ((p.announceLate v.id).ledger.events.map EventRow.eventId) late.length := by
          rw [hsame.lastEvent, hsame.events]
          simpa [p, withEvent, EventRow.of, View.lateEvent] using hroom'
        obtain ⟨ids, rfl⟩ := htaken (hopen.of_guards (p.announceLate_guards v.id)) hleft
        exact ⟨v.id :: ids, rfl⟩

end Shared

/-! ## What is found after the sweep -/

namespace Service.MarkedLate

variable {s q : Service} {v : View} {late told : List View} {events : List Event}
  {updates : List Update} {id : Int}

theorem ids (h : s.MarkedLate late events told updates q) :
    events.map Event.solicitationId = late.map View.id := by
  rw [← List.forall₂_eq_eq_eq, List.forall₂_map_left_iff, List.forall₂_map_right_iff]
  exact h.marked.flip.imp fun e v he => congrArg Event.solicitationId he

theorem written (h : s.MarkedLate late events told updates q) (id : Int) :
    q.ledger.written id = s.ledger.written id ++
      (events.filter fun e => decide (e.solicitationId = id)).map EventRow.of := by
  rw [h.after, Ledger.written, Ledger.written, withUpdates, withEvents, List.filter_append,
    List.filter_map]
  rfl

theorem envelopes (h : s.MarkedLate late events told updates q) :
    q.ledger.envelopes = s.ledger.envelopes := by
  rw [h.after]
  rfl

theorem decodes (h : s.MarkedLate late events told updates q) (hd : s.ledger.Decodes) :
    q.ledger.Decodes := by
  refine hd.congr h.envelopes fun row hrow => ?_
  rw [h.after] at hrow
  rcases List.mem_append.1 hrow with hold | hnew
  · exact hd.events row hold
  · obtain ⟨e, -, rfl⟩ := List.mem_map.1 hnew
    exact ⟨e, EventRow.read_of e⟩

/-- A solicitation that is not marked is found as before. -/
theorem find?_of_notMem (h : s.MarkedLate late events told updates q)
    (hid : id ∉ late.map View.id) : q.ledger.find? id = s.ledger.find? id := by
  refine find?_congr h.envelopes ?_
  have hnone : (events.filter fun e => decide (e.solicitationId = id)) = [] := by
    refine List.filter_eq_nil_iff.2 fun e he heq => hid ?_
    rw [← h.ids, ← of_decide_eq_true heq]
    exact List.mem_map_of_mem he
  rw [h.written, hnone, List.map_nil, List.append_nil]

/-- One that is marked has its event as the head. -/
theorem find?_of_mem (h : s.MarkedLate late events told updates q)
    (hnodup : (late.map View.id).Nodup) (hv : v ∈ late)
    (hfind : s.ledger.find? v.id = .ok (some v)) :
    ∃ e ∈ events, e = v.lateEvent s.now e.eventId ∧
      q.ledger.head? v.id = some (EventRow.of e) ∧
      ∃ v', q.ledger.find? v.id = .ok (some v') ∧ v'.solicitation = v.solicitation ∧
        v'.status = .late ∧ v'.updatedAt = e.time := by
  obtain ⟨e, he, hmarks⟩ := (exists_of_forall₂ h.marked).1 v hv
  have hid : e.solicitationId = v.id := congrArg Event.solicitationId hmarks
  have honly := filter_eq_singleton_of_nodup Event.solicitationId (h.ids ▸ hnodup) he
  have hused : ∀ row ∈ s.ledger.events, row.eventId < e.eventId := fun row hrow =>
    (h.eventIds.above e.eventId (List.mem_map_of_mem he)).2 _ (List.mem_map_of_mem hrow)
  have hwritten : q.ledger.written v.id =
      s.ledger.written v.id ++ [EventRow.of (v.lateEvent s.now e.eventId)] := by
    rw [h.written, ← hid, honly, hid, ← hmarks, List.map_singleton]
  obtain ⟨hhead, v', hfind', hsolicitation, hstatus, htime⟩ :=
    find?_of_marked hfind hused h.envelopes hwritten
  refine ⟨e, he, hmarks, ?_, v', hfind', hsolicitation, hstatus, ?_⟩
  · rw [hhead, ← hmarks]
  · rw [htime, hmarks]
    rfl

end Service.MarkedLate

/-- A service in which no acceptance is too old is left as it is, however often it is swept. -/
theorem Service.sweep_of_stale_eq_nil {q : Service} (h : q.ledger.stale q.cutoff = []) (n : Nat) :
    ((fun r : Shared => r.markLate.2)^[n] q.alone).markLate = (.ok [], q.alone) := by
  have honce : q.alone.markLate = (.ok [], q.alone) := by
    rw [Shared.markLate, Shared.readClock_eq]
    exact congrArg q.alone.markEach h
  rw [Function.iterate_fixed (congrArg Prod.snd honce), honce]

namespace Service

/-- Without interference, and if the cutoff fits in 64 bits, a sweep that the storage lets pass
gives exactly the solicitations that were accepted before the cutoff and are still at that, in
ascending order. Each of them has got one event, which is its head, and no other is found
differently; updates tell of each of them once at most, and once if they can be recorded. To sweep
again at the same time, any number of times, gives nothing and changes nothing. The storage lets a
sweep pass if it takes every event and has ids left; if it does not, those before the one that it
refuses are marked. -/
theorem sweep_exact (s : Service) (hd : s.ledger.Decodes)
    (hfits : Text.Range.signed.has (s.now - s.settings.lateAfter) = true) :
    ∃ (late : List View) (answer : Except WorkflowError (List Int)) (q : Service),
      s.alone.markLate = (answer, q.alone) ∧
      (late.map View.id).Pairwise (· < ·) ∧
      (∀ v, v ∈ late ↔ s.ledger.Overdue (s.now - s.settings.lateAfter) v) ∧
      (∀ ids, answer = .ok ids → ids = late.map View.id ∧
        ∃ (events : List Event) (told : List View) (updates : List Update),
          s.MarkedLate late events told updates q ∧
          (s.ledger.Open .update → Room s.ledger.lastUpdate
            (s.ledger.updates.map UpdateRow.streamId) late.length → told = late) ∧
          (∀ v ∈ late, ∃ e ∈ events, e = v.lateEvent s.now e.eventId ∧
            q.ledger.head? v.id = some (EventRow.of e) ∧
            ∃ v', q.ledger.find? v.id = .ok (some v') ∧ v'.solicitation = v.solicitation ∧
              v'.status = .late ∧ v'.updatedAt = e.time) ∧
          (∀ id ∉ ids, q.ledger.find? id = s.ledger.find? id) ∧
          ∀ n : Nat, ((fun r : Shared => r.markLate.2)^[n] q.alone).markLate = (.ok [], q.alone)) ∧
      (s.ledger.Open .event →
        Room s.ledger.lastEvent (s.ledger.events.map EventRow.eventId) late.length →
        ∃ ids, answer = .ok ids) ∧
      ∀ e, answer = .error e → ∃ done v rest events told updates, late = done ++ v :: rest ∧
        s.MarkedLate done events told updates q ∧ q.RefusesLate v.id e := by
  obtain ⟨late, hids, hlate⟩ := hd.exists_overdue (s.now - s.settings.lateAfter)
  have hcutoff : s.cutoff = s.now - s.settings.lateAfter := wrap_of_has hfits
  have hascending : (late.map View.id).Pairwise (· < ·) := hids ▸ stale_ascending hd.nodup _
  have hnodup : (late.map View.id).Nodup := hascending.imp fun hlt => by omega
  obtain ⟨answer, q, hanswer, hswept, htaken⟩ := Shared.markEach_alone late s hnodup
    fun v hv => ⟨((hlate v).1 hv).1, ((hlate v).1 hv).2.1⟩
  refine ⟨late, answer, q, ?_, hascending, hlate, ?_, htaken, ?_⟩
  · rw [← hanswer, hids, ← hcutoff]
    rfl
  · rintro ids rfl
    obtain ⟨rfl, events, told, updates, hmarked⟩ := hswept
    have hfound {v : View} (hv : v ∈ late) :=
      hmarked.find?_of_mem hnodup hv ((hlate v).1 hv).1
    refine ⟨rfl, events, told, updates, hmarked, fun hopen hroom => ?_, fun v hv => hfound hv,
      fun id hid => hmarked.find?_of_notMem hid, sweep_of_stale_eq_nil ?_⟩
    · refine hmarked.all ⟨hopen, fun id hid => ?_, ?_⟩
      · obtain ⟨v, hv, rfl⟩ := List.mem_map.1 hid
        exact hasEnvelope_of_find? ((hlate v).1 hv).1
      · rw [List.length_map]
        exact hroom
    · -- what is overdue now was so before and is not marked, or is marked and so is late
      have hsame : q.cutoff = s.cutoff := by rw [hmarked.after]; rfl
      rw [hsame, hcutoff, List.eq_nil_iff_forall_not_mem]
      intro id hid
      obtain ⟨w, rfl, hfind, hstatus, hold⟩ := (hmarked.decodes hd).mem_stale_iff_overdue.1 hid
      by_cases hw : w.id ∈ late.map View.id
      · obtain ⟨v, hv, hvw⟩ := List.mem_map.1 hw
        obtain ⟨e, -, -, -, v', hfind', -, hlate', -⟩ := hfound hv
        rw [hvw, hfind] at hfind'
        cases hfind'
        rw [hstatus] at hlate'
        cases hlate'
      · have hbefore := (hmarked.find?_of_notMem hw).symm.trans hfind
        exact hw (List.mem_map_of_mem ((hlate w).2 ⟨hbefore, hstatus, hold⟩))
  · rintro e rfl
    exact hswept

theorem waiting_decodes (lastEvent : Int) : (waiting lastEvent).ledger.Decodes := by
  have hids : (waiting lastEvent).ledger.envelopes.map EnvelopeRow.id = [1, 2] := rfl
  refine decodes_of_written (fun row hrow => ?_) rfl (hids ▸ by decide) (by decide : 2 < noLimit)
  obtain ⟨id, -, rfl⟩ := List.mem_map.1 hrow
  exact ⟨id, ⟨.reactor, .turnOn, "MOS", "CTEEP", .switched 1 false none⟩, "ana", none, .inr rfl,
    rfl⟩

/-- Both solicitations are marked, and a second sweep finds nothing. -/
theorem sweep_exact_of_waiting :
    let s := waiting 4
    s.ledger.Decodes ∧ Text.Range.signed.has (s.now - s.settings.lateAfter) = true ∧
      ∃ q : Service, s.alone.markLate = (.ok [1, 2], q.alone) ∧
        (∃ view : View, q.ledger.find? 1 = .ok (some view) ∧ view.status = .late) ∧
        (∀ id ∉ [1, 2], q.ledger.find? id = s.ledger.find? id) ∧
        q.alone.markLate = (.ok [], q.alone) := by
  intro s
  have hd : s.ledger.Decodes := waiting_decodes 4
  have hanswer : s.alone.markLate.1 = .ok [1, 2] := by cbv
  refine ⟨hd, by decide, ?_⟩
  obtain ⟨late, answer, q, hswept, -, -, hok, -⟩ := sweep_exact s hd (by decide)
  rw [hswept] at hanswer
  obtain rfl : answer = .ok [1, 2] := hanswer
  obtain ⟨hids, events, told, updates, -, -, hfound, hothers, hagain⟩ := hok [1, 2] rfl
  have hfirst : (1 : Int) ∈ late.map View.id := hids ▸ List.mem_cons_self
  obtain ⟨v, hv, hid⟩ := List.mem_map.1 hfirst
  obtain ⟨e, -, -, -, v', hfind, -, hstatus, -⟩ := hfound v hv
  exact ⟨q, hswept, ⟨v', hid ▸ hfind, hstatus⟩, hothers, hagain 0⟩

/-- An acceptance of the very second of the cutoff is not yet too old. -/
example : ({ waiting 4 with now := 500 }.alone.markLate).1 = .ok [] ∧
    ({ waiting 4 with now := 501 }.alone.markLate).1 = .ok [1, 2] := by
  constructor <;> cbv

/-- With one id of an event left and no token, the first candidate is marked without an update, and
the second is not marked, so the sweep fails. -/
theorem not_swept_of_full :
    let s : Service := { waiting (Text.Range.signed.hi - 1) with
      ledger := { (waiting (Text.Range.signed.hi - 1)).ledger with
        lastUpdate := Text.Range.signed.hi } }
    s.ledger.Decodes ∧ Text.Range.signed.has (s.now - s.settings.lateAfter) = true ∧
      (∃ v w, v.id = 1 ∧ w.id = 2 ∧ s.ledger.Overdue (s.now - s.settings.lateAfter) v ∧
        s.ledger.Overdue (s.now - s.settings.lateAfter) w) ∧
      (∃ row, s.alone.markLate.2.service.ledger.head? 1 = some row ∧
        row.status = Status.late.name) ∧
      s.alone.markLate.2.service.ledger.updates = [] ∧
      ¬ ∃ ids, s.alone.markLate.1 = .ok ids := by
  intro s
  have hd : s.ledger.Decodes := (waiting_decodes 4).congr rfl (waiting_decodes 4).events
  have hstale : s.ledger.stale (s.now - s.settings.lateAfter) = [1, 2] := by cbv
  have hanswer : s.alone.markLate.1 = .error (.store .idsUsedUp) := by cbv
  obtain ⟨v, hv, hfirst⟩ := hd.mem_stale_iff_overdue.1 (hstale ▸ List.mem_cons_self)
  obtain ⟨w, hw, hsecond⟩ :=
    hd.mem_stale_iff_overdue.1 (hstale ▸ List.mem_cons_of_mem 1 (List.mem_singleton_self 2))
  refine ⟨hd, by decide, ⟨v, w, hv, hw, hfirst, hsecond⟩, ⟨_, by cbv, rfl⟩, by cbv, ?_⟩
  rintro ⟨ids, hids⟩
  rw [hanswer] at hids
  cases hids

end Service

end GridDispatch
