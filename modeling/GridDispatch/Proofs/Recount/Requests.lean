import GridDispatch.Proofs.Recount.Invariant
import GridDispatch.Proofs.Requests

/-!
# What requests add to the account

A transition writes its event first and announces it afterwards, when the head that it has replaced is
no longer the head: its update carries the status of the event before (`Recounted.tells`). A batch
writes all of its events before the first update (`Recounted.entered`). Each request goes on with the
account, whatever it is answered: `Shared.submit_recounted`, `Shared.changeStatus_recounted` and
`Shared.markLate_recounted`.
-/

namespace GridDispatch

open Ledger

theorem Shared.Quiet.continuing {s : Shared} (h : s.Quiet) : s.Continuing := by
  intro act hact p
  have hledger := h act hact p
  exact .of_sameRows (hledger ▸ .refl p.ledger)

/-! ## Transitions -/

namespace Transition

variable {t : Transition} {s s' : Shared} {applied : Applied}

theorem attempt_nextId (h : t.attempt s = (.ok applied, s')) :
    nextId s.later.service.ledger.lastEvent
      (s.later.service.ledger.events.map EventRow.eventId) = .ok applied.eventId := by
  obtain ⟨state, ledger, -, -, happend, -⟩ := attempt_eq_ok h
  exact nextId_of_insertEvent (appendIfCurrent_eq_ok happend).2

/-- The event of a transition has the next id. -/
theorem apply_nextId (h : t.apply s = (.ok applied, s')) :
    nextId (t.turn s).service.ledger.lastEvent
      ((t.turn s).service.ledger.events.map EventRow.eventId) = .ok applied.eventId := by
  by_cases hloses : t.Loses s
  · rw [apply_of_loses hloses] at h
    rw [turn_of_loses hloses]
    exact attempt_nextId h
  · rw [apply_of_not_loses hloses] at h
    rw [turn_of_not_loses hloses]
    exact attempt_nextId h

/-- What the update of a transition that replaces `head` has to say. -/
structure Describes (t : Transition) (envelopes : List EnvelopeRow) (head : Event) (content : Json) :
    Prop where
  status : content.textAt? "status" = some t.requested.name
  previous : content.textAt? "previous_status" = some head.status.name
  company : ∃ row ∈ envelopes, row.id = t.id ∧ content.textAt? "company_code" = some row.companyCode
  plain : content.Plain

end Transition

theorem history_map_event (id : Int) (entries : List Entry) :
    history id (entries.map Entry.event) = (about id entries).map Entry.event :=
  List.filter_map

namespace Recounted

variable {origin : Ledger} {p p' : Service} {events : List Event} {updates : List Update}
  {t : Transition} {head e : Event} {content : Json}

/-- The head that a transition replaces is the last event of its solicitation. -/
theorem last_of_replaces (h : Recounted origin p events updates)
    (hreplaces : t.Replaces p head e p') : (history t.id events).getLast? = some head := by
  obtain ⟨entries, hjournal, rfl⟩ := h.journal
  obtain ⟨row, -, hid, a, hlast, rfl⟩ := hjournal.last_of_replaces hreplaces
  rw [history_map_event, List.getLast?_map, ← hid, hlast]
  rfl

/-- The update of a transition tells of its event. -/
theorem tells (h : Recounted origin p events updates) (hreplaces : t.Replaces p head e p')
    (hcontent : t.Describes p.ledger.envelopes head content) (token : Int) :
    (⟨token, t.id, t.actor, .statusChanged, content⟩ : Update).Tells p.ledger.envelopes events e := by
  have hlast := h.last_of_replaces hreplaces
  have hsome : history t.id events ≠ [] := fun hnone => by rw [hnone] at hlast; cases hlast
  rw [hreplaces.event]
  exact
    { solicitationId := rfl
      userId := rfl
      status := hcontent.status
      company := hcontent.company
      created := ⟨nofun, fun hnone => absurd hnone hsome⟩
      changed := by
        intro last hlast'
        cases hlast.symm.trans hlast'
        exact ⟨rfl, hcontent.previous⟩
      plain := hcontent.plain }

/-- The event of a transition goes on with the account when it is announced. -/
theorem announced (h : Recounted origin p events updates) (hreplaces : t.Replaces p head e p')
    (hnext : nextId p.ledger.lastEvent (p.ledger.events.map EventRow.eventId) = .ok e.eventId)
    (hrun : ∃ past entries, Run p' past entries)
    (hcontent : t.Describes p.ledger.envelopes head content) (recipients : Option (List String)) :
    ∃ events' updates', Recounted origin
      (p'.announce t.id t.actor .statusChanged content recipients).2 events' updates' := by
  have hledger : p'.ledger = p.ledger.withEvent e := by rw [hreplaces.wrote]
  have hrecorded : origin.Recorded p'.ledger updates := by
    rw [hledger]
    exact ⟨h.recorded.rows, h.recorded.lastUpdate, h.recorded.guards⟩
  have haccount : Account origin p'.ledger.envelopes events updates :=
    hreplaces.envelopes ▸ h.account
  have hknown : p'.ledger.hasEnvelope t.id = true := by
    obtain ⟨row, hrow, hid, -⟩ := hcontent.company
    exact List.any_eq_true.2 ⟨row, hreplaces.envelopes ▸ hrow, decide_eq_true hid⟩
  have htells : ∀ token, (⟨token, t.id, t.actor, .statusChanged, content⟩ : Update).Tells
      p'.ledger.envelopes events e := hreplaces.envelopes ▸ h.tells hreplaces hcontent
  obtain ⟨updates', hrecorded', haccount'⟩ := haccount.announce hrecorded hknown htells recipients
  have hsame := p'.announce_sameRows t.id t.actor .statusChanged content recipients
  have hadds : p.ledger.Adds p'.ledger [e] := hledger ▸ adds_withEvent hnext
  refine ⟨_, updates', h.adds (hadds.sameRows hsame) ((Continues.of_sameRows hsame).exists_run hrun) ?_
    hrecorded' (hsame.envelopes ▸ haccount')⟩
  rw [hsame.envelopes, hreplaces.envelopes]
  exact h.written

/-! ## What a transition leaves -/

section Applying

variable {s s' : Shared} {applied : Applied}

/-- A transition that fails leaves everything as it was. -/
theorem failed (h : Recounted origin s.service events updates) (hquiet : s.Quiet) {e : WorkflowError}
    (happly : t.apply s = (.error e, s')) :
    Recounted origin s'.service events updates ∧ s'.Quiet := by
  rcases Transition.apply_eq_error happly with rfl | rfl | rfl
  · exact ⟨h, hquiet⟩
  · exact ⟨h.of_ledger hquiet.ledger_later, hquiet.later⟩
  · exact ⟨h.of_ledger (hquiet.later.ledger_later.trans hquiet.ledger_later), hquiet.later.later⟩

/-- A transition that succeeds replaces the head, and then it can be announced. -/
theorem succeeded (h : Recounted origin s.service events updates) (hquiet : s.Quiet) {cause : Cause}
    (ht : t.Steps s.service cause) (happly : t.apply s = (.ok applied, s')) :
    s'.Quiet ∧ ∃ p head e, p.ledger = s.service.ledger ∧ Recounted origin p events updates ∧
      t.Replaces p head e s'.service ∧ applied.source = head.status ∧
      ∀ content recipients, t.Describes p.ledger.envelopes head content →
        ∃ events' updates', Recounted origin
          (s'.service.announce t.id t.actor .statusChanged content recipients).2 events' updates' := by
  obtain ⟨entries, hjournal, -⟩ := h.journal
  obtain ⟨head, e, hreplaces, rfl, hmeanwhile⟩ := Transition.apply_replaces hjournal.numbered
    hquiet.orderly.onward hquiet.orderly.later.onward happly
  obtain ⟨hturn, hledger⟩ := hquiet.turn t
  have hp := h.of_ledger hledger
  have hnext := Transition.apply_nextId happly
  obtain ⟨hcontinues, -⟩ := Transition.apply_continues ht hquiet.continuing
  rw [happly] at hcontinues
  exact ⟨hturn.of_meanwhile (hmeanwhile ▸ List.Subset.refl _), _, head, e, hledger, hp, hreplaces, rfl,
    fun content recipients hcontent =>
      hp.announced hreplaces hnext (hcontinues.exists_run h.run) hcontent recipients⟩

end Applying

/-- Right after a transition its solicitation can be read. -/
theorem find?_of_replaces (h : Recounted origin p events updates)
    (hreplaces : t.Replaces p head e p') : ∃ row ∈ p.ledger.envelopes, row.id = t.id ∧
      ∃ view, p'.ledger.find? t.id = .ok (some view) ∧
        view.solicitation.companyCode = row.companyCode := by
  obtain ⟨entries, hjournal, -⟩ := h.journal
  obtain ⟨row, hrow, hid, -⟩ := hjournal.last_of_replaces hreplaces
  obtain ⟨id, new, requesterId, groupId, hfits, hof⟩ := h.written row hrow
  obtain ⟨log, -, hlog, -, hnewest⟩ := hreplaces.logs_after
  have hrow' : row ∈ p'.ledger.envelopes := hreplaces.envelopes ▸ hrow
  have hfound := envelope?_of_unique hrow' fun row' hmem heq =>
    List.inj_on_of_nodup_map hjournal.nodup (hreplaces.envelopes ▸ hmem) hrow heq
  cases hstate : State.ofEvents? (log ++ [e]) with
  | none =>
    rw [State.ofEvents?_eq_none_iff] at hstate
    simp at hstate
  | some state =>
    rw [← hid] at hlog
    have hview := find?_of_read hfound (hof ▸ EnvelopeRow.check_of ..)
      (hof ▸ EnvelopeRow.read_of hfits) (hlog.state?.trans (congrArg _ hstate))
    rw [hid] at hview
    refine ⟨row, hrow, hid, _, hview, ?_⟩
    rw [hof]
    rfl

end Recounted

/-! ## Batches -/

/-- The solicitations of a batch go on with the account when they are announced, one after the
other. -/
theorem Recounted.entered {origin : Ledger} {p : Service} {events : List Event}
    {updates : List Update} {g : Group} {raws : List RawSolicitation} {entered : List Entered}
    (h : Recounted origin p events updates)
    (hvalid : List.Forall₂ (fun raw x => validate raw = .ok x.new) raws entered)
    (hids : GivenOut p.ledger.lastEnvelope (p.ledger.envelopes.map EnvelopeRow.id)
      (entered.map Entered.id))
    (heventIds : GivenOut p.ledger.lastEvent (p.ledger.events.map EventRow.eventId)
      (entered.map Entered.eventId))
    (hrun : ∃ past entries, Run (p.entered g entered) past entries) :
    ∃ updates', Recounted origin (p.entered g entered)
      (events ++ entered.map (Entered.event g .new g.createdAt)) updates' := by
  let q : Service :=
    { p with ledger := (p.ledger.withGroup g).withEntered g .new g.createdAt entered }
  have hrecorded : origin.Recorded q.ledger updates :=
    ⟨h.recorded.rows, h.recorded.lastUpdate, h.recorded.guards⟩
  have haccount : Account origin q.ledger.envelopes events updates :=
    h.account.mono (List.subset_append_left ..)
  have hrows : ∀ x ∈ entered, x.row g ∈ q.ledger.envelopes := fun x hx =>
    List.mem_append_right _ (List.mem_map_of_mem hx)
  have hfirst : ∀ x ∈ entered, history x.id events = [] := by
    intro x hx
    obtain ⟨entries, hjournal, rfl⟩ := h.journal
    have hnone : about x.id entries = [] := hjournal.about_eq_nil fun row hrow =>
      ne_of_hasEnvelope hids (List.mem_map_of_mem hx)
        (List.any_eq_true.2 ⟨row, hrow, decide_eq_true rfl⟩)
    rw [history_map_event, hnone, List.map_nil]
  have hwritten : ∀ row ∈ q.ledger.envelopes, row.Written := by
    refine List.forall_mem_append.2 ⟨h.written, List.forall_mem_map.2 fun x hx => ?_⟩
    obtain ⟨raw, -, hvalidated⟩ := (exists_of_forall₂ hvalid).2 x hx
    exact ⟨x.id, x.new, g.requesterId, some g.groupId, fits_of_validate hvalidated, rfl⟩
  obtain ⟨updates', hrecorded', haccount'⟩ :=
    haccount.announceCreated g.createdAt hrecorded hrows hfirst hids.nodup
  have hsame := q.announceCreated_sameRows g.requesterId g.groupId
    (entered.map fun x => (x.id, x.new))
  have hadds : p.ledger.Adds q.ledger (entered.map (Entered.event g .new g.createdAt)) :=
    adds_withEntered heventIds
  exact ⟨updates', h.adds (hadds.sameRows hsame) hrun (hsame.envelopes ▸ hwritten) hrecorded'
    (hsame.envelopes ▸ haccount')⟩

/-! ## Requests -/

namespace Shared

variable {origin : Ledger} {events : List Event} {updates : List Update} {s : Shared}

theorem changeStatus_recounted (h : Recounted origin s.service events updates) (hquiet : s.Quiet)
    (r : ChangeRequest) :
    ∃ events' updates', Recounted origin (s.changeStatus r).2.service events' updates' := by
  simp only [changeStatus]
  split
  · exact ⟨events, updates, h⟩
  · rename_i t solicitation hcheck
    split
    · rename_i e s' happly
      exact ⟨events, updates, (h.failed hquiet happly).1⟩
    · rename_i applied s' happly
      have ht : t.Steps s.service (.change s.service r) := fun _ _ _ _ _ hq hq' hattempt =>
        .change hq hcheck hq' hattempt
      obtain ⟨-, p, head, e, hledger, -, -, hsource, hannounced⟩ := h.succeeded hquiet ht happly
      obtain ⟨company, requested, -, -, rfl, row, hrow, hid, hcode, -⟩ :=
        Service.checkChange_eq_ok hcheck
      refine hannounced _ _ ⟨rfl, ?_, ⟨row, hledger ▸ hrow, hid, ?_⟩, ?_⟩
      · rw [hsource]
        rfl
      · rw [← hcode]
        rfl
      · exact changedContent_plain ..

theorem markEach_recounted (h : Recounted origin s.service events updates) (hquiet : s.Quiet)
    (ids : List Int) :
    ∃ events' updates', Recounted origin (s.markEach ids).2.service events' updates' := by
  induction ids generalizing s events updates with
  | nil => exact ⟨events, updates, h⟩
  | cons id ids ih =>
    simp only [markEach]
    split
    · rename_i applied s' happly
      have ht : (Transition.late id).Steps s.service .sweep := fun _ _ _ _ _ _ hq' hattempt =>
        .sweep hq' hattempt
      obtain ⟨hquiet', p, head, e, hledger, hp, hreplaces, -, hannounced⟩ := h.succeeded hquiet ht happly
      obtain ⟨row, hrow, hid, view, hview, hcode⟩ := hp.find?_of_replaces hreplaces
      obtain ⟨events', updates', hnext⟩ := hannounced (lateContent id (some view.solicitation.companyCode))
        none ⟨rfl, by rw [Role.eq_accepted_of_late hreplaces.allowed]; rfl,
          ⟨row, hrow, hid, by rw [← hcode]; rfl⟩, lateContent_plain ..⟩
      have hlate : s'.service.announceLate id = (s'.service.announce id none .statusChanged
          (lateContent id (some view.solicitation.companyCode)) none).2 := by
        have hview' : s'.service.ledger.find? id = .ok (some view) := hview
        simp only [Service.announceLate, hview']
      have hrest := ih (s := { s' with service := s'.service.announceLate id }) (hlate ▸ hnext) hquiet'
      split
      · rename_i hmarked
        rw [hmarked] at hrest
        exact hrest
      · rename_i hfailed
        rw [hfailed] at hrest
        exact hrest
    · rename_i e s' happly
      obtain ⟨h', hquiet'⟩ := h.failed hquiet happly
      split
      · exact ih h' hquiet'
      · exact ⟨events, updates, h'⟩

theorem markLate_recounted (h : Recounted origin s.service events updates) (hquiet : s.Quiet) :
    ∃ events' updates', Recounted origin s.markLate.2.service events' updates' := by
  rw [markLate, readClock_eq]
  exact markEach_recounted (h.of_ledger hquiet.ledger_later) hquiet.later _

/-- A batch goes on with the account: its solicitations are new, and they are announced in the order
of their events. -/
theorem submit_recounted (h : Recounted origin s.service events updates) (hquiet : s.Quiet)
    (requesterId companyCode groupId : String) (batch : Batch) :
    ∃ events' updates', Recounted origin
      (s.submit requesterId companyCode groupId batch).2.service events' updates' := by
  have hlater := h.of_ledger hquiet.ledger_later
  have hrun :=
    (submit_continues hquiet.continuing requesterId companyCode groupId batch).1.exists_run h.run
  obtain ⟨answer, s', hsubmit⟩ :
    ∃ answer s', s.submit requesterId companyCode groupId batch = (answer, s') := ⟨_, _, rfl⟩
  rw [hsubmit] at hrun ⊢
  cases answer with
  | error e =>
    rcases submit_eq_error hsubmit with rfl | rfl
    · exact ⟨events, updates, h⟩
    · exact ⟨events, updates, hlater⟩
  | ok receipt =>
    obtain ⟨entered, -, -, hvalid, hids, heventIds, -, hservice⟩ := submit_entered hsubmit
    obtain ⟨updates', h'⟩ := hlater.entered hvalid hids heventIds (hservice ▸ hrun)
    exact ⟨_, updates', hservice ▸ h'⟩

end Shared

end GridDispatch
