import GridDispatch.Proofs.Announcement
import GridDispatch.Proofs.Interference
import GridDispatch.Proofs.Ledger.Batch
import GridDispatch.Proofs.Ledger.History
import GridDispatch.Proofs.Ledger.Views
import GridDispatch.Proofs.Submission.Check

/-!
# Sending a batch

A batch that is refused leaves everything as it was. One that is accepted leaves its group, a
solicitation with one event for each raw request in order, and an update for each of them that could
be recorded: `Service.Sent`. Where the storage takes all of it, the batch is accepted exactly if it
is acceptable, and every solicitation is announced (`Service.submit_exact`).
-/

namespace GridDispatch

open Ledger

theorem Ledger.hasEnvelope_withEntered {l : Ledger} {g : Group} {status : Status} {time : Int}
    {entered : List Entered} {x : Entered} (hx : x ∈ entered) :
    (l.withEntered g status time entered).hasEnvelope x.id = true := by
  refine List.any_eq_true.2 ⟨x.row g, List.mem_append_right _ (List.mem_map_of_mem hx), ?_⟩
  simp [Entered.row, EnvelopeRow.of]

/-! ## Announcements -/

/-- The update that a solicitation was created. -/
def Ledger.Entered.update (g : Group) (token : Int) (x : Entered) : Update :=
  ⟨token, x.id, some g.requesterId, .created, createdContent x.id x.new g.groupId⟩

/-- What the bus is told when the update of a solicitation was recorded. -/
def Ledger.Entered.notice (d : Directory) (x : Entered × Update) : Notification :=
  .of x.2.streamId (d.recipients x.1.new.companyCode)

namespace Service

/-- What is announced of a group comes in order; all of it does if it can be recorded. The bus is told
of each update. -/
theorem announceCreated_eq (s : Service) (g : Group) (entered : List Entered) :
    ∃ told updates, s.announceCreated g.requesterId g.groupId
        (entered.map fun x => (x.id, x.new)) =
          { s with
            ledger := s.ledger.withUpdates updates
            bus := (s.bus.publishAll ((told.zip updates).map (Entered.notice s.directory))).2 } ∧
      told.Sublist entered ∧ List.Forall₂ (fun x u => u = x.update g u.streamId) told updates ∧
      GivenOut s.ledger.lastUpdate (s.ledger.updates.map UpdateRow.streamId)
        (updates.map Update.streamId) ∧
      (s.ledger.Open .update → (∀ x ∈ entered, s.ledger.hasEnvelope x.id = true) →
        Room s.ledger.lastUpdate (s.ledger.updates.map UpdateRow.streamId) entered.length →
        told = entered) := by
  induction entered generalizing s with
  | nil => exact ⟨[], [], by rw [withUpdates_nil]; rfl, .slnil, .nil, .nil .., fun _ _ _ => rfl⟩
  | cons x entered ih =>
    cases hrecord : s.ledger.record x.id (some g.requesterId) .created
        (createdContent x.id x.new g.groupId) with
    | error e =>
      have hfirst := announce_of_refused (s.directory.recipients x.new.companyCode) hrecord
      obtain ⟨told, updates, hs, hsub, htold, htokens, -⟩ := ih s
      refine ⟨told, updates, ?_, hsub.cons x, htold, htokens, fun hopen hknown hroom => ?_⟩
      · rw [List.map_cons, announceCreated, hfirst]
        exact hs
      · obtain ⟨token, htaken, -⟩ := exists_record hopen (hknown x List.mem_cons_self) hroom
          (some g.requesterId) .created (createdContent x.id x.new g.groupId)
        rw [hrecord] at htaken
        cases htaken
    | ok recorded =>
      obtain ⟨token, l⟩ := recorded
      have hnext := nextId_of_record hrecord
      obtain ⟨rfl, -⟩ := record_eq_withUpdate hrecord
      have hfirst := announce_of_record (s.directory.recipients x.new.companyCode) hrecord
      obtain ⟨told, updates, hs, hsub, htold, htokens, hall⟩ :=
        ih { s with
          ledger := s.ledger.withUpdate (x.update g token)
          bus := (s.bus.publish (.of token (s.directory.recipients x.new.companyCode))).2 }
      refine ⟨x :: told, x.update g token :: updates, ?_, hsub.cons_cons x, .cons rfl htold, ?_,
        fun hopen hknown hroom => ?_⟩
      · rw [List.map_cons, announceCreated, hfirst, ← withUpdates_cons]
        exact hs
      · refine .cons hnext ?_
        simpa [withUpdate, UpdateRow.of, Entered.update] using htokens
      · obtain ⟨token', htaken, hroom'⟩ := exists_record hopen (hknown x List.mem_cons_self) hroom
          (some g.requesterId) .created (createdContent x.id x.new g.groupId)
        rw [hrecord] at htaken
        cases htaken
        refine congrArg _ (hall hopen (fun y hy => hknown y (List.mem_cons_of_mem x hy)) ?_)
        simpa [withUpdate, UpdateRow.of, Entered.update] using hroom'

/-! ## What is left behind -/

/-- The service after the solicitations of a group were entered and announced. -/
def entered (s : Service) (g : Group) (entered : List Entered) : Service :=
  announceCreated
    { s with ledger := (s.ledger.withGroup g).withEntered g .new g.createdAt entered }
    g.requesterId g.groupId (entered.map fun x => (x.id, x.new))

/-- What a batch has made of `s`: the group, for each raw request the solicitation that it amounts
to, and the updates of those that could be recorded; nothing else. -/
structure Sent (s s' : Service) (g : Group) (batch : Batch) (entered told : List Entered)
    (updates : List Update) : Prop where
  validated : List.Forall₂ (fun raw x => validate raw = .ok x.new) batch.solicitations entered
  ids : GivenOut s.ledger.lastEnvelope (s.ledger.envelopes.map EnvelopeRow.id)
    (entered.map Entered.id)
  eventIds : GivenOut s.ledger.lastEvent (s.ledger.events.map EventRow.eventId)
    (entered.map Entered.eventId)
  tokens : GivenOut s.ledger.lastUpdate (s.ledger.updates.map UpdateRow.streamId)
    (updates.map Update.streamId)
  told_sublist : told.Sublist entered
  announced : List.Forall₂ (fun x u => u = x.update g u.streamId) told updates
  after : ∃ bus, s' = { s with
    ledger := ((s.ledger.withGroup g).withEntered g .new g.createdAt entered).withUpdates updates
    bus }

end Service

namespace Shared

variable {s s' : Shared} {requesterId companyCode groupId : String} {batch : Batch}

/-- A batch that is refused leaves what others do at most. -/
theorem submit_eq_error {e : WorkflowError}
    (h : s.submit requesterId companyCode groupId batch = (.error e, s')) :
    s' = s ∨ s' = s.later := by
  simp only [submit, readClock_eq] at h
  split at h
  · exact .inl (Prod.mk.inj h).2.symm
  · split at h
    · exact .inr (Prod.mk.inj h).2.symm
    · cases h

/-- A batch that is accepted is entered at the time that the clock shows, and then announced. -/
theorem submit_entered {receipt : SubmitReceipt}
    (h : s.submit requesterId companyCode groupId batch = (.ok receipt, s')) :
    ∃ entered, receipt = ⟨groupId, entered.map Entered.id, createdMessage⟩ ∧
      batch.Acceptable s.service.directory companyCode ∧
      List.Forall₂ (fun raw x => validate raw = .ok x.new) batch.solicitations entered ∧
      GivenOut s.later.service.ledger.lastEnvelope
        (s.later.service.ledger.envelopes.map EnvelopeRow.id) (entered.map Entered.id) ∧
      GivenOut s.later.service.ledger.lastEvent
        (s.later.service.ledger.events.map EventRow.eventId) (entered.map Entered.eventId) ∧
      s'.meanwhile = s.later.meanwhile ∧ s'.service = s.later.service.entered
        ⟨groupId, requesterId, batch.creationTotalTime, s.later.service.now⟩ entered := by
  simp only [submit, readClock_eq] at h
  split at h
  · cases h
  · rename_i news hcheck
    obtain ⟨-, -, -, hvalid, -⟩ := Service.checkBatch_eq_ok_iff.1 hcheck
    split at h
    · cases h
    · rename_i ids ledger hbatch
      cases h
      obtain ⟨entered, rfl, rfl, rfl, hids, heventIds⟩ := createBatch_eq_ok hbatch
      rw [List.forall₂_map_right_iff] at hvalid
      rw [List.zip_map']
      exact ⟨entered, rfl, Service.exists_checkBatch_iff.1 ⟨_, hcheck⟩, hvalid, hids, heventIds, rfl,
        rfl⟩

/-- A batch that is accepted is sent with the time that the clock shows. -/
theorem submit_eq_ok {receipt : SubmitReceipt}
    (h : s.submit requesterId companyCode groupId batch = (.ok receipt, s')) :
    ∃ entered told updates, receipt = ⟨groupId, entered.map Entered.id, createdMessage⟩ ∧
      s'.meanwhile = s.later.meanwhile ∧ s.later.service.Sent s'.service
        ⟨groupId, requesterId, batch.creationTotalTime, s.later.service.now⟩ batch entered told
        updates ∧
      batch.Acceptable s.service.directory companyCode ∧
      (s.later.service.ledger.Open .update → Room s.later.service.ledger.lastUpdate
          (s.later.service.ledger.updates.map UpdateRow.streamId) batch.solicitations.length →
        told = entered) := by
  obtain ⟨entered, hreceipt, hacceptable, hvalid, hids, heventIds, hmeanwhile, hservice⟩ :=
    submit_entered h
  let g : Group := ⟨groupId, requesterId, batch.creationTotalTime, s.later.service.now⟩
  obtain ⟨told, updates, hannounced, hsub, htold, htokens, hall⟩ :=
    Service.announceCreated_eq { s.later.service with
      ledger := (s.later.service.ledger.withGroup g).withEntered g .new g.createdAt entered } g entered
  refine ⟨entered, told, updates, hreceipt, hmeanwhile,
    ⟨hvalid, hids, heventIds, htokens, hsub, htold, _, hservice.trans hannounced⟩, hacceptable,
    fun hopen hroom => ?_⟩
  refine hall hopen (fun x hx => ?_) (hvalid.length_eq ▸ hroom)
  exact hasEnvelope_withEntered hx

end Shared

/-! ## What is read of it -/

/-- Every event and every update belongs to a solicitation that is there. -/
structure Ledger.Referenced (l : Ledger) : Prop where
  events : ∀ row ∈ l.events, l.hasEnvelope row.solicitationId = true
  updates : ∀ row ∈ l.updates, l.hasEnvelope row.solicitationId = true

/-- Nothing was written about a solicitation that is not there. -/
theorem Ledger.Referenced.written_eq_nil {l : Ledger} {id : Int} (h : l.Referenced)
    (hid : ¬ l.hasEnvelope id = true) : l.written id = [] := by
  refine List.filter_eq_nil_iff.2 fun row hrow heq => hid ?_
  rw [← of_decide_eq_true heq]
  exact h.events row hrow

/-- The view of a solicitation right after it was entered. -/
def Ledger.Entered.view (g : Group) (x : Entered) : View :=
  ⟨⟨x.id, x.new.equipment, x.new.action, x.new.substationCode, x.new.companyCode, x.new.params,
    g.requesterId, some g.groupId⟩, .new, g.createdAt, g.createdAt, [x.event g .new g.createdAt]⟩

namespace Service.Sent

variable {s s' : Service} {g : Group} {batch : Batch} {entered told : List Entered}
  {updates : List Update} {x : Entered}

/-- What was there belongs to none of the solicitations that came in. -/
theorem ne_of_known (h : s.Sent s' g batch entered told updates) (hx : x ∈ entered) {id : Int}
    (hid : s.ledger.hasEnvelope id = true) : id ≠ x.id :=
  ne_of_hasEnvelope h.ids (List.mem_map_of_mem hx) hid

theorem written (h : s.Sent s' g batch entered told updates) (href : s.ledger.Referenced)
    (hx : x ∈ entered) : s'.ledger.written x.id = [EventRow.of (x.event g .new g.createdAt)] := by
  obtain ⟨bus, rfl⟩ := h.after
  have hold : s.ledger.events.filter (fun row => decide (row.solicitationId = x.id)) = [] :=
    href.written_eq_nil fun hknown => h.ne_of_known hx hknown rfl
  have hnew : ((entered.map fun y => EventRow.of (y.event g .new g.createdAt)).filter
      fun row => decide (row.solicitationId = x.id)) =
        [EventRow.of (x.event g .new g.createdAt)] := by
    rw [List.filter_map]
    exact congrArg _ (filter_eq_singleton_of_nodup Entered.id h.ids.nodup hx)
  simp only [Ledger.written, withUpdates, withEntered, withGroup, List.filter_append]
  rw [hold, hnew, List.nil_append]

theorem find? (h : s.Sent s' g batch entered told updates) (href : s.ledger.Referenced)
    (hx : x ∈ entered) : s'.ledger.find? x.id = .ok (some (x.view g)) := by
  have hlogs : s'.ledger.Logs x.id [x.event g .new g.createdAt] := h.written href hx
  obtain ⟨raw, -, hvalidated⟩ := (exists_of_forall₂ h.validated).2 x hx
  obtain ⟨bus, rfl⟩ := h.after
  have hmem : x.row g ∈ (((s.ledger.withGroup g).withEntered g .new g.createdAt
      entered).withUpdates updates).envelopes :=
    List.mem_append_right _ (List.mem_map_of_mem hx)
  have hfound : Ledger.envelope?
      (((s.ledger.withGroup g).withEntered g .new g.createdAt entered).withUpdates updates) x.id =
        some (x.row g) := by
    refine envelope?_of_unique hmem fun row hrow hid => ?_
    rcases List.mem_append.1 hrow with hold | hnew
    · have := (h.ids.above x.id (List.mem_map_of_mem hx)).2 row.id (List.mem_map_of_mem hold)
      have hid : row.id = x.id := hid
      omega
    · obtain ⟨y, hy, rfl⟩ := List.mem_map.1 hnew
      rw [List.inj_on_of_nodup_map h.ids.nodup hy hx hid]
  have hread : (x.row g).read = .ok (x.view g).solicitation :=
    EnvelopeRow.read_of (fits_of_validate hvalidated)
  have hstate : State.ofEvents? [x.event g .new g.createdAt] = some
      ⟨.new, g.createdAt, g.createdAt, x.eventId, [x.event g .new g.createdAt]⟩ := by
    simp [State.ofEvents?, newestFirst, Entered.event]
  exact find?_of_read hfound (EnvelopeRow.check_of ..) hread
    (hlogs.state?.trans (congrArg _ hstate))

end Service.Sent

end GridDispatch
