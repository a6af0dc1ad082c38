import GridDispatch.Proofs.ChangeRequest
import GridDispatch.Proofs.Ledger.Batch
import GridDispatch.Proofs.Ledger.Stream
import GridDispatch.Proofs.Listing.Asked
import GridDispatch.Proofs.Listing.Query
import GridDispatch.Proofs.Requests
import GridDispatch.Workflow.Browse

/-!
# What a company gets to see

A transmission company sees its own solicitations and the updates that carry its code, and nothing of
the others: two services that hold the same of what is its own answer its users alike, whatever else
they hold (`Service.isolated`). The list query comes down to the rows of the company
(`Ledger.query_eq_of_same`), a view to the events of one solicitation (`Ledger.viewOf_congr`), and
the stream to the updates that a user is shown (`Service.updates_eq`). But all updates between two
tokens are read back before those that are shown are picked out, so an update that cannot be read back
stops everybody's reading, whoever it concerns (`Service.not_isolated_of_deep`).
-/

namespace GridDispatch

namespace Ledger

variable {l l' : Ledger}

/-- The ledger holds a solicitation of the company under the id. -/
def Holds (l : Ledger) (code : String) (id : Int) : Prop :=
  ∃ row ∈ l.envelopes, row.id = id ∧ row.companyCode = code

/-! ## One solicitation -/

theorem rowsOf_congr {id : Int} (h : l.written id = l'.written id) : l.rowsOf id = l'.rowsOf id :=
  congrArg (List.mergeSort · EventRow.newer) h

/-- A view depends on nothing but its envelope and the events of its solicitation. -/
theorem viewOf_congr {row : EnvelopeRow} (h : l.written row.id = l'.written row.id) :
    l.viewOf row = l'.viewOf row := by
  simp only [viewOf, state?, eventsOf, rowsOf_congr h]

theorem InOrder.envelope?_eq_some_iff (h : l.InOrder) {id : Int} {row : EnvelopeRow} :
    l.envelope? id = some row ↔ row ∈ l.envelopes ∧ row.id = id := by
  constructor
  · intro hrow
    exact ⟨List.mem_of_find?_eq_some hrow, by simpa using List.find?_some hrow⟩
  · rintro ⟨hmem, rfl⟩
    have hnodup : (l.envelopes.map EnvelopeRow.id).Nodup :=
      h.envelopes.sorted.imp fun hlt => by omega
    exact envelope?_of_unique hmem fun row' hmem' hid =>
      List.inj_on_of_nodup_map hnodup hmem' hmem hid

/-! ## The list query -/

/-- Two ledgers hold the same solicitations of a company, with the same events. -/
structure SameFor (code : String) (l l' : Ledger) : Prop where
  envelopes : ∀ row : EnvelopeRow, row.companyCode = code → (row ∈ l.envelopes ↔ row ∈ l'.envelopes)
  events : ∀ row ∈ l.envelopes, row.companyCode = code → ∀ event : EventRow,
    event.solicitationId = row.id → (event ∈ l.events ↔ event ∈ l'.events)

namespace SameFor

variable {code : String} {row : EnvelopeRow}

theorem written (h : SameFor code l l') (hl : l.InOrder) (hl' : l'.InOrder)
    (hrow : row ∈ l.envelopes) (hcode : row.companyCode = code) :
    l.written row.id = l'.written row.id := by
  refine eq_of_mem_iff_of_ids EventRow.eventId
    (hl.events.sorted.sublist (List.filter_sublist.map _))
    (hl'.events.sorted.sublist (List.filter_sublist.map _)) fun event => ?_
  rw [mem_written, mem_written]
  exact and_congr_left fun hid => h.events row hrow hcode event hid

/-- The envelopes of the company, in the order in which they were written. -/
theorem filter_envelopes (h : SameFor code l l') (hl : l.InOrder) (hl' : l'.InOrder) :
    l.envelopes.filter (fun row => row.companyCode == code) =
      l'.envelopes.filter fun row => row.companyCode == code := by
  refine eq_of_mem_iff_of_ids EnvelopeRow.id
    (hl.envelopes.sorted.sublist (List.filter_sublist.map _))
    (hl'.envelopes.sorted.sublist (List.filter_sublist.map _)) fun row => ?_
  simp only [List.mem_filter, beq_iff_eq]
  exact and_congr_left fun hcode => h.envelopes row hcode

end SameFor

/-- A row that is kept for a company belongs to it. -/
theorem Joined.companyCode_of_keeps {code : String} {registry : Registry} {filter : Filter}
    (hfilter : filter.companyCode = some code) {j : Joined} (h : j.keeps registry filter = true) :
    j.envelope.companyCode = code := by
  simp only [Joined.keeps, hfilter, Option.all_some, Bool.and_eq_true, beq_iff_eq] at h
  exact h.1.1.1

/-- Joining rows and then keeping some is joining the rows with a property and keeping of them, if
what is kept has the property. -/
theorem filter_joined_of {keeps keeps' : Joined → Bool} {p : EnvelopeRow → Bool}
    (hkeeps : ∀ row ∈ l.envelopes, ∀ j, Joined.of? l row = some j →
      keeps j = (p row && keeps' j)) :
    (l.envelopes.filterMap (Joined.of? l)).filter keeps =
      ((l.envelopes.filter p).filterMap (Joined.of? l)).filter keeps' := by
  rw [List.filterMap_filter, List.filter_filterMap, List.filter_filterMap]
  refine List.filterMap_congr fun row hrow => ?_
  cases hj : Joined.of? l row with
  | none => split <;> rfl
  | some j =>
    have hkept := hkeeps row hrow j hj
    split
    · rename_i hp
      simp [Option.filter, hkept, hp]
    · rename_i hp
      simp [Option.filter, hkept, hp]

/-- The rows that are kept are those of the company alone, if no others are kept. -/
theorem filter_joined {code : String} {keeps : Joined → Bool}
    (hkeeps : ∀ j, keeps j = true → j.envelope.companyCode = code) :
    (l.envelopes.filterMap (Joined.of? l)).filter keeps =
      ((l.envelopes.filter fun row => row.companyCode == code).filterMap (Joined.of? l)).filter
        keeps := by
  refine filter_joined_of fun row _ j hj => ?_
  cases hkept : keeps j with
  | false => rw [Bool.and_false]
  | true => rw [Bool.and_true, ← Joined.envelope_of? hj, hkeeps j hkept, beq_self_eq_true]

section Listed

variable {code : String} (registry : Registry) {filter : Filter} (page : Page) (view : SortView)
  (hints : List SortHint)

/-- What is listed for a company is its own. -/
theorem of_mem_listed (hfilter : filter.companyCode = some code) {j : Joined}
    (hj : j ∈ l.listed registry filter page view hints) :
    j.envelope ∈ l.envelopes ∧ j.envelope.companyCode = code := by
  obtain ⟨hjoined, hkept⟩ := List.mem_filter.1 (mem_kept_of_listed hj)
  obtain ⟨row, hrow, hof⟩ := List.mem_filterMap.1 hjoined
  rw [Bool.and_eq_true] at hkept
  exact ⟨Joined.envelope_of? hof ▸ hrow, Joined.companyCode_of_keeps hfilter hkept.1⟩

theorem listed_eq_of_same (h : SameFor code l l') (hl : l.InOrder) (hl' : l'.InOrder)
    (hfilter : filter.companyCode = some code) :
    l.listed registry filter page view hints = l'.listed registry filter page view hints := by
  have hkeeps (j : Joined) (hj : (j.keeps registry filter &&
      page.fromId.all fun id => decide (id ≤ j.envelope.id)) = true) :
      j.envelope.companyCode = code := by
    rw [Bool.and_eq_true] at hj
    exact Joined.companyCode_of_keeps hfilter hj.1
  have hjoined : ((l'.envelopes.filter fun row => row.companyCode == code).filterMap
      (Joined.of? l)) = (l'.envelopes.filter fun row => row.companyCode == code).filterMap
        (Joined.of? l') := by
    refine List.filterMap_congr fun row hrow => ?_
    obtain ⟨hmem, hcode⟩ := List.mem_filter.1 hrow
    have hcode : row.companyCode = code := by simpa using hcode
    have hrows := rowsOf_congr (h.written hl hl' ((h.envelopes row hcode).2 hmem) hcode)
    simp only [Joined.of?]
    rw [hrows]
  simp only [listed]
  rw [filter_joined hkeeps, filter_joined (l := l') hkeeps, h.filter_envelopes hl hl', hjoined]

/-- A list of what is a company's own does not depend on what others have. -/
theorem query_eq_of_same (h : SameFor code l l') (hl : l.InOrder) (hl' : l'.InOrder)
    (hfilter : filter.companyCode = some code) :
    l.query registry filter page view hints = l'.query registry filter page view hints := by
  have hviews : (l.listed registry filter page view hints).mapM (fun j => l.viewOf j.envelope) =
      (l.listed registry filter page view hints).mapM fun j => l'.viewOf j.envelope := by
    refine mapM_congr fun j hj => ?_
    obtain ⟨hmem, hcode⟩ := of_mem_listed registry page view hints hfilter hj
    exact viewOf_congr (h.written hl hl' hmem hcode)
  simp only [query]
  rw [hviews, listed_eq_of_same registry page view hints h hl hl' hfilter]

end Listed

/-- A view of what is a company's own is the same for both. -/
theorem SameFor.find? {code : String} (h : SameFor code l l') (hl : l.InOrder) (hl' : l'.InOrder)
    {id : Int} (hid : l.Holds code id) : l.find? id = l'.find? id := by
  obtain ⟨row, hrow, rfl, hcode⟩ := hid
  have hfound : l.envelope? row.id = some row := hl.envelope?_eq_some_iff.2 ⟨hrow, rfl⟩
  have hfound' : l'.envelope? row.id = some row :=
    hl'.envelope?_eq_some_iff.2 ⟨(h.envelopes row hcode).1 hrow, rfl⟩
  simp only [Ledger.find?, hfound, hfound', viewOf_congr (h.written hl hl' hrow hcode)]

theorem SameFor.holds_iff {code : String} (h : SameFor code l l') {id : Int} :
    l.Holds code id ↔ l'.Holds code id :=
  exists_congr fun row => and_congr_left fun hrow => h.envelopes row hrow.2

end Ledger

namespace Service

variable {s s' : Service} {code user company : String} {start stop : Int}

/-! ## The stream -/

/-- Whether the users of a company get to see an update. -/
def shows (company : String) (u : Update) : Bool :=
  decide (company = Company.operatorCode) || concerns company u

/-- What a user gets to see of the updates that are read. -/
theorem updates_of_read {read : List Update} (huser : s.directory.companyOf user = .ok (some company))
    (hle : start ≤ stop) (hread : s.ledger.updatesBetween start stop = .ok read) :
    s.updates user start stop = .ok (read.filter (shows company)) := by
  have hcompany : s.companyOf user = .ok company := by simp only [companyOf, huser]
  by_cases hoperator : company = Company.operatorCode
  · subst hoperator
    have hall : shows Company.operatorCode = fun _ => true := by
      funext u
      simp [shows]
    simp [updates, hcompany, hread, hall, bind, Except.bind, Int.not_lt.2 hle]
  · have hown : shows company = concerns company := by
      funext u
      simp [shows, hoperator]
    simp [updates, hcompany, hread, hoperator, hown, bind, Except.bind, Int.not_lt.2 hle]

/-- What a user gets to see of the stream between two tokens, if it can be read. -/
theorem updates_eq (h : s.ledger.InOrder) (huser : s.directory.companyOf user = .ok (some company))
    (hle : start ≤ stop) (hreadable : s.ledger.Readable start stop) : s.updates user start stop =
      .ok ((s.ledger.stream.filter (shows company)).filter (Update.between start stop)) := by
  rw [updates_of_read huser hle (h.updatesBetween_eq hreadable), List.filter_filter,
    List.filter_filter]
  simp only [Bool.and_comm]

/-- Between tokens where not every update can be read, a user gets the error of one that nests too
deep. -/
theorem updates_of_deep (hbuilt : s.ledger.Built)
    (huser : s.directory.registry.companyOf user = some company) (hle : start ≤ stop)
    (hup : Lookup.companyOf ∉ s.directory.down) (hunreadable : ¬ s.ledger.Readable start stop) :
    ∃ u fault, UpdateRow.of u ∈ s.ledger.updates ∧ start < u.streamId ∧ u.streamId ≤ stop ∧
      Json.depthBound < u.content.depth ∧ Json.parse u.content.print = .error fault ∧
      s.updates user start stop =
        .error (.ofStore (.corruptRow .update u.streamId (.unreadable fault))) := by
  have hcompany : s.companyOf user = .ok company := by
    simp only [companyOf, Directory.companyOf, Directory.ask, if_neg hup, huser]
  cases hread : s.ledger.updatesBetween start stop with
  | ok updates => exact absurd (Ledger.readable_of_updatesBetween hread) hunreadable
  | error e =>
    obtain ⟨row, hrow, hstart, hstop, hfault⟩ := Ledger.exists_of_updatesBetween_eq_error hread
    obtain ⟨u, rfl⟩ := hbuilt.exists_update row hrow
    obtain ⟨hdeep, fault, hparse, rfl⟩ := UpdateRow.read_of_eq_error_iff.1 hfault
    refine ⟨u, fault, hrow, hstart, hstop, hdeep, hparse, ?_⟩
    simp [updates, hcompany, hread, bind, Except.bind, Int.not_lt.2 hle]

/-- What a user gets was read. -/
theorem readable_of_updates {updates : List Update}
    (h : s.updates user start stop = .ok updates) : s.ledger.Readable start stop := by
  simp only [Service.updates] at h
  split at h
  · cases h
  · obtain ⟨company, -, h⟩ := bind_eq_ok_iff.1 h
    split at h
    · cases h
    · rename_i hread
      exact Ledger.readable_of_updatesBetween hread

/-- A user who belongs to a company gets an answer exactly if the part of the stream can be read, and
then it is what the company is shown of it. -/
theorem updates_eq_ok_iff {updates : List Update} (h : s.ledger.InOrder)
    (huser : s.directory.companyOf user = .ok (some company)) (hle : start ≤ stop) :
    s.updates user start stop = .ok updates ↔ s.ledger.Readable start stop ∧
      updates = (s.ledger.stream.filter (shows company)).filter (Update.between start stop) := by
  constructor
  · intro hupdates
    have hreadable := readable_of_updates hupdates
    rw [updates_eq h huser hle hreadable] at hupdates
    exact ⟨hreadable, (Except.ok.inj hupdates).symm⟩
  · rintro ⟨hreadable, rfl⟩
    exact updates_eq h huser hle hreadable

/-- What requests record can be read. -/
theorem legible_covers : Covers fun p p' => p.ledger.Legible → p'.ledger.Legible where
  refl _ := id
  trans h h' := h' ∘ h
  createBatch := by
    intro p g news status time ids ledger hbatch h
    obtain ⟨entered, -, -, rfl, -⟩ := Ledger.createBatch_eq_ok hbatch
    exact h
  appendIfCurrent := by
    intro p id eventId time seen actor status justification ledger happend h
    obtain ⟨rfl, -⟩ := Ledger.insertEvent_eq_ok (Ledger.appendIfCurrent_eq_ok happend).2
    exact h
  record := by
    intro p id token userId kind content ledger bus hplain hrecord h
    obtain ⟨rfl, -⟩ := Ledger.record_eq_withUpdate hrecord
    exact h.withUpdate hplain

/-- A user who gets an answer belongs to a company that could be looked up. -/
theorem companyOf_of_updates {updates : List Update} (h : s.updates user start stop = .ok updates)
    (huser : s.directory.registry.companyOf user = some company) :
    s.directory.companyOf user = .ok (some company) := by
  by_cases hdown : Lookup.companyOf ∈ s.directory.down
  · have hnone : s.companyOf user = .error (.unavailable ⟨.companyOf⟩) := by
      simp only [companyOf, Directory.companyOf, Directory.ask, if_pos hdown]
    by_cases hlt : stop < start
    · simp [Service.updates, hlt, bind, Except.bind] at h
    · simp [Service.updates, hlt, hnone, bind, Except.bind] at h
  · simp only [Directory.companyOf, Directory.ask, if_neg hdown, huser]

/-! ## Two services -/

/-- Two services that hold the same of what is a company's own, with the same reference data and
settings. -/
structure SameFor (code : String) (s s' : Service) : Prop where
  directory : s.directory = s'.directory
  settings : s.settings = s'.settings
  ledger : Ledger.SameFor code s.ledger s'.ledger
  updates : ∀ u : Update, (u.content.member? "company_code").bind Json.text? = some code →
    (u ∈ s.ledger.stream ↔ u ∈ s'.ledger.stream)

/-- A transmission company can list nothing but its own. -/
theorem companyCode_of_listFilter (hcode : code ≠ Company.operatorCode) {r : ListRequest}
    {filter : Filter} (h : s.listFilter code r = .ok filter) : filter.companyCode = some code := by
  obtain ⟨hpermits, rfl⟩ := listFilter_eq_ok_iff.1 h
  exact ListRequest.filter_companyCode_eq_some_iff.2 (hpermits.own hcode)

namespace SameFor

theorem list (h : SameFor code s s') (hs : s.ledger.InOrder) (hs' : s'.ledger.InOrder)
    (hcode : code ≠ Company.operatorCode) (r : ListRequest) : s.list code r = s'.list code r := by
  have hfilter : s'.listFilter code r = s.listFilter code r := by
    simp only [listFilter, checkReferences, h.directory]
  simp only [Service.list, hfilter]
  cases hread : s.listFilter code r with
  | error e => rfl
  | ok filter =>
    have hquery (page : Page) (view : SortView) (hints : List SortHint) :
        s.ledger.query s'.directory.registry filter page view hints =
          s'.ledger.query s'.directory.registry filter page view hints :=
      Ledger.query_eq_of_same _ page view hints h.ledger hs hs'
        (companyCode_of_listFilter hcode hread)
    simp only [h.directory, h.settings, bind, Except.bind, hquery]

theorem updates_eq (h : SameFor code s s') (hs : s.ledger.InOrder) (hs' : s'.ledger.InOrder)
    (hcode : code ≠ Company.operatorCode) (huser : s.directory.registry.companyOf user = some code)
    (hreadable : start ≤ stop → Lookup.companyOf ∉ s.directory.down →
      s.ledger.Readable start stop ∧ s'.ledger.Readable start stop) :
    s.updates user start stop = s'.updates user start stop := by
  have hshown : s.ledger.stream.filter (shows code) = s'.ledger.stream.filter (shows code) := by
    refine eq_of_mem_iff_of_ids Update.streamId
      (hs.stream_counted.sorted.sublist (List.filter_sublist.map _))
      (hs'.stream_counted.sorted.sublist (List.filter_sublist.map _)) fun u => ?_
    simp only [List.mem_filter, shows, concerns, hcode, decide_false, Bool.false_or, beq_iff_eq]
    exact and_congr_left fun hconcerns => h.updates u hconcerns
  by_cases hle : start ≤ stop
  · by_cases hdown : Lookup.companyOf ∈ s.directory.down
    · simp [Service.updates, companyOf, Directory.companyOf, Directory.ask, ← h.directory, hdown,
        bind, Except.bind]
    · have hcompany : s.directory.companyOf user = .ok (some code) := by
        simp [Directory.companyOf, Directory.ask, hdown, huser]
      obtain ⟨hreadable, hreadable'⟩ := hreadable hle hdown
      rw [Service.updates_eq hs hcompany hle hreadable,
        Service.updates_eq hs' (h.directory ▸ hcompany) hle hreadable', hshown]
  · simp [Service.updates, Int.not_le.1 hle, bind, Except.bind]

end SameFor

theorem holds_of_get (hcode : code ≠ Company.operatorCode) {id : Int} {view : View}
    (h : s.get code id = .ok view) : s.ledger.Holds code id := by
  obtain ⟨found, hfound, h⟩ := bind_eq_ok_iff.1 h
  obtain ⟨row, hrow, hid, hview⟩ := Ledger.find?_eq_some (view_eq_ok hfound)
  obtain ⟨solicitation, state, hread, -, rfl⟩ := Ledger.viewOf_eq_ok hview
  obtain ⟨-, howner, -⟩ := EnvelopeRow.codes_of_read hread
  split at h
  · cases h
  · rename_i hown
    rw [not_and, not_not] at hown
    exact ⟨row, hrow, hid, howner.symm.trans (hown hcode)⟩

/-- A company other than the operator gets the same answers from two services that hold the same of
what is its own, whatever else they hold: its lists, its part of the stream, and the views of its
solicitations. Others are never shown to it. Its part of the stream can be had only where all updates
between the tokens can be read; where one cannot, it nests too deep, and there is no answer but the
error of one that does. -/
theorem isolated (hcode : code ≠ Company.operatorCode) (hs : s.ledger.Built)
    (hs' : s'.ledger.Built) (h : SameFor code s s') :
    (∀ r, s.list code r = s'.list code r) ∧
      (∀ user, s.directory.registry.companyOf user = some code → ∀ start stop,
        ((start ≤ stop → Lookup.companyOf ∉ s.directory.down →
            s.ledger.Readable start stop ∧ s'.ledger.Readable start stop) →
          s.updates user start stop = s'.updates user start stop) ∧
        ∀ p ∈ [s, s'], start ≤ stop → Lookup.companyOf ∉ p.directory.down →
          ¬ p.ledger.Readable start stop → ∃ u fault, UpdateRow.of u ∈ p.ledger.updates ∧
            start < u.streamId ∧ u.streamId ≤ stop ∧ Json.depthBound < u.content.depth ∧
            Json.parse u.content.print = .error fault ∧ p.updates user start stop =
              .error (.ofStore (.corruptRow .update u.streamId (.unreadable fault)))) ∧
      (∀ id, s.ledger.Holds code id → s.get code id = s'.get code id) ∧
      ∀ id, ¬ s.ledger.Holds code id →
        ∀ view, s.get code id ≠ .ok view ∧ s'.get code id ≠ .ok view := by
  have hl := hs.inOrder
  have hl' := hs'.inOrder
  refine ⟨h.list hl hl' hcode, fun user huser start stop => ⟨?_, ?_⟩, ?_, ?_⟩
  · exact h.updates_eq hl hl' hcode huser
  · have huser' : s'.directory.registry.companyOf user = some code := h.directory ▸ huser
    refine List.forall_mem_cons.2 ⟨?_, List.forall_mem_singleton.2 ?_⟩
    · exact updates_of_deep hs huser
    · exact updates_of_deep hs' huser'
  · intro id hid
    simp only [get, Service.view, h.ledger.find? hl hl' hid]
  · intro id hid view
    constructor
    · intro hget
      exact hid (holds_of_get hcode hget)
    · intro hget
      exact hid (h.ledger.holds_iff.2 (holds_of_get hcode hget))

/-- A group of one solicitation, and the same group with one of another company in it. -/
theorem isolated_from_group :
    let p : Service := ⟨.empty, ⟨⟨[], [⟨"CTEEP", "MOS", none⟩, ⟨"CHESF", "PIR", none⟩],
      [("tito", "CTEEP")]⟩, []⟩, .default, .silent, 100⟩
    let mos : RawSolicitation :=
      ⟨"SYNCHRONOUS", "MAXIMIZE", "MOS", "CTEEP", ⟨.null, .null, .null, .null, .null⟩⟩
    let pir : RawSolicitation := { mos with substation := "PIR", companyCode := "CHESF" }
    let s := p.after (.submit "ana" "ONS" "first" ⟨0, [mos]⟩)
    let s' := p.after (.submit "ana" "ONS" "first" ⟨0, [mos, pir]⟩)
    s.ledger.envelopes.length = 1 ∧ s'.ledger.envelopes.length = 2 ∧
      s.ledger.Built ∧ s'.ledger.Built ∧ SameFor "CTEEP" s s' ∧
      (∀ r, s.list "CTEEP" r = s'.list "CTEEP" r) ∧
      (∀ start stop, s.updates "tito" start stop = s'.updates "tito" start stop) ∧
      s.get "CTEEP" 1 = s'.get "CTEEP" 1 ∧ ∀ view, s'.get "CTEEP" 2 ≠ .ok view := by
  intro p mos pir s s'
  let other : NewSolicitation := ⟨.synchronous, .maximize, "PIR", "CHESF", .synchronous none⟩
  let own : NewSolicitation := { other with companyCode := "CTEEP", substationCode := "MOS" }
  have hchecked : p.checkBatch "ONS" ⟨0, [mos]⟩ = .ok [own] ∧
      p.checkBatch "ONS" ⟨0, [mos, pir]⟩ = .ok [own, other] := by
    subst p mos pir own other
    cbv
  have hworks := p.after_works (.submit "ana" "ONS" "first" ⟨0, [mos]⟩)
  have hworks' := p.after_works (.submit "ana" "ONS" "first" ⟨0, [mos, pir]⟩)
  have hledger : s.ledger.envelopes = [.of 1 own "ana" (some "first")] ∧
      s'.ledger.envelopes = s.ledger.envelopes ++ [.of 2 other "ana" (some "first")] ∧
      s'.ledger.events = s.ledger.events ++ [.of ⟨2, 2, some "ana", .new, 100, none⟩] ∧
      s'.ledger.updates = s.ledger.updates ++
        [.of ⟨2, 2, some "ana", .created, createdContent 2 other "first"⟩] := by
    simp only [s, s', after, Shared.submit, Service.alone, hchecked]
    exact ⟨rfl, rfl, rfl, rfl⟩
  obtain ⟨hown, henvelopes, hevents, hupdates⟩ := hledger
  have hsame : SameFor "CTEEP" s s' := by
    refine ⟨hworks.directory.trans hworks'.directory.symm,
      hworks.settings.trans hworks'.settings.symm, ⟨fun row hcode => ?_, fun row hrow _ event hid => ?_⟩,
      fun u hcode => ?_⟩
    · rw [henvelopes, List.mem_append, List.mem_singleton]
      refine (or_iff_left fun hother => ?_).symm
      rw [hother] at hcode
      exact absurd hcode (by decide : "CHESF" ≠ "CTEEP")
    · rw [hevents, List.mem_append, List.mem_singleton]
      refine (or_iff_left fun hother => ?_).symm
      rw [hown, List.mem_singleton] at hrow
      rw [hother, hrow] at hid
      exact absurd hid (by decide : (2 : Int) ≠ 1)
    · rw [Ledger.stream_append_of_plain hupdates (createdContent_plain ..), List.mem_append,
        List.mem_singleton]
      refine (or_iff_left fun hother => ?_).symm
      rw [hother] at hcode
      exact absurd hcode (by decide : some "CHESF" ≠ some "CTEEP")
  have hread (r : Request) : (p.after r).ledger.Legible :=
    legible_covers.after p r (List.forall_mem_nil _)
  obtain ⟨hlists, hupdated, hgets, hothers⟩ := isolated (by decide) hworks.writes hworks'.writes hsame
  have hheld : s.ledger.Holds "CTEEP" 1 := ⟨_, hown ▸ List.mem_singleton_self _, rfl, rfl⟩
  have hunheld : ¬ s.ledger.Holds "CTEEP" 2 := by
    rintro ⟨row, hrow, hid, -⟩
    rw [hown, List.mem_singleton] at hrow
    rw [hrow] at hid
    exact absurd hid (by decide : (1 : Int) ≠ 2)
  have huser : s.directory.registry.companyOf "tito" = some "CTEEP" := by
    rw [hworks.directory]
    decide
  refine ⟨by rw [hown]; rfl, by rw [henvelopes, hown]; rfl, hworks.writes, hworks'.writes, hsame, hlists,
    fun start stop => (hupdated "tito" huser start stop).1 fun _ _ => ?_, hgets 1 hheld,
    fun view => (hothers 2 hunheld view).2⟩
  exact ⟨(hread _).readable start stop, (hread _).readable start stop⟩

/-- An update of CTEEP, and the same followed by one of CHESF that nests one list deeper than can be
read: the two ledgers hold the same for CTEEP, but only from the first does it get its update. -/
theorem not_isolated_of_deep :
    let new : NewSolicitation := ⟨.synchronous, .maximize, "MOS", "CTEEP", .synchronous none⟩
    let l₁ := (Ledger.empty.withEnvelope (.of 1 new "ana" none)).withEvent
      ⟨1, 1, some "ana", .new, 100, none⟩
    let l₂ := (l₁.withEnvelope (.of 2 { new with companyCode := "CHESF" } "ana" none)).withEvent
      ⟨2, 2, some "ana", .new, 100, none⟩
    let l := l₂.withUpdate ⟨1, 1, some "ana", .created, createdContent 1 new "first"⟩
    let l' := l.withUpdate ⟨2, 2, some "ana", .created, .nested (Json.depthBound + 1)⟩
    let s : Service := ⟨l, ⟨⟨[], [], [("tito", "CTEEP")]⟩, []⟩, .default, .silent, 100⟩
    let s' := { s with ledger := l' }
    l.Built ∧ l'.Built ∧ SameFor "CTEEP" s s' ∧
      s.directory.registry.companyOf "tito" = some "CTEEP" ∧
      (∃ updates, s.updates "tito" 0 2 = .ok updates) ∧
      ¬ ∃ updates, s'.updates "tito" 0 2 = .ok updates := by
  intro new l₁ l₂ l l' s s'
  let deep : Update := ⟨2, 2, some "ana", .created, .nested (Json.depthBound + 1)⟩
  have hbuilt : l.Built := by
    have h₁ : Ledger.empty.create new "ana" .new 100 = .ok (1, l₁) := rfl
    have h₂ : l₁.create { new with companyCode := "CHESF" } "ana" .new 100 = .ok (2, l₂) := rfl
    have h₃ : l₂.record 1 (some "ana") .created (createdContent 1 new "first") = .ok (1, l) := rfl
    exact .tail (.tail (.tail .refl (.create h₁)) (.create h₂)) (.record h₃)
  have hrecorded : l.record 2 (some "ana") .created (.nested (Json.depthBound + 1)) = .ok (2, l') :=
    rfl
  obtain ⟨fault, hfault⟩ := Json.exists_parse_nested
  have hdeep : (UpdateRow.of deep).read = .error (.corruptRow .update 2 (.unreadable fault)) := by
    refine UpdateRow.read_of_eq_error_iff.2 ⟨?_, fault, hfault, rfl⟩
    rw [Json.depth_nested]
    exact Nat.lt_succ_self _
  have hstream : l'.stream = l.stream := by
    have hrows : l'.updates = l.updates ++ [UpdateRow.of deep] := rfl
    have hnone : [UpdateRow.of deep].filterMap (fun row => row.read.toOption) = [] := by
      simp [hdeep, Except.toOption]
    rw [Ledger.stream_append hrows, hnone, List.append_nil]
  have hread : l.Legible := by
    have hnone : l₂.Legible := List.forall_mem_nil _
    exact hnone.withUpdate (createdContent_plain ..)
  refine ⟨hbuilt, hbuilt.tail (.record hrecorded), ?_, rfl, ⟨_, updates_eq hbuilt.inOrder rfl
    (by decide) (hread.readable 0 2)⟩, ?_⟩
  · exact ⟨rfl, rfl, ⟨fun _ _ => Iff.rfl, fun _ _ _ _ _ => Iff.rfl⟩, fun u _ => by rw [hstream]⟩
  · rintro ⟨updates, hupdates⟩
    obtain ⟨u, hu⟩ := readable_of_updates hupdates (UpdateRow.of deep)
      (List.mem_append_right _ (List.mem_singleton_self _)) (by decide) (by decide)
    cases hdeep.symm.trans hu

end Service
end GridDispatch
