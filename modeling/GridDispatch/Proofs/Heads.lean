import GridDispatch.Proofs.LateSweep.Survival
import GridDispatch.Proofs.Operations
import GridDispatch.Proofs.Visibility

/-!
# One head, found in four ways

The standing of a solicitation is read off its sorted events, a write that asks for a head looks up
the newest row, the sweep and the list query join each envelope with the newest row of its own. In
a ledger that was built by writing all of them find the same event (`Ledger.head?_cases`), so
they agree (`Ledger.Built.heads_agree`). An id is never given to two events, so a head that was
seen before any number of writes can be asked for after them: it is the head if it is there
(`Ledger.Built.head_seen`).
-/

namespace GridDispatch.Ledger

variable {l l' : Ledger} {id time cutoff : Int} {actor justification : Option String}
  {status : Status} {state : State}

/-! ## What a ledger that was built has -/

theorem Change.legible (h : Change l l') (hread : ∀ row ∈ l.events, ∃ e, row.read = .ok e) :
    ∀ row ∈ l'.events, ∃ e, row.read = .ok e := by
  cases h with
  | group | envelope | update | guards => exact hread
  | @event e =>
    intro row hrow
    rcases List.mem_append.1 hrow with hold | hnew
    · exact hread row hold
    · rw [List.mem_singleton.1 hnew]
      exact ⟨e, EventRow.read_of e⟩
  | deleteEvents id => exact fun row hrow => hread row (List.mem_of_mem_filter hrow)

theorem Built.legible (h : l.Built) : ∀ row ∈ l.events, ∃ e, row.read = .ok e := by
  have hchanges := Writes.changes h
  clear h
  induction hchanges with
  | refl => exact List.forall_mem_nil _
  | tail _ hchange ih => exact hchange.legible ih

/-- No two events share an id. -/
theorem InOrder.eq_of_eventId (h : l.InOrder) {row row' : EventRow} (hrow : row ∈ l.events)
    (hrow' : row' ∈ l.events) (hid : row.eventId = row'.eventId) : row = row' := by
  have hnodup : (l.events.map EventRow.eventId).Nodup := h.events.sorted.imp fun hlt => by omega
  exact List.inj_on_of_nodup_map hnodup hrow hrow' hid

/-! ## The standing and the newest row -/

/-- The standing is the one that the row tells. -/
structure Told (state : State) (row : EventRow) : Prop where
  status : row.status = state.status.name
  time : row.time = .int state.updatedAt
  eventId : row.eventId = state.headEventId

/-- Where events can be read, there is a standing exactly where there is a newest row, and the row
tells it. -/
theorem head?_cases (hread : ∀ row ∈ l.events, ∃ e, row.read = .ok e) (id : Int) :
    (l.state? id = .ok none ∧ l.head? id = none) ∨
      ∃ state row, l.state? id = .ok (some state) ∧ l.head? id = some row ∧ Told state row := by
  obtain ⟨log, hlog⟩ := logs_of_legible hread id
  rw [hlog.state?, hlog.head?]
  cases hof : State.ofEvents? log with
  | none =>
    rw [newest_eq_none_iff.2 (State.ofEvents?_eq_none_iff.1 hof)]
    exact .inl ⟨rfl, rfl⟩
  | some state =>
    obtain ⟨head, hhead, hstatus, htime, hid⟩ := State.newest_of_ofEvents? hof
    rw [hhead]
    exact .inr ⟨state, _, rfl, rfl, congrArg Status.name hstatus.symm, congrArg Cell.int htime.symm,
      hid.symm⟩

/-- A solicitation that has a standing is there. -/
theorem Built.hasEnvelope_of_state? (h : l.Built) (hstate : l.state? id = .ok (some state)) :
    l.hasEnvelope id = true := by
  by_contra hnone
  have hlogs : l.Logs id [] := h.referenced.written_eq_nil hnone
  rw [hlogs.state?, State.ofEvents?_eq_none_iff.2 rfl] at hstate
  cases hstate

/-! ## Writes that ask for a head -/

/-- An event of a solicitation that is there gets the next id, as long as there is one. -/
theorem InOrder.insertEvent_eq (h : l.InOrder) (hopen : l.Open .event)
    (hknown : l.hasEnvelope id = true) :
    l.insertEvent id actor status time justification =
      if l.lastEvent < Text.Range.signed.hi then
        .ok (l.lastEvent + 1,
          l.withEvent ⟨l.lastEvent + 1, id, actor, status, time, justification⟩)
      else .error .idsUsedUp := by
  have hlast : (l.events.map EventRow.eventId).foldl max l.lastEvent = l.lastEvent :=
    foldl_max_of_le fun i hi => (h.events.bounds i hi).2
  simp only [insertEvent, hopen _, nextId, hlast, if_pos hknown]
  split <;> rfl

theorem insertEvent_ne_noSolicitation {i : Int} :
    l.insertEvent id actor status time justification ≠ .error (.noSolicitation i) := by
  intro h
  have hstore := ofStore_of_insertEvent h
  cases hstore

/-- What a write that asks for a head comes to is told by the standing. -/
theorem Built.appendIfCurrent_eq (h : l.Built) (id : Int) (seen : Marker) (actor : Option String)
    (status : Status) (time : Int) (justification : Option String) :
    ∃ standing, l.state? id = .ok standing ∧
      l.appendIfCurrent id seen actor status time justification =
        match standing with
        | none => .error (.noSolicitation id)
        | some state =>
          if state.headEventId = seen.headEventId then
            l.insertEvent id actor status time justification
          else .error (.staleHead id seen.headEventId state.headEventId) := by
  rcases head?_cases h.legible id with ⟨hstate, hhead⟩ | ⟨state, row, hstate, hhead, htold⟩
  · exact ⟨none, hstate, by simp only [appendIfCurrent, hhead]⟩
  · exact ⟨some state, hstate, by simp only [appendIfCurrent, hhead, htold.eventId]⟩

/-- It is refused as too late exactly if the standing has another head, and as about nothing
exactly if there is no standing; otherwise the event goes in under the next id, as long as there is
one. -/
theorem Built.appendIfCurrent_told (h : l.Built) (id : Int) (seen : Marker) (actor : Option String)
    (status : Status) (time : Int) (justification : Option String) :
    let answer := l.appendIfCurrent id seen actor status time justification
    ∃ standing, l.state? id = .ok standing ∧
      ((∃ i expected actual, answer = .error (.staleHead i expected actual)) ↔
        ∃ state ∈ standing, state.headEventId ≠ seen.headEventId) ∧
      (answer = .error (.noSolicitation id) ↔ standing = none) ∧
      (l.Open .event → ∀ state ∈ standing, state.headEventId = seen.headEventId →
        answer = if l.lastEvent < Text.Range.signed.hi then
            .ok (l.lastEvent + 1,
              l.withEvent ⟨l.lastEvent + 1, id, actor, status, time, justification⟩)
          else .error .idsUsedUp) := by
  intro answer
  obtain ⟨standing, hstate, hanswer⟩ := h.appendIfCurrent_eq id seen actor status time justification
  have hanswer : answer = _ := hanswer
  refine ⟨standing, hstate, ?_⟩
  rw [hanswer]
  cases standing with
  | none => exact ⟨⟨nofun, nofun⟩, iff_of_true rfl rfl, fun _ => nofun⟩
  | some state =>
    by_cases hsame : state.headEventId = seen.headEventId
    · simp only [if_pos hsame]
      refine ⟨iff_of_false ?_ ?_, iff_of_false insertEvent_ne_noSolicitation (by simp), ?_⟩
      · rintro ⟨i, expected, actual, hlost⟩
        exact insertEvent_ne_staleHead hlost
      · rintro ⟨state', hstate', hother⟩
        cases hstate'
        exact hother hsame
      · intro hopen _ _ _
        exact h.inOrder.insertEvent_eq hopen (h.hasEnvelope_of_state? hstate)
    · simp only [if_neg hsame]
      refine ⟨iff_of_true ⟨_, _, _, rfl⟩ ⟨state, rfl, hsame⟩, ?_, ?_⟩
      · exact iff_of_false nofun (by simp)
      · intro _ state' hstate' heq
        cases hstate'
        exact absurd heq hsame

/-! ## The candidates of a sweep -/

theorem mem_stale_iff (hread : ∀ row ∈ l.events, ∃ e, row.read = .ok e) :
    id ∈ l.stale cutoff ↔ l.hasEnvelope id = true ∧ ∃ state, l.state? id = .ok (some state) ∧
      state.status = .accepted ∧ state.updatedAt < cutoff := by
  have htime (n : Int) : (Cell.int n).order (.int cutoff) = .lt ↔ n < cutoff := Int.compare_eq_lt
  rcases head?_cases hread id with ⟨hstate, hhead⟩ | ⟨state, row, hstate, hhead, htold⟩
  · constructor
    · intro hstale
      obtain ⟨head, hhead', -⟩ := mem_stale hstale
      rw [hhead] at hhead'
      cases hhead'
    · rintro ⟨-, state, hstate', -⟩
      rw [hstate] at hstate'
      cases hstate'
  · constructor
    · intro hstale
      obtain ⟨head, hhead', hstatus, hbefore⟩ := mem_stale hstale
      cases hhead.symm.trans hhead'
      rw [htold.time, htime] at hbefore
      exact ⟨hasEnvelope_of_mem_stale hstale, state, hstate,
        Named.name_inj (htold.status.symm.trans hstatus), hbefore⟩
    · rintro ⟨hknown, state', hstate', hstatus, hbefore⟩
      cases hstate.symm.trans hstate'
      obtain ⟨envelope, henvelope, hid⟩ := List.any_eq_true.1 hknown
      have hid : envelope.id = id := of_decide_eq_true hid
      subst hid
      refine (List.mergeSort_perm _ _).symm.subset (List.mem_filterMap.2 ⟨envelope, henvelope, ?_⟩)
      have hnamed : row.status = Status.accepted.name := htold.status.trans (congrArg _ hstatus)
      rw [hhead]
      exact if_pos ⟨hnamed, htold.time ▸ (htime _).2 hbefore⟩

theorem Built.mem_stale_iff (h : l.Built) : id ∈ l.stale cutoff ↔
      ∃ state, l.state? id = .ok (some state) ∧ state.status = .accepted ∧
        state.updatedAt < cutoff := by
  rw [Ledger.mem_stale_iff h.legible, and_iff_right_iff_imp]
  rintro ⟨state, hstate, -⟩
  exact h.hasEnvelope_of_state? hstate

theorem stale_ascending (hkeys : (l.envelopes.map EnvelopeRow.id).Nodup) (cutoff : Int) :
    (l.stale cutoff).Pairwise (· < ·) := by
  have hnodup : (l.stale cutoff).Nodup := nodup_stale hkeys
  exact pairwise_lt_mergeSort (fun a b => decide_eq_true_iff)
    ((List.mergeSort_perm _ _).nodup_iff.1 hnodup)

theorem InOrder.nodup_envelopes (h : l.InOrder) : (l.envelopes.map EnvelopeRow.id).Nodup :=
  h.envelopes.sorted.imp fun hlt => by omega

/-! ## The list query -/

/-- The standing of the solicitation is that it is late. -/
def isLate (l : Ledger) (id : Int) : Bool :=
  match l.state? id with
  | .ok (some state) => state.status == .late
  | _ => false

/-- The ledger without the envelopes of solicitations that are late. -/
def withoutLate (l : Ledger) : Ledger :=
  { l with envelopes := l.envelopes.filter fun row => !l.isLate row.id }

theorem Built.isLate_iff (h : l.Built) {row : EventRow} (hrow : l.head? id = some row) :
    l.isLate id = (row.status == Status.late.name) := by
  rcases head?_cases h.legible id with ⟨-, hhead⟩ | ⟨state, row', hstate, hhead, htold⟩
  · cases hhead.symm.trans hrow
  · cases hhead.symm.trans hrow
    rw [Bool.eq_iff_iff, isLate, hstate, htold.status, beq_iff_eq, beq_iff_eq]
    exact ⟨congrArg Status.name, fun hname => Named.name_inj hname⟩

theorem head?_of_joined {row : EnvelopeRow} {j : Joined} (hj : Joined.of? l row = some j) :
    l.head? row.id = some j.head := by
  simp only [Joined.of?] at hj
  split at hj
  · cases hj
  · rename_i hrows
    cases hj
    rw [head?, hrows, List.head?_cons]

theorem Built.listed_withoutLate (h : l.Built) (registry : Registry) (filter : Filter) (page : Page)
    (view : SortView) (hints : List SortHint) :
    l.listed registry { filter with excludeExpired := true } page view hints =
      l.withoutLate.listed registry { filter with excludeExpired := false } page view hints := by
  have hjoined : Joined.of? l.withoutLate = Joined.of? l := rfl
  simp only [listed]
  rw [hjoined, filter_joined_of fun row _ j hj => ?_]
  · rfl
  · rw [h.isLate_iff (head?_of_joined hj)]
    simp only [Joined.keeps, Bool.true_and, Bool.false_and, Bool.not_false, Bool.and_true]
    cases j.head.status == Status.late.name <;> simp

theorem Built.query_withoutLate (h : l.Built) (registry : Registry) (filter : Filter) (page : Page)
    (view : SortView) (hints : List SortHint) (views : List View) :
    l.query registry { filter with excludeExpired := true } page view hints = .ok views ↔
      l.withoutLate.query registry { filter with excludeExpired := false } page view hints =
        .ok views := by
  have hvalues : ListQuery.values { filter with excludeExpired := true } page =
      ListQuery.values { filter with excludeExpired := false } page := rfl
  have hviews : (fun j : Joined => l.withoutLate.viewOf j.envelope) =
      fun j => l.viewOf j.envelope := rfl
  simp only [query, hvalues, h.listed_withoutLate, hviews]
  split
  · constructor
    · intro hlong
      cases hlong
    · intro hlong
      cases hlong
  · exact Iff.rfl

/-- The view that is found of a solicitation shows its standing. -/
theorem isLate_of_find? {v : View} (hfind : l.find? v.id = .ok (some v)) :
    l.isLate v.id = (v.status == .late) := by
  obtain ⟨row, -, hid, hview⟩ := find?_eq_some hfind
  obtain ⟨solicitation, state, -, hstate, rfl⟩ := viewOf_eq_ok hview
  rw [hid] at hstate
  rw [isLate, hstate]
  rfl

/-- The list without what is late is the whole list without the views that are. -/
theorem Lists.excludeExpired {registry : Registry} {filter : Filter} {fromId : Option Int}
    {view : SortView} {hints : List SortHint} {all : List View}
    (h : l.Lists registry { filter with excludeExpired := false } fromId view hints all) :
    l.Lists registry { filter with excludeExpired := true } fromId view hints
      (all.filter fun v => !l.isLate v.id) where
  mem_iff v := by
    rw [List.mem_filter, h.mem_iff]
    constructor
    · rintro ⟨⟨hfind, hadmits, hid⟩, hlate⟩
      rw [isLate_of_find? hfind] at hlate
      exact ⟨hfind, ⟨hadmits.company, hadmits.substation, hadmits.table, fun _ => by simpa using hlate⟩,
        hid⟩
    · rintro ⟨hfind, hadmits, hid⟩
      refine ⟨⟨hfind, ⟨hadmits.company, hadmits.substation, hadmits.table, nofun⟩, hid⟩, ?_⟩
      rw [isLate_of_find? hfind]
      simpa using hadmits.expired rfl
  sorted := h.sorted.sublist List.filter_sublist
  nodup := h.nodup.sublist (List.filter_sublist.map _)
  dated v hv := h.dated v (List.mem_of_mem_filter hv)

/-- Where all rows can be read, what the list query leaves out are the views that are late, before
the page is cut off. -/
theorem Decodes.query_excludeExpired (h : l.Decodes) (registry : Registry) (filter : Filter)
    (page : Page) (view : SortView) (hints : List SortHint)
    (hvalues : ListQuery.values filter page ≤ valueBound)
    (hkeys : SortHint.keyCount (SortHint.orStatus hints) ≤ keyBound) :
    ∃ all, l.Lists registry { filter with excludeExpired := false } page.fromId view
        (SortHint.orStatus hints) all ∧
      l.query registry { filter with excludeExpired := false } page view hints =
        .ok (all.take page.limit) ∧
      l.query registry { filter with excludeExpired := true } page view hints =
        .ok ((all.filter fun v => !l.isLate v.id).take page.limit) := by
  obtain ⟨all, hlists, hquery⟩ :=
    h.exists_lists registry { filter with excludeExpired := false } page view hints
  obtain ⟨kept, hkept, hquery'⟩ :=
    h.exists_lists registry { filter with excludeExpired := true } page view hints
  rw [hkept.unique hlists.excludeExpired] at hquery'
  exact ⟨all, hlists, hquery hvalues hkeys, hquery' hvalues hkeys⟩

/-! ## A head that was seen -/

/-- A row that was seen as a head and is one after any number of writes is the head of the same
solicitation. -/
theorem Built.eq_of_head_seen (h : l.Built) (hwrites : Writes l l') {id' : Int}
    {row row' : EventRow} (hrow : l.head? id = some row) (hrow' : l'.head? id' = some row')
    (hseen : row'.eventId = row.eventId) : id' = id := by
  have hbuilt' : l'.Built := h.trans hwrites
  obtain ⟨log, hlog⟩ := logs_of_legible h.legible id
  obtain ⟨log', hlog'⟩ := logs_of_legible hbuilt'.legible id'
  obtain ⟨head, hhead, rfl⟩ := Option.map_eq_some_iff.1 (hlog.head?.symm.trans hrow)
  obtain ⟨head', hhead', rfl⟩ := Option.map_eq_some_iff.1 (hlog'.head?.symm.trans hrow')
  have hmem := hlog.mem_written (mem_of_newest hhead)
  -- a head that came in later has an id above all that were given out before
  rcases hwrites.changes.onward.new_or_kept hlog' (mem_of_newest hhead') with hnew | hkept
  · have hgiven := (h.inOrder.events.bounds _ (List.mem_map_of_mem (mem_written.1 hmem).1)).2
    have hseen : head'.eventId = head.eventId := hseen
    have hgiven : head.eventId ≤ l.lastEvent := hgiven
    omega
  · obtain ⟨old, hold, -, hmem'⟩ := hkept
    have hmem' := hold.mem_written hmem'
    have heq := h.inOrder.eq_of_eventId (mem_written.1 hmem').1 (mem_written.1 hmem).1 hseen
    rw [← (mem_written.1 hmem').2, ← (mem_written.1 hmem).2, heq]

/-- After any number of writes, a head that was seen is the head of the same solicitation, with the
status that was seen, or it is no head at all. -/
theorem Built.head_seen (h : l.Built) (hwrites : Writes l l')
    (hstate : l.state? id = .ok (some state)) {id' : Int} {row : EventRow}
    (hrow : l'.head? id' = some row) (hseen : row.eventId = state.headEventId) :
    id' = id ∧ ∃ state', l'.state? id = .ok (some state') ∧ state'.headEventId = state.headEventId ∧
      state'.status = state.status := by
  obtain ⟨log, hlog, hof⟩ := state?_eq_ok_iff.1 hstate
  obtain ⟨head, hhead, hstatus, -, hid⟩ := State.newest_of_ofEvents? hof
  have hfirst : l.head? id = some (EventRow.of head) := by rw [hlog.head?, hhead, Option.map_some]
  obtain rfl := h.eq_of_head_seen hwrites hfirst hrow (hseen.trans hid)
  obtain ⟨new, hlog', hhead'⟩ := hwrites.changes.onward.logs_of_head h.inOrder.numbered hlog
    (mem_of_newest hhead) hrow (hseen.trans hid)
  refine ⟨rfl, ?_⟩
  cases hof' : State.ofEvents? (log ++ new) with
  | none =>
    rw [newest_eq_none_iff.2 (State.ofEvents?_eq_none_iff.1 hof')] at hhead'
    cases hhead'
  | some state' =>
    obtain ⟨head', hhead'', hstatus', -, hid'⟩ := State.newest_of_ofEvents? hof'
    cases hhead'.symm.trans hhead''
    exact ⟨state', hlog'.state?.trans (congrArg _ hof'), hid'.trans hid.symm,
      hstatus'.trans hstatus.symm⟩

/-! ## All of them -/

/-- In a ledger that was built by writing, whatever asks for a head goes by the standing. A write
that asks for one is refused as too late exactly if the standing has another, and as about nothing
exactly if there is no standing; otherwise the event goes in. A sweep finds what has the standing
of an old acceptance, by id. The list query leaves out what has the standing of being late, and
nothing else of the whole list. And what was seen of a standing can be asked for after any number of
writes only while the status is the same. -/
theorem Built.heads_agree (h : l.Built) :
    (∀ id seen actor status time justification,
      let answer := l.appendIfCurrent id seen actor status time justification
      ∃ standing, l.state? id = .ok standing ∧
        ((∃ i expected actual, answer = .error (.staleHead i expected actual)) ↔
          ∃ state ∈ standing, state.headEventId ≠ seen.headEventId) ∧
        (answer = .error (.noSolicitation id) ↔ standing = none) ∧
        (l.Open .event → ∀ state ∈ standing, state.headEventId = seen.headEventId →
          answer = if l.lastEvent < Text.Range.signed.hi then
              .ok (l.lastEvent + 1,
                l.withEvent ⟨l.lastEvent + 1, id, actor, status, time, justification⟩)
            else .error .idsUsedUp)) ∧
    (∀ cutoff, (l.stale cutoff).Pairwise (· < ·) ∧ ∀ id, id ∈ l.stale cutoff ↔
      ∃ state, l.state? id = .ok (some state) ∧ state.status = .accepted ∧
        state.updatedAt < cutoff) ∧
    (∀ registry (filter : Filter) page view hints views,
      l.query registry { filter with excludeExpired := true } page view hints = .ok views ↔
        l.withoutLate.query registry { filter with excludeExpired := false } page view hints =
          .ok views) ∧
    (l.Decodes → ∀ registry (filter : Filter) page view hints,
      ListQuery.values filter page ≤ valueBound →
      SortHint.keyCount (SortHint.orStatus hints) ≤ keyBound →
      ∃ all, l.Lists registry { filter with excludeExpired := false } page.fromId view
          (SortHint.orStatus hints) all ∧
        l.query registry { filter with excludeExpired := false } page view hints =
          .ok (all.take page.limit) ∧
        l.query registry { filter with excludeExpired := true } page view hints =
          .ok ((all.filter fun v => !l.isLate v.id).take page.limit)) ∧
    ∀ l' id state, Writes l l' → l.state? id = .ok (some state) →
      ∀ id' actor status time justification written,
        l'.appendIfCurrent id' state.marker actor status time justification = .ok written →
        id' = id ∧ ∃ state', l'.state? id = .ok (some state') ∧
          state'.headEventId = state.headEventId ∧ state'.status = state.marker.status := by
  refine ⟨h.appendIfCurrent_told, fun cutoff => ?_, h.query_withoutLate,
    Decodes.query_excludeExpired, ?_⟩
  · exact ⟨stale_ascending h.inOrder.nodup_envelopes cutoff, fun id => h.mem_stale_iff⟩
  · intro l' id state hwrites hstate id' actor status time justification written hwritten
    obtain ⟨⟨row, hrow, hseen⟩, -⟩ := appendIfCurrent_eq_ok hwritten
    exact h.head_seen hwrites hstate hrow hseen

/-- Two solicitations: the acceptance of the first is from the second in which it was created, and
the second was marked late at a time before it was created, so it still has the standing of a new
one. -/
theorem Built.heads_agree_of_backdated :
    let new : NewSolicitation := ⟨.synchronous, .maximize, "MOS", "CTEEP", .synchronous none⟩
    let l₁ := (Ledger.empty.withEnvelope (.of 1 new "ana" none)).withEvent
      ⟨1, 1, some "ana", .new, 100, none⟩
    let l₂ := (l₁.withEnvelope (.of 2 new "ana" none)).withEvent ⟨2, 2, some "ana", .new, 100, none⟩
    let l := (l₂.withEvent ⟨3, 1, some "tito", .accepted, 100, none⟩).withEvent
      ⟨4, 2, none, .late, 90, none⟩
    l.Built ∧ 1 ∈ l.stale 101 ∧ 2 ∉ l.stale 101 ∧
      (∃ i expected actual, l.appendIfCurrent 1 ⟨1, .new⟩ none .late 200 none =
        .error (.staleHead i expected actual)) ∧
      l.appendIfCurrent 2 ⟨2, .new⟩ (some "tito") .accepted 200 none =
        .ok (5, l.withEvent ⟨5, 2, some "tito", .accepted, 200, none⟩) ∧
      ∀ l', Writes l l' → ∀ written,
        l'.appendIfCurrent 2 ⟨2, .new⟩ (some "tito") .accepted 200 none = .ok written →
        ∃ state, l'.state? 2 = .ok (some state) ∧ state.headEventId = 2 ∧ state.status = .new := by
  intro new l₁ l₂ l
  have hbuilt : l.Built := by
    have h₁ : Ledger.empty.create new "ana" .new 100 = .ok (1, l₁) := rfl
    have h₂ : l₁.create new "ana" .new 100 = .ok (2, l₂) := rfl
    have h₃ : l₂.append 1 (some "tito") .accepted 100 = .ok (3, _) := rfl
    have h₄ : (l₂.withEvent ⟨3, 1, some "tito", .accepted, 100, none⟩).append 2 none .late 90 =
      .ok (4, l) := rfl
    exact .tail (.tail (.tail (.tail .refl (.create h₁)) (.create h₂)) (.append h₃)) (.append h₄)
  have hfirst : l.state? 1 = .ok (some ⟨.accepted, 100, 100, 3,
      [⟨3, 1, some "tito", .accepted, 100, none⟩, ⟨1, 1, some "ana", .new, 100, none⟩]⟩) := by
    cbv
  have hsecond : l.state? 2 = .ok (some ⟨.new, 90, 100, 2,
      [⟨2, 2, some "ana", .new, 100, none⟩, ⟨4, 2, none, .late, 90, none⟩]⟩) := by
    cbv
  obtain ⟨hwrite, hstale, -, -, hlater⟩ := hbuilt.heads_agree
  refine ⟨hbuilt, ((hstale 101).2 1).2 ⟨_, hfirst, rfl, by decide⟩, fun hmem => ?_, ?_, ?_, ?_⟩
  · obtain ⟨state, hstate, haccepted, -⟩ := ((hstale 101).2 2).1 hmem
    cases hsecond.symm.trans hstate
    cases haccepted
  · obtain ⟨standing, hstate, hlost, -⟩ := hwrite 1 ⟨1, .new⟩ none .late 200 none
    cases hfirst.symm.trans hstate
    exact hlost.2 ⟨_, rfl, by decide⟩
  · obtain ⟨standing, hstate, -, -, happend⟩ :=
      hwrite 2 ⟨2, .new⟩ (some "tito") .accepted 200 none
    cases hsecond.symm.trans hstate
    exact (happend (fun _ => rfl) _ rfl rfl).trans (if_pos (by decide))
  · intro l' hwrites written hwritten
    obtain ⟨-, hkept⟩ := hlater l' 2 _ hwrites hsecond 2 _ _ _ _ written hwritten
    exact hkept

end GridDispatch.Ledger
