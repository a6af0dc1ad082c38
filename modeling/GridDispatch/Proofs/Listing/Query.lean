import GridDispatch.Proofs.Interference
import GridDispatch.Proofs.Listing.Shown

/-!
# What the list query answers

`Ledger.query_eq_take`: the query answers the beginning of one list, which holds the views that the
filter admits, each once, in the order of the hints. Main lemma:
`Ledger.Decodes.exists_lists`, from `Shown.order_eq` and `Shown.keeps_iff`.
-/

namespace GridDispatch

variable {l : Ledger}

/-! ## Dates of a view -/

/-- The dates of a view are those of its events: the newest tells the status and the last change, and
none is from before the creation. -/
structure View.Dated (v : View) : Prop where
  changed : ∃ head ∈ v.events, head.status = v.status ∧ head.time = v.updatedAt ∧
    ∀ e ∈ v.events, head.newer e = true
  created : ∃ first ∈ v.events, first.time = v.createdAt ∧ ∀ e ∈ v.events, first.time ≤ e.time

theorem View.dated_of_ofEvents? {log : List Event} {state : State} {solicitation : Solicitation}
    (h : State.ofEvents? log = some state) : (View.of solicitation state).Dated := by
  have hmem {e : Event} : e ∈ state.events ↔ e ∈ log := by
    rw [State.events_of_ofEvents? h]
    exact (newestFirst_perm log).mem_iff
  obtain ⟨head, hhead, hstatus, hchanged, -⟩ := State.newest_of_ofEvents? h
  obtain ⟨first, hfirst, hcreated, hleast⟩ := State.oldest_of_ofEvents? h
  constructor
  · exact ⟨head, hmem.2 (mem_of_newest hhead), hstatus.symm, hchanged.symm,
      fun e he => newer_of_newest hhead (hmem.1 he)⟩
  · exact ⟨first, hmem.2 hfirst, hcreated, fun e he => hleast e (hmem.1 he)⟩

theorem ListedBefore.asymm {view : SortView} {hints : List SortHint} {v w : View}
    (h : ListedBefore view v w hints) : ¬ ListedBefore view w v hints := by
  rw [← View.order_eq_lt_iff] at h ⊢
  have hswap : View.order view hints w v = (View.order view hints v w).swap :=
    Std.OrientedCmp.eq_swap
  rw [hswap, h]
  decide

namespace Shown

/-! ## Rows in order -/

theorem dated (x : Shown l) : x.view.Dated := by
  obtain ⟨solicitation, state, -, hstate, hview⟩ := Ledger.viewOf_eq_ok x.viewOf
  obtain ⟨log, -, hof⟩ := Ledger.state?_eq_ok_iff.1 hstate
  rw [hview]
  exact View.dated_of_ofEvents? hof

/-- A view that is read from the envelope of a shown row is the one that it shows. -/
theorem view_eq (x : Shown l) {v : View} (h : l.viewOf x.joined.envelope = .ok v) : x.view = v :=
  Except.ok.inj (x.viewOf.symm.trans h)

def le (view : SortView) (hints : List SortHint) (x y : Shown l) : Bool :=
  (View.order view hints x.view y.view).isLE

theorem sorted (view : SortView) (hints : List SortHint) (xs : List (Shown l)) :
    (xs.mergeSort (le view hints)).Pairwise fun x y => le view hints x y = true := by
  refine List.pairwise_mergeSort (fun x y z hxy hyz => ?_) (fun x y => ?_) xs
  · exact Std.TransCmp.isLE_trans hxy hyz
  · have hswap : View.order view hints y.view x.view = (View.order view hints x.view y.view).swap :=
      Std.OrientedCmp.eq_swap
    simp only [le, hswap]
    cases View.order view hints x.view y.view <;> rfl

theorem map_joined_mergeSort (view : SortView) (hints : List SortHint) (xs : List (Shown l)) :
    (xs.mergeSort (le view hints)).map joined =
      (xs.map joined).mergeSort fun a b => (Joined.order view a b hints).isLE :=
  List.map_mergeSort fun x _ y _ => by rw [le, order_eq]

/-- Rows of different ids stand strictly one before the other. -/
theorem listedBefore (view : SortView) (hints : List SortHint) {xs : List (Shown l)}
    (hnodup : (xs.map fun x => x.view.id).Nodup) :
    ((xs.mergeSort (le view hints)).map Shown.view).Pairwise fun a b =>
      ListedBefore view a b hints := by
  have hids : (xs.mergeSort (le view hints)).Pairwise fun x y => x.view.id ≠ y.view.id := by
    have hperm := (List.mergeSort_perm xs (le view hints)).map fun x => x.view.id
    exact List.pairwise_map.1 (hperm.symm.nodup hnodup)
  rw [List.pairwise_map]
  refine ((sorted view hints xs).and hids).imp fun {x y} h => ?_
  obtain ⟨hle, hne⟩ := h
  rcases Ordering.isLE_iff_eq_lt_or_eq_eq.1 hle with hlt | heq
  · exact View.order_eq_lt_iff.1 hlt
  · exact absurd (View.id_eq_of_order heq) hne

end Shown

/-! ## Rows that are listed -/

/-- The joined rows of a ledger that a filter keeps, from the start of a page on. -/
def Ledger.kept (l : Ledger) (registry : Registry) (filter : Filter) (page : Page) : List Joined :=
  (l.envelopes.filterMap (Joined.of? l)).filter fun j =>
    j.keeps registry filter && page.fromId.all fun id => decide (id ≤ j.envelope.id)

theorem Joined.envelope_of? {row : EnvelopeRow} {j : Joined} (h : of? l row = some j) :
    j.envelope = row := by
  simp only [of?] at h
  split at h
  · cases h
  · cases h
    rfl

theorem Joined.sublist_envelopes (rows : List EnvelopeRow) :
    ((rows.filterMap (of? l)).map Joined.envelope).Sublist rows := by
  induction rows with
  | nil => exact .slnil
  | cons row rows ih =>
    rw [List.filterMap_cons]
    split
    · exact ih.cons row
    · rename_i j hj
      rw [List.map_cons, envelope_of? hj]
      exact ih.cons_cons row

theorem Page.cut_eq_take {α : Type} (page : Page) {rows : List α} (h : rows.length < noLimit) :
    page.cut rows = rows.take page.limit := by
  rw [Page.cut]
  split
  · rfl
  · exact (List.take_of_length_le (by omega)).symm

/-- What is listed is kept. -/
theorem Ledger.mem_kept_of_listed {registry : Registry} {filter : Filter} {page : Page}
    {view : SortView} {hints : List SortHint} {j : Joined}
    (h : j ∈ l.listed registry filter page view hints) : j ∈ l.kept registry filter page := by
  rw [listed, Page.cut] at h
  split at h
  · exact List.mem_mergeSort.1 (List.mem_of_mem_take h)
  · exact List.mem_mergeSort.1 h

section Kept

variable {registry : Registry} {filter : Filter} {page : Page} {xs : List (Shown l)}

theorem Ledger.Decodes.exists_shown_kept (h : l.Decodes) (registry : Registry) (filter : Filter)
    (page : Page) : ∃ xs : List (Shown l), xs.map Shown.joined = l.kept registry filter page := by
  have hrange : l.kept registry filter page ∈ Set.range (List.map (Shown.joined (l := l))) := by
    rw [Set.range_list_map]
    intro j hj
    obtain ⟨row, hrow, hof⟩ := List.mem_filterMap.1 (List.mem_of_mem_filter hj)
    exact h.exists_shown hrow hof
  exact hrange

theorem Ledger.Decodes.nodup_kept (h : l.Decodes)
    (hxs : xs.map Shown.joined = l.kept registry filter page) :
    (xs.map fun x => x.view.id).Nodup := by
  have hids : xs.map (fun x => x.view.id) =
      ((l.kept registry filter page).map Joined.envelope).map EnvelopeRow.id := by
    rw [← hxs, List.map_map, List.map_map]
    exact List.map_congr_left fun x _ => x.id_eq.symm
  have hsub : ((l.kept registry filter page).map Joined.envelope).Sublist l.envelopes :=
    (List.filter_sublist.map _).trans (Joined.sublist_envelopes _)
  rw [hids]
  exact h.nodup.sublist (hsub.map _)

/-- The views of the kept rows are the ones that can be found and that the filter admits. -/
theorem Ledger.Decodes.mem_views_iff (h : l.Decodes)
    (hxs : xs.map Shown.joined = l.kept registry filter page) {v : View} :
    v ∈ xs.map Shown.view ↔ l.find? v.id = .ok (some v) ∧ filter.Admits registry v ∧
      ∀ id ∈ page.fromId, id ≤ v.id := by
  have hkept (x : Shown l) : x.joined ∈ l.kept registry filter page ↔
      x.joined ∈ l.envelopes.filterMap (Joined.of? l) ∧ filter.Admits registry x.view ∧
        ∀ id ∈ page.fromId, id ≤ x.view.id := by
    rw [Ledger.kept, List.mem_filter, Bool.and_eq_true, x.keeps_iff, Option.all_eq_true]
    simp only [decide_eq_true_eq, x.id_eq, Option.mem_def]
  constructor
  · intro hv
    obtain ⟨x, hx, rfl⟩ := List.mem_map.1 hv
    exact ⟨x.find? h, ((hkept x).1 (hxs ▸ List.mem_map_of_mem hx)).2⟩
  · rintro ⟨hfind, hadmits⟩
    obtain ⟨row, hrow, -, hview⟩ := Ledger.find?_eq_some hfind
    obtain ⟨solicitation, state, -, hstate, -⟩ := Ledger.viewOf_eq_ok hview
    obtain ⟨log, hlog, hof⟩ := Ledger.state?_eq_ok_iff.1 hstate
    cases hj : Joined.of? l row with
    | none =>
      rw [Joined.of?_eq_none_iff hlog] at hj
      rw [State.ofEvents?_eq_none_iff.2 hj] at hof
      cases hof
    | some j =>
      obtain ⟨x, rfl⟩ := h.exists_shown hrow hj
      have henvelope := Joined.envelope_of? hj
      have hxv : x.view = v := x.view_eq (henvelope ▸ hview)
      have hmem : x.joined ∈ xs.map Shown.joined := by
        rw [hxs, hkept, hxv]
        exact ⟨List.mem_filterMap.2 ⟨row, hrow, hj⟩, hadmits⟩
      obtain ⟨y, hy, hyx⟩ := List.mem_map.1 hmem
      have hyv : y.view = v := y.view_eq (hyx ▸ henvelope ▸ hview)
      exact List.mem_map.2 ⟨y, hy, hyv⟩

end Kept

/-- Where there is an event, there is a view. -/
theorem Ledger.Decodes.exists_find? (h : l.Decodes) {row : EnvelopeRow}
    (hrow : row ∈ l.envelopes) (hwritten : l.written row.id ≠ []) :
    ∃ v, v.id = row.id ∧ l.find? row.id = .ok (some v) := by
  obtain ⟨log, hlog⟩ := h.exists_logs row.id
  cases hj : Joined.of? l row with
  | none =>
    rw [Joined.of?_eq_none_iff hlog] at hj
    rw [hlog, hj] at hwritten
    exact absurd rfl hwritten
  | some j =>
    obtain ⟨x, rfl⟩ := h.exists_shown hrow hj
    have hid : row.id = x.view.id := Joined.envelope_of? hj ▸ x.id_eq
    exact ⟨x.view, hid.symm, hid ▸ x.find? h⟩

/-- What the program writes can be read. -/
theorem Ledger.decodes_of_written {log : List Event}
    (henvelopes : ∀ row ∈ l.envelopes, ∃ (id : Int) (new : NewSolicitation) (requesterId : String)
      (groupId : Option String), new.params.Fits new.equipment ∧
        row = EnvelopeRow.of id new requesterId groupId)
    (hevents : l.events = log.map EventRow.of) (hnodup : (l.envelopes.map EnvelopeRow.id).Nodup)
    (hbounded : l.envelopes.length < noLimit) : l.Decodes where
  envelopes := by
    intro row hrow
    obtain ⟨id, new, requesterId, groupId, hfits, rfl⟩ := henvelopes row hrow
    exact ⟨EnvelopeRow.check_of .., _, EnvelopeRow.read_of hfits⟩
  events := by
    intro row hrow
    rw [hevents] at hrow
    obtain ⟨e, -, rfl⟩ := List.mem_map.1 hrow
    exact ⟨e, EventRow.read_of e⟩
  nodup := hnodup
  bounded := hbounded

theorem Service.holding_decodes (log : List Event) (now : Int) :
    (Service.holding log now).ledger.Decodes := by
  refine Ledger.decodes_of_written (fun row hrow => ?_) rfl (List.nodup_singleton _) ?_
  · rw [List.mem_singleton.1 hrow]
    exact ⟨1, ⟨.reactor, .turnOn, "MOS", "CTEEP", .switched 1 false none⟩, "ana", none, .inr rfl,
      rfl⟩
  · exact (by decide : 1 < noLimit)

/-! ## The whole list -/

/-- The views that a filter admits from an id on, each once, in the order of the hints. -/
structure Ledger.Lists (l : Ledger) (registry : Registry) (filter : Filter) (fromId : Option Int)
    (view : SortView) (hints : List SortHint) (all : List View) : Prop where
  mem_iff : ∀ v, v ∈ all ↔ l.find? v.id = .ok (some v) ∧ filter.Admits registry v ∧
    ∀ id ∈ fromId, id ≤ v.id
  sorted : all.Pairwise fun a b => ListedBefore view a b hints
  nodup : (all.map View.id).Nodup
  dated : ∀ v ∈ all, v.Dated

theorem Ledger.Lists.unique {registry : Registry} {filter : Filter} {fromId : Option Int}
    {view : SortView} {hints : List SortHint} {all all' : List View}
    (h : l.Lists registry filter fromId view hints all)
    (h' : l.Lists registry filter fromId view hints all') : all = all' := by
  have hperm : all.Perm all' := by
    refine (List.perm_ext_iff_of_nodup (.of_map _ h.nodup) (.of_map _ h'.nodup)).2 fun v => ?_
    rw [h.mem_iff, h'.mem_iff]
  refine hperm.eq_of_pairwise (fun a b _ _ hab hba => ?_) h.sorted h'.sorted
  exact absurd hba hab.asymm

/-- Within the bounds of the storage, the query answers the beginning of the whole list. -/
theorem Ledger.Decodes.exists_lists (h : l.Decodes) (registry : Registry) (filter : Filter)
    (page : Page) (view : SortView) (hints : List SortHint) :
    ∃ all, l.Lists registry filter page.fromId view (SortHint.orStatus hints) all ∧
      (ListQuery.values filter page ≤ valueBound →
        SortHint.keyCount (SortHint.orStatus hints) ≤ keyBound →
        l.query registry filter page view hints = .ok (all.take page.limit)) := by
  obtain ⟨xs, hxs⟩ := h.exists_shown_kept registry filter page
  have hnodup := h.nodup_kept hxs
  let sorted := xs.mergeSort (Shown.le view (SortHint.orStatus hints))
  have hperm : sorted.Perm xs := List.mergeSort_perm xs _
  have hrows : l.listed registry filter page view hints =
      (sorted.take page.limit).map Shown.joined := by
    have hlength : (sorted.map Shown.joined).length < noLimit := by
      have hkept : (l.kept registry filter page).length ≤ l.envelopes.length :=
        (List.length_filter_le ..).trans (List.length_filterMap_le ..)
      rw [List.length_map, hperm.length_eq, ← List.length_map Shown.joined, hxs]
      exact Nat.lt_of_le_of_lt hkept h.bounded
    rw [List.map_take, ← page.cut_eq_take hlength, Shown.map_joined_mergeSort, hxs]
    rfl
  refine ⟨sorted.map Shown.view, ⟨fun v => ?_, Shown.listedBefore view _ hnodup, ?_, ?_⟩,
    fun hvalues hkeys => ?_⟩
  · exact (hperm.map Shown.view).mem_iff.trans (h.mem_views_iff hxs)
  · rw [List.map_map]
    exact (hperm.map fun x => x.view.id).symm.nodup hnodup
  · intro v hv
    obtain ⟨x, -, rfl⟩ := List.mem_map.1 hv
    exact x.dated
  · rw [query, if_neg (Nat.not_lt.2 hvalues), if_neg (Nat.not_lt.2 hkeys), hrows]
    refine bind_eq_ok_iff.2 ⟨(), forM_eq_ok_iff.2 fun j hj => ?_, mapM_eq_ok_iff.2 ?_⟩
    · obtain ⟨x, -, rfl⟩ := List.mem_map.1 hj
      exact x.check
    · rw [← List.map_take, List.forall₂_map_left_iff, List.forall₂_map_right_iff,
        List.forall₂_same]
      exact fun x _ => x.viewOf

/-- Within the bounds of the storage, the query answers the beginning of the list of all views that
the filter admits, in the order of the hints. -/
theorem Ledger.query_eq_take (h : l.Decodes) (registry : Registry) (filter : Filter) (page : Page)
    (view : SortView) (hints : List SortHint)
    (hvalues : ListQuery.values filter page ≤ valueBound)
    (hkeys : SortHint.keyCount (SortHint.orStatus hints) ≤ keyBound) :
    (∀ row ∈ l.envelopes, l.written row.id ≠ [] →
      ∃ v, v.id = row.id ∧ l.find? row.id = .ok (some v)) ∧
    ∃ all : List View,
      (∀ v, v ∈ all ↔ l.find? v.id = .ok (some v) ∧ filter.Admits registry v ∧
        ∀ id ∈ page.fromId, id ≤ v.id) ∧
      all.Pairwise (fun a b => ListedBefore view a b (SortHint.orStatus hints)) ∧
      (all.map View.id).Nodup ∧ (∀ v ∈ all, v.Dated) ∧
      l.query registry filter page view hints = .ok (all.take page.limit) := by
  refine ⟨fun row hrow hwritten => h.exists_find? hrow hwritten, ?_⟩
  obtain ⟨all, hlists, hanswer⟩ := h.exists_lists registry filter page view hints
  exact ⟨all, hlists.mem_iff, hlists.sorted, hlists.nodup, hlists.dated, hanswer hvalues hkeys⟩

/-- A solicitation that is blocked, and the operator's view of it. -/
theorem Ledger.query_of_blocked :
    let l := (Service.holding
      [⟨1, 1, some "ana", .new, 10, none⟩, ⟨2, 1, some "tito", .blocked, 30, none⟩] 0).ledger
    let filter : Filter := ⟨some "CTEEP", ["PIR", "MOS"], none, true⟩
    let page : Page := ⟨some 1, 50⟩
    let hints := [SortHint.creationTime, .status]
    l.Decodes ∧ ListQuery.values filter page ≤ valueBound ∧
      SortHint.keyCount (SortHint.orStatus hints) ≤ keyBound ∧
      (∀ row ∈ l.envelopes, l.written row.id ≠ [] →
        ∃ v, v.id = row.id ∧ l.find? row.id = .ok (some v)) ∧
      ∃ all : List View,
        (∀ v, v ∈ all ↔ l.find? v.id = .ok (some v) ∧ filter.Admits .empty v ∧
          ∀ id ∈ page.fromId, id ≤ v.id) ∧
        all.Pairwise (fun a b => ListedBefore .operator a b (SortHint.orStatus hints)) ∧
        (all.map View.id).Nodup ∧ (∀ v ∈ all, v.Dated) ∧
        l.query .empty filter page .operator hints = .ok (all.take page.limit) := by
  intro l filter page hints
  have hdecodes : l.Decodes := Service.holding_decodes _ 0
  have hvalues : ListQuery.values filter page ≤ valueBound := by decide
  have hkeys : SortHint.keyCount (SortHint.orStatus hints) ≤ keyBound := by decide
  exact ⟨hdecodes, hvalues, hkeys,
    Ledger.query_eq_take hdecodes .empty filter page .operator hints hvalues hkeys⟩

theorem SortHint.keyCount_replicate (n : Nat) (hint : SortHint) :
    keyCount (List.replicate n hint) = hint.keys * n + 1 := by
  induction n with
  | zero => rfl
  | succ n ih =>
    rw [List.replicate_succ, keyCount, ih, Nat.mul_succ]
    omega

/-- A list cannot be sorted by the status a thousand times over, and it cannot be asked for as many
substations as the storage takes values, since the limit is a value too. -/
theorem Ledger.not_query_of_overlong :
    let l := (Service.holding [⟨1, 1, some "ana", .new, 10, none⟩] 0).ledger
    l.Decodes ∧
      (¬ ∃ views, l.query .empty ⟨none, [], none, false⟩ ⟨none, 50⟩ .operator
        (List.replicate 1000 .status) = .ok views) ∧
      ¬ ∃ views, l.query .empty ⟨none, List.replicate 32766 "MOS", none, false⟩ ⟨none, 50⟩ .operator
        [] = .ok views := by
  intro l
  refine ⟨Service.holding_decodes _ 0, ?_, ?_⟩
  · have hkeys : keyBound <
        SortHint.keyCount (SortHint.orStatus (List.replicate 1000 .status)) := by
      change keyBound < SortHint.keyCount (List.replicate 1000 .status)
      rw [SortHint.keyCount_replicate]
      decide
    rintro ⟨views, hviews⟩
    rw [query, if_neg (by decide), if_pos hkeys] at hviews
    cases hviews
  · have hvalues : valueBound < ListQuery.values
        ⟨none, List.replicate 32766 "MOS", none, false⟩ ⟨none, 50⟩ := by
      rw [ListQuery.values, List.length_replicate]
      decide
    rintro ⟨views, hviews⟩
    rw [query, if_pos hvalues] at hviews
    cases hviews

end GridDispatch
