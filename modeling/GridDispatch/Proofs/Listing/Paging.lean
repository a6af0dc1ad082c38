import GridDispatch.Proofs.Listing.Asked
import GridDispatch.Proofs.Listing.Query
import GridDispatch.Proofs.Settings

/-!
# What can be reached by paging

A page begins at an id, but its rows are sorted by the hints before the limit cuts them off. Main
statement: `Service.reachable_iff`. A solicitation is on some page of a list exactly if fewer than a
page of those with greater ids come before it, and then it is on the page that begins at its own id.
So paging does not reach everything: `Service.not_reachable_of_canceled` shows a solicitation that
is on no page.
-/

namespace GridDispatch

variable {view : SortView} {hints : List SortHint} {v w : View}

/-- The view comes before another in a list that is sorted by the hints. -/
def View.before (view : SortView) (hints : List SortHint) (a b : View) : Bool :=
  View.order view hints a b == .lt

theorem View.before_iff : before view hints v w = true ↔ ListedBefore view v w hints := by
  rw [before, beq_iff_eq, View.order_eq_lt_iff]

theorem View.before_eq_false (h : ¬ ListedBefore view v w hints) :
    before view hints v w = false := by
  rwa [Bool.eq_false_iff, ne_eq, before_iff]

/-- The storage takes a query only within its bounds, and what it answers are views of envelopes. -/
theorem Ledger.query_eq_ok {l : Ledger} {registry : Registry} {filter : Filter} {page : Page}
    {views : List View} (h : l.query registry filter page view hints = .ok views) :
    (ListQuery.values filter page ≤ valueBound ∧
      SortHint.keyCount (SortHint.orStatus hints) ≤ keyBound) ∧
      ∀ v ∈ views, ∃ row ∈ l.envelopes, l.viewOf row = .ok v := by
  simp only [query] at h
  split at h
  · cases h
  · split at h
    · cases h
    · refine ⟨⟨Nat.not_lt.1 ‹_›, Nat.not_lt.1 ‹_›⟩, fun v hv => ?_⟩
      obtain ⟨⟨⟩, -, hviews⟩ := bind_eq_ok_iff.1 h
      obtain ⟨j, hj, hview⟩ := (exists_of_forall₂ (mapM_eq_ok_iff.1 hviews)).2 v hv
      obtain ⟨row, hrow, hof⟩ :=
        List.mem_filterMap.1 (List.mem_of_mem_filter (mem_kept_of_listed hj))
      exact ⟨j.envelope, Joined.envelope_of? hof ▸ hrow, hview⟩

namespace Service

variable {s : Service} {viewer : String} {r : ListRequest} {all : List View}

/-! ## The whole list of a request -/

/-- The views that a request asks for, from its id on, each once and in the order of the hints. -/
structure Lists (s : Service) (viewer : String) (r : ListRequest) (hints : List SortHint)
    (all : List View) : Prop where
  mem_iff : ∀ v, v ∈ all ↔ s.ledger.find? v.id = .ok (some v) ∧
    r.Asks s.directory.registry viewer v ∧ ∀ id ∈ r.fromId, id ≤ v.id
  sorted : all.Pairwise fun a b =>
    ListedBefore (.ofCompanyCode viewer) a b (SortHint.orStatus hints)
  nodup : (all.map View.id).Nodup

/-- A valid request is answered with the beginning of its list, as far as its limit goes, if the
storage takes the question. -/
theorem exists_lists (hd : s.ledger.Decodes) (hpermits : s.Permits viewer r)
    (hhints : readHints r.sort = .ok hints) :
    ∃ all, s.Lists viewer r hints all ∧ ∀ response, s.list viewer r = .ok response ↔
      ∃ limit, s.settings.listLimit? r.limit = some limit ∧
        (ListQuery.values r.filter ⟨r.fromId, limit⟩ ≤ valueBound ∧
          SortHint.keyCount (SortHint.orStatus hints) ≤ keyBound) ∧
        response = ⟨all.take limit, (all.take limit).length⟩ := by
  obtain ⟨all, hlists, hquery⟩ := hd.exists_lists s.directory.registry r.filter
    ⟨r.fromId, s.settings.listLimit r.limit⟩ (.ofCompanyCode viewer) hints
  refine ⟨all, ⟨fun v => ?_, hlists.sorted, hlists.nodup⟩, fun response => ?_⟩
  · rw [hlists.mem_iff, hpermits.admits_iff]
  · rw [list_eq_ok_iff]
    constructor
    · rintro ⟨-, hints', limit, views, hhints', hlimit, hviews, rfl⟩
      cases hhints.symm.trans hhints'
      obtain rfl := Settings.listLimit_of_listLimit? hlimit
      obtain ⟨hbounds, -⟩ := Ledger.query_eq_ok hviews
      cases (hquery hbounds.1 hbounds.2).symm.trans hviews
      exact ⟨_, hlimit, hbounds, rfl⟩
    · rintro ⟨limit, hlimit, hbounds, rfl⟩
      obtain rfl := Settings.listLimit_of_listLimit? hlimit
      exact ⟨hpermits, hints, _, _, hhints, hlimit, hquery hbounds.1 hbounds.2, rfl⟩

/-- The views that stand before `v` on a page that begins at its id. -/
structure Ahead (s : Service) (viewer : String) (r : ListRequest) (hints : List SortHint) (v : View)
    (ahead : List View) : Prop where
  nodup : ahead.Nodup
  mem_iff : ∀ w, w ∈ ahead ↔ s.ledger.find? w.id = .ok (some w) ∧
    r.Asks s.directory.registry viewer w ∧ v.id < w.id ∧
    ListedBefore (.ofCompanyCode viewer) w v (SortHint.orStatus hints)

namespace Lists

theorem mem_take_iff (h : s.Lists viewer r hints all) (hv : v ∈ all) (n : Nat) :
    v ∈ all.take n ↔
      (all.filter (View.before (.ofCompanyCode viewer) (SortHint.orStatus hints) · v)).length < n :=
  mem_take_iff_of_pairwise
    (h.sorted.imp fun hab => ⟨View.before_iff.2 hab, View.before_eq_false hab.asymm⟩)
    (View.before_eq_false fun hself => hself.asymm hself) hv n

/-- In a list that begins at its id, what comes before a view is what is ahead of it. -/
theorem ahead (h : s.Lists viewer { r with fromId := some v.id } hints all) (hv : v ∈ all) :
    s.Ahead viewer r hints v
      (all.filter (View.before (.ofCompanyCode viewer) (SortHint.orStatus hints) · v)) where
  nodup := (List.Nodup.of_map _ h.nodup).filter _
  mem_iff w := by
    rw [List.mem_filter, h.mem_iff, ListRequest.asks_fromId_iff, View.before_iff]
    constructor
    · rintro ⟨⟨hfind, hasks, hid⟩, hbefore⟩
      refine ⟨hfind, hasks, lt_of_le_of_ne (hid _ rfl) fun heq => ?_, hbefore⟩
      have hsame := ((h.mem_iff v).1 hv).1
      rw [heq, hfind] at hsame
      cases hsame
      exact hbefore.asymm hbefore
    · rintro ⟨hfind, hasks, hid, hbefore⟩
      refine ⟨⟨hfind, hasks, fun id heq => ?_⟩, hbefore⟩
      cases heq
      exact hid.le

/-- In any list, what is ahead of a view comes before it. -/
theorem length_le_of_ahead {start : Option Int}
    (h : s.Lists viewer { r with fromId := start } hints all) (hv : v ∈ all) {ahead : List View}
    (hahead : s.Ahead viewer r hints v ahead) : ahead.length ≤
      (all.filter (View.before (.ofCompanyCode viewer) (SortHint.orStatus hints) · v)).length := by
  refine (List.subperm_of_subset hahead.nodup fun w hw => ?_).length_le
  obtain ⟨hfind, hasks, hid, hbefore⟩ := (hahead.mem_iff w).1 hw
  have hlisted : w ∈ all := by
    refine (h.mem_iff w).2 ⟨hfind, (ListRequest.asks_fromId_iff start).2 hasks, fun id heq => ?_⟩
    exact (((h.mem_iff v).1 hv).2.2 id heq).trans hid.le
  exact List.mem_filter.2 ⟨hlisted, View.before_iff.2 hbefore⟩

end Lists

/-! ## Pages -/

/-- The solicitation is on the page that begins at the id. -/
def Shows (s : Service) (viewer : String) (r : ListRequest) (start : Int) (v : View) : Prop :=
  ∃ response, s.list viewer { r with fromId := some start } = .ok response ∧
    v ∈ response.solicitations

theorem exists_shows_iff (hd : s.ledger.Decodes) (hpermits : s.Permits viewer r)
    (hhints : readHints r.sort = .ok hints) (start : Int) (v : View) :
    ∃ all, s.Lists viewer { r with fromId := some start } hints all ∧
      (s.Shows viewer r start v ↔
        (ListQuery.values r.filter ⟨some start, s.settings.listLimit r.limit⟩ ≤ valueBound ∧
          SortHint.keyCount (SortHint.orStatus hints) ≤ keyBound) ∧
        v ∈ all.take (s.settings.listLimit r.limit)) := by
  obtain ⟨all, hlists, hlist⟩ := exists_lists hd (hpermits.fromId (some start)) hhints
  refine ⟨all, hlists, ?_⟩
  constructor
  · rintro ⟨response, hresponse, hv⟩
    obtain ⟨limit, hlimit, hbounds, rfl⟩ := (hlist response).1 hresponse
    obtain rfl := Settings.listLimit_of_listLimit? hlimit
    exact ⟨hbounds, hv⟩
  · rintro ⟨hbounds, hv⟩
    cases hlimit : s.settings.listLimit? r.limit with
    | none =>
      -- without a limit nothing is among the rows
      rw [Settings.listLimit, hlimit, Option.getD_none, List.take_zero] at hv
      cases hv
    | some limit =>
      rw [Settings.listLimit_of_listLimit? hlimit] at hbounds hv
      exact ⟨_, (hlist _).2 ⟨limit, hlimit, hbounds, rfl⟩, hv⟩

/-- A solicitation that a valid request asks for is on some page of its list exactly if the storage
takes the request and fewer solicitations of greater ids come before it than a page shows; it is
then on the page that begins at its own id. -/
theorem reachable_iff (hd : s.ledger.Decodes) (hpermits : s.Permits viewer r)
    (hhints : readHints r.sort = .ok hints) (hfind : s.ledger.find? v.id = .ok (some v))
    (hasks : r.Asks s.directory.registry viewer v) :
    ∃ ahead, s.Ahead viewer r hints v ahead ∧
      ((∃ start, s.Shows viewer r start v) ↔
        (ListQuery.values r.filter ⟨some v.id, s.settings.listLimit r.limit⟩ ≤ valueBound ∧
          SortHint.keyCount (SortHint.orStatus hints) ≤ keyBound) ∧
        ahead.length < s.settings.listLimit r.limit) ∧
      ((∃ start, s.Shows viewer r start v) → s.Shows viewer r v.id v) := by
  obtain ⟨all, hlists, hshows⟩ := exists_shows_iff hd hpermits hhints v.id v
  have hv : v ∈ all := by
    refine (hlists.mem_iff v).2 ⟨hfind, (ListRequest.asks_fromId_iff _).2 hasks, fun id heq => ?_⟩
    cases heq
    rfl
  have hahead := hlists.ahead hv
  have hown : s.Shows viewer r v.id v ↔ _ := hshows
  rw [hlists.mem_take_iff hv] at hown
  have hany : (∃ start, s.Shows viewer r start v) → s.Shows viewer r v.id v := by
    rintro ⟨start, hstart⟩
    obtain ⟨others, hothers, hshows⟩ := exists_shows_iff hd hpermits hhints start v
    obtain ⟨hbounds, htake⟩ := hshows.1 hstart
    have hv' : v ∈ others := List.mem_of_mem_take htake
    have hlt := (hothers.mem_take_iff hv' _).1 htake
    exact hown.2 ⟨hbounds, (hothers.length_le_of_ahead hv' hahead).trans_lt hlt⟩
  exact ⟨_, hahead, ⟨fun h => hown.1 (hany h), fun h => ⟨v.id, hown.2 h⟩⟩, hany⟩

/-- Two solicitations of CTEEP of the same second, of which the first was canceled. -/
def halfCanceled : Service where
  ledger :=
    { Ledger.empty with
      envelopes := [1, 2].map fun id => .of id
        ⟨.reactor, .turnOn, "MOS", "CTEEP", .switched 1 false none⟩ "ana" none
      events := [⟨1, 1, some "ana", .new, 100, none⟩, ⟨2, 2, some "ana", .new, 100, none⟩,
        ⟨3, 1, some "ana", .canceled, 200, none⟩].map EventRow.of
      lastEnvelope := 2
      lastEvent := 3 }
  directory := ⟨.empty, []⟩
  settings := .default
  bus := .silent
  now := 300

theorem halfCanceled_decodes : halfCanceled.ledger.Decodes := by
  refine Ledger.decodes_of_written (fun row hrow => ?_) rfl (by decide) (by decide : 2 < noLimit)
  obtain ⟨id, -, rfl⟩ := List.mem_map.1 hrow
  exact ⟨id, ⟨.reactor, .turnOn, "MOS", "CTEEP", .switched 1 false none⟩, "ana", none, .inr rfl,
    rfl⟩

/-- The view of the solicitation that was canceled, and that of the new one. -/
def canceledView : View :=
  ⟨⟨1, .reactor, .turnOn, "MOS", "CTEEP", .switched 1 false none, "ana", none⟩, .canceled, 100, 200,
    [⟨3, 1, some "ana", .canceled, 200, none⟩, ⟨1, 1, some "ana", .new, 100, none⟩]⟩

def newView : View :=
  ⟨⟨2, .reactor, .turnOn, "MOS", "CTEEP", .switched 1 false none, "ana", none⟩, .new, 100, 100,
    [⟨2, 2, some "ana", .new, 100, none⟩]⟩

/-- CTEEP lists all that it has, so many a page. -/
def listAll (limit : Nat) : ListRequest := ⟨some "CTEEP", [], none, false, none, some limit, []⟩

theorem halfCanceled_permits (limit : Nat) : halfCanceled.Permits "CTEEP" (listAll limit) where
  own _ := ⟨"CTEEP", rfl, by cbv, by decide⟩
  known := by
    rintro code ⟨text, htext, rfl, -⟩
    cases htext
    exact ⟨.cteep, by cbv⟩
  table := nofun
  substation := nofun

theorem listAll_asks {limit : Nat} {v : View} (h : v.solicitation.companyCode = "CTEEP") :
    (listAll limit).Asks .empty "CTEEP" v where
  own _ := h
  company := by
    rintro code ⟨text, htext, rfl, -⟩
    cases htext
    rw [h]
    cbv
  substation := nofun
  table := nofun
  expired := nofun

/-- Two solicitations a page are enough to see the one that was canceled. -/
theorem reachable_iff_of_pair :
    halfCanceled.ledger.Decodes ∧ halfCanceled.Permits "CTEEP" (listAll 2) ∧
      readHints (listAll 2).sort = .ok [] ∧
      halfCanceled.ledger.find? canceledView.id = .ok (some canceledView) ∧
      (listAll 2).Asks halfCanceled.directory.registry "CTEEP" canceledView ∧
      halfCanceled.Shows "CTEEP" (listAll 2) 1 canceledView ∧
      ∃ ahead, halfCanceled.Ahead "CTEEP" (listAll 2) [] canceledView ahead ∧ ahead.length < 2 := by
  have hd := halfCanceled_decodes
  have hpermits := halfCanceled_permits 2
  have hfind : halfCanceled.ledger.find? canceledView.id = .ok (some canceledView) := by cbv
  have hasks : (listAll 2).Asks halfCanceled.directory.registry "CTEEP" canceledView :=
    listAll_asks rfl
  have hshown : halfCanceled.Shows "CTEEP" (listAll 2) 1 canceledView :=
    ⟨⟨[newView, canceledView], 2⟩,
      list_eq_ok_iff.2 ⟨hpermits.fromId (some 1), [], 2, _, rfl, rfl, by cbv, rfl⟩,
      List.mem_cons_of_mem _ (List.mem_singleton_self _)⟩
  obtain ⟨ahead, hahead, hreachable, -⟩ := reachable_iff hd hpermits rfl hfind hasks
  exact ⟨hd, hpermits, rfl, hfind, hasks, hshown, ahead, hahead, (hreachable.1 ⟨1, hshown⟩).2⟩

/-- A service whose one solicitation is of an equipment that nobody knows. -/
def illegible : Service :=
  { halfCanceled with
    ledger := { halfCanceled.ledger with
      envelopes := [{ EnvelopeRow.of 1 ⟨.reactor, .turnOn, "MOS", "CTEEP", .switched 1 false none⟩
        "ana" none with equipment := "GENERATOR" }] } }

/-- With one solicitation a page, the one that was canceled is on no page: the new one has a greater
id and comes before it. And what cannot be read is on no page, however long. -/
theorem not_reachable_of_canceled :
    (halfCanceled.ledger.Decodes ∧ (∃ texts, Settings.load texts = .ok halfCanceled.settings) ∧
      (∃ response, halfCanceled.list "CTEEP" (listAll 1) = .ok response) ∧
      halfCanceled.Permits "CTEEP" (listAll 1) ∧
      halfCanceled.ledger.find? canceledView.id = .ok (some canceledView) ∧
      (listAll 1).Asks halfCanceled.directory.registry "CTEEP" canceledView ∧
      ¬ ∃ start, halfCanceled.Shows "CTEEP" (listAll 1) start canceledView) ∧
    illegible.ledger.kept illegible.directory.registry (listAll 50).filter ⟨none, 50⟩ ≠ [] ∧
      ¬ ∃ start v, illegible.Shows "CTEEP" (listAll 50) start v := by
  have hpermits := halfCanceled_permits 1
  have hlisted : halfCanceled.list "CTEEP" (listAll 1) = .ok ⟨[newView], 1⟩ :=
    list_eq_ok_iff.2 ⟨hpermits, [], 1, _, rfl, rfl, by cbv, rfl⟩
  refine ⟨⟨halfCanceled_decodes, ⟨.empty, by cbv⟩, ⟨_, hlisted⟩, hpermits, by cbv,
    listAll_asks rfl, ?_⟩, ?_, ?_⟩
  · rintro ⟨start, hstart⟩
    obtain ⟨all, hlists, hshows⟩ :=
      exists_shows_iff halfCanceled_decodes hpermits rfl start canceledView
    obtain ⟨-, htake⟩ := hshows.1 hstart
    have hv : canceledView ∈ all := List.mem_of_mem_take htake
    have hfew := (hlists.mem_take_iff hv _).1 htake
    have hstart' : ∀ id ∈ some start, id ≤ newView.id := fun id hid =>
      (((hlists.mem_iff canceledView).1 hv).2.2 id hid).trans (by decide)
    have hasks : (listAll 1).Asks .empty "CTEEP" newView := listAll_asks rfl
    have hnew : newView ∈ all := (hlists.mem_iff newView).2
      ⟨by cbv, (ListRequest.asks_fromId_iff (some start)).2 hasks, hstart'⟩
    have hbefore : View.before .transmission [.status] newView canceledView = true :=
      View.before_iff.2 (.inl (.inl (by decide)))
    have hahead : newView ∈ all.filter (View.before .transmission [.status] · canceledView) :=
      List.mem_filter.2 ⟨hnew, hbefore⟩
    exact absurd (List.length_pos_of_mem hahead) (Nat.not_lt.2 (Nat.le_of_lt_succ hfew))
  · intro hnone
    have hone : (illegible.ledger.kept illegible.directory.registry (listAll 50).filter
        ⟨none, 50⟩).length = 1 := by cbv
    rw [hnone] at hone
    cases hone
  · rintro ⟨start, v, response, hlist, hv⟩
    obtain ⟨-, hints, limit, views, -, -, hviews, rfl⟩ := list_eq_ok_iff.1 hlist
    obtain ⟨row, hrow, hview⟩ := (Ledger.query_eq_ok hviews).2 v hv
    rw [List.mem_singleton.1 hrow] at hview
    cases hview

end Service

end GridDispatch
