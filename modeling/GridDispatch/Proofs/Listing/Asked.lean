import GridDispatch.Proofs.Checked
import GridDispatch.Proofs.Listing.Shown
import GridDispatch.Workflow.Browse

/-!
# What a list request asks for

A viewer may make a list request, or not (`Service.Permits`), and a solicitation is asked for by it,
or not (`ListRequest.Asks`). Both are said by the request and the viewer alone, in the texts as they
arrive with blanks around them. Main statements: a request has a filter exactly if the viewer may
make it (`Service.listFilter_eq_ok_iff`), and the filter admits just what is asked for
(`Service.Permits.admits_iff`). It is answered with a list exactly if besides the hints can be read,
the limits are not crossed and the query answers (`Service.list_eq_ok_iff`).
-/

namespace GridDispatch

theorem Text.filled?_eq_some_iff {s t : String} : filled? s = some t ↔ trim s = t ∧ t ≠ "" := by
  rw [filled?]
  split
  · rename_i hblank
    rw [hblank]
    exact ⟨nofun, fun ⟨heq, hne⟩ => absurd heq.symm hne⟩
  · rename_i hfilled
    rw [Option.some_inj]
    exact ⟨fun heq => ⟨heq, heq ▸ hfilled⟩, And.left⟩

theorem filledCode_eq_some_iff {code : Option String} {t : String} :
    filledCode code = some t ↔ ∃ text ∈ code, Text.trim text = t ∧ t ≠ "" := by
  rw [filledCode, Option.bind_eq_some_iff]
  exact exists_congr fun text => and_congr_right fun _ => Text.filled?_eq_some_iff

namespace ListRequest

variable {r : ListRequest} {code viewer : String} {registry : Registry} {v : View}

/-- The request gives the company, maybe with blanks around the code. -/
def NamesCompany (r : ListRequest) (code : String) : Prop :=
  ∃ text ∈ r.companyCode, Text.trim text = code ∧ code ≠ ""

def NamesTable (r : ListRequest) (code : String) : Prop :=
  ∃ text ∈ r.tableCode, Text.trim text = code ∧ code ≠ ""

/-- The substation is one of those that the request gives. -/
def NamesSubstation (r : ListRequest) (code : String) : Prop :=
  ∃ text ∈ r.substations, Text.trim text = code ∧ code ≠ ""

/-- The viewer may see the solicitation, and it is one of those that the request asks for. -/
structure Asks (r : ListRequest) (registry : Registry) (viewer : String) (v : View) : Prop where
  /-- Nobody but the operator sees solicitations of others. -/
  own : viewer ≠ Company.operatorCode → v.solicitation.companyCode = viewer
  company : ∀ code, r.NamesCompany code → v.solicitation.companyCode = code
  /-- If substations are given, it is of one of them. -/
  substation : (∃ code, r.NamesSubstation code) → r.NamesSubstation v.solicitation.substationCode
  /-- If a table is given, the substation of the solicitation is now in it. -/
  table : ∀ code, r.NamesTable code → ∃ s ∈ registry.substations,
    s.companyCode = v.solicitation.companyCode ∧ s.code = v.solicitation.substationCode ∧
      s.tableCode = some code
  expired : r.excludeExpired = true → v.status ≠ .late

/-- What is asked for does not depend on where a page begins. -/
theorem asks_fromId_iff (start : Option Int) :
    ({ r with fromId := start } : ListRequest).Asks registry viewer v ↔ r.Asks registry viewer v :=
  ⟨fun h => ⟨h.own, h.company, h.substation, h.table, h.expired⟩,
    fun h => ⟨h.own, h.company, h.substation, h.table, h.expired⟩⟩

/-- The filter that a request comes to. -/
def filter (r : ListRequest) : Filter where
  companyCode := filledCode r.companyCode
  substations := r.substations.filterMap Text.filled?
  tableCode := filledCode r.tableCode
  excludeExpired := r.excludeExpired

theorem mem_filter_substations : code ∈ r.filter.substations ↔ r.NamesSubstation code := by
  rw [filter, List.mem_filterMap]
  exact exists_congr fun text => and_congr_right fun _ => Text.filled?_eq_some_iff

theorem filter_substations_eq_nil_iff :
    r.filter.substations = [] ↔ ¬ ∃ code, r.NamesSubstation code := by
  simp only [List.eq_nil_iff_forall_not_mem, mem_filter_substations, not_exists]

theorem filter_companyCode_eq_some_iff :
    r.filter.companyCode = some code ↔ r.NamesCompany code := filledCode_eq_some_iff

theorem filter_tableCode_eq_some_iff :
    r.filter.tableCode = some code ↔ r.NamesTable code := filledCode_eq_some_iff

end ListRequest

/-- The viewer may make the list request: none but the operator leaves the company out or gives
another, the company is known, and the table and the substations that are given exist there. -/
structure Service.Permits (s : Service) (viewer : String) (r : ListRequest) : Prop where
  own : viewer ≠ Company.operatorCode → r.NamesCompany viewer
  known : ∀ code, r.NamesCompany code → ∃ company : Company, company.name = code
  table : ∀ code, r.NamesTable code →
    ∃ company, r.NamesCompany company ∧ s.directory.hasTable company code = .ok true
  substation : ∀ code, r.NamesSubstation code →
    ∃ company, r.NamesCompany company ∧ s.directory.hasSubstation company code = .ok true

namespace Service

variable {s : Service} {viewer : String} {r : ListRequest} {filter : Filter} {registry : Registry}
  {v : View}

theorem Permits.fromId (h : s.Permits viewer r) (start : Option Int) :
    s.Permits viewer { r with fromId := start } :=
  ⟨h.own, h.known, h.table, h.substation⟩

/-- The filter of a request that may be made admits just what is asked for. -/
theorem Permits.admits_iff (h : s.Permits viewer r) :
    r.filter.Admits registry v ↔ r.Asks registry viewer v := by
  constructor
  · intro hadmits
    have hcompany (code : String) (hcode : r.NamesCompany code) :
        v.solicitation.companyCode = code :=
      hadmits.company code (ListRequest.filter_companyCode_eq_some_iff.2 hcode)
    refine ⟨fun hviewer => hcompany viewer (h.own hviewer), hcompany, fun hsome => ?_,
      fun code hcode => hadmits.table code (ListRequest.filter_tableCode_eq_some_iff.2 hcode),
      hadmits.expired⟩
    rcases hadmits.substation with hnone | hmem
    · exact absurd hsome (ListRequest.filter_substations_eq_nil_iff.1 hnone)
    · exact ListRequest.mem_filter_substations.1 hmem
  · intro hasks
    refine ⟨fun code hcode => ?_, ?_, fun code hcode => ?_, hasks.expired⟩
    · exact hasks.company code (ListRequest.filter_companyCode_eq_some_iff.1 hcode)
    · by_cases hsome : ∃ code, r.NamesSubstation code
      · exact .inr (ListRequest.mem_filter_substations.2 (hasks.substation hsome))
      · exact .inl (ListRequest.filter_substations_eq_nil_iff.2 hsome)
    · exact hasks.table code (ListRequest.filter_tableCode_eq_some_iff.1 hcode)

/-! ## How the filter is found -/

theorem listedCompany_eq_ok_iff {code listed : Option String} :
    listedCompany viewer code = .ok listed ↔ listed = filledCode code ∧
      (viewer ≠ Company.operatorCode → filledCode code = some viewer) ∧
      ∀ c, filledCode code = some c → ∃ company : Company, company.name = c := by
  rw [listedCompany]
  cases filledCode code with
  | none =>
    by_cases hviewer : viewer = Company.operatorCode
    · simp [hviewer, eq_comm]
    · simp [hviewer]
  | some c =>
    have hknown : (ofName? c : Option Company).isNone = false ↔
        ∃ company : Company, company.name = c := by
      rw [Option.isNone_eq_false_iff, Option.isSome_iff_exists]
      exact exists_congr fun company => Named.ofName?_eq_some_iff
    simp only [Option.some_inj, forall_eq', ← hknown]
    cases (ofName? c : Option Company).isNone with
    | true => simp
    | false =>
      by_cases hother : viewer ≠ Company.operatorCode ∧ c ≠ viewer
      · simp [hother.1, hother.2]
      · have hsame : viewer ≠ Company.operatorCode → c = viewer := by simpa using hother
        rw [if_neg Bool.false_ne_true, if_neg hother]
        exact ⟨fun h => ⟨(Except.ok.inj h).symm, hsame, rfl⟩, fun h => congrArg _ h.1.symm⟩

section References

variable {company : String} {substations : List String}

theorem checkReferences_none_eq_ok_iff : s.checkReferences company none substations = .ok () ↔
    ∀ code ∈ substations, s.directory.hasSubstation company code = .ok true := by
  rw [← exists_mapM_find?_eq_none_iff]
  cases hasked : substations.mapM (s.directory.hasSubstation company) with
  | error outage =>
    have hrefused : s.checkReferences company none substations = .error (.unavailable outage) := by
      simp only [checkReferences, hasked]
    rw [hrefused]
    exact ⟨nofun, fun ⟨_, h, _⟩ => nomatch h⟩
  | ok answers =>
    cases hfind : (substations.zip answers).find? fun a => !a.2 with
    | none =>
      have hpassed : s.checkReferences company none substations = .ok () := by
        simp only [checkReferences, hasked, hfind]
        rfl
      exact iff_of_true hpassed ⟨answers, rfl, hfind⟩
    | some answer =>
      have hrefused : s.checkReferences company none substations =
          .error (.missing (.substation answer.1)) := by
        simp only [checkReferences, hasked, hfind]
      rw [hrefused]
      refine ⟨nofun, ?_⟩
      rintro ⟨answers', heq, hnone⟩
      cases heq
      cases hfind.symm.trans hnone

/-- A table that is given is looked up before the substations. -/
theorem checkReferences_some {table : String} :
    s.checkReferences company (some table) substations =
      match s.directory.hasTable company table with
      | .error outage => .error (.unavailable outage)
      | .ok false => .error (.missing .table)
      | .ok true => s.checkReferences company none substations := by
  cases hasked : s.directory.hasTable company table with
  | error outage =>
    simp only [checkReferences, hasked]
    rfl
  | ok answer =>
    cases answer with
    | false =>
      simp only [checkReferences, hasked]
      rfl
    | true => simp only [checkReferences, hasked]

theorem checkReferences_eq_ok_iff {table : Option String} :
    s.checkReferences company table substations = .ok () ↔
      (∀ code ∈ table, s.directory.hasTable company code = .ok true) ∧
        ∀ code ∈ substations, s.directory.hasSubstation company code = .ok true := by
  rw [← checkReferences_none_eq_ok_iff]
  cases table with
  | none => simp
  | some table =>
    rw [checkReferences_some]
    split
    · rename_i hasked
      simp [hasked]
    · rename_i hasked
      simp [hasked]
    · rename_i hasked
      simp [hasked]

theorem checkReferences_ne_crossedLimits {table : Option String} :
    s.checkReferences company table substations ≠ .error .crossedLimits := by
  have hsubstations : s.checkReferences company none substations ≠ .error .crossedLimits := by
    simp only [checkReferences]
    split
    · exact nofun
    · split
      · exact nofun
      · exact nofun
  cases table with
  | none => exact hsubstations
  | some table =>
    rw [checkReferences_some]
    split
    · exact nofun
    · exact nofun
    · exact hsubstations

end References

/-- A request that gives a company has its filter if what else it gives exists there. -/
theorem listFilter_of_company {company : String}
    (hlisted : listedCompany viewer r.companyCode = .ok (some company))
    (hcompany : filledCode r.companyCode = some company) : s.listFilter viewer r =
      (s.checkReferences company r.filter.tableCode r.filter.substations).bind fun _ =>
        .ok r.filter := by
  have hfilter : r.filter = ⟨some company, r.substations.filterMap Text.filled?,
      filledCode r.tableCode, r.excludeExpired⟩ := by rw [ListRequest.filter, hcompany]
  simp only [listFilter, hlisted, hfilter, bind, Except.bind]
  split
  · rfl
  · rename_i hgiven
    rw [not_or, Option.not_isSome_iff_eq_none, not_not] at hgiven
    rw [hgiven.1, hgiven.2]
    rfl

/-- A request that gives no company has its filter if it gives nothing else that is looked up. -/
theorem listFilter_of_none (hlisted : listedCompany viewer r.companyCode = .ok none)
    (hnone : filledCode r.companyCode = none) : s.listFilter viewer r =
      if r.filter.tableCode.isSome ∨ r.filter.substations ≠ [] then
        .error (.badRequest .noCompany)
      else .ok r.filter := by
  have hfilter : r.filter = ⟨none, r.substations.filterMap Text.filled?, filledCode r.tableCode,
      r.excludeExpired⟩ := by rw [ListRequest.filter, hnone]
  simp only [listFilter, hlisted, hfilter, bind, Except.bind]
  rfl

/-- What a request gives is looked up at the company that it gives. -/
theorem permits_of_company {company : String} (hcompany : filledCode r.companyCode = some company) :
    s.Permits viewer r ↔
      ((viewer ≠ Company.operatorCode → company = viewer) ∧
        ∃ known : Company, known.name = company) ∧
      s.checkReferences company r.filter.tableCode r.filter.substations = .ok () := by
  have hnames (code : String) : r.NamesCompany code ↔ code = company := by
    rw [← ListRequest.filter_companyCode_eq_some_iff, ListRequest.filter, hcompany,
      Option.some_inj, eq_comm]
  rw [checkReferences_eq_ok_iff]
  constructor
  · intro h
    refine ⟨⟨fun hviewer => ((hnames viewer).1 (h.own hviewer)).symm, h.known _ ((hnames _).2 rfl)⟩,
      fun code hcode => ?_, fun code hcode => ?_⟩
    · obtain ⟨company', hnamed, hknown⟩ :=
        h.table code (ListRequest.filter_tableCode_eq_some_iff.1 hcode)
      exact (hnames company').1 hnamed ▸ hknown
    · obtain ⟨company', hnamed, hknown⟩ :=
        h.substation code (ListRequest.mem_filter_substations.1 hcode)
      exact (hnames company').1 hnamed ▸ hknown
  · rintro ⟨⟨hown, hknown⟩, htable, hsubstation⟩
    refine ⟨fun hviewer => (hnames viewer).2 (hown hviewer).symm,
      fun code hcode => (hnames code).1 hcode ▸ hknown,
      fun code hcode => ⟨company, (hnames company).2 rfl, ?_⟩,
      fun code hcode => ⟨company, (hnames company).2 rfl, ?_⟩⟩
    · exact htable code (ListRequest.filter_tableCode_eq_some_iff.2 hcode)
    · exact hsubstation code (ListRequest.mem_filter_substations.2 hcode)

theorem permits_of_none (hnone : filledCode r.companyCode = none) :
    s.Permits viewer r ↔ viewer = Company.operatorCode ∧
      ¬ (r.filter.tableCode.isSome ∨ r.filter.substations ≠ []) := by
  have hnames (code : String) : ¬ r.NamesCompany code := by
    rw [← ListRequest.filter_companyCode_eq_some_iff, ListRequest.filter, hnone]
    exact nofun
  constructor
  · intro h
    refine ⟨by_contra fun hviewer => hnames viewer (h.own hviewer), ?_⟩
    rintro (htable | hsubstations)
    · obtain ⟨code, hcode⟩ := Option.isSome_iff_exists.1 htable
      obtain ⟨company, hnamed, -⟩ := h.table code (ListRequest.filter_tableCode_eq_some_iff.1 hcode)
      exact hnames company hnamed
    · obtain ⟨code, hcode⟩ := List.exists_mem_of_ne_nil _ hsubstations
      obtain ⟨company, hnamed, -⟩ := h.substation code (ListRequest.mem_filter_substations.1 hcode)
      exact hnames company hnamed
  · rintro ⟨hviewer, hgiven⟩
    rw [not_or, not_not] at hgiven
    refine ⟨fun hother => absurd hviewer hother, fun code hcode => absurd hcode (hnames code),
      fun code hcode => ?_, fun code hcode => ?_⟩
    · have hsome := ListRequest.filter_tableCode_eq_some_iff.2 hcode
      exact absurd (Option.isSome_of_eq_some hsome) hgiven.1
    · exact absurd ⟨code, hcode⟩ (ListRequest.filter_substations_eq_nil_iff.1 hgiven.2)

/-- A list request has a filter exactly if the viewer may make it, and it is the filter of the
request. -/
theorem listFilter_eq_ok_iff :
    s.listFilter viewer r = .ok filter ↔ s.Permits viewer r ∧ filter = r.filter := by
  by_cases hlisted : listedCompany viewer r.companyCode = .ok (filledCode r.companyCode)
  · obtain ⟨-, hown, hknown⟩ := listedCompany_eq_ok_iff.1 hlisted
    cases hcompany : filledCode r.companyCode with
    | none =>
      rw [hcompany] at hlisted hown
      have hviewer : viewer = Company.operatorCode := by_contra fun hother => nomatch hown hother
      rw [listFilter_of_none hlisted hcompany, permits_of_none hcompany]
      split
      · rename_i hgiven
        exact iff_of_false nofun fun h => h.1.2 hgiven
      · rename_i hgiven
        exact ⟨fun h => ⟨⟨hviewer, hgiven⟩, (Except.ok.inj h).symm⟩, fun h => congrArg _ h.2.symm⟩
    | some company =>
      rw [hcompany] at hlisted hown
      have hown : (viewer ≠ Company.operatorCode → company = viewer) ∧
          ∃ known : Company, known.name = company :=
        ⟨fun hviewer => Option.some.inj (hown hviewer), hknown company hcompany⟩
      rw [listFilter_of_company hlisted hcompany, permits_of_company hcompany, and_iff_right hown]
      cases s.checkReferences company r.filter.tableCode r.filter.substations with
      | error e => exact iff_of_false nofun fun h => nomatch h.1
      | ok done => exact ⟨fun h => ⟨rfl, (Except.ok.inj h).symm⟩, fun h => congrArg _ h.2.symm⟩
  · refine iff_of_false (fun h => hlisted ?_) fun h => hlisted ?_
    · obtain ⟨listed, hok, -⟩ := bind_eq_ok_iff.1 h
      exact (listedCompany_eq_ok_iff.1 hok).1 ▸ hok
    · exact listedCompany_eq_ok_iff.2
        ⟨rfl, fun hviewer => filledCode_eq_some_iff.2 (h.1.own hviewer),
          fun code hcode => h.1.known code (filledCode_eq_some_iff.1 hcode)⟩

/-- A list is what the query answers to the filter of a request that may be made, with its hints and
its limit. -/
theorem list_eq_ok_iff {response : ListResponse} :
    s.list viewer r = .ok response ↔ s.Permits viewer r ∧ ∃ hints limit views,
      readHints r.sort = .ok hints ∧ s.settings.listLimit? r.limit = some limit ∧
      s.ledger.query s.directory.registry r.filter ⟨r.fromId, limit⟩ (.ofCompanyCode viewer) hints =
        .ok views ∧ response = ⟨views, views.length⟩ := by
  constructor
  · intro h
    obtain ⟨filter, hfilter, h⟩ := bind_eq_ok_iff.1 h
    obtain ⟨hints, hhints, h⟩ := bind_eq_ok_iff.1 h
    obtain ⟨hpermits, rfl⟩ := listFilter_eq_ok_iff.1 hfilter
    split at h
    · cases h
    · rename_i limit hlimit
      split at h
      · cases h
      · rename_i views hviews
        exact ⟨hpermits, hints, limit, views, hhints, hlimit, hviews, (Except.ok.inj h).symm⟩
  · rintro ⟨hpermits, hints, limit, views, hhints, hlimit, hviews, rfl⟩
    have hfilter := listFilter_eq_ok_iff.2 ⟨hpermits, rfl⟩
    simp only [list, hfilter, hhints, hlimit, hviews, bind, Except.bind]

theorem listedCompany_ne_crossedLimits {code : Option String} :
    listedCompany viewer code ≠ .error .crossedLimits := by
  rw [listedCompany]
  split
  · split
    · exact nofun
    · split
      · exact nofun
      · exact nofun
  · split
    · exact nofun
    · exact nofun

theorem listFilter_ne_crossedLimits : s.listFilter viewer r ≠ .error .crossedLimits := by
  cases hlisted : listedCompany viewer r.companyCode with
  | error e =>
    have hrefused : s.listFilter viewer r = .error e := by
      simp only [listFilter, hlisted]
      rfl
    intro h
    cases hrefused.symm.trans h
    exact listedCompany_ne_crossedLimits hlisted
  | ok listed =>
    obtain ⟨rfl, -⟩ := listedCompany_eq_ok_iff.1 hlisted
    cases hcompany : filledCode r.companyCode with
    | none =>
      rw [listFilter_of_none (hcompany ▸ hlisted) hcompany]
      split
      · exact nofun
      · exact nofun
    | some company =>
      rw [listFilter_of_company (hcompany ▸ hlisted) hcompany]
      intro h
      rcases bind_eq_error_iff.1 h with hchecked | ⟨_, -, h⟩
      · exact checkReferences_ne_crossedLimits hchecked
      · cases h

/-- A list request stops the program only if the limits are crossed. -/
theorem listLimit?_of_crossedLimits (h : s.list viewer r = .error .crossedLimits) :
    s.settings.listLimit? r.limit = none := by
  rcases bind_eq_error_iff.1 h with hfilter | ⟨filter, -, h⟩
  · exact absurd hfilter listFilter_ne_crossedLimits
  · rcases bind_eq_error_iff.1 h with hhints | ⟨hints, -, h⟩
    · obtain ⟨text, -, hunknown⟩ := exists_of_mapM_eq_error hhints
      split at hunknown
      · cases hunknown
      · cases hunknown
    · split at h
      · assumption
      · split at h
        · rename_i fault _
          cases fault <;> cases h
        · cases h

end Service

end GridDispatch
