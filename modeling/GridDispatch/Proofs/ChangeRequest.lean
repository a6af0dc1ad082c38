import GridDispatch.Proofs.Ledger.Views
import GridDispatch.Workflow.Change

/-!
# Requests for a change

What a request for a change of status is about (`Service.Concerns`), what it comes down to when it is
found right (`Service.concerns_of_checkChange`, `Service.checkChange_eq_ok`), and what the company of
its user is entitled to (`entitled_of_role`).
-/

namespace GridDispatch

/-- A user of `company` may give a solicitation of `owner` the status `target` in place of
`source`. -/
def Entitled (company owner : String) (source target : Status) : Prop :=
  company = Company.ons.name ∧ target ∈ Role.operator.targets source ∨
    (company = Company.cteep.name ∨ company = Company.chesf.name) ∧ company = owner ∧
      target ∈ Role.transmission.targets source

theorem Role.new_notMem_targets (role : Role) (source : Status) :
    Status.new ∉ role.targets source := by
  cases role <;> cases source <;> decide

theorem Entitled.ne_new {company owner : String} {source target : Status}
    (h : Entitled company owner source target) : target ≠ .new := by
  rintro rfl
  rcases h with ⟨-, hnew⟩ | ⟨-, -, hnew⟩
  · exact Role.new_notMem_targets _ _ hnew
  · exact Role.new_notMem_targets _ _ hnew

/-- The role of a company, and its own solicitation where that is asked for, entitle to a change. -/
theorem entitled_of_role {company owner : String} {source target : Status}
    (hallowed : target ∈ (Role.ofCompanyCode company).targets source)
    (hown : Role.ofCompanyCode company = .transmission → owner = company) :
    Entitled company owner source target := by
  simp only [Role.ofCompanyCode] at hallowed hown
  split at hallowed
  · rename_i named hnamed
    rw [hnamed] at hown
    have hname : named.name = company := Named.ofName?_eq_some_iff.1 hnamed
    cases named with
    | ons => exact .inl ⟨hname.symm, hallowed⟩
    | cteep => exact .inr ⟨.inl hname.symm, (hown rfl).symm, hallowed⟩
    | chesf => exact .inr ⟨.inr hname.symm, (hown rfl).symm, hallowed⟩
  · cases hallowed

/-- The transition that a request for a status amounts to in the role of a company. -/
def ChangeRequest.transition (r : ChangeRequest) (company : String) (requested : Status) :
    Transition :=
  ⟨r.id, some r.actor, .ofCompanyCode company, requested, r.justification.bind Text.filled?⟩

namespace Service

variable {s : Service} {r : ChangeRequest} {t : Transition} {solicitation : Solicitation}

theorem companyOf_eq_ok {user company : String} (h : s.companyOf user = .ok company) :
    s.directory.companyOf user = .ok (some company) := by
  simp only [companyOf] at h
  split at h
  · cases h
  · cases h
  · cases h
    assumption

theorem view_eq_ok {id : Int} {view : View} (h : s.view id = .ok view) :
    s.ledger.find? id = .ok (some view) := by
  simp only [Service.view] at h
  split at h
  · cases h
  · cases h
  · cases h
    assumption

/-- What a request is about: the company of its user, the view of its solicitation, and the status
that its text names. -/
structure Concerns (s : Service) (r : ChangeRequest) (company : String) (v : View)
    (requested : Status) : Prop where
  company : s.directory.companyOf r.actor = .ok (some company)
  view : s.ledger.find? r.id = .ok (some v)
  status : requested.name = Text.trim r.status

/-- A request that is found right is about a solicitation of the company itself, if that is a
transmission company. -/
theorem concerns_of_checkChange (h : s.checkChange r = .ok (t, solicitation)) :
    ∃ company v requested, s.Concerns r company v requested ∧
      t = r.transition company requested ∧ solicitation = v.solicitation ∧
      (Role.ofCompanyCode company = .transmission → v.solicitation.companyCode = company) := by
  obtain ⟨company, hcompany, h⟩ := bind_eq_ok_iff.1 h
  obtain ⟨v, hview, h⟩ := bind_eq_ok_iff.1 h
  split at h
  · cases h
  · rename_i requested hrequested
    simp only at h
    split at h
    · cases h
    · rename_i hown
      cases h
      refine ⟨company, v, requested, ⟨companyOf_eq_ok hcompany, view_eq_ok hview,
        Named.ofName?_eq_some_iff.1 hrequested⟩, rfl, rfl, fun hrole => ?_⟩
      by_contra hne
      exact hown ⟨hrole, hne⟩

/-- A request that is found right asks, for the company of its user, for a status that has a name; a
transmission company asks for a solicitation of its own. The code that is given with it is that of
the solicitation. -/
theorem checkChange_eq_ok (h : s.checkChange r = .ok (t, solicitation)) :
    ∃ company requested, s.directory.companyOf r.actor = .ok (some company) ∧
      ofName? (Text.trim r.status) = some requested ∧
      t = ⟨r.id, some r.actor, Role.ofCompanyCode company, requested,
        r.justification.bind Text.filled?⟩ ∧
      ∃ row ∈ s.ledger.envelopes, row.id = r.id ∧ solicitation.companyCode = row.companyCode ∧
        (Role.ofCompanyCode company = .transmission → row.companyCode = company) := by
  obtain ⟨company, v, requested, hconcerns, rfl, rfl, hown⟩ := concerns_of_checkChange h
  obtain ⟨row, hrow, hid, hof⟩ := Ledger.find?_eq_some hconcerns.view
  obtain ⟨read, state, hread, -, rfl⟩ := Ledger.viewOf_eq_ok hof
  obtain ⟨-, hcode, -⟩ := EnvelopeRow.codes_of_read hread
  exact ⟨company, requested, hconcerns.company, Named.ofName?_eq_some_iff.2 hconcerns.status, rfl,
    row, hrow, hid, hcode, fun hrole => hcode.symm.trans (hown hrole)⟩

end Service

end GridDispatch
