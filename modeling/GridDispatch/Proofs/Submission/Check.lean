import GridDispatch.Proofs.Validation
import GridDispatch.Workflow.Submit

/-!
# What makes a batch acceptable

A batch passes its checks exactly if it is `Batch.Acceptable`, and then each raw request has become
the solicitation that it amounts to (`Service.checkBatch_eq_ok_iff`).
-/

namespace GridDispatch

/-! ## Substations -/

theorem Directory.firstUnknown_eq_none_iff {d : Directory} {pairs : List (String × String)} :
    d.firstUnknown pairs = .ok none ↔ ∀ p ∈ pairs, d.hasSubstation p.1 p.2 = .ok true := by
  rw [← exists_mapM_find?_eq_none_iff]
  constructor
  · intro h
    obtain ⟨answers, hanswers, h⟩ := bind_eq_ok_iff.1 h
    exact ⟨answers, hanswers, Option.map_eq_none_iff.1 (Except.ok.inj h)⟩
  · rintro ⟨answers, hanswers, hnone⟩
    exact bind_eq_ok_iff.2 ⟨answers, hanswers, congrArg _ (Option.map_eq_none_iff.2 hnone)⟩

theorem mem_namedSubstations {news : List NewSolicitation} {p : String × String} :
    p ∈ namedSubstations news ↔ ∃ new ∈ news, (new.companyCode, new.substationCode) = p := by
  simp [namedSubstations]

/-! ## Batches -/

/-- The operator sends at least one solicitation, all of them are valid, and the substation of each
exists. -/
structure Batch.Acceptable (d : Directory) (companyCode : String) (batch : Batch) : Prop where
  operator : companyCode = Company.operatorCode
  total : 0 ≤ batch.creationTotalTime
  nonempty : batch.solicitations ≠ []
  valid : ∀ raw ∈ batch.solicitations, ∃ new, validate raw = .ok new ∧
    d.hasSubstation new.companyCode new.substationCode = .ok true

namespace Service

variable {s : Service} {companyCode : String} {batch : Batch} {news : List NewSolicitation}

theorem checkBatch_eq_ok_iff : s.checkBatch companyCode batch = .ok news ↔
    companyCode = Company.operatorCode ∧ 0 ≤ batch.creationTotalTime ∧ batch.solicitations ≠ [] ∧
      List.Forall₂ (fun raw new => validate raw = .ok new) batch.solicitations news ∧
      ∀ new ∈ news, s.directory.hasSubstation new.companyCode new.substationCode = .ok true := by
  have hcompany : ofName? companyCode = some Company.ons ↔ companyCode = Company.operatorCode :=
    Named.ofName?_eq_some_iff.trans eq_comm
  rw [← mapM_eq_ok_iff]
  constructor
  · intro h
    simp only [checkBatch] at h
    split at h
    · cases h
    · rename_i hoperator
      split at h
      · cases h
      · rename_i htotal
        split at h
        · cases h
        · rename_i hnonempty
          split at h
          · cases h
          · rename_i hvalid
            split at h
            · cases h
            · cases h
            · rename_i hknown
              cases h
              refine ⟨hcompany.1 (not_not.1 hoperator), Int.not_lt.1 htotal,
                by simpa using hnonempty, hvalid, fun new hnew => ?_⟩
              exact Directory.firstUnknown_eq_none_iff.1 hknown _
                (mem_namedSubstations.2 ⟨new, hnew, rfl⟩)
  · rintro ⟨hoperator, htotal, hnonempty, hvalid, hsubstations⟩
    have hknown : s.directory.firstUnknown (namedSubstations news) = .ok none := by
      rw [Directory.firstUnknown_eq_none_iff]
      intro p hp
      obtain ⟨new, hnew, rfl⟩ := mem_namedSubstations.1 hp
      exact hsubstations new hnew
    have hsome : batch.solicitations.isEmpty = false := by simpa using hnonempty
    simp [checkBatch, hcompany.2 hoperator, Int.not_lt.2 htotal, hsome, hvalid, hknown]

theorem exists_checkBatch_iff :
    (∃ news, s.checkBatch companyCode batch = .ok news) ↔
      batch.Acceptable s.directory companyCode := by
  constructor
  · rintro ⟨news, h⟩
    obtain ⟨hoperator, htotal, hnonempty, hvalid, hsubstations⟩ := checkBatch_eq_ok_iff.1 h
    refine ⟨hoperator, htotal, hnonempty, fun raw hraw => ?_⟩
    obtain ⟨new, hnew, hvalidated⟩ := (exists_of_forall₂ hvalid).1 raw hraw
    exact ⟨new, hvalidated, hsubstations new hnew⟩
  · intro h
    cases hvalid : batch.solicitations.mapM validate with
    | error e =>
      obtain ⟨raw, hraw, herror⟩ := exists_of_mapM_eq_error hvalid
      obtain ⟨new, hvalidated, -⟩ := h.valid raw hraw
      rw [hvalidated] at herror
      cases herror
    | ok news =>
      have hvalid := mapM_eq_ok_iff.1 hvalid
      refine ⟨news, checkBatch_eq_ok_iff.2
        ⟨h.operator, h.total, h.nonempty, hvalid, fun new hnew => ?_⟩⟩
      obtain ⟨raw, hraw, hvalidated⟩ := (exists_of_forall₂ hvalid).2 new hnew
      obtain ⟨new', hvalidated', hknown⟩ := h.valid raw hraw
      cases hvalidated.symm.trans hvalidated'
      exact hknown

end Service
end GridDispatch
