import GridDispatch.Proofs.Recount.Requests
import GridDispatch.Proofs.Visibility
import Mathlib.Data.String.Basic

/-!
# Who is told of an update

A notification goes to the users of the company that the update is about and to those of the
operator, which are looked up among the users of each company; what a user gets to see of the
stream goes by the company that is looked up for the user. Both come to the same in a registry in
which users were put by assigning them (`Registry.Built.mem_usersOf_iff`): the recipients of a
notification are those who can see the update (`Service.Notifies`), for every update of a batch and
of a change of status (`Service.recipients_exact`). If the users cannot be looked up, the
notification goes to everybody.
-/

namespace GridDispatch

open Ledger

/-! ## The registry -/

namespace Registry

variable {r : Registry} {user code : String}

/-- The registry was built by putting tables, substations and users into it. -/
inductive Built : Registry → Prop
  | empty : Built .empty
  | putTable {r : Registry} (companyCode tableCode : String) : Built r →
    Built (r.putTable companyCode tableCode)
  | putSubstation {r : Registry} (s : Substation) : Built r → Built (r.putSubstation s)
  | assign {r : Registry} (user companyCode : String) : Built r → Built (r.assign user companyCode)

/-- A user belongs to one company at a time. -/
theorem Built.nodup_users (h : r.Built) : (r.users.map Prod.fst).Nodup := by
  induction h with
  | empty => exact List.nodup_nil
  | putTable companyCode tableCode _ ih =>
    rw [Registry.putTable]
    split
    · exact ih
    · exact ih
  | putSubstation s _ ih => exact ih
  | @assign r user companyCode _ ih =>
    rw [Registry.assign, List.map_append, List.map_singleton]
    refine List.nodup_append.2 ⟨ih.sublist (List.filter_sublist.map _), List.nodup_singleton _, ?_⟩
    rintro name hname _ hlast rfl
    obtain ⟨entry, hentry, rfl⟩ := List.mem_map.1 hname
    have hother := (List.mem_filter.1 hentry).2
    rw [List.mem_singleton.1 hlast] at hother
    simp at hother

/-- A user is among those of a company exactly if it is the company of the user. -/
theorem Built.mem_usersOf_iff (h : r.Built) :
    user ∈ r.usersOf code ↔ r.companyOf user = some code := by
  have hmem : user ∈ r.usersOf code ↔ (user, code) ∈ r.users := by
    rw [usersOf, List.mem_mergeSort, List.mem_map]
    simp
  rw [hmem, companyOf]
  constructor
  · intro hmem
    cases hfound : r.users.find? fun u => u.1 == user with
    | none =>
      have := List.find?_eq_none.1 hfound _ hmem
      simp at this
    | some entry =>
      have hname : entry.1 = user := by simpa using List.find?_some hfound
      rw [List.inj_on_of_nodup_map h.nodup_users (List.mem_of_find?_eq_some hfound) hmem hname]
      rfl
  · intro hfound
    obtain ⟨entry, hentry, rfl⟩ := Option.map_eq_some_iff.1 hfound
    have hname : entry.1 = user := by simpa using List.find?_some hentry
    exact hname ▸ List.mem_of_find?_eq_some hentry

end Registry

namespace Directory

variable (d : Directory) (code : String)

theorem recipients_of_down (h : Lookup.usersOf ∈ d.down) : d.recipients code = none := by
  simp only [recipients, usersOf, ask, if_pos h]

/-- The recipients are the users of the company and of the operator, in strict order. -/
theorem recipients_of_up (hbuilt : d.registry.Built) (h : Lookup.usersOf ∉ d.down) :
    ∃ users, d.recipients code = some users ∧ users.Pairwise (· < ·) ∧
      ∀ user, user ∈ users ↔ d.registry.companyOf user = some code ∨
        d.registry.companyOf user = some Company.operatorCode := by
  simp only [recipients, usersOf, ask, if_neg h]
  refine ⟨_, rfl, pairwise_lt_mergeSort (fun a b => decide_eq_true_iff) (nodup_eraseDups _),
    fun user => ?_⟩
  rw [List.mem_mergeSort, List.mem_eraseDups, List.mem_append, hbuilt.mem_usersOf_iff,
    hbuilt.mem_usersOf_iff]

end Directory

/-! ## What is seen of one update -/

namespace Service

variable {s s' : Service} {u : Update} {updates : List Update} {code user : String}

/-- Reading up to a token from the one before gives the update with that token. -/
theorem updatesBetween_of_given {l l' : Ledger}
    (hrows : l'.updates = l.updates ++ updates.map UpdateRow.of)
    (htokens : GivenOut l.lastUpdate (l.updates.map UpdateRow.streamId)
      (updates.map Update.streamId)) (hu : u ∈ updates) (hplain : u.content.Plain) :
    l'.updatesBetween (u.streamId - 1) u.streamId = .ok [u] := by
  have hthis (row : UpdateRow) :
      decide (u.streamId - 1 < row.streamId ∧ row.streamId ≤ u.streamId) =
        decide (row.streamId = u.streamId) := decide_eq_decide.2 (by omega)
  have hold : l.updates.filter (fun row => decide (row.streamId = u.streamId)) = [] := by
    refine List.filter_eq_nil_iff.2 fun row hrow hid => ?_
    have habove := (htokens.above _ (List.mem_map_of_mem hu)).2 _ (List.mem_map_of_mem hrow)
    have := of_decide_eq_true hid
    omega
  have hnew : (updates.map UpdateRow.of).filter (fun row => decide (row.streamId = u.streamId)) =
      [UpdateRow.of u] := by
    rw [List.filter_map]
    exact congrArg _ (filter_eq_singleton_of_nodup Update.streamId htokens.nodup hu)
  simp only [Ledger.updatesBetween, hthis]
  rw [hrows, List.filter_append, hold, hnew, List.nil_append, List.mergeSort_singleton]
  exact mapM_eq_ok_iff.2 (.cons (UpdateRow.read_of_plain hplain) .nil)

/-- An update is seen by the users of its company and by those of the operator. -/
theorem seen_iff (hread : s.ledger.updatesBetween (u.streamId - 1) u.streamId = .ok [u])
    (hcode : u.content.textAt? "company_code" = some code)
    (hup : Lookup.companyOf ∉ s.directory.down) :
    (∃ seen, s.updates user (u.streamId - 1) u.streamId = .ok seen ∧
        ∃ x ∈ seen, x.streamId = u.streamId) ↔
      s.directory.registry.companyOf user = some code ∨
        s.directory.registry.companyOf user = some Company.operatorCode := by
  have hlooked : s.directory.companyOf user = .ok (s.directory.registry.companyOf user) := by
    rw [Directory.companyOf, Directory.ask, if_neg hup]
  cases hcompany : s.directory.registry.companyOf user with
  | none =>
    rw [hcompany] at hlooked
    have hstranger : s.companyOf user = .error .userWithoutCompany := by
      simp only [companyOf, hlooked]
    have hle : ¬ u.streamId < u.streamId - 1 := by omega
    simp [Service.updates, hle, hstranger, bind, Except.bind]
  | some company =>
    have hshown : shows company u = true ↔ company = code ∨ company = Company.operatorCode := by
      have hconcerns :
          concerns company u = (u.content.textAt? "company_code" == some company) := rfl
      rw [shows, hconcerns, hcode, Bool.or_eq_true, decide_eq_true_iff, beq_iff_eq,
        Option.some_inj, or_comm, eq_comm]
    rw [updates_of_read (hlooked.trans (congrArg _ hcompany)) (by omega) hread,
      List.filter_singleton]
    simp only [Option.some_inj, ← hshown]
    cases shows company u <;> simp

/-! ## Notifications -/

/-- A notification goes to the users who can see the update with its token, each once and by code
point; to everybody if they cannot be looked up. -/
structure Notifies (s : Service) (n : Notification) : Prop where
  broadcast : Lookup.usersOf ∈ s.directory.down → n.recipients = none
  addressed : Lookup.usersOf ∉ s.directory.down → ∃ users, n.recipients = some users ∧
    users.Pairwise (· < ·) ∧ (∀ user ∈ users, s.directory.registry.companyOf user ≠ none) ∧
    (Lookup.companyOf ∉ s.directory.down → ∀ user, user ∈ users ↔
      ∃ seen, s.updates user (n.token - 1) n.token = .ok seen ∧ ∃ u ∈ seen, u.streamId = n.token)

theorem notifies_of_read (hbuilt : s.directory.registry.Built)
    (hread : s.ledger.updatesBetween (u.streamId - 1) u.streamId = .ok [u])
    (hcode : u.content.textAt? "company_code" = some code) :
    s.Notifies (.of u.streamId (s.directory.recipients code)) := by
  refine ⟨s.directory.recipients_of_down code, fun hup => ?_⟩
  obtain ⟨users, hrecipients, hsorted, hmem⟩ := s.directory.recipients_of_up code hbuilt hup
  refine ⟨users, hrecipients, hsorted, fun user huser hnone => ?_, fun hup' user => ?_⟩
  · rw [hmem, hnone] at huser
    simp at huser
  · rw [hmem]
    exact (seen_iff hread hcode hup').symm

/-- What is announced of a group is told to those who can see it. -/
theorem announceCreated_notifies {p : Service} (hbuilt : p.directory.registry.Built) (g : Group)
    (entered : List Entered) :
    let q := p.announceCreated g.requesterId g.groupId (entered.map fun x => (x.id, x.new))
    ∃ (updates : List Update) (notices : List Notification),
      q.ledger.updates = p.ledger.updates ++ updates.map UpdateRow.of ∧
      (updates.map Update.solicitationId).Sublist (entered.map Entered.id) ∧
      (p.ledger.Open .update → (∀ x ∈ entered, p.ledger.hasEnvelope x.id = true) →
        Room p.ledger.lastUpdate (p.ledger.updates.map UpdateRow.streamId) entered.length →
        updates.map Update.solicitationId = entered.map Entered.id) ∧
      q.bus = (p.bus.publishAll notices).2 ∧
      notices.map Notification.token = updates.map Update.streamId ∧
      ∀ n ∈ notices, q.Notifies n := by
  intro q
  obtain ⟨told, updates, hq, hsub, htold, htokens, hall⟩ := p.announceCreated_eq g entered
  have hq : q = _ := hq
  have hids : updates.map Update.solicitationId = told.map Entered.id := by
    rw [← List.forall₂_eq_eq_eq, List.forall₂_map_left_iff, List.forall₂_map_right_iff]
    exact htold.flip.imp fun u x hu => congrArg Update.solicitationId hu
  have htoken :
      (Notification.token ∘ Entered.notice p.directory) = Update.streamId ∘ Prod.snd := rfl
  refine ⟨updates, (told.zip updates).map (Entered.notice p.directory), by rw [hq]; rfl,
    hids ▸ hsub.map _, fun hopen hknown hroom => by rw [hids, hall hopen hknown hroom],
    by rw [hq], ?_, fun n hn => ?_⟩
  · rw [List.map_map, htoken, ← List.map_map, List.map_snd_zip htold.length_eq.ge]
  · obtain ⟨⟨x, u⟩, hxu, rfl⟩ := List.mem_map.1 hn
    have hu : u = x.update g u.streamId := List.forall₂_zip htold hxu
    have hplain : u.content.Plain := by
      rw [hu]
      exact createdContent_plain ..
    have hcode : u.content.textAt? "company_code" = some x.new.companyCode := by
      rw [hu]
      rfl
    -- the token is above all that were given out, so no other update is read with this one
    have hread : q.ledger.updatesBetween (u.streamId - 1) u.streamId = .ok [u] := by
      rw [hq]
      exact updatesBetween_of_given rfl htokens (List.of_mem_zip hxu).2 hplain
    have hdirectory : q.directory = p.directory := by rw [hq]
    have hbuilt' : q.directory.registry.Built := hdirectory ▸ hbuilt
    have hnotifies := notifies_of_read hbuilt' hread hcode
    rw [hdirectory] at hnotifies
    exact hnotifies

/-- Nothing was recorded and nobody was told anything, and neither the directory nor what the
storage refuses has changed. -/
structure Silent (p p' : Service) : Prop where
  directory : p'.directory = p.directory
  bus : p'.bus = p.bus
  guards : p'.ledger.guards = p.ledger.guards
  updates : p'.ledger.updates = p.ledger.updates
  lastUpdate : p'.ledger.lastUpdate = p.ledger.lastUpdate

namespace Silent

variable {p p' p'' : Service}

theorem refl (p : Service) : Silent p p := ⟨rfl, rfl, rfl, rfl, rfl⟩

theorem trans (h : Silent p p') (h' : Silent p' p'') : Silent p p'' where
  directory := h'.directory.trans h.directory
  bus := h'.bus.trans h.bus
  guards := h'.guards.trans h.guards
  updates := h'.updates.trans h.updates
  lastUpdate := h'.lastUpdate.trans h.lastUpdate

theorem act (i : Interference) (p : Service) : Silent p (i.act p) := by
  cases i with
  | append id actor status time =>
    simp only [Interference.act]
    split
    · rename_i happend
      obtain ⟨rfl, -⟩ := insertEvent_eq_ok (append_eq_ok happend)
      exact ⟨rfl, rfl, rfl, rfl, rfl⟩
    · exact refl p
  | deleteEvents id => exact ⟨rfl, rfl, rfl, rfl, rfl⟩
  | setClock now => exact ⟨rfl, rfl, rfl, rfl, rfl⟩

theorem run (acts : List Interference) (p : Service) : Silent p (Interference.run acts p) := by
  induction acts generalizing p with
  | nil => exact refl p
  | cons i acts ih => exact (act i p).trans (ih (i.act p))

theorem others (p : Service) (others : List (List Interference)) :
    (p.amid others).OthersIn Silent := by
  intro act hact q
  obtain ⟨acts, -, rfl⟩ := List.mem_map.1 hact
  exact run acts q

end Silent
end Service

namespace Shared

variable {s s' : Shared}

open Service

/-- A transition that is made tells nobody yet. -/
theorem silent_of_apply (hs : s.OthersIn Silent) {t : Transition} {applied : Applied}
    (h : t.apply s = (.ok applied, s')) : Silent s.service s'.service := by
  have hattempt {s : Shared} (hs : s.OthersIn Silent) (h : t.attempt s = (.ok applied, s')) :
      Silent s.service s'.service := by
    obtain ⟨state, ledger, -, -, happend, rfl⟩ := Transition.attempt_eq_ok h
    obtain ⟨rfl, -⟩ := insertEvent_eq_ok (appendIfCurrent_eq_ok happend).2
    exact (hs.rel_later Silent.refl).trans ⟨rfl, rfl, rfl, rfl, rfl⟩
  by_cases hloses : t.Loses s
  · rw [Transition.apply_of_loses hloses] at h
    exact (hs.rel_later Silent.refl).trans (hattempt hs.later h)
  · rw [Transition.apply_of_not_loses hloses] at h
    exact hattempt hs h

/-- Every update of a batch is told to those who can see it. Each solicitation has one if it can be
recorded. -/
theorem submit_notifies (hs : s.OthersIn Silent) (hbuilt : s.service.directory.registry.Built)
    {requesterId companyCode groupId : String} {batch : Batch} {receipt : SubmitReceipt}
    (h : s.submit requesterId companyCode groupId batch = (.ok receipt, s')) :
    ∃ (updates : List Update) (notices : List Notification), s'.service.ledger.updates =
        s.service.ledger.updates ++ updates.map UpdateRow.of ∧
      (updates.map Update.solicitationId).Sublist receipt.ids ∧
      (s.service.ledger.Open .update → Room s.service.ledger.lastUpdate
          (s.service.ledger.updates.map UpdateRow.streamId) receipt.ids.length →
        updates.map Update.solicitationId = receipt.ids) ∧
      s'.service.bus = (s.service.bus.publishAll notices).2 ∧
      notices.map Notification.token = updates.map Update.streamId ∧
      ∀ n ∈ notices, s'.service.Notifies n := by
  obtain ⟨entered, rfl, -, -, -, -, -, hservice⟩ := submit_entered h
  have hlater : Silent s.service s.later.service := hs.rel_later Silent.refl
  let g : Group := ⟨groupId, requesterId, batch.creationTotalTime, s.later.service.now⟩
  let p : Service := { s.later.service with
    ledger := (s.later.service.ledger.withGroup g).withEntered g .new g.createdAt entered }
  have hp : Silent s.service p := hlater.trans ⟨rfl, rfl, rfl, rfl, rfl⟩
  obtain ⟨updates, notices, hupdates, hids, hall, hbus, htokens, hnotifies⟩ :=
    announceCreated_notifies (hp.directory ▸ hbuilt : p.directory.registry.Built) g entered
  rw [hservice]
  refine ⟨updates, notices, hp.updates ▸ hupdates, hids, fun hopen hroom => ?_, hp.bus ▸ hbus,
    htokens, hnotifies⟩
  rw [← hp.lastUpdate, ← hp.updates, List.length_map] at hroom
  exact hall (hopen.of_guards hp.guards) (fun x hx => hasEnvelope_withEntered hx) hroom

/-- The update of a change is told to those who can see it. -/
theorem changeStatus_notifies (hs : s.OthersIn Silent)
    (hbuilt : s.service.directory.registry.Built) {r : ChangeRequest} {receipt : ChangeReceipt}
    (h : s.changeStatus r = (.ok receipt, s')) :
    ∃ notices : List Notification, s'.service.bus = (s.service.bus.publishAll notices).2 ∧
      notices.map Notification.token = receipt.streamToken.toList ∧
      ∀ n ∈ notices, s'.service.Notifies n := by
  simp only [changeStatus] at h
  split at h
  · cases h
  · rename_i t solicitation hcheck
    split at h
    · cases h
    · rename_i applied s₁ happly
      have happlied := silent_of_apply hs happly
      cases h
      cases hrecord : s₁.service.ledger.record t.id t.actor .statusChanged
          (changedContent t applied.source solicitation) with
      | error e =>
        rw [announce_of_refused _ hrecord]
        exact ⟨[], happlied.bus, rfl, List.forall_mem_nil _⟩
      | ok recorded =>
        obtain ⟨token, l⟩ := recorded
        have hnext := nextId_of_record hrecord
        obtain ⟨rfl, -⟩ := record_eq_withUpdate hrecord
        rw [announce_of_record _ hrecord]
        refine ⟨[.of token (s₁.service.directory.recipients solicitation.companyCode)], ?_, rfl, ?_⟩
        · rw [← happlied.bus]
          rfl
        · refine List.forall_mem_singleton.2 ?_
          let u : Update :=
            ⟨token, t.id, t.actor, .statusChanged, changedContent t applied.source solicitation⟩
          have hgiven : GivenOut s₁.service.ledger.lastUpdate
              (s₁.service.ledger.updates.map UpdateRow.streamId) ([u].map Update.streamId) :=
            .cons hnext (.nil ..)
          have hread : (s₁.service.ledger.withUpdate u).updatesBetween (u.streamId - 1) u.streamId =
              .ok [u] :=
            updatesBetween_of_given rfl hgiven (List.mem_singleton_self u)
              (changedContent_plain t applied.source solicitation)
          have hcode : u.content.textAt? "company_code" = some solicitation.companyCode := rfl
          exact notifies_of_read (u := u) (happlied.directory ▸ hbuilt) hread hcode

end Shared

namespace Service

/-- In a registry in which users were put by assigning them, those who are told of an update are
those who can see it, and nobody without a company is. That goes for every update of a batch, which
are those of all of its solicitations if the storage takes them, and for the update of a change of
status, whatever others do meanwhile and whatever the bus accepts. While the users of a company
cannot be looked up, everybody is told. -/
theorem recipients_exact (p : Service) (others : List (List Interference))
    (hbuilt : p.directory.registry.Built) :
    (∀ requesterId companyCode groupId batch receipt s',
      (p.amid others).submit requesterId companyCode groupId batch = (.ok receipt, s') →
      ∃ (updates : List Update) (notices : List Notification),
        s'.service.ledger.updates = p.ledger.updates ++ updates.map UpdateRow.of ∧
        (updates.map Update.solicitationId).Sublist receipt.ids ∧
        (p.ledger.Open .update → Room p.ledger.lastUpdate
            (p.ledger.updates.map UpdateRow.streamId) receipt.ids.length →
          updates.map Update.solicitationId = receipt.ids) ∧
        s'.service.bus = (p.bus.publishAll notices).2 ∧
        notices.map Notification.token = updates.map Update.streamId ∧
        ∀ n ∈ notices, s'.service.Notifies n) ∧
    ∀ r receipt s', (p.amid others).changeStatus r = (.ok receipt, s') →
      ∃ notices : List Notification, s'.service.bus = (p.bus.publishAll notices).2 ∧
        notices.map Notification.token = receipt.streamToken.toList ∧
        ∀ n ∈ notices, s'.service.Notifies n :=
  ⟨fun _ _ _ _ _ _ h => Shared.submit_notifies (Silent.others p others) hbuilt h,
    fun _ _ _ h => Shared.changeStatus_notifies (Silent.others p others) hbuilt h⟩

/-- A user who has changed from one company to another is told of what concerns the latter. -/
theorem recipients_exact_of_reassigned :
    let first := (Registry.empty.putSubstation ⟨"CTEEP", "MOS", none⟩).assign "ana" "ONS"
    let registry := (first.assign "tito" "CHESF").assign "tito" "CTEEP"
    let p : Service := { holding [⟨1, 1, some "ana", .new, 100, none⟩] 150 with
      directory := ⟨registry, []⟩ }
    let batch : Batch :=
      ⟨0, [⟨"SYNCHRONOUS", "MAXIMIZE", "MOS", "CTEEP", ⟨.null, .null, .null, .null, .null⟩⟩]⟩
    p.directory.registry.Built ∧
      (∃ s' n, (p.amid []).submit "ana" "ONS" "first" batch =
          (.ok ⟨"first", [2], createdMessage⟩, s') ∧
        s'.service.bus = (p.bus.publish n).2 ∧ s'.service.Notifies n) ∧
      ∃ s' n, (p.amid []).changeStatus ⟨1, "tito", "ACCEPTED", none⟩ =
          (.ok ⟨1, .accepted, some 1⟩, s') ∧
        s'.service.bus = (p.bus.publish n).2 ∧ n.token = 1 ∧ s'.service.Notifies n := by
  intro first registry p batch
  have hbuilt : p.directory.registry.Built :=
    .assign _ _ (.assign _ _ (.assign _ _ (.putSubstation _ .empty)))
  obtain ⟨hsubmits, hchanges⟩ := p.recipients_exact [] hbuilt
  have hsubmit : ((p.amid []).submit "ana" "ONS" "first" batch).1 =
      .ok ⟨"first", [2], createdMessage⟩ := by
    cbv
  have hchange : ((p.amid []).changeStatus ⟨1, "tito", "ACCEPTED", none⟩).1 =
      .ok ⟨1, .accepted, some 1⟩ := by
    cbv
  refine ⟨hbuilt, ?_, ?_⟩
  · obtain ⟨updates, notices, -, -, hall, hbus, htokens, hnotifies⟩ :=
      hsubmits _ _ _ _ _ _ (Prod.ext hsubmit rfl)
    have hids := hall (fun _ => rfl) (by decide : (0 : Int) + (1 : Nat) ≤ Text.Range.signed.hi)
    obtain ⟨u, rfl, -⟩ := List.map_eq_singleton_iff.1 hids
    obtain ⟨n, rfl, -⟩ := List.map_eq_singleton_iff.1 htokens
    exact ⟨_, n, Prod.ext hsubmit rfl, hbus, hnotifies n (List.mem_singleton_self n)⟩
  · obtain ⟨notices, hbus, htokens, hnotifies⟩ := hchanges _ _ _ (Prod.ext hchange rfl)
    obtain ⟨n, rfl, htoken⟩ := List.map_eq_singleton_iff.1 htokens
    exact ⟨_, n, Prod.ext hchange rfl, hbus, htoken, hnotifies n (List.mem_singleton_self n)⟩

/-- While the users of a company cannot be looked up, the notification of a solicitation has no
recipients, although there are users who can see the update. -/
theorem not_recipients_of_outage :
    let first := (Registry.empty.putSubstation ⟨"CTEEP", "MOS", none⟩).assign "ana" "ONS"
    let registry := first.assign "tito" "CTEEP"
    let p : Service := ⟨.empty, ⟨registry, [.usersOf]⟩, .default, .silent, 100⟩
    let batch : Batch :=
      ⟨0, [⟨"SYNCHRONOUS", "MAXIMIZE", "MOS", "CTEEP", ⟨.null, .null, .null, .null, .null⟩⟩]⟩
    let answer := p.alone.submit "ana" "ONS" "first" batch
    answer.1 = .ok ⟨"first", [1], createdMessage⟩ ∧
      answer.2.service.bus.accepted = [.of 1 none] ∧
      (∃ seen, answer.2.service.updates "tito" 0 1 = .ok seen ∧ ∃ u ∈ seen, u.streamId = 1) ∧
      ¬ ∀ n ∈ answer.2.service.bus.accepted, ∃ users, n.recipients = some users ∧
        users.Pairwise (· < ·) ∧ ∀ user, user ∈ users ↔
          ∃ seen, answer.2.service.updates user (n.token - 1) n.token = .ok seen ∧
            ∃ u ∈ seen, u.streamId = n.token := by
  intro first registry p batch answer
  let new : NewSolicitation := ⟨.synchronous, .maximize, "MOS", "CTEEP", .synchronous none⟩
  let u : Update := ⟨1, 1, some "ana", .created, createdContent 1 new "first"⟩
  have hchecked : p.checkBatch "ONS" batch = .ok [new] := by
    subst new batch p registry first
    cbv
  have hanswer : answer.1 = .ok ⟨"first", [1], createdMessage⟩ ∧
      answer.2.service.bus.accepted = [.of 1 none] ∧
      answer.2.service.ledger.updates = [UpdateRow.of u] ∧
      answer.2.service.directory = p.directory := by
    simp only [answer, Shared.submit, Service.alone, hchecked]
    exact ⟨rfl, rfl, rfl, rfl⟩
  obtain ⟨hids, hbus, hupdates, hdirectory⟩ := hanswer
  refine ⟨hids, hbus, ?_, fun hall => ?_⟩
  · have hgiven : GivenOut 0 [] ([u].map Update.streamId) := .cons rfl (.nil ..)
    have hrows : answer.2.service.ledger.updates = Ledger.empty.updates ++ [u].map UpdateRow.of :=
      hupdates
    have hread : answer.2.service.ledger.updatesBetween (u.streamId - 1) u.streamId = .ok [u] :=
      updatesBetween_of_given hrows hgiven (List.mem_singleton_self u)
        (createdContent_plain 1 new "first")
    have hcode : u.content.textAt? "company_code" = some "CTEEP" := rfl
    exact (seen_iff hread hcode (hdirectory ▸ by decide)).2 (.inl (hdirectory ▸ by decide))
  · obtain ⟨users, hnone, -⟩ := hall (.of 1 none) (hbus ▸ List.mem_singleton_self _)
    cases hnone

end Service

end GridDispatch
