import GridDispatch.Proofs.Operations

/-!
# Envelopes are kept

What is stored of a solicitation is read back as it was given, for every kind of equipment and with
every parameter that it has, and it does not change with anything that is done to the store later.
Main statement: `Service.envelopes_kept`.
-/

namespace GridDispatch

open Ledger

/-- The envelope of a solicitation once it is stored. -/
def NewSolicitation.stored (new : NewSolicitation) (id : Int) (requesterId : String)
    (groupId : Option String) : Solicitation :=
  ⟨id, new.equipment, new.action, new.substationCode, new.companyCode, new.params, requesterId,
    groupId⟩

namespace Ledger

variable {l l' : Ledger} {id time : Int} {status : Status} {solicitation : Solicitation}

/-- The envelope is what is found under its id. -/
def Keeps (l : Ledger) (solicitation : Solicitation) : Prop :=
  ∃ view, l.find? solicitation.id = .ok (some view) ∧ view.solicitation = solicitation

theorem Grows.keeps (h : l.Grows l') (hkeeps : l.Keeps solicitation) : l'.Keeps solicitation := by
  obtain ⟨view, hview, rfl⟩ := hkeeps
  exact h.find? hview

/-- What is entered is kept: its row gives it back, and its first event is its only one. -/
theorem keeps_of_enter {new : NewSolicitation} {requesterId : String} {groupId : Option String}
    (href : l.Referenced) (hfits : new.params.Fits new.equipment)
    (h : l.enter new requesterId groupId status time = .ok (id, l')) :
    l'.Keeps (new.stored id requesterId groupId) := by
  obtain ⟨⟨eventId, rfl, -⟩, hids⟩ := enter_eq_ok h
  let row := EnvelopeRow.of id new requesterId groupId
  let e : Event := ⟨eventId, id, some requesterId, status, time, none⟩
  have hfound : ((l.withEnvelope row).withEvent e).envelope? row.id = some row := by
    refine envelope?_of_unique (List.mem_append_right _ (List.mem_singleton_self row)) ?_
    intro row' hrow' hid
    rcases List.mem_append.1 hrow' with hold | hnew
    · have hlt : row'.id < row.id := hids row' hold
      omega
    · exact List.mem_singleton.1 hnew
  have hlogs : ((l.withEnvelope row).withEvent e).Logs id [e] := by
    have hold : l.events.filter (fun row => decide (row.solicitationId = id)) = [] := by
      refine href.written_eq_nil fun hknown => ?_
      obtain ⟨row, hrow, hid⟩ := List.any_eq_true.1 hknown
      have hlt := hids row hrow
      have hid := of_decide_eq_true hid
      omega
    have hnew : [EventRow.of e].filter (fun row => decide (row.solicitationId = id)) =
        [EventRow.of e] := List.filter_cons_of_pos (decide_eq_true rfl)
    rw [Logs, written, withEvent, List.filter_append]
    exact congrArg₂ (· ++ ·) hold hnew
  have hstate : State.ofEvents? [e] = some ⟨status, time, time, eventId, [e]⟩ := by
    rw [State.ofEvents?, newestFirst, List.mergeSort_singleton]
    rfl
  exact ⟨_, find?_of_read hfound (EnvelopeRow.check_of ..) (EnvelopeRow.read_of hfits)
    (hlogs.state?.trans (congrArg _ hstate)), rfl⟩

/-- Each of the solicitations of a group is kept, whatever is entered after it. -/
theorem keeps_of_enterAll {g : Group} {news : List NewSolicitation} {ids : List Int}
    (href : l.Referenced) (h : l.enterAll g status time news = .ok (ids, l')) :
    List.Forall₂ (fun id new => new.params.Fits new.equipment →
      l'.Keeps (new.stored id g.requesterId (some g.groupId))) ids news := by
  induction news generalizing l ids with
  | nil =>
    cases h
    exact .nil
  | cons new news ih =>
    obtain ⟨⟨id, l₁⟩, henter, h⟩ := bind_eq_ok_iff.1 h
    obtain ⟨⟨ids', l₂⟩, hrest, h⟩ := bind_eq_ok_iff.1 h
    cases h
    refine .cons (fun hfits => ?_) (ih (referenced_rowwise.enter henter href) hrest)
    exact (Grows.enterAll hrest).keeps (keeps_of_enter href hfits henter)

theorem keeps_of_createBatch {g : Group} {news : List NewSolicitation} {ids : List Int}
    (href : l.Referenced) (h : l.createBatch g news status time = .ok (ids, l')) :
    List.Forall₂ (fun id new => new.params.Fits new.equipment →
      l'.Keeps (new.stored id g.requesterId (some g.groupId))) ids news := by
  obtain ⟨l₁, hgroup, henter⟩ := bind_eq_ok_iff.1 h
  exact keeps_of_enterAll (referenced_rowwise.insertGroup hgroup href) henter

end Ledger

/-- What a batch that was accepted is made of is kept as its raw requests were understood. -/
theorem Service.Sent.keeps {s s' : Service} {g : Group} {batch : Batch} {entered told : List Entered}
    {updates : List Update} (h : s.Sent s' g batch entered told updates)
    (href : s.ledger.Referenced) :
    List.Forall₂ (fun id raw => ∃ new, validate raw = .ok new ∧
      s'.ledger.Keeps (new.stored id g.requesterId (some g.groupId)))
      (entered.map Entered.id) batch.solicitations := by
  rw [List.forall₂_map_left_iff]
  refine (List.forall₂_iff_zip.2 ⟨h.validated.length_eq.symm, fun {x raw} hmem => ?_⟩)
  have hx : x ∈ entered := (List.of_mem_zip hmem).1
  refine ⟨x.new, ?_, x.view g, h.find? href hx, rfl⟩
  exact (List.forall₂_iff_zip.1 h.validated.flip).2 hmem

/-- A solicitation whose parameters go with its equipment, as those of every valid one do, is read
back with the envelope that it was stored with, whether it was stored alone, with others, or on
request; and it still is after any operations. That events refer to what is there is a rule of the
store, which all operations keep (`Operation.run_referenced`). -/
theorem Service.envelopes_kept {p : Service} (href : p.ledger.Referenced) :
    (∀ raw new, validate raw = .ok new → new.params.Fits new.equipment) ∧
    (∀ new requesterId status time id ledger, new.params.Fits new.equipment →
      p.ledger.create new requesterId status time = .ok (id, ledger) →
      ∀ ops, (Operation.run ops { p with ledger }).ledger.Keeps (new.stored id requesterId none)) ∧
    (∀ g news status time ids ledger,
      p.ledger.createBatch g news status time = .ok (ids, ledger) →
      List.Forall₂ (fun id new => new.params.Fits new.equipment →
        ∀ ops, (Operation.run ops { p with ledger }).ledger.Keeps
          (new.stored id g.requesterId (some g.groupId))) ids news) ∧
    (∀ requesterId companyCode groupId batch receipt s',
      p.alone.submit requesterId companyCode groupId batch = (.ok receipt, s') →
      List.Forall₂ (fun id raw => ∃ new, validate raw = .ok new ∧
        ∀ ops, (Operation.run ops s'.service).ledger.Keeps
          (new.stored id requesterId (some groupId))) receipt.ids batch.solicitations) := by
  refine ⟨fun raw new => fits_of_validate, ?_, ?_, ?_⟩
  · intro new requesterId status time id ledger hfits hcreate ops
    exact (Operation.run_grows ops { p with ledger }).keeps (keeps_of_enter href hfits hcreate)
  · intro g news status time ids ledger hbatch
    refine (keeps_of_createBatch href hbatch).imp fun id new hkeeps hfits ops => ?_
    exact (Operation.run_grows ops { p with ledger }).keeps (hkeeps hfits)
  · intro requesterId companyCode groupId batch receipt s' hsubmit
    obtain ⟨entered, told, updates, rfl, -, hsent, -⟩ := Shared.submit_eq_ok hsubmit
    refine (hsent.keeps href).imp fun id raw hkeeps => ?_
    obtain ⟨new, hvalidated, hkeeps⟩ := hkeeps
    exact ⟨new, hvalidated, fun ops => (Operation.run_grows ops s'.service).keeps hkeeps⟩

/-- A transformer with the least amount that there is. It is accepted and then marked late, and after
that it is sent in again, together with other equipment. -/
theorem Service.envelopes_kept_of_late :
    let p : Service := ⟨.empty, ⟨.empty, []⟩, .default, .silent, 100⟩
    let tape : NewSolicitation := ⟨.transformer, .adjustForTape, "São Simão", "CTEEP",
      .transformer Text.Range.signed.lo .kv500 none (some .kv88)⟩
    let other : NewSolicitation := { tape with
      equipment := .synchronous, action := .reset, params := .synchronous none }
    let ops : List Operation :=
      [.append 1 (some "tito") .accepted 200, .setClock 1000, .request .sweep]
    let q := Operation.run (.create tape "ana" .new 100 :: ops) p
    p.ledger.Referenced ∧ tape.params.Fits tape.equipment ∧ other.params.Fits other.equipment ∧
      q.ledger.Keeps (tape.stored 1 "ana" none) ∧
      ∃ ledger, q.ledger.createBatch ⟨"first", "ana", 1200, 1000⟩ [other, tape] .new 1000 =
          .ok ([2, 3], ledger) ∧
        (Operation.run ops { q with ledger }).ledger.Keeps (other.stored 2 "ana" (some "first")) ∧
        (Operation.run ops { q with ledger }).ledger.Keeps (tape.stored 3 "ana" (some "first")) := by
  intro p tape other ops q
  have href : p.ledger.Referenced := ⟨List.forall_mem_nil _, List.forall_mem_nil _⟩
  have htape : tape.params.Fits tape.equipment := rfl
  have hother : other.params.Fits other.equipment := rfl
  have hcreated : p.ledger.create tape "ana" .new 100 = .ok (1, _) := rfl
  obtain ⟨-, hkeeps, -⟩ := envelopes_kept href
  have hfirst : q.ledger.Keeps (tape.stored 1 "ana" none) :=
    hkeeps _ _ _ _ _ _ htape hcreated ops
  have hids : (q.ledger.createBatch ⟨"first", "ana", 1200, 1000⟩ [other, tape] .new 1000).map
      Prod.fst = .ok [2, 3] := by
    subst q ops other tape p
    cbv
  cases hbatch : q.ledger.createBatch ⟨"first", "ana", 1200, 1000⟩ [other, tape] .new 1000 with
  | error e =>
    rw [hbatch] at hids
    cases hids
  | ok answer =>
    obtain ⟨ids, ledger⟩ := answer
    rw [hbatch] at hids
    obtain rfl : ids = [2, 3] := Except.ok.inj hids
    obtain ⟨-, -, hgroup, -⟩ := envelopes_kept (Operation.run_referenced href _)
    obtain ⟨hsecond, hrest⟩ := List.forall₂_cons.1 (hgroup _ _ _ _ _ _ hbatch)
    obtain ⟨hthird, -⟩ := List.forall₂_cons.1 hrest
    exact ⟨href, htape, hother, hfirst, ledger, rfl, hsecond hother ops, hthird htape ops⟩

end GridDispatch
