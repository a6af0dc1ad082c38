import GridDispatch.Proofs.LateSweep.Happenings
import GridDispatch.Proofs.Recount.Requests

/-!
# Candidates of a sweep

One candidate after the other is marked, passed over, or ends the sweep. A candidate is passed over
only if it is no longer accepted or others touch it right then, and the sweep ends only if the storage
refuses the event (`Transition.late_amid`). By induction on the candidates, whatever others do, a
sweep goes through all of them, or through those before the refused one: each of these that others do
not touch is marked (`GoneThrough`, `Shared.markEach_amid`).
-/

namespace GridDispatch

open Ledger

/-- The newest event of the solicitation is an acceptance. -/
def Ledger.Accepted (l : Ledger) (id : Int) : Prop :=
  ∃ row, l.head? id = some row ∧ row.status = Status.accepted.name

/-- The storage refuses the event that marks the solicitation late. -/
def Service.RefusesLate (p : Service) (id : Int) (e : WorkflowError) : Prop :=
  ∃ fault time, e = .store fault ∧ p.ledger.insertEvent id none .late time none = .error fault

namespace Ledger

variable {l l' : Ledger} {id : Int}

theorem head?_congr (h : l'.written id = l.written id) : l'.head? id = l.head? id :=
  congrArg (fun rows => (rows.mergeSort EventRow.newer).head?) h

theorem Accepted.congr (h : l.Accepted id) (hwritten : l'.written id = l.written id) :
    l'.Accepted id := by
  obtain ⟨row, hrow, haccepted⟩ := h
  exact ⟨row, (head?_congr hwritten).trans hrow, haccepted⟩

theorem logs_of_legible (hread : ∀ row ∈ l.events, ∃ e, row.read = .ok e) (id : Int) :
    ∃ log, l.Logs id log := by
  refine exists_logs fun row hrow => ?_
  obtain ⟨e, he⟩ := hread row (mem_written.1 hrow).1
  exact ⟨e, (EventRow.read_eq_ok_iff.1 he).symm⟩

end Ledger

/-! ## Errors -/

theorem WorkflowError.concernsOne_refused (refusal : Refusal) :
    (refused refusal).concernsOne = true := by
  cases refusal <;> rfl

/-! ## One candidate -/

namespace Transition

variable {s s' : Shared} {id : Int} {e : WorkflowError}

/-- What is accepted may be marked late. -/
theorem granted_of_accepted (hread : ∀ row ∈ s.service.ledger.events, ∃ e, row.read = .ok e)
    (h : s.service.ledger.Accepted id) : ∃ state row, (late id).Granted s state ∧
      s.service.ledger.head? id = some row ∧ row.eventId = state.headEventId := by
  obtain ⟨row, hrow, haccepted⟩ := h
  obtain ⟨log, hlog⟩ := logs_of_legible hread id
  have hhead := hlog.head?.symm.trans hrow
  obtain ⟨head, hnewest, rfl⟩ := Option.map_eq_some_iff.1 hhead
  cases hof : State.ofEvents? log with
  | none =>
    rw [newest_eq_none_iff.2 (State.ofEvents?_eq_none_iff.1 hof)] at hnewest
    cases hnewest
  | some state =>
    obtain ⟨head', hnewest', hstatus, -, hid⟩ := State.newest_of_ofEvents? hof
    cases hnewest.symm.trans hnewest'
    have hname : Named.name head.status = Named.name Status.accepted := haccepted
    have hsource : state.status = .accepted := hstatus.trans (Named.name_inj hname)
    refine ⟨state, _, ⟨hlog.state?.trans (congrArg _ hof), ?_⟩, hrow, hid.symm⟩
    refine Authority.check_eq_ok_iff.2 ⟨?_, ?_, ?_⟩
    · rw [hsource]
      exact Status.noConfusion
    · rw [hsource]
      exact List.mem_singleton_self _
    · exact Status.noConfusion

/-- An attempt that fails concerns its candidate only, or the storage refuses the event. -/
theorem late_attempt_eq_error (hread : ∀ row ∈ s.service.ledger.events, ∃ e, row.read = .ok e)
    (h : (late id).attempt s = (.error e, s')) :
    e.concernsOne = true ∧ (s' = s ∧ ¬ s.service.ledger.Accepted id ∨ s' = s.later) ∨
      e.concernsOne = false ∧ s' = s.later ∧ s'.service.RefusesLate id e := by
  obtain ⟨log, hlog⟩ := logs_of_legible hread id
  simp only [attempt, late, hlog.state?, Shared.readClock_eq] at h
  split at h
  · rename_i hnone
    cases hnone
  · rename_i hstate
    cases h
    refine .inl ⟨rfl, .inl ⟨rfl, ?_⟩⟩
    rintro ⟨row, hrow, -⟩
    have hnone := newest_eq_none_iff.2 (State.ofEvents?_eq_none_iff.1 (Except.ok.inj hstate))
    rw [hlog.head?, hnone] at hrow
    cases hrow
  · split at h
    · cases h
      exact .inl ⟨WorkflowError.concernsOne_refused _, .inr rfl⟩
    · split at h
      · rename_i fault happend
        cases h
        simp only [appendIfCurrent] at happend
        split at happend
        · cases happend
          exact .inl ⟨rfl, .inr rfl⟩
        · split at happend
          · have hstore := ofStore_of_insertEvent happend
            exact .inr ⟨hstore ▸ rfl, rfl, fault, _, hstore, happend⟩
          · cases happend
            exact .inl ⟨rfl, .inr rfl⟩
      · cases h

/-- If nobody touches what is accepted while it is marked, nothing but the storage is in the way. -/
theorem late_attempt_of_untouched (hread : ∀ row ∈ s.service.ledger.events, ∃ e, row.read = .ok e)
    (haccepted : s.service.ledger.Accepted id)
    (hsame : s.later.service.ledger.written id = s.service.ledger.written id)
    (h : (late id).attempt s = (.error e, s')) : e.concernsOne = false := by
  obtain ⟨state, row, hgranted, hrow, hseen⟩ := granted_of_accepted hread haccepted
  have hhead : s.later.service.ledger.head? id = some row := (head?_congr hsame).trans hrow
  have hcurrent : row.eventId = state.marker.headEventId := hseen
  rw [attempt_of_granted hgranted] at h
  simp only [appendIfCurrent, late, hhead, if_pos hcurrent] at h
  split at h
  · rename_i fault hinsert
    cases h
    rw [ofStore_of_insertEvent hinsert]
    rfl
  · cases h

/-- What a candidate comes to: it is marked; or it is passed over, since it is not accepted or others
touch it right then; or the storage refuses the event. -/
def LateOutcome (id : Int) (p : Service) (acts : List Interference) (after : Service) :
    Except WorkflowError Applied → Prop
  | .ok _ => Mark.Made ⟨id, Interference.run acts p, after⟩
  | .error e => after = Interference.run acts p ∧
      (e.concernsOne = true ∧
        (p.ledger.Accepted id → ∃ x ∈ Interference.trace acts p, x.Touches id) ∨
      e.concernsOne = false ∧ after.RefusesLate id e)

/-- Others touch a solicitation if its events are not the same after their acts. -/
theorem touches_of_written_ne {acts : List Interference} {p : Service}
    (h : (Interference.run acts p).ledger.written id ≠ p.ledger.written id) :
    ∃ x ∈ Interference.trace acts p, x.Touches id := by
  by_contra hnone
  refine h ((Interference.trace_happened acts p).written ?_ ?_)
  · rw [Interference.trace_marked?]
    exact List.not_mem_nil
  · intro x hx htouches
    exact hnone ⟨x, hx, htouches⟩

theorem touches_mono {others : List (List Interference)} {p : Service}
    (h : ∃ x ∈ Interference.trace (others.take 1).flatten p, x.Touches id) :
    ∃ x ∈ Interference.trace (others.take 2).flatten p, x.Touches id := by
  obtain ⟨x, hx, htouches⟩ := h
  refine ⟨x, ?_, htouches⟩
  have hsplit : others.take (1 + 1) = others.take 1 ++ (others.drop 1).take 1 := List.take_add
  change x ∈ Interference.trace (others.take (1 + 1)).flatten p
  rw [hsplit, List.flatten_append, Interference.trace_append]
  exact List.mem_append_left _ hx

/-- Whatever others do, a candidate comes to one of these. -/
theorem late_amid (id : Int) (p : Service) (others : List (List Interference))
    (hread : ∀ row ∈ p.ledger.events, ∃ e, row.read = .ok e) (hn : p.ledger.Numbered) :
    ∃ n answer after, (late id).apply (p.amid others) = (answer, after.amid (others.drop n)) ∧
      LateOutcome id p (others.take n).flatten after answer := by
  have horderly := p.amid_orderly others
  have hone : (p.amid others).later = _ := p.iterate_later_amid others 1
  have htwo : (p.amid others).later.later = _ := p.iterate_later_amid others 2
  obtain ⟨answer, s', happly⟩ : ∃ answer s', (late id).apply (p.amid others) = (answer, s') :=
    ⟨_, _, rfl⟩
  rw [happly]
  cases answer with
  | ok applied =>
    have hnext := apply_nextId happly
    obtain ⟨head, e, hreplaces, rfl, hmeanwhile⟩ :=
      apply_replaces hn horderly.onward horderly.later.onward happly
    have haccepted := Role.eq_accepted_of_late hreplaces.allowed
    rcases (late id).turn_cases (p.amid others) with hturn | hturn
    · rw [hturn, hone] at hreplaces hmeanwhile hnext
      refine ⟨1, .ok ⟨e.eventId, head.status⟩, s'.service, ?_, ⟨head, e, hreplaces, haccepted, hnext⟩⟩
      rw [← Shared.eq_amid hmeanwhile]
    · rw [hturn, htwo] at hreplaces hmeanwhile hnext
      refine ⟨2, .ok ⟨e.eventId, head.status⟩, s'.service, ?_, ⟨head, e, hreplaces, haccepted, hnext⟩⟩
      rw [← Shared.eq_amid hmeanwhile]
  | error e =>
    -- an attempt that others do not interfere with is not the one that is passed over
    have htouched {e' : WorkflowError} {s'' : Shared} (hone' : e'.concernsOne = true)
        (hattempt : (late id).attempt (p.amid others) = (.error e', s'')) (h : p.ledger.Accepted id) :
        ∃ x ∈ Interference.trace (others.take 1).flatten p, x.Touches id := by
      refine touches_of_written_ne fun hsame => ?_
      have hlater : (p.amid others).later.service.ledger.written id = p.ledger.written id := by
        rw [hone]
        exact hsame
      rw [late_attempt_of_untouched hread h hlater hattempt] at hone'
      cases hone'
    by_cases hloses : (late id).Loses (p.amid others)
    · rw [apply_of_loses hloses] at happly
      have hread' : ∀ row ∈ (p.amid others).later.service.ledger.events, ∃ e, row.read = .ok e := by
        rw [hone]
        exact (Interference.trace_happened _ p).moved.legible hread
      have hfirst := htouched rfl (attempt_of_loses hloses)
      rcases late_attempt_eq_error hread' happly with
        ⟨hone', ⟨rfl, -⟩ | rfl⟩ | ⟨hmany, rfl, hrefuses⟩
      · exact ⟨1, .error e, _, congrArg _ hone, ⟨rfl, .inl ⟨hone', hfirst⟩⟩⟩
      · exact ⟨2, .error e, _, congrArg _ htwo, ⟨rfl, .inl ⟨hone', fun h => touches_mono (hfirst h)⟩⟩⟩
      · rw [htwo] at hrefuses
        exact ⟨2, .error e, _, congrArg _ htwo, ⟨rfl, .inr ⟨hmany, hrefuses⟩⟩⟩
    · rw [apply_of_not_loses hloses] at happly
      rcases late_attempt_eq_error hread happly with
        ⟨hone', ⟨rfl, hnot⟩ | rfl⟩ | ⟨hmany, rfl, hrefuses⟩
      · exact ⟨0, .error e, p, rfl, ⟨rfl, .inl ⟨hone', fun h => absurd h hnot⟩⟩⟩
      · exact ⟨1, .error e, _, congrArg _ hone, ⟨rfl, .inl ⟨hone', htouched hone' happly⟩⟩⟩
      · rw [hone] at hrefuses
        exact ⟨1, .error e, _, congrArg _ hone, ⟨rfl, .inr ⟨hmany, hrefuses⟩⟩⟩

end Transition

/-! ## All candidates -/

/-- These candidates were gone through, from `p` on: the marks are among them and in their order, and
none of them that was accepted was left out, unless others touched it. -/
structure GoneThrough (ids : List Int) (p : Service) (trace : List Happening) : Prop where
  marks : (trace.filterMap Happening.marked?).Sublist ids
  reached : ∀ id ∈ ids, p.ledger.Accepted id →
    id ∈ trace.filterMap Happening.marked? ∨ ∃ x ∈ trace, x.Touches id

/-- What a sweep over candidates comes to: it gives its marks and has gone through all candidates; or
it has gone through those before one whose event the storage refuses. -/
def SweptTo (ids : List Int) (p : Service) (trace : List Happening) (q : Service) :
    Except WorkflowError (List Int) → Prop
  | .ok marked => marked = trace.filterMap Happening.marked? ∧ GoneThrough ids p trace
  | .error e => ∃ done id rest, ids = done ++ id :: rest ∧ GoneThrough done p trace ∧
      q.RefusesLate id e

section Candidates

variable {p p' q : Service} {id : Int} {ids : List Int} {first trace : List Happening}
  {answer : Except WorkflowError (List Int)}

/-- What was accepted before the first happenings still is, unless it was marked or touched. -/
theorem Happened.accepted_or_touched (h : Happened p first p') (haccepted : p.ledger.Accepted id)
    (hmarked : id ∉ first.filterMap Happening.marked?) :
    p'.ledger.Accepted id ∨ ∃ x ∈ first, x.Touches id := by
  by_cases htouched : ∃ x ∈ first, x.Touches id
  · exact .inr htouched
  · exact .inl (haccepted.congr (h.written hmarked fun x hx hx' => htouched ⟨x, hx, hx'⟩))

namespace GoneThrough

theorem nil (hnone : trace.filterMap Happening.marked? = []) : GoneThrough [] p trace :=
  ⟨hnone ▸ .slnil, List.forall_mem_nil _⟩

/-- What was reached among those that come later was reached in all that happened. -/
theorem reached_append (hfirst : Happened p first p') (h : GoneThrough ids p' trace) (hid : id ∈ ids)
    (haccepted : p.ledger.Accepted id) (hmarked : id ∉ first.filterMap Happening.marked?) :
    id ∈ (first ++ trace).filterMap Happening.marked? ∨ ∃ x ∈ first ++ trace, x.Touches id := by
  rw [List.filterMap_append]
  rcases hfirst.accepted_or_touched haccepted hmarked with hlater | ⟨x, hx, htouches⟩
  · rcases h.reached id hid hlater with hmark | ⟨x, hx, htouches⟩
    · exact .inl (List.mem_append_right _ hmark)
    · exact .inr ⟨x, List.mem_append_right _ hx, htouches⟩
  · exact .inr ⟨x, List.mem_append_left _ hx, htouches⟩

/-- A candidate that was marked comes first. -/
theorem marked (hfirst : Happened p first p') (hid : first.filterMap Happening.marked? = [id])
    (hnew : id ∉ ids) (h : GoneThrough ids p' trace) :
    GoneThrough (id :: ids) p (first ++ trace) where
  marks := by
    rw [List.filterMap_append, hid]
    exact h.marks.cons_cons id
  reached i hi haccepted := by
    rcases List.mem_cons.1 hi with rfl | hrest
    · refine .inl ?_
      rw [List.filterMap_append, hid]
      exact List.mem_cons_self
    · refine h.reached_append hfirst hrest haccepted ?_
      rw [hid, List.mem_singleton]
      rintro rfl
      exact hnew hrest

/-- A candidate that was passed over was not accepted any more, or others touched it. -/
theorem passed (hfirst : Happened p first p') (hnone : first.filterMap Happening.marked? = [])
    (hpassed : p.ledger.Accepted id → ∃ x ∈ first, x.Touches id) (h : GoneThrough ids p' trace) :
    GoneThrough (id :: ids) p (first ++ trace) where
  marks := by
    rw [List.filterMap_append, hnone, List.nil_append]
    exact h.marks.cons id
  reached i hi haccepted := by
    rcases List.mem_cons.1 hi with rfl | hrest
    · obtain ⟨x, hx, htouches⟩ := hpassed haccepted
      exact .inr ⟨x, List.mem_append_left _ hx, htouches⟩
    · exact h.reached_append hfirst hrest haccepted (hnone ▸ List.not_mem_nil)

end GoneThrough

theorem SweptTo.marked (hfirst : Happened p first p') (hid : first.filterMap Happening.marked? = [id])
    (hnew : id ∉ ids) (h : SweptTo ids p' trace q answer) :
    SweptTo (id :: ids) p (first ++ trace) q (answer.map (id :: ·)) := by
  cases answer with
  | error e =>
    obtain ⟨done, id', rest, rfl, hdone, hrefuses⟩ := h
    have hnew' : id ∉ done := fun hmem => hnew (List.mem_append_left _ hmem)
    exact ⟨id :: done, id', rest, rfl, hdone.marked hfirst hid hnew', hrefuses⟩
  | ok marked =>
    obtain ⟨rfl, hall⟩ := h
    refine ⟨?_, hall.marked hfirst hid hnew⟩
    rw [List.filterMap_append, hid]
    rfl

theorem SweptTo.passed (hfirst : Happened p first p') (hnone : first.filterMap Happening.marked? = [])
    (hpassed : p.ledger.Accepted id → ∃ x ∈ first, x.Touches id) (h : SweptTo ids p' trace q answer) :
    SweptTo (id :: ids) p (first ++ trace) q answer := by
  cases answer with
  | error e =>
    obtain ⟨done, id', rest, rfl, hdone, hrefuses⟩ := h
    exact ⟨id :: done, id', rest, rfl, hdone.passed hfirst hnone hpassed, hrefuses⟩
  | ok marked =>
    obtain ⟨rfl, hall⟩ := h
    refine ⟨?_, hall.passed hfirst hnone hpassed⟩
    rw [List.filterMap_append, hnone, List.nil_append]

end Candidates

namespace Shared

/-- The sweep makes nothing but its marks among what the others do, and leaves no candidate out. -/
theorem markEach_amid (ids : List Int) (p : Service) (others : List (List Interference))
    (hnodup : ids.Nodup) (hread : ∀ row ∈ p.ledger.events, ∃ e, row.read = .ok e)
    (hn : p.ledger.Numbered) :
    ∃ n answer q trace, (p.amid others).markEach ids = (answer, q.amid (others.drop n)) ∧
      Happened p trace q ∧ trace.filterMap Happening.act? = (others.take n).flatten ∧
      SweptTo ids p trace q answer := by
  induction ids generalizing p others with
  | nil =>
    exact ⟨0, .ok [], p, [], rfl, .nil, rfl, rfl, .nil rfl⟩
  | cons id ids ih =>
    obtain ⟨n, applied, after, happly, houtcome⟩ := Transition.late_amid id p others hread hn
    have hacts := Interference.trace_happened (others.take n).flatten p
    have hsplit (k : Nat) : (others.take (n + k)).flatten =
        (others.take n).flatten ++ ((others.drop n).take k).flatten := by
      rw [List.take_add, List.flatten_append]
    obtain ⟨hnew, hids⟩ := List.nodup_cons.1 hnodup
    cases applied with
    | ok applied =>
      let m : Mark := ⟨id, Interference.run (others.take n).flatten p, after⟩
      have hmade : m.Made := houtcome
      have hfirst : Happened p (Interference.trace (others.take n).flatten p ++ [.mark m])
          (after.announceLate id) := hacts.trans (.mark hmade .nil)
      have hmarked : (Interference.trace (others.take n).flatten p ++ [Happening.mark m]).filterMap
          Happening.marked? = [id] := by
        rw [List.filterMap_append, Interference.trace_marked?]
        rfl
      obtain ⟨k, answer, q, trace, hrest, hhappened, hothers, hswept⟩ :=
        ih (after.announceLate id) (others.drop n) hids (hfirst.moved.legible hread)
          (hn.onward hfirst.moved.onward)
      refine ⟨n + k, answer.map (id :: ·), q, _, ?_, hfirst.trans hhappened, ?_,
        hswept.marked hfirst hmarked hnew⟩
      · rw [List.drop_drop] at hrest
        have hnext : markEach { after.amid (others.drop n) with service := after.announceLate id } ids =
            (answer, q.amid (others.drop (n + k))) := hrest
        have hservice : (after.amid (others.drop n)).service = after := rfl
        simp only [markEach, happly, hservice, hnext]
        cases answer with
        | ok marked => rfl
        | error e => rfl
      · rw [List.filterMap_append, List.filterMap_append, Interference.trace_act?, hothers, hsplit,
          List.append_assoc]
        rfl
    | error e =>
      obtain ⟨rfl, ⟨hone, hpassed⟩ | ⟨hmany, hrefuses⟩⟩ := houtcome
      · obtain ⟨k, answer, q, trace, hrest, hhappened, hothers, hswept⟩ :=
          ih _ (others.drop n) hids (hacts.moved.legible hread) (hn.onward hacts.moved.onward)
        refine ⟨n + k, answer, q, _, ?_, hacts.trans hhappened, ?_,
          hswept.passed hacts (Interference.trace_marked? ..) hpassed⟩
        · simp only [markEach, happly, hone, if_pos, hrest, List.drop_drop]
        · rw [List.filterMap_append, Interference.trace_act?, hothers, hsplit]
      · refine ⟨n, .error e, _, _, ?_, hacts, Interference.trace_act? .., [], id, ids, rfl,
          .nil (Interference.trace_marked? ..), hrefuses⟩
        simp only [markEach, happly, hmany]
        rfl

end Shared

end GridDispatch
