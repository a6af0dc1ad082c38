import GridDispatch.Ledger.Query

/-!
# The order of a list

`ListedBefore` says when one view comes before another in a list: the hints decide in turn, and the
id at last. `View.order` compares two views accordingly (`View.order_eq_lt_iff`), and it is a total
preorder, so that a list can be sorted by it.
-/

namespace GridDispatch

/-! ## Buckets -/

namespace SortView

/-- The place among the buckets of the one that holds a status. -/
def place (view : SortView) (status : Status) : Nat :=
  view.buckets.findIdx fun b => b.statuses.contains status

/-- Whether the bucket that holds a status is listed with its newest first. -/
def newestFirst (view : SortView) (status : Status) : Bool :=
  view.buckets[view.place status]?.any Bucket.newestFirst

theorem rank_name (view : SortView) (status : Status) :
    Joined.rank view status.name = view.place status := by
  cases view <;> cases status <;> decide

theorem turned_name (view : SortView) (status : Status) :
    Joined.turned view status.name = view.newestFirst status := by
  cases view <;> cases status <;> decide

end SortView

/-! ## Hints -/

/-- The hint puts `a` before `b`. -/
def SortHint.Before (view : SortView) (a b : View) : SortHint → Prop
  | .status => view.place a.status < view.place b.status ∨
      view.place a.status = view.place b.status ∧
        if view.newestFirst a.status then b.updatedAt < a.updatedAt else a.updatedAt < b.updatedAt
  | .creationTime => b.createdAt < a.createdAt
  | .substation => a.solicitation.substationCode < b.solicitation.substationCode

/-- The hint makes no difference between `a` and `b`. -/
def SortHint.Ties (view : SortView) (a b : View) : SortHint → Prop
  | .status => view.place a.status = view.place b.status ∧ a.updatedAt = b.updatedAt
  | .creationTime => a.createdAt = b.createdAt
  | .substation => a.solicitation.substationCode = b.solicitation.substationCode

/-- `a` comes before `b` in a list that is sorted by the hints, the first of them first. -/
def ListedBefore (view : SortView) (a b : View) : List SortHint → Prop
  | [] => a.id < b.id
  | hint :: hints => hint.Before view a b ∨ hint.Ties view a b ∧ ListedBefore view a b hints

namespace View

/-- The time of the last change, negative where the newest comes first. -/
def changed (view : SortView) (v : View) : Int :=
  if view.newestFirst v.status then -v.updatedAt else v.updatedAt

def orderBy (view : SortView) : SortHint → View → View → Ordering
  | .status => compareLex (compareOn fun v => view.place v.status) (compareOn (changed view))
  | .creationTime => fun a b => compareOn View.createdAt b a
  | .substation => compareOn fun v => v.solicitation.substationCode

def order (view : SortView) : List SortHint → View → View → Ordering
  | [] => compareOn View.id
  | hint :: hints => compareLex (orderBy view hint) (order view hints)

instance (view : SortView) (hint : SortHint) : Std.TransCmp (orderBy view hint) :=
  match hint with
  | .status => inferInstanceAs (Std.TransCmp
      (compareLex (compareOn fun v => view.place v.status) (compareOn (changed view))))
  | .creationTime => inferInstanceAs (Std.TransCmp fun a b => compareOn View.createdAt b a)
  | .substation => inferInstanceAs (Std.TransCmp
      (compareOn fun v : View => v.solicitation.substationCode))

instance instTransCmpOrder (view : SortView) : (hints : List SortHint) →
    Std.TransCmp (order view hints)
  | [] => inferInstanceAs (Std.TransCmp (compareOn View.id))
  | hint :: hints =>
    have := instTransCmpOrder view hints
    inferInstanceAs (Std.TransCmp (compareLex (orderBy view hint) (order view hints)))

variable {view : SortView} {a b : View}

theorem orderBy_eq_lt_iff {hint : SortHint} :
    orderBy view hint a b = .lt ↔ hint.Before view a b := by
  cases hint with
  | status =>
    simp only [orderBy, compareLex, compareOn, Ordering.then_eq_lt, SortHint.Before,
      Nat.compare_eq_lt, Nat.compare_eq_eq, Int.compare_eq_lt]
    refine or_congr_right (and_congr_right fun hplace => ?_)
    have hsame : view.newestFirst b.status = view.newestFirst a.status := by
      rw [SortView.newestFirst, SortView.newestFirst, hplace]
    simp only [changed, hsame]
    split <;> omega
  | creationTime => exact Int.compare_eq_lt
  | substation => exact compareOfLessAndEq_eq_lt

theorem orderBy_eq_eq_iff {hint : SortHint} :
    orderBy view hint a b = .eq ↔ hint.Ties view a b := by
  cases hint with
  | status =>
    simp only [orderBy, compareLex, compareOn, Ordering.then_eq_eq, SortHint.Ties,
      Nat.compare_eq_eq, Int.compare_eq_eq]
    refine and_congr_right fun hplace => ?_
    have hsame : view.newestFirst b.status = view.newestFirst a.status := by
      rw [SortView.newestFirst, SortView.newestFirst, hplace]
    simp only [changed, hsame]
    split <;> omega
  | creationTime => exact Int.compare_eq_eq.trans eq_comm
  | substation => exact Std.LawfulEqOrd.compare_eq_iff_eq

theorem order_eq_lt_iff {hints : List SortHint} :
    order view hints a b = .lt ↔ ListedBefore view a b hints := by
  induction hints with
  | nil => exact Int.compare_eq_lt
  | cons hint hints ih =>
    rw [order, compareLex, Ordering.then_eq_lt, orderBy_eq_lt_iff, orderBy_eq_eq_iff, ih]
    rfl

theorem id_eq_of_order {hints : List SortHint} (h : order view hints a b = .eq) :
    a.id = b.id := by
  induction hints with
  | nil => exact Int.compare_eq_eq.1 h
  | cons hint hints ih => exact ih (Ordering.then_eq_eq.1 h).2

end View

end GridDispatch
