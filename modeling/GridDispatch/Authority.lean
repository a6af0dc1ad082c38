import GridDispatch.Clock
import GridDispatch.Company
import GridDispatch.Status
import GridDispatch.Text.Numeral

/-!
# Who may change a status

`Role.targets` is the table of changes for each role. `Authority.check` decides on one request: a
status that a role never sets is not its to set, one that it sets only from other statuses is no
step from here, and an acceptance comes too late once the window since creation has passed.
-/

namespace GridDispatch

/-- The statuses that a role may give to a solicitation of the given status. -/
def Role.targets : Role → Status → List Status
  | .operator, .new => [.canceled]
  | .operator, .blocked => [.canceled]
  | .operator, .contested => [.required, .canceled]
  | .transmission, .new => [.accepted, .contested, .blocked]
  | .transmission, .accepted => [.blocked, .executed, .contested]
  | .transmission, .required => [.accepted]
  | .transmission, .late => [.executed, .blocked]
  | .system, .accepted => [.late]
  | _, _ => []

/-- Whether the role may give the status to a solicitation of some status. -/
def Role.sets (role : Role) (requested : Status) : Bool :=
  (Named.all : List Status).any fun current => (role.targets current).contains requested

/-- Why a change of status is refused. -/
inductive Refusal
  | noChange (status : Status)
  | noStep (source target : Status)
  | notAllowed (requested : Status)
  | expired (elapsed window : Int)
  deriving DecidableEq, Repr

def Refusal.message : Refusal → String
  | noChange status => "Solicitation is already in status " ++ status.name ++ "."
  | noStep source target =>
    "Status cannot change from " ++ source.name ++ " to " ++ target.name ++ "."
  | notAllowed requested =>
    "User is not allowed to change the status to " ++ requested.name ++ "."
  | expired elapsed window =>
    "Solicitation can no longer be accepted: " ++ Text.write elapsed ++ "s elapsed, window is " ++
      Text.write window ++ "s."

/-- The rules for a change of status: the tables, and the window for an acceptance in seconds. -/
structure Authority where
  window : Int
  deriving DecidableEq, Repr

def defaultWindow : Int := 300

def Authority.default : Authority := ⟨defaultWindow⟩

/-- Decides on a change of status that is asked for at `now`. -/
def Authority.check (a : Authority) (role : Role) (current requested : Status)
    (createdAt now : Int) : Except Refusal Unit :=
  if requested = current then .error (.noChange current)
  else if !role.sets requested then .error (.notAllowed requested)
  else if !(role.targets current).contains requested then .error (.noStep current requested)
  else if requested = .accepted ∧ a.window < elapsed createdAt now then
    .error (.expired (elapsed createdAt now) a.window)
  else .ok ()

theorem Role.sets_iff {role : Role} {requested : Status} :
    role.sets requested = true ↔ ∃ current, requested ∈ role.targets current := by
  simp only [sets, List.any_eq_true, List.contains_iff_mem]
  exact ⟨fun ⟨c, _, h⟩ => ⟨c, h⟩, fun ⟨c, h⟩ => ⟨c, Named.mem_all c, h⟩⟩

/-- A change is granted exactly when it is in the table of the role and not too late. -/
theorem Authority.check_eq_ok_iff {a : Authority} {role : Role} {current requested : Status}
    {createdAt now : Int} : a.check role current requested createdAt now = .ok () ↔
      requested ≠ current ∧ requested ∈ role.targets current ∧
        (requested = .accepted → elapsed createdAt now ≤ a.window) := by
  simp only [check]
  constructor
  · intro h
    split at h; · cases h
    split at h; · cases h
    split at h; · cases h
    split at h; · cases h
    rename_i h1 _ h3 h4
    refine ⟨h1, by simpa using h3, fun ha => ?_⟩
    have : ¬ a.window < elapsed createdAt now := fun hlt => h4 ⟨ha, hlt⟩
    omega
  · rintro ⟨h1, h2, h3⟩
    have hs : role.sets requested = true := Role.sets_iff.2 ⟨current, h2⟩
    rw [if_neg h1, if_neg (by simp [hs]), if_neg (by simpa using h2), if_neg]
    rintro ⟨ha, hlt⟩
    have := h3 ha
    omega

/-- A change comes too late exactly when it is an acceptance in the table of the role, and more than
the window has passed. -/
theorem Authority.check_eq_expired_iff {a : Authority} {role : Role} {current requested : Status}
    {createdAt now passed window : Int} :
    a.check role current requested createdAt now = .error (.expired passed window) ↔
      requested = .accepted ∧ requested ≠ current ∧ requested ∈ role.targets current ∧
        window = a.window ∧ passed = elapsed createdAt now ∧ window < passed := by
  simp only [check]
  constructor
  · intro h
    split at h; · cases h
    split at h; · cases h
    split at h; · cases h
    split at h
    · rename_i hchange _ htarget hlate
      cases h
      exact ⟨hlate.1, hchange, by simpa using htarget, rfl, rfl, hlate.2⟩
    · cases h
  · rintro ⟨haccepted, hchange, htarget, rfl, rfl, hlate⟩
    have hsets : role.sets requested = true := Role.sets_iff.2 ⟨current, htarget⟩
    rw [if_neg hchange, if_neg (by simp [hsets]), if_neg (by simpa using htarget),
      if_pos ⟨haccepted, hlate⟩]

end GridDispatch
