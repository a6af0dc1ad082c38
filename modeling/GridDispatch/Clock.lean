/-!
# Time

Times are whole seconds in 64 bits. A sum or difference of times that does not fit wraps around.
-/

namespace GridDispatch

/-- The 64-bit number that differs from `n` by a multiple of `2 ^ 64`. -/
def wrap (n : Int) : Int := Int.bmod n 18446744073709551616

/-- The seconds from `start` to `now`. -/
def elapsed (start now : Int) : Int := wrap (now - start)

/-- How a clock that is moved by hand moves. -/
inductive ClockMove
  | set (time : Int)
  | advance (seconds : Int)
  deriving DecidableEq, Repr

def ClockMove.apply (now : Int) : ClockMove → Int
  | set time => time
  | advance seconds => wrap (now + seconds)

/-- The readings of a clock: the first, and one after each move. -/
def clockReadings (now : Int) : List ClockMove → List Int
  | [] => [now]
  | move :: moves => now :: clockReadings (move.apply now) moves

theorem wrap_of_fits {n : Int} (h : -9223372036854775808 ≤ n ∧ n < 9223372036854775808) :
    wrap n = n :=
  Int.bmod_eq_of_le (by omega) (by omega)

end GridDispatch
