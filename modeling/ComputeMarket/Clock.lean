import ComputeMarket.Time

/-
This file defines a clock that moves only when it is told to.
-/

namespace ComputeMarket

/-- A clock that is set by hand. -/
structure Clock where
  now : Int64
  deriving DecidableEq

namespace Clock

def set (_ : Clock) (time : Int64) : Clock := ⟨time⟩

/-- Moves the clock on, around the end of the range if need be, and reports the time
that was aimed at, held at the end of the range. -/
def advance (clock : Clock) (seconds : Int64) : Int64 × Clock :=
  (Time.after clock.now seconds, ⟨clock.now + seconds⟩)

end Clock

end ComputeMarket
