/-
This file defines the arithmetic of timestamps, which are 64-bit counts of Unix seconds.
-/

namespace ComputeMarket.Time

/-- The time `span` seconds after `start`, held at the ends of the range. -/
def after (start span : Int64) : Int64 :=
  Int64.ofIntClamp (start.toInt + span.toInt)

/-- An integer that is too large or too small is cut to the end of the range. -/
theorem toInt_ofIntClamp (number : Int) :
    (Int64.ofIntClamp number).toInt =
      max (-0x8000000000000000) (min number 0x7fffffffffffffff) := by
  have least : Int64.minValue.toInt = -0x8000000000000000 := by decide
  have greatest : Int64.maxValue.toInt = 0x7fffffffffffffff := by decide
  unfold Int64.ofIntClamp
  split
  · split
    · rw [Int64.toInt_ofIntLE]; omega
    · omega
  · omega

/-- A later time is the exact sum, cut to the range of the clock. -/
theorem toInt_after (start span : Int64) :
    (after start span).toInt =
      max (-0x8000000000000000) (min (start.toInt + span.toInt) 0x7fffffffffffffff) :=
  toInt_ofIntClamp _

/-- The whole seconds from `start` to `finish`, none when `finish` comes first. -/
def secondsBetween (start finish : Int64) : Nat :=
  (finish.toInt - start.toInt).toNat

end ComputeMarket.Time
