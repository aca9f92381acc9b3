import ComputeMarket.Clock

/-
This file proves what a clock shows after it was set and advanced any number of times, and where the
time that an advance tells is not the time that the clock shows then.
-/

namespace ComputeMarket

namespace Time

/-- A whole number that is a time. -/
def InRange (time : Int) : Prop := -0x8000000000000000 ≤ time ∧ time ≤ 0x7fffffffffffffff

theorem inRange_toInt (time : Int64) : InRange time.toInt :=
  ⟨Int64.le_toInt time, Int.le_of_lt_add_one (Int64.toInt_lt time)⟩

/-- A time in range is kept by the wrap. -/
theorem bmod_of_inRange {time : Int} (fits : InRange time) :
    time.bmod 0x10000000000000000 = time :=
  Int.bmod_eq_of_le fits.1 (Int.lt_add_one_of_le fits.2)

end Time

namespace Clock

/-- What a clock is told to do. -/
inductive Turn where
  | set (time : Int64)
  | advance (seconds : Int64)

/-- The clock after a call. -/
def turn (clock : Clock) : Turn → Clock
  | .set time => clock.set time
  | .advance seconds => (clock.advance seconds).2

/-- The clock after turns, one after the other. -/
def after (clock : Clock) (turns : List Turn) : Clock := turns.foldl turn clock

/-- The time that a turn leads to when times have no end. -/
def Turn.exact (time : Int) : Turn → Int
  | set time => time.toInt
  | advance seconds => time + seconds.toInt

/-- The time last set with all seconds since, in exact numbers. -/
def exactAfter (time : Int) (turns : List Turn) : Int := turns.foldl Turn.exact time

/-- The time that an advance aims at, in exact numbers. -/
def aim (clock : Clock) (seconds : Int64) : Int := clock.now.toInt + seconds.toInt

variable {clock : Clock} {time : Int}

/-- A turn keeps a clock at the exact time up to whole rounds of its range. -/
theorem toInt_turn (shown : clock.now.toInt = time.bmod 0x10000000000000000) (turn : Turn) :
    (clock.turn turn).now.toInt = (turn.exact time).bmod 0x10000000000000000 := by
  cases turn with
  | set time => exact (Int64.toInt_bmod time).symm
  | advance seconds =>
      have wrapped : (clock.now + seconds).toInt =
          (clock.now.toInt + seconds.toInt).bmod 0x10000000000000000 := Int64.toInt_add _ _
      rw [Clock.turn, Clock.advance, wrapped, shown, Int.bmod_add_bmod, Turn.exact]

/-- The clock shows the exact time, wrapped to 64 bits. -/
theorem toInt_after (shown : clock.now.toInt = time.bmod 0x10000000000000000)
    (turns : List Turn) :
    (clock.after turns).now.toInt = (exactAfter time turns).bmod 0x10000000000000000 := by
  induction turns generalizing clock time with
  | nil => exact shown
  | cons first rest inductionHypothesis => exact inductionHypothesis (toInt_turn shown first)

/-- What an advance tells is held at the end of the range. -/
theorem toInt_told (clock : Clock) (seconds : Int64) :
    (clock.advance seconds).1.toInt =
      max (-0x8000000000000000) (min (clock.aim seconds) 0x7fffffffffffffff) :=
  Time.toInt_after clock.now seconds

/-- What the clock shows after an advance has gone around the end of the range. -/
theorem toInt_shown (clock : Clock) (seconds : Int64) :
    (clock.advance seconds).2.now.toInt =
      if 0x7fffffffffffffff < clock.aim seconds then clock.aim seconds - 0x10000000000000000
      else if clock.aim seconds < -0x8000000000000000 then
        clock.aim seconds + 0x10000000000000000
      else clock.aim seconds := by
  have here := Time.inRange_toInt clock.now
  have span := Time.inRange_toInt seconds
  have wrapped := toInt_turn (Int64.toInt_bmod clock.now).symm (.advance seconds)
  rw [Clock.turn, Turn.exact] at wrapped
  rw [wrapped, Int.bmod]
  unfold Time.InRange at here span
  unfold aim
  omega

/-- What an advance tells, beside what the clock shows then. -/
structure Advances (clock : Clock) (seconds : Int64) : Prop where
  agrees : (clock.advance seconds).1 = (clock.advance seconds).2.now ↔
    Time.InRange (clock.aim seconds)
  exact : Time.InRange (clock.aim seconds) →
    (clock.advance seconds).2.now.toInt = clock.aim seconds
  late : 0x7fffffffffffffff < clock.aim seconds →
    (clock.advance seconds).1 = Int64.maxValue ∧
      (clock.advance seconds).2.now.toInt = clock.aim seconds - 0x10000000000000000
  early : clock.aim seconds < -0x8000000000000000 →
    (clock.advance seconds).1 = Int64.minValue ∧
      (clock.advance seconds).2.now.toInt = clock.aim seconds + 0x10000000000000000
  forward : 0 ≤ seconds →
    ((clock.advance seconds).2.now < clock.now ↔ 0x7fffffffffffffff < clock.aim seconds)

/-- An advance stores the wrapped time and tells the saturated one. -/
theorem advances (clock : Clock) (seconds : Int64) : clock.Advances seconds := by
  have told := clock.toInt_told seconds
  have shown := clock.toInt_shown seconds
  have here := Time.inRange_toInt clock.now
  have span := Time.inRange_toInt seconds
  have sum : clock.aim seconds = clock.now.toInt + seconds.toInt := rfl
  have last : Int64.maxValue.toInt = 0x7fffffffffffffff := by decide
  have first : Int64.minValue.toInt = -0x8000000000000000 := by decide
  have zero : (0 : Int64).toInt = 0 := by decide
  refine ⟨?_, ?_, ?_, ?_, ?_⟩ <;>
    simp only [← Int64.toInt_inj, Int64.le_iff_toInt_le, Int64.lt_iff_toInt_lt, Time.InRange,
      last, first, zero] at here span ⊢ <;>
    omega

/-- However a clock was set and advanced, it shows the exact time up to whole rounds of its range, so
that it shows the exact time itself where that is a time, whatever happened in between. The next
advance tells what the clock shows then exactly if the time that it aims at is one. If it is not,
the advance tells the end of the range that it has passed, and the clock has gone around it: an
advance by no negative number of seconds takes the clock back exactly if it aims past the last
time. -/
theorem advance_tells_shown_time (start : Clock) (turns : List Turn) (seconds : Int64) :
    (start.after turns).now.toInt =
      (exactAfter start.now.toInt turns).bmod 0x10000000000000000 ∧
    (Time.InRange (exactAfter start.now.toInt turns) →
      (start.after turns).now.toInt = exactAfter start.now.toInt turns) ∧
    (start.after turns).Advances seconds := by
  have shown := toInt_after (Int64.toInt_bmod start.now).symm turns
  refine ⟨shown, ?_, (start.after turns).advances seconds⟩
  intro fits
  rw [shown, Time.bmod_of_inRange fits]

/-- A clock that was set to the last time and is advanced by a second tells the last time and shows
the first one. -/
theorem clock_back_at_first_time :
    let clock := (Clock.mk 0).after [.set Int64.maxValue]
    let (told, next) := clock.advance 1
    told = Int64.maxValue ∧ next.now = Int64.minValue ∧ told ≠ next.now ∧
      (0 : Int64) ≤ 1 ∧ ¬ clock.now ≤ next.now := by
  decide

end Clock

end ComputeMarket
