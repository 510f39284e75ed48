import Mathlib.Tactic.Common

/-! The GPIO output register and the pins that drive the LEDs of the board. -/

namespace BleHub

/-- The GPIO output register, one bit for each pin. -/
abbrev GpioOut : Type := BitVec 32

/-- Pin of the LED that shows the advertising state. -/
def advertisingLedPinNo : Nat := 8
/-- Pin of the LED that shows the connected state. -/
def connectedLedPinNo : Nat := 9
/-- Pin of the LED that shows a failed assertion. -/
def assertLedPinNo : Nat := 15

/-- Drive a pin high through the OUTSET register. -/
def nrfGpioPinSet (pinNumber : Nat) (out : GpioOut) : GpioOut := out ||| (1#32 <<< pinNumber)

/-- Drive a pin low through the OUTCLR register. -/
def nrfGpioPinClear (pinNumber : Nat) (out : GpioOut) : GpioOut := out &&& ~~~(1#32 <<< pinNumber)

/-- Whether the LED on a pin is on. -/
def ledOn (pinNumber : Nat) (out : GpioOut) : Bool := out.getLsbD pinNumber

/-- Setting a pin turns on its own LED and no other. -/
theorem ledOn_pinSet {pin other : Nat} (out : GpioOut) (inside : other < 32) :
    ledOn other (nrfGpioPinSet pin out) = (decide (other = pin) || ledOn other out) := by
  -- The shifted one has its only set bit at the pin's position.
  simp only [ledOn, nrfGpioPinSet, BitVec.getLsbD_or, BitVec.getLsbD_shiftLeft, inside,
    decide_true, Bool.true_and, BitVec.getLsbD_one]
  by_cases same : other = pin
  · simp [same]
  · simp [same]
    omega

/-- Clearing a pin turns off its own LED and no other. -/
theorem ledOn_pinClear {pin other : Nat} (out : GpioOut) (inside : other < 32) :
    ledOn other (nrfGpioPinClear pin out) = (decide (other ≠ pin) && ledOn other out) := by
  -- The complemented mask is set everywhere but at the pin's position.
  simp only [ledOn, nrfGpioPinClear, BitVec.getLsbD_and, BitVec.getLsbD_not,
    BitVec.getLsbD_shiftLeft, inside, decide_true, Bool.true_and, BitVec.getLsbD_one]
  by_cases same : other = pin
  · simp [same]
  · have apart : other < pin ∨ other - pin ≠ 0 := by omega
    rcases apart with below | above
    · simp [same, below]
    · simp [same, above]

end BleHub
