import BleHub.Firmware.Flash
import Mathlib.Tactic.IntervalCases

/-! The checksum of the flash pages reveals every change within two bytes that are neighbours. -/

namespace BleHub

/-- The upper half of the low byte goes into its lower half. -/
def mixLow (x : BitVec 16) : BitVec 16 := x ^^^ ((x &&& 0xff#16) >>> 4)

/-- The lowest bits go into the highest ones. -/
def mixTop (x : BitVec 16) : BitVec 16 := x ^^^ (x <<< 12)

/-- The low byte goes into the middle. -/
def mixMiddle (x : BitVec 16) : BitVec 16 := x ^^^ ((x &&& 0xff#16) <<< 5)

/-- What happens to the checksum once a byte has come in. -/
def mix (x : BitVec 16) : BitVec 16 := mixMiddle (mixTop (mixLow x))

/-- The two bytes of a checksum change places. -/
def swapBytes (x : BitVec 16) : BitVec 16 := (x >>> 8) ||| (x <<< 8)

/-- A byte comes into the swapped checksum and is mixed with it. -/
theorem toBitVec_crc16Step (crc : UInt16) (byte : UInt8) :
    (crc16Step crc byte).toBitVec =
      mix (swapBytes crc.toBitVec ^^^ byte.toBitVec.setWidth 16) := by
  -- Two shifts in a row are one shift by both distances.
  unfold crc16Step mix mixMiddle mixTop mixLow swapBytes
  simp

/-- Mixing the low byte again undoes it. -/
theorem mixLow_mixLow (x : BitVec 16) : mixLow (mixLow x) = x := by
  -- The upper half of the byte is the same both times.
  unfold mixLow
  apply BitVec.eq_of_getLsbD_eq
  intro i inside
  interval_cases i <;> simp

/-- Mixing the highest bits again undoes it. -/
theorem mixTop_mixTop (x : BitVec 16) : mixTop (mixTop x) = x := by
  -- The lowest bits are the same both times.
  unfold mixTop
  apply BitVec.eq_of_getLsbD_eq
  intro i inside
  interval_cases i <;> simp

/-- Mixing the middle four times undoes it. -/
theorem mixMiddle_four (x : BitVec 16) : mixMiddle (mixMiddle (mixMiddle (mixMiddle x))) = x := by
  -- The low byte changes as well, but what has been shifted twice is out of it.
  unfold mixMiddle
  apply BitVec.eq_of_getLsbD_eq
  intro i inside
  interval_cases i <;> simp

/-- Mixing loses nothing. -/
theorem mix_injective : Function.Injective mix := by
  -- Each of its three parts can be undone.
  intro x y same
  have middle := congrArg (mixMiddle ∘ mixMiddle ∘ mixMiddle) same
  simp only [mix, Function.comp_apply, mixMiddle_four] at middle
  have top := congrArg mixTop middle
  rw [mixTop_mixTop, mixTop_mixTop] at top
  have low := congrArg mixLow top
  rwa [mixLow_mixLow, mixLow_mixLow] at low

/-- Swapping the bytes again undoes it. -/
theorem swapBytes_swapBytes (x : BitVec 16) : swapBytes (swapBytes x) = x := by
  -- Every bit moves by half the width, and then once more.
  unfold swapBytes
  apply BitVec.eq_of_getLsbD_eq
  intro i inside
  interval_cases i <;> simp

/-- A byte keeps its value in a wider word. -/
theorem setWidth_injective : Function.Injective fun byte : UInt8 => byte.toBitVec.setWidth 16 := by
  -- Cutting the word back to the byte gives it back.
  intro a b same
  have cut := congrArg (BitVec.setWidth 8) same
  simp only [BitVec.setWidth_setWidth_of_le _ (by decide : 8 ≤ 16), BitVec.setWidth_eq] at cut
  exact UInt8.toBitVec_inj.mp cut

/-- Different checksums stay different when the same byte comes in. -/
theorem crc16Step_injective (byte : UInt8) : Function.Injective (crc16Step · byte) := by
  -- The byte cancels out once the mixing has been undone.
  intro x y same
  have bits := congrArg UInt16.toBitVec same
  simp only [toBitVec_crc16Step] at bits
  have swapped := congrArg swapBytes ((BitVec.xor_left_inj _).mp (mix_injective bits))
  rw [swapBytes_swapBytes, swapBytes_swapBytes] at swapped
  exact UInt16.toBitVec_inj.mp swapped

/-- Different bytes make different checksums. -/
theorem eq_of_crc16Step {crc : UInt16} {a b : UInt8} (same : crc16Step crc a = crc16Step crc b) :
    a = b := by
  -- The former checksum cancels out once the mixing has been undone.
  have bits := congrArg UInt16.toBitVec same
  simp only [toBitVec_crc16Step] at bits
  exact setWidth_injective ((BitVec.xor_right_inj _).mp (mix_injective bits))

/-- What happens to the low byte alone. -/
def mixByte (x : BitVec 8) : BitVec 8 :=
  let x := x ^^^ (x >>> 4)
  x ^^^ (x <<< 5)

/-- The low byte that comes out depends on the low byte that goes in. -/
theorem setWidth_mix (x : BitVec 16) : (mix x).setWidth 8 = mixByte (x.setWidth 8) := by
  -- No bit of the high byte is ever shifted down.
  unfold mix mixMiddle mixTop mixLow mixByte
  apply BitVec.eq_of_getLsbD_eq
  intro i inside
  interval_cases i <;> simp

/-- Mixing a byte loses nothing. -/
theorem mixByte_injective : Function.Injective mixByte := by
  -- Both of its parts undo themselves.
  let undo (x : BitVec 8) : BitVec 8 := (x ^^^ (x <<< 5)) ^^^ ((x ^^^ (x <<< 5)) >>> 4)
  have undone : Function.LeftInverse undo mixByte := by
    intro x
    unfold mixByte undo
    apply BitVec.eq_of_getLsbD_eq
    intro i inside
    interval_cases i <;> simp
  exact undone.injective

/-- Two bytes in a row make different checksums unless both are the same. -/
theorem eq_of_crc16Step_crc16Step {crc : UInt16} {a b a' b' : UInt8}
    (same : crc16Step (crc16Step crc a) b = crc16Step (crc16Step crc a') b') :
    a = a' ∧ b = b' := by
  -- The low byte of the first checksum becomes the high byte, which the second byte leaves alone.
  have bits := congrArg UInt16.toBitVec same
  simp only [toBitVec_crc16Step] at bits
  have unmixed := mix_injective bits
  have high (x : BitVec 16) (byte : BitVec 8) :
      ((swapBytes x ^^^ byte.setWidth 16) >>> 8).setWidth 8 = x.setWidth 8 := by
    unfold swapBytes
    apply BitVec.eq_of_getLsbD_eq
    intro i inside
    interval_cases i <;> simp
  have low (x : BitVec 16) (byte : BitVec 8) :
      (x ^^^ byte.setWidth 16).setWidth 8 = x.setWidth 8 ^^^ byte := by
    apply BitVec.eq_of_getLsbD_eq
    intro i inside
    interval_cases i <;> simp
  have first := congrArg (fun x : BitVec 16 => (x >>> 8).setWidth 8) unmixed
  simp only [high, setWidth_mix, low] at first
  have bytes : a = a' :=
    UInt8.toBitVec_inj.mp ((BitVec.xor_right_inj _).mp (mixByte_injective first))
  subst bytes
  exact ⟨rfl, eq_of_crc16Step same⟩

/-- A change within a byte, or within two bytes that are neighbours, changes the checksum. -/
theorem crc16_ne {before part part' after : List UInt8} (changed : part ≠ part')
    (length : part.length = part'.length) (short : part.length ≤ 2) (pCrc : Option UInt16) :
    bleFlashCrc16Compute (before ++ part ++ after) pCrc ≠
      bleFlashCrc16Compute (before ++ part' ++ after) pCrc := by
  -- What matters is the changed part alone, whatever the checksum in front of it.
  refine Checksum.sum_ne_of_part crc16Step_injective fun crc same => changed ?_
  match part, part' with
  | [], [] => rfl
  | [a], [a'] => rw [eq_of_crc16Step same]
  | [a, b], [a', b'] =>
    obtain ⟨rfl, rfl⟩ := eq_of_crc16Step_crc16Step same
    rfl

end BleHub
