import Mathlib.Tactic.Common
import Mathlib.Data.List.FinRange

/-! Bit vectors as sets of positions, and loops that go through all positions of one. -/

namespace BitMask

variable {w : Nat}

/-- The mask with just one position in it. -/
def bit (i : Nat) : BitVec w := 1#w <<< i

/-- Whether a position is in a mask. -/
def has (mask : BitVec w) (i : Fin w) : Bool := mask.getLsbD i

/-- Masks with the same positions are the same. -/
theorem ext_has {left right : BitVec w} (same : ∀ i, has left i = has right i) : left = right :=
  -- Positions beyond the width are in no mask.
  BitVec.eq_of_getLsbD_eq fun i inside => same ⟨i, inside⟩

@[simp] theorem has_zero (i : Fin w) : has (0#w) i = false := BitVec.getLsbD_zero

@[simp] theorem has_and (left right : BitVec w) (i : Fin w) :
    has (left &&& right) i = (has left i && has right i) := BitVec.getLsbD_and

@[simp] theorem has_or (left right : BitVec w) (i : Fin w) :
    has (left ||| right) i = (has left i || has right i) := BitVec.getLsbD_or

@[simp] theorem has_xor (left right : BitVec w) (i : Fin w) :
    has (left ^^^ right) i = (has left i ^^ has right i) := BitVec.getLsbD_xor

@[simp] theorem has_not (mask : BitVec w) (i : Fin w) : has (~~~mask) i = !has mask i := by
  simp [has]

@[simp] theorem has_bit (i : Nat) (j : Fin w) : has (bit i) j = decide (j.val = i) := by
  unfold has bit
  rw [BitVec.getLsbD_shiftLeft, BitVec.getLsbD_one]
  by_cases same : j.val = i
  · have room : 0 < w := by omega
    simp [← same, room]
  · -- Below the position nothing is shifted in, and above it there is no other bit.
    have apart : j.val < i ∨ j.val - i ≠ 0 := by omega
    rcases apart with below | above
    · simp [below, same]
    · simp [above, same]

/-- A mask is not empty exactly if some position is in it. -/
theorem ne_zero_iff (mask : BitVec w) : mask ≠ 0#w ↔ ∃ i, has mask i = true := by
  -- A mask without positions has the same ones as the empty mask.
  constructor
  · intro some
    by_contra none
    refine some (ext_has fun i => ?_)
    have missing : has mask i ≠ true := fun member => none ⟨i, member⟩
    rw [Bool.eq_false_of_not_eq_true missing, has_zero]
  · rintro ⟨i, member⟩ rfl
    rw [has_zero] at member
    cases member

/-- The usual test for a position: the mask shares it with the mask of the position. -/
theorem and_bit_ne_zero (mask : BitVec w) (i : Fin w) :
    mask &&& bit i.val ≠ 0#w ↔ has mask i = true := by
  rw [ne_zero_iff]
  constructor
  · rintro ⟨j, both⟩
    rw [has_and, has_bit, Bool.and_eq_true, decide_eq_true_eq] at both
    rw [← Fin.ext both.2]
    exact both.1
  · intro member
    exact ⟨i, by rw [has_and, has_bit, member]; simp⟩

/-- Otherwise the position is not in it. -/
theorem and_bit_eq_zero (mask : BitVec w) (i : Fin w) :
    mask &&& bit i.val = 0#w ↔ has mask i = false := by
  rw [← Bool.not_eq_true, ← and_bit_ne_zero, not_not]

/--
A loop over all positions, each turn of which only changes what it sees at its own position.

Then every position ends as its own turn leaves it.
-/
theorem foldl_finRange {σ β : Type} (view : σ → Fin w → β) (turn : σ → Fin w → σ)
    (result : Fin w → β → β) (here : ∀ s i, view (turn s i) i = result i (view s i))
    (elsewhere : ∀ s i j, j ≠ i → view (turn s i) j = view s j) (s : σ) (j : Fin w) :
    view ((List.finRange w).foldl turn s) j = result j (view s j) := by
  -- Over any positions that are all different, those that had no turn stay as they were.
  have loop : ∀ (positions : List (Fin w)) (s : σ), positions.Nodup →
      view (positions.foldl turn s) j =
        if j ∈ positions then result j (view s j) else view s j := by
    intro positions
    induction positions with
    | nil => intro s _; simp
    | cons i rest ih =>
      intro s nodup
      obtain ⟨once, nodup⟩ := List.nodup_cons.mp nodup
      rw [List.foldl_cons, ih (turn s i) nodup]
      by_cases same : j = i
      · -- The turn of this position does not come again.
        subst same
        simp [once, here]
      · simp [same, elsewhere s i j same]
  rw [loop _ s (List.nodup_finRange w), if_pos (List.mem_finRange j)]

end BitMask
