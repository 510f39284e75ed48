import Mathlib.Logic.Function.Basic
import Mathlib.Tactic.Common

/-! Sums that are computed value by value, and which changes of the values they reveal. -/

namespace Checksum

variable {σ α : Type} (step : σ → α → σ)

/-- The sum of values, from an initial one on. -/
def sum (init : σ) (values : List α) : σ := values.foldl step init

@[simp] theorem sum_nil (init : σ) : sum step init [] = init := rfl

@[simp] theorem sum_cons (init : σ) (value : α) (values : List α) :
    sum step init (value :: values) = sum step (step init value) values := rfl

@[simp] theorem sum_append (init : σ) (first second : List α) :
    sum step init (first ++ second) = sum step (sum step init first) second :=
  List.foldl_append

variable {step}

/-- Values that come behind a difference do not undo it. -/
theorem eq_of_sum_eq (injective : ∀ value, Function.Injective (step · value)) {left right : σ}
    {values : List α} (same : sum step left values = sum step right values) : left = right := by
  -- The last value has been added to equal sums, and so has every value in front of it.
  induction values generalizing left right with
  | nil => exact same
  | cons value values ih => exact injective value (ih same)

/-- A changed part is revealed if it changes the sum of what stands in front of it. -/
theorem sum_ne_of_part (injective : ∀ value, Function.Injective (step · value)) {init : σ}
    {before part part' after : List α}
    (changed : ∀ state, sum step state part ≠ sum step state part') :
    sum step init (before ++ part ++ after) ≠ sum step init (before ++ part' ++ after) := by
  -- Equal sums at the end would be equal behind the changed part already.
  intro same
  simp only [sum_append] at same
  exact changed _ (eq_of_sum_eq injective same)

end Checksum
