import Mathlib.Tactic.Common

/-! Flash memory in which programming clears bits and only an erase sets them again. -/

namespace NorFlash

variable {W : Type} [AndOp W]

/-- A memory of words. -/
abbrev Memory (W : Type) : Type := Nat → W

/-- What can be done to the memory. -/
inductive Op (W : Type) where
  /-- Erase so many words from a start address on. -/
  | erase (start count : Nat)
  /-- Clear those bits of a word that are not set in a value. -/
  | program (address : Nat) (value : W)

variable (erased : W)

namespace Op

/-- The effect on the memory. -/
def apply (memory : Memory W) : Op W → Memory W
  | erase start count => fun address =>
    if start ≤ address ∧ address < start + count then erased else memory address
  | program target value => fun address =>
    if address = target then memory address &&& value else memory address

/-- The addresses whose words may change. -/
def Touches (address : Nat) : Op W → Prop
  | erase start count => start ≤ address ∧ address < start + count
  | program target _ => address = target

/-- Other words stay as they are. -/
theorem apply_of_not_touches {op : Op W} {address : Nat} (memory : Memory W)
    (apart : ¬ op.Touches address) : op.apply erased memory address = memory address := by
  -- Both operations decide by the address alone.
  cases op with
  | erase start count => exact if_neg apart
  | program target value => exact if_neg apart

end Op

/-- The effect of several operations. -/
def applyAll (memory : Memory W) (ops : List (Op W)) : Memory W :=
  ops.foldl (Op.apply erased) memory

@[simp] theorem applyAll_nil (memory : Memory W) : applyAll erased memory [] = memory := rfl

@[simp] theorem applyAll_cons (memory : Memory W) (op : Op W) (ops : List (Op W)) :
    applyAll erased memory (op :: ops) = applyAll erased (op.apply erased memory) ops := rfl

@[simp] theorem applyAll_append (memory : Memory W) (first second : List (Op W)) :
    applyAll erased memory (first ++ second) =
      applyAll erased (applyAll erased memory first) second :=
  List.foldl_append

/-- Words that no operation touches stay as they are. -/
theorem applyAll_of_not_touches {ops : List (Op W)} {address : Nat} (memory : Memory W)
    (apart : ∀ op ∈ ops, ¬ op.Touches address) :
    applyAll erased memory ops address = memory address := by
  -- Every single operation leaves the word alone.
  induction ops generalizing memory with
  | nil => rfl
  | cons op ops ih =>
    rw [applyAll_cons, ih _ fun other member => apart other (List.mem_cons_of_mem _ member)]
    exact Op.apply_of_not_touches erased memory (apart op List.mem_cons_self)

namespace Op

variable [OrOp W]

/-- The effect of an operation that power fails in. The words that it was erasing hold anything,
and of the bits that it was clearing some are not cleared yet. -/
def broken (left memory : Memory W) : Op W → Memory W
  | erase start count => fun address =>
    if start ≤ address ∧ address < start + count then left address else memory address
  | program target value => fun address =>
    if address = target then memory address &&& (value ||| left target) else memory address

/-- Other words stay as they are. -/
theorem broken_of_not_touches {op : Op W} {address : Nat} (left memory : Memory W)
    (apart : ¬ op.Touches address) : op.broken left memory address = memory address := by
  -- It touches no more words than if it were done.
  cases op with
  | erase start count => exact if_neg apart
  | program target value => exact if_neg apart

end Op

variable [OrOp W]

/-- The memory after a loss of power: some operations are done, and the next one is not. -/
def interrupted (left memory : Memory W) : List (Op W) → Nat → Memory W
  | [], _ => memory
  | op :: rest, steps + 1 => interrupted left (op.apply erased memory) rest steps
  | op :: _, 0 => op.broken left memory

/-- A loss of power does not change words that no operation touches. -/
theorem interrupted_of_not_touches {ops : List (Op W)} {address : Nat} (left memory : Memory W)
    (steps : Nat) (apart : ∀ op ∈ ops, ¬ op.Touches address) :
    interrupted erased left memory ops steps address = memory address := by
  induction ops generalizing memory steps with
  | nil => rfl
  | cons op ops ih =>
    have first := apart op List.mem_cons_self
    cases steps with
    | succ steps =>
      rw [interrupted, ih _ _ fun other member => apart other (List.mem_cons_of_mem _ member)]
      exact Op.apply_of_not_touches erased memory first
    | zero => exact Op.broken_of_not_touches left memory first

/-- A loss of power behind the last operation comes too late to change anything. -/
theorem interrupted_length (left memory : Memory W) (ops : List (Op W)) :
    interrupted erased left memory ops ops.length = applyAll erased memory ops := by
  -- Every operation is counted off before.
  induction ops generalizing memory with
  | nil => rfl
  | cons op ops ih => rw [List.length_cons, interrupted, ih, applyAll_cons]

/-- Power fails in the first of two parts or in the second one. -/
theorem interrupted_append (left memory : Memory W) (first second : List (Op W)) (steps : Nat) :
    interrupted erased left memory (first ++ second) steps =
      if steps < first.length then interrupted erased left memory first steps
      else interrupted erased left (applyAll erased memory first) second
        (steps - first.length) := by
  -- The operations of the first part are counted off one by one.
  induction first generalizing memory steps with
  | nil => simp
  | cons op first ih =>
    cases steps with
    | succ steps =>
      rw [List.cons_append, interrupted, ih, interrupted, applyAll_cons, List.length_cons,
        Nat.add_sub_add_right]
      simp only [Nat.add_lt_add_iff_right]
    | zero =>
      rw [if_pos (by simp)]
      rfl

end NorFlash
