import Mathlib.Data.List.Sort
import Mathlib.Tactic.Common

/-!
Delta lists: agendas in which every item only tells how long it comes after the item before it.

Counted from a base, such a list stands for items in the order of their due times.
-/

namespace DeltaList

variable {α : Type}

/-- The items with their due times, of which the first one is counted from the base. -/
def dues (base : Nat) : List (α × Nat) → List (α × Nat)
  | [] => []
  | (a, gap) :: rest => (a, base + gap) :: dues (base + gap) rest

/-- Insert an item that is due after the given time, in front of those due no earlier. -/
def insert (a : α) (time : Nat) : List (α × Nat) → List (α × Nat)
  | [] => [(a, time)]
  | (b, gap) :: rest =>
    if gap < time then (b, gap) :: insert a (time - gap) rest
    else (a, time) :: (b, gap - time) :: rest

/-- Leave the time of a removed item to the item behind it. -/
def defer (time : Nat) : List (α × Nat) → List (α × Nat)
  | [] => []
  | (a, gap) :: rest => (a, gap + time) :: rest

/-- Remove the first item of a kind. -/
def remove (kind : α → Bool) : List (α × Nat) → List (α × Nat)
  | [] => []
  | (a, gap) :: rest => if kind a then defer gap rest else (a, gap) :: remove kind rest

/-- Let time pass: items that have become due are dropped, and the next one waits for the rest. -/
def advance (elapsed : Nat) : List (α × Nat) → List (α × Nat)
  | [] => []
  | (a, gap) :: rest =>
    if elapsed < gap then (a, gap - elapsed) :: rest else advance (elapsed - gap) rest

/-- How much of the time is used up by the items that have become due. -/
def spent (elapsed : Nat) : List (α × Nat) → Nat
  | [] => 0
  | (_, gap) :: rest => if elapsed < gap then 0 else gap + spent (elapsed - gap) rest

/-- Items in the order of their due times. -/
abbrev Sooner (p q : α × Nat) : Prop := p.2 ≤ q.2

@[simp] theorem dues_nil (base : Nat) : dues base ([] : List (α × Nat)) = [] := rfl

@[simp] theorem dues_cons (base : Nat) (a : α) (gap : Nat) (rest : List (α × Nat)) :
    dues base ((a, gap) :: rest) = (a, base + gap) :: dues (base + gap) rest := rfl

/-- Every item is in the list with its due time. -/
theorem map_fst_dues (base : Nat) (items : List (α × Nat)) :
    (dues base items).map Prod.fst = items.map Prod.fst := by
  -- Only the numbers change.
  induction items generalizing base with
  | nil => rfl
  | cons item rest ih =>
    obtain ⟨a, gap⟩ := item
    simp only [dues_cons, List.map_cons, ih]

/-- Nothing is due before the base. -/
theorem base_le_of_mem_dues {base : Nat} {items : List (α × Nat)} {p : α × Nat}
    (member : p ∈ dues base items) : base ≤ p.2 := by
  -- The base of the rest is the due time of the item in front of it.
  induction items generalizing base with
  | nil => simp at member
  | cons item rest ih =>
    obtain ⟨a, gap⟩ := item
    rcases List.mem_cons.mp member with rfl | later
    · exact Nat.le_add_right base gap
    · exact (Nat.le_add_right base gap).trans (ih later)

/-- The items stand in the order of their due times. -/
theorem pairwise_dues (base : Nat) (items : List (α × Nat)) :
    (dues base items).Pairwise Sooner := by
  -- Each item is the base of those behind it.
  induction items generalizing base with
  | nil => exact .nil
  | cons item rest ih =>
    obtain ⟨a, gap⟩ := item
    exact .cons (fun _ later => base_le_of_mem_dues later) (ih _)

/-- An item that waits longer in its place is due from a later base. -/
theorem dues_defer (base time : Nat) (items : List (α × Nat)) :
    dues base (defer time items) = dues (base + time) items := by
  -- The time moves from the base to the first gap.
  cases items with
  | nil => rfl
  | cons item rest =>
    obtain ⟨a, gap⟩ := item
    have same : base + (gap + time) = base + time + gap := by omega
    simp only [defer, dues_cons, same]

/-- An inserted item gets its due time, and no other item changes its own. -/
theorem dues_insert (base : Nat) (a : α) (time : Nat) (items : List (α × Nat)) :
    dues base (insert a time items) = (dues base items).orderedInsert Sooner (a, base + time) := by
  -- Skipping an item moves the base on by what is taken from the time.
  induction items generalizing base time with
  | nil => rfl
  | cons item rest ih =>
    obtain ⟨b, gap⟩ := item
    unfold insert
    split
    · rename_i later
      have skipped : ¬ Sooner (a, base + time) (b, base + gap) := by
        simp only [Sooner]
        omega
      have same : base + gap + (time - gap) = base + time := by omega
      rw [dues_cons, ih, same, dues_cons, List.orderedInsert_of_not_le _ _ skipped]
    · rename_i here
      have before : Sooner (a, base + time) (b, base + gap) := by
        simp only [Sooner]
        omega
      have same : base + time + (gap - time) = base + gap := by omega
      rw [dues_cons, dues_cons, same, dues_cons, List.orderedInsert_cons_of_le _ _ before]

/-- A removed item is missing, and no other item changes its due time. -/
theorem dues_remove (base : Nat) (kind : α → Bool) (items : List (α × Nat)) :
    dues base (remove kind items) = (dues base items).eraseP fun p => kind p.1 := by
  -- The gap of the removed item goes to the one behind it, so both due times stay.
  induction items generalizing base with
  | nil => rfl
  | cons item rest ih =>
    obtain ⟨a, gap⟩ := item
    unfold remove
    split
    · rename_i found
      rw [dues_defer]
      simp [found]
    · rename_i other
      rw [dues_cons, ih]
      simp [other]

/-- Items that are due by now are dropped, and no other item changes its due time. -/
theorem dues_advance (base elapsed : Nat) (items : List (α × Nat)) :
    dues (base + elapsed) (advance elapsed items) =
      (dues base items).dropWhile fun p => decide (p.2 ≤ base + elapsed) := by
  -- The time left for the rest starts at the due time of the item in front of it.
  induction items generalizing base elapsed with
  | nil => rfl
  | cons item rest ih =>
    obtain ⟨a, gap⟩ := item
    unfold advance
    split
    · rename_i early
      have same : base + elapsed + (gap - elapsed) = base + gap := by omega
      have waits : ¬ gap ≤ elapsed := by omega
      rw [dues_cons, same]
      simp [waits]
    · rename_i late
      have due : gap ≤ elapsed := by omega
      have same : base + gap + (elapsed - gap) = base + elapsed := by omega
      have rest := ih (base + gap) (elapsed - gap)
      rw [same] at rest
      rw [rest]
      simp [due]

/-- What is left after some time are the last items. -/
theorem map_fst_advance_suffix (elapsed : Nat) (items : List (α × Nat)) :
    (advance elapsed items).map Prod.fst <:+ items.map Prod.fst := by
  -- Dropping items from the front leaves the end of the list.
  rw [← map_fst_dues (0 + elapsed), dues_advance, ← map_fst_dues 0 items]
  exact (List.dropWhile_suffix _).map Prod.fst

/-- No more time is used up than has passed. -/
theorem spent_le (elapsed : Nat) (items : List (α × Nat)) : spent elapsed items ≤ elapsed := by
  -- Each item takes its gap from what has passed.
  induction items generalizing elapsed with
  | nil => exact Nat.zero_le _
  | cons item rest ih =>
    obtain ⟨a, gap⟩ := item
    unfold spent
    split
    · exact Nat.zero_le _
    · have bound := ih (elapsed - gap)
      omega

/-- The time that is used up ends at the due time of the last item that has become due. -/
theorem base_add_spent (base elapsed : Nat) (items : List (α × Nat)) :
    base + spent elapsed items =
      (((dues base items).takeWhile fun p => decide (p.2 ≤ base + elapsed)).getLast?.map
        Prod.snd).getD base := by
  -- The gaps of the items that are due add up to the due time of the last one.
  induction items generalizing base elapsed with
  | nil => rfl
  | cons item rest ih =>
    obtain ⟨a, gap⟩ := item
    unfold spent
    split
    · rename_i early
      have waits : ¬ gap ≤ elapsed := by omega
      simp [waits]
    · rename_i late
      have due : gap ≤ elapsed := by omega
      have same : base + gap + (elapsed - gap) = base + elapsed := by omega
      have rest_ := ih (base + gap) (elapsed - gap)
      rw [same] at rest_
      rw [← Nat.add_assoc, rest_]
      simp only [dues_cons, Nat.add_le_add_iff_left, due, decide_true,
        List.takeWhile_cons_of_pos, List.getLast?_cons]
      -- Without later items that are due, the first one is the last.
      cases ((dues (base + gap) rest).takeWhile fun p =>
        decide (p.2 ≤ base + elapsed)).getLast? with
      | none => rfl
      | some last => rfl

/-- The due times that come first are those that come by a given time. -/
theorem takeWhile_eq_filter {items : List (α × Nat)} (sorted : items.Pairwise Sooner)
    (time : Nat) : (items.takeWhile fun p => decide (p.2 ≤ time)) =
      items.filter fun p => decide (p.2 ≤ time) := by
  -- In a list in order, both find the same items.
  induction items with
  | nil => rfl
  | cons p rest ih =>
    obtain ⟨first, rest_⟩ := List.pairwise_cons.mp sorted
    by_cases due : p.2 ≤ time
    · simp [due, ih rest_]
    · -- Behind an item that is not due, none is.
      have none : rest.filter (fun q => decide (q.2 ≤ time)) = [] := by
        rw [List.filter_eq_nil_iff]
        intro q member
        have after : p.2 ≤ q.2 := first q member
        simp only [decide_eq_true_eq]
        omega
      simp [due, none]

/-- The due times that come last are those after a given time. -/
theorem dropWhile_eq_filter {items : List (α × Nat)} (sorted : items.Pairwise Sooner)
    (time : Nat) : (items.dropWhile fun p => decide (p.2 ≤ time)) =
      items.filter fun p => decide (time < p.2) := by
  -- The items that are dropped are the others.
  induction items with
  | nil => rfl
  | cons p rest ih =>
    obtain ⟨first, rest_⟩ := List.pairwise_cons.mp sorted
    by_cases due : p.2 ≤ time
    · have passed : ¬ time < p.2 := by omega
      simp [due, passed, ih rest_]
    · -- Behind an item that waits, all wait.
      have waits : time < p.2 := by omega
      have all : rest.filter (fun q => decide (time < q.2)) = rest := by
        rw [List.filter_eq_self]
        intro q member
        have after : p.2 ≤ q.2 := first q member
        simp only [decide_eq_true_eq]
        omega
      simp [due, waits, all]

end DeltaList
