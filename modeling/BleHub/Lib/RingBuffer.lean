import Mathlib.Algebra.Group.Fin.Basic
import Mathlib.Data.List.Nodup
import Mathlib.Logic.Function.Basic
import Mathlib.Tactic.Common
import Mathlib.Tactic.Abel

/-! Circular buffers that keep one slot unused, so that a full buffer differs from an empty one. -/

/--
A circular buffer for up to `capacity` entries, over one slot more than that.

Entries lie from the first index up to, and without, the last one.
-/
structure RingBuffer (α : Type) (capacity : Nat) where
  /-- The stored entries, with stale contents in the unused slots. -/
  buf : Fin (capacity + 1) → α
  /-- The slot of the oldest entry. -/
  first : Fin (capacity + 1)
  /-- The slot the next entry goes to. -/
  last : Fin (capacity + 1)

namespace RingBuffer

/-- The positions of a buffer that holds up to `capacity` entries. -/
abbrev Slot (capacity : Nat) : Type := Fin (capacity + 1)

variable {α : Type} {capacity : Nat}

/-- How many entries lie from the first index up to the last one, going around. -/
def used (first last : Slot capacity) : Nat := (last - first).val

/-- The slots holding entries, oldest first. -/
def occupied (first last : Slot capacity) : List (Slot capacity) :=
  (List.range (used first last)).map fun k => first + Fin.ofNat (capacity + 1) k

/-- Walking over all the used slots leads from the first index to the last. -/
theorem first_add_used (first last : Slot capacity) :
    first + Fin.ofNat (capacity + 1) (used first last) = last := by
  -- The used stretch is as long as the distance between the two indices.
  simp [used]

/-- One slot always stays unused. -/
theorem used_le (first last : Slot capacity) : used first last ≤ capacity :=
  Nat.lt_succ_iff.mp (last - first).isLt

/-- The next index runs into the first one exactly when the capacity is used up. -/
theorem used_eq_capacity {first last : Slot capacity} :
    last + 1 = first ↔ used first last = capacity := by
  -- The distance is the largest position, whose successor wraps to zero.
  have wraps : last + 1 = first ↔ last - first + 1 = Fin.last capacity + 1 := by
    rw [Fin.last_add_one, ← sub_eq_zero, add_sub_right_comm]
  rw [wraps, add_left_inj, used, Fin.ext_iff, Fin.val_last]

/-- Storing one more entry lengthens the used stretch, unless the buffer is full. -/
theorem used_push {first last : Slot capacity} (room : last + 1 ≠ first) :
    used first (last + 1) = used first last + 1 := by
  -- Without wrapping into the first index, the distance is below the top of its range.
  have below := used_le first last
  have notFull : used first last ≠ capacity := fun full => room (used_eq_capacity.mpr full)
  have step : last + 1 - first = last - first + 1 := add_sub_right_comm last 1 first
  rw [used, step, Fin.val_add_one, if_neg]
  · rfl
  · intro top
    exact notFull (by simpa [used] using congrArg Fin.val top)

/-- Taking the oldest entry shortens the used stretch. -/
theorem used_pop {first last : Slot capacity} (nonempty : last ≠ first) :
    used first last = used (first + 1) last + 1 := by
  -- The shorter stretch cannot be the largest one, since it ends before the first index.
  have room : last + 1 ≠ first + 1 := fun same => nonempty (add_right_cancel same)
  have shifted : used (first + 1) (last + 1) = used (first + 1) last + 1 := used_push room
  rw [← shifted, used, used, add_sub_add_right_eq_sub]

/-- Storing an entry occupies the slot at the last index, after all the others. -/
theorem occupied_push {first last : Slot capacity} (room : last + 1 ≠ first) :
    occupied first (last + 1) = occupied first last ++ [last] := by
  -- The stretch grows by its last offset, and that offset reaches the last index.
  rw [occupied, used_push room, List.range_succ, List.map_append, ← occupied]
  simp only [List.map_cons, List.map_nil, first_add_used]

/-- The oldest entry occupies the slot at the first index. -/
theorem occupied_pop {first last : Slot capacity} (nonempty : last ≠ first) :
    occupied first last = first :: occupied (first + 1) last := by
  -- The first offset is zero, and it belongs to the first index itself.
  rw [occupied, used_pop nonempty, List.range_succ_eq_map]
  simp only [occupied, List.map_cons, List.map_map]
  refine congrArg₂ List.cons (by simp) ?_
  -- The other entries keep their slots, counted from one place further on.
  apply List.map_congr_left
  intro k _
  have one : Fin.ofNat (capacity + 1) (k + 1) = 1 + Fin.ofNat (capacity + 1) k := by
    apply Fin.ext
    simp [Fin.val_add, Nat.add_comm]
  simp only [Function.comp, Nat.succ_eq_add_one, one, add_assoc]

/-- An empty stretch occupies nothing. -/
@[simp] theorem occupied_self (first : Slot capacity) : occupied first first = [] := by
  simp [occupied, used]

/-- As many slots are occupied as are used. -/
@[simp] theorem occupied_length (first last : Slot capacity) :
    (occupied first last).length = used first last := by
  simp [occupied]

/-- Walking fewer steps than there are slots never meets a slot twice. -/
private theorem offset_injective {first : Slot capacity} {i j : Nat}
    (inside : i ≤ capacity) (inside' : j ≤ capacity)
    (same : first + Fin.ofNat (capacity + 1) i = first + Fin.ofNat (capacity + 1) j) :
    i = j := by
  -- Neither offset is reduced modulo the number of slots.
  have values := congrArg Fin.val (add_left_cancel same)
  simpa [Nat.mod_eq_of_lt (Nat.lt_succ_of_le inside),
    Nat.mod_eq_of_lt (Nat.lt_succ_of_le inside')] using values

/-- No slot holds two entries. -/
theorem occupied_nodup (first last : Slot capacity) : (occupied first last).Nodup := by
  -- Different offsets below the number of slots lead to different slots.
  refine List.Nodup.map_on ?_ List.nodup_range
  intro i left j right same
  have bound := used_le first last
  exact offset_injective (by have := List.mem_range.mp left; omega)
    (by have := List.mem_range.mp right; omega) same

/-- The slot the next entry goes to holds no entry. -/
theorem last_not_mem_occupied (first last : Slot capacity) : last ∉ occupied first last := by
  -- Every occupied slot is fewer steps away than the last index.
  intro member
  obtain ⟨k, within, same⟩ := List.mem_map.mp member
  have within := List.mem_range.mp within
  have bound := used_le first last
  have whole := first_add_used first last
  have equal := offset_injective (by omega) bound (same.trans whole.symm)
  omega

/-- The stored entries, oldest first. -/
def contents (r : RingBuffer α capacity) : List α := (occupied r.first r.last).map r.buf

/-- Store an entry, unless the capacity is used up. -/
def push (r : RingBuffer α capacity) (a : α) : Option (RingBuffer α capacity) :=
  if r.last + 1 = r.first then none
  else some { r with buf := Function.update r.buf r.last a, last := r.last + 1 }

/-- Take the oldest entry, unless nothing is stored. -/
def pop (r : RingBuffer α capacity) : Option (α × RingBuffer α capacity) :=
  if r.last = r.first then none
  else some (r.buf r.first, { r with first := r.first + 1 })

/-- A buffer with nothing stored, over given stale contents. -/
def empty (a : α) : RingBuffer α capacity := ⟨fun _ => a, 0, 0⟩

@[simp] theorem contents_empty (a : α) : (empty a : RingBuffer α capacity).contents = [] := by
  simp [contents, empty]

/-- The stored entries are as many as the used slots. -/
theorem contents_length (r : RingBuffer α capacity) :
    r.contents.length = used r.first r.last := by
  simp [contents]

/-- Writing a slot that holds no entry leaves the stored entries as they were. -/
theorem map_update_of_not_mem {slots : List (Slot capacity)}
    {buf : Slot capacity → α} {slot : Slot capacity} {a : α} (free : slot ∉ slots) :
    slots.map (Function.update buf slot a) = slots.map buf := by
  -- Every slot that is read differs from the slot that was written.
  apply List.map_congr_left
  intro other member
  have distinct : other ≠ slot := by rintro rfl; exact free member
  exact Function.update_of_ne distinct a buf

/-- Storing succeeds exactly while there is room, and adds the entry at the end. -/
theorem push_spec (r : RingBuffer α capacity) (a : α) :
    (r.contents.length = capacity ∧ r.push a = none) ∨
      (r.contents.length < capacity ∧
        ∃ r', r.push a = some r' ∧ r'.contents = r.contents ++ [a]) := by
  rw [contents_length]
  by_cases full : r.last + 1 = r.first
  · -- The only slot left is the one that stays unused.
    exact .inl ⟨used_eq_capacity.mp full, if_pos full⟩
  · have below : used r.first r.last ≠ capacity := fun all => full (used_eq_capacity.mpr all)
    have bound := used_le r.first r.last
    refine .inr ⟨by omega, _, if_neg full, ?_⟩
    -- The written slot was free, so the older entries are read back unchanged.
    simp only [contents, occupied_push full, List.map_append, List.map_cons, List.map_nil,
      Function.update_self]
    rw [map_update_of_not_mem (last_not_mem_occupied r.first r.last)]

/-- Taking succeeds exactly while something is stored, and removes the oldest entry. -/
theorem pop_spec (r : RingBuffer α capacity) :
    (r.contents = [] ∧ r.pop = none) ∨
      ∃ a r', r.pop = some (a, r') ∧ r.contents = a :: r'.contents := by
  -- The oldest entry is the head of the occupied stretch, if there is one.
  by_cases nothing : r.last = r.first
  · exact .inl ⟨by simp [contents, nothing], if_pos nothing⟩
  · exact .inr ⟨_, _, if_neg nothing, by simp [contents, occupied_pop nothing]⟩

/-- Storing an entry writes the slot at the last index, and only moves that index. -/
theorem push_eq_some {r r' : RingBuffer α capacity} {a : α} :
    r.push a = some r' ↔ r.last + 1 ≠ r.first ∧
      r' = { r with buf := Function.update r.buf r.last a, last := r.last + 1 } := by
  unfold push
  split
  · rename_i full
    simp [full]
  · rename_i room
    simp [room, eq_comm]

/-! A reader that goes through the entries without taking them, while others are stored. -/

/-- The slot a reader goes to from another one. -/
def nextSlot (slot : Slot capacity) : Slot capacity := slot + 1

/-- The buffer as a reader sees it that has got to some slot. -/
def readFrom (r : RingBuffer α capacity) (slot : Slot capacity) : RingBuffer α capacity :=
  { r with first := slot }

/-- A reader that has just come sees the whole buffer. -/
@[simp] theorem readFrom_first (r : RingBuffer α capacity) : r.readFrom r.first = r := rfl

/-- At the last index the reader has seen everything. -/
@[simp] theorem contents_readFrom_last (r : RingBuffer α capacity) :
    (r.readFrom r.last).contents = [] := by
  simp [contents, readFrom]

/-- Where both indices meet, nothing is stored. -/
theorem contents_of_first_eq_last {r : RingBuffer α capacity} (empty : r.first = r.last) :
    r.contents = [] := by
  simp [contents, empty]

/-- Before the last index the reader is at an entry, and then moves on to the next one. -/
theorem contents_readFrom (r : RingBuffer α capacity) {slot : Slot capacity}
    (more : slot ≠ r.last) :
    (r.readFrom slot).contents = r.buf slot :: (r.readFrom (nextSlot slot)).contents := by
  -- The slot the reader is at is the first one of the stretch that is left.
  simp [contents, readFrom, nextSlot, occupied_pop (Ne.symm more)]

/-- The reader meets an entry that is stored meanwhile behind those it has yet to see. -/
theorem push_readFrom {r r' : RingBuffer α capacity} {a : α} (pushed : r.push a = some r')
    {slot : Slot capacity} {seen : List α}
    (reading : r.contents = seen ++ (r.readFrom slot).contents) :
    (r'.readFrom slot).contents = (r.readFrom slot).contents ++ [a] := by
  obtain ⟨room, rfl⟩ := push_eq_some.mp pushed
  -- The stretch from the reader on is no longer than the whole one, so it has room as well.
  have total : used r.first r.last = seen.length + used slot r.last := by
    have lengths := congrArg List.length reading
    rwa [List.length_append, contents_length, contents_length] at lengths
  have below : used r.first r.last ≠ capacity := fun all => room (used_eq_capacity.mpr all)
  have bound := used_le r.first r.last
  have roomHere : r.last + 1 ≠ slot := fun full => by
    have all := used_eq_capacity.mp full
    omega
  show (occupied slot (r.last + 1)).map (Function.update r.buf r.last a) = _
  rw [occupied_push roomHere, List.map_append, List.map_cons, List.map_nil, Function.update_self,
    map_update_of_not_mem (last_not_mem_occupied slot r.last)]
  rfl

/-- Storing an entry does not move the first index. -/
theorem push_first {r r' : RingBuffer α capacity} {a : α} (pushed : r.push a = some r') :
    r'.first = r.first := by
  obtain ⟨-, rfl⟩ := push_eq_some.mp pushed
  rfl

/-- The entry that is stored comes behind all the others. -/
theorem push_contents {r r' : RingBuffer α capacity} {a : α} (pushed : r.push a = some r') :
    r'.contents = r.contents ++ [a] := by
  -- A reader at the first index sees the whole buffer before and after.
  have whole := @push_readFrom _ _ r r' a pushed r.first [] rfl
  rwa [← push_first pushed, readFrom_first, push_first pushed, readFrom_first] at whole

/-- The slot that stays unused keeps the entry that was taken last while others are stored. -/
theorem push_taken {r r' : RingBuffer α capacity} {a : α} (pushed : r.push a = some r')
    {slot : Slot capacity} (taken : nextSlot slot = r.first) : r'.buf slot = r.buf slot := by
  obtain ⟨room, rfl⟩ := push_eq_some.mp pushed
  -- The entry would only go there if the buffer had no room.
  have apart : slot ≠ r.last := fun same => room (same ▸ taken)
  exact Function.update_of_ne apart a r.buf

end RingBuffer
