import Mathlib.Tactic.Common

/-! Copying a run of values over a part of a buffer of fixed size. -/

namespace ByteBuffer

variable {α : Type} {size : Nat}

/-- Write values from a start position on, as far as the buffer reaches. -/
def overwrite (data : Vector α size) (start : Nat) : List α → Vector α size
  | [] => data
  | value :: values => overwrite (data.setIfInBounds start value) (start + 1) values

/-- Values that fit replace as many old ones and leave both sides of them alone. -/
theorem toList_overwrite {values : List α} {start : Nat} (data : Vector α size)
    (fits : start + values.length ≤ size) :
    (overwrite data start values).toList =
      data.toList.take start ++ values ++ data.toList.drop (start + values.length) := by
  -- Each value written moves the border between the new part and the old one by a position.
  induction values generalizing data start with
  | nil => simp [overwrite]
  | cons value values ih =>
    simp only [List.length_cons] at fits
    have inside : start < data.toList.length := by
      simp only [Vector.length_toList]
      omega
    rw [overwrite, ih _ (by omega)]
    have first : (data.setIfInBounds start value).toList =
        data.toList.take start ++ value :: data.toList.drop (start + 1) := by
      rw [Vector.toList_setIfInBounds, List.set_eq_take_append_cons_drop, if_pos inside]
    have width : (data.toList.take start).length = start := by
      rw [List.length_take]
      omega
    have before : (data.setIfInBounds start value).toList.take (start + 1) =
        data.toList.take start ++ [value] := by
      rw [first, List.take_append, width, List.take_of_length_le (by omega)]
      simp
    have behind : (data.setIfInBounds start value).toList.drop (start + 1 + values.length) =
        data.toList.drop (start + (values.length + 1)) := by
      rw [Vector.toList_setIfInBounds, List.drop_set_of_lt (by omega), Nat.add_assoc,
        Nat.add_comm 1]
    rw [before, behind, List.length_cons]
    simp

/-- What has been written is read back behind what was there before. -/
theorem take_overwrite {values : List α} {start : Nat} (data : Vector α size)
    (fits : start + values.length ≤ size) :
    (overwrite data start values).toList.take (start + values.length) =
      data.toList.take start ++ values := by
  -- The new values end where the part that is taken ends.
  have whole : (data.toList.take start ++ values).length = start + values.length := by
    simp only [List.length_append, List.length_take, Vector.length_toList]
    omega
  rw [toList_overwrite data fits, ← whole, List.take_left]

end ByteBuffer
