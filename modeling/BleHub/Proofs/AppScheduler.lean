import BleHub.Firmware.AppScheduler

/-! What the entries of the scheduler queue hold, and which steps leave an entry alone. -/

namespace BleHub

namespace AppSched

variable {H : Type} {cap size : Nat} {q q' q'' : AppSched H cap size} {index : Fin (cap + 1)}

/-- The entry holds an event: its handler, the size of its data and all of its bytes. -/
structure Holds (q : AppSched H cap size) (index : Fin (cap + 1)) (handler : H)
    (eventData : List UInt8) : Prop where
  handler : (q.queueEventHeaders index).handler = handler
  eventDataSize : (q.queueEventHeaders index).eventDataSize = eventData.length
  bytes : ∀ k byte, eventData[k]? = some byte → q.readByte index k = byte

/-- Handler and first bytes of an event have been written to the entry. -/
structure Copied (q : AppSched H cap size) (index : Fin (cap + 1)) (handler : H)
    (eventData : List UInt8) (count : Nat) : Prop where
  handler : (q.queueEventHeaders index).handler = handler
  bytes : ∀ k < count, ∀ byte, eventData[k]? = some byte → q.readByte index k = byte

/-- The entry is the same in both queues. -/
structure Leaves (q q' : AppSched H cap size) (index : Fin (cap + 1)) : Prop where
  header : q'.queueEventHeaders index = q.queueEventHeaders index
  bytes : ∀ k < size, q'.readByte index k = q.readByte index k

/-- Bytes of different entries never share an address. -/
theorem address_injective {index index' : Fin (cap + 1)} {k k' : Nat} (inside : k < size)
    (inside' : k' < size) (same : address size index k = address size index' k') :
    index = index' := by
  -- Dividing an address by the event size gives the entry back.
  have positive : 0 < size := by omega
  have quotient : ∀ (i : Fin (cap + 1)) (j : Nat), j < size → address size i j / size = i.val := by
    intro i j below
    rw [address, Nat.add_comm, Nat.add_mul_div_right _ _ positive, Nat.div_eq_of_lt below,
      Nat.zero_add]
  apply Fin.ext
  rw [← quotient index k inside, ← quotient index' k' inside', same]

/-- Nothing changes in a queue that stays the same. -/
theorem Leaves.refl (q : AppSched H cap size) (index : Fin (cap + 1)) : Leaves q q index :=
  ⟨rfl, fun _ _ => rfl⟩

/-- Moving an index of the queue leaves every entry alone. -/
theorem leaves_reserve (q : AppSched H cap size) (index : Fin (cap + 1)) :
    Leaves q q.reserve index := ⟨rfl, fun _ _ => rfl⟩

/-- So does moving the other one. -/
theorem leaves_release (q : AppSched H cap size) (index : Fin (cap + 1)) :
    Leaves q q.release index := ⟨rfl, fun _ _ => rfl⟩

/-- Writing to one entry leaves every other entry alone. -/
theorem leaves_writeHandler {written : Fin (cap + 1)} (other : index ≠ written) (handler : H) :
    Leaves q (q.writeHandler written handler) index :=
  ⟨Function.update_of_ne other _ _, fun _ _ => rfl⟩

/-- So does writing the size of the data. -/
theorem leaves_writeSize {written : Fin (cap + 1)} (other : index ≠ written) (count : Nat) :
    Leaves q (q.writeSize written count) index :=
  ⟨Function.update_of_ne other _ _, fun _ _ => rfl⟩

/-- So does writing a byte of the data. -/
theorem leaves_writeByte {written : Fin (cap + 1)} (other : index ≠ written) {k : Nat}
    (inside : k < size) (byte : UInt8) : Leaves q (q.writeByte written k byte) index := by
  refine ⟨rfl, fun k' inside' => ?_⟩
  -- The byte written lies in the stretch of its own entry.
  have apart : address size index k' ≠ address size written k := fun same =>
    other (address_injective inside' inside same)
  simp only [readByte, writeByte, Function.update_of_ne apart]

/-- An entry that is left alone still holds its event. -/
theorem Holds.leaves {handler : H} {eventData : List UInt8} (holds : Holds q index handler eventData)
    (fits : eventData.length ≤ size) (leaves : Leaves q q' index) :
    Holds q' index handler eventData := by
  -- All bytes of the event lie within the entry.
  refine ⟨by rw [leaves.header]; exact holds.handler,
    by rw [leaves.header]; exact holds.eventDataSize, fun k byte given => ?_⟩
  obtain ⟨inside, -⟩ := List.getElem?_eq_some_iff.mp given
  rw [leaves.bytes k (by omega)]
  exact holds.bytes k byte given

/-- An entry that is left alone still holds what has been copied to it. -/
theorem Copied.leaves {handler : H} {eventData : List UInt8} {count : Nat}
    (copied : Copied q index handler eventData count) (fits : eventData.length ≤ size)
    (leaves : Leaves q q' index) : Copied q' index handler eventData count := by
  -- So do the bytes that have been copied.
  refine ⟨by rw [leaves.header]; exact copied.handler, fun k below byte given => ?_⟩
  obtain ⟨inside, -⟩ := List.getElem?_eq_some_iff.mp given
  rw [leaves.bytes k (by omega)]
  exact copied.bytes k below byte given

/-- After the handler no byte has been copied yet. -/
theorem copied_writeHandler (q : AppSched H cap size) (index : Fin (cap + 1)) (handler : H)
    (eventData : List UInt8) :
    Copied (q.writeHandler index handler) index handler eventData 0 := by
  refine ⟨?_, fun k below => absurd below (by omega)⟩
  simp [writeHandler]

/-- One more byte is copied. -/
theorem Copied.writeByte {handler : H} {eventData : List UInt8} {count : Nat} {byte : UInt8}
    (copied : Copied q index handler eventData count) (given : eventData[count]? = some byte) :
    Copied (q.writeByte index count byte) index handler eventData (count + 1) := by
  -- The byte is either the new one or one of those before.
  refine ⟨copied.handler, fun k below other given' => ?_⟩
  by_cases last : k = count
  · subst last
    have same : other = byte := Option.some.inj (given'.symm.trans given)
    simp [readByte, AppSched.writeByte, same]
  · -- The bytes before are at other addresses.
    have apart : address size index k ≠ address size index count := by
      intro same
      exact last (Nat.add_left_cancel same)
    simp only [readByte, AppSched.writeByte, Function.update_of_ne apart]
    exact copied.bytes k (by omega) other given'

/-- With its size written, an entry whose bytes are all copied holds the event. -/
theorem Copied.writeSize {handler : H} {eventData : List UInt8} {count : Nat}
    (copied : Copied q index handler eventData count) (all : eventData[count]? = none) :
    Holds (q.writeSize index eventData.length) index handler eventData := by
  -- The size is the last part of the header, and touches no byte.
  refine ⟨?_, ?_, fun k byte given => ?_⟩
  · simpa [AppSched.writeSize] using copied.handler
  · simp [AppSched.writeSize]
  · obtain ⟨inside, -⟩ := List.getElem?_eq_some_iff.mp given
    have whole := List.getElem?_eq_none_iff.mp all
    exact copied.bytes k (by omega) byte given

/-! ### The indices -/

/-- Reserving adds the entry at the end, and needs a spare entry behind it. -/
theorem slots_reserve (room : q.isFull = false) :
    q.reserve.slots = q.slots ++ [q.queueEndIndex] ∧
      q.queueEndIndex + 1 ≠ q.queueStartIndex := by
  -- The test for a full queue is that for the spare entry.
  have room : q.queueEndIndex + 1 ≠ q.queueStartIndex := by
    rw [← nextIndex_eq]
    simpa [isFull] using room
  refine ⟨?_, room⟩
  rw [slots, reserve, nextIndex_eq]
  exact RingBuffer.occupied_push room

/-- Releasing removes the entry at the start. -/
theorem slots_release (some_ : q.queueEndIndex ≠ q.queueStartIndex) :
    q.slots = q.queueStartIndex :: q.release.slots := by
  rw [slots, slots, release, nextIndex_eq]
  exact RingBuffer.occupied_pop some_

/-- The entry at the end is not part of the queue yet. -/
theorem not_mem_slots (q : AppSched H cap size) : q.queueEndIndex ∉ q.slots :=
  RingBuffer.last_not_mem_occupied _ _

/-- The queue is empty exactly when it has no entries. -/
theorem slots_eq_nil : q.slots = [] ↔ q.queueEndIndex = q.queueStartIndex := by
  constructor
  · intro none
    by_contra some_
    rw [slots_release some_] at none
    cases none
  · intro same
    rw [slots, same]
    exact RingBuffer.occupied_self _

/-! ### The functions of the scheduler -/

/-- The events in the queue, oldest first. -/
def contents (q : AppSched H cap size) : List (H × List UInt8) := q.slots.map q.entry

/-- No entry of the queue claims more event data than it has room for. -/
def Fits (q : AppSched H cap size) : Prop :=
  ∀ index ∈ q.slots, (q.queueEventHeaders index).eventDataSize ≤ size

/-- What two changes leave alone is left alone by both together. -/
theorem Leaves.trans (first : Leaves q q' index) (second : Leaves q' q'' index) :
    Leaves q q'' index :=
  ⟨second.header.trans first.header, fun k inside =>
    (second.bytes k inside).trans (first.bytes k inside)⟩

/-- An entry that holds an event reads as that event. -/
theorem Holds.entry_eq {handler : H} {eventData : List UInt8}
    (holds : Holds q index handler eventData) : q.entry index = (handler, eventData) := by
  simp only [entry, holds.handler, holds.eventDataSize, Prod.mk.injEq, true_and]
  -- Byte by byte, what is read is what was copied.
  apply List.ext_getElem
  · simp
  · intro k _ inside
    rw [List.getElem_map, List.getElem_range]
    exact holds.bytes k _ (List.getElem?_eq_getElem inside)

/-- An entry that is left alone still reads as the same event. -/
theorem Leaves.entry_eq (leaves : Leaves q q' index)
    (fits : (q.queueEventHeaders index).eventDataSize ≤ size) :
    q'.entry index = q.entry index := by
  -- Only as many bytes are read as the header says.
  simp only [entry, leaves.header, Prod.mk.injEq, true_and]
  apply List.map_congr_left
  intro k member
  have inside := List.mem_range.mp member
  exact leaves.bytes k (by omega)

/-- Copying bytes leaves the indices of the queue alone. -/
theorem memcpy_slots (index : Fin (cap + 1)) (bytes : List UInt8) :
    ∀ k (q : AppSched H cap size), (memcpy index k bytes q).slots = q.slots := by
  induction bytes with
  | nil => exact fun _ _ => rfl
  | cons byte bytes ih => exact fun k q => ih (k + 1) (q.writeByte index k byte)

/-- Copying bytes to one entry leaves every other entry alone. -/
theorem leaves_memcpy {written : Fin (cap + 1)} (other : index ≠ written) (bytes : List UInt8) :
    ∀ k (q : AppSched H cap size), k + bytes.length ≤ size →
      Leaves q (memcpy written k bytes q) index := by
  induction bytes with
  | nil => exact fun _ q _ => Leaves.refl q index
  | cons byte bytes ih =>
    intro k q inside
    rw [List.length_cons] at inside
    exact (leaves_writeByte other (by omega) byte).trans (ih (k + 1) _ (by omega))

/-- Copying the bytes that are left copies them all. -/
theorem Copied.memcpy {handler : H} {eventData : List UInt8} (bytes : List UInt8) :
    ∀ count (q : AppSched H cap size), bytes = eventData.drop count →
      Copied q index handler eventData count →
      Copied (memcpy index count bytes q) index handler eventData (count + bytes.length) := by
  -- What is left to be copied is the rest of the event data.
  induction bytes with
  | nil => exact fun _ _ _ copied => copied
  | cons byte bytes ih =>
    intro count q left copied
    have given : eventData[count]? = some byte := by
      rw [← List.head?_drop, ← left, List.head?_cons]
    have later : bytes = eventData.drop (count + 1) := by
      rw [← List.tail_drop, ← left, List.tail_cons]
    have all := ih (count + 1) _ later (copied.writeByte given)
    rwa [Nat.add_right_comm, Nat.add_assoc] at all

/-- The queue is full exactly when as many events as it has room for are in it. -/
theorem isFull_iff : q.isFull = true ↔ q.contents.length = cap := by
  rw [isFull, nextIndex_eq, beq_iff_eq, RingBuffer.used_eq_capacity, contents, List.length_map,
    slots, RingBuffer.occupied_length]

/-- The queue once an event has been put into the entry at its end. -/
def written (q : AppSched H cap size) (handler : H) (eventData : List UInt8) :
    AppSched H cap size :=
  (memcpy q.queueEndIndex 0 eventData
    (q.reserve.writeHandler q.queueEndIndex handler)).writeSize q.queueEndIndex eventData.length

section

variable {handler : H} {eventData : List UInt8}

/-- Of the indices, only the reservation moves one. -/
theorem slots_written (room : q.isFull = false) :
    (q.written handler eventData).slots = q.slots ++ [q.queueEndIndex] := by
  obtain ⟨slots, -⟩ := slots_reserve room
  rw [← slots]
  exact memcpy_slots q.queueEndIndex eventData 0 _

/-- The new entry holds the event. -/
theorem holds_written (q : AppSched H cap size) (handler : H) (eventData : List UInt8) :
    Holds (q.written handler eventData) q.queueEndIndex handler eventData := by
  -- The handler is written first, then every byte, and the size last.
  have copied := Copied.memcpy eventData 0 _ rfl
    (copied_writeHandler q.reserve q.queueEndIndex handler eventData)
  exact copied.writeSize (by simp)

/-- No other entry has been touched. -/
theorem leaves_written (inside : eventData.length ≤ size) (other : index ≠ q.queueEndIndex) :
    Leaves q (q.written handler eventData) index :=
  ((leaves_reserve q index).trans (leaves_writeHandler other handler)).trans
    ((leaves_memcpy other eventData 0 _ (by omega)).trans (leaves_writeSize other _))

/-- The entries that were in the queue are left alone. -/
theorem leaves_written_of_mem (inside : eventData.length ≤ size) (member : index ∈ q.slots) :
    Leaves q (q.written handler eventData) index :=
  leaves_written inside fun at_ => not_mem_slots q (at_ ▸ member)

/-- The new entry claims no more than it has room for, and neither do the others. -/
theorem fits_written (fits : q.Fits) (inside : eventData.length ≤ size)
    (room : q.isFull = false) : (q.written handler eventData).Fits := by
  intro index member
  rw [slots_written room, List.mem_append, List.mem_singleton] at member
  rcases member with before | rfl
  · rw [(leaves_written_of_mem inside before).header]
    exact fits index before
  · rw [(holds_written q handler eventData).eventDataSize]
    exact inside

/-- The event is behind those that were in the queue. -/
theorem contents_written (fits : q.Fits) (inside : eventData.length ≤ size)
    (room : q.isFull = false) :
    (q.written handler eventData).contents = q.contents ++ [(handler, eventData)] := by
  rw [contents, slots_written room, List.map_append, List.map_singleton,
    (holds_written q handler eventData).entry_eq, contents]
  congr 1
  -- Entry by entry, what was in the queue still reads as the same event.
  apply List.map_congr_left
  intro index member
  exact (leaves_written_of_mem inside member).entry_eq (fits index member)

end

/-- A queue that is not full has room for one more event. -/
theorem contents_lt_of_room (room : q.isFull = false) : q.contents.length < cap := by
  have bound := RingBuffer.used_le q.queueStartIndex q.queueEndIndex
  have notAll : q.contents.length ≠ cap := fun all => by simp [isFull_iff.mpr all] at room
  rw [contents, List.length_map, slots, RingBuffer.occupied_length] at notAll ⊢
  omega

/-- Putting an event adds it behind all others, or finds no room and changes nothing. -/
theorem appSchedEventPut_spec (fits : q.Fits) (handler : H) {eventData : List UInt8}
    (inside : eventData.length ≤ size) :
    (q.contents.length = cap ∧ q.appSchedEventPut handler eventData = (nrfErrorNoMem, q)) ∨
      ∃ q', q.contents.length < cap ∧ q.appSchedEventPut handler eventData = (nrfSuccess, q') ∧
        q'.Fits ∧ q'.contents = q.contents ++ [(handler, eventData)] := by
  simp only [appSchedEventPut, if_pos inside]
  cases full : q.isFull with
  | true => exact .inl ⟨isFull_iff.mp full, rfl⟩
  | false =>
    exact .inr ⟨q.written handler eventData, contents_lt_of_room full, rfl,
      fits_written fits inside full, contents_written fits inside full⟩

/-- Getting an event takes the oldest one, or finds the queue empty. -/
theorem appSchedEventGet_spec (fits : q.Fits) :
    (q.contents = [] ∧ q.appSchedEventGet = (none, q)) ∨
      ∃ event q', q.appSchedEventGet = (some event, q') ∧ q'.Fits ∧
        q.contents = event :: q'.contents := by
  unfold appSchedEventGet
  cases empty : q.isEmpty with
  | true =>
    have same : q.queueEndIndex = q.queueStartIndex := by simpa [isEmpty] using empty
    refine .inl ⟨?_, rfl⟩
    rw [contents, slots_eq_nil.mpr same, List.map_nil]
  | false =>
    have some_ : q.queueEndIndex ≠ q.queueStartIndex := by simpa [isEmpty] using empty
    -- The entry at the start is released, and is the oldest one.
    have slots := slots_release some_
    refine .inr ⟨_, _, rfl, ?_, ?_⟩
    · -- The entries that are left were in the queue before.
      intro index member
      exact fits index (by rw [slots]; exact List.mem_cons_of_mem _ member)
    · rw [contents, slots, List.map_cons]
      rfl

end AppSched

end BleHub
