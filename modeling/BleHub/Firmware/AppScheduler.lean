import BleHub.Lib.RingBuffer
import BleHub.Stack.Interface

/-! The scheduler queue in memory, as in app_scheduler.c: headers, event data and two indices. -/

namespace BleHub

/-- The header of a scheduled event. -/
structure EventHeader (H : Type) where
  handler : H
  eventDataSize : Nat
  deriving DecidableEq

/-- The static variables of the scheduler, for up to `cap` events of up to `size` bytes. -/
structure AppSched (H : Type) (cap size : Nat) where
  queueEventHeaders : Fin (cap + 1) → EventHeader H
  /-- The event data of all entries, one behind the other. -/
  queueEventData : Nat → UInt8
  queueStartIndex : Fin (cap + 1)
  queueEndIndex : Fin (cap + 1)

variable {H : Type} {cap size : Nat}

/-- Increment a queue index and wrap around behind the last entry. -/
def nextIndex (index : Fin (cap + 1)) : Fin (cap + 1) :=
  if inside : index.val < cap then ⟨index.val + 1, Nat.succ_lt_succ inside⟩
  else ⟨0, Nat.zero_lt_succ cap⟩

/-- The increment is that of the index type. -/
theorem nextIndex_eq (index : Fin (cap + 1)) : nextIndex index = index + 1 := by
  -- Only the largest index wraps around.
  unfold nextIndex
  split
  · rename_i inside
    apply Fin.ext
    rw [Fin.val_add_one, if_neg]
    intro last
    rw [last, Fin.val_last] at inside
    omega
  · rename_i outside
    have last : index = Fin.last cap := by
      apply Fin.ext
      rw [Fin.val_last]
      omega
    rw [last, Fin.last_add_one]
    rfl

namespace AppSched

/-- The queue with nothing in it, over given stale contents. -/
def init (handler : H) : AppSched H cap size where
  queueEventHeaders _ := ⟨handler, 0⟩
  queueEventData _ := 0
  queueStartIndex := ⟨0, Nat.zero_lt_succ cap⟩
  queueEndIndex := ⟨0, Nat.zero_lt_succ cap⟩

/-- Whether the queue is full. -/
def isFull (q : AppSched H cap size) : Bool := nextIndex q.queueEndIndex == q.queueStartIndex

/-- Whether the queue is empty. -/
def isEmpty (q : AppSched H cap size) : Bool := q.queueEndIndex == q.queueStartIndex

/-- Where a byte of an entry lies in the event data. -/
def address (size : Nat) (index : Fin (cap + 1)) (k : Nat) : Nat := index.val * size + k

/-! The steps of putting an event, each of which an interrupt of higher priority may follow. -/

/-- Reserve the entry at the end of the queue. -/
def reserve (q : AppSched H cap size) : AppSched H cap size :=
  { q with queueEndIndex := nextIndex q.queueEndIndex }

/-- Write the handler of an entry. -/
def writeHandler (index : Fin (cap + 1)) (handler : H) (q : AppSched H cap size) :
    AppSched H cap size :=
  let header := { q.queueEventHeaders index with handler := handler }
  { q with queueEventHeaders := Function.update q.queueEventHeaders index header }

/-- Copy one byte of the event data. -/
def writeByte (index : Fin (cap + 1)) (k : Nat) (byte : UInt8) (q : AppSched H cap size) :
    AppSched H cap size :=
  { q with queueEventData := Function.update q.queueEventData (address size index k) byte }

/-- Write the size of the event data. -/
def writeSize (index : Fin (cap + 1)) (eventDataSize : Nat) (q : AppSched H cap size) :
    AppSched H cap size :=
  let header := { q.queueEventHeaders index with eventDataSize := eventDataSize }
  { q with queueEventHeaders := Function.update q.queueEventHeaders index header }

/-! The steps of getting an event, in the main loop. -/

/-- Release the entry at the start of the queue. -/
def release (q : AppSched H cap size) : AppSched H cap size :=
  { q with queueStartIndex := nextIndex q.queueStartIndex }

/-- Read one byte of the event data, in place. -/
def readByte (index : Fin (cap + 1)) (k : Nat) (q : AppSched H cap size) : UInt8 :=
  q.queueEventData (address size index k)

/-! The functions of the scheduler, for when nothing comes between their steps. -/

/-- Copy the bytes to the event data of an entry, from the given one on. -/
def memcpy (index : Fin (cap + 1)) : Nat → List UInt8 → AppSched H cap size → AppSched H cap size
  | _, [], q => q
  | k, byte :: bytes, q => memcpy index (k + 1) bytes (q.writeByte index k byte)

/-- Put an event into the queue. -/
def appSchedEventPut (handler : H) (eventData : List UInt8) (q : AppSched H cap size) :
    ErrCode × AppSched H cap size :=
  if eventData.length ≤ size then
    if q.isFull then (nrfErrorNoMem, q)
    else
      let index := q.queueEndIndex
      let copied := memcpy index 0 eventData (q.reserve.writeHandler index handler)
      (nrfSuccess, copied.writeSize index eventData.length)
  else (nrfErrorInvalidLength, q)

/-- The event an entry holds: its handler, and as much event data as its header says. -/
def entry (q : AppSched H cap size) (index : Fin (cap + 1)) : H × List UInt8 :=
  let header := q.queueEventHeaders index
  (header.handler, (List.range header.eventDataSize).map fun k => q.readByte index k)

/-- Get the next event of the queue. Its data stays where it is until the entry is reused. -/
def appSchedEventGet (q : AppSched H cap size) : Option (H × List UInt8) × AppSched H cap size :=
  if q.isEmpty then (none, q) else (some (q.entry q.queueStartIndex), q.release)

/-- The entries of the queue, from the start to the end. -/
def slots (q : AppSched H cap size) : List (Fin (cap + 1)) :=
  RingBuffer.occupied q.queueStartIndex q.queueEndIndex

end AppSched

end BleHub
