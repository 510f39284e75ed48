import BleHub.Firmware.AppTimer

/-!
The list handler of app_timer.c, loop by loop, while interrupts of higher priority call the module.

The handler runs at the low interrupt priority, so only the user of the high one gets in between.
-/

namespace BleHub

/-- The other users, in the order in which their queues are gone through before that of user 0. -/
def lowUsersInTurn : List TimerUserId := [threadModeUserId, appLowUserId]

/-- Where the list handler is in the queue of the high priority. -/
inductive ListStage (cap : Nat) where
  /-- It looks for stop operations, and this entry is next unless it is the end of the queue. -/
  | deleting (userOpsFirst : Fin (cap + 1))
  /-- It takes the operations from the queue. -/
  | inserting
  /-- It has moved the first index past this entry, and will now carry out the operation there. -/
  | insertingOp (slot : Fin (cap + 1))
  /-- It has returned. -/
  | done
  deriving DecidableEq

/-- The list handler under way: the static variables, and its local ones. -/
structure ListHandling (H C : Type) (n cap : Nat) where
  timer : AppTimer H C n cap
  stage : ListStage cap
  ticksPrevious : UInt32
  ticksElapsed : Option UInt32
  timerIdHeadOld : Option (Fin n)
  compareUpdate : Bool
  /-- The head of the list before the insertions. -/
  insertionsHeadOld : Option (Fin n)
  /-- The operations that have been queued meanwhile, oldest first. -/
  queued : List (TimerUserOp C n)

/-- What happens next while the list handler is under way. -/
inductive ListEvent (C : Type) (n : Nat) where
  /-- The handler goes on, for one turn of a loop. -/
  | advance
  /-- An interrupt of high priority calls for an operation. -/
  | call (op : TimerUserOp C n)

namespace ListHandling

variable {H C : Type} {n cap : Nat}

/-- The handler takes the elapsed ticks and goes through the queues of the lower priorities. -/
def enter (t : AppTimer H C n cap) : ListHandling H C n cap where
  timer := lowUsersInTurn.foldl AppTimer.deleteOpsOf t.elapsedTicksAcquire.2
  stage := .deleting (t.users appHighUserId).first
  ticksPrevious := t.ticksLatest
  ticksElapsed := t.elapsedTicksAcquire.1
  timerIdHeadOld := t.running.head?
  compareUpdate := false
  insertionsHeadOld := none
  queued := []

/-- The end of the deletions: timers expire, and those of the lower priorities are inserted. -/
def expire (s : ListHandling H C n cap) : ListHandling H C n cap :=
  let expired := s.timer.expireTimers s.ticksPrevious s.ticksElapsed
  -- The head is compared with that of the entry, before any timer expires.
  { s with
    timer := lowUsersInTurn.foldl AppTimer.insertOpsOf
      (expired.2.foldl AppTimer.insertTimer expired.1)
    stage := .inserting
    compareUpdate := s.ticksElapsed.isSome || s.timer.running.head? != s.timerIdHeadOld
    insertionsHeadOld := expired.1.running.head? }

/-- The end of the insertions: the compare register is set if need be. -/
def finish (s : ListHandling H C n cap) (preCounter postCounter : UInt32) :
    ListHandling H C n cap :=
  { s with
    timer :=
      if s.compareUpdate || s.timer.running.head? != s.insertionsHeadOld then
        s.timer.compareRegUpdate s.timerIdHeadOld.isNone preCounter postCounter
      else s.timer
    stage := .done }

/-- The handler makes a turn. -/
def advance (s : ListHandling H C n cap) (preCounter postCounter : UInt32) :
    ListHandling H C n cap :=
  let queue := s.timer.users appHighUserId
  match s.stage with
  | .deleting userOpsFirst =>
    -- The end of the queue is read anew at every turn, so later operations are seen as well.
    if userOpsFirst ≠ queue.last then
      { s with
        timer := s.timer.deleteOp (queue.buf userOpsFirst)
        stage := .deleting (RingBuffer.nextSlot userOpsFirst) }
    else s.expire
  | .inserting =>
    -- An operation leaves the queue before it is carried out.
    if queue.first ≠ queue.last then
      { s with
        timer := { s.timer with
          users := Function.update s.timer.users appHighUserId
            { queue with first := RingBuffer.nextSlot queue.first } }
        stage := .insertingOp queue.first }
    else s.finish preCounter postCounter
  | .insertingOp slot =>
    -- No call has overwritten its slot: the one in front of the first index stays unused.
    { s with timer := s.timer.insertOp (queue.buf slot), stage := .inserting }
  | .done => s

/-- The next event; a call that finds the queue full changes nothing. -/
def step (preCounter postCounter : UInt32) (s : ListHandling H C n cap) :
    ListEvent C n → ListHandling H C n cap
  | .advance => s.advance preCounter postCounter
  | .call op =>
    let called := s.timer.opSchedule appHighUserId op
    if called.1 = nrfSuccess then { s with timer := called.2, queued := s.queued ++ [op] } else s

/-- The handler from its entry on, with calls at any time. -/
def run (preCounter postCounter : UInt32) (t : AppTimer H C n cap) (events : List (ListEvent C n)) :
    ListHandling H C n cap :=
  events.foldl (step preCounter postCounter) (enter t)

end ListHandling

end BleHub
