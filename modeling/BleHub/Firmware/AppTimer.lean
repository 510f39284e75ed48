import BleHub.Lib.RingBuffer
import BleHub.Stack.Interface

/-! The timer module, as in app_timer.c: operation queues, the list of running timers, interrupts. -/

namespace BleHub

/-- Maximum value of the RTC counter. -/
def maxRtcCounterVal : UInt32 := 0x00FFFFFF
/-- Minimum offset between the counter and the compare register. -/
def rtcCompareOffsetMin : UInt32 := 3
/-- Minimum number of ticks that a timer can be started with. -/
def appTimerMinTimeoutTicks : UInt32 := 5

/-- Number of ticks from one counter value to another. -/
def ticksDiffGet (ticksNow ticksOld : UInt32) : UInt32 := (ticksNow - ticksOld) &&& maxRtcCounterVal

/-- Whether a timer node has been allocated. -/
inductive TimerAllocState where
  | free
  | allocated
  deriving DecidableEq, Repr

/-- Whether a timer starts again when it expires. -/
inductive AppTimerMode where
  | singleShot
  | repeated
  deriving DecidableEq, Repr

/-- A timer node; the chain of next pointers is kept as a list beside the nodes. -/
structure TimerNode (H C : Type) where
  state : TimerAllocState
  mode : AppTimerMode
  /-- Ticks from the previous timer in the list, or from the last known counter value. -/
  ticksToExpire : UInt32
  ticksAtStart : UInt32
  ticksFirstInterval : UInt32
  ticksPeriodicInterval : UInt32
  isRunning : Bool
  timeoutHandler : H
  context : C
  deriving DecidableEq

/-- An operation that waits for the timer interrupt, with the timer it is for. -/
inductive TimerUserOp (C : Type) (n : Nat) where
  | start (timerId : Fin n) (ticksAtStart ticksFirstInterval ticksPeriodicInterval : UInt32)
      (context : C)
  | stop (timerId : Fin n)
  | stopAll
  deriving DecidableEq

/-- A timer user: one for each interrupt level, and the last for thread mode. -/
abbrev TimerUserId : Type := Fin 3
/-- The user that stands for the main loop. -/
def threadModeUserId : TimerUserId := 2
/-- The user that stands for interrupts of low priority. -/
def appLowUserId : TimerUserId := 1
/-- The user that stands for interrupts of high priority. -/
def appHighUserId : TimerUserId := 0

/-- The counter, the compare register and the pending interrupts that drive the module. -/
structure Rtc1 where
  started : Bool
  compare0 : UInt32
  rtc1Pending : Bool
  swi0Pending : Bool
  deriving DecidableEq, Repr

/-- The nodes of all timers. -/
abbrev TimerNodes (H C : Type) (n : Nat) : Type := Fin n → TimerNode H C

/-- The static variables of the timer module, with queues for up to `cap` operations. -/
structure AppTimer (H C : Type) (n cap : Nat) where
  nodes : TimerNodes H C n
  users : TimerUserId → RingBuffer (TimerUserOp C n) cap
  /-- The running timers, from the head of the list. -/
  running : List (Fin n)
  ticksLatest : UInt32
  /-- The queue of elapsed ticks, a double buffer. -/
  ticksElapsed : Fin 2 → UInt32
  ticksElapsedQReadInd : Fin 2
  ticksElapsedQWriteInd : Fin 2
  rtc : Rtc1

variable {H C : Type} {n cap : Nat}

/-- Change one node. -/
def TimerNodes.modify (nodes : TimerNodes H C n) (timerId : Fin n)
    (f : TimerNode H C → TimerNode H C) : TimerNodes H C n :=
  Function.update nodes timerId (f (nodes timerId))

@[simp] theorem TimerNodes.modify_self (nodes : TimerNodes H C n) (timerId : Fin n)
    (f : TimerNode H C → TimerNode H C) : nodes.modify timerId f timerId = f (nodes timerId) :=
  Function.update_self _ _ _

/-- Changing one node leaves every other one as it is. -/
theorem TimerNodes.modify_of_ne (nodes : TimerNodes H C n) {timerId other : Fin n}
    (apart : other ≠ timerId) (f : TimerNode H C → TimerNode H C) :
    nodes.modify timerId f other = nodes other :=
  Function.update_of_ne apart _ _

/-- Give a node the ticks it has left. -/
def TimerNode.expireIn (p : TimerNode H C) (ticks : UInt32) : TimerNode H C :=
  { p with ticksToExpire := ticks }

/--
Insert a timer where its ticks, counted from the head, are used up.

The source treats the head separately, but in the same way as the timers behind it.
-/
def timerListInsert (nodes : TimerNodes H C n) (timerId : Fin n) (ticksToExpire : UInt32) :
    List (Fin n) → TimerNodes H C n × List (Fin n)
  -- Behind all others, the timer keeps the ticks that are left after theirs.
  | [] => (nodes.modify timerId (·.expireIn ticksToExpire), [timerId])
  | current :: rest =>
    if ticksToExpire > (nodes current).ticksToExpire then
      let inserted :=
        timerListInsert nodes timerId (ticksToExpire - (nodes current).ticksToExpire) rest
      (inserted.1, current :: inserted.2)
    else
      -- The timer behind it now counts from the inserted one.
      let shortened := nodes.modify current fun p => p.expireIn (p.ticksToExpire - ticksToExpire)
      (shortened.modify timerId (·.expireIn ticksToExpire), timerId :: current :: rest)

/-- Remove a timer, and leave the ticks it still had to the timer behind it. -/
def timerListRemove (nodes : TimerNodes H C n) (timerId : Fin n) :
    List (Fin n) → TimerNodes H C n × List (Fin n)
  -- A timer that is not in the list leaves it as it is.
  | [] => (nodes, [])
  | current :: rest =>
    if current = timerId then
      match rest with
      | [] => (nodes, [])
      | next :: _ =>
        let timeout := (nodes timerId).ticksToExpire
        (nodes.modify next fun p => p.expireIn (p.ticksToExpire + timeout), rest)
    else
      let removed := timerListRemove nodes timerId rest
      (removed.1, current :: removed.2)

/-- The handlers and contexts of the timers that expire, and the ticks used up by them. -/
def timersExpiring (nodes : TimerNodes H C n) (ticksElapsed ticksExpired : UInt32) :
    List (Fin n) → List (H × C) × UInt32
  | [] => ([], ticksExpired)
  | timerId :: rest =>
    let p := nodes timerId
    -- The timers behind one that is not due are not due either.
    if ticksElapsed < p.ticksToExpire then ([], ticksExpired)
    else
      let later := timersExpiring nodes (ticksElapsed - p.ticksToExpire)
        (ticksExpired + p.ticksToExpire) rest
      ((p.timeoutHandler, p.context) :: later.1, later.2)

namespace AppTimer

/-- Hand the ticks expired over to the list handler, in a new entry if the last one was read. -/
def queueTicks (t : AppTimer H C n cap) (ticksExpired : UInt32) : AppTimer H C n cap :=
  -- Adding one wraps around behind the second entry.
  let writeInd := if t.ticksElapsedQReadInd = t.ticksElapsedQWriteInd
    then t.ticksElapsedQWriteInd + 1 else t.ticksElapsedQWriteInd
  { t with
    ticksElapsedQWriteInd := writeInd
    ticksElapsed := Function.update t.ticksElapsed writeInd ticksExpired
    rtc := { t.rtc with swi0Pending := true } }

/--
The RTC1 interrupt: the expired timers in order, each of which is passed to the scheduler.

The list itself is only updated by the SWI0 interrupt.
-/
def timerTimeoutsCheck (counter : UInt32) (t : AppTimer H C n cap) :
    List (H × C) × AppTimer H C n cap :=
  match t.running with
  -- Without a running timer, not even the elapsed ticks are handed over.
  | [] => ([], t)
  | timerId :: rest =>
    let expiring := timersExpiring t.nodes (ticksDiffGet counter t.ticksLatest) 0 (timerId :: rest)
    (expiring.1, t.queueTicks expiring.2)

/-- Take the elapsed ticks from their queue, if there are any. -/
def elapsedTicksAcquire (t : AppTimer H C n cap) : Option UInt32 × AppTimer H C n cap :=
  if t.ticksElapsedQReadInd ≠ t.ticksElapsedQWriteInd then
    let readInd := t.ticksElapsedQReadInd + 1
    let ticksElapsed := t.ticksElapsed readInd
    -- Reading the entry releases it to the RTC1 interrupt.
    (some ticksElapsed,
      { t with
        ticksElapsedQReadInd := readInd
        ticksLatest := (t.ticksLatest + ticksElapsed) &&& maxRtcCounterVal })
  else (none, t)

/-- Mark a timer as not running. -/
def halt (nodes : TimerNodes H C n) (timerId : Fin n) : TimerNodes H C n :=
  nodes.modify timerId fun p => { p with isRunning := false }

/-- What an operation in a queue does before any timer is inserted. -/
def deleteOp (t : AppTimer H C n cap) : TimerUserOp C n → AppTimer H C n cap
  | .stop timerId =>
    -- A timer that does not run is not in the list.
    if (t.nodes timerId).isRunning then
      let removed := timerListRemove t.nodes timerId t.running
      { t with nodes := halt removed.1 timerId, running := removed.2 }
    else t
  | .stopAll => { t with nodes := t.running.foldl halt t.nodes, running := [] }
  | .start _ _ _ _ _ => t

/-- The users, in the order in which their queues are gone through. -/
def usersInTurn : List TimerUserId := [2, 1, 0]

/-- Go through the queue of one user for stop operations, without taking anything from it. -/
def deleteOpsOf (t : AppTimer H C n cap) (userId : TimerUserId) : AppTimer H C n cap :=
  -- The queue is read through a copy of its first index.
  (t.users userId).contents.foldl deleteOp t

/-- Go through all queues for stop operations. -/
def listDeletionsHandler (t : AppTimer H C n cap) : AppTimer H C n cap :=
  usersInTurn.foldl deleteOpsOf t

/-- Take the expired timers off the list, and collect the periodic ones. -/
def expiredTimersHandler (ticksPrevious ticksElapsed ticksExpired : UInt32)
    (nodes : TimerNodes H C n) (restart : List (Fin n)) :
    List (Fin n) → TimerNodes H C n × List (Fin n) × List (Fin n)
  | [] => (nodes, [], restart)
  | timerId :: rest =>
    let p := nodes timerId
    -- The first timer that is not due ends the search, and waits for what is left.
    if ticksElapsed < p.ticksToExpire then
      (nodes.modify timerId fun p => p.expireIn (p.ticksToExpire - ticksElapsed),
        timerId :: rest, restart)
    else
      let ticksElapsed := ticksElapsed - p.ticksToExpire
      let ticksExpired := ticksExpired + p.ticksToExpire
      let expired := { p with ticksToExpire := 0, isRunning := false }
      -- A periodic timer counts its next interval from this expiry.
      if p.ticksPeriodicInterval ≠ 0 then
        let restarting := { expired with
          ticksAtStart := (ticksPrevious + ticksExpired) &&& maxRtcCounterVal
          ticksFirstInterval := p.ticksPeriodicInterval }
        expiredTimersHandler ticksPrevious ticksElapsed ticksExpired
          (nodes.modify timerId fun _ => restarting) (timerId :: restart) rest
      else
        expiredTimersHandler ticksPrevious ticksElapsed ticksExpired
          (nodes.modify timerId fun _ => expired) restart rest

/-- Take the elapsed ticks off the list, if there were any. -/
def expireTimers (ticksPrevious : UInt32) (acquired : Option UInt32) (t : AppTimer H C n cap) :
    AppTimer H C n cap × List (Fin n) :=
  match acquired with
  | some ticksElapsed =>
    let result := expiredTimersHandler ticksPrevious ticksElapsed 0 t.nodes [] t.running
    ({ t with nodes := result.1, running := result.2.1 }, result.2.2)
  | none => (t, [])

/-- The ticks a timer has left, counted from the last known counter value. -/
def ticksFromLatest (ticksLatest : UInt32) (p : TimerNode H C) : UInt32 :=
  -- A start less than half the counter range ahead lies behind the last known value.
  if (p.ticksAtStart - ticksLatest) &&& maxRtcCounterVal < maxRtcCounterVal / 2 then
    ticksDiffGet p.ticksAtStart ticksLatest + p.ticksFirstInterval
  else
    -- The start lies before it, and so may the whole interval.
    let deltaCurrentStart := ticksDiffGet ticksLatest p.ticksAtStart
    if p.ticksFirstInterval > deltaCurrentStart then p.ticksFirstInterval - deltaCurrentStart
    else 0

/-- Mark a timer as running, from which on only its remaining ticks count. -/
def begin (nodes : TimerNodes H C n) (timerId : Fin n) : TimerNodes H C n :=
  nodes.modify timerId fun p =>
    { p with ticksAtStart := 0, ticksFirstInterval := 0, isRunning := true }

/-- Prepare a node and insert it into the list. -/
def insertTimer (t : AppTimer H C n cap) (timerId : Fin n) : AppTimer H C n cap :=
  let ticksToExpire := ticksFromLatest t.ticksLatest (t.nodes timerId)
  let inserted := timerListInsert (begin t.nodes timerId) timerId ticksToExpire t.running
  { t with nodes := inserted.1, running := inserted.2 }

/-- Take over what a start operation asks for. -/
def configure (t : AppTimer H C n cap) (timerId : Fin n)
    (ticksAtStart ticksFirstInterval ticksPeriodicInterval : UInt32) (context : C) :
    AppTimer H C n cap :=
  { t with nodes := t.nodes.modify timerId fun p => { p with
      ticksAtStart := ticksAtStart
      ticksFirstInterval := ticksFirstInterval
      ticksPeriodicInterval := ticksPeriodicInterval
      context := context } }

/-- What an operation in a queue does once the deletions and expiries are done. -/
def insertOp (t : AppTimer H C n cap) : TimerUserOp C n → AppTimer H C n cap
  | .start timerId ticksAtStart ticksFirstInterval ticksPeriodicInterval context =>
    -- A start is ignored while the timer is running.
    if (t.nodes timerId).isRunning then t
    else
      (t.configure timerId ticksAtStart ticksFirstInterval ticksPeriodicInterval
        context).insertTimer timerId
  | .stop _ => t
  | .stopAll => t

/-- Carry out and take all operations of one user. -/
def insertOpsOf (t : AppTimer H C n cap) (userId : TimerUserId) : AppTimer H C n cap :=
  let queue := t.users userId
  let inserted := queue.contents.foldl insertOp t
  -- The queue is empty once its first index has caught up with its last.
  { inserted with users := Function.update inserted.users userId { queue with first := queue.last } }

/-- Insert the timers to be restarted, and then those that the queues start. -/
def listInsertionsHandler (t : AppTimer H C n cap) (restart : List (Fin n)) :
    AppTimer H C n cap :=
  usersInTurn.foldl insertOpsOf (restart.foldl insertTimer t)

/-- Set the compare register for the timer at the head, reading the counter before and after. -/
def compareRegUpdate (t : AppTimer H C n cap) (wasIdle : Bool) (preCounter postCounter : UInt32) :
    AppTimer H C n cap :=
  match t.running with
  -- No timers are running, stop the RTC.
  | [] => { t with rtc := { t.rtc with started := false } }
  | head :: _ =>
    let ticksToExpire := (t.nodes head).ticksToExpire
    let ticksElapsed := ticksDiffGet preCounter t.ticksLatest + rtcCompareOffsetMin
    -- No timers were already running, start the RTC.
    let rtc := if wasIdle then { t.rtc with started := true, rtc1Pending := false } else t.rtc
    let cc := (t.ticksLatest + (if ticksElapsed < ticksToExpire then ticksToExpire
      else ticksElapsed)) &&& maxRtcCounterVal
    -- So close to the counter, the compare event may not be triggered by the RTC.
    let late := decide (ticksDiffGet postCounter preCounter + rtcCompareOffsetMin >
      ticksDiffGet cc preCounter)
    { t with rtc := { rtc with compare0 := cc, rtc1Pending := rtc.rtc1Pending || late } }

/-- The SWI0 interrupt: deletions first, then expiries, then insertions. -/
def timerListHandler (preCounter postCounter : UInt32) (t : AppTimer H C n cap) :
    AppTimer H C n cap :=
  let ticksPrevious := t.ticksLatest
  let wasIdle := t.running.isEmpty
  let acquired := t.elapsedTicksAcquire
  let deleted := acquired.2.listDeletionsHandler
  let expired := deleted.expireTimers ticksPrevious acquired.1
  let inserted := expired.1.listInsertionsHandler expired.2
  -- The compare register depends on the head of the list.
  let compareUpdate := acquired.1.isSome || deleted.running.head? != t.running.head? ||
    inserted.running.head? != expired.1.running.head?
  if compareUpdate then inserted.compareRegUpdate wasIdle preCounter postCounter else inserted

/-- Queue an operation and schedule the list handler, unless the queue is full. -/
def opSchedule (t : AppTimer H C n cap) (userId : TimerUserId) (op : TimerUserOp C n) :
    ErrCode × AppTimer H C n cap :=
  match (t.users userId).push op with
  | none => (nrfErrorNoMem, t)
  | some queue =>
    (nrfSuccess, { t with
      users := Function.update t.users userId queue
      rtc := { t.rtc with swi0Pending := true } })

/-- Start a timer; the operation remembers the counter value. -/
def appTimerStart (t : AppTimer H C n cap) (userId : TimerUserId) (counter : UInt32)
    (timerId : Nat) (timeoutTicks : UInt32) (context : C) : ErrCode × AppTimer H C n cap :=
  if inside : timerId < n then
    if timeoutTicks < appTimerMinTimeoutTicks then (nrfErrorInvalidParam, t)
    else if (t.nodes ⟨timerId, inside⟩).state ≠ .allocated then (nrfErrorInvalidState, t)
    else
      -- A period of zero stands for a timer that expires only once.
      let timeoutPeriodic := if (t.nodes ⟨timerId, inside⟩).mode = .repeated then timeoutTicks else 0
      t.opSchedule userId (.start ⟨timerId, inside⟩ counter timeoutTicks timeoutPeriodic context)
  else (nrfErrorInvalidParam, t)

/-- Stop a timer. -/
def appTimerStop (t : AppTimer H C n cap) (userId : TimerUserId) (timerId : Nat) :
    ErrCode × AppTimer H C n cap :=
  if inside : timerId < n then
    if (t.nodes ⟨timerId, inside⟩).state ≠ .allocated then (nrfErrorInvalidState, t)
    else t.opSchedule userId (.stop ⟨timerId, inside⟩)
  else (nrfErrorInvalidParam, t)

/-- Stop all timers. -/
def appTimerStopAll (t : AppTimer H C n cap) (userId : TimerUserId) :
    ErrCode × AppTimer H C n cap :=
  t.opSchedule userId .stopAll

/-- Initialise the module at a counter value, with NULL handlers and contexts in the nodes. -/
def appTimerInit (counter : UInt32) (handler : H) (context : C) : AppTimer H C n cap where
  nodes _ := ⟨.free, .singleShot, 0, 0, 0, 0, false, handler, context⟩
  users _ := .empty .stopAll
  running := []
  ticksLatest := counter
  ticksElapsed _ := 0
  ticksElapsedQReadInd := 0
  ticksElapsedQWriteInd := 0
  rtc := ⟨false, 0, false, false⟩

/-- Allocate the first free node. -/
def appTimerCreate (t : AppTimer H C n cap) (mode : AppTimerMode) (timeoutHandler : H) :
    ErrCode × Option (Fin n) × AppTimer H C n cap :=
  -- The nodes are searched from the first one on.
  match (List.finRange n).find? fun timerId => decide ((t.nodes timerId).state = .free) with
  | some timerId =>
    (nrfSuccess, some timerId, { t with nodes := t.nodes.modify timerId fun p =>
      { p with state := .allocated, mode := mode, timeoutHandler := timeoutHandler } })
  | none => (nrfErrorNoMem, none, t)

/-! What the calls of the module can do. -/

/-- Queueing an operation appends it, or finds the queue full and changes nothing. -/
theorem opSchedule_spec (t : AppTimer H C n cap) (userId : TimerUserId) (op : TimerUserOp C n) :
    t.opSchedule userId op = (nrfErrorNoMem, t) ∨
      ∃ queue, queue.contents = (t.users userId).contents ++ [op] ∧
        t.opSchedule userId op = (nrfSuccess, { t with
          users := Function.update t.users userId queue
          rtc := { t.rtc with swi0Pending := true } }) := by
  unfold opSchedule
  rcases (t.users userId).push_spec op with ⟨-, full⟩ | ⟨-, queue, pushed, contents⟩
  · rw [full]
    exact .inl rfl
  · rw [pushed]
    exact .inr ⟨queue, contents, rfl⟩

/-- A start is refused and changes nothing, or it is queued, without a period unless repeated. -/
theorem appTimerStart_spec (t : AppTimer H C n cap) (userId : TimerUserId) (counter : UInt32)
    (timerId : Nat) (timeoutTicks : UInt32) (context : C) :
    (∃ errCode, errCode ≠ nrfSuccess ∧
        t.appTimerStart userId counter timerId timeoutTicks context = (errCode, t)) ∨
      ∃ (inside : timerId < n) (timeoutPeriodic : UInt32),
        ((t.nodes ⟨timerId, inside⟩).mode = .singleShot → timeoutPeriodic = 0) ∧
        t.appTimerStart userId counter timerId timeoutTicks context = t.opSchedule userId
          (.start ⟨timerId, inside⟩ counter timeoutTicks timeoutPeriodic context) := by
  unfold appTimerStart
  split
  · rename_i inside
    split
    · exact .inl ⟨nrfErrorInvalidParam, by decide, rfl⟩
    · split
      · exact .inl ⟨nrfErrorInvalidState, by decide, rfl⟩
      · refine .inr ⟨inside, _, fun single => ?_, rfl⟩
        simp [single]
  · exact .inl ⟨nrfErrorInvalidParam, by decide, rfl⟩

/-- A stop is refused and changes nothing, or it is queued. -/
theorem appTimerStop_spec (t : AppTimer H C n cap) (userId : TimerUserId) (timerId : Nat) :
    (∃ errCode, errCode ≠ nrfSuccess ∧ t.appTimerStop userId timerId = (errCode, t)) ∨
      ∃ inside : timerId < n,
        t.appTimerStop userId timerId = t.opSchedule userId (.stop ⟨timerId, inside⟩) := by
  unfold appTimerStop
  split
  · rename_i inside
    split
    · exact .inl ⟨nrfErrorInvalidState, by decide, rfl⟩
    · exact .inr ⟨inside, rfl⟩
  · exact .inl ⟨nrfErrorInvalidParam, by decide, rfl⟩

end AppTimer

end BleHub
