import BleHub.Firmware.AppScheduler
import BleHub.Firmware.Main

/-!
The path of an event from an interrupt to the main loop, in steps that an interrupt may separate.

Interrupts may nest to any depth, and the main loop only goes on once all of them have returned.
-/

namespace BleHub

/-- The event handlers that interrupts post to the scheduler. -/
inductive SchedEventHandler where
  | bleStackEvtGet
  | appTimerEvtGet
  deriving DecidableEq, Repr

/-- The size of the event data that a handler checks for. -/
def SchedEventHandler.eventSize : SchedEventHandler → Nat
  | .bleStackEvtGet => 0
  | .appTimerEvtGet => schedMaxEventDataSize

/-- What an interrupt asks the scheduler to put into its queue. -/
structure Posting where
  handler : SchedEventHandler
  eventData : List UInt8
  deriving DecidableEq, Repr

/-- An entry of the queue. -/
abbrev SchedSlot : Type := Fin (schedQueueSize + 1)

/-- The scheduler as main configures it. -/
abbrev HubSched : Type := AppSched SchedEventHandler schedQueueSize schedMaxEventDataSize

/-- How far an interrupt has come in putting its event. -/
inductive PutPc where
  /-- Before the critical region. -/
  | entered
  /-- Behind the critical region, in which the entry was reserved. -/
  | reserved (index : SchedSlot)
  /-- The handler is written, and so are the first bytes of the event data. -/
  | copying (index : SchedSlot) (k : Nat)
  deriving DecidableEq

/-- An interrupt that is being served. -/
structure PutFrame where
  posting : Posting
  pc : PutPc
  deriving DecidableEq

/-- How far the main loop has come. -/
inductive MainPc where
  /-- About to test whether the queue is empty. -/
  | testing
  /-- The queue was found to hold an event. -/
  | taking
  /-- The entry is released, and its header is still to be read. -/
  | readingSize (index : SchedSlot)
  | readingHandler (index : SchedSlot) (eventDataSize : Nat)
  /-- The handler runs and has read the first bytes of the event data in place. -/
  | running (index : SchedSlot) (eventDataSize : Nat) (handler : SchedEventHandler)
      (read : List UInt8)
  /-- The handler for stack events pulls them one by one. -/
  | pulling
  /-- The queue was found empty, and the wait for an interrupt is about to be called. -/
  | waiting
  /-- Inside the wait for an interrupt. -/
  | sleeping
  deriving DecidableEq

/-- The state of the event path, over any kind of stack events. -/
structure EventPath (E : Type) where
  sched : HubSched
  /-- The interrupts being served, the innermost first. -/
  frames : List PutFrame
  main : MainPc
  /-- An interrupt has occurred since the wait was called last. -/
  irqOccurred : Bool
  swi2Pending : Bool
  /-- The stack events that are not pulled yet. -/
  stack : List E
  halted : Option Halt
  /-- What has been put successfully, in the order in which the entries were reserved. -/
  puts : List Posting
  /-- The handlers that ran, with the event data they read. -/
  executed : List Posting
  generated : List E
  dispatched : List E

/-- What happens next. -/
inductive EventPathStep (E : Type) where
  /-- The stack has an event and makes its interrupt pending. -/
  | stackEvent (event : E)
  | swi2IrqHandler
  /-- The timer interrupt posts the handler and the context of an expired timer. -/
  | rtc1IrqHandler (timerEvent : Vector UInt8 schedMaxEventDataSize)
  /-- The innermost interrupt goes on, or else the main loop. -/
  | advance

namespace EventPath

variable {E : Type}

/-- An interrupt is taken and calls the scheduler. -/
def enter (s : EventPath E) (posting : Posting) : EventPath E :=
  { s with frames := ⟨posting, .entered⟩ :: s.frames, irqOccurred := true }

/-- The application error handler resets the system. -/
def fail (s : EventPath E) (errCode : ErrCode) : EventPath E :=
  { s with halted := some (.appError errCode) }

/-- The innermost interrupt goes on with app_sched_event_put. -/
def stepFrame (s : EventPath E) (posting : Posting) (rest : List PutFrame) :
    PutPc → EventPath E
  | .entered =>
    if posting.eventData.length ≤ schedMaxEventDataSize then
      -- Testing and reserving happen in one critical region.
      if s.sched.isFull then s.fail nrfErrorNoMem
      else { s with
        sched := s.sched.reserve
        frames := ⟨posting, .reserved s.sched.queueEndIndex⟩ :: rest
        puts := s.puts ++ [posting] }
    else s.fail nrfErrorInvalidLength
  | .reserved index =>
    { s with
      sched := s.sched.writeHandler index posting.handler
      frames := ⟨posting, .copying index 0⟩ :: rest }
  | .copying index k =>
    match posting.eventData[k]? with
    | some byte =>
      { s with
        sched := s.sched.writeByte index k byte
        frames := ⟨posting, .copying index (k + 1)⟩ :: rest }
    | none =>
      { s with sched := s.sched.writeSize index posting.eventData.length, frames := rest }

/-- Where a handler continues when it has read its event data. -/
def continuation : SchedEventHandler → MainPc
  | .bleStackEvtGet => .pulling
  | .appTimerEvtGet => .testing

/-- The main loop goes on. -/
def stepMain (s : EventPath E) : MainPc → EventPath E
  | .testing => { s with main := if s.sched.isEmpty then .waiting else .taking }
  -- The entry counts as free from here on, before its header and its data are read.
  | .taking =>
    { s with sched := s.sched.release, main := .readingSize s.sched.queueStartIndex }
  | .readingSize index =>
    { s with main := .readingHandler index (s.sched.queueEventHeaders index).eventDataSize }
  -- Both handlers check that the size of the data is the one they expect.
  | .readingHandler index eventDataSize =>
    let handler := (s.sched.queueEventHeaders index).handler
    if eventDataSize = handler.eventSize then
      { s with main := .running index eventDataSize handler [] }
    else s.fail 0
  | .running index eventDataSize handler read =>
    if read.length < eventDataSize then
      let byte := s.sched.readByte index read.length
      { s with main := .running index eventDataSize handler (read ++ [byte]) }
    else { s with executed := s.executed ++ [⟨handler, read⟩], main := continuation handler }
  -- The stack is emptied before the handler returns.
  | .pulling =>
    match s.stack with
    | [] => { s with main := .testing }
    | event :: rest => { s with stack := rest, dispatched := s.dispatched ++ [event] }
  -- An interrupt since the last wait lets this one return at once.
  | .waiting =>
    if s.irqOccurred then { s with irqOccurred := false, main := .testing }
    else { s with main := .sleeping }
  | .sleeping => if s.irqOccurred then { s with main := .testing } else s

/-- One step while the system executes. -/
def stepLive (s : EventPath E) : EventPathStep E → EventPath E
  | .stackEvent event =>
    { s with
      stack := s.stack ++ [event]
      generated := s.generated ++ [event]
      swi2Pending := true }
  | .swi2IrqHandler =>
    if s.swi2Pending then { s with swi2Pending := false }.enter ⟨.bleStackEvtGet, []⟩ else s
  | .rtc1IrqHandler timerEvent => s.enter ⟨.appTimerEvtGet, timerEvent.toList⟩
  | .advance =>
    match s.frames with
    | frame :: rest => s.stepFrame frame.posting rest frame.pc
    | [] => s.stepMain s.main

/-- One step of the event path, which stands still once the system no longer executes. -/
def step (s : EventPath E) (label : EventPathStep E) : EventPath E :=
  match s.halted with
  | some _ => s
  | none => s.stepLive label

/-- The event path when main enters its loop. -/
def boot : EventPath E where
  sched := .init .bleStackEvtGet
  frames := []
  main := .testing
  irqOccurred := false
  swi2Pending := false
  stack := []
  halted := none
  puts := []
  executed := []
  generated := []
  dispatched := []

end EventPath

end BleHub
