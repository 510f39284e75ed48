import BleHub.Firmware.AppTimer
import BleHub.Firmware.Trace

/-!
The whole firmware: interrupts that post to the scheduler queue, and the main loop that empties it.

A handler of the main loop is one step. An interrupt inside of it counts as one before or after it,
since the two share nothing but the timer module, which a handler calls at most once.
-/

namespace BleHub

/-- The timeout handlers of the timers that main creates. -/
inductive TimeoutHandler where
  | detectionDelayTimeoutHandler
  | updateTimeoutHandler
  deriving DecidableEq, Repr

/--
An entry of the scheduler queue.

The context, which is NULL in the source and never read, records how many connections there were
when the timer was started; next to it stands how many there were when the entry was posted.
-/
inductive SchedEvent where
  | bleStackEvt
  | appTimerEvt (timeoutHandler : Option TimeoutHandler) (context posted : Nat)
  deriving DecidableEq, Repr

/-- The timer module as main configures it. -/
abbrev HubTimer : Type :=
  AppTimer (Option TimeoutHandler) Nat appTimerMaxTimers appTimerOpQueueSize

/-- The scheduler queue as main configures it. -/
abbrev SchedQueue : Type := RingBuffer SchedEvent schedQueueSize

/-- What the main loop shares with the interrupts. -/
structure Env where
  timer : HubTimer
  queue : SchedQueue

/-- What the SoftDevice and the counter contribute to a handler. -/
structure Device where
  returns : Call → ErrCode
  counter : UInt32

/-- The timer module answers its own calls, and the SoftDevice all others. -/
def Env.answer (device : Device) (connections : Nat) : Answer Env := fun call env =>
  match call with
  | .appTimerStart timerId timeoutTicks =>
    let started := env.timer.appTimerStart threadModeUserId device.counter timerId timeoutTicks
      connections
    (started.1, { env with timer := started.2 })
  | .appTimerStop timerId =>
    let stopped := env.timer.appTimerStop threadModeUserId timerId
    (stopped.1, { env with timer := stopped.2 })
  | _ => (device.returns call, env)

/-- The firmware with its interrupts. -/
structure System where
  app : App Env
  /-- The main loop is inside the handler that pulls all events of the stack. -/
  pulling : Bool

/-- What happens next. -/
inductive SystemStep where
  /-- The timer interrupt. -/
  | rtc1IrqHandler (counter : UInt32)
  /-- The interrupt that works off the timer operations. -/
  | swi0IrqHandler (preCounter postCounter : UInt32)
  /-- The interrupt for stack events. -/
  | swi2IrqHandler
  /-- The main loop takes the next entry from the scheduler queue. -/
  | appSchedEventGet (device : Device)
  /-- The main loop pulls an event from the stack and dispatches it. -/
  | sdBleEvtGet (device : Device) (input : Input)
  /-- The main loop finds no further event in the stack. -/
  | sdBleEvtNotFound

/-- Post the timeouts of expired timers in order, until the queue is full. -/
def postTimeouts (connections : Nat) :
    List (Option TimeoutHandler × Nat) → SchedQueue → Option SchedQueue
  | [], queue => some queue
  | (timeoutHandler, context) :: rest, queue =>
    match queue.push (.appTimerEvt timeoutHandler context connections) with
    | some queue => postTimeouts connections rest queue
    | none => none

/-- What the stack may deliver next: an answer comes only while a request is unanswered. -/
def deliverable (input : Input) (past : List Reaction) : Bool :=
  match input with
  -- An expiry comes through the scheduler queue.
  | .expiry _ => false
  | .answer _ _ => permitted input past && decide (0 < outstanding past)
  | .event _ => permitted input past

/-- Entering an interrupt clears that it is pending. -/
def AppTimer.enterSwi0 {H C : Type} {n cap : Nat} (t : AppTimer H C n cap) : AppTimer H C n cap :=
  { t with rtc := { t.rtc with swi0Pending := false } }

/-- Entering an interrupt clears that it is pending. -/
def AppTimer.enterRtc1 {H C : Type} {n cap : Nat} (t : AppTimer H C n cap) : AppTimer H C n cap :=
  { t with rtc := { t.rtc with rtc1Pending := false } }

namespace System

/-- The system with another timer and another queue. -/
def within (s : System) (env : Env) : System := { s with app := s.app.within env }

/-- An interrupt handler found the scheduler queue full and entered the error handler. -/
def overflow (s : System) : System :=
  { s with app := s.app.step (.fault (.appError nrfErrorNoMem)) }

/-- The main loop runs the code for an input. -/
def handle (s : System) (device : Device) (input : Input) : System :=
  { s with app := s.app.react (Env.answer device (epoch (⟨input, []⟩ :: s.app.past))) input }

/-- The main loop runs an entry that it has taken from the queue. -/
def runEntry (s : System) (device : Device) : SchedEvent → System
  | .bleStackEvt => { s with pulling := true }
  | .appTimerEvt timeoutHandler context _ =>
    match timeoutHandler with
    | some .updateTimeoutHandler => s.handle device (.expiry context)
    -- The buttons are never enabled, so that their timer is never started.
    | some .detectionDelayTimeoutHandler => s
    | none => s

/-- One step while the system executes. -/
def stepLive (s : System) : SystemStep → System
  | .rtc1IrqHandler counter =>
    -- The elapsed ticks are handed over behind the timeouts, if all of those were posted.
    let checked := s.app.ext.timer.enterRtc1.timerTimeoutsCheck counter
    match postTimeouts (epoch s.app.past) checked.1 s.app.ext.queue with
    | some queue => s.within ⟨checked.2, queue⟩
    | none => s.overflow
  | .swi0IrqHandler preCounter postCounter =>
    if s.app.ext.timer.rtc.swi0Pending then
      s.within ⟨s.app.ext.timer.enterSwi0.timerListHandler preCounter postCounter,
        s.app.ext.queue⟩
    else s
  | .swi2IrqHandler =>
    match s.app.ext.queue.push .bleStackEvt with
    | some queue => s.within ⟨s.app.ext.timer, queue⟩
    | none => s.overflow
  | .appSchedEventGet device =>
    -- The handler of the previous entry has to return first.
    if s.pulling then s
    else
      match s.app.ext.queue.pop with
      | some (entry, queue) => (s.within ⟨s.app.ext.timer, queue⟩).runEntry device entry
      | none => s
  | .sdBleEvtGet device input =>
    if s.pulling && deliverable input s.app.past then s.handle device input else s
  | .sdBleEvtNotFound => { s with pulling := false }

/-- One step of the system, which stands still once it no longer executes. -/
def step (s : System) (label : SystemStep) : System :=
  match s.app.halted with
  | some _ => s
  | none => s.stepLive label

/-- The timers when main enters its loop: one for the buttons and one for the negotiation. -/
def initialTimer (counter : UInt32) : HubTimer :=
  let initialised : HubTimer := AppTimer.appTimerInit counter none 0
  let buttons := (initialised.appTimerCreate .singleShot (some .detectionDelayTimeoutHandler)).2.2
  (buttons.appTimerCreate .singleShot (some .updateTimeoutHandler)).2.2

/-- The negotiation timer, which is the second one created. -/
def connParamsTimer : Fin appTimerMaxTimers := ⟨1, by decide⟩

/-- The system when main enters its loop. -/
def boot (counter : UInt32) : System where
  app := .boot connParamsTimer ⟨initialTimer counter, .empty .bleStackEvt⟩
  pulling := false

/-- A run of the system from where main enters its loop. -/
def after (counter : UInt32) (labels : List SystemStep) : System :=
  StepMachine.run step (boot counter) labels

/-- Whether a step belongs to the main loop. -/
def inMainLoop : SystemStep → Bool
  | .rtc1IrqHandler _ => false
  | .swi0IrqHandler _ _ => false
  | .swi2IrqHandler => false
  | .appSchedEventGet _ => true
  | .sdBleEvtGet _ _ => true
  | .sdBleEvtNotFound => true

/-- One step under the interrupt controller: a pending interrupt comes before the main loop. -/
def stepPreempted (s : System) (label : SystemStep) : System :=
  if inMainLoop label && s.app.ext.timer.rtc.swi0Pending then s else s.step label

/-- A run in which the main loop only goes on once the timer operations are worked off. -/
def afterPreempted (counter : UInt32) (labels : List SystemStep) : System :=
  StepMachine.run stepPreempted (boot counter) labels

/-! ### The system runs the application -/

/-- Every step of the system consists of steps of the application in its environment. -/
theorem step_simulates : StepMachine.Simulates step App.step System.app := by
  -- The main loop takes an entry from the queue before it reacts to it.
  intro s label
  cases live : s.app.halted with
  | some halt => exact ⟨[], by simp [step, live]⟩
  | none =>
    simp only [step, live]
    cases label with
    | rtc1IrqHandler counter =>
      simp only [stepLive]
      split
      · exact ⟨[.environment _], rfl⟩
      · exact ⟨[.fault _], rfl⟩
    | swi0IrqHandler preCounter postCounter =>
      simp only [stepLive]
      split
      · exact ⟨[.environment _], rfl⟩
      · exact ⟨[], rfl⟩
    | swi2IrqHandler =>
      simp only [stepLive]
      split
      · exact ⟨[.environment _], rfl⟩
      · exact ⟨[.fault _], rfl⟩
    | appSchedEventGet device =>
      simp only [stepLive]
      split
      · exact ⟨[], rfl⟩
      · split
        · rename_i entry queue _
          cases entry with
          | bleStackEvt => exact ⟨[.environment _], rfl⟩
          | appTimerEvt timeoutHandler context posted =>
            cases timeoutHandler with
            | none => exact ⟨[.environment _], rfl⟩
            | some handler =>
              cases handler with
              | detectionDelayTimeoutHandler => exact ⟨[.environment _], rfl⟩
              | updateTimeoutHandler =>
                exact ⟨[.environment ⟨s.app.ext.timer, queue⟩, .react _ (.expiry context)], rfl⟩
        · exact ⟨[], rfl⟩
    | sdBleEvtGet device input =>
      simp only [stepLive]
      split
      · exact ⟨[.react _ input], rfl⟩
      · exact ⟨[], rfl⟩
    | sdBleEvtNotFound => exact ⟨[], rfl⟩

/-- The interrupt controller only delays the main loop. -/
theorem stepPreempted_simulates : StepMachine.Simulates stepPreempted step id := by
  intro s label
  simp only [stepPreempted]
  split
  · exact ⟨[], rfl⟩
  · exact ⟨[label], rfl⟩

/-- In the system, the application does what it can do in some environment. -/
theorem after_app (counter : UInt32) (labels : List SystemStep) :
    ∃ acts, (after counter labels).app =
      App.after connParamsTimer ⟨initialTimer counter, .empty .bleStackEvt⟩ acts :=
  step_simulates.run labels (boot counter)

/-- A run under the interrupt controller is one of the runs of the system. -/
theorem afterPreempted_after (counter : UInt32) (labels : List SystemStep) :
    ∃ labels', afterPreempted counter labels = after counter labels' :=
  stepPreempted_simulates.run labels (boot counter)

end System

end BleHub
