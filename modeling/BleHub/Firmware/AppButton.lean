import BleHub.Firmware.Gpiote
import BleHub.Firmware.TimedTimer

/-! The button handler, as in app_button.c, on the GPIOTE handler and the timer module. -/

namespace BleHub

/-- The configuration of a button; its handler may be NULL. -/
structure AppButtonCfg (B : Type) where
  pinNo : Fin 32
  activeHigh : Bool
  buttonHandler : Option B
  deriving DecidableEq

/-- The static variables of the module. -/
structure AppButton (B : Type) where
  buttons : List (AppButtonCfg B)
  activeLowStatesMask : PinMask
  activeHighStatesMask : PinMask
  detectionDelay : UInt32
  gpioteUserId : Nat
  detectionDelayTimerId : Nat
  deriving DecidableEq

/-- The event handlers of the users of the GPIOTE handler. -/
inductive PinHandler (E : Type) where
  | gpioteEventHandler
  | other (handler : E)
  deriving DecidableEq

/-- The handlers of the timers. -/
inductive TimerHandler (H : Type) where
  | detectionDelayTimeoutHandler
  | other (handler : H)
  deriving DecidableEq

/-- A button handler that is executed, directly or from the scheduler. -/
structure ButtonCall (B : Type) where
  buttonHandler : B
  pinNo : Fin 32
  deriving DecidableEq

namespace AppButton

variable {B E : Type}

/-- Add a button to the masks of the buttons that are active high, and active low. -/
def addButton (btn : AppButtonCfg B) (masks : PinMask × PinMask) : PinMask × PinMask :=
  (masks.1 ||| (bif btn.activeHigh then BitMask.bit btn.pinNo else 0#32),
    masks.2 ||| (bif btn.activeHigh then 0#32 else BitMask.bit btn.pinNo))

/-- Initialise the module, whose timer gets a number when it is created. -/
def appButtonInit (g : Gpiote (PinHandler E)) (buttons : List (AppButtonCfg B))
    (detectionDelay : UInt32) (timerId : Nat) :
    ErrCode × Option (AppButton B) × Gpiote (PinHandler E) :=
  if detectionDelay < appTimerMinTimeoutTicks then (nrfErrorInvalidParam, none, g)
  else
    -- The loop goes from the last button to the first.
    let masks := buttons.foldr addButton (0#32, 0#32)
    match g.appGpioteUserRegister masks.1 masks.2 .gpioteEventHandler with
    | (errCode, none, g) => (errCode, none, g)
    | (_, some userId, g) =>
      (nrfSuccess, some
        { buttons := buttons
          activeLowStatesMask := masks.2
          activeHighStatesMask := masks.1
          detectionDelay := detectionDelay
          gpioteUserId := userId
          detectionDelayTimerId := timerId }, g)

/-- Report the buttons that are still pushed when the timer expires. -/
def detectionDelayTimeoutHandler (b : AppButton B) (g : Gpiote E) (pinsState context : PinMask) :
    List (ButtonCall B) :=
  match g.appGpiotePinsStateGet b.gpioteUserId pinsState with
  | (_, none) => []
  | (_, some currentStatePins) =>
    -- What was pushed at the event must be so still.
    let activePins := (currentStatePins &&& b.activeHighStatesMask) |||
      (~~~currentStatePins &&& b.activeLowStatesMask)
    let eventPinsMask := context &&& activePins
    if eventPinsMask ≠ 0#32 then
      b.buttons.filterMap fun btn =>
        if eventPinsMask &&& BitMask.bit btn.pinNo ≠ 0#32
          then btn.buttonHandler.map fun handler => ⟨handler, btn.pinNo⟩ else none
    else []

/--
Start the timer again, with the pins of the event as its context.

These are the calls of the timer module, where the first one returns an error code.
-/
def gpioteEventHandler (b : AppButton B) (stopped : ErrCode)
    (eventPinsLowToHigh eventPinsHighToLow : PinMask) : List (TimedStep PinMask) :=
  .appTimerStop appHighUserId b.detectionDelayTimerId ::
    if stopped ≠ nrfSuccess then []
    else [.appTimerStart appHighUserId b.detectionDelayTimerId b.detectionDelay
      (eventPinsLowToHigh ||| eventPinsHighToLow)]

/-- Enable the buttons. -/
def appButtonEnable (b : AppButton B) (g : Gpiote E) (pinsState : PinMask) : ErrCode × Gpiote E :=
  g.appGpioteUserEnable b.gpioteUserId pinsState

/-- Disable the buttons, with the call of the timer module. -/
def appButtonDisable (b : AppButton B) (g : Gpiote E) (userId : TimerUserId) :
    List (TimedStep PinMask) × Gpiote E :=
  let disabled := g.appGpioteUserDisable b.gpioteUserId
  (if disabled.1 ≠ nrfSuccess then [] else [.appTimerStop userId b.detectionDelayTimerId],
    disabled.2)

/-- Whether a button is pushed. -/
def appButtonIsPushed (b : AppButton B) (g : Gpiote E) (pinNo : Fin 32) (pinsState : PinMask) :
    ErrCode × Option Bool :=
  match g.appGpiotePinsStateGet b.gpioteUserId pinsState with
  | (errCode, none) => (errCode, none)
  | (_, some activePins) =>
    if BitMask.bit pinNo &&& activePins = 0#32
      then (nrfSuccess, some (decide (b.activeLowStatesMask &&& BitMask.bit pinNo ≠ 0#32)))
      else (nrfSuccess, some (decide (b.activeHighStatesMask &&& BitMask.bit pinNo ≠ 0#32)))

end AppButton

/-! ### The buttons in use -/

/-- A call of the event handler. -/
structure ButtonEvent where
  time : Nat
  pins : PinMask
  deriving DecidableEq

/-- A button that was reported as pushed, with the levels of the pins at that time. -/
structure ButtonPush (B : Type) where
  time : Nat
  pinsState : PinMask
  call : ButtonCall B
  deriving DecidableEq

/-- What happens next; only the button handler itself uses its timer. -/
inductive ButtonStep (E : Type) where
  /-- A tick, an interrupt of the timer module or a call of it. -/
  | timer (next : TimedStep PinMask)
  /-- A call of the GPIOTE handler by another user. -/
  | userRegister (pinsLowToHighMask pinsHighToLowMask : PinMask) (eventHandler : E)
  | userEnable (userId : Nat) (pinsState : PinMask)
  | userDisable (userId : Nat)
  | appButtonEnable (pinsState : PinMask)
  | appButtonDisable (userId : TimerUserId)
  | gpioteIrqHandler (pinsState : PinMask)
  /-- The next timeout that was passed on is handled. -/
  | timeoutHandler (pinsState : PinMask)
  deriving DecidableEq

/-- The button handler with the modules that it uses, and what has happened so far. -/
structure ButtonSystem (B E H : Type) (n cap : Nat) where
  button : AppButton B
  gpiote : Gpiote (PinHandler E)
  timed : TimedTimer (TimerHandler H) PinMask n cap
  /-- What has happened to the timer module, oldest first. -/
  timerSteps : List (TimedStep PinMask)
  /-- How many of the timeouts have been handled. -/
  handled : Nat
  events : List ButtonEvent
  pushes : List (ButtonPush B)

namespace ButtonSystem

variable {B E H : Type} {n cap : Nat}

/-- Something happens to the timer module. -/
def timerStep (s : ButtonSystem B E H n cap) (next : TimedStep PinMask) :
    ButtonSystem B E H n cap :=
  { s with timed := s.timed.step next, timerSteps := s.timerSteps ++ [next] }

/-- The event handler of a user is called. -/
def onEvent (s : ButtonSystem B E H n cap) (event : GpioteEvent (PinHandler E)) :
    ButtonSystem B E H n cap :=
  match event.eventHandler with
  | .other _ => s
  | .gpioteEventHandler =>
    -- The event is noted, and the timer is started again for it.
    let stopped := (s.timed.timer.appTimerStop appHighUserId s.button.detectionDelayTimerId).1
    (s.button.gpioteEventHandler stopped event.eventPinsLowToHigh
      event.eventPinsHighToLow).foldl timerStep
      { s with events := s.events ++
          [⟨s.timed.now, event.eventPinsLowToHigh ||| event.eventPinsHighToLow⟩] }

/-- The calls that handle a timeout, if it is one of the buttons' timer. -/
def callsFor (s : ButtonSystem B E H n cap) (pinsState : PinMask)
    (timeout : Timeout (TimerHandler H) PinMask) : List (ButtonCall B) :=
  match timeout.timeoutHandler with
  | .other _ => []
  | .detectionDelayTimeoutHandler =>
    s.button.detectionDelayTimeoutHandler s.gpiote pinsState timeout.context

/-- One step. -/
def step (s : ButtonSystem B E H n cap) : ButtonStep E → ButtonSystem B E H n cap
  | .timer next => s.timerStep next
  | .userRegister pinsLowToHighMask pinsHighToLowMask eventHandler =>
    { s with gpiote := (s.gpiote.appGpioteUserRegister pinsLowToHighMask pinsHighToLowMask
        (.other eventHandler)).2.2 }
  | .userEnable userId pinsState =>
    { s with gpiote := (s.gpiote.appGpioteUserEnable userId pinsState).2 }
  | .userDisable userId => { s with gpiote := (s.gpiote.appGpioteUserDisable userId).2 }
  | .appButtonEnable pinsState =>
    { s with gpiote := (s.button.appButtonEnable s.gpiote pinsState).2 }
  | .appButtonDisable userId =>
    let disabled := s.button.appButtonDisable s.gpiote userId
    disabled.1.foldl timerStep { s with gpiote := disabled.2 }
  | .gpioteIrqHandler pinsState =>
    let handled := s.gpiote.gpioteIrqHandler pinsState
    handled.1.foldl onEvent { s with gpiote := handled.2 }
  | .timeoutHandler pinsState =>
    match s.timed.passed[s.handled]? with
    | none => s
    | some timeout =>
      { s with
        handled := s.handled + 1
        pushes := s.pushes ++ (s.callsFor pinsState timeout).map fun call =>
          ⟨s.timed.now, pinsState, call⟩ }

/-- Nobody else has the number of the buttons' timer. -/
def Permitted (b : AppButton B) : ButtonStep E → Prop
  | .timer (.appTimerStart _ timerId _ _) => timerId ≠ b.detectionDelayTimerId
  | _ => True

/-- The system once the buttons are initialised and the timers created, at a given time. -/
def boot (b : AppButton B) (g : Gpiote (PinHandler E))
    (config : Fin n → TimerConfig (TimerHandler H)) (start : Nat) (handler : TimerHandler H) :
    ButtonSystem B E H n cap :=
  ⟨b, g, .boot config start handler 0#32, [], 0, [], []⟩

end ButtonSystem

end BleHub
