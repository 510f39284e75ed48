import BleHub.Lib.BitMask
import BleHub.Lib.StepMachine
import BleHub.Stack.Interface

/-!
The GPIOTE handler module, as in app_gpiote.c, and the edge detectors that it stands for.

The pins are read when a function is called, and so are arguments of the model.
-/

namespace BleHub

/-- The levels of all pins, or a set of pins. -/
abbrev PinMask : Type := BitVec 32

/-- The SENSE field in the configuration of a pin. -/
inductive PinSense where
  | disabled
  | high
  | low
  deriving DecidableEq, Repr

/-- Whether a pin generates the PORT event when it is high, or when it is not. -/
def PinSense.generates : PinSense → Bool → Bool
  | .disabled, _ => false
  | .high, isHigh => isHigh
  | .low, isHigh => !isHigh

/-- The SENSE fields of all pins. -/
abbrev PinCnf : Type := Fin 32 → PinSense

/-- A user of the module. -/
structure GpioteUser (E : Type) where
  pinsMask : PinMask
  pinsLowToHighMask : PinMask
  pinsHighToLowMask : PinMask
  /-- The pins that are configured to generate an interrupt on the transition to high level. -/
  senseHighPins : PinMask
  eventHandler : E
  /-- A user monitors the pins that it wants events for. -/
  monitors : pinsMask = pinsLowToHighMask ||| pinsHighToLowMask
  deriving DecidableEq

/-- A call of a user's event handler. -/
structure GpioteEvent (E : Type) where
  eventHandler : E
  eventPinsLowToHigh : PinMask
  eventPinsHighToLow : PinMask
  deriving DecidableEq

/-- The static variables of the module, with the registers that it writes. -/
structure Gpiote (E : Type) where
  enabledUsersMask : PinMask
  userArraySize : Nat
  /-- The users that have been registered. -/
  users : List (GpioteUser E)
  pinCnf : PinCnf
  /-- Whether the PORT event generates an interrupt. -/
  portInterrupt : Bool

variable {E : Type}

/-- Invert the sensing of a pin that is in a set of pins. -/
def senseToggle (pins : PinMask) (s : GpioteUser E × PinCnf) (pinNo : Fin 32) :
    GpioteUser E × PinCnf :=
  if pins &&& BitMask.bit pinNo ≠ 0#32 then
    if s.1.senseHighPins &&& BitMask.bit pinNo = 0#32 then
      ({ s.1 with senseHighPins := s.1.senseHighPins ||| BitMask.bit pinNo },
        Function.update s.2 pinNo .high)
    else
      ({ s.1 with senseHighPins := s.1.senseHighPins &&& ~~~BitMask.bit pinNo },
        Function.update s.2 pinNo .low)
  else s

/-- Invert the sensing of a set of pins. -/
def senseLevelToggle (user : GpioteUser E) (pins : PinMask) (pinCnf : PinCnf) :
    GpioteUser E × PinCnf :=
  (List.finRange 32).foldl (senseToggle pins) (user, pinCnf)

/-- What the interrupt does for an enabled user: its event, if there is one. -/
def GpioteUser.check (user : GpioteUser E) (pinsState : PinMask) (pinCnf : PinCnf) :
    List (GpioteEvent E) × GpioteUser E × PinCnf :=
  -- The pins on which there has been a transition.
  let transitionPins := (pinsState ^^^ ~~~user.senseHighPins) &&& user.pinsMask
  let toggled := senseLevelToggle user transitionPins pinCnf
  let eventHighToLow := (~~~pinsState &&& user.pinsHighToLowMask) &&& transitionPins
  let eventLowToHigh := (pinsState &&& user.pinsLowToHighMask) &&& transitionPins
  (if eventLowToHigh ||| eventHighToLow ≠ 0#32
    then [⟨user.eventHandler, eventLowToHigh, eventHighToLow⟩] else [], toggled)

/-- Check the users from some index on. -/
def usersCheck (pinsState enabledUsersMask : PinMask) :
    Nat → List (GpioteUser E) → PinCnf → List (GpioteEvent E) × List (GpioteUser E) × PinCnf
  | _, [], pinCnf => ([], [], pinCnf)
  | i, user :: rest, pinCnf =>
    -- A user that is not enabled is passed over, and so are its pins.
    let checked := if BitMask.bit i &&& enabledUsersMask ≠ 0#32 then user.check pinsState pinCnf
      else ([], user, pinCnf)
    let later := usersCheck pinsState enabledUsersMask (i + 1) rest checked.2.2
    (checked.1 ++ later.1, checked.2.1 :: later.2.1, later.2.2)

namespace Gpiote

/-- The GPIOTE interrupt, with the calls of event handlers that it makes. -/
def gpioteIrqHandler (pinsState : PinMask) (g : Gpiote E) : List (GpioteEvent E) × Gpiote E :=
  let checked := usersCheck pinsState g.enabledUsersMask 0 g.users g.pinCnf
  (checked.1, { g with users := checked.2.1, pinCnf := checked.2.2 })

/-- Disable sensing for a pin that is in a set of pins. -/
def senseDisable (pins : PinMask) (pinCnf : PinCnf) (pinNo : Fin 32) : PinCnf :=
  if pins &&& BitMask.bit pinNo ≠ 0#32 then Function.update pinCnf pinNo .disabled else pinCnf

/-- Disable sensing for all pins of a user. -/
def pinsSenseDisable (user : GpioteUser E) (pinCnf : PinCnf) : PinCnf :=
  (List.finRange 32).foldl (senseDisable user.pinsMask) pinCnf

/-- Initialise the module, with no users yet; the SENSE fields have to be disabled. -/
def appGpioteInit (maxUsers : Nat) : Gpiote E where
  enabledUsersMask := 0
  userArraySize := maxUsers
  users := []
  pinCnf _ := .disabled
  portInterrupt := false

/-- Register a user, whose number is returned. -/
def appGpioteUserRegister (g : Gpiote E) (pinsLowToHighMask pinsHighToLowMask : PinMask)
    (eventHandler : E) : ErrCode × Option Nat × Gpiote E :=
  if g.users.length ≥ g.userArraySize then (nrfErrorNoMem, none, g)
  else
    let user : GpioteUser E :=
      { pinsMask := pinsLowToHighMask ||| pinsHighToLowMask
        pinsLowToHighMask := pinsLowToHighMask
        pinsHighToLowMask := pinsHighToLowMask
        -- The array of users is cleared when the module is initialised.
        senseHighPins := 0
        eventHandler := eventHandler
        monitors := rfl }
    (nrfSuccess, some g.users.length,
      { g with users := g.users ++ [user], pinCnf := pinsSenseDisable user g.pinCnf })

/-- Sense the level that a pin in a set of pins does not have. -/
def senseOpposite (pins pinsState : PinMask) (s : PinMask × PinCnf) (pinNo : Fin 32) :
    PinMask × PinCnf :=
  if pins &&& BitMask.bit pinNo ≠ 0#32 then
    if pinsState &&& BitMask.bit pinNo ≠ 0#32 then (s.1, Function.update s.2 pinNo .low)
    else (s.1 ||| BitMask.bit pinNo, Function.update s.2 pinNo .high)
  else s

/-- Enable a user, from the levels that its pins have now. -/
def appGpioteUserEnable (g : Gpiote E) (userId : Nat) (pinsState : PinMask) :
    ErrCode × Gpiote E :=
  match g.users[userId]? with
  | none => (nrfErrorInvalidParam, g)
  | some user =>
    let sensing := (List.finRange 32).foldl (senseOpposite user.pinsMask pinsState) (0, g.pinCnf)
    -- The interrupt is enabled with the first user.
    (nrfSuccess,
      { g with
        enabledUsersMask := g.enabledUsersMask ||| BitMask.bit userId
        users := g.users.set userId { user with senseHighPins := sensing.1 }
        pinCnf := sensing.2
        portInterrupt := g.portInterrupt || decide (g.enabledUsersMask = 0#32) })

/-- Disable a user. -/
def appGpioteUserDisable (g : Gpiote E) (userId : Nat) : ErrCode × Gpiote E :=
  match g.users[userId]? with
  | none => (nrfErrorInvalidParam, g)
  | some user =>
    let enabledUsersMask := g.enabledUsersMask &&& ~~~BitMask.bit userId
    -- It is disabled with the last one.
    (nrfSuccess,
      { g with
        enabledUsersMask := enabledUsersMask
        pinCnf := pinsSenseDisable user g.pinCnf
        portInterrupt := g.portInterrupt && decide (enabledUsersMask ≠ 0#32) })

/-- The levels of a user's pins. -/
def appGpiotePinsStateGet (g : Gpiote E) (userId : Nat) (pinsState : PinMask) :
    ErrCode × Option PinMask :=
  match g.users[userId]? with
  | none => (nrfErrorInvalidParam, none)
  | some user => (nrfSuccess, some (pinsState &&& user.pinsMask))

/-- Some pin has the level that it is sensed for, and the PORT event interrupts. -/
def Interrupts (g : Gpiote E) (pinsState : PinMask) : Prop :=
  g.portInterrupt = true ∧
    ∃ pinNo : Fin 32, (g.pinCnf pinNo).generates (BitMask.has pinsState pinNo) = true

end Gpiote

/-! ### The module in use -/

/-- What happens next to the module. -/
inductive GpioteStep (E : Type) where
  | userRegister (pinsLowToHighMask pinsHighToLowMask : PinMask) (eventHandler : E)
  | userEnable (userId : Nat) (pinsState : PinMask)
  | userDisable (userId : Nat)
  | irqHandler (pinsState : PinMask)
  deriving DecidableEq

/-- The module, with the calls of event handlers so far. -/
structure GpioteRun (E : Type) where
  gpiote : Gpiote E
  /-- The events, oldest first. -/
  events : List (GpioteEvent E)

/-- One step; the interrupt may come at any time between calls. -/
def GpioteRun.step (s : GpioteRun E) : GpioteStep E → GpioteRun E
  | .userRegister pinsLowToHighMask pinsHighToLowMask eventHandler =>
    { s with gpiote := (s.gpiote.appGpioteUserRegister pinsLowToHighMask pinsHighToLowMask
        eventHandler).2.2 }
  | .userEnable userId pinsState =>
    { s with gpiote := (s.gpiote.appGpioteUserEnable userId pinsState).2 }
  | .userDisable userId => { s with gpiote := (s.gpiote.appGpioteUserDisable userId).2 }
  | .irqHandler pinsState =>
    let handled := s.gpiote.gpioteIrqHandler pinsState
    { gpiote := handled.2, events := s.events ++ handled.1 }

/-- The module once it is initialised. -/
def GpioteRun.init (maxUsers : Nat) : GpioteRun E := ⟨.appGpioteInit maxUsers, []⟩

/-! ### Edge detectors -/

/-- What a user of the module is: it compares the levels of its pins with those seen last. -/
structure EdgeDetector (E : Type) where
  rising : PinMask
  falling : PinMask
  eventHandler : E
  /-- The levels of its pins that were seen last, while it is enabled. -/
  last : Option PinMask
  deriving DecidableEq

namespace EdgeDetector

/-- The pins that a detector looks at. -/
def pins (d : EdgeDetector E) : PinMask := d.rising ||| d.falling

/-- The levels that it finds there. -/
def look (d : EdgeDetector E) (pinsState : PinMask) : PinMask := pinsState &&& d.pins

/-- The event that a detector finds, if it is enabled and there is one. -/
def find (d : EdgeDetector E) (pinsState : PinMask) : List (GpioteEvent E) :=
  match d.last with
  | none => []
  | some last =>
    let rises := pinsState &&& ~~~last &&& d.rising
    let falls := ~~~pinsState &&& last &&& d.falling
    if rises ||| falls ≠ 0#32 then [⟨d.eventHandler, rises, falls⟩] else []

/-- An enabled detector sees the levels of its pins. -/
def see (d : EdgeDetector E) (pinsState : PinMask) : EdgeDetector E :=
  { d with last := d.last.map fun _ => d.look pinsState }

/-- An enabled detector has not seen the levels that its pins have now. -/
def Stale (d : EdgeDetector E) (pinsState : PinMask) : Prop :=
  ∃ last, d.last = some last ∧ last ≠ d.look pinsState

end EdgeDetector

/-- A row of edge detectors with room for some more, and the events that they have found. -/
structure DetectorBank (E : Type) where
  size : Nat
  detectors : List (EdgeDetector E)
  events : List (GpioteEvent E)
  deriving DecidableEq

/-- The same step for the detectors. -/
def DetectorBank.step (b : DetectorBank E) : GpioteStep E → DetectorBank E
  | .userRegister pinsLowToHighMask pinsHighToLowMask eventHandler =>
    if b.detectors.length < b.size then
      { b with detectors := b.detectors ++
          [⟨pinsLowToHighMask, pinsHighToLowMask, eventHandler, none⟩] }
    else b
  | .userEnable userId pinsState =>
    { b with detectors := b.detectors.modify userId fun d =>
        { d with last := some (d.look pinsState) } }
  | .userDisable userId =>
    { b with detectors := b.detectors.modify userId fun d => { d with last := none } }
  | .irqHandler pinsState =>
    { b with
      detectors := b.detectors.map (·.see pinsState)
      events := b.events ++ b.detectors.flatMap (·.find pinsState) }

/-- No two detectors look at the same pin. -/
def DetectorBank.Apart (b : DetectorBank E) : Prop :=
  b.detectors.Pairwise fun one other => one.pins &&& other.pins = 0#32

instance (b : DetectorBank E) : Decidable b.Apart :=
  inferInstanceAs (Decidable (List.Pairwise _ _))

/-- No detectors yet. -/
def DetectorBank.init (size : Nat) : DetectorBank E := ⟨size, [], []⟩

end BleHub
