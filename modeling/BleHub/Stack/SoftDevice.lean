import BleHub.Firmware.Reaction

/-! The SoftDevice as a link and a queue of undelivered events, with the firmware on top of it. -/

namespace BleHub

/-- The state of the link, which may be ahead of what the firmware has been told. -/
inductive LinkState where
  | down
  | up (connHandle : ConnHandle)
  /-- The firmware has asked for the disconnection, which is not completed yet. -/
  | terminating (connHandle : ConnHandle)
  deriving DecidableEq, Repr

/-- The SoftDevice, as far as it decides which calls succeed and which events arrive. -/
structure SoftDevice where
  link : LinkState
  advertising : Bool
  /-- The events the firmware has not pulled yet, oldest first. -/
  queue : List BleEvt
  deriving DecidableEq

/-- The error a call on a handle returns when its link is gone or terminating. -/
structure Refusal where
  code : Call → LinkState → ErrCode
  documented : ∀ call link,
    code call link = bleErrorInvalidConnHandle ∨ code call link = nrfErrorInvalidState

namespace SoftDevice

/-- What an accepted call changes. -/
def accept (call : Call) (sd : SoftDevice) : SoftDevice :=
  match call with
  | .gapAdvStart _ => { sd with advertising := true }
  -- The disconnection itself completes later, when the link is lost.
  | .gapDisconnect connHandle _ => { sd with link := .terminating connHandle }
  | _ => sd

/-- Calls on a handle need its link to be up; every other call succeeds. -/
def answer (refusal : Refusal) : Answer SoftDevice := fun call sd =>
  match call.connHandle? with
  | some connHandle =>
    if sd.link = .up connHandle then (nrfSuccess, accept call sd)
    else (refusal.code call sd.link, sd)
  | none => (nrfSuccess, accept call sd)

/-- The link is gone, which the firmware will learn when it pulls the event. -/
def loseLink (sd : SoftDevice) : SoftDevice :=
  match sd.link with
  | .down => sd
  -- Whoever asked for it, the event is the same.
  | .up connHandle | .terminating connHandle =>
    { sd with link := .down, queue := sd.queue ++ [.gapDisconnected connHandle] }

/-- A central connects to the advertising peripheral. -/
def establish (connHandle : ConnHandle) (connParams : GapConnParams) (sd : SoftDevice) :
    SoftDevice :=
  -- Advertising stops as the connection begins.
  if sd.link = .down ∧ sd.advertising ∧ connHandle ≠ bleConnHandleInvalid then
    { link := .up connHandle
      advertising := false
      queue := sd.queue ++ [.gapConnected connHandle connParams] }
  else sd

/-- The peer or the stack itself causes an event, of the link that is up if it belongs to one. -/
def raise (bleEvt : BleEvt) (sd : SoftDevice) : SoftDevice :=
  match bleEvt, bleEvt.scope? with
  -- Events that the firmware does not tell apart may come at any time.
  | .other _, _ => { sd with queue := sd.queue ++ [bleEvt] }
  | _, some connHandle =>
    if sd.link = .up connHandle then { sd with queue := sd.queue ++ [bleEvt] } else sd
  | _, none => sd

/-- Advertising ends without a connection. -/
def expireAdvertising (sd : SoftDevice) : SoftDevice :=
  if sd.advertising then
    { sd with
      advertising := false
      queue := sd.queue ++ [.gapTimeout bleConnHandleInvalid bleGapTimeoutSrcAdvertisement] }
  else sd

/-- The SoftDevice after events have been pulled from its queue. -/
def leave (rest : List BleEvt) (sd : SoftDevice) : SoftDevice := { sd with queue := rest }

end SoftDevice

/-- What happens next between the SoftDevice and the main loop. -/
inductive StackStep where
  /-- The SoftDevice changes by itself. -/
  | linkLost
  | linkEstablished (connHandle : ConnHandle) (connParams : GapConnParams)
  | raised (bleEvt : BleEvt)
  | advertisingExpired
  /-- The main loop pulls the oldest event and dispatches it. -/
  | dispatch
  /-- The main loop runs an expiry of the negotiation timer. -/
  | expiry (context : Nat)
  deriving DecidableEq

/-- One step of the firmware on top of the SoftDevice. -/
def stackStep (refusal : Refusal) (a : App SoftDevice) : StackStep → App SoftDevice
  | .linkLost => a.within a.ext.loseLink
  | .linkEstablished connHandle connParams => a.within (a.ext.establish connHandle connParams)
  | .raised bleEvt => a.within (a.ext.raise bleEvt)
  | .advertisingExpired => a.within a.ext.expireAdvertising
  | .dispatch =>
    match a.ext.queue with
    | [] => a
    -- The calls are answered by the link as it is now, not as it was when the event was raised.
    | bleEvt :: rest =>
      (a.within (a.ext.leave rest)).react (SoftDevice.answer refusal) (.event bleEvt)
  | .expiry context => a.react (SoftDevice.answer refusal) (.expiry context)

/-- The firmware when main enters its loop, with the SoftDevice advertising. -/
def stackBoot (timerId : Nat) : App SoftDevice :=
  App.boot timerId { link := .down, advertising := true, queue := [] }

end BleHub
