import BleHub.Firmware.State

/-! The connection parameters negotiation module, as in ble_conn_params.c. -/

namespace BleHub

/-- Events of the negotiation module. -/
inductive ConnParamsEvtType where
  | failed
  | succeeded
  deriving DecidableEq, Repr

/-- The configuration handed over at initialisation, with its callbacks. -/
structure ConnParamsInit (X : Type) where
  connParams : Option GapConnParams
  firstConnParamsUpdateDelay : UInt32
  nextConnParamsUpdateDelay : UInt32
  maxConnParamsUpdateCount : UInt8
  startOnNotifyCccdHandle : UInt16
  disconnectOnFail : Bool
  evtHandler : Option (ConnParamsEvtType → Prog X Unit)
  errorHandler : Option (ErrCode → Prog X Unit)

/--
The statics after a successful initialisation.

The preferred parameters are the configured ones, or else those the stack already holds.
A failing call leaves this function early, and main.c resets before it enters its loop.
-/
def bleConnParamsInit {X : Type} (init : ConnParamsInit X) (ppcp : GapConnParams)
    (timerId : Nat) : ConnParamsStatics where
  preferredConnParams := init.connParams.getD ppcp
  updateCount := 0
  connHandle := bleConnHandleInvalid
  currentConnParams := ⟨0, 0, 0, 0⟩
  connParamsTimerId := timerId
  changeParam := false

/-- Only the reported maximum interval is compared, since it carries the central's interval. -/
def isConnParamsOk (preferred connParams : GapConnParams) : Bool :=
  decide (preferred.minConnInterval ≤ connParams.maxConnInterval) &&
    decide (connParams.maxConnInterval ≤ preferred.maxConnInterval)

/-- Decode a little-endian 16-bit value. -/
def uint16Decode (data : List UInt8) : UInt16 :=
  (data.getD 0 0).toUInt16 ||| ((data.getD 1 0).toUInt16 <<< 8)

/-- Whether a written client characteristic configuration enables notifications. -/
def bleSrvIsNotificationEnabled (data : List UInt8) : Bool :=
  (uint16Decode data &&& bleCccdNotifyBitMask) != 0

section

variable {X : Type} (answer : Answer X) (config : ConnParamsInit X)

/-- Pass a code other than success to the error handler, if there is one. -/
def reportError (errCode : ErrCode) : Prog X Unit :=
  match config.errorHandler with
  | some handler => if errCode ≠ nrfSuccess then handler errCode else pure ()
  | none => pure ()

/-- Pass an event to the event handler, if there is one. -/
def notifyEvt (evtType : ConnParamsEvtType) : Prog X Unit :=
  match config.evtHandler with
  | some handler => handler evtType
  | none => pure ()

/-- The negotiation timer expired; the context given at its start is not used. -/
def updateTimeoutHandler (_context : Nat) : Prog X Unit := do
  let s ← statics
  if s.connParams.connHandle ≠ bleConnHandleInvalid then do
    -- Check if we have reached the maximum number of attempts.
    modifyConnParams fun p => { p with updateCount := p.updateCount + 1 }
    let s ← statics
    if s.connParams.updateCount ≤ config.maxConnParamsUpdateCount then do
      -- Parameters are not ok, send connection parameters update request.
      let errCode ← invoke answer
        (.gapConnParamUpdate s.connParams.connHandle s.connParams.preferredConnParams)
      reportError config errCode
    else do
      modifyConnParams fun p => { p with updateCount := 0 }
      -- Negotiation failed, disconnect automatically if this has been configured.
      if config.disconnectOnFail then do
        let errCode ← invoke answer
          (.gapDisconnect s.connParams.connHandle bleHciConnIntervalUnacceptable)
        reportError config errCode
      else pure ()
      notifyEvt config .failed
  else pure ()

/-- Start negotiation if the current connection parameters are not acceptable. -/
def connParamsNegotiation : Prog X Unit := do
  let s ← statics
  let p := s.connParams
  if !isConnParamsOk p.preferredConnParams p.currentConnParams then do
    -- Nothing in this application ever sets the flag.
    if p.changeParam then notifyEvt config .failed
    else do
      -- Only the first attempt of a connection waits for the longer delay.
      let timeoutTicks := if p.updateCount = 0 then config.firstConnParamsUpdateDelay
        else config.nextConnParamsUpdateDelay
      let errCode ← invoke answer (.appTimerStart p.connParamsTimerId timeoutTicks)
      reportError config errCode
  else notifyEvt config .succeeded
  modifyConnParams fun p => { p with changeParam := false }

/-- Save the parameters of a new connection and negotiate unless that waits for a notification. -/
def onConnect (connHandle : ConnHandle) (connParams : GapConnParams) : Prog X Unit := do
  modifyConnParams fun p =>
    { p with connHandle := connHandle, currentConnParams := connParams, updateCount := 0 }
  if config.startOnNotifyCccdHandle = bleGattHandleInvalid then
    connParamsNegotiation answer config
  else pure ()

/-- Forget the connection and stop the timer if it is running. -/
def onDisconnect : Prog X Unit := do
  modifyConnParams fun p => { p with connHandle := bleConnHandleInvalid, updateCount := 0 }
  -- Stop the timer if it is running.
  let s ← statics
  let errCode ← invoke answer (.appTimerStop s.connParams.connParamsTimerId)
  reportError config errCode

/-- A write to the configured descriptor starts the negotiation or stops its timer. -/
def onWrite (write : GattsEvtWrite) : Prog X Unit := do
  if write.handle = config.startOnNotifyCccdHandle ∧ write.len = 2 then do
    if bleSrvIsNotificationEnabled write.data then connParamsNegotiation answer config
    else do
      -- The peer has turned notifications off.
      let s ← statics
      let errCode ← invoke answer (.appTimerStop s.connParams.connParamsTimerId)
      reportError config errCode
  else pure ()

/-- Save the parameters of an update and negotiate again. -/
def onConnParamsUpdate (connParams : GapConnParams) : Prog X Unit := do
  modifyConnParams fun p => { p with currentConnParams := connParams }
  connParamsNegotiation answer config

/-- The events of the stack that are of interest to the module. -/
def bleConnParamsOnBleEvt (bleEvt : BleEvt) : Prog X Unit :=
  match bleEvt with
  | .gapConnected connHandle connParams => onConnect answer config connHandle connParams
  | .gapDisconnected _ => onDisconnect answer config
  | .gattsWrite _ write => onWrite answer config write
  | .gapConnParamUpdate _ connParams => onConnParamsUpdate answer config connParams
  | _ => pure ()

end

end BleHub
