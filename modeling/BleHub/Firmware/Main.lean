import BleHub.Firmware.ConnParams

/-! The application itself, as in main.c: its configuration, its event handler and its dispatch. -/

namespace BleHub

/-- Milliseconds as units of the given number of microseconds. -/
def msecToUnits (time resolution : Nat) : Nat := time * 1000 / resolution

/-- Milliseconds as ticks of the 32768 Hz timer clock, rounded to the nearest tick. -/
def appTimerTicks (ms prescaler : Nat) : UInt32 :=
  UInt32.ofNat ((ms * 32768 + (prescaler + 1) * 1000 / 2) / ((prescaler + 1) * 1000))

/-- Minimum acceptable connection interval, 0.5 seconds. -/
def minConnInterval : UInt16 := UInt16.ofNat (msecToUnits 500 1250)
/-- Maximum acceptable connection interval, 1 second. -/
def maxConnInterval : UInt16 := UInt16.ofNat (msecToUnits 1000 1250)
/-- Slave latency. -/
def slaveLatency : UInt16 := 0
/-- Connection supervision timeout, 4 seconds. -/
def connSupTimeout : UInt16 := UInt16.ofNat (msecToUnits 4000 10000)
/-- Time from a connect event to the first update request. -/
def firstConnParamsUpdateDelay : UInt32 := appTimerTicks 20000 0
/-- Time between two update requests after the first. -/
def nextConnParamsUpdateDelay : UInt32 := appTimerTicks 5000 0
/-- Number of attempts before giving up the negotiation. -/
def maxConnParamsUpdateCount : UInt8 := 3
/-- The advertising interval, 40 ms. -/
def appAdvInterval : UInt16 := 64
/-- The advertising timeout in seconds. -/
def appAdvTimeoutInSeconds : UInt16 := 180
/-- Maximum number of simultaneously created timers. -/
def appTimerMaxTimers : Nat := 2
/-- Size of the timer operation queues. -/
def appTimerOpQueueSize : Nat := 4
/-- Maximum size of scheduler events: a timeout handler and its context. -/
def schedMaxEventDataSize : Nat := 8
/-- Maximum number of events in the scheduler queue. -/
def schedQueueSize : Nat := 10

/-- The parameters that gap_params_init hands to the stack as the preferred ones. -/
def gapConnParams : GapConnParams where
  minConnInterval := minConnInterval
  maxConnInterval := maxConnInterval
  slaveLatency := slaveLatency
  connSupTimeout := connSupTimeout

/-- The security requirements of the application. -/
def secParamsInit : GapSecParams where
  timeout := 30
  bond := true
  mitm := false
  ioCaps := bleGapIoCapsNone
  oob := false
  minKeySize := 7
  maxKeySize := 16

/-- The key slot as the C runtime leaves it before main: all zero. -/
def authStatusAtBoot : GapEvtAuthStatus where
  authStatus := 0
  errorSrc := 0
  periphKex := ⟨false, false, false, false, false⟩
  centralKex := ⟨false, false, false, false, false⟩
  encInfo := ⟨0, Vector.replicate 16 0, false, 0⟩

/-- The advertising parameters of the application. -/
def advParams : GapAdvParams where
  type := bleGapAdvTypeAdvInd
  fp := bleGapAdvFpAny
  interval := appAdvInterval
  timeout := appAdvTimeoutInSeconds

section

variable {X : Type} (answer : Answer X)

/-- Disconnect when the negotiation of the connection parameters has failed. -/
def onConnParamsEvt (evtType : ConnParamsEvtType) : Prog X Unit := do
  if evtType = .failed then do
    let s ← statics
    let errCode ← invoke answer
      (.gapDisconnect s.main.connHandle bleHciConnIntervalUnacceptable)
    appErrorCheck errCode
  else pure ()

/-- Every error of the negotiation module goes to the application error handler. -/
def connParamsErrorHandler (nrfError : ErrCode) : Prog X Unit := appErrorHandler nrfError

/-- The configuration of the negotiation module. -/
def connParamsInit : ConnParamsInit X where
  connParams := none
  firstConnParamsUpdateDelay := firstConnParamsUpdateDelay
  nextConnParamsUpdateDelay := nextConnParamsUpdateDelay
  maxConnParamsUpdateCount := maxConnParamsUpdateCount
  startOnNotifyCccdHandle := bleGattHandleInvalid
  disconnectOnFail := false
  evtHandler := some (onConnParamsEvt answer)
  errorHandler := some connParamsErrorHandler

/-- Start advertising and show it. -/
def advertisingStart : Prog X Unit := do
  let errCode ← invoke answer (.gapAdvStart advParams)
  appErrorCheck errCode
  modifyGpio (nrfGpioPinSet advertisingLedPinNo)

/-- Going to system-off does not return: only a wakeup reset follows. -/
def sdPowerSystemOff : Prog X ErrCode := do
  let _ ← invoke answer .powerSystemOff
  Exec.stop .systemOff

/-- The application's handler for stack events. -/
def onBleEvt (bleEvt : BleEvt) : Prog X Unit := do
  let s ← statics
  let errCode ← match bleEvt with
    | .gapConnected connHandle _ => do
      modifyGpio (nrfGpioPinSet connectedLedPinNo)
      modifyGpio (nrfGpioPinClear advertisingLedPinNo)
      modifyMain fun m => { m with connHandle := connHandle }
      pure nrfSuccess
    | .gapDisconnected _ => do
      modifyGpio (nrfGpioPinClear connectedLedPinNo)
      modifyMain fun m => { m with connHandle := bleConnHandleInvalid }
      advertisingStart answer
      pure nrfSuccess
    -- The replies name the connection that main remembers, not the one of the event.
    | .gapSecParamsRequest _ =>
      invoke answer (.gapSecParamsReply s.main.connHandle bleGapSecStatusSuccess s.main.secParams)
    | .gattsSysAttrMissing _ =>
      invoke answer (.gattsSysAttrSet s.main.connHandle none 0)
    -- Every outcome is stored, that of a failed procedure too.
    | .gapAuthStatus _ authStatus => do
      modifyMain fun m => { m with authStatus := authStatus }
      pure nrfSuccess
    | .gapSecInfoRequest _ div =>
      if s.main.authStatus.encInfo.div = div then
        invoke answer (.gapSecInfoReply s.main.connHandle (some s.main.authStatus.encInfo) none)
      else
        -- No keys found for this device.
        invoke answer (.gapSecInfoReply s.main.connHandle none none)
    | .gapTimeout _ src =>
      if src = bleGapTimeoutSrcAdvertisement then do
        -- Go to system-off mode.
        modifyGpio (nrfGpioPinClear advertisingLedPinNo)
        sdPowerSystemOff answer
      else pure nrfSuccess
    | _ => pure nrfSuccess
  appErrorCheck errCode

/-- Hand a stack event to the application and to the negotiation module. -/
def bleEvtDispatch (bleEvt : BleEvt) : Prog X Unit := do
  onBleEvt answer bleEvt
  bleConnParamsOnBleEvt answer (connParamsInit answer) bleEvt

end

/-- The statics when main has initialised everything, started advertising and enters its loop. -/
def bootStatics (timerId : Nat) : Statics where
  main := ⟨secParamsInit, bleConnHandleInvalid, authStatusAtBoot⟩
  connParams := bleConnParamsInit (connParamsInit fun _ (x : Unit) => (nrfSuccess, x))
    gapConnParams timerId
  gpio := nrfGpioPinSet advertisingLedPinNo 0

end BleHub
