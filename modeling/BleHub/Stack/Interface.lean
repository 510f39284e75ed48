import Mathlib.Tactic.Common

/-! The SoftDevice interface: error codes, event structures and the calls the firmware makes. -/

namespace BleHub

/-- An error code as the SoftDevice and the SDK modules return it. -/
abbrev ErrCode : Type := UInt32

/-- Successful command. -/
def nrfSuccess : ErrCode := 0x0
/-- No memory for the operation. -/
def nrfErrorNoMem : ErrCode := 0x4
/-- Not found. -/
def nrfErrorNotFound : ErrCode := 0x5
/-- Invalid parameter. -/
def nrfErrorInvalidParam : ErrCode := 0x7
/-- Operation disallowed in this state. -/
def nrfErrorInvalidState : ErrCode := 0x8
/-- Invalid length. -/
def nrfErrorInvalidLength : ErrCode := 0x9
/-- Invalid data size. -/
def nrfErrorDataSize : ErrCode := 0xC
/-- Invalid connection handle supplied. -/
def bleErrorInvalidConnHandle : ErrCode := 0x3001

/-- A connection handle. -/
abbrev ConnHandle : Type := UInt16

/-- The handle value that names no connection. -/
def bleConnHandleInvalid : ConnHandle := 0xFFFF
/-- The attribute handle value that names no attribute. -/
def bleGattHandleInvalid : UInt16 := 0x0000
/-- Disconnect reason: the connection interval is unacceptable. -/
def bleHciConnIntervalUnacceptable : UInt8 := 0x3B
/-- Successful security procedure. -/
def bleGapSecStatusSuccess : UInt8 := 0x00
/-- Timeout source: advertising ended without a connection. -/
def bleGapTimeoutSrcAdvertisement : UInt8 := 0x00
/-- No input or output capabilities. -/
def bleGapIoCapsNone : UInt8 := 0x03
/-- Connectable undirected advertising. -/
def bleGapAdvTypeAdvInd : UInt8 := 0x00
/-- Scan and connect requests from any device. -/
def bleGapAdvFpAny : UInt8 := 0x00
/-- Enable-notification bit of a client characteristic configuration. -/
def bleCccdNotifyBitMask : UInt16 := 0x0001

/-- Connection parameters, with intervals in units of 1.25 ms. -/
structure GapConnParams where
  minConnInterval : UInt16
  maxConnInterval : UInt16
  slaveLatency : UInt16
  connSupTimeout : UInt16
  deriving DecidableEq, Repr

/-- Security parameters of a pairing. -/
structure GapSecParams where
  timeout : UInt16
  bond : Bool
  mitm : Bool
  ioCaps : UInt8
  oob : Bool
  minKeySize : UInt8
  maxKeySize : UInt8
  deriving DecidableEq, Repr

/-- Advertising parameters, without the peer address and the whitelist, which stay NULL. -/
structure GapAdvParams where
  type : UInt8
  fp : UInt8
  interval : UInt16
  timeout : UInt16
  deriving DecidableEq, Repr

/-- Encryption information: a long term key and the diversifier that selects it. -/
structure GapEncInfo where
  div : UInt16
  ltk : Vector UInt8 16
  auth : Bool
  ltkLen : BitVec 7
  deriving DecidableEq

/-- Which keys a side of the pairing has distributed. -/
structure GapSecKeys where
  ltk : Bool
  edivRand : Bool
  irk : Bool
  address : Bool
  csrk : Bool
  deriving DecidableEq, Repr

/-- The outcome of an authentication procedure, with the peripheral's keys. -/
structure GapEvtAuthStatus where
  authStatus : UInt8
  errorSrc : UInt8
  periphKex : GapSecKeys
  centralKex : GapSecKeys
  encInfo : GapEncInfo
  deriving DecidableEq

/-- A write to an attribute, with the bytes that follow the event header. -/
structure GattsEvtWrite where
  handle : UInt16
  len : UInt16
  data : List UInt8
  deriving DecidableEq, Repr

/-- The stack events the firmware tells apart, with the fields it reads. -/
inductive BleEvt where
  /-- A connection was established. -/
  | gapConnected (connHandle : ConnHandle) (connParams : GapConnParams)
  /-- The connection ended. -/
  | gapDisconnected (connHandle : ConnHandle)
  /-- The connection parameters changed, or an update request was answered. -/
  | gapConnParamUpdate (connHandle : ConnHandle) (connParams : GapConnParams)
  /-- The peer wants to pair. -/
  | gapSecParamsRequest (connHandle : ConnHandle)
  /-- The peer wants to encrypt with the key of the given diversifier. -/
  | gapSecInfoRequest (connHandle : ConnHandle) (div : UInt16)
  /-- An authentication procedure completed. -/
  | gapAuthStatus (connHandle : ConnHandle) (authStatus : GapEvtAuthStatus)
  /-- A timeout of the given source expired. -/
  | gapTimeout (connHandle : ConnHandle) (src : UInt8)
  /-- The peer wrote an attribute. -/
  | gattsWrite (connHandle : ConnHandle) (write : GattsEvtWrite)
  /-- The stack waits for the system attributes of the peer. -/
  | gattsSysAttrMissing (connHandle : ConnHandle)
  /-- Any event identifier that no handler of the firmware names. -/
  | other (evtId : UInt16)
  deriving DecidableEq

/-- The calls that leave the application: into the SoftDevice and into the timer module. -/
inductive Call where
  /-- Reply with security parameters. -/
  | gapSecParamsReply (connHandle : ConnHandle) (secStatus : UInt8) (secParams : GapSecParams)
  /-- Set the system attributes, or initialise them when no data is given. -/
  | gattsSysAttrSet (connHandle : ConnHandle) (sysAttrData : Option (List UInt8)) (len : UInt16)
  /-- Reply with encryption information, and with signing information, where available. -/
  | gapSecInfoReply (connHandle : ConnHandle) (encInfo : Option GapEncInfo)
      (signInfo : Option (Vector UInt8 16))
  /-- Start advertising. -/
  | gapAdvStart (advParams : GapAdvParams)
  /-- Request new connection parameters from the central. -/
  | gapConnParamUpdate (connHandle : ConnHandle) (connParams : GapConnParams)
  /-- Terminate the link. -/
  | gapDisconnect (connHandle : ConnHandle) (hciStatusCode : UInt8)
  /-- Go to system-off mode. -/
  | powerSystemOff
  /-- Start a timer of the timer module. -/
  | appTimerStart (timerId : Nat) (timeoutTicks : UInt32)
  /-- Stop a timer of the timer module. -/
  | appTimerStop (timerId : Nat)
  deriving DecidableEq

/-- The connection a call acts on, for the calls that name one. -/
def Call.connHandle? : Call → Option ConnHandle
  | .gapSecParamsReply h _ _ => some h
  | .gattsSysAttrSet h _ _ => some h
  | .gapSecInfoReply h _ _ => some h
  | .gapConnParamUpdate h _ => some h
  | .gapDisconnect h _ => some h
  | .gapAdvStart _ => none
  | .powerSystemOff => none
  | .appTimerStart _ _ => none
  | .appTimerStop _ => none

/-- The connection an event belongs to, for the events that only a connection produces. -/
def BleEvt.scope? : BleEvt → Option ConnHandle
  | .gapConnParamUpdate h _ => some h
  | .gapSecParamsRequest h => some h
  | .gapSecInfoRequest h _ => some h
  | .gapAuthStatus h _ => some h
  | .gattsWrite h _ => some h
  | .gattsSysAttrMissing h => some h
  | .gapTimeout h src => if src = bleGapTimeoutSrcAdvertisement then none else some h
  | .gapConnected _ _ => none
  | .gapDisconnected _ => none
  | .other _ => none

/-- The system stopped executing the application. -/
inductive Halt where
  /-- The application error handler reset the system. -/
  | appError (errCode : ErrCode)
  /-- The chip went to system-off mode, from which only a wakeup reset returns. -/
  | systemOff
  deriving DecidableEq, Repr

end BleHub
