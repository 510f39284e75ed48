import BleHub.Lib.Exec
import BleHub.Stack.Gpio
import BleHub.Stack.Interface

/-! The static variables of the application and the programs that work on them. -/

namespace BleHub

/-- The static variables of main.c, the ones local to its event handler included. -/
structure MainStatics where
  secParams : GapSecParams
  connHandle : ConnHandle
  authStatus : GapEvtAuthStatus
  deriving DecidableEq

/-- The static variables of ble_conn_params.c, without its configuration, which stays fixed. -/
structure ConnParamsStatics where
  preferredConnParams : GapConnParams
  updateCount : UInt8
  connHandle : ConnHandle
  currentConnParams : GapConnParams
  connParamsTimerId : Nat
  changeParam : Bool
  deriving DecidableEq

/-- Everything the application remembers between two handlers. -/
structure Statics where
  main : MainStatics
  connParams : ConnParamsStatics
  gpio : GpioOut
  deriving DecidableEq

/--
The state a handler works on.

The environment type stands for everything behind the calls that leave the application.
-/
structure Handling (X : Type) where
  statics : Statics
  /-- The SoftDevice, the timer module and whatever else answers calls. -/
  ext : X
  /-- The calls made by this handler so far, in order, with the codes they returned. -/
  calls : List (Call × ErrCode)

/-- A piece of application code over an environment. -/
abbrev Prog (X α : Type) : Type := Exec Halt (Handling X) α

/-- How the environment answers a call: a return code and its own next state. -/
abbrev Answer (X : Type) : Type := Call → X → ErrCode × X

variable {X : Type}

/-- Update the statics of main.c. -/
def modifyMain (f : MainStatics → MainStatics) : Prog X Unit :=
  Exec.modify fun s => { s with statics := { s.statics with main := f s.statics.main } }

/-- Update the statics of ble_conn_params.c. -/
def modifyConnParams (f : ConnParamsStatics → ConnParamsStatics) : Prog X Unit :=
  Exec.modify fun s => { s with statics := { s.statics with connParams := f s.statics.connParams } }

/-- Update the GPIO output register. -/
def modifyGpio (f : GpioOut → GpioOut) : Prog X Unit :=
  Exec.modify fun s => { s with statics := { s.statics with gpio := f s.statics.gpio } }

/-- Read the statics. -/
def statics : Prog X Statics := do
  let s ← Exec.get
  return s.statics

/-- Make a call, and keep a record of it. -/
def invoke (answer : Answer X) (call : Call) : Prog X ErrCode := do
  let s ← Exec.get
  let answered := answer call s.ext
  -- The record keeps calls that fail as well as those that succeed.
  Exec.modify fun s => { s with ext := answered.2, calls := s.calls ++ [(call, answered.1)] }
  return answered.1

/-- Show the failure on the assert LED and reset the system. -/
def appErrorHandler (errCode : ErrCode) : Prog X Unit := do
  modifyGpio (nrfGpioPinSet assertLedPinNo)
  -- The reset ends the handler, so that nothing behind a failed check runs.
  Exec.stop (.appError errCode)

/-- Enter the error handler on any code other than success. -/
def appErrorCheck (errCode : ErrCode) : Prog X Unit :=
  if errCode ≠ nrfSuccess then appErrorHandler errCode else pure ()

/-! What each of these steps leaves behind. -/

@[simp] theorem run_modifyMain (f : MainStatics → MainStatics) (h : Handling X) :
    (modifyMain f).run h =
      .done () { h with statics := { h.statics with main := f h.statics.main } } := rfl

@[simp] theorem run_modifyConnParams (f : ConnParamsStatics → ConnParamsStatics)
    (h : Handling X) : (modifyConnParams f).run h =
      .done () { h with statics := { h.statics with connParams := f h.statics.connParams } } := rfl

@[simp] theorem run_modifyGpio (f : GpioOut → GpioOut) (h : Handling X) :
    (modifyGpio f).run h =
      .done () { h with statics := { h.statics with gpio := f h.statics.gpio } } := rfl

@[simp] theorem run_statics (h : Handling X) : statics.run h = .done h.statics h := rfl

@[simp] theorem run_invoke (answer : Answer X) (call : Call) (h : Handling X) :
    (invoke answer call).run h =
      .done (answer call h.ext).1 { h with
        ext := (answer call h.ext).2
        calls := h.calls ++ [(call, (answer call h.ext).1)] } := rfl

@[simp] theorem run_appErrorHandler (errCode : ErrCode) (h : Handling X) :
    (appErrorHandler errCode).run h =
      .stop (.appError errCode) { h with statics := { h.statics with
        gpio := nrfGpioPinSet assertLedPinNo h.statics.gpio } } := rfl

end BleHub
