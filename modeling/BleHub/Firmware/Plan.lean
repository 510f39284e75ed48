import BleHub.Firmware.Reaction

/-! What a reaction is for: the calls it makes, up to the first that fails, and the statics after. -/

namespace BleHub

/-- The calls that negotiate the current parameters. -/
def negotiationCalls (s : Statics) : List Call :=
  let p := s.connParams
  -- Parameters that are ok only lead to a callback, which makes no call.
  if isConnParamsOk p.preferredConnParams p.currentConnParams then []
  else if p.changeParam then
    [.gapDisconnect s.main.connHandle bleHciConnIntervalUnacceptable]
  else
    [.appTimerStart p.connParamsTimerId
      (if p.updateCount = 0 then firstConnParamsUpdateDelay else nextConnParamsUpdateDelay)]

/-- The statics once a negotiation has been started or found unnecessary. -/
def negotiated (s : Statics) : Statics :=
  { s with connParams := { s.connParams with changeParam := false } }

/-- The statics of a new connection. -/
def connected (s : Statics) (connHandle : ConnHandle) (connParams : GapConnParams) : Statics where
  main := { s.main with connHandle := connHandle }
  connParams := { s.connParams with
    connHandle := connHandle
    currentConnParams := connParams
    updateCount := 0 }
  gpio := nrfGpioPinClear advertisingLedPinNo (nrfGpioPinSet connectedLedPinNo s.gpio)

/-- The statics after the connection has gone and advertising has started. -/
def disconnected (s : Statics) : Statics where
  main := { s.main with connHandle := bleConnHandleInvalid }
  connParams := { s.connParams with connHandle := bleConnHandleInvalid, updateCount := 0 }
  gpio := nrfGpioPinSet advertisingLedPinNo (nrfGpioPinClear connectedLedPinNo s.gpio)

/-- The statics with newly reported parameters. -/
def reparametrised (s : Statics) (connParams : GapConnParams) : Statics :=
  { s with connParams := { s.connParams with currentConnParams := connParams } }

/-- Whether a write addresses the descriptor that starts and stops the negotiation. -/
def GattsEvtWrite.startsNegotiation (write : GattsEvtWrite) : Bool :=
  decide (write.handle = bleGattHandleInvalid ∧ write.len = 2)

/-- The calls a stack event leads to. -/
def plannedOnEvt (s : Statics) : BleEvt → List Call
  | .gapConnected connHandle connParams => negotiationCalls (connected s connHandle connParams)
  -- The application comes before the negotiation module.
  | .gapDisconnected _ => [.gapAdvStart advParams, .appTimerStop s.connParams.connParamsTimerId]
  | .gapConnParamUpdate _ connParams => negotiationCalls (reparametrised s connParams)
  | .gapSecParamsRequest _ =>
    [.gapSecParamsReply s.main.connHandle bleGapSecStatusSuccess s.main.secParams]
  | .gapSecInfoRequest _ div =>
    let encInfo := s.main.authStatus.encInfo
    -- The signing information is never given.
    [.gapSecInfoReply s.main.connHandle (if encInfo.div = div then some encInfo else none) none]
  | .gapAuthStatus _ _ => []
  | .gapTimeout _ src => if src = bleGapTimeoutSrcAdvertisement then [.powerSystemOff] else []
  | .gattsWrite _ write =>
    if write.startsNegotiation then
      if bleSrvIsNotificationEnabled write.data then negotiationCalls s
      else [.appTimerStop s.connParams.connParamsTimerId]
    else []
  | .gattsSysAttrMissing _ => [.gattsSysAttrSet s.main.connHandle none 0]
  | .other _ => []

/-- The statics a stack event leads to when every call succeeds. -/
def nextOnEvt (s : Statics) : BleEvt → Statics
  | .gapConnected connHandle connParams => negotiated (connected s connHandle connParams)
  | .gapDisconnected _ => disconnected s
  | .gapConnParamUpdate _ connParams => negotiated (reparametrised s connParams)
  | .gapAuthStatus _ authStatus => { s with main := { s.main with authStatus := authStatus } }
  | .gattsWrite _ write =>
    if write.startsNegotiation ∧ bleSrvIsNotificationEnabled write.data then negotiated s else s
  | _ => s

/-- Whether the negotiation has attempts left after one more. -/
def attemptsLeft (p : ConnParamsStatics) : Prop := p.updateCount + 1 ≤ maxConnParamsUpdateCount

instance (p : ConnParamsStatics) : Decidable (attemptsLeft p) :=
  inferInstanceAs (Decidable (_ ≤ _))

/-- The calls the expiry of the negotiation timer leads to. -/
def plannedOnExpiry (s : Statics) : List Call :=
  if s.connParams.connHandle = bleConnHandleInvalid then []
  else if attemptsLeft s.connParams then
    [.gapConnParamUpdate s.connParams.connHandle s.connParams.preferredConnParams]
  else [.gapDisconnect s.main.connHandle bleHciConnIntervalUnacceptable]

/-- The statics the expiry of the negotiation timer leads to. -/
def nextOnExpiry (s : Statics) : Statics :=
  if s.connParams.connHandle = bleConnHandleInvalid then s
  else { s with connParams := { s.connParams with
    updateCount := if attemptsLeft s.connParams then s.connParams.updateCount + 1 else 0 } }

/-- The calls an input leads to. -/
def planned (s : Statics) (input : Input) : List Call :=
  match input.event? with
  | some bleEvt => plannedOnEvt s bleEvt
  | none => plannedOnExpiry s

/-- The statics an input leads to when every call succeeds. -/
def next (s : Statics) (input : Input) : Statics :=
  match input.event? with
  | some bleEvt => nextOnEvt s bleEvt
  | none => nextOnExpiry s

/-- The environment and the calls made to it: what a handler works on besides the statics. -/
structure Ledger (X : Type) where
  ext : X
  calls : List (Call × ErrCode)

/-- A ledger together with statics. -/
def Ledger.with {X : Type} (l : Ledger X) (s : Statics) : Handling X := ⟨s, l.ext, l.calls⟩

section

variable {X : Type} (answer : Answer X)

/-- Make one call, which stops the system if it fails or turns the chip off. -/
def performCall (call : Call) : Exec Halt (Ledger X) Unit := fun l =>
  let answered := answer call l.ext
  let l := ⟨answered.2, l.calls ++ [(call, answered.1)]⟩
  -- Whatever it returns, going to system-off mode ends the execution.
  if call = .powerSystemOff then .stop .systemOff l
  else if answered.1 = nrfSuccess then .done () l
  else .stop (.appError answered.1) l

/-- Make the calls in order. -/
def perform : List Call → Exec Halt (Ledger X) Unit
  | [] => pure ()
  | call :: calls => do
    performCall answer call
    perform calls

end

/-- The code ended as intended: in the intended statics, or stopped for the same reason. -/
inductive EndsAs {X : Type} (next : Statics) :
    Outcome Halt (Handling X) Unit → Outcome Halt (Ledger X) Unit → Prop where
  | done (l : Ledger X) : EndsAs next (.done () (l.with next)) (.done () l)
  | stop (reason : Halt) (l : Ledger X) (s : Statics) :
    EndsAs next (.stop reason (l.with s)) (.stop reason l)

/-- From the given statics, the code makes the given calls in order and leads to the next ones. -/
def Follows {X : Type} (answer : Answer X) (code : Prog X Unit) (s : Statics)
    (calls : List Call) (next : Statics) : Prop :=
  ∀ l : Ledger X, EndsAs next (code.run (l.with s)) ((perform answer calls).run l)

namespace Follows

variable {X : Type} {answer : Answer X} {s t u : Statics}

/-- A planned call goes on record, and ends the code unless it succeeds. -/
theorem run_performCall (call : Call) (l : Ledger X) :
    (performCall answer call).run l =
      let answered := answer call l.ext
      let l := ⟨answered.2, l.calls ++ [(call, answered.1)]⟩
      if call = .powerSystemOff then .stop .systemOff l
      else if answered.1 = nrfSuccess then .done () l
      else .stop (.appError answered.1) l := rfl

@[simp] theorem run_perform_nil (l : Ledger X) : (perform answer []).run l = .done () l := rfl

/-- Making two groups of calls means making the first and then the second. -/
theorem run_perform_append (first second : List Call) (l : Ledger X) :
    (perform answer (first ++ second)).run l =
      ((perform answer first).run l).bind fun _ => (perform answer second).run := by
  -- The induction is over the first group, from any ledger.
  induction first generalizing l with
  | nil => rfl
  | cons call first ih =>
    simp only [List.cons_append, perform, Exec.run_bind]
    cases (performCall answer call).run l with
    | done _ l => simpa using ih l
    | stop reason l => rfl

/-- Code that ends without calls follows the empty plan. -/
theorem silent {code : Prog X Unit}
    (runs : ∀ l : Ledger X, code.run (l.with s) = .done () (l.with t)) :
    Follows answer code s [] t := by
  intro l
  rw [runs]
  exact .done l

/-- Code in sequence makes the calls of its parts in sequence. -/
theorem seq {first second : Prog X Unit} {calls calls' : List Call}
    (left : Follows answer first s calls t) (right : Follows answer second t calls' u) :
    Follows answer (first >>= fun _ => second) s (calls ++ calls') u := by
  intro l
  rw [run_perform_append, Exec.run_bind]
  -- Only a first part that ran to its end is followed by the second.
  have split := left l
  generalize (perform answer calls).run l = intended at split
  generalize first.run (l.with s) = did at split
  cases split with
  | done l => exact right l
  | stop reason l s => exact .stop reason l s

/-- A step that only updates the statics goes in front without adding a call. -/
theorem after {first second : Prog X Unit} {calls : List Call}
    (runs : ∀ l : Ledger X, first.run (l.with s) = .done () (l.with t))
    (right : Follows answer second t calls u) :
    Follows answer (first >>= fun _ => second) s calls u :=
  seq (silent runs) right

/-- An update of the negotiation module's statics adds no call. -/
theorem connParams {second : Prog X Unit} {calls : List Call}
    {f : ConnParamsStatics → ConnParamsStatics}
    (right : Follows answer second { s with connParams := f s.connParams } calls u) :
    Follows answer (modifyConnParams f >>= fun _ => second) s calls u :=
  after (fun _ => rfl) right

/-- An update of main's statics adds no call. -/
theorem main {second : Prog X Unit} {calls : List Call} {f : MainStatics → MainStatics}
    (right : Follows answer second { s with main := f s.main } calls u) :
    Follows answer (modifyMain f >>= fun _ => second) s calls u :=
  after (fun _ => rfl) right

/-- A pin change adds no call. -/
theorem gpio {second : Prog X Unit} {calls : List Call} {f : GpioOut → GpioOut}
    (right : Follows answer second { s with gpio := f s.gpio } calls u) :
    Follows answer (modifyGpio f >>= fun _ => second) s calls u :=
  after (fun _ => rfl) right

/-- A step that only updates the statics goes behind without adding a call. -/
theorem before {first second : Prog X Unit} {calls : List Call}
    (left : Follows answer first s calls t)
    (runs : ∀ l : Ledger X, second.run (l.with t) = .done () (l.with u)) :
    Follows answer (first >>= fun _ => second) s calls u := by
  simpa using seq left (silent runs)

/-- A branch whose condition holds is taken. -/
theorem taken {c : Prop} [Decidable c] {code other : Prog X Unit} {calls : List Call}
    (holds : c) (rest : Follows answer code s calls t) :
    Follows answer (if c then code else other) s calls t := by
  rwa [if_pos holds]

/-- A branch whose condition fails is passed over. -/
theorem skipped {c : Prop} [Decidable c] {code other : Prog X Unit} {calls : List Call}
    (fails : ¬ c) (rest : Follows answer other s calls t) :
    Follows answer (if c then code else other) s calls t := by
  rwa [if_neg fails]

/-- Reading the statics gives the ones at hand. -/
theorem reading {code : Statics → Prog X Unit} {calls : List Call}
    (rest : Follows answer (code s) s calls t) :
    Follows answer (statics >>= code) s calls t := rest

/-- A call whose code is checked is made, and stops the system when it fails. -/
theorem checked {check : ErrCode → Prog X Unit} {call : Call}
    (checks : check = appErrorCheck) (returns : call ≠ .powerSystemOff) :
    Follows answer (invoke answer call >>= check) s [call] s := by
  -- Both sides make the call in the same environment, and so read the same code.
  intro l
  subst checks
  simp only [Exec.run_bind, run_invoke, Outcome.done_bind, appErrorCheck, perform, Exec.run_ite,
    run_performCall, returns, if_false, Ledger.with]
  by_cases fine : (answer call l.ext).1 = nrfSuccess
  · simp only [fine, ne_eq, not_true_eq_false, if_true, if_false, Exec.run_pure,
      Outcome.done_bind]
    exact .done ⟨_, _⟩
  · simp only [fine, ne_eq, not_false_eq_true, if_true, if_false, run_appErrorHandler,
      Outcome.stop_bind]
    exact .stop _ ⟨_, _⟩ _

end Follows

end BleHub
