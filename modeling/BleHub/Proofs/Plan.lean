import BleHub.Firmware.Plan

/-! The code follows the plan: function by function, and then as reactions of the application. -/

namespace BleHub

section

variable {X : Type} {answer : Answer X} (s : Statics)

/-- The negotiation module hands every error to the application error handler. -/
theorem reportError_eq : reportError (connParamsInit answer) = appErrorCheck := by
  funext errCode
  rfl

/-- A failed negotiation drops the connection. -/
theorem notifyFailed_follows :
    Follows answer (notifyEvt (connParamsInit answer) .failed) s
      [.gapDisconnect s.main.connHandle bleHciConnIntervalUnacceptable] s := by
  -- The event handler in main.c reads the handle and checks the call.
  have checked : Follows answer (statics >>= fun s => invoke answer
      (.gapDisconnect s.main.connHandle bleHciConnIntervalUnacceptable) >>= appErrorCheck) s
      [.gapDisconnect s.main.connHandle bleHciConnIntervalUnacceptable] s :=
    .reading (.checked rfl (by simp))
  exact checked

/-- A successful negotiation is not acted upon. -/
theorem notifySucceeded_follows :
    Follows answer (notifyEvt (connParamsInit answer) .succeeded) s [] s :=
  .silent fun _ => rfl

/-- The negotiation starts its timer exactly for unacceptable parameters. -/
theorem connParamsNegotiation_follows :
    Follows answer (connParamsNegotiation answer (connParamsInit answer)) s
      (negotiationCalls s) (negotiated s) := by
  -- The code and the plan branch on the same two tests.
  unfold connParamsNegotiation negotiationCalls
  refine .reading ?_
  simp only [reportError_eq]
  by_cases ok : isConnParamsOk s.connParams.preferredConnParams s.connParams.currentConnParams
  · simp only [ok]
    exact .before (notifySucceeded_follows s) fun _ => rfl
  · simp only [ok]
    by_cases change : s.connParams.changeParam
    · -- The application itself has asked for other parameters.
      simp only [change]
      exact .before (notifyFailed_follows s) fun _ => rfl
    · simp only [change]
      exact .before (.checked rfl (by simp)) fun _ => rfl

/-- An expiry makes one attempt, gives up, or finds no connection. -/
theorem updateTimeoutHandler_follows (context : Nat) :
    Follows answer (updateTimeoutHandler answer (connParamsInit answer) context) s
      (plannedOnExpiry s) (nextOnExpiry s) := by
  -- The counter is advanced before it is compared, so it is read a second time.
  unfold updateTimeoutHandler plannedOnExpiry nextOnExpiry
  refine .reading ?_
  simp only [reportError_eq]
  by_cases idle : s.connParams.connHandle = bleConnHandleInvalid
  · simp only [idle]
    exact .silent fun _ => rfl
  · simp only [idle, ne_eq, not_false_eq_true, if_true, if_false]
    by_cases left : attemptsLeft s.connParams
    · simp only [left, if_true]
      exact .connParams (.reading (.taken left (.checked rfl (by simp))))
    · -- The configuration leaves the disconnect to the event handler.
      simp only [left, if_false]
      refine .connParams (.reading (.skipped left (.connParams ?_)))
      exact notifyFailed_follows _

/-- A new connection is saved and negotiated at once. -/
theorem onConnect_follows (connHandle : ConnHandle) (connParams : GapConnParams) :
    Follows answer (onConnect answer (connParamsInit answer) connHandle connParams) s
      (negotiationCalls { s with connParams := { s.connParams with
        connHandle := connHandle, currentConnParams := connParams, updateCount := 0 } })
      (negotiated { s with connParams := { s.connParams with
        connHandle := connHandle, currentConnParams := connParams, updateCount := 0 } }) :=
  .connParams (.taken rfl (connParamsNegotiation_follows _))

/-- A lost connection is forgotten and the timer stopped. -/
theorem onDisconnect_follows :
    Follows answer (onDisconnect answer (connParamsInit answer)) s
      [.appTimerStop s.connParams.connParamsTimerId]
      { s with connParams :=
        { s.connParams with connHandle := bleConnHandleInvalid, updateCount := 0 } } :=
  .connParams (.reading (.checked rfl (by simp)))

/-- A write to the configured descriptor starts the negotiation or stops its timer. -/
theorem onWrite_follows (connHandle : ConnHandle) (write : GattsEvtWrite) :
    Follows answer (onWrite answer (connParamsInit answer) write) s
      (plannedOnEvt s (.gattsWrite connHandle write))
      (nextOnEvt s (.gattsWrite connHandle write)) := by
  -- The configured descriptor has the handle zero, which no attribute has.
  unfold onWrite plannedOnEvt nextOnEvt
  by_cases addressed : write.handle = bleGattHandleInvalid ∧ write.len = 2
  · have starts : write.startsNegotiation = true := by
      simp [GattsEvtWrite.startsNegotiation, addressed]
    refine .taken addressed ?_
    by_cases enabled : bleSrvIsNotificationEnabled write.data
    · simp only [starts, enabled, if_true, and_self]
      exact connParamsNegotiation_follows s
    · simp only [starts, enabled, if_true]
      exact .reading (.checked rfl (by simp))
  · have starts : write.startsNegotiation = false := by
      simp [GattsEvtWrite.startsNegotiation, addressed]
    refine .skipped addressed ?_
    simp only [starts, Bool.false_eq_true, if_false, false_and]
    exact .silent fun _ => rfl

/-- The application's own share of a stack event. -/
def mainOnEvt (s : Statics) : BleEvt → Statics
  | .gapConnected connHandle _ =>
    { s with
      main := { s.main with connHandle := connHandle }
      gpio := nrfGpioPinClear advertisingLedPinNo (nrfGpioPinSet connectedLedPinNo s.gpio) }
  | .gapDisconnected _ =>
    { s with
      main := { s.main with connHandle := bleConnHandleInvalid }
      gpio := nrfGpioPinSet advertisingLedPinNo (nrfGpioPinClear connectedLedPinNo s.gpio) }
  | .gapAuthStatus _ authStatus => { s with main := { s.main with authStatus := authStatus } }
  | _ => s

/-- The calls of the application's own share. -/
def mainCallsOnEvt (s : Statics) : BleEvt → List Call
  | .gapConnected _ _ => []
  | .gapDisconnected _ => [.gapAdvStart advParams]
  | .gapConnParamUpdate _ _ => []
  | .gattsWrite _ _ => []
  | bleEvt => plannedOnEvt s bleEvt

/-- Advertising is shown once it has started. -/
theorem advertisingStart_follows :
    Follows answer (advertisingStart answer) s [.gapAdvStart advParams]
      { s with gpio := nrfGpioPinSet advertisingLedPinNo s.gpio } := by
  unfold advertisingStart
  -- The call and its check come first, and the pin behind them.
  rw [← Exec.bind_assoc]
  exact .before (.checked rfl (by simp)) fun _ => rfl

/-- The application's handler makes its calls before the negotiation module sees the event. -/
theorem onBleEvt_follows (bleEvt : BleEvt) :
    Follows answer (onBleEvt answer bleEvt) s (mainCallsOnEvt s bleEvt) (mainOnEvt s bleEvt) := by
  -- Each case follows the switch of the source down to its last statement.
  cases bleEvt with
  | gapConnected connHandle connParams => exact .silent fun _ => rfl
  | gapDisconnected connHandle =>
    exact .reading (.gpio (.main (.before (advertisingStart_follows _) fun _ => rfl)))
  | gapConnParamUpdate connHandle connParams => exact .silent fun _ => rfl
  | gapSecParamsRequest connHandle => exact .reading (.checked rfl (by simp))
  | gapSecInfoRequest connHandle div =>
    refine .reading ?_
    -- The reply carries the key or none, and either way it is one checked call.
    by_cases same : s.main.authStatus.encInfo.div = div
    · simp only [mainCallsOnEvt, plannedOnEvt, same, if_true]
      exact .checked rfl (by simp)
    · simp only [mainCallsOnEvt, plannedOnEvt, same, if_false]
      exact .checked rfl (by simp)
  | gapAuthStatus connHandle authStatus => exact .silent fun _ => rfl
  | gapTimeout connHandle src =>
    refine .reading ?_
    by_cases advertisement : src = bleGapTimeoutSrcAdvertisement
    · -- System-off does not return, so nothing follows the call.
      simp only [mainCallsOnEvt, plannedOnEvt, advertisement, if_true]
      intro l
      exact .stop .systemOff ⟨_, _⟩ _
    · simp only [mainCallsOnEvt, plannedOnEvt, advertisement, if_false]
      exact .silent fun _ => rfl
  | gattsWrite connHandle write => exact .silent fun _ => rfl
  | gattsSysAttrMissing connHandle => exact .reading (.checked rfl (by simp))
  | other evtId => exact .silent fun _ => rfl

/-- Both modules together make the planned calls and leave the planned statics. -/
theorem bleEvtDispatch_follows (bleEvt : BleEvt) :
    Follows answer (bleEvtDispatch answer bleEvt) s (plannedOnEvt s bleEvt)
      (nextOnEvt s bleEvt) := by
  -- Only four kinds of events interest the negotiation module after main.c has had its turn.
  have first : Follows answer (onBleEvt answer bleEvt) s (mainCallsOnEvt s bleEvt)
      (mainOnEvt s bleEvt) := onBleEvt_follows s bleEvt
  cases bleEvt with
  | gapConnected connHandle connParams => exact .seq first (onConnect_follows _ _ _)
  | gapDisconnected connHandle => exact .seq first (onDisconnect_follows _)
  | gapConnParamUpdate connHandle connParams =>
    exact .seq first (.connParams (connParamsNegotiation_follows _))
  | gattsWrite connHandle write => exact .seq first (onWrite_follows _ connHandle write)
  | gapSecParamsRequest | gapSecInfoRequest | gapAuthStatus | gattsSysAttrMissing | other =>
    exact .before first fun _ => rfl
  | gapTimeout => exact .before first fun _ => rfl

/-- Every reaction makes the planned calls, up to the first that fails, as planned. -/
theorem execute_follows (input : Input) :
    Follows answer (execute answer input) s (planned s input) (next s input) := by
  cases input with
  | event bleEvt => exact bleEvtDispatch_follows s bleEvt
  | answer connHandle connParams => exact bleEvtDispatch_follows s _
  | expiry context => exact updateTimeoutHandler_follows s context

end

/-! ### Reactions -/

section

variable {X : Type} {answer : Answer X}

/-- Only a prefix of the calls is made, and all of them succeed unless the system stops. -/
theorem perform_calls (answer : Answer X) (calls : List Call) (l : Ledger X) :
    ∃ made, ((perform answer calls).run l).state.calls = l.calls ++ made ∧
      made.map Prod.fst <+: calls ∧ (calls ≠ [] → made ≠ []) ∧
      (((perform answer calls).run l).reason? = none →
        made = calls.map (·, nrfSuccess) ∧ .powerSystemOff ∉ calls) := by
  -- Each call either goes on with the rest or is the last one.
  induction calls generalizing l with
  | nil => exact ⟨[], by simp, by simp, by simp, fun _ => ⟨rfl, by simp⟩⟩
  | cons call calls ih =>
    simp only [perform, Exec.run_bind, Follows.run_performCall]
    split
    · -- System-off is the last call there is.
      exact ⟨[(call, _)], rfl, ⟨calls, rfl⟩, by simp, by simp⟩
    · rename_i returns
      split
      · -- A call that succeeds is followed by the rest.
        rename_i fine
        obtain ⟨made, state, shorter, -, all⟩ :=
          ih ⟨(answer call l.ext).2, l.calls ++ [(call, _)]⟩
        refine ⟨(call, nrfSuccess) :: made, ?_, ?_, by simp, ?_⟩
        · rw [Outcome.done_bind, state, fine, List.append_assoc]
          rfl
        · exact List.prefix_cons_inj call |>.mpr shorter
        · intro goesOn
          obtain ⟨made, off⟩ := all goesOn
          subst made
          exact ⟨rfl, by simp [off, Ne.symm returns]⟩
      · -- So is a call that fails.
        exact ⟨[(call, _)], rfl, ⟨calls, rfl⟩, by simp, by simp⟩

/-- If no call can fail, only going to system-off ends the calls early. -/
theorem perform_obliged (answer : Answer X) (calls : List Call) (l : Ledger X)
    (obliged : ∀ call ∈ calls, ∀ x, (answer call x).1 = nrfSuccess) :
    ((perform answer calls).run l).reason? = none ∨
      ((perform answer calls).run l).reason? = some .systemOff := by
  -- Call by call, success leads on to the rest.
  induction calls generalizing l with
  | nil => exact .inl rfl
  | cons call calls ih =>
    have fine := obliged call (by simp) l.ext
    simp only [perform, Exec.run_bind, Follows.run_performCall, fine, if_true]
    split
    · exact .inr rfl
    · exact ih _ fun other member => obliged other (by simp [member])

/-- A live reaction performs the plan. -/
theorem App.reactLive_performs (answer : Answer X) (a : App X) (input : Input) :
    let intended := (perform answer (planned a.statics input)).run ⟨a.ext, []⟩
    (a.reactLive answer input).halted = intended.reason? ∧
      (a.reactLive answer input).ext = intended.state.ext ∧
      (a.reactLive answer input).past = ⟨input, intended.state.calls⟩ :: a.past ∧
      ((a.reactLive answer input).halted = none →
        (a.reactLive answer input).statics = next a.statics input) := by
  have follows := (execute_follows a.statics input : Follows answer _ _ _ _) ⟨a.ext, []⟩
  simp only [App.reactLive]
  generalize (perform answer (planned a.statics input)).run ⟨a.ext, []⟩ = intended at follows ⊢
  -- The state in which the code starts is the ledger with the statics at hand.
  have start : (⟨a.statics, a.ext, []⟩ : Handling X) = Ledger.with ⟨a.ext, []⟩ a.statics := rfl
  rw [start]
  generalize (execute answer input).run (Ledger.with ⟨a.ext, []⟩ a.statics) = did at follows ⊢
  cases follows with
  | done l => exact ⟨rfl, rfl, rfl, fun _ => rfl⟩
  | stop reason l s => exact ⟨rfl, rfl, rfl, by simp⟩

/-- A reaction made the calls that were planned, up to some point and at least the first. -/
structure Performs (s : Statics) (reaction : Reaction) : Prop where
  made : reaction.made <+: planned s reaction.input
  started : planned s reaction.input ≠ [] → reaction.made ≠ []

/-- A single planned call is made. -/
theorem Performs.single {s : Statics} {reaction : Reaction} {call : Call}
    (performs : Performs s reaction) (plan : planned s reaction.input = [call]) :
    reaction.made = [call] := by
  obtain ⟨made, started⟩ := performs
  rw [plan] at made started
  -- The only prefix of a single call that is not empty is the call itself.
  obtain ⟨rest, whole⟩ := made
  cases calls : reaction.made with
  | nil => exact absurd calls (started (by simp))
  | cons first others =>
    rw [calls] at whole
    simp only [List.cons_append, List.cons.injEq, List.append_eq_nil_iff] at whole
    rw [whole.1, whole.2.1]

/-- Nothing is done beyond the plan. -/
theorem Performs.planned_of_made {s : Statics} {reaction : Reaction} {call : Call}
    (performs : Performs s reaction) (made : call ∈ reaction.made) :
    call ∈ planned s reaction.input :=
  performs.made.subset made

/-- What a live reaction leaves behind, as far as the plan determines it. -/
structure App.Reacts (a : App X) (input : Input) (calls : List (Call × ErrCode)) (a' : App X) :
    Prop where
  past : a'.past = ⟨input, calls⟩ :: a.past
  performs : Performs a.statics ⟨input, calls⟩
  statics : a'.halted = none → a'.statics = next a.statics input
  succeeded : a'.halted = none → calls = (planned a.statics input).map (·, nrfSuccess)
  on : a'.halted = none → .powerSystemOff ∉ planned a.statics input

/-- Every live reaction is recorded and goes on in the planned statics, unless it stops. -/
theorem App.reactLive_reacts (answer : Answer X) (a : App X) (input : Input) :
    ∃ calls, a.Reacts input calls (a.reactLive answer input) := by
  -- The reaction is the performance of its plan, whose calls are known.
  obtain ⟨halted, ext, past, statics⟩ := App.reactLive_performs answer a input
  obtain ⟨made, state, shorter, started, all⟩ :=
    perform_calls answer (planned a.statics input) ⟨a.ext, []⟩
  rw [List.nil_append] at state
  rw [state] at past
  have performs : Performs a.statics ⟨input, made⟩ :=
    ⟨shorter, fun plan => by simpa [Reaction.made] using started plan⟩
  exact ⟨made, past, performs, statics, fun goesOn => (all (halted ▸ goesOn)).1,
    fun goesOn => (all (halted ▸ goesOn)).2⟩

/-- A reaction with a single planned call makes it, and stops exactly when it fails. -/
theorem App.reactLive_single {a : App X} {input : Input} {call : Call}
    (single : planned a.statics input = [call]) (returns : call ≠ .powerSystemOff) :
    (a.reactLive answer input).past = ⟨input, [(call, (answer call a.ext).1)]⟩ :: a.past ∧
      (a.reactLive answer input).halted =
        if (answer call a.ext).1 = nrfSuccess then none
        else some (.appError (answer call a.ext).1) := by
  obtain ⟨halted, -, past, -⟩ := App.reactLive_performs answer a input
  rw [halted, past, single]
  simp only [perform, Exec.run_bind, Follows.run_performCall, returns, if_false]
  split <;> simp

end

end BleHub
