import BleHub.Proofs.Tracking
import BleHub.Stack.SoftDevice

/-! Exactly which races with a lost link make the firmware reset the system. -/

namespace BleHub

/-- The application error handler has reset the system. -/
def WasReset {X : Type} (a : App X) : Prop := ∃ errCode, a.halted = some (.appError errCode)

/-- Whether the firmware answers an event with a call on its connection. -/
def BleEvt.needsLink : BleEvt → Bool
  | .gapSecParamsRequest _ => true
  | .gapSecInfoRequest _ _ => true
  | .gattsSysAttrMissing _ => true
  | _ => false

/--
The link is still up when the firmware is about to make a call on it: when it dispatches a
request of the peer, and when the negotiation timer expires while it holds a connection.
-/
def LinkAlive (a : App SoftDevice) : StackStep → Prop
  | .dispatch =>
    a.halted = none → ∀ bleEvt ∈ a.ext.queue.head?, bleEvt.needsLink = true →
      a.ext.link = .up a.statics.main.connHandle
  | .expiry _ =>
    a.halted = none → a.statics.connParams.connHandle ≠ bleConnHandleInvalid →
      a.ext.link = .up a.statics.connParams.connHandle
  | _ => True

/-- A call on a handle succeeds exactly while the link of that handle is up. -/
theorem answer_success_iff {refusal : Refusal} {call : Call} {connHandle : ConnHandle}
    (acts : call.connHandle? = some connHandle) (sd : SoftDevice) :
    (SoftDevice.answer refusal call sd).1 = nrfSuccess ↔ sd.link = .up connHandle := by
  -- The SoftDevice compares the link with the handle of the call.
  simp only [SoftDevice.answer, acts]
  split
  · simp [*]
  · -- Neither of the documented errors is the success code.
    have failed : refusal.code call sd.link ≠ nrfSuccess := by
      rcases refusal.documented call sd.link with code | code
      · rw [code]; decide
      · rw [code]; decide
    simp [*]

/-- A call without a handle always succeeds. -/
theorem answer_success {refusal : Refusal} {call : Call} (free : call.connHandle? = none)
    (sd : SoftDevice) : (SoftDevice.answer refusal call sd).1 = nrfSuccess := by
  simp [SoftDevice.answer, free]

/-- Negotiating makes no call on the handle unless a change of the parameters was requested. -/
theorem negotiationCalls_free {s : Statics} (unchanged : s.connParams.changeParam = false) :
    ∀ call ∈ negotiationCalls s, call.connHandle? = none := by
  -- What is left is the start of the timer.
  intro call member
  simp only [negotiationCalls, unchanged, Bool.false_eq_true, if_false] at member
  split at member
  · simp at member
  · simp only [List.mem_singleton] at member
    rw [member]
    rfl

/-- Events that need no link lead to no call on a handle. -/
theorem plannedOnEvt_free {s : Statics} {bleEvt : BleEvt}
    (unchanged : s.connParams.changeParam = false) (free : bleEvt.needsLink = false) :
    ∀ call ∈ plannedOnEvt s bleEvt, call.connHandle? = none := by
  -- The calls are advertising, the timer and system-off.
  cases bleEvt with
  | gapConnected connHandle connParams =>
    exact negotiationCalls_free (s := connected s connHandle connParams) unchanged
  | gapConnParamUpdate connHandle connParams =>
    exact negotiationCalls_free (s := reparametrised s connParams) unchanged
  | gapDisconnected connHandle =>
    -- Advertising again and stopping the timer take no handle.
    intro call member
    simp only [plannedOnEvt, List.mem_cons, List.not_mem_nil, or_false] at member
    rcases member with rfl | rfl
    · rfl
    · rfl
  | gapSecParamsRequest | gapSecInfoRequest | gattsSysAttrMissing => cases free
  | gapTimeout connHandle src =>
    intro call member
    simp only [plannedOnEvt] at member
    -- Only a timeout of advertising leads to a call, which is system-off.
    split at member
    · simp only [List.mem_singleton] at member
      rw [member]
      rfl
    · simp at member
  | gattsWrite connHandle write =>
    intro call member
    simp only [plannedOnEvt] at member
    split at member
    · split at member
      · exact negotiationCalls_free unchanged call member
      · simp only [List.mem_singleton] at member
        rw [member]
        rfl
    · simp at member
  | gapAuthStatus | other => simp [plannedOnEvt]

section

variable {refusal : Refusal} {a : App SoftDevice} {input : Input}

/-- A plan without calls on a handle does not lead to a reset. -/
theorem not_wasReset_of_free (free : ∀ call ∈ planned a.statics input, call.connHandle? = none) :
    ¬ WasReset (a.reactLive (SoftDevice.answer refusal) input) := by
  rintro ⟨errCode, reset⟩
  -- Every call succeeds, so at most system-off ends the reaction.
  have halted := (App.reactLive_performs (SoftDevice.answer refusal) a input).1
  have fine := perform_obliged (SoftDevice.answer refusal) (planned a.statics input)
    ⟨a.ext, []⟩ fun call member sd => answer_success (free call member) sd
  rw [← halted, reset] at fine
  simp at fine

/-- A single call on a handle leads to a reset exactly if the link of that handle is not up. -/
theorem wasReset_iff_of_single {call : Call} {connHandle : ConnHandle}
    (single : planned a.statics input = [call]) (acts : call.connHandle? = some connHandle) :
    ¬ WasReset (a.reactLive (SoftDevice.answer refusal) input) ↔
      a.ext.link = .up connHandle := by
  have returns : call ≠ .powerSystemOff := by rintro rfl; cases acts
  -- The reaction goes on exactly if its one call succeeds.
  have fine : (SoftDevice.answer refusal call a.ext).1 = nrfSuccess ↔
      a.ext.link = .up connHandle := answer_success_iff acts a.ext
  rw [← fine, WasReset, (App.reactLive_single single returns).2]
  clear fine
  split <;> simp [*]

end

/-- Dispatching an event leads to a reset exactly if it needs a link that is not up. -/
theorem wasReset_event_iff {refusal : Refusal} {a : App SoftDevice} {bleEvt : BleEvt}
    (unchanged : a.statics.connParams.changeParam = false) :
    ¬ WasReset (a.reactLive (SoftDevice.answer refusal) (.event bleEvt)) ↔
      (bleEvt.needsLink = true → a.ext.link = .up a.statics.main.connHandle) := by
  cases needs : bleEvt.needsLink with
  | true =>
    -- Each of these events is answered with one call on the handle of the application.
    simp only [true_implies]
    cases bleEvt with
    | gapSecParamsRequest connHandle => exact wasReset_iff_of_single rfl rfl
    | gapSecInfoRequest connHandle div => exact wasReset_iff_of_single rfl rfl
    | gattsSysAttrMissing connHandle => exact wasReset_iff_of_single rfl rfl
    | _ => cases needs
  | false =>
    simp only [Bool.false_eq_true, false_implies, iff_true]
    exact not_wasReset_of_free (plannedOnEvt_free unchanged needs)

/-- An expiry leads to a reset exactly if the connection it acts on is not up any more. -/
theorem wasReset_expiry_iff {refusal : Refusal} {a : App SoftDevice} {context : Nat}
    (same : a.statics.main.connHandle = a.statics.connParams.connHandle) :
    ¬ WasReset (a.reactLive (SoftDevice.answer refusal) (.expiry context)) ↔
      (a.statics.connParams.connHandle ≠ bleConnHandleInvalid →
        a.ext.link = .up a.statics.connParams.connHandle) := by
  by_cases idle : a.statics.connParams.connHandle = bleConnHandleInvalid
  · -- Without a connection the expiry makes no call at all.
    have nothing : planned a.statics (.expiry context) = [] := if_pos idle
    simp only [idle, ne_eq, not_true_eq_false, false_implies, iff_true]
    exact not_wasReset_of_free (by simp [nothing])
  · simp only [ne_eq, idle, not_false_eq_true, true_implies]
    -- Either call, the request and the disconnect, acts on the same connection.
    by_cases left : attemptsLeft a.statics.connParams
    · have attempt : planned a.statics (.expiry context) =
          [.gapConnParamUpdate a.statics.connParams.connHandle
            a.statics.connParams.preferredConnParams] := by
        show plannedOnExpiry a.statics = _
        rw [plannedOnExpiry, if_neg idle, if_pos left]
      exact wasReset_iff_of_single attempt rfl
    · have drop : planned a.statics (.expiry context) =
          [.gapDisconnect a.statics.connParams.connHandle bleHciConnIntervalUnacceptable] := by
        show plannedOnExpiry a.statics = _
        rw [plannedOnExpiry, if_neg idle, if_neg left, same]
      exact wasReset_iff_of_single drop rfl

/-- A step of the SoftDevice or of the main loop keeps the statics in agreement. -/
theorem Agrees.stackStep {timerId : Nat} {a : App SoftDevice} (refusal : Refusal)
    (agrees : Agrees timerId a) (label : StackStep) :
    Agrees timerId (stackStep refusal a label) := by
  -- A halted application does not react, and the SoftDevice does not touch the statics.
  have reacting : ∀ (b : App SoftDevice) input, Agrees timerId b →
      Agrees timerId (b.react (SoftDevice.answer refusal) input) := by
    intro b input agrees
    cases live : b.halted with
    | none =>
      rw [App.react_live live]
      exact agrees.reactLive live _ input
    | some halt =>
      rw [App.react_halted live]
      exact agrees
  -- Only a dispatch and an expiry make the application react.
  cases label with
  | dispatch =>
    simp only [BleHub.stackStep]
    split
    · exact agrees
    · exact reacting _ _ agrees
  | expiry context => exact reacting a _ agrees
  | _ => exact agrees

/-- A step leads to a reset exactly if it makes a call on a link that is not up any more. -/
theorem stackStep_reset_iff {timerId : Nat} {refusal : Refusal} {a : App SoftDevice}
    (label : StackStep) (agrees : Agrees timerId a) (good : ¬ WasReset a) :
    ¬ WasReset (stackStep refusal a label) ↔ LinkAlive a label := by
  -- Only the main loop makes calls, and only while it executes.
  cases label with
  | dispatch =>
    -- A dispatch reacts to the event at the head of the queue, if there is one.
    simp only [stackStep, LinkAlive]
    cases waiting : a.ext.queue with
    | nil => simp [good]
    | cons bleEvt rest =>
      simp only [List.head?_cons, Option.mem_def, Option.some.injEq, forall_eq']
      have halted : (a.within (a.ext.leave rest)).halted = a.halted := rfl
      cases live : a.halted with
      | none =>
        have unchanged : (a.within (a.ext.leave rest)).statics.connParams.changeParam = false :=
          (agrees live).unchanged
        rw [App.react_live (halted.trans live), wasReset_event_iff unchanged]
        simp [SoftDevice.leave]
      | some halt =>
        rw [App.react_halted (halted.trans live)]
        simpa [WasReset, live] using good
  | expiry context =>
    -- An expiry acts on the handle that both modules hold.
    simp only [stackStep, LinkAlive]
    cases live : a.halted with
    | none =>
      have same := (agrees live).mainHandle.trans (agrees live).connParamsHandle.symm
      rw [App.react_live live, wasReset_expiry_iff same]
      simp
    | some halt =>
      rw [App.react_halted live]
      simpa using good
  | _ => simpa [LinkAlive, stackStep, WasReset] using good

/-- A reset is for good. -/
theorem wasReset_stackStep {refusal : Refusal} {a : App SoftDevice} (label : StackStep)
    (reset : WasReset a) : WasReset (stackStep refusal a label) := by
  obtain ⟨errCode, halted⟩ := reset
  refine ⟨errCode, ?_⟩
  -- An application that was reset does not react any more.
  cases label with
  | dispatch =>
    simp only [stackStep]
    split
    · exact halted
    · rw [App.react_halted ((App.within_halted a _).trans halted)]
      exact halted
  | expiry context =>
    rw [stackStep, App.react_halted halted]
    exact halted
  | _ => exact halted

/--
The firmware is never reset in exactly those runs in which every request of the peer is
dispatched, and every expiry of a connection handled, while the link of the firmware is up.
-/
theorem no_reset_iff_linkAlive (timerId : Nat) (refusal : Refusal) (labels : List StackStep) :
    ¬ WasReset (StepMachine.run (stackStep refusal) (stackBoot timerId) labels) ↔
      StepMachine.Throughout (stackStep refusal) LinkAlive (stackBoot timerId) labels := by
  -- A reset absorbs, and the two handle variables agree until then.
  refine StepMachine.avoids_iff_throughout (I := Agrees timerId)
    (fun a label => wasReset_stackStep label) (fun a label agrees => agrees.stackStep refusal label)
    (fun a label agrees good => stackStep_reset_iff label agrees good) labels _ ?_ ?_
  · exact fun _ => Tracks.boot timerId
  · rintro ⟨errCode, halted⟩
    cases halted

/-- A SoftDevice that names the missing connection in every refusal. -/
def unknownHandle : Refusal where
  code _ _ := bleErrorInvalidConnHandle
  documented _ _ := .inl rfl

/-- A peer that asks to pair and goes out of range resets the firmware. -/
theorem wasReset_pairing_linkLost :
    ¬ ¬ WasReset (StepMachine.run (stackStep unknownHandle) (stackBoot 1)
      [.linkEstablished 0 ⟨6, 6, 0, 400⟩, .dispatch, .raised (.gapSecParamsRequest 0), .linkLost,
        .dispatch]) :=
  not_not_intro ⟨bleErrorInvalidConnHandle, by decide⟩

end BleHub
