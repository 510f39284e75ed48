import BleHub.Firmware.System
import BleHub.Proofs.SoleTimer
import BleHub.Proofs.Tracking

/-! What one step of the whole firmware can do, and what always holds of its timer module. -/

namespace BleHub

/-- Posting timeouts appends them to the queue in order. -/
theorem postTimeouts_contents {connections : Nat}
    {events : List (Option TimeoutHandler × Nat)} {queue queue' : SchedQueue}
    (posted : postTimeouts connections events queue = some queue') :
    queue'.contents = queue.contents ++
      events.map fun event => .appTimerEvt event.1 event.2 connections := by
  -- Every timeout is pushed onto the queue that the ones before it have left.
  induction events generalizing queue with
  | nil =>
    simp only [postTimeouts, Option.some.injEq] at posted
    simp [posted]
  | cons event rest ih =>
    simp only [postTimeouts] at posted
    rcases queue.push_spec (.appTimerEvt event.1 event.2 connections) with
      ⟨-, full⟩ | ⟨-, more, pushed, contents⟩
    · -- A full queue would have ended the posting.
      simp [full] at posted
    · rw [pushed] at posted
      rw [ih posted, contents]
      simp

/-- An environment property that every call of a plan keeps holds after the plan. -/
theorem perform_keeps {X : Type} {answer : Answer X} {I : X → Prop} {calls : List Call}
    (keeps : ∀ call ∈ calls, ∀ x, I x → I (answer call x).2) (l : Ledger X) (holds : I l.ext) :
    I ((perform answer calls).run l).state.ext := by
  -- Each call is made on what the calls before it have left.
  induction calls generalizing l with
  | nil => exact holds
  | cons call calls ih =>
    have here := keeps call (by simp) l.ext holds
    simp only [perform, Exec.run_bind, Follows.run_performCall]
    split
    · exact here
    · split
      · exact ih (fun other member => keeps other (by simp [member])) _ here
      · exact here

/-- An environment property that every planned call keeps holds after the reaction. -/
theorem App.reactLive_keeps {X : Type} {answer : Answer X} {I : X → Prop} {a : App X}
    {input : Input} (keeps : ∀ call ∈ planned a.statics input, ∀ x, I x → I (answer call x).2)
    (holds : I a.ext) : I (a.reactLive answer input).ext := by
  rw [(App.reactLive_performs answer a input).2.1]
  exact perform_keeps keeps _ holds

/-- A single planned call leaves the environment as it answers. -/
theorem App.reactLive_single_ext {X : Type} {answer : Answer X} {a : App X} {input : Input}
    {call : Call} (single : planned a.statics input = [call]) :
    (a.reactLive answer input).ext = (answer call a.ext).2 := by
  -- Whether or not the system goes on after the call, nothing else is asked.
  rw [(App.reactLive_performs answer a input).2.1, single]
  simp only [perform, Exec.run_bind, Follows.run_performCall]
  split
  · rfl
  · split <;> rfl

/-- Two planned calls leave the environment as they answer one after the other. -/
theorem App.reactLive_pair_ext {X : Type} {answer : Answer X} {a : App X} {input : Input}
    {first second : Call} (plan : planned a.statics input = [first, second])
    (goesOn : (a.reactLive answer input).halted = none) :
    let answered := answer second (answer first a.ext).2
    (a.reactLive answer input).ext = answered.2 ∧ answered.1 = nrfSuccess := by
  obtain ⟨halted, ext, -, -⟩ := App.reactLive_performs answer a input
  rw [goesOn, plan] at halted
  rw [ext, plan]
  -- The system only goes on if neither of the calls fails.
  simp only [perform, Exec.run_bind, Follows.run_performCall] at halted ⊢
  split at halted
  · simp at halted
  · rename_i on
    split at halted
    · rename_i fine
      rw [if_neg on, if_pos fine]
      simp only [Outcome.done_bind, Exec.run_bind, Follows.run_performCall] at halted ⊢
      split at halted
      · simp at halted
      · rename_i on
        split at halted
        · rename_i fine
          rw [if_neg on, if_pos fine]
          exact ⟨rfl, fine⟩
        · simp at halted
    · simp at halted

/-- The timer that a call is about, for the calls to the timer module. -/
def Call.timerId? : Call → Option Nat
  | .appTimerStart timerId _ => some timerId
  | .appTimerStop timerId => some timerId
  | _ => none

/-- Negotiating concerns only the timer of the negotiation module. -/
theorem negotiationCalls_timer {s : Statics} {call : Call} (member : call ∈ negotiationCalls s) :
    ∀ timerId ∈ call.timerId?, timerId = s.connParams.connParamsTimerId := by
  -- The start of the timer is the only call on a timer here.
  simp only [negotiationCalls] at member
  split at member
  · simp at member
  · split at member
    · simp_all [Call.timerId?]
    · simp_all [Call.timerId?]

/-- Every planned call concerns only the timer of the negotiation module. -/
theorem planned_timer {s : Statics} {input : Input} {call : Call}
    (member : call ∈ planned s input) :
    ∀ timerId ∈ call.timerId?, timerId = s.connParams.connParamsTimerId := by
  -- The negotiation starts it, and the end of a connection and a write stop it.
  cases input with
  | event bleEvt =>
    cases bleEvt with
    | gapConnected connHandle connParams =>
      exact negotiationCalls_timer (s := connected s connHandle connParams) member
    | gapConnParamUpdate connHandle connParams =>
      exact negotiationCalls_timer (s := reparametrised s connParams) member
    | gapDisconnected connHandle =>
      -- Besides stopping the timer, advertising is started, which concerns none.
      simp only [planned, Input.event?, plannedOnEvt, List.mem_cons, List.not_mem_nil,
        or_false] at member
      rcases member with rfl | rfl
      · simp [Call.timerId?]
      · simp [Call.timerId?]
    | gattsWrite connHandle write =>
      -- A write starts the negotiation or stops the timer, as the value says.
      simp only [planned, Input.event?, plannedOnEvt] at member
      split at member
      · split at member
        · exact negotiationCalls_timer member
        · simp_all [Call.timerId?]
      · simp at member
    | gapTimeout connHandle src =>
      simp only [planned, Input.event?, plannedOnEvt] at member
      split at member
      · simp_all [Call.timerId?]
      · simp at member
    | _ => simp_all [planned, Input.event?, plannedOnEvt, Call.timerId?]
  | answer connHandle connParams =>
    exact negotiationCalls_timer (s := reparametrised s connParams) member
  | expiry context =>
    -- An expiry leads to a request or to a disconnection.
    simp only [planned, Input.event?, plannedOnExpiry] at member
    split at member
    · simp at member
    · split at member
      · simp_all [Call.timerId?]
      · simp_all [Call.timerId?]

/-- No call touches the scheduler queue. -/
@[simp] theorem Env.answer_queue (device : Device) (connections : Nat) (call : Call) (env : Env) :
    (Env.answer device connections call env).2.queue = env.queue := by
  cases call <;> rfl

/-- Calls that are not to the timer module change nothing. -/
theorem Env.answer_other {device : Device} {connections : Nat} {call : Call} (env : Env)
    (other : call.timerId? = none) : (Env.answer device connections call env).2 = env := by
  cases call with
  | appTimerStart | appTimerStop => simp [Call.timerId?] at other
  | _ => rfl

namespace System

/-- The timer module is only used for the negotiation timer. -/
abbrev SoleTimer (timer : HubTimer) : Prop :=
  Sole connParamsTimer (some .updateTimeoutHandler) timer

/-- A call on the negotiation timer keeps it the only one. -/
theorem answer_sole {device : Device} {connections : Nat} {call : Call} {env : Env}
    (timer : ∀ timerId ∈ call.timerId?, timerId = connParamsTimer) (sole : SoleTimer env.timer) :
    SoleTimer (Env.answer device connections call env).2.timer := by
  -- Calls to the SoftDevice do not reach the timer module.
  cases call with
  | appTimerStart timerId ticks =>
    have same : timerId = connParamsTimer := timer timerId rfl
    subst same
    exact (sole.appTimerStart device.counter ticks connections).1
  | appTimerStop timerId =>
    have same : timerId = connParamsTimer := timer timerId rfl
    subst same
    exact sole.appTimerStop.1
  | _ => exact sole

/-- The main loop reacts to the input, with its calls answered in the environment. -/
theorem handle_app {s : System} (live : s.app.halted = none) (device : Device) (input : Input) :
    (s.handle device input).app =
      s.app.reactLive (Env.answer device (epoch (⟨input, []⟩ :: s.app.past))) input :=
  App.react_live live input

/-- Handling an input follows the plan. -/
theorem handle_reacts {s : System} (live : s.app.halted = none) (device : Device)
    (input : Input) : ∃ calls, s.app.Reacts input calls (s.handle device input).app := by
  rw [handle_app live]
  exact App.reactLive_reacts _ _ _

/-- What a live step does to the system. -/
inductive Moves (s : System) : SystemStep → System → Prop where
  | idle (label : SystemStep) (pulling : Bool) : Moves s label { s with pulling := pulling }
  | overflow (label : SystemStep) : Moves s label s.overflow
  | expire (counter : UInt32) (queue : SchedQueue)
      (contents : queue.contents = s.app.ext.queue.contents ++
        (s.app.ext.timer.enterRtc1.timerTimeoutsCheck counter).1.map fun event =>
          .appTimerEvt event.1 event.2 (epoch s.app.past)) :
      Moves s (.rtc1IrqHandler counter)
        (s.within ⟨(s.app.ext.timer.enterRtc1.timerTimeoutsCheck counter).2, queue⟩)
  | workOff (preCounter postCounter : UInt32) :
      Moves s (.swi0IrqHandler preCounter postCounter)
        (s.within ⟨s.app.ext.timer.enterSwi0.timerListHandler preCounter postCounter,
          s.app.ext.queue⟩)
  | post (queue : SchedQueue)
      (contents : queue.contents = s.app.ext.queue.contents ++ [.bleStackEvt]) :
      Moves s .swi2IrqHandler (s.within ⟨s.app.ext.timer, queue⟩)
  | take (device : Device) (entry : SchedEvent) (queue : SchedQueue) (pulling : Bool)
      (contents : s.app.ext.queue.contents = entry :: queue.contents)
      (other : ∀ context posted,
        entry ≠ .appTimerEvt (some .updateTimeoutHandler) context posted) :
      Moves s (.appSchedEventGet device)
        { s.within ⟨s.app.ext.timer, queue⟩ with pulling := pulling }
  | timeOut (device : Device) (context posted : Nat) (queue : SchedQueue)
      (contents : s.app.ext.queue.contents =
        .appTimerEvt (some .updateTimeoutHandler) context posted :: queue.contents) :
      Moves s (.appSchedEventGet device)
        ((s.within ⟨s.app.ext.timer, queue⟩).handle device (.expiry context))
  | dispatch (device : Device) (input : Input)
      (delivered : deliverable input s.app.past = true) :
      Moves s (.sdBleEvtGet device input) (s.handle device input)

/-- Every live step is one of these moves. -/
theorem stepLive_moves (s : System) (label : SystemStep) : Moves s label (s.stepLive label) := by
  -- One case for each label, and within it one move for each way it can go.
  cases label with
  | rtc1IrqHandler counter =>
    simp only [stepLive]
    split
    · rename_i queue posted
      exact .expire counter queue (postTimeouts_contents posted)
    · exact .overflow _
  | swi0IrqHandler preCounter postCounter =>
    simp only [stepLive]
    split
    · exact .workOff preCounter postCounter
    · exact .idle _ s.pulling
  | swi2IrqHandler =>
    simp only [stepLive]
    -- The event of the stack finds an entry, or the queue is full.
    rcases s.app.ext.queue.push_spec .bleStackEvt with ⟨-, full⟩ | ⟨-, queue, pushed, contents⟩
    · simp only [full]
      exact .overflow _
    · simp only [pushed]
      exact .post queue contents
  | appSchedEventGet device =>
    simp only [stepLive]
    split
    · exact .idle _ s.pulling
    · -- Otherwise the main loop takes the oldest entry, if there is one.
      rcases s.app.ext.queue.pop_spec with ⟨-, empty⟩ | ⟨entry, queue, popped, contents⟩
      · simp only [empty]
        exact .idle _ s.pulling
      · simp only [popped]
        -- Only the expiry of the negotiation timer runs code of the application.
        cases entry with
        | bleStackEvt => exact .take device .bleStackEvt queue true contents (by simp)
        | appTimerEvt timeoutHandler context posted =>
          cases timeoutHandler with
          | none => exact .take device _ queue s.pulling contents (by simp)
          | some handler =>
            cases handler with
            | updateTimeoutHandler => exact .timeOut device context posted queue contents
            | detectionDelayTimeoutHandler =>
              exact .take device _ queue s.pulling contents (by simp)
  | sdBleEvtGet device input =>
    simp only [stepLive]
    split
    · rename_i delivered
      exact .dispatch device input (Bool.and_eq_true _ _ ▸ delivered).2
    · exact .idle _ s.pulling
  | sdBleEvtNotFound => exact .idle _ false

/-- The stack only delivers what it is permitted to. -/
theorem permitted_of_deliverable {input : Input} {past : List Reaction}
    (delivered : deliverable input past = true) : permitted input past = true := by
  cases input with
  | event bleEvt => exact delivered
  | answer connHandle connParams => exact (Bool.and_eq_true _ _ ▸ delivered).1
  | expiry context => cases delivered

/-- A property that every move of an executing system keeps is kept by every step. -/
theorem step_keeps {I : System → Prop}
    (keeps : ∀ s label s', I s → s.app.halted = none → Moves s label s' → I s') (s : System)
    (label : SystemStep) (holds : I s) : I (s.step label) := by
  -- A system that no longer executes stands still.
  unfold step
  split
  · exact holds
  · rename_i live
    exact keeps s label _ holds live (s.stepLive_moves label)

/-- Under the interrupt controller, the main loop only moves without a pending list handler. -/
theorem stepPreempted_keeps {I : System → Prop}
    (keeps : ∀ s label s', I s → s.app.halted = none → Moves s label s' →
      (inMainLoop label = true → s.app.ext.timer.rtc.swi0Pending = false) → I s')
    (s : System) (label : SystemStep) (holds : I s) : I (s.stepPreempted label) := by
  -- A label of the main loop is passed over while the list handler is pending.
  unfold stepPreempted
  split
  · -- The main loop has to wait.
    exact holds
  · rename_i prompt
    unfold step
    split
    · exact holds
    · rename_i live
      refine keeps s label _ holds live (s.stepLive_moves label) fun main => ?_
      simpa [main] using prompt

/-- The statics agree with the record, and only the negotiation timer is in use. -/
structure Sound (s : System) : Prop where
  agrees : Agrees connParamsTimer s.app
  sole : SoleTimer s.app.ext.timer

/-- Entering an interrupt leaves the timers and their queues alone. -/
theorem enterRtc1_sole {timer : HubTimer} (sole : SoleTimer timer) : SoleTimer timer.enterRtc1 :=
  sole.congr rfl rfl rfl

/-- So does entering the software interrupt. -/
theorem enterSwi0_sole {timer : HubTimer} (sole : SoleTimer timer) : SoleTimer timer.enterSwi0 :=
  sole.congr rfl rfl rfl

/-- A handler of the main loop keeps the system sound. -/
theorem Sound.handle {s : System} (sound : Sound s) (live : s.app.halted = none) (device : Device)
    (input : Input) : Sound (s.handle device input) := by
  -- The statics follow the plan, and the timer module sees only the planned calls.
  refine ⟨?_, ?_⟩
  · rw [handle_app live]
    exact sound.agrees.reactLive live _ input
  -- The calls of the plan concern no other timer, and each of them keeps it the only one.
  rw [handle_app live]
  refine App.reactLive_keeps (I := fun env : Env => SoleTimer env.timer) ?_ sound.sole
  intro call member env sole
  refine answer_sole (fun timerId concerns => ?_) sole
  rw [planned_timer member timerId concerns, (sound.agrees live).timer]

/-- Whatever happens to the queue, the system stays sound. -/
theorem Sound.requeue {s : System} (sound : Sound s) (queue : SchedQueue) :
    Sound (s.within ⟨s.app.ext.timer, queue⟩) := ⟨sound.agrees, sound.sole⟩

/-- Every move keeps the system sound. -/
theorem Sound.moves {s s' : System} {label : SystemStep} (sound : Sound s)
    (live : s.app.halted = none) (moves : Moves s label s') : Sound s' := by
  -- Interrupts leave the statics alone, and the queue says nothing about the timers.
  cases moves with
  | idle _ pulling => exact ⟨sound.agrees, sound.sole⟩
  | overflow =>
    -- A system that was reset has no statics to agree with the record.
    refine ⟨fun goesOn => ?_, sound.sole⟩
    simp [System.overflow, App.step, live] at goesOn
  | expire counter queue contents =>
    exact ⟨sound.agrees, ((enterRtc1_sole sound.sole).timerTimeoutsCheck counter).1⟩
  | workOff preCounter postCounter =>
    exact ⟨sound.agrees, ((enterSwi0_sole sound.sole).timerListHandler preCounter postCounter).sole⟩
  | post queue contents => exact sound.requeue queue
  | take device entry queue pulling contents other => exact ⟨sound.agrees, sound.sole⟩
  | timeOut device context posted queue contents => exact (sound.requeue queue).handle live device _
  | dispatch device input delivered => exact sound.handle live device input

/-- The timer module is sound when main enters its loop. -/
theorem initialTimer_sole (counter : UInt32) : SoleTimer (initialTimer counter) := by
  -- Both timers are allocated, and neither of them has been started.
  refine ⟨⟨?_, ?_, ?_, ?_⟩, ?_, ?_⟩
  · rfl
  · intro running
    rfl
  · rfl
  · rfl
  · intro userId _
    rfl
  · intro op member
    exact absurd member (List.not_mem_nil)

/-- The system is sound when main enters its loop. -/
theorem boot_sound (counter : UInt32) : Sound (boot counter) :=
  ⟨fun _ => Tracks.boot connParamsTimer, initialTimer_sole counter⟩

end System

end BleHub
