import BleHub.Lib.History
import BleHub.Proofs.Coherence
import BleHub.Proofs.Negotiation
import BleHub.Proofs.System
import BleHub.Proofs.TimerContexts

/-! Exactly when a timeout of one connection takes effect in the next. -/

namespace BleHub

/--
Every timeout that takes effect was started in the connection it takes effect in.

The context of a timeout is the number of connections when its timer was started.
-/
def NeverLeaks (past : List Reaction) : Prop :=
  History.Always (fun reaction before => ∀ context,
    reaction.input = .expiry context → reaction.made ≠ [] → context = epoch before) past

/-- A timeout without a connection has no effect: no call is made and no variable changes. -/
theorem expiry_idle {timerId : Nat} {s : Statics} {past : List Reaction} (context : Nat)
    (tracks : Tracks timerId s past) (idle : link past = none) :
    planned s (.expiry context) = [] ∧ next s (.expiry context) = s := by
  -- The module has forgotten the handle, which is the first thing that its handler tests.
  have none : s.connParams.connHandle = bleConnHandleInvalid := by
    rw [tracks.connParamsHandle, idle]
    rfl
  exact ⟨if_pos none, if_pos none⟩

/-- Only a new connection advances the number of connections. -/
theorem epoch_cons {reaction : Reaction} {past : List Reaction}
    (stays : ∀ connHandle connParams,
      reaction.input ≠ .event (.gapConnected connHandle connParams)) :
    epoch (reaction :: past) = epoch past := by
  rw [epoch]
  split
  · rename_i connHandle connParams same
    exact absurd same (stays connHandle connParams)
  · rfl

namespace System

/-- The negotiation timer was not started before the current connection, nor is it without one. -/
structure Fresh (s : System) : Prop where
  started : Carries (· ≤ epoch s.app.past) s.app.ext.timer
  posted : ∀ timeoutHandler context posted,
    SchedEvent.appTimerEvt timeoutHandler context posted ∈ s.app.ext.queue.contents →
      context ≤ posted ∧ posted ≤ epoch s.app.past ∧
        (posted = epoch s.app.past → link s.app.past ≠ none → context = epoch s.app.past)
  connected : link s.app.past ≠ none → Carries (· = epoch s.app.past) s.app.ext.timer
  idle : link s.app.past = none → Stopping connParamsTimer s.app.ext.timer
  scheduled : Scheduled s.app.ext.timer

/-- A call to the timer module hands over at most the number of connections. -/
theorem answer_carries {P : Nat → Prop} {device : Device} {connections : Nat} {call : Call}
    {env : Env} (fresh : P connections) (carries : Carries P env.timer) :
    Carries P (Env.answer device connections call env).2.timer := by
  cases call with
  | appTimerStart timerId ticks => exact carries.appTimerStart _ _ _ _ fresh
  | appTimerStop timerId => exact carries.appTimerStop _ _
  | _ => exact carries

/-- A call to the timer module makes the list handler pending if it queues anything. -/
theorem answer_scheduled {device : Device} {connections : Nat} {call : Call} {env : Env}
    (scheduled : Scheduled env.timer) :
    Scheduled (Env.answer device connections call env).2.timer := by
  cases call with
  | appTimerStart timerId ticks => exact scheduled.appTimerStart _ _ _ _ _
  | appTimerStop timerId => exact scheduled.appTimerStop _ _
  | _ => exact scheduled

/-- A handler keeps what every call of the application keeps. -/
theorem handle_keeps {I : Env → Prop} {s : System} (live : s.app.halted = none) (device : Device)
    (input : Input)
    (keeps : ∀ call ∈ planned s.app.statics input, ∀ env, I env →
      I (Env.answer device (epoch (⟨input, []⟩ :: s.app.past)) call env).2)
    (holds : I s.app.ext) : I (s.handle device input).app.ext := by
  rw [handle_app live]
  exact App.reactLive_keeps keeps holds

/-- No handler touches the scheduler queue. -/
theorem handle_queue {s : System} (live : s.app.halted = none) (device : Device) (input : Input) :
    (s.handle device input).app.ext.queue = s.app.ext.queue :=
  handle_keeps (I := fun env => env.queue = s.app.ext.queue) live device input
    (fun call _ env same => (Env.answer_queue device _ call env).trans same) rfl

/-- The timer rests once no operation waits for a stopping timer. -/
theorem carries_of_stopping {P : Nat → Prop} {timer : HubTimer} (sole : SoleTimer timer)
    (stopping : Stopping connParamsTimer timer) (nothing : timer.waiting = []) :
    Carries P timer := by
  -- Neither the list nor any queue holds anything that has a context.
  have rests : (timer.nodes connParamsTimer).isRunning = false := by
    cases running : (timer.nodes connParamsTimer).isRunning with
    | false => rfl
    | true => exact absurd nothing (stopping.2 running)
  refine ⟨fun timerId member => ?_, fun userId op member => ?_⟩
  · rw [sole.alone.listed, rests] at member
    simp at member
  · by_cases thread : userId = threadModeUserId
    · subst thread
      rw [AppTimer.waiting] at nothing
      rw [nothing] at member
      simp at member
    · rw [sole.queued.thread userId thread] at member
      simp at member

/-- Without a connection, only a new one makes a call to the timer module. -/
theorem planned_untimed {s : Statics} {past : List Reaction} {input : Input}
    (tracks : Tracks connParamsTimer s past) (idle : link past = none)
    (allowed : permitted input past = true)
    (stays : ∀ connHandle connParams, input ≠ .event (.gapConnected connHandle connParams)) :
    ∀ call ∈ planned s input, call.timerId? = none := by
  -- All other events that make such a call belong to a connection.
  cases input with
  | event bleEvt =>
    cases bleEvt with
    | gapConnected connHandle connParams => exact absurd rfl (stays connHandle connParams)
    | gapTimeout connHandle src =>
      simp only [planned, Input.event?, plannedOnEvt]
      split
      · simp [Call.timerId?]
      · simp
    | other evtId => simp [planned, Input.event?, plannedOnEvt]
    | _ => simp [permitted, BleEvt.scope?, idle] at allowed
  | answer connHandle connParams => simp [permitted, idle] at allowed
  | expiry context => simp [(expiry_idle context tracks idle).1]

/-- The end of a connection stops the timer. -/
theorem stopping_of_disconnected {s : System} {device : Device} {connHandle : ConnHandle}
    (sound : Sound s) (live : s.app.halted = none) (nothing : s.app.ext.timer.waiting = [])
    (goesOn : (s.handle device (.event (.gapDisconnected connHandle))).app.halted = none) :
    Stopping connParamsTimer
      (s.handle device (.event (.gapDisconnected connHandle))).app.ext.timer := by
  have timer := (sound.agrees live).timer
  rw [handle_app live] at goesOn ⊢
  -- Advertising is started first, so the stop is only reached if that succeeds.
  have plan : planned s.app.statics (.event (.gapDisconnected connHandle)) =
      [.gapAdvStart advParams, .appTimerStop connParamsTimer] := by
    rw [← timer]
    rfl
  obtain ⟨ext, stopped⟩ := App.reactLive_pair_ext plan goesOn
  -- The stop is the only operation that waits, since none did before.
  have waiting := sound.sole.appTimerStop.2 stopped
  rw [nothing, List.nil_append] at waiting
  rw [ext]
  refine ⟨fun op member => ?_, fun _ => ?_⟩
  · have member : op ∈ [TimerUserOp.stop connParamsTimer] := waiting ▸ member
    rw [List.mem_singleton.mp member]
    rfl
  · intro none
    have none : [TimerUserOp.stop connParamsTimer] = ([] : List (TimerUserOp Nat _)) :=
      waiting.symm.trans none
    cases none

/-- The record of a handler tells as many connections as the handler itself was told. -/
theorem handle_epoch {s : System} (live : s.app.halted = none) (device : Device) (input : Input) :
    epoch (s.handle device input).app.past = epoch (⟨input, []⟩ :: s.app.past) := by
  obtain ⟨calls, reacts⟩ := handle_reacts live device input
  rw [reacts.past]
  rfl

/-- A handler changes the connection as its input says. -/
theorem handle_link {s : System} (live : s.app.halted = none) (device : Device) (input : Input) :
    link (s.handle device input).app.past = linkOn input (link s.app.past) := by
  obtain ⟨calls, reacts⟩ := handle_reacts live device input
  rw [reacts.past]
  rfl

/-- What a handler starts is started in the connection it leads to. -/
theorem handle_carries {P : Nat → Prop} {s : System} (live : s.app.halted = none) (device : Device)
    {input : Input} (new : P (epoch (⟨input, []⟩ :: s.app.past)))
    (carries : Carries P s.app.ext.timer) : Carries P (s.handle device input).app.ext.timer :=
  handle_keeps (I := fun env : Env => Carries P env.timer) live device input
    (fun _ _ _ => answer_carries new) carries

/-- A handler that queues an operation makes the list handler pending. -/
theorem handle_scheduled {s : System} (live : s.app.halted = none) (device : Device)
    (input : Input) (scheduled : Scheduled s.app.ext.timer) :
    Scheduled (s.handle device input).app.ext.timer :=
  handle_keeps (I := fun env : Env => Scheduled env.timer) live device input
    (fun _ _ _ => answer_scheduled) scheduled

/-- A new connection finds the timer at rest, and whatever it starts is its own. -/
theorem Fresh.handle_connected {s : System} {connHandle : ConnHandle} {connParams : GapConnParams}
    (fresh : Fresh s) (sound : Sound s) (live : s.app.halted = none) (device : Device)
    (allowed : permitted (.event (.gapConnected connHandle connParams)) s.app.past = true)
    (prompt : s.app.ext.timer.rtc.swi0Pending = false) :
    Fresh (s.handle device (.event (.gapConnected connHandle connParams))) := by
  -- The stack connects only without a connection, and with a valid handle.
  simp only [permitted, Bool.and_eq_true, Option.isNone_iff_eq_none, decide_eq_true_eq] at allowed
  obtain ⟨idle, valid⟩ := allowed
  have now := handle_epoch live device (.event (.gapConnected connHandle connParams))
  have more : epoch (s.handle device (.event (.gapConnected connHandle connParams))).app.past =
      epoch s.app.past + 1 := now
  -- No operation waits, so the timer that was stopping has stopped.
  have rests : ∀ P, Carries P s.app.ext.timer := fun P =>
    carries_of_stopping sound.sole (fresh.idle idle) (fresh.scheduled prompt)
  refine ⟨?_, ?_, fun _ => ?_, fun none => ?_, handle_scheduled live device _ fresh.scheduled⟩
  · exact handle_carries live device now.ge (rests _)
  · -- Everything in the queue was posted in an earlier connection.
    intro timeoutHandler context posted member
    rw [handle_queue live] at member
    obtain ⟨order, before, -⟩ := fresh.posted timeoutHandler context posted member
    rw [more]
    exact ⟨order, by omega, fun same => by omega⟩
  · exact handle_carries live device now.symm (rests _)
  · -- There is a connection now.
    rw [handle_link live] at none
    simp [linkOn, validHandle, valid] at none

/-- Any other input leaves the timer fresh. -/
theorem Fresh.handle_stays {s : System} (fresh : Fresh s) (sound : Sound s)
    (live : s.app.halted = none) (device : Device) {input : Input}
    (stays : ∀ connHandle connParams, input ≠ .event (.gapConnected connHandle connParams))
    (allowed : permitted input s.app.past = true)
    (prompt : s.app.ext.timer.rtc.swi0Pending = false)
    (goesOn : (s.handle device input).app.halted = none) : Fresh (s.handle device input) := by
  have tag : epoch (⟨input, []⟩ :: s.app.past) = epoch s.app.past := epoch_cons stays
  have same := (handle_epoch live device input).trans tag
  have links := handle_link live device input
  -- A connection that is up now has been up before.
  have before : link (s.handle device input).app.past ≠ none → link s.app.past ≠ none := by
    intro up
    by_cases ended : ∃ connHandle, input = .event (.gapDisconnected connHandle)
    · obtain ⟨connHandle, rfl⟩ := ended
      rw [links] at up
      exact absurd rfl up
    · rw [links, linkOn_quiet stays fun connHandle same => ended ⟨connHandle, same⟩] at up
      exact up
  refine ⟨?_, ?_, ?_, ?_, handle_scheduled live device input fresh.scheduled⟩
  · rw [same]
    exact handle_carries live device tag.le fresh.started
  · -- The queue is the same, and so is the connection.
    intro timeoutHandler context posted member
    rw [handle_queue live] at member
    rw [same]
    obtain ⟨order, bound, exact_⟩ := fresh.posted timeoutHandler context posted member
    exact ⟨order, bound, fun here up => exact_ here (before up)⟩
  · intro up
    rw [same]
    exact handle_carries live device tag (fresh.connected (before up))
  · intro none
    cases up : link s.app.past with
    | none =>
      -- Without a connection nothing is asked of the timer module.
      have untouched := planned_untimed (sound.agrees live) up allowed stays
      have ext : (s.handle device input).app.ext = s.app.ext :=
        handle_keeps (I := fun env => env = s.app.ext) live device input
          (fun call member env unchanged => by
            rw [Env.answer_other env (untouched call member), unchanged]) rfl
      rw [ext]
      exact fresh.idle up
    | some connHandle =>
      -- Only the end of a connection leaves none behind.
      have ended : ∃ connHandle, input = .event (.gapDisconnected connHandle) := by
        by_contra lasts
        rw [links, linkOn_quiet stays fun connHandle same => lasts ⟨connHandle, same⟩, up] at none
        cases none
      obtain ⟨gone, rfl⟩ := ended
      exact stopping_of_disconnected sound live (fresh.scheduled prompt) goesOn

/-- Handling an input keeps the timer fresh, if the list handler is not pending. -/
theorem Fresh.handle {s : System} (fresh : Fresh s) (sound : Sound s)
    (live : s.app.halted = none) (device : Device) (input : Input)
    (allowed : permitted input s.app.past = true)
    (prompt : s.app.ext.timer.rtc.swi0Pending = false)
    (goesOn : (s.handle device input).app.halted = none) : Fresh (s.handle device input) := by
  by_cases new : ∃ connHandle connParams, input = .event (.gapConnected connHandle connParams)
  · obtain ⟨connHandle, connParams, rfl⟩ := new
    exact fresh.handle_connected sound live device allowed prompt
  · refine fresh.handle_stays sound live device ?_ allowed prompt goesOn
    exact fun connHandle connParams same => new ⟨connHandle, connParams, same⟩

/-- Entering an interrupt changes nothing of what the timer module carries. -/
theorem enterRtc1_carries {P : Nat → Prop} {timer : HubTimer} (carries : Carries P timer) :
    Carries P timer.enterRtc1 := ⟨carries.running, carries.queued⟩

/-- Neither does entering the software interrupt. -/
theorem enterSwi0_carries {P : Nat → Prop} {timer : HubTimer} (carries : Carries P timer) :
    Carries P timer.enterSwi0 := ⟨carries.running, carries.queued⟩

/-- The timer interrupt posts what was started in this connection, and stops nothing. -/
theorem Fresh.expire {s : System} (fresh : Fresh s) (counter : UInt32) {queue : SchedQueue}
    (contents : queue.contents = s.app.ext.queue.contents ++
      (s.app.ext.timer.enterRtc1.timerTimeoutsCheck counter).1.map fun event =>
        .appTimerEvt event.1 event.2 (epoch s.app.past)) :
    Fresh (s.within ⟨(s.app.ext.timer.enterRtc1.timerTimeoutsCheck counter).2, queue⟩) := by
  obtain ⟨nodes, users, pending⟩ := timerTimeoutsCheck_frame s.app.ext.timer.enterRtc1 counter
  have waiting : (s.app.ext.timer.enterRtc1.timerTimeoutsCheck counter).2.waiting =
      s.app.ext.timer.waiting := by
    rw [AppTimer.waiting, users]
    rfl
  -- The contexts are only handed on, and none is changed.
  have started := (enterRtc1_carries fresh.started).timerTimeoutsCheck counter
  have connected := fun up => (enterRtc1_carries (fresh.connected up)).timerTimeoutsCheck counter
  refine ⟨started.2, ?_, fun up => (connected up).2, fun none => ⟨?_, ?_⟩, fun idle => ?_⟩
  · intro timeoutHandler context posted member
    simp only [System.within, App.within_ext, contents, List.mem_append] at member
    rcases member with before | new
    · exact fresh.posted timeoutHandler context posted before
    · -- A new entry is posted now, with a context that the timer module carries.
      obtain ⟨event, expired, same⟩ := List.mem_map.mp new
      cases same
      exact ⟨started.1 event expired, le_refl _, fun _ up => (connected up).1 event expired⟩
  · -- The operations that wait are those of before.
    intro op member
    exact (fresh.idle none).1 op (waiting ▸ member)
  · -- The node is marked as running as it was before.
    intro running nothing
    have running : (s.app.ext.timer.nodes connParamsTimer).isRunning = true := by
      have same := congrFun nodes connParamsTimer
      exact same ▸ running
    exact (fresh.idle none).2 running (waiting ▸ nothing)
  · -- Nothing waited without the list handler being pending.
    exact waiting.trans (fresh.scheduled (pending idle))

/-- The list handler leaves no operation behind, and a timer that was stopping has stopped. -/
theorem Fresh.workOff {s : System} (fresh : Fresh s) (sound : Sound s)
    (preCounter postCounter : UInt32) :
    Fresh (s.within ⟨s.app.ext.timer.enterSwi0.timerListHandler preCounter postCounter,
      s.app.ext.queue⟩) := by
  -- The list handler carries out all that waits.
  have worked := (enterSwi0_sole sound.sole).timerListHandler preCounter postCounter
  refine ⟨?_, fresh.posted, fun up => ?_, fun none => ⟨fun op member => ?_, fun running => ?_⟩,
    fun _ => worked.waiting⟩
  · exact (enterSwi0_carries fresh.started).timerListHandler preCounter postCounter
  · exact (enterSwi0_carries (fresh.connected up)).timerListHandler preCounter postCounter
  · rw [System.within, App.within_ext, worked.waiting] at member
    simp at member
  · have resting := worked.rests (fresh.idle none)
    exact absurd running (by rw [System.within, App.within_ext, resting]; simp)

/-- A queue without new timeouts leaves the timer fresh. -/
theorem Fresh.requeue {s : System} (fresh : Fresh s) {queue : SchedQueue}
    (fewer : ∀ timeoutHandler context posted,
      SchedEvent.appTimerEvt timeoutHandler context posted ∈ queue.contents →
        SchedEvent.appTimerEvt timeoutHandler context posted ∈ s.app.ext.queue.contents) :
    Fresh (s.within ⟨s.app.ext.timer, queue⟩) :=
  ⟨fresh.started, fun timeoutHandler context posted member =>
    fresh.posted timeoutHandler context posted (fewer timeoutHandler context posted member),
    fresh.connected, fresh.idle, fresh.scheduled⟩

/-- Every move of an executing system keeps the timer fresh, under the interrupt controller. -/
theorem Fresh.moves {s s' : System} {label : SystemStep} (fresh : Fresh s) (sound : Sound s)
    (live : s.app.halted = none) (moves : Moves s label s')
    (prompt : inMainLoop label = true → s.app.ext.timer.rtc.swi0Pending = false)
    (goesOn : s'.app.halted = none) : Fresh s' := by
  -- Only the main loop lets the application react, and never with the handler pending.
  cases moves with
  | idle _ pulling =>
    exact ⟨fresh.started, fresh.posted, fresh.connected, fresh.idle, fresh.scheduled⟩
  | overflow => simp [System.overflow, App.step, live] at goesOn
  | expire counter queue contents => exact fresh.expire counter contents
  | workOff preCounter postCounter => exact fresh.workOff sound preCounter postCounter
  | post queue contents =>
    refine fresh.requeue fun timeoutHandler context posted member => ?_
    rw [contents, List.mem_append, List.mem_singleton] at member
    exact member.resolve_right (by simp)
  | take device entry queue pulling contents other =>
    have taken : Fresh (s.within ⟨s.app.ext.timer, queue⟩) :=
      fresh.requeue fun _ _ _ member => contents ▸ List.mem_cons_of_mem _ member
    exact ⟨taken.started, taken.posted, taken.connected, taken.idle, taken.scheduled⟩
  | timeOut device context posted queue contents =>
    have taken : Fresh (s.within ⟨s.app.ext.timer, queue⟩) :=
      fresh.requeue fun _ _ _ member => contents ▸ List.mem_cons_of_mem _ member
    exact taken.handle (sound.requeue queue) live device _ rfl (prompt rfl) goesOn
  | dispatch device input delivered =>
    exact fresh.handle sound live device input (permitted_of_deliverable delivered) (prompt rfl)
      goesOn

/-- The timer is fresh when main enters its loop. -/
theorem boot_fresh (counter : UInt32) : Fresh (boot counter) := by
  have rests : ∀ P : Nat → Prop, Carries P (initialTimer counter) := fun P =>
    carries_of_stopping (initialTimer_sole counter)
      ⟨fun op member => absurd member List.not_mem_nil, fun running => by cases running⟩ rfl
  refine ⟨rests _, ?_, fun _ => rests _, fun _ => ?_, fun _ => rfl⟩
  · intro timeoutHandler context posted member
    simp [boot, App.boot] at member
  · exact ⟨fun op member => absurd member List.not_mem_nil, fun running => by cases running⟩

/-! ### Timeouts that take effect -/

/--
A timeout that the main loop is about to run in a connection was posted by the timer interrupt
after that connection had been dispatched.
-/
def RunsInTime (s : System) : SystemStep → Prop
  | .appSchedEventGet _ =>
    s.app.halted = none → s.pulling = false → s.app.ext.timer.rtc.swi0Pending = false →
      link s.app.past ≠ none → ∀ context posted,
        s.app.ext.queue.contents.head? =
          some (.appTimerEvt (some .updateTimeoutHandler) context posted) →
            posted = epoch s.app.past
  | _ => True

/-- A reaction to anything but an expiry leaks nothing. -/
theorem neverLeaks_cons {reaction : Reaction} {past : List Reaction}
    (other : ∀ context, reaction.input ≠ .expiry context) :
    NeverLeaks (reaction :: past) ↔ NeverLeaks past := by
  simp only [NeverLeaks, History.always_cons, and_iff_right_iff_imp]
  intro _ context expiry
  exact absurd expiry (other context)

/-- A timeout leaks exactly if it takes effect and was started before the connection. -/
theorem neverLeaks_handle {s : System} (sound : Sound s) (live : s.app.halted = none)
    (device : Device) (context : Nat) :
    NeverLeaks (s.handle device (.expiry context)).app.past ↔
      (link s.app.past ≠ none → context = epoch s.app.past) ∧ NeverLeaks s.app.past := by
  obtain ⟨calls, reacts⟩ := handle_reacts live device (.expiry context)
  have tracks := sound.agrees live
  rw [reacts.past]
  simp only [NeverLeaks, History.always_cons, Input.expiry.injEq, forall_eq']
  refine and_congr_left fun _ => ?_
  cases up : link s.app.past with
  | none =>
    -- Without a connection it has no effect.
    have none : Reaction.made ⟨.expiry context, calls⟩ = [] := by
      have made := reacts.performs.made
      rw [(expiry_idle context tracks up).1] at made
      exact List.prefix_nil.mp made
    simp [none]
  | some connHandle =>
    -- With one it always makes a call.
    have some_ := reacts.performs.single (planned_expiry tracks up)
    simp [some_]

/-- Taking the next entry leaks nothing exactly if its timeout is run in time. -/
theorem appSchedEventGet_leaks_iff {s : System} (device : Device) (sound : Sound s)
    (fresh : Fresh s) (live : s.app.halted = none)
    (prompt : s.app.ext.timer.rtc.swi0Pending = false) (good : NeverLeaks s.app.past) :
    NeverLeaks (s.stepLive (.appSchedEventGet device)).app.past ↔
      RunsInTime s (.appSchedEventGet device) := by
  simp only [RunsInTime, live, prompt, stepLive, true_implies]
  -- While stack events are pulled no entry is taken.
  cases pulling : s.pulling with
  | true => simpa using good
  | false =>
    simp only [Bool.false_eq_true, if_false, true_implies]
    rcases s.app.ext.queue.pop_spec with ⟨contents, empty⟩ | ⟨entry, queue, popped, contents⟩
    · simpa [empty, contents] using good
    · simp only [popped, contents, List.head?_cons, Option.some.injEq]
      -- Only an expiry of the negotiation timer is more than taken from the queue.
      have quiet : (s.within ⟨s.app.ext.timer, queue⟩).app.past = s.app.past := rfl
      cases entry with
      | bleStackEvt => simpa [runEntry, quiet] using good
      | appTimerEvt timeoutHandler context posted =>
        cases timeoutHandler with
        | none => simpa [runEntry, quiet] using good
        | some handler =>
          cases handler with
          | detectionDelayTimeoutHandler => simpa [runEntry, quiet] using good
          | updateTimeoutHandler =>
            have sound' := sound.requeue queue
            have order := fresh.posted (some .updateTimeoutHandler) context posted
              (by rw [contents]; exact List.mem_cons_self)
            simp only [runEntry, neverLeaks_handle sound' live, quiet, good, and_true,
              SchedEvent.appTimerEvt.injEq, true_and]
            constructor
            · -- Started in this connection, it cannot have been posted before.
              rintro started up _ _ ⟨rfl, rfl⟩
              have now := started up
              omega
            · intro inTime up
              exact order.2.2 (inTime up _ _ ⟨rfl, rfl⟩) up

/-- A step keeps the record free of leaks exactly if it runs its timeout in time. -/
theorem stepPreempted_leaks_iff {s : System} (label : SystemStep) (sound : Sound s)
    (fresh : s.app.halted = none → Fresh s) (good : NeverLeaks s.app.past) :
    NeverLeaks (s.stepPreempted label).app.past ↔ RunsInTime s label := by
  cases live : s.app.halted with
  | some halt =>
    -- A system that no longer executes records nothing more.
    have same : s.stepPreempted label = s := by simp [stepPreempted, step, live]
    rw [same]
    cases label with
    | appSchedEventGet device => simpa [RunsInTime, live] using good
    | _ => simpa [RunsInTime] using good
  | none =>
    -- A step that is not held back is one of the machine without priorities.
    have stepped : ∀ label, inMainLoop label = false ∨ s.app.ext.timer.rtc.swi0Pending = false →
        s.stepPreempted label = s.stepLive label := by
      rintro label (interrupt | prompt)
      · simp [stepPreempted, step, live, interrupt]
      · simp [stepPreempted, step, live, prompt]
    cases label with
    | rtc1IrqHandler counter =>
      -- The handlers of interrupts only move timeouts, and run none.
      rw [stepped _ (.inl rfl), stepLive]
      split
      · simpa [RunsInTime, within] using good
      · simpa [RunsInTime, overflow, App.step] using good
    | swi0IrqHandler preCounter postCounter =>
      rw [stepped _ (.inl rfl), stepLive]
      split
      · simpa [RunsInTime, within] using good
      · simpa [RunsInTime] using good
    | swi2IrqHandler =>
      rw [stepped _ (.inl rfl), stepLive]
      split
      · simpa [RunsInTime, within] using good
      · simpa [RunsInTime, overflow, App.step] using good
    | appSchedEventGet device =>
      -- The main loop is held back while the list handler is pending, and records nothing.
      cases prompt : s.app.ext.timer.rtc.swi0Pending with
      | true => simpa [stepPreempted, inMainLoop, prompt, RunsInTime] using good
      | false =>
        rw [stepped _ (.inr prompt)]
        exact appSchedEventGet_leaks_iff device sound (fresh live) live prompt good
    | sdBleEvtGet device input =>
      cases prompt : s.app.ext.timer.rtc.swi0Pending with
      | true => simpa [stepPreempted, inMainLoop, prompt, RunsInTime] using good
      | false =>
        rw [stepped _ (.inr prompt), stepLive]
        split
        · -- The stack never delivers an expiry.
          rename_i delivered
          obtain ⟨calls, reacts⟩ := handle_reacts live device input
          have other : ∀ context, input ≠ .expiry context := by
            rintro context rfl
            simp [deliverable] at delivered
          rw [reacts.past, neverLeaks_cons other]
          simpa [RunsInTime] using good
        · simpa [RunsInTime] using good
    | sdBleEvtNotFound =>
      cases prompt : s.app.ext.timer.rtc.swi0Pending with
      | true => simpa [stepPreempted, inMainLoop, prompt, RunsInTime] using good
      | false =>
        rw [stepped _ (.inr prompt)]
        simpa [stepLive, RunsInTime] using good

/-- A leak stays on record. -/
theorem leak_stays {s : System} (label : SystemStep) (leak : ¬ NeverLeaks s.app.past) :
    ¬ NeverLeaks (s.stepPreempted label).app.past := by
  refine stepPreempted_keeps (I := fun s => ¬ NeverLeaks s.app.past) ?_ s label leak
  intro s label s' leak live moves _
  -- The record only ever grows.
  have handled : ∀ (t : System) device input, t.app.halted = none →
      t.app.past = s.app.past → ¬ NeverLeaks (t.handle device input).app.past := by
    intro t device input live same
    obtain ⟨calls, reacts⟩ := handle_reacts live device input
    rw [reacts.past, same]
    exact fun never => leak never.2
  cases moves with
  | timeOut device context posted queue contents => exact handled _ device _ live rfl
  | dispatch device input delivered => exact handled s device input live rfl
  | _ => exact leak

/--
Under the interrupt controller, timeouts never leak into the next connection in exactly those
runs in which every timeout that is run in a connection was posted in that connection.
-/
theorem neverLeaks_iff_runsInTime (counter : UInt32) (labels : List SystemStep) :
    NeverLeaks (afterPreempted counter labels).app.past ↔
      StepMachine.Throughout stepPreempted RunsInTime (boot counter) labels := by
  -- A leak on record absorbs, and at each step it is avoided exactly by meeting the condition.
  rw [← not_not (a := NeverLeaks _)]
  have absorbs : ∀ (s : System) label, ¬ NeverLeaks s.app.past →
      ¬ NeverLeaks (s.stepPreempted label).app.past := fun _ label => leak_stays label
  refine StepMachine.avoids_iff_throughout
    (I := fun s => Sound s ∧ (s.app.halted = none → Fresh s)) absorbs ?_ ?_ labels _ ?_ ?_
  · refine stepPreempted_keeps ?_
    rintro s label s' ⟨sound, fresh⟩ live moves prompt
    exact ⟨sound.moves live moves, (fresh live).moves sound live moves prompt⟩
  · rintro s label ⟨sound, fresh⟩ good
    rw [not_not] at good ⊢
    exact stepPreempted_leaks_iff label sound fresh good
  · exact ⟨boot_sound counter, fun _ => boot_fresh counter⟩
  · exact fun leak => leak trivial

/--
A disconnection that waits in front of an expiry, and a new connection that is pulled with it.

The negotiation timer of the first connection expires twenty seconds after its start.
-/
def reconnection : List SystemStep :=
  let device (counter : UInt32) : Device := ⟨fun _ => nrfSuccess, counter⟩
  [.swi2IrqHandler, .appSchedEventGet (device 0),
    .sdBleEvtGet (device 0) (.event (.gapConnected 0 ⟨6, 6, 0, 400⟩)), .swi0IrqHandler 0 0,
    .sdBleEvtNotFound,
    .swi2IrqHandler, .rtc1IrqHandler 655360, .swi0IrqHandler 655360 655360,
    .appSchedEventGet (device 655361),
    .sdBleEvtGet (device 655361) (.event (.gapDisconnected 0)), .swi0IrqHandler 655362 655362,
    .sdBleEvtGet (device 656000) (.event (.gapConnected 0 ⟨6, 6, 0, 400⟩)),
    .swi0IrqHandler 656001 656001, .sdBleEvtNotFound,
    .appSchedEventGet (device 656002)]

/-- The expiry of the first connection makes a request in the second. -/
theorem not_neverLeaks_reconnection : ¬ NeverLeaks (afterPreempted 0 reconnection).app.past := by
  have newest : (afterPreempted 0 reconnection).app.past.head? =
      some ⟨.expiry 1, [(.gapConnParamUpdate 0 gapConnParams, nrfSuccess)]⟩ := by decide
  have connections : epoch (afterPreempted 0 reconnection).app.past.tail = 2 := by decide
  -- The timer was started in the first of two connections.
  generalize (afterPreempted 0 reconnection).app.past = past at newest connections
  intro never
  cases past with
  | nil => cases newest
  | cons reaction before =>
    cases newest
    have started : 1 = epoch before := never.1 1 rfl (by simp [Reaction.made])
    simp [← started] at connections

end System

end BleHub
