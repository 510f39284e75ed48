import BleHub.Proofs.Negotiation
import BleHub.Proofs.System

/-! A connection with unacceptable parameters is always being renegotiated or dropped. -/

namespace BleHub

/-- The negotiation starts its timer for unacceptable parameters. -/
theorem negotiationCalls_unacceptable {s : Statics}
    (preferred : s.connParams.preferredConnParams = gapConnParams)
    (unchanged : s.connParams.changeParam = false)
    (unacceptable : Unacceptable s.connParams.currentConnParams) :
    ∃ ticks, negotiationCalls s = [.appTimerStart s.connParams.connParamsTimerId ticks] := by
  -- How long it waits depends on the attempts so far, that it starts does not.
  have bad := isConnParamsOk_eq_false.mpr unacceptable
  simp [negotiationCalls, preferred, bad, unchanged]

/-- The call of an expiry leaves a request outstanding or a disconnect requested. -/
theorem underWay_of_expiryCall (connHandle : ConnHandle) (earlier context : Nat)
    (before : List Reaction) :
    let past := ⟨.expiry context, [(expiryCall connHandle earlier, nrfSuccess)]⟩ :: before
    0 < outstanding past ∨ 0 < drops past := by
  -- A call that acts against a connection is one or the other.
  have acts := expiryCall_acts connHandle earlier
  rw [Call.acts, Bool.or_eq_true] at acts
  rcases acts with requests | drops
  · exact .inl (by simp [outstanding, Reaction.accepted, requests])
  · exact .inr (by simp [BleHub.drops, countCalls, Reaction.made, drops])

namespace System

/-- The expiry of the negotiation timer waits in the scheduler queue. -/
def ExpiryWaits (queue : SchedQueue) : Prop :=
  ∃ context posted,
    SchedEvent.appTimerEvt (some .updateTimeoutHandler) context posted ∈ queue.contents

/-- The timer is armed, or its expiry waits, or a request is outstanding, or a drop requested. -/
def UnderWay (s : System) : Prop :=
  Armed connParamsTimer s.app.ext.timer ∨ ExpiryWaits s.app.ext.queue ∨
    0 < outstanding s.app.past ∨ 0 < drops s.app.past

/-- If a connection is up with unacceptable parameters, then something is under way. -/
def Attended (s : System) : Prop :=
  ∀ connHandle connParams, link s.app.past = some connHandle →
    reported s.app.past = some connParams → Unacceptable connParams → UnderWay s

/-- A reaction that touches neither the connection nor the timer leaves everything under way. -/
theorem Attended.quiet {s s' : System} {input : Input} {calls : List (Call × ErrCode)}
    (attended : Attended s) (past : s'.app.past = ⟨input, calls⟩ :: s.app.past)
    (ext : s'.app.ext = s.app.ext) (sameLink : ∀ up, linkOn input up = up)
    (sameReport : ∀ before, reportedOn input before = before)
    (sameRequests : ∀ n, answeredOn input n = n) (sameDrops : ∀ n, restartedOn input n = n) :
    Attended s' := by
  intro connHandle connParams up told bad
  rw [past] at up told
  simp only [link, sameLink] at up
  simp only [reported, sameReport] at told
  -- The counts of requests and drops can only grow.
  rcases attended connHandle connParams up told bad with armed | waits | requested | dropped
  · exact .inl (by rw [ext]; exact armed)
  · exact .inr (.inl (by rw [ext]; exact waits))
  · refine .inr (.inr (.inl ?_))
    rw [past, outstanding, sameRequests]
    omega
  · refine .inr (.inr (.inr ?_))
    rw [past, drops, countCalls, sameDrops]
    exact Nat.lt_add_right _ dropped

/-- A reaction that negotiates for unacceptable parameters arms the timer. -/
theorem armed_of_negotiation {s : System} {device : Device} {input : Input} (next : Statics)
    (sole : SoleTimer s.app.ext.timer) (live : s.app.halted = none)
    (goesOn : (s.handle device input).app.halted = none)
    (plan : planned s.app.statics input = negotiationCalls next)
    (timer : next.connParams.connParamsTimerId = connParamsTimer)
    (preferred : next.connParams.preferredConnParams = gapConnParams)
    (unchanged : next.connParams.changeParam = false)
    (bad : Unacceptable next.connParams.currentConnParams) :
    Armed connParamsTimer (s.handle device input).app.ext.timer := by
  obtain ⟨ticks, start⟩ := negotiationCalls_unacceptable preferred unchanged bad
  rw [timer] at start
  have single := plan.trans start
  rw [handle_app live] at goesOn ⊢
  rw [App.reactLive_single_ext single]
  -- The start was accepted, since the system goes on.
  rw [(App.reactLive_single single (by simp)).2] at goesOn
  refine (sole.appTimerStart device.counter ticks _).2 ?_
  by_contra refused
  rw [if_neg (by simpa [Env.answer] using refused)] at goesOn
  cases goesOn

/-- An expiry in a connection leads to a request or a disconnect. -/
theorem attended_expiry {s : System} (sound : Sound s) (live : s.app.halted = none)
    (device : Device) (context : Nat)
    (goesOn : (s.handle device (.expiry context)).app.halted = none) :
    Attended (s.handle device (.expiry context)) := by
  obtain ⟨calls, reacts⟩ := handle_reacts live device (.expiry context)
  -- Its one call succeeded, since the system goes on.
  intro connHandle _ up _ _
  have up : link s.app.past = some connHandle := by
    simpa [reacts.past, link, linkOn] using up
  have calls := reacts.succeeded goesOn
  rw [planned_expiry (sound.agrees live) up] at calls
  rw [UnderWay, reacts.past, calls]
  exact .inr (.inr (underWay_of_expiryCall connHandle _ context _))

/-- Handling an input keeps every connection attended. -/
theorem Attended.handle {s : System} (attended : Attended s) (sound : Sound s)
    (live : s.app.halted = none) (device : Device) (input : Input)
    (allowed : permitted input s.app.past = true)
    (goesOn : (s.handle device input).app.halted = none) : Attended (s.handle device input) := by
  have tracks := sound.agrees live
  obtain ⟨calls, reacts⟩ := handle_reacts live device input
  -- A plan without timer calls leaves the timer module and the queue alone.
  have untouched : (∀ call ∈ planned s.app.statics input, call.timerId? = none) →
      (s.handle device input).app.ext = s.app.ext := by
    intro others
    rw [handle_app live]
    refine App.reactLive_keeps (I := fun env => env = s.app.ext) ?_ rfl
    intro call member env unchanged
    rw [Env.answer_other env (others call member), unchanged]
  -- Only what reports parameters or ends the connection changes what has to be attended to.
  cases input with
  | event bleEvt =>
    cases bleEvt with
    | gapConnected connHandle connParams =>
      -- The parameters reported last are the ones that are negotiated.
      intro _ told _ report bad
      have this : told = connParams := by
        simpa [reacts.past, reported, reportedOn] using report.symm
      subst this
      exact .inl (armed_of_negotiation (connected s.app.statics connHandle told)
        sound.sole live goesOn rfl tracks.timer tracks.preferred tracks.unchanged bad)
    | gapConnParamUpdate connHandle connParams =>
      intro _ told _ report bad
      have this : told = connParams := by
        simpa [reacts.past, reported, reportedOn] using report.symm
      subst this
      exact .inl (armed_of_negotiation (reparametrised s.app.statics told)
        sound.sole live goesOn rfl tracks.timer tracks.preferred tracks.unchanged bad)
    | gapDisconnected connHandle =>
      -- No connection is left to attend to.
      intro _ _ up
      simp [reacts.past, link, linkOn] at up
    | gattsWrite connHandle write =>
      -- The descriptor that would stop the timer has the handle zero.
      have elsewhere : write.handle ≠ bleGattHandleInvalid := by
        simp only [permitted, Bool.and_eq_true, decide_eq_true_eq] at allowed
        exact allowed.2
      have none : planned s.app.statics (.event (.gattsWrite connHandle write)) = [] := by
        simp [planned, Input.event?, plannedOnEvt, GattsEvtWrite.startsNegotiation, elsewhere]
      exact attended.quiet reacts.past (untouched (by simp [none])) (fun _ => rfl) (fun _ => rfl)
        (fun _ => rfl) fun _ => rfl
    | gapTimeout connHandle src =>
      -- At most, a timeout switches the device off, which is no call on the timer.
      refine attended.quiet reacts.past (untouched ?_) (fun _ => rfl) (fun _ => rfl)
        (fun _ => rfl) fun _ => rfl
      simp only [planned, Input.event?, plannedOnEvt]
      split
      · simp [Call.timerId?]
      · simp
    | gapSecParamsRequest | gapSecInfoRequest | gapAuthStatus | gattsSysAttrMissing | other =>
      exact attended.quiet reacts.past
        (untouched (by simp [planned, Input.event?, plannedOnEvt, Call.timerId?]))
        (fun _ => rfl) (fun _ => rfl) (fun _ => rfl) fun _ => rfl
  | answer connHandle connParams =>
    intro _ told _ report bad
    have this : told = connParams := by
      simpa [reacts.past, reported, reportedOn] using report.symm
    subst this
    exact .inl (armed_of_negotiation (reparametrised s.app.statics told)
      sound.sole live goesOn rfl tracks.timer tracks.preferred tracks.unchanged bad)
  | expiry context => exact attended_expiry sound live device context goesOn

/-- A step of the environment keeps a connection attended if the timer does not get lost. -/
theorem Attended.within {s : System} {env : Env} (attended : Attended s)
    (timer : Armed connParamsTimer s.app.ext.timer →
      Armed connParamsTimer env.timer ∨ ExpiryWaits env.queue)
    (queue : ExpiryWaits s.app.ext.queue → ExpiryWaits env.queue) : Attended (s.within env) := by
  -- The record stays as it is, so only the first two ways can change.
  intro connHandle connParams up told bad
  rcases attended connHandle connParams up told bad with armed | waits | others
  · rcases timer armed with armed | waits
    · exact .inl armed
    · exact .inr (.inl waits)
  · exact .inr (.inl (queue waits))
  · exact .inr (.inr others)

/-- Every move of an executing system keeps every connection attended. -/
theorem Attended.moves {s s' : System} {label : SystemStep} (attended : Attended s)
    (sound : Sound s) (live : s.app.halted = none) (moves : Moves s label s')
    (goesOn : s'.app.halted = none) : Attended s' := by
  cases moves with
  | idle _ pulling => exact attended
  | overflow => simp [System.overflow, App.step, live] at goesOn
  | expire counter queue contents =>
    refine attended.within (fun armed => ?_) ?_
    · obtain ⟨-, handlers, armedOrPosted⟩ :=
        (enterRtc1_sole sound.sole).timerTimeoutsCheck counter
      rcases armedOrPosted armed with armed | some_
      · exact .inl armed
      · -- An expired timer is the negotiation timer, and its expiry has been posted.
        obtain ⟨event, member⟩ := List.exists_mem_of_ne_nil _ some_
        refine .inr ⟨event.2, epoch s.app.past, ?_⟩
        rw [contents, ← handlers event member]
        exact List.mem_append_right _ (List.mem_map_of_mem member)
    · rintro ⟨context, posted, member⟩
      exact ⟨context, posted, by rw [contents]; exact List.mem_append_left _ member⟩
  | workOff preCounter postCounter =>
    -- What was armed by a start that waits is armed by running now.
    exact attended.within (fun armed => .inl
      ((enterSwi0_sole sound.sole).armed_timerListHandler preCounter postCounter armed)) id
  | post queue contents =>
    refine attended.within .inl ?_
    rintro ⟨context, posted, member⟩
    exact ⟨context, posted, by rw [contents]; exact List.mem_append_left _ member⟩
  | take device entry queue pulling contents other =>
    -- The entry that is taken is not the one the connection waits for.
    have taken : Attended (s.within ⟨s.app.ext.timer, queue⟩) := by
      refine attended.within .inl ?_
      rintro ⟨context, posted, member⟩
      rw [contents] at member
      rcases List.mem_cons.mp member with same | rest
      · exact absurd same.symm (other context posted)
      · exact ⟨context, posted, rest⟩
    exact taken
  | timeOut device context posted queue contents =>
    -- The expiry that is taken from the queue is handled at once.
    exact attended_expiry (sound.requeue queue) live device context goesOn
  | dispatch device input delivered =>
    exact attended.handle sound live device input (permitted_of_deliverable delivered) goesOn

/-- In every reachable state, a connection with unacceptable parameters is attended to. -/
theorem attended_after (counter : UInt32) (labels : List SystemStep)
    (running : (after counter labels).app.halted = none) : Attended (after counter labels) := by
  -- The invariant is only claimed as long as the system executes.
  refine (StepMachine.run_invariant
    (I := fun s => Sound s ∧ (s.app.halted = none → Attended s)) ?_ labels (boot counter) ?_).2
      running
  · refine step_keeps ?_
    rintro s label s' ⟨sound, attended⟩ live moves
    exact ⟨sound.moves live moves, (attended live).moves sound live moves⟩
  · refine ⟨boot_sound counter, fun _ connHandle connParams up => ?_⟩
    cases up

/-- A SoftDevice that accepts every call, at some counter value. -/
def accepting (counter : UInt32) : Device := ⟨fun _ => nrfSuccess, counter⟩

/-- A link that is lost and comes back before the list handler has run. -/
theorem underWay_reconnection :
    UnderWay (after 0
      [.swi2IrqHandler, .appSchedEventGet (accepting 0),
        .sdBleEvtGet (accepting 0) (.event (.gapConnected 0 ⟨6, 6, 0, 400⟩)),
        .swi0IrqHandler 0 0,
        .sdBleEvtGet (accepting 9) (.event (.gapDisconnected 0)),
        .sdBleEvtGet (accepting 9) (.event (.gapConnected 3 ⟨6, 6, 0, 400⟩)),
        .sdBleEvtNotFound]) :=
  attended_after 0 _ (by decide) 3 ⟨6, 6, 0, 400⟩ (by decide) (by decide) (by decide)

end System

end BleHub
