import BleHub.Firmware.AppButton
import BleHub.Proofs.GpioteSense
import BleHub.Proofs.TimerExpiry

/-!
A button is reported as pushed when it has been active for long enough: not before the detection
delay after an event of its pin is over, and only if the pin is still active.
-/

namespace BleHub

open BitMask

variable {B E H : Type} {n cap : Nat}

/-! ### Timeouts that have been passed on -/

namespace TimedTimer

variable {C : Type} {s : TimedTimer H C n cap}

/-- No timeout has been passed on in the future. -/
def PassedBefore (s : TimedTimer H C n cap) : Prop :=
  ∀ timeout ∈ s.passed, timeout.time ≤ s.now

/-- A tick passes nothing on. -/
theorem PassedBefore.tick (before : s.PassedBefore) (missed : Bool) :
    (s.tick missed).PassedBefore ∧ (s.tick missed).passed = s.passed := by
  unfold TimedTimer.tick
  dsimp only
  split
  · exact ⟨fun timeout member => Nat.le_succ_of_le (before timeout member), rfl⟩
  · exact ⟨before, rfl⟩

/-- Neither does any number of ticks. -/
theorem PassedBefore.wait (before : s.PassedBefore) (ticks : Nat) :
    (s.wait ticks).PassedBefore ∧ (s.wait ticks).passed = s.passed := by
  induction ticks with
  | zero => exact ⟨before, rfl⟩
  | succ ticks ih =>
    obtain ⟨holds, same⟩ := ih.1.tick false
    exact ⟨holds, same.trans ih.2⟩

/-- Whatever happens, what has been passed on stays so. -/
theorem PassedBefore.step (before : s.PassedBefore) (next : TimedStep C) :
    (s.step next).PassedBefore ∧ s.passed ⊆ (s.step next).passed := by
  -- Only the RTC1 interrupt passes anything on, at the time that it is.
  cases next with
  | tick missed =>
    obtain ⟨holds, same⟩ := before.tick missed
    exact ⟨holds, same ▸ List.Subset.refl _⟩
  | appTimerStart userId timerId timeoutTicks context => exact ⟨before, List.Subset.refl _⟩
  | appTimerStop userId timerId => exact ⟨before, List.Subset.refl _⟩
  | appTimerStopAll userId => exact ⟨before, List.Subset.refl _⟩
  | rtc1IrqHandler =>
    refine ⟨fun timeout member => ?_, List.subset_append_left _ _⟩
    rcases List.mem_append.mp member with old | new
    · exact before timeout old
    · obtain ⟨event, _, rfl⟩ := List.mem_map.mp new
      exact Nat.le_refl _
  | swi0IrqHandler delay =>
    -- The list handler passes nothing on, and time goes by while it sets the register.
    have waited (timer : AppTimer H C n cap) :=
      PassedBefore.wait (s := { s with timer := timer }) before delay
    exact ⟨(waited _).1, fun timeout member => (waited _).2 ▸ member⟩

end TimedTimer

/-! ### Buttons -/

/-- The masks hold the pins of the buttons, each in the mask for the level at which it is active. -/
theorem AppButton.activeStatesMasks (buttons : List (AppButtonCfg B)) (pinNo : Fin 32) :
    let masks := buttons.foldr AppButton.addButton (0#32, 0#32)
    (has masks.1 pinNo = true ↔ ∃ btn ∈ buttons, btn.pinNo = pinNo ∧ btn.activeHigh = true) ∧
      (has masks.2 pinNo = true ↔
        ∃ btn ∈ buttons, btn.pinNo = pinNo ∧ btn.activeHigh = false) := by
  -- Each button adds its pin to one of the masks.
  induction buttons with
  | nil => simp
  | cons btn rest ih =>
    obtain ⟨high, low⟩ := ih
    simp only [List.foldr_cons, AppButton.addButton, List.mem_cons, exists_eq_or_imp]
    have here : pinNo.val = btn.pinNo.val ↔ btn.pinNo = pinNo :=
      ⟨fun same => (Fin.ext same).symm, fun same => congrArg Fin.val same.symm⟩
    cases active : btn.activeHigh with
    | true => simp [high, low, here, or_comm]
    | false => simp [high, low, here, or_comm]

/-- The user of the module is registered for the pins of the buttons. -/
def AppButton.Monitored (b : AppButton B) (g : Gpiote E) : Prop :=
  (g.users.map (·.pinsMask))[b.gpioteUserId]? =
    some (b.activeHighStatesMask ||| b.activeLowStatesMask)

/-- A pin has a level at which a button is active. -/
def AppButton.Active (b : AppButton B) (pinsState : PinMask) (pinNo : Fin 32) : Prop :=
  has b.activeHighStatesMask pinNo = true ∧ has pinsState pinNo = true ∨
    has b.activeLowStatesMask pinNo = true ∧ has pinsState pinNo = false

/-- The masks tell for which buttons a level counts. -/
theorem AppButton.active_iff {b : AppButton B}
    (masks : (b.activeHighStatesMask, b.activeLowStatesMask) =
      b.buttons.foldr AppButton.addButton (0#32, 0#32)) (pinsState : PinMask) (pinNo : Fin 32) :
    b.Active pinsState pinNo ↔
      ∃ btn ∈ b.buttons, btn.pinNo = pinNo ∧ has pinsState pinNo = btn.activeHigh := by
  have pins := AppButton.activeStatesMasks b.buttons pinNo
  rw [← masks] at pins
  unfold AppButton.Active
  rw [pins.1, pins.2]
  -- A pin has one level, so only one of the masks is looked at.
  constructor
  · rintro (⟨⟨btn, listed, same, active⟩, level⟩ | ⟨⟨btn, listed, same, active⟩, level⟩)
    · exact ⟨btn, listed, same, level.trans active.symm⟩
    · exact ⟨btn, listed, same, level.trans active.symm⟩
  · rintro ⟨btn, listed, same, level⟩
    cases active : btn.activeHigh with
    | true => exact .inl ⟨⟨btn, listed, same, active⟩, level.trans active⟩
    | false => exact .inr ⟨⟨btn, listed, same, active⟩, level.trans active⟩

/-- What has to be true of a button that is reported: it is a button, and its pin is active. -/
structure AppButton.Pushed (b : AppButton B) (push : ButtonPush B) : Prop where
  configured : ∃ btn ∈ b.buttons, btn.pinNo = push.call.pinNo ∧
    btn.buttonHandler = some push.call.buttonHandler
  active : b.Active push.pinsState push.call.pinNo

/-- The handler of the timer reports buttons of the context that are active. -/
theorem AppButton.pushed_of_call {b : AppButton B} {g : Gpiote E} {pinsState context : PinMask}
    (monitored : b.Monitored g) {call : ButtonCall B}
    (made : call ∈ b.detectionDelayTimeoutHandler g pinsState context) (time : Nat) :
    b.Pushed ⟨time, pinsState, call⟩ ∧ has context call.pinNo = true := by
  -- The module reads the pins of its own user.
  rw [AppButton.Monitored, List.getElem?_map, Option.map_eq_some_iff] at monitored
  obtain ⟨user, registered, mask⟩ := monitored
  simp only [AppButton.detectionDelayTimeoutHandler, Gpiote.appGpiotePinsStateGet, registered,
    mask] at made
  split at made
  · obtain ⟨btn, listed, called⟩ := List.mem_filterMap.mp made
    split at called
    · rename_i shown
      obtain ⟨handler, configured, rfl⟩ := Option.map_eq_some_iff.mp called
      rw [and_bit_ne_zero] at shown
      simp only [has_and, has_or, has_not, Bool.and_eq_true, Bool.or_eq_true,
        Bool.not_eq_true'] at shown
      obtain ⟨inContext, active⟩ := shown
      refine ⟨⟨⟨btn, listed, rfl, configured⟩, ?_⟩, inContext⟩
      -- The levels that are read are those of the pins that belong to buttons.
      rcases active with ⟨⟨level, _⟩, high⟩ | ⟨level, low⟩
      · exact .inl ⟨high, level⟩
      · refine .inr ⟨low, ?_⟩
        simpa [low] using level
    · cases called
  · cases made

/-- A button counts as pushed exactly if its pin is active. -/
theorem AppButton.isPushed_iff {b : AppButton B} {g : Gpiote E} (monitored : b.Monitored g)
    (pinNo : Fin 32) (pinsState : PinMask) :
    ∃ pushed, b.appButtonIsPushed g pinNo pinsState = (nrfSuccess, some pushed) ∧
      (pushed = true ↔ b.Active pinsState pinNo) := by
  rw [AppButton.Monitored, List.getElem?_map, Option.map_eq_some_iff] at monitored
  obtain ⟨user, registered, mask⟩ := monitored
  simp only [AppButton.appButtonIsPushed, Gpiote.appGpiotePinsStateGet, registered, mask]
  simp only [BitVec.and_comm (bit pinNo.val), and_bit_eq_zero, has_and, has_or]
  unfold AppButton.Active
  -- A pin that belongs to no button reads as low, and is in neither mask.
  split
  · rename_i low
    refine ⟨_, rfl, ?_⟩
    rw [decide_eq_true_eq, and_bit_ne_zero]
    -- The three bits decide it, and the pin reads as low.
    cases high : has b.activeHighStatesMask pinNo <;>
      cases other : has b.activeLowStatesMask pinNo <;>
        cases level : has pinsState pinNo <;> simp_all
  · -- A pin that reads as high is high, and belongs to some button.
    rename_i high
    refine ⟨_, rfl, ?_⟩
    rw [decide_eq_true_eq, and_bit_ne_zero]
    cases has b.activeHighStatesMask pinNo <;> cases has b.activeLowStatesMask pinNo <;>
      simp_all

/-! ### Runs -/

/-- Starts of the buttons' timer go back to events, and reports to timeouts of it. -/
structure PushesGrounded (b : AppButton B) (first : TimedTimer (TimerHandler H) PinMask n cap)
    (s : ButtonSystem B E H n cap) : Prop where
  button : s.button = b
  timed : s.timed = StepMachine.run TimedTimer.step first s.timerSteps
  passed : s.timed.PassedBefore
  monitored : b.Monitored s.gpiote
  starts : ∀ before userId timeoutTicks context after, s.timerSteps =
    before ++ .appTimerStart userId b.detectionDelayTimerId timeoutTicks context :: after →
      timeoutTicks = b.detectionDelay ∧
        ⟨(StepMachine.run TimedTimer.step first before).now, context⟩ ∈ s.events
  pushes : ∀ push ∈ s.pushes, b.Pushed push ∧ ∃ timeout ∈ s.timed.passed,
    timeout.timeoutHandler = .detectionDelayTimeoutHandler ∧
      has timeout.context push.call.pinNo = true ∧ timeout.time ≤ push.time

section

variable {b : AppButton B} {first : TimedTimer (TimerHandler H) PinMask n cap}
  {s : ButtonSystem B E H n cap}

/-- Something happens to the timer module, which is no start of the buttons' timer, or a due one. -/
theorem PushesGrounded.timerStep (grounded : PushesGrounded b first s) (next : TimedStep PinMask)
    (fair : ∀ userId timeoutTicks context,
      next = .appTimerStart userId b.detectionDelayTimerId timeoutTicks context →
        timeoutTicks = b.detectionDelay ∧ ⟨s.timed.now, context⟩ ∈ s.events) :
    PushesGrounded b first (s.timerStep next) := by
  obtain ⟨holds, more⟩ := grounded.passed.step next
  refine ⟨grounded.button, ?_, holds, grounded.monitored, ?_, fun push member => ?_⟩
  · show s.timed.step next = StepMachine.run TimedTimer.step first (s.timerSteps ++ [next])
    rw [StepMachine.run_append, ← grounded.timed]
    rfl
  · intro before userId timeoutTicks context after split
    -- The start is the new step, or has been there before.
    rcases List.eq_nil_or_concat' after with rfl | ⟨after, last, rfl⟩
    · obtain ⟨steps, same⟩ := List.append_inj' split rfl
      rw [← steps, ← grounded.timed]
      exact fair userId timeoutTicks context (List.singleton_inj.mp same)
    · rw [← List.cons_append, ← List.append_assoc] at split
      obtain ⟨steps, _⟩ := List.append_inj' split rfl
      exact grounded.starts before userId timeoutTicks context after steps
  · obtain ⟨pushed, timeout, passed, of⟩ := grounded.pushes push member
    exact ⟨pushed, timeout, more passed, of⟩

/-- A stop is no start. -/
theorem PushesGrounded.appTimerStop (grounded : PushesGrounded b first s) (userId : TimerUserId)
    (timerId : Nat) : PushesGrounded b first (s.timerStep (.appTimerStop userId timerId)) :=
  grounded.timerStep _ fun _ _ _ impossible => by cases impossible

/-- The handler of the event starts the timer with the pins of the event. -/
theorem PushesGrounded.onEvent (grounded : PushesGrounded b first s)
    (event : GpioteEvent (PinHandler E)) : PushesGrounded b first (s.onEvent event) := by
  unfold ButtonSystem.onEvent
  -- Events for other users of the pins do not reach the buttons.
  split
  · exact grounded
  · have noted : PushesGrounded b first { s with events := s.events ++
        [⟨s.timed.now, event.eventPinsLowToHigh ||| event.eventPinsHighToLow⟩] } :=
      { grounded with
        starts := fun before userId timeoutTicks context after split =>
          ⟨(grounded.starts before userId timeoutTicks context after split).1,
            List.mem_append_left _
              (grounded.starts before userId timeoutTicks context after split).2⟩ }
    dsimp only
    unfold AppButton.gpioteEventHandler
    split
    · -- The stop has failed, and the event is lost.
      exact noted.appTimerStop _ _
    · refine (noted.appTimerStop _ _).timerStep _ ?_
      -- The start has the pins of the event as its context, and is made in its tick.
      rintro userId timeoutTicks context started
      simp only [TimedStep.appTimerStart.injEq] at started
      obtain ⟨-, -, rfl, rfl⟩ := started
      exact ⟨by rw [← grounded.button], List.mem_append_right _ List.mem_cons_self⟩

/-- The GPIOTE handler does something, and keeps the pins of its users. -/
theorem PushesGrounded.gpiote (grounded : PushesGrounded b first s)
    (next : GpioteStep (PinHandler E)) :
    PushesGrounded b first { s with gpiote := (GpioteRun.step ⟨s.gpiote, []⟩ next).gpiote } := by
  obtain ⟨more, same⟩ := GpioteRun.pinsMask_step ⟨s.gpiote, []⟩ next
  refine { grounded with monitored := ?_ }
  have inside := (List.getElem?_eq_some_iff.mp grounded.monitored).1
  unfold AppButton.Monitored
  rw [← same, List.getElem?_append_left inside]
  exact grounded.monitored

/-- Each step keeps starts and reports grounded. -/
theorem PushesGrounded.step (grounded : PushesGrounded b first s) (next : ButtonStep E)
    (permitted : ButtonSystem.Permitted b next) : PushesGrounded b first (s.step next) := by
  -- The timer is started by the event handler only, and reports are added by its timeouts only.
  cases next with
  | timer next =>
    -- Other users are not permitted to start the timer of the buttons.
    refine grounded.timerStep next ?_
    rintro userId timeoutTicks context rfl
    exact absurd rfl permitted
  | userRegister pinsLowToHighMask pinsHighToLowMask eventHandler =>
    exact grounded.gpiote (.userRegister pinsLowToHighMask pinsHighToLowMask (.other eventHandler))
  | userEnable userId pinsState => exact grounded.gpiote (.userEnable userId pinsState)
  | userDisable userId => exact grounded.gpiote (.userDisable userId)
  | appButtonEnable pinsState =>
    exact grounded.gpiote (.userEnable s.button.gpioteUserId pinsState)
  | appButtonDisable userId =>
    -- Disabling the buttons also stops their timer, which starts nothing.
    have disabled := grounded.gpiote (.userDisable s.button.gpioteUserId)
    simp only [ButtonSystem.step, AppButton.appButtonDisable]
    split
    · exact disabled
    · exact disabled.appTimerStop userId _
  | gpioteIrqHandler pinsState =>
    -- The edges that are found are handled one by one, each by starting the timer.
    exact List.foldlRecOn (motive := PushesGrounded b first) _ ButtonSystem.onEvent
      (grounded.gpiote (.irqHandler pinsState)) fun s grounded event _ => grounded.onEvent event
  | timeoutHandler pinsState =>
    simp only [ButtonSystem.step]
    -- The timeouts are handled in the order in which they have been passed on.
    cases found : s.timed.passed[s.handled]? with
    | none => exact grounded
    | some timeout =>
      have passed := List.mem_of_getElem? found
      refine { grounded with pushes := fun push member => ?_ }
      rcases List.mem_append.mp member with old | new
      · exact grounded.pushes push old
      · -- A new report comes from the timeout that is handled now.
        obtain ⟨call, made, rfl⟩ := List.mem_map.mp new
        unfold ButtonSystem.callsFor at made
        split at made
        · cases made
        · rename_i handler
          rw [grounded.button] at made
          obtain ⟨pushed, inContext⟩ :=
            AppButton.pushed_of_call grounded.monitored made s.timed.now
          exact ⟨pushed, timeout, passed, handler, inContext, grounded.passed timeout passed⟩

end

/-- The module has registered its pins when it is initialised. -/
theorem AppButton.monitored_of_init {g g' : Gpiote (PinHandler E)}
    {buttons : List (AppButtonCfg B)} {detectionDelay : UInt32} {timerId : Nat} {b : AppButton B}
    (init : AppButton.appButtonInit g buttons detectionDelay timerId = (nrfSuccess, some b, g')) :
    b.Monitored g' ∧ b.buttons = buttons ∧ b.detectionDelay = detectionDelay ∧
      b.detectionDelayTimerId = timerId ∧
      (b.activeHighStatesMask, b.activeLowStatesMask) =
        buttons.foldr AppButton.addButton (0#32, 0#32) := by
  -- Initialisation fails, or it leads to a new user with both masks.
  unfold AppButton.appButtonInit at init
  split at init
  · simp at init
  · dsimp only at init
    split at init
    · simp at init
    · rename_i registered
      simp only [Prod.mk.injEq, Option.some.injEq, true_and] at init
      obtain ⟨rfl, rfl⟩ := init
      exact ⟨Gpiote.pinsMask_registered registered, rfl, rfl, rfl, rfl⟩

/-- Whatever has happened, starts and reports are grounded. -/
theorem pushesGrounded_run {b : AppButton B} {g : Gpiote (PinHandler E)}
    (monitored : b.Monitored g) (config : Fin n → TimerConfig (TimerHandler H)) (start : Nat)
    (handler : TimerHandler H)
    (steps : List (ButtonStep E)) (permitted : ∀ next ∈ steps, ButtonSystem.Permitted b next) :
    PushesGrounded b (.boot config start handler 0#32)
      (StepMachine.run ButtonSystem.step (.boot b g config start handler :
        ButtonSystem B E H n cap) steps) := by
  -- At first nothing has been started and nothing reported.
  refine List.foldlRecOn (motive := PushesGrounded b (.boot config start handler 0#32)) steps
    ButtonSystem.step ?_ fun s grounded next member => grounded.step next (permitted next member)
  refine ⟨rfl, rfl, fun timeout member => ?_, monitored, ?_, fun push member => ?_⟩
  · cases member
  · intro before userId timeoutTicks context after split
    exact absurd split.symm (List.append_ne_nil_of_right_ne_nil _ (List.cons_ne_nil _ _))
  · cases member

/-- At any time of a run, a button counts as pushed exactly if some button of its pin is active. -/
theorem ButtonSystem.isPushed_run {g g' : Gpiote (PinHandler E)}
    {buttons : List (AppButtonCfg B)} {detectionDelay : UInt32} {timerId : Nat} {b : AppButton B}
    (init : AppButton.appButtonInit g buttons detectionDelay timerId = (nrfSuccess, some b, g'))
    (config : Fin n → TimerConfig (TimerHandler H)) (start : Nat) (handler : TimerHandler H)
    (steps : List (ButtonStep E)) (permitted : ∀ next ∈ steps, ButtonSystem.Permitted b next)
    (pinNo : Fin 32) (pinsState : PinMask) :
    let s := StepMachine.run ButtonSystem.step (.boot b g' config start handler :
      ButtonSystem B E H n cap) steps
    ∃ pushed, s.button.appButtonIsPushed s.gpiote pinNo pinsState = (nrfSuccess, some pushed) ∧
      (pushed = true ↔
        ∃ btn ∈ buttons, btn.pinNo = pinNo ∧ has pinsState pinNo = btn.activeHigh) := by
  obtain ⟨monitored, rfl, -, -, masks⟩ := AppButton.monitored_of_init init
  intro s
  have grounded : PushesGrounded b (.boot config start handler 0#32) s :=
    pushesGrounded_run monitored config start handler steps permitted
  rw [grounded.button, ← AppButton.active_iff masks]
  exact AppButton.isPushed_iff grounded.monitored pinNo pinsState

/-- A button on pin 0 that is active low, with the shortest detection delay. -/
def oneButton : AppButton Nat := ⟨[⟨0, false, some 7⟩], 1, 0, 5, 0, 0⟩

/-- The GPIOTE handler once this button is initialised. -/
def oneButtonPins : Gpiote (PinHandler Unit) :=
  (AppButton.appButtonInit (.appGpioteInit 1) oneButton.buttons 5 0).2.2

/-- Its timer is the only one. -/
def oneButtonConfig : Fin 1 → TimerConfig (TimerHandler Unit) :=
  fun _ => ⟨.allocated, .singleShot, .detectionDelayTimeoutHandler⟩

/-- The button is pushed until the timer expires, and then let go. -/
def pushedRun : List (ButtonStep Unit) :=
  [.appButtonEnable 1, .gpioteIrqHandler 0, .timer (.swi0IrqHandler 0)] ++
    List.replicate 5 (.timer (.tick false)) ++
      [.timer .rtc1IrqHandler, .timeoutHandler 0, .gpioteIrqHandler 1]

/-- Two buttons on the same pin, one active low and one active high. -/
def opposedButtons : AppButton Nat :=
  ⟨[⟨0, false, some 7⟩, ⟨0, true, some 8⟩], 1, 1, 5, 0, 0⟩

-- Both are reported, at either level of the pin.
example : opposedButtons.detectionDelayTimeoutHandler oneButtonPins 1 1 = [⟨7, 0⟩, ⟨8, 0⟩] ∧
    opposedButtons.detectionDelayTimeoutHandler oneButtonPins 0 1 = [⟨7, 0⟩, ⟨8, 0⟩] := by
  decide +kernel

end BleHub
