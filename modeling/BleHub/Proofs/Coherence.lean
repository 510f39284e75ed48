import BleHub.Lib.History
import BleHub.Proofs.Tracking

/-! Both handle variables, both LEDs and the stack agree on which connection is up. -/

namespace BleHub

/-- The stack only delivers what it may deliver. -/
def Disciplined (past : List Reaction) : Prop :=
  History.Always (fun reaction before => permitted reaction.input before = true) past

instance (past : List Reaction) : Decidable (Disciplined past) :=
  inferInstanceAs (Decidable (History.Always _ past))

/-- Handles, LEDs and retry counter all show the connection that the last link event left up. -/
structure Coherent (s : Statics) (past : List Reaction) : Prop where
  mainHandle : s.main.connHandle = handleOf (link past)
  connParamsHandle : s.connParams.connHandle = handleOf (link past)
  connectedLed : ledOn connectedLedPinNo s.gpio = true ↔ s.main.connHandle ≠ bleConnHandleInvalid
  advertisingLed : ledOn advertisingLedPinNo s.gpio = true ↔ advertising past = true
  exclusive : advertising past = true ↔ link past = none
  idleCount : link past = none → s.connParams.updateCount = 0
  boundedCount : s.connParams.updateCount ≤ maxConnParamsUpdateCount

/-- The LEDs show the record. -/
structure Lit (gpio : GpioOut) (past : List Reaction) : Prop where
  connectedLed : ledOn connectedLedPinNo gpio = (link past).isSome
  advertisingLed : ledOn advertisingLedPinNo gpio = advertising past
  exclusive : advertising past = !(link past).isSome

/-- When every call succeeded, the accepted ones are the planned ones. -/
theorem accepted_succeeded {calls : List Call} {input : Input} (kind : Call → Bool) :
    Reaction.accepted ⟨input, calls.map (·, nrfSuccess)⟩ kind = calls.countP kind := by
  simp [Reaction.accepted, List.countP_map, Function.comp_def]

/-- Negotiating can only start the timer or drop the link. -/
theorem countP_negotiationCalls {kind : Call → Bool} (s : Statics)
    (start : ∀ id ticks, kind (.appTimerStart id ticks) = false)
    (drop : ∀ connHandle reason, kind (.gapDisconnect connHandle reason) = false) :
    (negotiationCalls s).countP kind = 0 := by
  -- One case for each outcome: acceptable parameters, a requested change, and an attempt to come.
  simp only [negotiationCalls]
  split
  · rfl
  · split
    · simp [drop]
    · simp [start]

/-- Negotiating never starts advertising. -/
theorem negotiationCalls_silent (s : Statics) :
    (negotiationCalls s).countP Call.startsAdvertising = 0 :=
  countP_negotiationCalls s (fun _ _ => rfl) fun _ _ => rfl

/-- Only the end of a connection makes the firmware start advertising. -/
theorem planned_silent (s : Statics) (input : Input)
    (stays : ∀ connHandle, input ≠ .event (.gapDisconnected connHandle)) :
    (planned s input).countP Call.startsAdvertising = 0 := by
  -- What is left are replies, timer calls, requests and disconnects.
  cases input with
  | event bleEvt =>
    cases bleEvt with
    | gapConnected connHandle connParams => exact negotiationCalls_silent _
    | gapDisconnected connHandle => exact absurd rfl (stays connHandle)
    | gapConnParamUpdate connHandle connParams => exact negotiationCalls_silent _
    | gattsWrite connHandle write =>
      simp only [planned, Input.event?, plannedOnEvt]
      split
      · split
        · exact negotiationCalls_silent s
        · rfl
      · rfl
    | gapTimeout connHandle src =>
      simp only [planned, Input.event?, plannedOnEvt]
      split <;> rfl
    | _ => rfl
  | answer connHandle connParams => exact negotiationCalls_silent _
  | expiry context =>
    simp only [planned, Input.event?, plannedOnExpiry]
    split
    · rfl
    · split <;> rfl

/-- The connected LED goes on and the advertising LED off with a connection. -/
theorem leds_connected (gpio : GpioOut) :
    let gpio' := nrfGpioPinClear advertisingLedPinNo (nrfGpioPinSet connectedLedPinNo gpio)
    ledOn connectedLedPinNo gpio' = true ∧ ledOn advertisingLedPinNo gpio' = false := by
  -- The two LEDs have pins of their own, both inside the register.
  have inside : connectedLedPinNo < 32 ∧ advertisingLedPinNo < 32 := by decide
  have apart : connectedLedPinNo ≠ advertisingLedPinNo := by decide
  simp [ledOn_pinClear _ inside.1, ledOn_pinClear _ inside.2, ledOn_pinSet _ inside.1, apart]

/-- The connected LED goes off and the advertising LED on without one. -/
theorem leds_disconnected (gpio : GpioOut) :
    let gpio' := nrfGpioPinSet advertisingLedPinNo (nrfGpioPinClear connectedLedPinNo gpio)
    ledOn connectedLedPinNo gpio' = false ∧ ledOn advertisingLedPinNo gpio' = true := by
  have inside : connectedLedPinNo < 32 ∧ advertisingLedPinNo < 32 := by decide
  have apart : connectedLedPinNo ≠ advertisingLedPinNo := by decide
  simp [ledOn_pinSet _ inside.1, ledOn_pinSet _ inside.2, ledOn_pinClear _ inside.1, apart]

/-- At boot the firmware advertises and shows it. -/
theorem Lit.boot (timerId : Nat) : Lit (bootStatics timerId).gpio [] where
  connectedLed := by
    show ledOn connectedLedPinNo (nrfGpioPinSet advertisingLedPinNo 0) = false
    decide
  advertisingLed := by
    show ledOn advertisingLedPinNo (nrfGpioPinSet advertisingLedPinNo 0) = true
    decide
  exclusive := rfl

/-- An input that touches neither the link nor advertising leaves the LEDs right. -/
theorem Lit.quiet {gpio : GpioOut} {past : List Reaction} {reaction : Reaction}
    (lit : Lit gpio past) (sameLink : linkOn reaction.input (link past) = link past)
    (sameStack : advertisingOn reaction.input (advertising past) = advertising past)
    (silent : reaction.accepted Call.startsAdvertising = 0) :
    Lit gpio (reaction :: past) where
  connectedLed := by rw [link, sameLink]; exact lit.connectedLed
  advertisingLed := by rw [advertising, if_pos silent, sameStack]; exact lit.advertisingLed
  exclusive := by rw [advertising, if_pos silent, sameStack, link, sameLink]; exact lit.exclusive

/-- The planned pin changes keep the LEDs right, as long as the system goes on. -/
theorem Lit.next {s : Statics} {past : List Reaction} {input : Input} (lit : Lit s.gpio past)
    (allowed : permitted input past = true) (on : .powerSystemOff ∉ planned s input) :
    Lit (next s input).gpio (⟨input, (planned s input).map (·, nrfSuccess)⟩ :: past) := by
  -- Outside a disconnection nothing starts advertising.
  have silent : (∀ connHandle, input ≠ .event (.gapDisconnected connHandle)) →
      Reaction.accepted ⟨input, (planned s input).map (·, nrfSuccess)⟩
        Call.startsAdvertising = 0 := by
    intro stays
    rw [accepted_succeeded, planned_silent s input stays]
  cases input with
  | event bleEvt =>
    cases bleEvt with
    | gapConnected connHandle connParams =>
      -- The stack has stopped advertising, and the pins follow.
      have shown := leds_connected s.gpio
      have valid : connHandle ≠ bleConnHandleInvalid := by
        simp only [permitted, Bool.and_eq_true, decide_eq_true_eq] at allowed
        exact allowed.2
      have up : ∀ calls, link (⟨.event (.gapConnected connHandle connParams), calls⟩ :: past) =
          some connHandle := fun _ => if_neg valid
      have stopped : advertising (⟨.event (.gapConnected connHandle connParams),
          (planned s (.event (.gapConnected connHandle connParams))).map (·, nrfSuccess)⟩ ::
            past) = false := by
        rw [advertising, if_pos (silent (by simp))]
        rfl
      exact ⟨by rw [up]; exact shown.1, by rw [stopped]; exact shown.2, by rw [stopped, up]; rfl⟩
    | gapDisconnected connHandle =>
      -- Advertising has started again, since the call for it is the one that succeeded.
      have shown := leds_disconnected s.gpio
      exact ⟨shown.1, shown.2, rfl⟩
    | gapTimeout connHandle src =>
      by_cases advertisement : src = bleGapTimeoutSrcAdvertisement
      · -- The advertising timeout ends in system-off.
        exact absurd (by simp [planned, Input.event?, plannedOnEvt, advertisement]) on
      · refine lit.quiet rfl ?_ (silent (by simp))
        simp [advertisingOn, advertisement]
    | gattsWrite connHandle write =>
      -- Neither a write nor an expiry touches the pins.
      have same : (BleHub.next s (.event (.gattsWrite connHandle write))).gpio = s.gpio := by
        simp only [BleHub.next, Input.event?, nextOnEvt]
        split <;> rfl
      rw [same]
      exact lit.quiet rfl rfl (silent (by simp))
    | _ => exact lit.quiet rfl rfl (silent (by simp))
  | answer connHandle connParams => exact lit.quiet rfl rfl (silent (by simp))
  | expiry context =>
    have same : (BleHub.next s (.expiry context)).gpio = s.gpio := by
      simp only [BleHub.next, Input.event?, nextOnExpiry]
      split <;> rfl
    rw [same]
    exact lit.quiet rfl rfl (silent (by simp))

/-- While the application runs under a disciplined stack, its LEDs show the record. -/
theorem lit_after {X : Type} (timerId : Nat) (ext : X) (acts : List (Act X))
    (running : (App.after timerId ext acts).halted = none)
    (disciplined : Disciplined (App.after timerId ext acts).past) :
    Lit (App.after timerId ext acts).statics.gpio (App.after timerId ext acts).past := by
  -- The record must be disciplined throughout, so the invariant carries that assumption along.
  refine App.after_invariant (I := fun a => a.halted = none → Disciplined a.past →
    Lit a.statics.gpio a.past) ?_ ?_ ?_ ?_ acts running disciplined
  · exact fun _ _ => Lit.boot timerId
  · intro answer a input lit live goesOn disciplined
    obtain ⟨calls, reacts⟩ := App.reactLive_reacts answer a input
    rw [reacts.past] at disciplined ⊢
    rw [reacts.statics goesOn, reacts.succeeded goesOn]
    exact (lit live disciplined.2).next disciplined.1 (reacts.on goesOn)
  · exact fun a ext lit => lit
  · intro a halt _ _ goesOn
    simp at goesOn

/-- No expiry counts as one of a connection that is not up. -/
theorem expiries_idle {past : List Reaction} (idle : link past = none) : expiries past = 0 := by
  -- Both link events restart the count, and between connections it stays as it is.
  induction past with
  | nil => rfl
  | cons reaction past ih =>
    obtain ⟨input, calls⟩ := reaction
    simp only [link] at idle
    cases input with
    | event bleEvt =>
      cases bleEvt with
      | gapConnected | gapDisconnected => rfl
      | _ => exact ih idle
    | answer => exact ih idle
    | expiry context =>
      have idle : link past = none := idle
      simp [expiries, expiriesOn, idle, ih idle]

/--
Under a disciplined stack, everything the firmware shows and remembers about the connection is
coherent, whatever the environment answers and however late the timer expires.
-/
theorem connectionState_coherent {X : Type} (timerId : Nat) (ext : X) (acts : List (Act X))
    (running : (App.after timerId ext acts).halted = none)
    (disciplined : Disciplined (App.after timerId ext acts).past) :
    Coherent (App.after timerId ext acts).statics (App.after timerId ext acts).past := by
  -- The variables agree with the record in any run, the LEDs in a disciplined one.
  have tracks := agrees_after timerId ext acts running
  have lit := lit_after timerId ext acts running disciplined
  have count := tracks.count
  refine ⟨tracks.mainHandle, tracks.connParamsHandle, ?_, ?_, ?_, ?_, ?_⟩
  · rw [lit.connectedLed, tracks.mainHandle, ne_eq, handleOf_link_eq_invalid]
    exact Option.isSome_iff_ne_none
  · rw [lit.advertisingLed]
  · rw [lit.exclusive]
    simp
  · -- Without a connection no expiry has been counted.
    intro idle
    rw [expiries_idle idle] at count
    exact UInt8.toNat_inj.mp count
  · -- The counter agrees with the expiries, counted in rounds of four.
    have limit : maxConnParamsUpdateCount.toNat = 3 := rfl
    rw [UInt8.le_iff_toNat_le, count, limit]
    omega

/-- A link that comes and goes, with a late expiry in between. -/
theorem connectionState_coherent_reconnect :
    let acts : List (Act Unit) :=
      [.react (fun _ x => (nrfSuccess, x)) (.event (.gapConnected 0 ⟨6, 6, 0, 400⟩)),
        .react (fun _ x => (nrfSuccess, x)) (.event (.gapDisconnected 0)),
        .react (fun _ x => (nrfSuccess, x)) (.expiry 1),
        .react (fun _ x => (nrfSuccess, x)) (.event (.gapConnected 3 ⟨6, 6, 0, 400⟩))]
    Coherent (App.after 1 () acts).statics (App.after 1 () acts).past :=
  connectionState_coherent 1 () _ (by decide) (by decide)

end BleHub
