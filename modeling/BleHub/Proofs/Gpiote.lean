import BleHub.Firmware.Gpiote
import Mathlib.Data.List.Basic
import Mathlib.Data.List.Induction

/-!
The GPIOTE module is a row of edge detectors, whatever its users and whenever its interrupt comes.

As long as no two users share a pin, the pins are sensed for exactly what is still to be found.
-/

namespace BleHub

open BitMask

variable {E : Type}

/-! ### Loops over the pins -/

/-- What one turn of the loop that inverts the sensing does to its own pin. -/
theorem senseToggle_self (pins : PinMask) (s : GpioteUser E × PinCnf) (pinNo : Fin 32) :
    (has (senseToggle pins s pinNo).1.senseHighPins pinNo, (senseToggle pins s pinNo).2 pinNo) =
      if has pins pinNo then (!has s.1.senseHighPins pinNo,
        if has s.1.senseHighPins pinNo then .low else .high)
      else (has s.1.senseHighPins pinNo, s.2 pinNo) := by
  -- The turn reads the set of the user at its own pin only.
  simp only [senseToggle, and_bit_ne_zero, and_bit_eq_zero]
  cases has pins pinNo with
  | false => rfl
  | true => cases high : has s.1.senseHighPins pinNo <;> simp [high]

/-- It leaves the other pins alone. -/
theorem senseToggle_other (pins : PinMask) (s : GpioteUser E × PinCnf) {pinNo other : Fin 32}
    (apart : other ≠ pinNo) :
    (has (senseToggle pins s pinNo).1.senseHighPins other, (senseToggle pins s pinNo).2 other) =
      (has s.1.senseHighPins other, s.2 other) := by
  have apart_ : other.val ≠ pinNo.val := fun same => apart (Fin.ext same)
  -- Both the set and the field are changed at the pin of the turn alone.
  unfold senseToggle
  split
  · split
    · simp [Function.update_of_ne apart, apart_]
    · simp [Function.update_of_ne apart, apart_]
  · rfl

/-- Inverting the sensing of some pins inverts them in the set of the user. -/
theorem senseLevelToggle_pins (user : GpioteUser E) (pins : PinMask) (pinCnf : PinCnf)
    (pinNo : Fin 32) :
    (has (senseLevelToggle user pins pinCnf).1.senseHighPins pinNo,
        (senseLevelToggle user pins pinCnf).2 pinNo) =
      if has pins pinNo then (!has user.senseHighPins pinNo,
        if has user.senseHighPins pinNo then .low else .high)
      else (has user.senseHighPins pinNo, pinCnf pinNo) :=
  foldl_finRange (fun (s : GpioteUser E × PinCnf) i => (has s.1.senseHighPins i, s.2 i))
    (senseToggle pins)
    (fun i seen => if has pins i then (!seen.1, if seen.1 then .low else .high) else seen)
    (senseToggle_self pins) (fun s _ _ apart => senseToggle_other pins s apart) (user, pinCnf) pinNo

/-- Nothing else about the user changes. -/
theorem senseLevelToggle_user (user : GpioteUser E) (pins : PinMask) (pinCnf : PinCnf) :
    (senseLevelToggle user pins pinCnf).1 =
      { user with senseHighPins := user.senseHighPins ^^^ pins } := by
  -- Every turn of the loop writes the set of the user, and no other field.
  obtain ⟨high, kept⟩ : ∃ high, (senseLevelToggle user pins pinCnf).1 =
      { user with senseHighPins := high } := by
    refine List.foldlRecOn (motive := fun s : GpioteUser E × PinCnf =>
      ∃ high, s.1 = { user with senseHighPins := high }) (List.finRange 32) (senseToggle pins)
      ⟨user.senseHighPins, rfl⟩ ?_
    rintro s ⟨high, kept⟩ pinNo _
    unfold senseToggle
    split
    · split
      · exact ⟨_, by rw [kept]⟩
      · exact ⟨_, by rw [kept]⟩
    · exact ⟨high, kept⟩
  -- The set is known from the loop, pin by pin.
  have same : high = user.senseHighPins ^^^ pins := by
    apply ext_has
    intro pinNo
    have pin := congrArg Prod.fst (senseLevelToggle_pins user pins pinCnf pinNo)
    rw [kept] at pin
    simp only at pin
    rw [pin, has_xor]
    cases has pins pinNo <;> simp
  rw [kept, same]

/-- Disabling the sensing of a user's pins leaves the other pins alone. -/
theorem pinsSenseDisable_pin (user : GpioteUser E) (pinCnf : PinCnf) (pinNo : Fin 32) :
    Gpiote.pinsSenseDisable user pinCnf pinNo =
      if has user.pinsMask pinNo then .disabled else pinCnf pinNo := by
  -- Each turn sees to its own pin.
  refine foldl_finRange (fun (s : PinCnf) i => s i) (Gpiote.senseDisable user.pinsMask)
    (fun i seen => if has user.pinsMask i then .disabled else seen) ?_ ?_ pinCnf pinNo
  · intro s i
    simp only [Gpiote.senseDisable, and_bit_ne_zero]
    split
    · rw [Function.update_self]
    · rfl
  · intro s i j apart
    simp only [Gpiote.senseDisable]
    split
    · rw [Function.update_of_ne apart]
    · rfl

/-- Enabling senses for each pin the level that it does not have. -/
theorem senseOpposite_pins (pins pinsState : PinMask) (s : PinMask × PinCnf) (pinNo : Fin 32) :
    let sensing := (List.finRange 32).foldl (Gpiote.senseOpposite pins pinsState) s
    (has sensing.1 pinNo, sensing.2 pinNo) = if has pins pinNo then
      (if has pinsState pinNo then (has s.1 pinNo, .low) else (true, .high))
      else (has s.1 pinNo, s.2 pinNo) := by
  refine foldl_finRange (fun (s : PinMask × PinCnf) i => (has s.1 i, s.2 i))
    (Gpiote.senseOpposite pins pinsState) (fun i seen => if has pins i then
      (if has pinsState i then (seen.1, .low) else (true, .high)) else seen) ?_ ?_ s pinNo
  · -- A turn for a pin does to it what the list of cases says.
    intro s i
    simp only [Gpiote.senseOpposite, and_bit_ne_zero]
    cases has pins i <;> cases has pinsState i <;> simp
  · -- A turn for another pin leaves it alone.
    intro s i j apart
    have apart_ : j.val ≠ i.val := fun same => apart (Fin.ext same)
    unfold Gpiote.senseOpposite
    split
    · split
      · simp [Function.update_of_ne apart]
      · simp [Function.update_of_ne apart, apart_]
    · rfl

/-! ### Users as edge detectors -/

/-- A user remembers the levels of its pins that were seen last by what it senses. -/
def GpioteUser.detector (user : GpioteUser E) (enabled : Bool) : EdgeDetector E where
  rising := user.pinsLowToHighMask
  falling := user.pinsHighToLowMask
  eventHandler := user.eventHandler
  last := if enabled then some (~~~user.senseHighPins &&& user.pinsMask) else none

/-- Whether a user is enabled. -/
def isEnabled (enabledUsersMask : PinMask) (userId : Nat) : Bool :=
  decide (bit userId &&& enabledUsersMask ≠ 0#32)

/-- A user that has a bit in the mask is enabled as its bit says. -/
theorem isEnabled_eq_has (enabledUsersMask : PinMask) {userId : Nat} (inside : userId < 32) :
    isEnabled enabledUsersMask userId = has enabledUsersMask ⟨userId, inside⟩ := by
  unfold isEnabled
  rw [BitVec.and_comm, Bool.eq_iff_iff, decide_eq_true_eq]
  exact and_bit_ne_zero enabledUsersMask ⟨userId, inside⟩

/-- Enabling a user leaves the others as they are. -/
theorem isEnabled_or_bit (enabledUsersMask : PinMask) {userId other : Nat} (low : other < 32) :
    isEnabled (enabledUsersMask ||| bit userId) other =
      (isEnabled enabledUsersMask other || decide (other = userId)) := by
  rw [isEnabled_eq_has _ low, isEnabled_eq_has _ low, has_or, has_bit]

/-- So does disabling one. -/
theorem isEnabled_and_not_bit (enabledUsersMask : PinMask) {userId other : Nat}
    (low : other < 32) : isEnabled (enabledUsersMask &&& ~~~bit userId) other =
      (isEnabled enabledUsersMask other && !decide (other = userId)) := by
  rw [isEnabled_eq_has _ low, isEnabled_eq_has _ low, has_and, has_not, has_bit]

/-- The users as detectors. -/
def detectorsOf (enabled : Nat → Bool) (users : List (GpioteUser E)) : List (EdgeDetector E) :=
  users.mapIdx fun userId user => user.detector (enabled userId)

/-- A pin belongs to a user if the user wants events for one of its edges. -/
theorem GpioteUser.has_pinsMask (user : GpioteUser E) (pinNo : Fin 32) :
    has user.pinsMask pinNo =
      (has user.pinsLowToHighMask pinNo || has user.pinsHighToLowMask pinNo) := by
  rw [user.monitors, has_or]

/-- An enabled user is called for the edges that its detector finds. -/
theorem GpioteUser.check_events (user : GpioteUser E) (pinsState : PinMask) (pinCnf : PinCnf) :
    (user.check pinsState pinCnf).1 = (user.detector true).find pinsState := by
  -- A pin has risen if it is high now, and was sensed for that.
  have rises : pinsState &&& user.pinsLowToHighMask &&&
      ((pinsState ^^^ ~~~user.senseHighPins) &&& user.pinsMask) =
      pinsState &&& ~~~(~~~user.senseHighPins &&& user.pinsMask) &&& user.pinsLowToHighMask := by
    apply ext_has
    intro pinNo
    simp only [has_and, has_xor, has_not, user.has_pinsMask]
    cases has pinsState pinNo <;> cases has user.pinsLowToHighMask pinNo <;> simp
  -- And it has fallen if it is low, and was sensed for that.
  have falls : ~~~pinsState &&& user.pinsHighToLowMask &&&
      ((pinsState ^^^ ~~~user.senseHighPins) &&& user.pinsMask) =
      ~~~pinsState &&& (~~~user.senseHighPins &&& user.pinsMask) &&& user.pinsHighToLowMask := by
    apply ext_has
    intro pinNo
    simp only [has_and, has_xor, has_not, user.has_pinsMask]
    cases has pinsState pinNo <;> cases has user.pinsHighToLowMask pinNo <;> simp
  simp only [GpioteUser.check, EdgeDetector.find, GpioteUser.detector, if_true, rises, falls]

/-- Then it has seen the levels of its pins. -/
theorem GpioteUser.check_detector (user : GpioteUser E) (pinsState : PinMask) (pinCnf : PinCnf) :
    (user.check pinsState pinCnf).2.1.detector true = (user.detector true).see pinsState := by
  -- Where the level has changed the sensing is inverted, so afterwards it is opposite to the level.
  have seen : ~~~(user.senseHighPins ^^^ ((pinsState ^^^ ~~~user.senseHighPins) &&&
      user.pinsMask)) &&& user.pinsMask =
      pinsState &&& (user.pinsLowToHighMask ||| user.pinsHighToLowMask) := by
    rw [← user.monitors]
    apply ext_has
    intro pinNo
    simp only [has_and, has_xor, has_not]
    cases has pinsState pinNo <;> cases has user.pinsMask pinNo <;>
      cases has user.senseHighPins pinNo <;> rfl
  simp only [GpioteUser.check, senseLevelToggle_user, GpioteUser.detector, if_true, seen,
    EdgeDetector.see, EdgeDetector.look, EdgeDetector.pins, Option.map_some]

/-- The interrupt finds what the detectors find, user after user. -/
theorem usersCheck_spec (pinsState enabledUsersMask : PinMask) (users : List (GpioteUser E)) :
    ∀ (i : Nat) (pinCnf : PinCnf),
      let enabled := fun userId => isEnabled enabledUsersMask (i + userId)
      let checked := usersCheck pinsState enabledUsersMask i users pinCnf
      checked.1 = (detectorsOf enabled users).flatMap (·.find pinsState) ∧
        detectorsOf enabled checked.2.1 = (detectorsOf enabled users).map (·.see pinsState) ∧
        checked.2.1.length = users.length := by
  -- The users are checked in order, each one from what those before have left.
  induction users with
  | nil => exact fun i pinCnf => ⟨rfl, rfl, rfl⟩
  | cons user rest ih =>
    intro i pinCnf enabled checked
    -- The users behind are numbered from the next index on.
    have shift : (fun userId => isEnabled enabledUsersMask (i + 1 + userId)) =
        fun userId => enabled (userId + 1) := by
      funext userId
      show isEnabled _ (i + 1 + userId) = isEnabled _ (i + (userId + 1))
      congr 1
      omega
    have first : isEnabled enabledUsersMask i = enabled 0 := rfl
    by_cases on : bit i &&& enabledUsersMask ≠ 0#32
    · -- The first user is checked.
      have enabled_ : enabled 0 = true := decide_eq_true on
      obtain ⟨events, detectors, length⟩ := ih (i + 1) (user.check pinsState pinCnf).2.2
      rw [shift] at events detectors
      simp only [checked, usersCheck, if_pos on, detectorsOf, List.mapIdx_cons,
        List.flatMap_cons, List.map_cons, List.length_cons] at events detectors length ⊢
      rw [enabled_, events, detectors, length, user.check_events, user.check_detector]
      exact ⟨rfl, rfl, rfl⟩
    · -- It is passed over, and its detector is disabled, too.
      have disabled : enabled 0 = false := decide_eq_false on
      obtain ⟨events, detectors, length⟩ := ih (i + 1) pinCnf
      rw [shift] at events detectors
      simp only [checked, usersCheck, if_neg on, detectorsOf, List.mapIdx_cons,
        List.flatMap_cons, List.map_cons, List.length_cons] at events detectors length ⊢
      rw [disabled, events, detectors, length]
      exact ⟨rfl, rfl, rfl⟩

/-- The module stands for a row of detectors that have found the same events. -/
structure StandsFor (s : GpioteRun E) (b : DetectorBank E) : Prop where
  size : b.size = s.gpiote.userArraySize
  few : s.gpiote.userArraySize ≤ 32
  room : s.gpiote.users.length ≤ s.gpiote.userArraySize
  registered : ∀ userId : Fin 32, has s.gpiote.enabledUsersMask userId = true →
    userId.val < s.gpiote.users.length
  detectors : b.detectors =
    detectorsOf (isEnabled s.gpiote.enabledUsersMask) s.gpiote.users
  events : b.events = s.events

/-- A call for one user changes one detector. -/
theorem detectorsOf_set {enabled enabled' : Nat → Bool} {users : List (GpioteUser E)}
    {userId : Nat} {user : GpioteUser E} (registered : users[userId]? = some user)
    (user' : GpioteUser E) (others : ∀ other < users.length, other ≠ userId →
      enabled' other = enabled other) (f : EdgeDetector E → EdgeDetector E)
    (here : user'.detector (enabled' userId) = f (user.detector (enabled userId))) :
    detectorsOf enabled' (users.set userId user') =
      (detectorsOf enabled users).modify userId f := by
  apply List.ext_getElem?
  intro other
  simp only [detectorsOf, List.getElem?_mapIdx, List.getElem?_modify]
  -- At the number of the call the detector is the new one, and at the others it is the old one.
  by_cases same : userId = other
  · subst same
    have inside : userId < users.length := (List.getElem?_eq_some_iff.mp registered).1
    rw [List.getElem?_set_self inside, registered]
    simp [here]
  · rw [List.getElem?_set_ne same]
    by_cases inside : other < users.length
    · rw [others other inside (Ne.symm same)]
      simp [same]
    · rw [List.getElem?_eq_none (Nat.le_of_not_lt inside)]
      rfl

/-- Nobody is registered under the number, so no detector changes. -/
theorem modify_of_none {detectors : List (EdgeDetector E)} {userId : Nat}
    (unregistered : detectors[userId]? = none) (f : EdgeDetector E → EdgeDetector E) :
    detectors.modify userId f = detectors := by
  apply List.ext_getElem?
  intro other
  rw [List.getElem?_modify]
  by_cases same : userId = other
  · subst same
    rw [unregistered]
    rfl
  · simp [same]

section

variable {s : GpioteRun E} {b : DetectorBank E}

/-- Whoever is registered has a number below 32. -/
theorem StandsFor.lt (stands : StandsFor s b) {userId : Nat} {user : GpioteUser E}
    (registered : s.gpiote.users[userId]? = some user) :
    userId < s.gpiote.users.length ∧ userId < 32 := by
  have inside : userId < s.gpiote.users.length := (List.getElem?_eq_some_iff.mp registered).1
  exact ⟨inside, (inside.trans_le stands.room).trans_le stands.few⟩

/-- Without a user there is no detector. -/
theorem StandsFor.none (stands : StandsFor s b) {userId : Nat}
    (unregistered : s.gpiote.users[userId]? = none) : b.detectors[userId]? = none := by
  rw [stands.detectors, detectorsOf, List.getElem?_mapIdx, unregistered]
  rfl

/-- A registration is one of a detector, or both are full. -/
theorem StandsFor.userRegister (stands : StandsFor s b)
    (pinsLowToHighMask pinsHighToLowMask : PinMask) (eventHandler : E) :
    StandsFor (s.step (.userRegister pinsLowToHighMask pinsHighToLowMask eventHandler))
      (b.step (.userRegister pinsLowToHighMask pinsHighToLowMask eventHandler)) := by
  have length : b.detectors.length = s.gpiote.users.length := by
    rw [stands.detectors, detectorsOf, List.length_mapIdx]
  by_cases full : s.gpiote.users.length ≥ s.gpiote.userArraySize
  · -- The array of users is full, and so is the row of detectors.
    have same : ¬ b.detectors.length < b.size := by
      rw [length, stands.size]
      exact Nat.not_lt.mpr full
    simp only [GpioteRun.step, Gpiote.appGpioteUserRegister, if_pos full, DetectorBank.step,
      if_neg same]
    exact stands
  · have same : b.detectors.length < b.size := by
      rw [length, stands.size]
      exact Nat.lt_of_not_le full
    have inside : s.gpiote.users.length < 32 :=
      (Nat.lt_of_not_le full).trans_le stands.few
    -- A new user is not enabled, as only those before it can be.
    have disabled : isEnabled s.gpiote.enabledUsersMask s.gpiote.users.length = false := by
      rw [isEnabled_eq_has _ inside]
      by_contra on
      exact absurd (stands.registered _ (Bool.eq_true_of_not_eq_false on)) (Nat.lt_irrefl _)
    simp only [GpioteRun.step, Gpiote.appGpioteUserRegister, if_neg full, DetectorBank.step,
      if_pos same]
    refine ⟨stands.size, stands.few, ?_, fun userId on => ?_, ?_, stands.events⟩
    · simp only [List.length_append, List.length_singleton]
      omega
    · -- The users that are enabled have been registered before.
      have before := stands.registered userId on
      simp only [List.length_append, List.length_singleton]
      omega
    · -- The new detector is the one that stands for a disabled user.
      simp only [stands.detectors, detectorsOf, List.mapIdx_append, List.mapIdx_cons,
        List.mapIdx_nil, Nat.zero_add, disabled]
      rfl

/-- A user that is enabled has its detector look at the pins. -/
theorem StandsFor.userEnable (stands : StandsFor s b) (userId : Nat) (pinsState : PinMask) :
    StandsFor (s.step (.userEnable userId pinsState)) (b.step (.userEnable userId pinsState)) := by
  simp only [GpioteRun.step, Gpiote.appGpioteUserEnable, DetectorBank.step]
  cases found : s.gpiote.users[userId]? with
  | none =>
    simp only [modify_of_none (stands.none found)]
    exact stands
  | some user =>
    obtain ⟨inside, low⟩ := stands.lt found
    refine ⟨stands.size, stands.few, ?_, fun other on => ?_, ?_, stands.events⟩
    · simp only [List.length_set]
      exact stands.room
    · simp only [has_or, has_bit, Bool.or_eq_true, decide_eq_true_eq] at on
      simp only [List.length_set]
      rcases on with before | here
      · exact stands.registered other before
      · rw [here]
        exact inside
    · rw [stands.detectors]
      refine (detectorsOf_set found _ (fun other registered apart => ?_) _ ?_).symm
      · -- The detectors of the other users stay as they are.
        rw [isEnabled_or_bit _ ((registered.trans_le stands.room).trans_le stands.few)]
        simp [apart]
      · rw [isEnabled_or_bit _ low]
        -- What is sensed are the pins with a low level.
        have seen : ~~~((List.finRange 32).foldl (Gpiote.senseOpposite user.pinsMask pinsState)
            (0#32, s.gpiote.pinCnf)).1 &&& user.pinsMask =
            pinsState &&& (user.pinsLowToHighMask ||| user.pinsHighToLowMask) := by
          rw [← user.monitors]
          apply ext_has
          intro pinNo
          have pin := congrArg Prod.fst
            (senseOpposite_pins user.pinsMask pinsState (0#32, s.gpiote.pinCnf) pinNo)
          simp only at pin
          rw [has_and, has_not, has_and, pin]
          cases has user.pinsMask pinNo <;> cases has pinsState pinNo <;> simp
        simp [GpioteUser.detector, EdgeDetector.look, EdgeDetector.pins, seen]

/-- A user that is disabled has its detector forget the pins. -/
theorem StandsFor.userDisable (stands : StandsFor s b) (userId : Nat) :
    StandsFor (s.step (.userDisable userId)) (b.step (.userDisable userId)) := by
  simp only [GpioteRun.step, Gpiote.appGpioteUserDisable, DetectorBank.step]
  cases found : s.gpiote.users[userId]? with
  | none =>
    simp only [modify_of_none (stands.none found)]
    exact stands
  | some user =>
    obtain ⟨inside, low⟩ := stands.lt found
    refine ⟨stands.size, stands.few, stands.room, fun other on => ?_, ?_, stands.events⟩
    · -- Whoever is still enabled has been so before.
      simp only [has_and, Bool.and_eq_true] at on
      exact stands.registered other on.1
    · rw [stands.detectors]
      have kept : s.gpiote.users = s.gpiote.users.set userId user := by
        obtain ⟨_, here⟩ := List.getElem?_eq_some_iff.mp found
        rw [← here, List.set_getElem_self]
      conv_rhs => rw [kept]
      refine (detectorsOf_set found _ (fun other registered apart => ?_) _ ?_).symm
      · rw [isEnabled_and_not_bit _ ((registered.trans_le stands.room).trans_le stands.few)]
        simp [apart]
      · -- The detector of the user remembers no levels any more.
        rw [isEnabled_and_not_bit _ low]
        simp [GpioteUser.detector]

/-- An interrupt lets all detectors look at the pins. -/
theorem StandsFor.irqHandler (stands : StandsFor s b) (pinsState : PinMask) :
    StandsFor (s.step (.irqHandler pinsState)) (b.step (.irqHandler pinsState)) := by
  -- The check does both at once, and nothing else changes.
  obtain ⟨events, detectors, length⟩ := usersCheck_spec pinsState s.gpiote.enabledUsersMask
    s.gpiote.users 0 s.gpiote.pinCnf
  simp only [Nat.zero_add] at events detectors length
  simp only [GpioteRun.step, Gpiote.gpioteIrqHandler, DetectorBank.step]
  refine ⟨stands.size, stands.few, ?_, fun userId on => ?_, ?_, ?_⟩
  · rw [length]
    exact stands.room
  · rw [length]
    exact stands.registered userId on
  · rw [stands.detectors]
    exact detectors.symm
  · rw [stands.events, stands.detectors, events]

/-- Each step of the module is the same step of the detectors. -/
theorem StandsFor.step (stands : StandsFor s b) (next : GpioteStep E) :
    StandsFor (s.step next) (b.step next) := by
  cases next with
  | userRegister pinsLowToHighMask pinsHighToLowMask eventHandler =>
    exact stands.userRegister pinsLowToHighMask pinsHighToLowMask eventHandler
  | userEnable userId pinsState => exact stands.userEnable userId pinsState
  | userDisable userId => exact stands.userDisable userId
  | irqHandler pinsState => exact stands.irqHandler pinsState

end

/-- In every run, the module stands for the detectors that take the same steps. -/
theorem standsFor_run (maxUsers : Nat) (few : maxUsers ≤ 32) (steps : List (GpioteStep E)) :
    StandsFor (StepMachine.run GpioteRun.step (.init maxUsers) steps)
      (StepMachine.run DetectorBank.step (.init maxUsers) steps) := by
  -- At first there are no users and no detectors.
  refine StepMachine.run_related (fun _ _ next stands => stands.step next) steps _ _ ?_
  refine ⟨rfl, few, Nat.zero_le _, fun userId on => ?_, rfl, rfl⟩
  have nobody : has (0#32) userId = true := on
  rw [has_zero] at nobody
  cases nobody

/-- In every run, the event handlers are called exactly for the edges that the detectors find. -/
theorem GpioteRun.events_found (maxUsers : Nat) (few : maxUsers ≤ 32)
    (steps : List (GpioteStep E)) :
    (StepMachine.run GpioteRun.step (.init maxUsers) steps).events =
      (StepMachine.run DetectorBank.step (.init maxUsers) steps).events :=
  (standsFor_run maxUsers few steps).events.symm

/-- A button on pin 0 is pressed, while a second user waits for the edges of pin 1. -/
def pressedRun : List (GpioteStep Nat) :=
  [.userRegister 0 1 7, .userRegister 2 2 9, .userEnable 0 3, .userEnable 1 3, .irqHandler 2]

/-- The press is found once, letting go is not asked for, and both edges of the other pin are. -/
theorem GpioteRun.events_found_released :
    (2 ≤ 32) ∧ (StepMachine.run GpioteRun.step (.init 2)
      (pressedRun ++ [.irqHandler 1, .userDisable 0, .irqHandler 2])).events =
        [⟨7, 0, 1⟩, ⟨9, 0, 2⟩, ⟨9, 2, 0⟩] :=
  ⟨by decide, (GpioteRun.events_found 2 (by decide) _).trans (by decide +kernel)⟩

end BleHub
