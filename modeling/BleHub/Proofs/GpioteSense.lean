import BleHub.Proofs.Gpiote

/-!
As long as no two users share a pin, the PORT event interrupts exactly while there is something
that an enabled user has not seen yet.
-/

namespace BleHub

open BitMask

variable {E : Type}

/-- What one of a user's pins has to be sensed for. -/
def GpioteUser.senses (user : GpioteUser E) (pinNo : Fin 32) : PinSense :=
  bif has user.senseHighPins pinNo then .high else .low

/-- An enabled user monitors a pin. -/
def Watches (enabled : Nat → Bool) (users : List (GpioteUser E)) (userId : Nat)
    (user : GpioteUser E) (pinNo : Fin 32) : Prop :=
  users[userId]? = some user ∧ enabled userId = true ∧ has user.pinsMask pinNo = true

/-- Watching is the same for those behind the first user, who are numbered from the next index. -/
theorem watches_cons {enabledUsersMask : PinMask} {i : Nat} {first : GpioteUser E}
    {rest : List (GpioteUser E)} {userId : Nat} {user : GpioteUser E} {pinNo : Fin 32} :
    Watches (fun k => isEnabled enabledUsersMask (i + k)) (first :: rest) (userId + 1) user
        pinNo ↔
      Watches (fun k => isEnabled enabledUsersMask (i + 1 + k)) rest userId user pinNo := by
  simp only [Watches, List.getElem?_cons_succ, Nat.add_right_comm i 1, Nat.add_assoc]

/-- No two users monitor the same pin. -/
def Separate (users : List (GpioteUser E)) : Prop :=
  users.Pairwise fun one other => one.pinsMask &&& other.pinsMask = 0#32

/-- Then a pin of one user is no pin of another. -/
theorem Separate.missing {users : List (GpioteUser E)} (separate : Separate users)
    {userId other : Nat} {user user' : GpioteUser E} (here : users[userId]? = some user)
    (there : users[other]? = some user') (apart : other ≠ userId) {pinNo : Fin 32}
    (own : has user.pinsMask pinNo = true) : has user'.pinsMask pinNo = false := by
  obtain ⟨inside, rfl⟩ := List.getElem?_eq_some_iff.mp here
  obtain ⟨inside', rfl⟩ := List.getElem?_eq_some_iff.mp there
  -- Whichever of the two has been registered first, their masks have no pin in common.
  have disjoint : users[userId].pinsMask &&& users[other].pinsMask = 0#32 := by
    rcases Nat.lt_or_gt_of_ne apart with before | behind
    · rw [BitVec.and_comm]
      exact List.pairwise_iff_getElem.mp separate other userId inside' inside before
    · exact List.pairwise_iff_getElem.mp separate userId other inside inside' behind
  have pin := congrArg (has · pinNo) disjoint
  simpa [own] using pin

/-! ### The interrupt -/

/-- Checking a user leaves the pins of others alone. -/
theorem GpioteUser.check_elsewhere (user : GpioteUser E) (pinsState : PinMask) (pinCnf : PinCnf)
    {pinNo : Fin 32} (missing : has user.pinsMask pinNo = false) :
    (user.check pinsState pinCnf).2.2 pinNo = pinCnf pinNo := by
  -- Only pins of the user are toggled.
  have pin := congrArg Prod.snd (senseLevelToggle_pins user
    ((pinsState ^^^ ~~~user.senseHighPins) &&& user.pinsMask) pinCnf pinNo)
  simp only [has_and, missing, Bool.and_false, Bool.false_eq_true, if_false] at pin
  exact pin

/-- Its own pins are then sensed for what it wants next. -/
theorem GpioteUser.check_senses (user : GpioteUser E) (pinsState : PinMask) (pinCnf : PinCnf)
    {pinNo : Fin 32} (sensed : pinCnf pinNo = user.senses pinNo) :
    (user.check pinsState pinCnf).2.2 pinNo =
      (user.check pinsState pinCnf).2.1.senses pinNo := by
  -- The set of pins and the sensing of a pin are switched over together.
  have pins := senseLevelToggle_pins user
    ((pinsState ^^^ ~~~user.senseHighPins) &&& user.pinsMask) pinCnf pinNo
  rw [sensed] at pins
  have set := congrArg Prod.fst pins
  have cnf := congrArg Prod.snd pins
  show (senseLevelToggle _ _ _).2 pinNo =
    bif has (senseLevelToggle _ _ _).1.senseHighPins pinNo then .high else .low
  simp only at set cnf
  rw [set, cnf]
  -- Either way, a pin is in the set exactly if it is sensed for the high level.
  split
  · cases has user.senseHighPins pinNo <;> rfl
  · rfl

/-- A user monitors the same pins as before. -/
theorem GpioteUser.check_pinsMask (user : GpioteUser E) (pinsState : PinMask) (pinCnf : PinCnf) :
    (user.check pinsState pinCnf).2.1.pinsMask = user.pinsMask := by
  simp only [GpioteUser.check, senseLevelToggle_user]

/-- The interrupt leaves the pins alone that no enabled user monitors. -/
theorem usersCheck_elsewhere (pinsState enabledUsersMask : PinMask) (users : List (GpioteUser E))
    (pinNo : Fin 32) : ∀ (i : Nat) (pinCnf : PinCnf),
      (∀ userId user, ¬ Watches (fun k => isEnabled enabledUsersMask (i + k)) users userId user
        pinNo) →
        (usersCheck pinsState enabledUsersMask i users pinCnf).2.2 pinNo = pinCnf pinNo := by
  -- User after user leaves the pin as it is.
  induction users with
  | nil => exact fun i pinCnf _ => rfl
  | cons user rest ih =>
    intro i pinCnf nobody
    -- Nobody behind the first user monitors the pin.
    have behind : ∀ userId user', ¬ Watches (fun k => isEnabled enabledUsersMask (i + 1 + k)) rest
        userId user' pinNo :=
      fun userId user' watches => nobody (userId + 1) user' (watches_cons.mpr watches)
    by_cases on : bit i &&& enabledUsersMask ≠ 0#32
    · have missing : has user.pinsMask pinNo = false :=
        Bool.eq_false_of_not_eq_true fun own => nobody 0 user ⟨rfl, decide_eq_true on, own⟩
      simp only [usersCheck, if_pos on]
      rw [ih (i + 1) _ behind, user.check_elsewhere pinsState pinCnf missing]
    · simp only [usersCheck, if_neg on]
      exact ih (i + 1) _ behind

/-- The users monitor the same pins as before the interrupt. -/
theorem usersCheck_pinsMask (pinsState enabledUsersMask : PinMask) (users : List (GpioteUser E)) :
    ∀ (i : Nat) (pinCnf : PinCnf),
      (usersCheck pinsState enabledUsersMask i users pinCnf).2.1.map (·.pinsMask) =
        users.map (·.pinsMask) := by
  -- Checking a user changes what it senses only.
  induction users with
  | nil => exact fun i pinCnf => rfl
  | cons user rest ih =>
    intro i pinCnf
    simp only [usersCheck, List.map_cons, ih]
    split
    · rw [user.check_pinsMask]
    · rfl

/-- The pins of the enabled users are sensed for what they want after the interrupt. -/
theorem usersCheck_own (pinsState enabledUsersMask : PinMask) (users : List (GpioteUser E)) :
    ∀ (i : Nat) (pinCnf : PinCnf), Separate users →
      (∀ userId user pinNo, Watches (fun k => isEnabled enabledUsersMask (i + k)) users userId user
        pinNo → pinCnf pinNo = user.senses pinNo) →
      ∀ userId user pinNo, Watches (fun k => isEnabled enabledUsersMask (i + k))
        (usersCheck pinsState enabledUsersMask i users pinCnf).2.1 userId user pinNo →
        (usersCheck pinsState enabledUsersMask i users pinCnf).2.2 pinNo = user.senses pinNo := by
  -- The pins of the first user are safe from the others, and theirs from it.
  induction users with
  | nil =>
    rintro i pinCnf separate before userId user pinNo ⟨there, _, _⟩
    cases there
  | cons first rest ih =>
    intro i pinCnf separate before
    obtain ⟨others, separate⟩ := List.pairwise_cons.mp separate
    -- What those behind have been sensed for is still so when it is their turn.
    have passed : ∀ userId user pinNo, Watches (fun k => isEnabled enabledUsersMask (i + 1 + k))
        rest userId user pinNo → (if bit i &&& enabledUsersMask ≠ 0#32
          then first.check pinsState pinCnf else ([], first, pinCnf)).2.2 pinNo =
          user.senses pinNo := by
      intro userId user pinNo watches
      have sensed := before (userId + 1) user pinNo (watches_cons.mpr watches)
      have missing : has first.pinsMask pinNo = false := by
        have pin := congrArg (has · pinNo) (others user (List.mem_of_getElem? watches.1))
        simpa [watches.2.2] using pin
      split
      · -- The first user may have checked its pins, of which this is none.
        rw [first.check_elsewhere pinsState pinCnf missing, sensed]
      · exact sensed
    intro userId user pinNo watches
    cases userId with
    | zero =>
      obtain ⟨here, on, own⟩ := watches
      have enabled : bit i &&& enabledUsersMask ≠ 0#32 := of_decide_eq_true on
      simp only [usersCheck, if_pos enabled, List.getElem?_cons_zero, Option.some.injEq]
        at here passed ⊢
      subst here
      rw [first.check_pinsMask] at own
      -- Those behind the first user leave its pins alone.
      rw [usersCheck_elsewhere pinsState enabledUsersMask rest pinNo (i + 1)]
      · exact first.check_senses pinsState pinCnf (before 0 first pinNo ⟨rfl, on, own⟩)
      · rintro userId user ⟨there, _, owned⟩
        have pin := congrArg (has · pinNo) (others user (List.mem_of_getElem? there))
        simp [own, owned] at pin
    | succ userId => exact ih (i + 1) _ separate passed userId user pinNo (watches_cons.mp watches)

/-! ### Steps of the module -/

/-- A new user monitors the pins it has asked for. -/
theorem Gpiote.pinsMask_registered {g g' : Gpiote E} {pinsLowToHighMask pinsHighToLowMask : PinMask}
    {eventHandler : E} {errCode : ErrCode} {userId : Nat}
    (registered : g.appGpioteUserRegister pinsLowToHighMask pinsHighToLowMask eventHandler =
      (errCode, some userId, g')) :
    (g'.users.map (·.pinsMask))[userId]? = some (pinsLowToHighMask ||| pinsHighToLowMask) := by
  unfold Gpiote.appGpioteUserRegister at registered
  -- A full array registers nobody, and otherwise the new user is the last one.
  split at registered
  · simp at registered
  · simp only [Prod.mk.injEq, Option.some.injEq] at registered
    obtain ⟨-, rfl, rfl⟩ := registered
    simp

/-- Users are only added, and keep their pins. -/
theorem GpioteRun.pinsMask_step (s : GpioteRun E) (next : GpioteStep E) :
    s.gpiote.users.map (·.pinsMask) <+: (s.step next).gpiote.users.map (·.pinsMask) := by
  -- Only a registration adds a user, and only at the end.
  cases next with
  | userRegister pinsLowToHighMask pinsHighToLowMask eventHandler =>
    simp only [GpioteRun.step, Gpiote.appGpioteUserRegister]
    split
    · exact List.prefix_refl _
    · -- The new user comes behind all others.
      rw [List.map_append]
      exact List.prefix_append _ _
  | userEnable userId pinsState =>
    simp only [GpioteRun.step, Gpiote.appGpioteUserEnable]
    cases found : s.gpiote.users[userId]? with
    | none => exact List.prefix_refl _
    | some user =>
      -- The user that is set has the same pins as before.
      refine ⟨[], (List.append_nil _).trans ?_⟩
      apply List.ext_getElem?
      intro other
      simp only [List.getElem?_map]
      by_cases same : userId = other
      · subst same
        rw [List.getElem?_set_self (List.getElem?_eq_some_iff.mp found).1, found]
        rfl
      · rw [List.getElem?_set_ne same]
  | userDisable userId =>
    simp only [GpioteRun.step, Gpiote.appGpioteUserDisable]
    cases s.gpiote.users[userId]? with
    | none => exact List.prefix_refl _
    | some user => exact List.prefix_refl _
  | irqHandler pinsState =>
    exact ⟨[], (List.append_nil _).trans (usersCheck_pinsMask pinsState _ _ 0 _).symm⟩

/-- So no two users have shared a pin before, if they do not now. -/
theorem Separate.before {s : GpioteRun E} {next : GpioteStep E}
    (separate : Separate (s.step next).gpiote.users) : Separate s.gpiote.users :=
  List.pairwise_map.mp
    ((List.pairwise_map (R := fun one other => one &&& other = 0#32).mpr separate).sublist
      (s.pinsMask_step next).sublist)

/-- The pins of the enabled users are sensed for what they want next, and the others are not. -/
structure Sensed (g : Gpiote E) : Prop where
  own : ∀ userId user pinNo, Watches (isEnabled g.enabledUsersMask) g.users userId user pinNo →
    g.pinCnf pinNo = user.senses pinNo
  free : ∀ pinNo,
    (∀ userId user, ¬ Watches (isEnabled g.enabledUsersMask) g.users userId user pinNo) →
      g.pinCnf pinNo = .disabled
  interrupt : g.portInterrupt = decide (g.enabledUsersMask ≠ 0#32)

section

variable {s : GpioteRun E} {b : DetectorBank E}

/-- An enabled user is registered. -/
theorem StandsFor.isEnabled_lt (stands : StandsFor s b) {userId : Nat} (low : userId < 32)
    (on : isEnabled s.gpiote.enabledUsersMask userId = true) :
    userId < s.gpiote.users.length := by
  rw [isEnabled_eq_has _ low] at on
  exact stands.registered _ on

/-- A new user is not enabled, so its pins stay as they are. -/
theorem Sensed.userRegister (sensed : Sensed s.gpiote) (stands : StandsFor s b)
    (pinsLowToHighMask pinsHighToLowMask : PinMask) (eventHandler : E)
    (separate : Separate (s.step (.userRegister pinsLowToHighMask pinsHighToLowMask
      eventHandler)).gpiote.users) :
    Sensed (s.step (.userRegister pinsLowToHighMask pinsHighToLowMask eventHandler)).gpiote := by
  by_cases full : s.gpiote.users.length ≥ s.gpiote.userArraySize
  · -- A full array refuses the user, and nothing changes.
    simp only [GpioteRun.step, Gpiote.appGpioteUserRegister, if_pos full]
    exact sensed
  · simp only [GpioteRun.step, Gpiote.appGpioteUserRegister, if_neg full] at separate ⊢
    have low : s.gpiote.users.length < 32 := (Nat.lt_of_not_le full).trans_le stands.few
    -- Whoever is enabled has been registered before.
    have old : ∀ {new : GpioteUser E} {userId user pinNo}, Watches
        (isEnabled s.gpiote.enabledUsersMask) (s.gpiote.users ++ [new]) userId user pinNo →
        userId < s.gpiote.users.length ∧
          Watches (isEnabled s.gpiote.enabledUsersMask) s.gpiote.users userId user pinNo := by
      rintro new userId user pinNo ⟨there, on, own⟩
      have short := (List.getElem?_eq_some_iff.mp there).1
      rw [List.length_append, List.length_singleton] at short
      have inside := stands.isEnabled_lt (by omega) on
      exact ⟨inside, by rwa [List.getElem?_append_left inside] at there, on, own⟩
    refine ⟨fun userId user pinNo watches => ?_, fun pinNo nobody => ?_, sensed.interrupt⟩
    · -- The pins of an enabled user are none of the new one, so they are left on.
      obtain ⟨inside, before⟩ := old watches
      have missing := separate.missing watches.1 List.getElem?_concat_length (Nat.ne_of_gt inside)
        watches.2.2
      refine (pinsSenseDisable_pin _ _ pinNo).trans ?_
      rw [missing]
      exact sensed.own userId user pinNo before
    · refine (pinsSenseDisable_pin _ _ pinNo).trans ?_
      -- The pins of the new user are turned off, and those of nobody have been off.
      split
      · rfl
      · refine sensed.free pinNo fun userId user watches => nobody userId user ?_
        have inside := (List.getElem?_eq_some_iff.mp watches.1).1
        exact ⟨by rw [List.getElem?_append_left inside, watches.1], watches.2⟩

/-- Enabling a user turns on the sensing of its pins, and of no others. -/
theorem Sensed.userEnable (sensed : Sensed s.gpiote) (stands : StandsFor s b) (userId : Nat)
    (pinsState : PinMask) (separate : Separate s.gpiote.users) :
    Sensed (s.step (.userEnable userId pinsState)).gpiote := by
  simp only [GpioteRun.step, Gpiote.appGpioteUserEnable]
  cases found : s.gpiote.users[userId]? with
  | none => exact sensed
  | some user =>
    obtain ⟨inside, low⟩ := stands.lt found
    refine ⟨fun other user' pinNo watches => ?_, fun pinNo nobody => ?_, ?_⟩
    · have pins := senseOpposite_pins user.pinsMask pinsState (0#32, s.gpiote.pinCnf) pinNo
      obtain ⟨there, on, own⟩ := watches
      by_cases same : other = userId
      · -- The user senses the level that its pin does not have.
        subst same
        rw [List.getElem?_set_self inside, Option.some.injEq] at there
        subst there
        rw [if_pos own] at pins
        split at pins
        · -- A pin that is high is sensed for the low level, and is not in the set.
          obtain ⟨set, cnf⟩ := Prod.mk.inj pins
          exact cnf.trans (congrArg (cond · PinSense.high PinSense.low)
            (set.trans (has_zero pinNo))).symm
        · -- A pin that is low is sensed for the high level, and is in the set.
          obtain ⟨set, cnf⟩ := Prod.mk.inj pins
          exact cnf.trans (congrArg (cond · PinSense.high PinSense.low) set).symm
      · -- The pins of the other users are not touched.
        rw [List.getElem?_set_ne (Ne.symm same)] at there
        have missing := separate.missing there found (Ne.symm same) own
        rw [isEnabled_or_bit _ (stands.lt there).2, decide_eq_false same, Bool.or_false] at on
        rw [if_neg (by rw [missing]; exact Bool.false_ne_true)] at pins
        exact (congrArg Prod.snd pins).trans (sensed.own other user' pinNo ⟨there, on, own⟩)
    · have pins := senseOpposite_pins user.pinsMask pinsState (0#32, s.gpiote.pinCnf) pinNo
      -- The user is enabled now, and does not have the pin either.
      have missing : has user.pinsMask pinNo ≠ true := by
        intro own
        refine nobody userId _ ⟨List.getElem?_set_self inside, ?_, own⟩
        rw [isEnabled_or_bit _ low, decide_eq_true rfl, Bool.or_true]
      rw [if_neg missing] at pins
      refine (congrArg Prod.snd pins).trans (sensed.free pinNo ?_)
      rintro other user' ⟨there, on, own⟩
      by_cases same : other = userId
      · rw [same, found, Option.some.injEq] at there
        subst there
        exact missing own
      · refine nobody other user' ⟨by rwa [List.getElem?_set_ne (Ne.symm same)], ?_, own⟩
        rw [isEnabled_or_bit _ (stands.lt there).2, on, Bool.true_or]
    · -- There is an enabled user now, and the interrupt is on.
      show (s.gpiote.portInterrupt || _) = _
      have some : s.gpiote.enabledUsersMask ||| bit userId ≠ 0#32 := by
        refine (ne_zero_iff _).mpr ⟨⟨userId, low⟩, ?_⟩
        rw [has_or, has_bit, decide_eq_true rfl, Bool.or_true]
      rw [sensed.interrupt, decide_eq_true some]
      by_cases none : s.gpiote.enabledUsersMask = 0#32 <;> simp [none]

/-- Disabling a user turns off the sensing of its pins, and of no others. -/
theorem Sensed.userDisable (sensed : Sensed s.gpiote) (stands : StandsFor s b) (userId : Nat)
    (separate : Separate s.gpiote.users) :
    Sensed (s.step (.userDisable userId)).gpiote := by
  simp only [GpioteRun.step, Gpiote.appGpioteUserDisable]
  cases found : s.gpiote.users[userId]? with
  | none => exact sensed
  | some user =>
    obtain ⟨inside, low⟩ := stands.lt found
    refine ⟨fun other user' pinNo watches => ?_, fun pinNo nobody => ?_, ?_⟩
    · obtain ⟨there, on, own⟩ := watches
      -- Whoever is still enabled is another user, with other pins.
      rw [isEnabled_and_not_bit _ (stands.lt there).2, Bool.and_eq_true, Bool.not_eq_true',
        decide_eq_false_iff_not] at on
      refine (pinsSenseDisable_pin _ _ pinNo).trans ?_
      rw [separate.missing there found (Ne.symm on.2) own]
      exact sensed.own other user' pinNo ⟨there, on.1, own⟩
    · refine (pinsSenseDisable_pin _ _ pinNo).trans ?_
      split
      · -- A pin of the user itself is turned off.
        rfl
      · -- Any other pin stays as it was, which is off if nobody else has it.
        rename_i missing
        refine sensed.free pinNo ?_
        rintro other user' ⟨there, on, own⟩
        by_cases same : other = userId
        · rw [same, found, Option.some.injEq] at there
          subst there
          exact missing own
        · refine nobody other user' ⟨there, ?_, own⟩
          rw [isEnabled_and_not_bit _ (stands.lt there).2, on, decide_eq_false same]
          rfl
    · -- The interrupt goes off with the last user.
      show (s.gpiote.portInterrupt && _) = _
      rw [sensed.interrupt]
      by_cases none : s.gpiote.enabledUsersMask = 0#32 <;> simp [none]

/-- The handler changes how a pin is sensed together with what its user expects. -/
theorem Sensed.irqHandler (sensed : Sensed s.gpiote) (pinsState : PinMask)
    (separate : Separate s.gpiote.users) :
    Sensed (s.step (.irqHandler pinsState)).gpiote := by
  simp only [GpioteRun.step, Gpiote.gpioteIrqHandler]
  have own := usersCheck_own pinsState s.gpiote.enabledUsersMask s.gpiote.users 0 s.gpiote.pinCnf
    separate
  have elsewhere := fun pinNo => usersCheck_elsewhere pinsState s.gpiote.enabledUsersMask
    s.gpiote.users pinNo 0 s.gpiote.pinCnf
  have masks := usersCheck_pinsMask pinsState s.gpiote.enabledUsersMask s.gpiote.users 0
    s.gpiote.pinCnf
  simp only [Nat.zero_add] at own elsewhere
  -- A pin that no enabled user has is not touched by any check.
  refine ⟨own sensed.own, fun pinNo nobody => ?_, sensed.interrupt⟩
  have before : ∀ userId user, ¬ Watches (isEnabled s.gpiote.enabledUsersMask) s.gpiote.users
      userId user pinNo := by
    rintro userId user ⟨there, on, own⟩
    -- The user is still there, with the same pins.
    have mask := congrArg (·[userId]?) masks
    simp only [List.getElem?_map, there, Option.map_some, Option.map_eq_some_iff] at mask
    obtain ⟨user', there', same⟩ := mask
    exact nobody userId user' ⟨there', on, by rw [same, own]⟩
  exact (elsewhere pinNo before).trans (sensed.free pinNo before)

/-- The detectors look at the pins that the users monitor. -/
theorem StandsFor.pins (stands : StandsFor s b) :
    b.detectors.map (·.pins) = s.gpiote.users.map (·.pinsMask) := by
  -- A detector looks at the pins that rise or fall for it, which its user monitors.
  apply List.ext_getElem?
  intro userId
  rw [stands.detectors, detectorsOf]
  simp only [List.getElem?_map, List.getElem?_mapIdx, Option.map_map]
  congr 1
  funext user
  exact user.monitors.symm

/-- So no two detectors look at the same pin exactly if no two users monitor it. -/
theorem StandsFor.apart_iff (stands : StandsFor s b) :
    b.Apart ↔ Separate s.gpiote.users := by
  -- Both say that no two masks of the list have a pin in common.
  have detectors : b.Apart ↔ (b.detectors.map (·.pins)).Pairwise fun one other =>
      one &&& other = 0#32 := by
    rw [List.pairwise_map]
    rfl
  have users : Separate s.gpiote.users ↔ (s.gpiote.users.map (·.pinsMask)).Pairwise
      fun one other => one &&& other = 0#32 := by
    rw [List.pairwise_map]
    rfl
  rw [detectors, users, stands.pins]

/-- Each step keeps the pins sensed for what the users want, as long as they share none. -/
theorem Sensed.step (sensed : Sensed s.gpiote) (stands : StandsFor s b) (next : GpioteStep E)
    (after : Separate (s.step next).gpiote.users) : Sensed (s.step next).gpiote := by
  have separate := after.before
  -- Enabling and disabling need the users apart before, a registration after.
  cases next with
  | userRegister pinsLowToHighMask pinsHighToLowMask eventHandler =>
    exact sensed.userRegister stands pinsLowToHighMask pinsHighToLowMask eventHandler after
  | userEnable userId pinsState => exact sensed.userEnable stands userId pinsState separate
  | userDisable userId => exact sensed.userDisable stands userId separate
  | irqHandler pinsState => exact sensed.irqHandler pinsState separate

end

/-- In every run at whose end no two users share a pin, the pins are sensed for what they want. -/
theorem sensed_run (maxUsers : Nat) (few : maxUsers ≤ 32) (steps : List (GpioteStep E))
    (apart : (StepMachine.run DetectorBank.step (.init maxUsers) steps).Apart) :
    Sensed (StepMachine.run GpioteRun.step (.init maxUsers) steps).gpiote := by
  have stands := standsFor_run maxUsers few steps
  have both : StandsFor (StepMachine.run GpioteRun.step (.init maxUsers) steps)
      (StepMachine.run DetectorBank.step (.init maxUsers) steps) ∧
      (Separate (StepMachine.run GpioteRun.step (.init maxUsers) steps).gpiote.users →
        Sensed (StepMachine.run GpioteRun.step (.init maxUsers) steps).gpiote) := by
    refine StepMachine.run_related (R := fun (s : GpioteRun E) (b : DetectorBank E) =>
      StandsFor s b ∧ (Separate s.gpiote.users → Sensed s.gpiote)) ?_ steps _ _ ?_
    · rintro s b next ⟨stands, sensed⟩
      -- Users that share no pin after the step have not shared one before it, either.
      exact ⟨stands.step next, fun separate => (sensed separate.before).step stands next separate⟩
    · -- At first there is no user, and no pin is sensed.
      refine ⟨standsFor_run maxUsers few [], fun _ => ⟨?_, fun pinNo _ => rfl, rfl⟩⟩
      rintro userId user pinNo ⟨there, _⟩
      cases there
  exact both.2 (stands.apart_iff.mp apart)

/-- An enabled user has something to see exactly if a pin of it has the level it is sensed for. -/
theorem GpioteUser.stale_iff {user : GpioteUser E} {pinsState : PinMask} :
    (user.detector true).Stale pinsState ↔ ∃ pinNo, has user.pinsMask pinNo = true ∧
      (user.senses pinNo).generates (has pinsState pinNo) = true := by
  have look : (user.detector true).look pinsState = pinsState &&& user.pinsMask := by
    rw [user.monitors]
    rfl
  -- What was seen last is the opposite of what is sensed.
  have pin : ∀ pinNo, has (~~~user.senseHighPins &&& user.pinsMask) pinNo ≠
      has (pinsState &&& user.pinsMask) pinNo ↔ has user.pinsMask pinNo = true ∧
        (user.senses pinNo).generates (has pinsState pinNo) = true := by
    intro pinNo
    simp only [has_and, has_not, GpioteUser.senses]
    cases has user.pinsMask pinNo <;> cases has user.senseHighPins pinNo <;>
      cases has pinsState pinNo <;> simp [PinSense.generates]
  constructor
  · -- If no pin had the level it is sensed for, all would look as they did last.
    rintro ⟨last, seen, ne⟩
    cases seen
    rw [look] at ne
    by_contra none
    exact ne (ext_has fun pinNo => by_contra fun differ => none ⟨pinNo, (pin pinNo).mp differ⟩)
  · -- A pin with that level looks different from last time.
    rintro ⟨pinNo, generates⟩
    refine ⟨_, rfl, fun same => (pin pinNo).mpr generates ?_⟩
    rw [← look, ← same]

/-- When the pins are sensed for what the users want, the interrupt tells what is unseen. -/
theorem StandsFor.interrupts_iff {s : GpioteRun E} {b : DetectorBank E} (stands : StandsFor s b)
    (sensed : Sensed s.gpiote) (pinsState : PinMask) :
    s.gpiote.Interrupts pinsState ↔ ∃ d ∈ b.detectors, d.Stale pinsState := by
  constructor
  · rintro ⟨_, pinNo, generates⟩
    -- A pin that is sensed belongs to an enabled user.
    obtain ⟨userId, user, watches⟩ : ∃ userId user,
        Watches (isEnabled s.gpiote.enabledUsersMask) s.gpiote.users userId user pinNo := by
      by_contra nobody
      rw [sensed.free pinNo fun userId user watches => nobody ⟨userId, user, watches⟩]
        at generates
      cases generates
    rw [sensed.own userId user pinNo watches] at generates
    refine ⟨user.detector true, ?_, user.stale_iff.mpr ⟨pinNo, watches.2.2, generates⟩⟩
    rw [stands.detectors, detectorsOf]
    refine List.mem_of_getElem? (i := userId) ?_
    rw [List.getElem?_mapIdx, watches.1, Option.map_some, watches.2.1]
  · rintro ⟨d, member, stale⟩
    rw [stands.detectors, detectorsOf, List.mem_mapIdx] at member
    obtain ⟨userId, inside, rfl⟩ := member
    have there := List.getElem?_eq_getElem inside
    -- A disabled user has no levels to compare with.
    have on : isEnabled s.gpiote.enabledUsersMask userId = true := by
      by_contra off
      obtain ⟨last, seen, _⟩ := stale
      rw [Bool.eq_false_of_not_eq_true off] at seen
      cases seen
    rw [on] at stale
    obtain ⟨pinNo, own, generates⟩ := GpioteUser.stale_iff.mp stale
    refine ⟨?_, pinNo, ?_⟩
    · -- With a user enabled, the interrupt is on.
      rw [sensed.interrupt, decide_eq_true_eq, ne_zero_iff]
      rw [isEnabled_eq_has _ (stands.lt there).2] at on
      exact ⟨_, on⟩
    · rw [sensed.own userId _ pinNo ⟨there, on, own⟩]
      exact generates

/--
In every run at whose end no two users share a pin, the PORT event interrupts exactly while there
are levels that an enabled detector has not seen.

So no edge stays unnoticed, and the interrupt does not come again for what has been handled.
-/
theorem GpioteRun.interrupts_iff_stale (maxUsers : Nat) (few : maxUsers ≤ 32)
    (steps : List (GpioteStep E))
    (apart : (StepMachine.run DetectorBank.step (.init maxUsers) steps).Apart)
    (pinsState : PinMask) :
    (StepMachine.run GpioteRun.step (.init maxUsers) steps).gpiote.Interrupts pinsState ↔
      ∃ d ∈ (StepMachine.run DetectorBank.step (.init maxUsers) steps).detectors,
        d.Stale pinsState :=
  (standsFor_run maxUsers few steps).interrupts_iff (sensed_run maxUsers few steps apart) pinsState

/-- Letting go is noticed, though nobody wants an event for it, and the other pin as well. -/
theorem GpioteRun.interrupts_iff_stale_pressed :
    (2 ≤ 32) ∧ (StepMachine.run DetectorBank.step (.init 2) pressedRun).Apart ∧
      (StepMachine.run GpioteRun.step (.init 2) pressedRun).gpiote.Interrupts 3 ∧
      ¬ (StepMachine.run GpioteRun.step (.init 2) pressedRun).gpiote.Interrupts 2 := by
  have apart : (StepMachine.run DetectorBank.step (.init 2) pressedRun).Apart := by decide +kernel
  refine ⟨by decide, apart, ?_, ?_⟩
  · rw [GpioteRun.interrupts_iff_stale 2 (by decide) pressedRun apart]
    exact ⟨⟨0, 1, 7, some 0⟩, by decide +kernel, 0, rfl, by decide +kernel⟩
  · rw [GpioteRun.interrupts_iff_stale 2 (by decide) pressedRun apart]
    -- The levels are those that both detectors have seen last.
    have settled : (StepMachine.run DetectorBank.step (.init 2) pressedRun).detectors =
        [⟨0, 1, 7, some 0⟩, ⟨2, 2, 9, some 2⟩] := by decide +kernel
    rw [settled]
    rintro ⟨d, member, last, seen, ne⟩
    simp only [List.mem_cons, List.not_mem_nil, or_false] at member
    rcases member with rfl | rfl
    · cases seen
      exact ne (by decide +kernel)
    · cases seen
      exact ne (by decide +kernel)

end BleHub
