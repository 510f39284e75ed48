import BleHub.Proofs.TimerExpiry

/-! The compare register wakes the timer module up for whatever is due next. -/

namespace BleHub

variable {H C : Type} {n cap : Nat}

/-! ### Setting the compare register -/

/-- Times that are a multiple of the counter range apart show the same counter value. -/
theorem counterAt_mod (time ticks : Nat) :
    counterAt (time + ticks % counterRange) = counterAt (time + ticks) := by
  unfold counterAt
  rw [Nat.add_mod_mod]

namespace AppTimer

variable {t : AppTimer H C n cap}

/-- The value that the compare register is set to, as a time. -/
theorem compareValue {latest now : Nat} (order : latest ≤ now)
    (near : now < latest + counterRange) (ticksToExpire : UInt32) :
    let ticksElapsed := ticksDiffGet (counterAt now) (counterAt latest) + rtcCompareOffsetMin
    (counterAt latest + (if ticksElapsed < ticksToExpire then ticksToExpire else ticksElapsed)) &&&
      maxRtcCounterVal = counterAt (max (latest + ticksToExpire.toNat) (now + 3)) := by
  intro ticksElapsed
  -- At least three ticks ahead of the counter, or else its event can be missed.
  have elapsed : ticksElapsed.toNat = now - latest + 3 := by
    have diff := ticksDiffGet_counterAt order near
    have offset : rtcCompareOffsetMin.toNat = 3 := rfl
    show (ticksDiffGet (counterAt now) (counterAt latest) + rtcCompareOffsetMin).toNat = _
    rw [UInt32.toNat_add, diff, offset]
    unfold counterRange at near
    omega
  -- The larger of the two numbers of ticks is added to the last known counter value.
  have goesOn : ∀ ticks : UInt32, (counterAt latest + ticks) &&& maxRtcCounterVal =
      counterAt (latest + ticks.toNat) := by
    intro ticks
    have sum := counterAt_add latest ticks.toNat
    rwa [UInt32.ofNat_toNat] at sum
  rw [goesOn]
  congr 1
  split
  · rename_i later
    have later : ticksElapsed.toNat < ticksToExpire.toNat := UInt32.lt_iff_toNat_lt.mp later
    omega
  · rename_i notLater
    have notLater : ¬ ticksElapsed.toNat < ticksToExpire.toNat := by
      rwa [UInt32.lt_iff_toNat_lt] at notLater
    omega

/--
Once it is set, the compare register matches at least three ticks behind the second reading.

Otherwise, the interrupt is pended at once.
-/
theorem compareRegUpdate_matches {latest now delay : Nat} {head : Fin n} {rest : List (Fin n)}
    (running : t.running = head :: rest) (ticksLatest : t.ticksLatest = counterAt latest)
    (order : latest ≤ now) (near : now < latest + counterRange) (short : delay < counterRange)
    (wasIdle : Bool) :
    let rtc := (t.compareRegUpdate wasIdle (counterAt now) (counterAt (now + delay))).rtc
    rtc.rtc1Pending = true ∨ ∃ cc, rtc.compare0 = counterAt cc ∧ now + delay + 3 ≤ cc ∧
      cc ≤ max (latest + (t.nodes head).ticksToExpire.toNat) (now + 3) := by
  intro rtc
  -- The source reads the counter again, and compares what is left with what has passed.
  have value := compareValue order near (t.nodes head).ticksToExpire
  simp only at value
  generalize target : max (latest + (t.nodes head).ticksToExpire.toNat) (now + 3) = time
    at value ⊢
  have set : rtc.compare0 = counterAt time := by
    simp only [rtc, compareRegUpdate, running, ticksLatest, value]
  by_cases late : ticksDiffGet (counterAt (now + delay)) (counterAt now) + rtcCompareOffsetMin >
      ticksDiffGet (counterAt time) (counterAt now)
  · left
    simp [rtc, compareRegUpdate, running, ticksLatest, value, late]
  · -- Without being late, the register matches in this round of the counter or a later one.
    have passed := ticksDiffGet_counterAt (Nat.le_add_right now delay) (by omega)
    have left_ : (ticksDiffGet (counterAt time) (counterAt now)).toNat =
        (time - now) % counterRange := toNat_ticksDiffGet (by omega)
    have offset : rtcCompareOffsetMin.toNat = 3 := rfl
    have sum : (ticksDiffGet (counterAt (now + delay)) (counterAt now) +
        rtcCompareOffsetMin).toNat = delay + 3 := by
      rw [UInt32.toNat_add, passed, offset]
      unfold counterRange at short
      omega
    rw [gt_iff_lt, UInt32.lt_iff_toNat_lt, sum, left_] at late
    have first := Nat.mod_le (time - now) counterRange
    refine .inr ⟨now + (time - now) % counterRange, ?_, by omega, by omega⟩
    rw [set, counterAt_mod]
    congr 1
    omega

end AppTimer

/-! ### The next timer is watched -/

/-- The compare register will match by the time that the first entry is due, or soon after. -/
def CompareAhead (s : TimedTimer H C n cap) (g : Agenda H C n) : Prop :=
  ∃ cc, s.timer.rtc.compare0 = counterAt cc ∧ s.now < cc ∧ s.written + 2 ≤ cc ∧
    ∀ p ∈ g.entries.head?, cc ≤ max p.2 (s.written + 3)

/-- Some interrupt is on its way to look after the first entry. -/
structure Watched (s : TimedTimer H C n cap) (g : Agenda H C n) : Prop where
  handed : g.handed ≠ none → s.timer.rtc.swi0Pending = true
  watched : g.entries = [] ∨ s.timer.rtc.rtc1Pending = true ∨ g.handed ≠ none ∨ CompareAhead s g

variable {config : Fin n → TimerConfig H} {s : TimedTimer H C n cap} {g : Agenda H C n}

/-- A tick either leaves the compare register ahead of the counter, or makes it match. -/
theorem Watched.tick (keeps : KeepsAgenda config s g) (w : Watched s g) (missed : Bool) :
    Watched (s.tick missed) g.tick := by
  -- The counter only runs while there are entries.
  have started := keeps.started
  unfold TimedTimer.tick Agenda.tick
  cases entries : g.entries with
  | nil =>
    rw [entries, List.isEmpty_nil, Bool.not_true] at started
    simp only [started, Bool.false_eq_true, if_false]
    exact w
  | cons entry rest =>
    rw [entries, List.isEmpty_cons, Bool.not_false] at started
    simp only [started, if_true]
    refine ⟨w.handed, .inr ?_⟩
    -- What is pending or handed over stays so; only a register ahead of the counter can match.
    rcases w.watched with nothing | pending | handed | ⟨cc, set, ahead, apart, bound⟩
    · rw [entries] at nothing
      cases nothing
    · exact .inl (by simp [pending])
    · exact .inr (.inl handed)
    · by_cases now : cc = s.now + 1
      · -- The event cannot be missed, since the register was not written right before.
        have old : ¬ s.now + 1 ≤ s.written + 1 := by omega
        exact .inl (by simp [set, now, old])
      · refine .inr (.inr ⟨cc, set, ?_, apart, ?_⟩)
        · show s.now + 1 < cc
          omega
        · simpa only [entries] using bound

/-- The list stays watched over any number of ticks. -/
theorem Watched.wait (keeps : KeepsAgenda config s g) (w : Watched s g) (ticks : Nat) :
    Watched (s.wait ticks) (g.wait ticks) := by
  -- Tick by tick, with the agenda kept all along.
  induction ticks with
  | zero => exact w
  | succ ticks ih => exact ih.tick (keeps.wait ticks) false

/-- What only schedules the list handler changes nothing about the compare register. -/
theorem Watched.scheduled (w : Watched s g) {timer : AppTimer H C n cap} {g' : Agenda H C n}
    (entries : g'.entries = g.entries) (handed : g'.handed = g.handed)
    (rtc : timer.rtc = s.timer.rtc ∨ timer.rtc = { s.timer.rtc with swi0Pending := true }) :
    Watched { s with timer := timer } g' := by
  -- The pending bit of the list handler is the only one that can have been set.
  have same : timer.rtc.compare0 = s.timer.rtc.compare0 ∧
      timer.rtc.rtc1Pending = s.timer.rtc.rtc1Pending := by
    rcases rtc with rtc | rtc
    · rw [rtc]
      exact ⟨rfl, rfl⟩
    · rw [rtc]
      exact ⟨rfl, rfl⟩
  refine ⟨fun some_ => ?_, ?_⟩
  · -- Whoever has handed ticks over has pended the list handler, which stays pending.
    rw [handed] at some_
    rcases rtc with rtc | rtc
    · simpa only [rtc] using w.handed some_
    · simp only [rtc]
  · -- Nothing that the four cases speak of has changed.
    rw [entries, handed, same.2]
    rcases w.watched with nothing | pending | some_ | ⟨cc, value, ahead, apart, bound⟩
    · exact .inl nothing
    · exact .inr (.inl pending)
    · exact .inr (.inr (.inl some_))
    · exact .inr (.inr (.inr ⟨cc, same.1.trans value, ahead, apart, by rwa [entries]⟩))

/-- Queueing an operation only schedules the list handler. -/
theorem opSchedule_rtc (t : AppTimer H C n cap) (userId : TimerUserId) (op : TimerUserOp C n) :
    (t.opSchedule userId op).2.rtc = t.rtc ∨
      (t.opSchedule userId op).2.rtc = { t.rtc with swi0Pending := true } := by
  rcases t.opSchedule_spec userId op with full | ⟨queue, -, queued⟩
  · rw [full]
    exact .inl rfl
  · rw [queued]
    exact .inr rfl

/-- An operation that waits leaves the entries as they are. -/
theorem Agenda.await_frame (g : Agenda H C n) (userId : TimerUserId) (op : AgendaOp C n) :
    (g.await cap userId op).entries = g.entries ∧ (g.await cap userId op).handed = g.handed := by
  unfold Agenda.await
  split
  · exact ⟨rfl, rfl⟩
  · exact ⟨rfl, rfl⟩

/-- Once the RTC1 interrupt has come, the list handler is on its way. -/
theorem KeepsAgenda.watched_timerTimeoutsCheck (keeps : KeepsAgenda config s g)
    (scheduled : g.handed ≠ none → s.timer.rtc.swi0Pending = true) (counter : UInt32)
    (passed : List (Timeout H C)) :
    Watched { s with timer := (s.timer.timerTimeoutsCheck counter).2, passed := passed }
      (g.passOn config) := by
  cases entries : g.entries with
  | nil =>
    -- Without running timers there is nothing to watch.
    have same : g.passOn config = g := by simp only [Agenda.passOn, entries]
    have same_ : (s.timer.timerTimeoutsCheck counter).2 = s.timer := by
      simp only [AppTimer.timerTimeoutsCheck, keeps.running_eq_nil.mpr entries]
    rw [same, same_]
    exact ⟨scheduled, .inl entries⟩
  | cons entry rest =>
    rw [timerTimeoutsCheck_eq s.timer counter (keeps.running_of_cons entries)]
    -- Ticks are handed over, and the list handler is pended with them.
    refine ⟨fun _ => rfl, .inr (.inr (.inl ?_))⟩
    simp [Agenda.passOn, entries]

/-! ### The list handler -/

/-- Starting a timer leaves the other entries on the agenda. -/
theorem Agenda.subset_begin (g : Agenda H C n) (op : AgendaOp C n) :
    g.entries ⊆ (g.begin op).entries := by
  -- A start adds an entry, and takes none away.
  cases op with
  | start timerId called interval period context =>
    simp only [Agenda.begin]
    split
    · exact List.Subset.refl _
    · intro p member
      exact (List.mem_orderedInsert _).mpr (.inr member)
  | stop => exact List.Subset.refl _
  | stopAll => exact List.Subset.refl _

/-- Without anything handed over, an update only strikes out what is stopped. -/
theorem Agenda.subset_update (g : Agenda H C n) (nothing : g.handed = none) :
    g.strikeAll.entries ⊆ g.update.entries := by
  -- Neither the users nor their operations take an entry away behind the deletions.
  have kept : g.strikeAll.workOff = g.strikeAll := by
    simp only [Agenda.workOff, Agenda.strikeAll, nothing]
  unfold Agenda.update
  rw [kept]
  refine List.foldlRecOn (motive := fun g' : Agenda H C n => g.strikeAll.entries ⊆ g'.entries)
    AppTimer.usersInTurn Agenda.beginOf (List.Subset.refl _) fun g' less userId _ => ?_
  exact List.foldlRecOn (motive := fun g'' : Agenda H C n => g.strikeAll.entries ⊆ g''.entries)
    (g'.ops userId) Agenda.begin less fun g'' less op _ =>
      List.Subset.trans less (g''.subset_begin op)

/-- Two entries of one timer are the same. -/
theorem entry_unique {entries : List (Fin n × Nat)} (nodup : (entries.map Prod.fst).Nodup)
    {p q : Fin n × Nat} (left : p ∈ entries) (right : q ∈ entries) (same : p.1 = q.1) : p = q :=
  List.inj_on_of_nodup_map nodup left right same

/-- If the compare register stays as it is, so does the first entry. -/
theorem KeepsAgenda.head_eq (keeps : KeepsAgenda config s g)
    (inTime : g.now + 1 < g.latest + counterRange / 2) (quiet : s.timer.compareUpdate = false) :
    g.handed = none ∧ g.update.entries.head? = g.entries.head? := by
  -- The source compares the heads of the list, and so the timers, not the times.
  have head := s.timer.updatedList_head quiet
  simp only [AppTimer.compareUpdate, Bool.or_eq_false_iff, bne_eq_false_iff_eq] at quiet
  obtain ⟨⟨nothing, deleted⟩, -⟩ := quiet
  rcases keeps.hands.elapsedTicksAcquire keeps.ticksLatest (by omega) with
    ⟨handed, acquired⟩ | ⟨time, ticksElapsed, -, -, -, -, -, acquired⟩
  · refine ⟨handed, ?_⟩
    obtain ⟨u, -, -⟩ := keeps.updates inTime
    have names := congrArg List.head? u.matches_.names
    have names' := congrArg List.head? keeps.matches_.names
    rw [head, ← names', List.head?_map, List.head?_map] at names
    rw [acquired] at deleted
    have struck := keeps.matches_.listDeletionsHandler keeps.waits
    have names'' := congrArg List.head? struck.names
    rw [deleted, ← names', List.head?_map, List.head?_map] at names''
    cases first : g.entries.head? with
    | none => simpa [first] using names
    | some p =>
      rw [first, Option.map_some, Option.map_eq_some_iff] at names names''
      obtain ⟨q, new, same⟩ := names
      obtain ⟨r, kept, same'⟩ := names''
      -- The entry that is first once stops are struck out is the first one of before.
      have old : r ∈ g.entries := Agenda.strikeAll_subset g (List.mem_of_mem_head? kept)
      have before := entry_unique keeps.matches_.nodup old (List.mem_of_mem_head? first) same'
      -- It is still there after the update, and so it is the first one of then.
      have still := g.subset_update handed (List.mem_of_mem_head? kept)
      have after := entry_unique u.matches_.nodup still (List.mem_of_mem_head? new)
        (same'.trans same.symm)
      rw [new, ← after, before]
  · -- Had ticks been acquired, the register would be set.
    simp [acquired] at nothing

/-- Time that passes leaves the compare register and what is pending as they are. -/
theorem TimedTimer.wait_frame (s : TimedTimer H C n cap) (ticks : Nat) :
    (s.wait ticks).written = s.written ∧
      (s.wait ticks).timer.rtc.compare0 = s.timer.rtc.compare0 ∧ s.now ≤ (s.wait ticks).now ∧
      (s.wait ticks).now ≤ s.now + ticks ∧
      (s.timer.rtc.rtc1Pending = true → (s.wait ticks).timer.rtc.rtc1Pending = true) := by
  -- Tick by tick; a match of the register only sets the pending bit.
  induction ticks with
  | zero => exact ⟨rfl, rfl, le_refl _, le_refl _, id⟩
  | succ ticks ih =>
    obtain ⟨written, compare0, now, bound, pending⟩ := ih
    unfold wait tick
    simp only
    split
    · refine ⟨written, compare0, now.trans (Nat.le_succ _), Nat.succ_le_succ bound, fun first => ?_⟩
      simp [pending first]
    · exact ⟨written, compare0, now, by omega, pending⟩

/-- While time passes, the compare register is not written. -/
theorem TimedTimer.wait_written (s : TimedTimer H C n cap) (ticks : Nat) :
    { s.wait ticks with written := s.written } = s.wait ticks := by
  rw [← (s.wait_frame ticks).1]

/-- Where the compare register is set, it is set for the first entry. -/
theorem KeepsAgenda.watched_of_set (keeps : KeepsAgenda config s g) {delay : Nat}
    (inTime : g.now + delay + 1 < g.latest + counterRange / 2)
    (set : s.timer.compareUpdate = true) {handled : TimedTimer H C n cap}
    (handler : handled = { s with
      timer := s.timer.timerListHandler (counterAt s.now) (counterAt (s.now + delay)) }) :
    Watched { handled.wait delay with written := (handled.wait delay).now }
      (g.update.wait delay) := by
  -- The register is set from the head of the updated list, which is the first entry.
  obtain ⟨u, later, past⟩ := keeps.updates (by omega)
  obtain ⟨-, -, handed, -, -⟩ := g.update_frame
  obtain ⟨entries_, -, handed_, -, -⟩ := g.update.wait_frame delay
  obtain ⟨-, compare0, start, bound, pending⟩ := handled.wait_frame delay
  have now := keeps.now
  have same : handled.now = s.now := by rw [handler]
  refine ⟨fun left_ => absurd (handed_.trans handed) left_, ?_⟩
  rw [entries_]
  cases running : s.timer.updatedList.running with
  | nil =>
    -- No timer is running, and the counter stops.
    left
    rw [u.matches_.entries, running]
    rfl
  | cons head rest =>
    -- The handler ends with the compare register being set from the updated list.
    have timer : handled.timer = s.timer.updatedList.compareRegUpdate s.timer.running.isEmpty
        (counterAt s.now) (counterAt (s.now + delay)) := by
      rw [handler, AppTimer.timerListHandler_eq, if_pos set]
    -- The head of the list stands for the first entry of the agenda.
    have first : g.update.entries.head? = some (head,
        g.update.latest + (s.timer.updatedList.nodes head).ticksToExpire.toNat) := by
      rw [u.matches_.entries, running]
      rfl
    -- Setting it too late pends the interrupt at once.
    rcases AppTimer.compareRegUpdate_matches running u.ticksLatest (past.trans now.le) (by omega)
      (by omega : delay < counterRange) s.timer.running.isEmpty with late | ⟨cc, value, after, due⟩
    · rw [← timer] at late
      exact .inr (.inl (pending late))
    · rw [← timer] at value
      refine .inr (.inr (.inr ⟨cc, compare0.trans value, ?_, ?_, ?_⟩))
      · show (handled.wait delay).now < cc
        omega
      · show (handled.wait delay).now + 2 ≤ cc
        omega
      · intro p member
        rw [entries_, first, Option.mem_some_iff] at member
        subst member
        show cc ≤ max _ ((handled.wait delay).now + 3)
        omega

/-- Where the compare register stays as it is, it is still set for the first entry. -/
theorem KeepsAgenda.watched_of_quiet (keeps : KeepsAgenda config s g)
    (watched : g.entries = [] ∨ s.timer.rtc.rtc1Pending = true ∨ g.handed ≠ none ∨
      CompareAhead s g)
    (inTime : g.now + 1 < g.latest + counterRange / 2) (quiet : s.timer.compareUpdate = false)
    (preCounter postCounter : UInt32) :
    Watched { s with timer := s.timer.timerListHandler preCounter postCounter } g.update := by
  -- The registers are as before, and so is the first entry.
  have rtc : (s.timer.timerListHandler preCounter postCounter).rtc = s.timer.rtc := by
    rw [AppTimer.timerListHandler_eq, if_neg (by simp [quiet]), AppTimer.updatedList_rtc]
  obtain ⟨nothing, head⟩ := keeps.head_eq inTime quiet
  obtain ⟨-, -, handed, -, -⟩ := g.update_frame
  refine ⟨fun left_ => absurd handed left_, ?_⟩
  rcases watched with none_ | pending | some_ | ⟨cc, value, ahead, apart, bound⟩
  · -- An agenda that stays empty needs no watching.
    rw [none_, List.head?_nil, List.head?_eq_none_iff] at head
    exact .inl head
  · refine .inr (.inl ?_)
    simp only [rtc, pending]
  · exact absurd nothing some_
  · refine .inr (.inr (.inr ⟨cc, ?_, ahead, apart, ?_⟩))
    · simp only [rtc, value]
    · rw [head]
      exact bound

/-- After the list handler, the first entry is watched again. -/
theorem Watched.timerListHandler (keeps : KeepsAgenda config s g) (w : Watched s g) (delay : Nat)
    (inTime : g.now + delay + 1 < g.latest + counterRange / 2) :
    Watched (s.step (.swi0IrqHandler delay)) (g.update.wait delay) := by
  -- The pending bit of the handler itself is cleared at its entry.
  have entered := keeps.pending s.timer.rtc.rtc1Pending false
  unfold TimedTimer.step
  simp only
  cases set : AppTimer.compareUpdate { s.timer with
      rtc := { s.timer.rtc with swi0Pending := false } } with
  | true => exact entered.watched_of_set inTime set rfl
  | false =>
    have handled := entered.timerListHandler (by omega) (counterAt s.now)
      (counterAt (s.now + delay))
    have watched := entered.watched_of_quiet w.watched (by omega) set (counterAt s.now)
      (counterAt (s.now + delay))
    have waited := watched.wait handled delay
    -- The register has not been written since it was before.
    rw [← TimedTimer.wait_written] at waited
    exact waited

/-- Whatever happens next, the first entry stays watched. -/
theorem Watched.step (keeps : KeepsAgenda config s g) (w : Watched s g) (next : TimedStep C)
    (inRange : g.InRange next) : Watched (s.step next) (g.step config cap next) := by
  -- What does not set the register itself leaves the watch as it was.
  cases next with
  | tick missed => exact w.tick keeps missed
  | appTimerStart userId timerId timeoutTicks context =>
    -- A call changes the queue, not the entries.
    have frame : (g.step config cap (.appTimerStart userId timerId timeoutTicks context)).entries =
        g.entries ∧ (g.step config cap
          (.appTimerStart userId timerId timeoutTicks context)).handed = g.handed := by
      simp only [Agenda.step]
      split
      · split
        · exact ⟨rfl, rfl⟩
        · exact g.await_frame userId _
      · exact ⟨rfl, rfl⟩
    refine w.scheduled frame.1 frame.2 ?_
    rcases s.timer.appTimerStart_spec userId (counterAt s.now) timerId timeoutTicks context with
      ⟨errCode, -, refused⟩ | ⟨inside, timeoutPeriodic, -, queued⟩
    · exact .inl (by rw [refused])
    · rw [queued]
      exact opSchedule_rtc s.timer userId _
  | appTimerStop userId timerId =>
    -- Neither does a stop change what is on the agenda already.
    have frame : (g.step config cap (.appTimerStop userId timerId)).entries = g.entries ∧
        (g.step config cap (.appTimerStop userId timerId)).handed = g.handed := by
      simp only [Agenda.step]
      split
      · split
        · exact ⟨rfl, rfl⟩
        · exact g.await_frame userId _
      · exact ⟨rfl, rfl⟩
    refine w.scheduled frame.1 frame.2 ?_
    rcases s.timer.appTimerStop_spec userId timerId with ⟨errCode, -, refused⟩ | ⟨inside, queued⟩
    · exact .inl (by rw [refused])
    · rw [queued]
      exact opSchedule_rtc s.timer userId _
  | appTimerStopAll userId =>
    exact w.scheduled (g.await_frame userId _).1 (g.await_frame userId _).2
      (opSchedule_rtc s.timer userId .stopAll)
  | rtc1IrqHandler =>
    have entered := keeps.pending false s.timer.rtc.swi0Pending
    exact entered.watched_timerTimeoutsCheck w.handed _ _
  | swi0IrqHandler delay => exact w.timerListHandler keeps delay inRange

/-- In every run whose counter is read in time, the first entry is watched all along. -/
theorem watched_run (config : Fin n → TimerConfig H) (start : Nat) (handler : H) (context : C)
    (steps : List (TimedStep C))
    (inRange : StepMachine.Throughout (Agenda.step config cap) Agenda.InRange
      (Agenda.boot start context) steps) :
    Watched (StepMachine.run TimedTimer.step
        (TimedTimer.boot config start handler context : TimedTimer H C n cap) steps)
      (StepMachine.run (Agenda.step config cap) (Agenda.boot start context) steps) := by
  -- The agenda and its watch are kept together.
  have both := StepMachine.run_related_throughout
    (R := fun (s : TimedTimer H C n cap) g => KeepsAgenda config s g ∧ Watched s g)
    (fun _ _ next related inRange =>
      ⟨related.1.step next inRange, related.2.step related.1 next inRange⟩) steps
    (TimedTimer.boot config start handler context) (Agenda.boot start context)
    ⟨keepsAgenda_boot config start handler context, ⟨fun some_ => absurd rfl some_, .inl rfl⟩⟩
    inRange
  exact both.2

end BleHub
