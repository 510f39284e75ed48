import BleHub.Proofs.TimerExpiry

/-! A timer that is not periodic expires at most once for each start. -/

namespace BleHub

variable {H C : Type} {n cap : Nat}

namespace AgendaOp

/-- Whether the operation starts one of some timers. -/
def startsAny (timers : Fin n → Bool) : AgendaOp C n → Bool
  | .start timerId _ _ _ _ => timers timerId
  | .stop _ => false
  | .stopAll => false

/-- The operation starts none of some timers periodically. -/
def Once (timers : Fin n → Bool) : AgendaOp C n → Prop
  | .start timerId _ _ period _ => timers timerId = true → period = 0
  | .stop _ => True
  | .stopAll => True

end AgendaOp

namespace Agenda

variable {timers : Fin n → Bool} {g : Agenda H C n}

/-- The entries whose timeouts have not been passed on yet. -/
def unpassed (g : Agenda H C n) : List (Fin n × Nat) :=
  match g.handed with
  | none => g.entries
  | some time => dueAfter time g.entries

/-- How many entries there are for some timers. -/
def countOf (timers : Fin n → Bool) (entries : List (Fin n × Nat)) : Nat :=
  entries.countP fun p => timers p.1

/-- The operations of all users that wait. -/
def waiting (ops : TimerUserId → List (AgendaOp C n)) : List (AgendaOp C n) :=
  AppTimer.usersInTurn.flatMap ops

/-- How many timeouts some timers are still in for, as things stand. -/
def owed (timers : Fin n → Bool) (g : Agenda H C n) : Nat :=
  countOf timers g.unpassed + (waiting g.ops).countP (AgendaOp.startsAny timers)

/-- None of some timers is periodic, or about to be. -/
structure Single (timers : Fin n → Bool) (g : Agenda H C n) : Prop where
  period : ∀ timerId, timers timerId = true → g.period timerId = 0
  ops : ∀ userId, ∀ op ∈ g.ops userId, op.Once timers

/-! ### Stops and expiries -/

/-- Striking out leaves the other entries in order. -/
theorem strike_sublist (op : AgendaOp C n) (entries : List (Fin n × Nat)) :
    (strike entries op).Sublist entries := by
  cases op with
  | start => exact List.Sublist.refl entries
  | stop timerId => exact List.filter_sublist
  | stopAll => exact List.nil_sublist entries

/-- Striking out only removes entries. -/
theorem strikeAll_sublist (g : Agenda H C n) : g.strikeAll.entries.Sublist g.entries := by
  -- Both loops of list_deletions_handler shorten the list at every operation, if they change it.
  refine List.foldlRecOn (motive := (List.Sublist · g.entries)) AppTimer.usersInTurn
    (strikeOf g.ops) (List.Sublist.refl g.entries) fun entries less userId _ => ?_
  exact List.foldlRecOn (motive := (List.Sublist · g.entries)) (g.ops userId) strike less
    fun entries less op _ => (strike_sublist op entries).trans less

/-- No timeout is owed because something is struck out. -/
theorem owed_strikeAll (timers : Fin n → Bool) (g : Agenda H C n) :
    g.strikeAll.owed timers ≤ g.owed timers := by
  -- Only the entries change, so it is enough to count fewer of them.
  have fewer : g.strikeAll.unpassed.Sublist g.unpassed := by
    unfold unpassed
    have handed : g.strikeAll.handed = g.handed := rfl
    rw [handed]
    split
    · exact strikeAll_sublist g
    · exact (strikeAll_sublist g).filter _
  exact Nat.add_le_add_right (fewer.countP_le) _

/-- Striking out makes no timer periodic. -/
theorem Single.strikeAll (single : g.Single timers) : g.strikeAll.Single timers :=
  ⟨single.period, single.ops⟩

/-- An entry that is added counts if it is for one of the timers. -/
theorem countOf_enter (timers : Fin n → Bool) (p : Fin n × Nat) (entries : List (Fin n × Nat)) :
    countOf timers (enter p entries) = countOf timers entries + if timers p.1 then 1 else 0 := by
  -- Where in the list the entry goes does not matter to the count.
  unfold countOf enter
  rw [(List.perm_orderedInsert _ _ _).countP_eq, List.countP_cons]

/-- What is worked off has been passed on, and only periodic timers are entered again. -/
theorem workOff_counts (single : g.Single timers) :
    g.workOff.handed = none ∧ g.workOff.ops = g.ops ∧ g.workOff.period = g.period ∧
      countOf timers g.workOff.entries = countOf timers g.unpassed := by
  -- Without ticks handed over, nothing is worked off.
  cases handed : g.handed with
  | none =>
    rw [workOff, unpassed, handed]
    exact ⟨handed, rfl, rfl, rfl⟩
  | some time =>
    rw [workOff, unpassed, handed]
    refine List.foldlRecOn (motive := fun g' : Agenda H C n =>
      g'.handed = none ∧ g'.ops = g.ops ∧ g'.period = g.period ∧
        countOf timers g'.entries = countOf timers (dueAfter time g.entries))
      (g.again time) (fun g' entry => g'.schedule entry.1 entry.2 (g'.period entry.1))
      ⟨rfl, rfl, rfl, rfl⟩ ?_
    rintro g' ⟨nothing, ops, period, count⟩ entry member
    -- None of the timers is among those that are entered again.
    have periodic : g.period entry.1 ≠ 0 := of_decide_eq_true (List.mem_filter.mp member).2
    have other : timers entry.1 = false :=
      Bool.eq_false_of_not_eq_true fun one => periodic (single.period entry.1 one)
    refine ⟨nothing, ops, period, ?_⟩
    rw [← count]
    exact (countOf_enter timers _ _).trans (by rw [other]; rfl)

/-- Once nothing is handed over, all entries are still to be passed on. -/
theorem unpassed_of_none (nothing : g.handed = none) : g.unpassed = g.entries := by
  rw [unpassed, nothing]

/-- Working off what is due owes as many timeouts as before. -/
theorem owed_workOff (single : g.Single timers) : g.workOff.owed timers = g.owed timers := by
  obtain ⟨nothing, ops, -, count⟩ := workOff_counts single
  rw [owed, owed, unpassed_of_none nothing, count, ops]

/-- Working off what is due makes no timer periodic. -/
theorem Single.workOff (single : g.Single timers) : g.workOff.Single timers := by
  obtain ⟨-, ops, period, -⟩ := workOff_counts single
  exact ⟨by rw [period]; exact single.period, by rw [ops]; exact single.ops⟩

/-! ### Starts -/

/-- A start adds at most one entry, for its timer. -/
theorem countOf_begin (timers : Fin n → Bool) (g : Agenda H C n) (op : AgendaOp C n) :
    countOf timers (g.begin op).entries ≤
      countOf timers g.entries + if op.startsAny timers then 1 else 0 := by
  -- Stops have been carried out before, so only a start adds anything.
  cases op with
  | start timerId called interval period context =>
    simp only [begin]
    split
    · -- A timer that runs already is not entered again.
      exact Nat.le_add_right _ _
    · exact le_of_eq (countOf_enter timers _ _)
  | stop timerId => exact Nat.le_add_right _ _
  | stopAll => exact Nat.le_add_right _ _

/-- A start with no period makes no timer periodic. -/
theorem Single.begin (single : g.Single timers) {op : AgendaOp C n} (once : op.Once timers) :
    (g.begin op).Single timers := by
  -- Only a start sets a period, and only that of its own timer.
  cases op with
  | start timerId called interval period context =>
    simp only [Agenda.begin]
    split
    · exact single
    · refine ⟨fun other one => ?_, single.ops⟩
      show Function.update g.period timerId period other = 0
      by_cases here : other = timerId
      · -- A start for one of the timers comes without a period.
        subst here
        rw [Function.update_self]
        exact once one
      · rw [Function.update_of_ne here]
        exact single.period other one
  | stop timerId => exact single
  | stopAll => exact single

/-- Carrying out operations adds at most one entry for each start. -/
theorem foldl_begin_counts (single : g.Single timers) (ops : List (AgendaOp C n))
    (once : ∀ op ∈ ops, op.Once timers) :
    (ops.foldl Agenda.begin g).Single timers ∧
      countOf timers (ops.foldl Agenda.begin g).entries ≤
        countOf timers g.entries + ops.countP (AgendaOp.startsAny timers) := by
  -- Each operation is charged for the entry that it may add.
  induction ops generalizing g with
  | nil => exact ⟨single, le_refl _⟩
  | cons op ops ih =>
    obtain ⟨after, count⟩ := ih (single.begin (once op List.mem_cons_self))
      fun op' member => once op' (List.mem_cons_of_mem op member)
    have first := countOf_begin timers g op
    rw [List.foldl_cons, List.countP_cons]
    exact ⟨after, by omega⟩

/-- What one user has waiting is no longer counted once it is taken. -/
theorem countP_waiting_update {users : List TimerUserId} (nodup : users.Nodup)
    {userId : TimerUserId} (member : userId ∈ users) (p : AgendaOp C n → Bool)
    (ops : TimerUserId → List (AgendaOp C n)) (others : List (AgendaOp C n)) :
    (users.flatMap (Function.update ops userId others)).countP p + (ops userId).countP p =
      (users.flatMap ops).countP p + others.countP p := by
  induction users with
  | nil => cases member
  | cons first rest ih =>
    obtain ⟨apart, nodup⟩ := List.nodup_cons.mp nodup
    rw [List.flatMap_cons, List.flatMap_cons, List.countP_append, List.countP_append]
    by_cases here : userId = first
    · subst here
      -- The user is not among the rest, so their operations are what they were.
      have same : rest.flatMap (Function.update ops userId others) = rest.flatMap ops := by
        apply List.flatMap_congr
        intro other waits
        have distinct : other ≠ userId := fun one => apart (one ▸ waits)
        exact Function.update_of_ne distinct _ _
      rw [same, Function.update_self]
      omega
    · -- The first user is another one, whose operations stay as they are.
      have later := ih nodup (List.mem_of_ne_of_mem here member)
      rw [Function.update_of_ne (Ne.symm here)]
      omega

/-- No user has two turns. -/
theorem usersInTurn_nodup : AppTimer.usersInTurn.Nodup := by decide

/-- Every user has its turn. -/
theorem mem_usersInTurn (userId : TimerUserId) : userId ∈ AppTimer.usersInTurn := by
  revert userId
  decide

/-- Carrying out the operations of one user owes no more than they asked for. -/
theorem owed_beginOf (single : g.Single timers) (nothing : g.handed = none)
    (userId : TimerUserId) : (g.beginOf userId).Single timers ∧
      (g.beginOf userId).handed = none ∧ (g.beginOf userId).owed timers ≤ g.owed timers := by
  -- The entries gained are at most the starts that the user had waiting.
  obtain ⟨after, count⟩ := foldl_begin_counts single (g.ops userId) (single.ops userId)
  obtain ⟨-, -, handed, -, ops⟩ := g.beginOf_frame userId
  have nothing' : (g.beginOf userId).handed = none := handed.trans nothing
  refine ⟨⟨after.period, ?_⟩, nothing', ?_⟩
  · -- The operations left are those of the other users.
    rw [ops]
    exact ops_update single.ops userId fun op member => absurd member List.not_mem_nil
  · -- What the entries gain, the operations that wait lose.
    have taken := countP_waiting_update usersInTurn_nodup (mem_usersInTurn userId)
      (AgendaOp.startsAny timers) g.ops []
    rw [owed, owed, unpassed_of_none nothing', unpassed_of_none nothing, ops, waiting, waiting]
    rw [List.countP_nil] at taken
    have entries : (g.beginOf userId).entries = ((g.ops userId).foldl Agenda.begin g).entries := rfl
    rw [entries]
    omega

/-- An update owes no more timeouts than were owed before. -/
theorem owed_update (single : g.Single timers) :
    g.update.Single timers ∧ g.update.owed timers ≤ g.owed timers := by
  have struck := owed_strikeAll timers g
  have worked := owed_workOff single.strikeAll
  -- The users take their turns after the expired timers have been worked off.
  have both := List.foldlRecOn (motive := fun g' : Agenda H C n => g'.Single timers ∧
      g'.handed = none ∧ g'.owed timers ≤ g.strikeAll.workOff.owed timers)
    AppTimer.usersInTurn beginOf
    ⟨single.strikeAll.workOff, (workOff_counts single.strikeAll).1, le_refl _⟩ ?_
  · -- Struck out, worked off, and then taken in turn, nothing is added.
    exact ⟨both.1, (both.2.2.trans (le_of_eq worked)).trans struck⟩
  · intro g' ⟨single', nothing, less⟩ userId _
    obtain ⟨after, nothing', fewer⟩ := owed_beginOf single' nothing userId
    exact ⟨after, nothing', fewer.trans less⟩

/-! ### Timeouts that are passed on -/

/-- In a list in order, what is due behind the last one due by a time is not due by that time. -/
theorem countOf_dueBy_le (timers : Fin n → Bool) (now latest : Nat)
    {entries : List (Fin n × Nat)} (sorted : entries.Pairwise DeltaList.Sooner) :
    countOf timers (dueBy now entries) + countOf timers
      (dueAfter (((dueBy now entries).getLast?.map Prod.snd).getD latest) entries) ≤
        countOf timers entries := by
  -- Every entry is due by now, or after.
  have both := List.countP_eq_countP_filter_add entries (fun p : Fin n × Nat => timers p.1)
    (fun p => decide (p.2 ≤ now))
  cases last : (dueBy now entries).getLast? with
  | none =>
    -- Nothing is due.
    rw [List.getLast?_eq_none_iff] at last
    rw [last]
    have fewer : (dueAfter latest entries).Sublist entries := List.filter_sublist
    simpa [countOf] using fewer.countP_le
  | some p =>
    obtain ⟨before, split⟩ := List.getLast?_eq_some_iff.mp last
    -- The time handed over is that of the last entry due, since the list is in order.
    have order : (dueBy now entries).Pairwise DeltaList.Sooner := sorted.filter _
    rw [split] at order
    -- Whatever is due after that time is not due by now.
    have bound : ∀ q ∈ entries, p.2 < q.2 → now < q.2 := by
      intro q member later
      by_contra due
      have listed : q ∈ before ++ [p] := by
        rw [← split]
        exact List.mem_filter.mpr ⟨member, decide_eq_true (Nat.not_lt.mp due)⟩
      rcases List.mem_append.mp listed with earlier | same
      · have sooner := (List.pairwise_append.mp order).2.2 q earlier p List.mem_cons_self
        exact absurd later (Nat.not_lt.mpr sooner)
      · rw [List.mem_singleton.mp same] at later
        exact absurd later (Nat.lt_irrefl _)
    have fewer : countOf timers (dueAfter p.2 entries) ≤
        countOf timers (dueAfter now entries) := by
      unfold countOf dueAfter
      rw [List.countP_filter, List.countP_filter]
      apply List.countP_mono_left
      intro q member both
      simp only [Bool.and_eq_true, decide_eq_true_eq] at both ⊢
      exact ⟨both.1, bound q member both.2⟩
    have rest : (entries.filter fun q => !decide (q.2 ≤ now)) = dueAfter now entries := by
      apply List.filter_congr
      intro q _
      rw [← decide_not]
      exact decide_eq_decide.mpr Nat.not_le
    have total : countOf timers entries =
        countOf timers (dueBy now entries) + countOf timers (dueAfter now entries) := by
      rw [← rest]
      exact both
    simp only [Option.map_some, Option.getD_some]
    omega

/-- How many timeouts with some handlers have been passed on. -/
def passedTo (handlers : H → Bool) (passed : List (Timeout H C)) : Nat :=
  passed.countP fun timeout => handlers timeout.timeoutHandler

/-- The timers that have one of these handlers. -/
def timersOf (config : Fin n → TimerConfig H) (handlers : H → Bool) (timerId : Fin n) : Bool :=
  handlers (config timerId).timeoutHandler

/-- The timeouts that have been passed on, and those that are still owed. -/
def total (config : Fin n → TimerConfig H) (handlers : H → Bool) (g : Agenda H C n) : Nat :=
  passedTo handlers g.passed + g.owed (timersOf config handlers)

variable {config : Fin n → TimerConfig H} {handlers : H → Bool}

/-- Passing on timeouts turns what was owed into what has been passed on. -/
theorem total_passOn (single : g.Single (timersOf config handlers))
    (sorted : g.entries.Pairwise DeltaList.Sooner) (nothing : g.handed = none) :
    (g.passOn config).Single (timersOf config handlers) ∧
      (g.passOn config).total config handlers ≤ g.total config handlers := by
  unfold passOn
  split
  · exact ⟨single, le_refl _⟩
  · refine ⟨⟨single.period, single.ops⟩, ?_⟩
    have counts := countOf_dueBy_le (timersOf config handlers) g.now g.latest sorted
    -- The handler of a timeout tells whether its timer counts.
    have passed : passedTo handlers ((dueBy g.now g.entries).map fun entry =>
        (⟨g.now, (config entry.1).timeoutHandler, g.context entry.1⟩ : Timeout H C)) =
        countOf (timersOf config handlers) (dueBy g.now g.entries) := by
      rw [passedTo, List.countP_map]
      rfl
    rw [total, total, owed, owed, unpassed_of_none nothing]
    simp only [passedTo, List.countP_append, unpassed] at passed ⊢
    rw [passed]
    omega

/-- An operation that waits is in for one timeout more if it is a start. -/
theorem total_await (single : g.Single (timersOf config handlers)) (userId : TimerUserId)
    {op : AgendaOp C n} (once : op.Once (timersOf config handlers)) :
    (g.await cap userId op).Single (timersOf config handlers) ∧
      (g.await cap userId op).total config handlers ≤ g.total config handlers +
        if op.startsAny (timersOf config handlers) then 1 else 0 := by
  unfold await
  split
  · -- The queue of the user has room, and takes the operation.
    have more := countP_waiting_update usersInTurn_nodup (mem_usersInTurn userId)
      (AgendaOp.startsAny (timersOf config handlers)) g.ops (g.ops userId ++ [op])
    rw [List.countP_append, List.countP_singleton] at more
    refine ⟨⟨single.period, ops_append single.ops userId once⟩, ?_⟩
    show passedTo handlers g.passed + (countOf (timersOf config handlers) g.unpassed +
      (waiting (Function.update g.ops userId (g.ops userId ++ [op]))).countP
        (AgendaOp.startsAny (timersOf config handlers))) ≤ _
    rw [total, owed, waiting, waiting]
    omega
  · -- A full queue refuses it, and nothing changes.
    exact ⟨single, Nat.le_add_right _ _⟩

/-- Time that passes neither owes nor passes on anything. -/
theorem total_tick (single : g.Single (timersOf config handlers)) :
    g.tick.Single (timersOf config handlers) ∧
      g.tick.total config handlers = g.total config handlers := by
  unfold tick
  split
  · exact ⟨single, rfl⟩
  · exact ⟨⟨single.period, single.ops⟩, rfl⟩

/-- Neither does any number of ticks. -/
theorem total_wait (single : g.Single (timersOf config handlers)) (ticks : Nat) :
    (g.wait ticks).Single (timersOf config handlers) ∧
      (g.wait ticks).total config handlers = g.total config handlers := by
  -- The ticks pass one by one.
  induction ticks with
  | zero => exact ⟨single, rfl⟩
  | succ ticks ih =>
    obtain ⟨after, same⟩ := total_tick ih.1
    exact ⟨after, same.trans ih.2⟩

/-- The RTC1 interrupt does not come again before the list handler has taken the elapsed ticks. -/
def TakesTurns (g : Agenda H C n) : TimedStep C → Prop
  | .rtc1IrqHandler => g.handed = none
  | _ => True

instance (g : Agenda H C n) : ∀ next, Decidable (g.TakesTurns next)
  | .tick _ => isTrue trivial
  | .appTimerStart _ _ _ _ => isTrue trivial
  | .appTimerStop _ _ => isTrue trivial
  | .appTimerStopAll _ => isTrue trivial
  | .rtc1IrqHandler => inferInstanceAs (Decidable (g.handed = none))
  | .swi0IrqHandler _ => isTrue trivial

/-- Whether a step calls for the start of one of some timers. -/
def callsStart (timers : Fin n → Bool) : TimedStep C → Bool
  | .appTimerStart _ timerId _ _ =>
    if inside : timerId < n then timers ⟨timerId, inside⟩ else false
  | _ => false

/-- A step owes at most one timeout more, for a start, and passes on what was owed. -/
theorem total_step (cap : Nat) (single : g.Single (timersOf config handlers))
    (once : ∀ timerId, handlers (config timerId).timeoutHandler = true →
      (config timerId).mode = .singleShot)
    (sorted : g.entries.Pairwise DeltaList.Sooner) {next : TimedStep C}
    (turn : g.TakesTurns next) :
    (g.step config cap next).Single (timersOf config handlers) ∧
      (g.step config cap next).total config handlers ≤ g.total config handlers +
        if callsStart (timersOf config handlers) next then 1 else 0 := by
  -- Only a start adds to the total; the interrupts move what is owed.
  cases next with
  | tick missed => exact ⟨(total_tick single).1, (total_tick single).2.le⟩
  | appTimerStart userId timerId timeoutTicks context =>
    by_cases inside : timerId < n
    · have called : callsStart (timersOf config handlers)
          (.appTimerStart userId timerId timeoutTicks context) =
          timersOf config handlers ⟨timerId, inside⟩ := dif_pos inside
      simp only [step, dif_pos inside, called]
      split
      · exact ⟨single, Nat.le_add_right _ _⟩
      · -- A timer that is not repeated is started without a period.
        refine total_await single userId fun one => if_neg ?_
        rw [once _ one]
        exact AppTimerMode.noConfusion
    · simp only [step, dif_neg inside]
      exact ⟨single, Nat.le_add_right _ _⟩
  | appTimerStop userId timerId =>
    simp only [step]
    split
    · split
      · -- A stop of a timer that was never created is refused.
        exact ⟨single, Nat.le_add_right _ _⟩
      · exact total_await single userId trivial
    · exact ⟨single, Nat.le_add_right _ _⟩
  | appTimerStopAll userId => exact total_await single userId trivial
  | rtc1IrqHandler =>
    -- The rule of turns: nothing handed over is waiting, so nothing is passed on twice.
    exact total_passOn single sorted turn
  | swi0IrqHandler delay =>
    -- The update passes nothing on; the time that it takes changes nothing either.
    obtain ⟨updated, fewer⟩ := owed_update single
    obtain ⟨-, -, -, passed, -⟩ := g.update_frame
    obtain ⟨after, same⟩ := total_wait updated delay
    refine ⟨after, ?_⟩
    simp only [step]
    rw [same, total, total, passed]
    omega

end Agenda

/-- When the RTC1 interrupt comes twice, the same timeout is passed on again. -/
example : (StepMachine.run TimedTimer.step (.boot soleConfig 0 () () : TimedTimer Unit Unit 1 1)
    (startedRun ++ [.rtc1IrqHandler, .rtc1IrqHandler])).passed.length = 2 := by
  decide +kernel

end BleHub
