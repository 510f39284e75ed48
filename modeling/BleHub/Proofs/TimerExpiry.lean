import BleHub.Proofs.TimerAgenda
import Mathlib.Data.List.Induction

/-! When timers expire: not before their interval is over, and not once they have been stopped. -/

namespace BleHub

variable {H C : Type} {n cap : Nat}

namespace Agenda

/-! ### What holds of the entries -/

/-- A property of every entry, of the context of its timer and of when it is due. -/
def AllEntries (Q : Fin n → C → Nat → Prop) (g : Agenda H C n) : Prop :=
  ∀ p ∈ g.entries, Q p.1 (g.context p.1) p.2

/-- A property that stays when something is due later. -/
def Lasting (Q : Fin n → C → Nat → Prop) : Prop :=
  ∀ timerId context time time', time ≤ time' → Q timerId context time → Q timerId context time'

variable {Q : Fin n → C → Nat → Prop} {g : Agenda H C n}

/-- Striking out leaves only entries that were there before. -/
theorem strike_subset (op : AgendaOp C n) (entries : List (Fin n × Nat)) :
    strike entries op ⊆ entries := by
  -- Starts strike out nothing, and the others filter.
  cases op with
  | start => exact List.Subset.refl entries
  | stop timerId => exact List.filter_subset_self entries
  | stopAll => exact List.nil_subset entries

/-- Striking out all that is stopped adds nothing, either. -/
theorem strikeAll_subset (g : Agenda H C n) : g.strikeAll.entries ⊆ g.entries := by
  -- Whichever user and operation it is the turn of, nothing is added.
  refine List.foldlRecOn (motive := (· ⊆ g.entries)) AppTimer.usersInTurn (strikeOf g.ops)
    (List.Subset.refl g.entries) fun entries less userId _ => ?_
  exact List.foldlRecOn (motive := (· ⊆ g.entries)) (g.ops userId) strike less
    fun entries less op _ => List.Subset.trans (strike_subset op entries) less

/-- A property of all entries stays with those that are not struck out. -/
theorem AllEntries.strikeAll (all : g.AllEntries Q) : g.strikeAll.AllEntries Q :=
  fun p member => all p (strikeAll_subset g member)

/-- What holds at the end of an interval holds of the entry for it. -/
theorem AllEntries.schedule (lasting : Lasting Q) (all : g.AllEntries Q) {timerId : Fin n}
    {started : Nat} {interval : UInt32}
    (new : Q timerId (g.context timerId) (started + interval.toNat)) :
    (g.schedule timerId started interval).AllEntries Q := by
  -- The new entry is due at the end of its interval, or later if that is over.
  intro p member
  rcases (List.mem_orderedInsert _).mp member with rfl | member
  · exact lasting _ _ _ _ (le_max_left _ _) new
  · exact all p member

/-- Entering periodic timers again only makes them due later. -/
theorem AllEntries.workOff (lasting : Lasting Q) (all : g.AllEntries Q) :
    g.workOff.AllEntries Q := by
  unfold Agenda.workOff
  split
  · exact all
  · rename_i time _
    have rest : AllEntries Q { g with
        entries := dueAfter time g.entries, latest := time, handed := none } :=
      fun p member => all p (List.mem_of_mem_filter member)
    -- The contexts stay the same all along.
    have both := List.foldlRecOn (motive := fun g' : Agenda H C n =>
      g'.AllEntries Q ∧ g'.context = g.context)
      ((dueBy time g.entries).reverse.filter fun entry => decide (g.period entry.1 ≠ 0))
      (fun g' entry => g'.schedule entry.1 entry.2 (g'.period entry.1)) ⟨rest, rfl⟩ ?_
    · exact both.1
    · -- A periodic timer is due again a period after it was due before.
      intro g' ⟨all', contexts⟩ entry member
      refine ⟨all'.schedule lasting ?_, contexts⟩
      have before : entry ∈ g.entries :=
        List.mem_of_mem_filter (List.mem_reverse.mp (List.mem_of_mem_filter member))
      rw [contexts]
      exact lasting _ _ _ _ (Nat.le_add_right _ _) (all entry before)

/-- A start has the property at the end of its interval. -/
def Starts (Q : Fin n → C → Nat → Prop) : AgendaOp C n → Prop
  | .start timerId called interval _ context => Q timerId context (called + interval.toNat)
  | .stop _ => True
  | .stopAll => True

/-- A lasting property of all entries stays if what is started has it. -/
theorem AllEntries.begin (lasting : Lasting Q) (all : g.AllEntries Q) {op : AgendaOp C n}
    (starts : Starts Q op) : (g.begin op).AllEntries Q := by
  -- Only a start adds anything.
  cases op with
  | start timerId called interval period context =>
    simp only [Agenda.begin]
    split
    · -- A timer that runs already keeps its entry.
      exact all
    · rename_i fresh
      apply AllEntries.schedule lasting
      · -- The context only changes for the timer that has no entry yet.
        intro p member
        have apart : p.1 ≠ timerId := fun same => fresh (same ▸ List.mem_map_of_mem member)
        simpa [apart] using all p member
      · -- The new entry is due when the interval of the start is over.
        show Q timerId (Function.update g.context timerId context timerId) _
        rw [Function.update_self]
        exact starts
  | stop => exact all
  | stopAll => exact all

/-- An update keeps what holds of all entries and of the starts that wait. -/
theorem AllEntries.update (lasting : Lasting Q) (all : g.AllEntries Q)
    (starts : ∀ userId, ∀ op ∈ g.ops userId, Starts Q op) : g.update.AllEntries Q := by
  have first := all.strikeAll.workOff lasting
  have ops : g.strikeAll.workOff.ops = g.ops := (g.strikeAll.workOff_frame).2.2.2
  rw [← ops] at starts
  unfold Agenda.update
  generalize g.strikeAll.workOff = w at first starts ⊢
  -- Whichever user's turn it is, starts that wait still have the property.
  have both := List.foldlRecOn (motive := fun g' : Agenda H C n => g'.AllEntries Q ∧
    ∀ userId, ∀ op ∈ g'.ops userId, Starts Q op) AppTimer.usersInTurn beginOf ⟨first, starts⟩ ?_
  · exact both.1
  · intro g' ⟨all', starts'⟩ userId _
    -- The user starts what it has waiting, and is left with nothing.
    refine ⟨?_, ?_⟩
    · exact List.foldlRecOn (motive := AllEntries Q) (g'.ops userId) Agenda.begin all'
        fun _ all op member => all.begin lasting (starts' userId op member)
    · rw [(g'.beginOf_frame userId).2.2.2.2]
      exact ops_update starts' userId fun op member => absurd member List.not_mem_nil

/-! ### No timer expires early -/

section

variable (config : Fin n → TimerConfig H) (cap : Nat) (first : Agenda H C n)

/-- During a run, a timer was started so early that its interval is over by a time. -/
def DueSince (steps : List (TimedStep C)) (timerId : Fin n) (context : C) (time : Nat) : Prop :=
  ∃ before userId timeoutTicks after,
    steps = before ++ .appTimerStart userId timerId timeoutTicks context :: after ∧
      (StepMachine.run (step config cap) first before).now + timeoutTicks.toNat ≤ time

/-- What is due by a time is due by every later one. -/
theorem dueSince_lasting (steps : List (TimedStep C)) :
    Lasting (DueSince config cap first steps) := by
  -- The same start is as good for a later time.
  intro timerId context time time' order ⟨before, userId, timeoutTicks, after, split, due⟩
  exact ⟨before, userId, timeoutTicks, after, split, due.trans order⟩

variable {config cap first}

/-- What was started before the last step still was. -/
theorem DueSince.append {steps : List (TimedStep C)} {timerId : Fin n} {context : C} {time : Nat}
    (due : DueSince config cap first steps timerId context time) (next : TimedStep C) :
    DueSince config cap first (steps ++ [next]) timerId context time := by
  obtain ⟨before, userId, timeoutTicks, after, split, due⟩ := due
  exact ⟨before, userId, timeoutTicks, after ++ [next], by simp [split], due⟩

/-- All that is on the agenda, waits for it or was passed on goes back to starts in the run. -/
structure Originates (config : Fin n → TimerConfig H) (cap : Nat) (first : Agenda H C n)
    (steps : List (TimedStep C)) (g : Agenda H C n) : Prop where
  entries : g.AllEntries (DueSince config cap first steps)
  ops : ∀ userId, ∀ op ∈ g.ops userId, Starts (DueSince config cap first steps) op
  passed : ∀ timeout ∈ g.passed, ∃ timerId,
    timeout.timeoutHandler = (config timerId).timeoutHandler ∧
      DueSince config cap first steps timerId timeout.context timeout.time

/-- A longer run still has the same starts. -/
theorem Originates.append {steps : List (TimedStep C)} {g : Agenda H C n}
    (o : Originates config cap first steps g) (next : TimedStep C) :
    Originates config cap first (steps ++ [next]) g := by
  refine ⟨fun p member => (o.entries p member).append next, fun userId op member => ?_,
    fun timeout member => ?_⟩
  · -- A stop that waits goes back to no start.
    have starts := o.ops userId op member
    cases op with
    | start => exact DueSince.append starts next
    | stop => trivial
    | stopAll => trivial
  · obtain ⟨timerId, handler, due⟩ := o.passed timeout member
    exact ⟨timerId, handler, due.append next⟩

/-- Time that passes does not change where anything goes back to. -/
theorem Originates.tick {steps : List (TimedStep C)} {g : Agenda H C n}
    (o : Originates config cap first steps g) : Originates config cap first steps g.tick := by
  unfold Agenda.tick
  split
  · exact o
  · exact ⟨o.entries, o.ops, o.passed⟩

/-- Nothing gets another origin while time passes. -/
theorem Originates.wait {steps : List (TimedStep C)} {g : Agenda H C n}
    (o : Originates config cap first steps g) (ticks : Nat) :
    Originates config cap first steps (g.wait ticks) := by
  -- Tick by tick.
  induction ticks with
  | zero => exact o
  | succ ticks ih => exact ih.tick

/-- Another operation that waits is a start of the run, if it is one. -/
theorem Originates.await {steps : List (TimedStep C)} {g : Agenda H C n}
    (o : Originates config cap first steps g) (userId : TimerUserId) {op : AgendaOp C n}
    (starts : Starts (DueSince config cap first steps) op) :
    Originates config cap first steps (g.await cap userId op) := by
  unfold Agenda.await
  split
  · exact ⟨o.entries, ops_append o.ops userId starts, o.passed⟩
  · exact o

/-- The timeouts that are passed on are for entries that are due. -/
theorem Originates.passOn {steps : List (TimedStep C)} {g : Agenda H C n}
    (o : Originates config cap first steps g) :
    Originates config cap first steps (g.passOn config) := by
  -- A timeout carries the time at which it is passed on, which is no earlier than its due time.
  unfold Agenda.passOn
  split
  · exact o
  · refine ⟨o.entries, o.ops, fun timeout member => ?_⟩
    rcases List.mem_append.mp member with member | member
    · exact o.passed timeout member
    · obtain ⟨entry, due, rfl⟩ := List.mem_map.mp member
      obtain ⟨listed, now⟩ := List.mem_filter.mp due
      exact ⟨entry.1, rfl, dueSince_lasting config cap first steps _ _ _ _
        (of_decide_eq_true now) (o.entries entry listed)⟩

/-- Whatever the steps, all that is on the agenda goes back to starts. -/
theorem originates_run (config : Fin n → TimerConfig H) (cap start : Nat) (context : C)
    (steps : List (TimedStep C)) :
    Originates config cap (boot start context) steps
      (StepMachine.run (step config cap) (boot start context) steps) := by
  -- The run is extended by one step at its end, where only the new step can have added anything.
  induction steps using List.reverseRecOn with
  | nil =>
    refine ⟨?_, ?_, ?_⟩
    · simp [AllEntries, Agenda.boot]
    · simp [Agenda.boot]
    · simp [Agenda.boot]
  | append_singleton steps next ih =>
    rw [StepMachine.run_append, StepMachine.run_cons, StepMachine.run_nil]
    have o := ih.append next
    generalize reached : StepMachine.run (step config cap) (boot start context) steps = g at o ⊢
    cases next with
    | tick missed => exact o.tick
    | appTimerStart userId timerId timeoutTicks context' =>
      simp only [step]
      split
      · rename_i inside
        split
        · -- A start that is refused leaves the agenda as it is.
          exact o
        · -- This is the start that the operation goes back to.
          refine o.await userId ⟨steps, userId, timeoutTicks, [], rfl, ?_⟩
          rw [reached]
      · exact o
    | appTimerStop userId timerId =>
      simp only [step]
      split
      · split
        · exact o
        · exact o.await userId trivial
      · exact o
    | appTimerStopAll userId => exact o.await userId trivial
    | rtc1IrqHandler => exact o.passOn
    | swi0IrqHandler delay =>
      -- The update leaves nothing waiting, and passes nothing on.
      obtain ⟨-, -, -, passed, ops⟩ := g.update_frame
      refine Originates.wait ⟨o.entries.update (dueSince_lasting _ _ _ _) o.ops, ?_, ?_⟩ delay
      · intro userId op member
        rw [ops] at member
        cases member
      · intro timeout member
        rw [passed] at member
        exact o.passed timeout member

end

end Agenda

/-! ### Which timers run -/

/-- The operation starts a timer. -/
def TimerUserOp.Starts (timerId : Fin n) : TimerUserOp C n → Prop
  | .start started _ _ _ _ => started = timerId
  | .stop _ => False
  | .stopAll => False

/-- The operation stops a timer. -/
def TimerUserOp.Stops (timerId : Fin n) : TimerUserOp C n → Prop
  | .start _ _ _ _ _ => False
  | .stop stopped => stopped = timerId
  | .stopAll => True

namespace Agenda

variable {g : Agenda H C n}

/-- The timers that have an entry. -/
def timers (g : Agenda H C n) : List (Fin n) := g.entries.map Prod.fst

/-- An operation strikes out the entries that it stops. -/
theorem mem_strike (op : AgendaOp C n) (entries : List (Fin n × Nat)) (p : Fin n × Nat) :
    p ∈ strike entries op ↔ p ∈ entries ∧ ¬ op.queued.Stops p.1 := by
  -- A start strikes out nothing, a stop its own timer and a stop of all everything.
  cases op with
  | start => simp [strike, AgendaOp.queued, TimerUserOp.Stops]
  | stop timerId =>
    have apart : p.1 ≠ timerId ↔ ¬ timerId = p.1 := ne_comm
    simp only [strike, without, AgendaOp.queued, TimerUserOp.Stops, List.mem_filter,
      decide_eq_true_eq, apart]
  | stopAll => simp [strike, AgendaOp.queued, TimerUserOp.Stops]

/-- An entry stays unless one of the operations stops its timer. -/
theorem mem_foldl_strike (ops : List (AgendaOp C n)) (entries : List (Fin n × Nat))
    (p : Fin n × Nat) : p ∈ ops.foldl strike entries ↔
      p ∈ entries ∧ ∀ op ∈ ops, ¬ op.queued.Stops p.1 := by
  -- An entry is left if no operation has struck it out.
  induction ops generalizing entries with
  | nil => simp
  | cons op rest ih => simp [ih, mem_strike, and_assoc]

/-- The users' operations strike out the entries that any of them stops. -/
theorem mem_strikeAll (p : Fin n × Nat) : p ∈ g.strikeAll.entries ↔
    p ∈ g.entries ∧ ∀ userId, ∀ op ∈ g.ops userId, ¬ op.queued.Stops p.1 := by
  -- The users one by one, each with their operations.
  have inTurn : ∀ (users : List TimerUserId) (entries : List (Fin n × Nat)),
      p ∈ users.foldl (strikeOf g.ops) entries ↔
        p ∈ entries ∧ ∀ userId ∈ users, ∀ op ∈ g.ops userId, ¬ op.queued.Stops p.1 := by
    intro users
    induction users with
    | nil => simp
    | cons first rest ih =>
      intro entries
      simp [ih, strikeOf, mem_foldl_strike, and_assoc]
  have everyone : ∀ userId, userId ∈ AppTimer.usersInTurn := by decide
  simp only [strikeAll, inTurn, everyone, true_imp_iff]

/-- A timer that is entered has an entry, and so have the others as before. -/
theorem mem_timers_schedule (timerId : Fin n) (started : Nat) (interval : UInt32) (other : Fin n) :
    other ∈ (g.schedule timerId started interval).timers ↔ other = timerId ∨ other ∈ g.timers := by
  -- Where the entry stands makes no difference.
  unfold timers schedule enter
  rw [((List.perm_orderedInsert _ _ _).map Prod.fst).mem_iff, List.map_cons, List.mem_cons]

/-- What is scheduled is on the agenda, besides what was. -/
theorem mem_timers_foldl_schedule (entries : List (Fin n × Nat)) (timerId : Fin n) :
    timerId ∈ (entries.foldl (fun g p => g.schedule p.1 p.2 (g.period p.1)) g).timers ↔
      timerId ∈ entries.map Prod.fst ∨ timerId ∈ g.timers := by
  induction entries generalizing g with
  | nil => simp
  | cons p rest ih =>
    rw [List.foldl_cons, ih, mem_timers_schedule, List.map_cons, List.mem_cons]
    -- The first timer is entered before the others are.
    tauto

/-- What has been passed on stays on the agenda only if it is periodic. -/
theorem mem_timers_workOff (timerId : Fin n) : timerId ∈ g.workOff.timers ↔
    ∃ due, (timerId, due) ∈ g.entries ∧
      ∀ time, g.handed = some time → time < due ∨ g.period timerId ≠ 0 := by
  -- With nothing handed over, every entry is kept.
  unfold workOff
  split
  · rename_i nothing
    simp [timers, nothing]
  · rename_i time handed
    rw [mem_timers_foldl_schedule]
    simp only [handed, Option.some.injEq, forall_eq']
    constructor
    · rintro (again | waits)
      · -- A timer that is entered again is periodic.
        obtain ⟨⟨other, due⟩, member, rfl⟩ := List.mem_map.mp again
        obtain ⟨member, periodic⟩ := List.mem_filter.mp member
        exact ⟨due, List.mem_of_mem_filter (List.mem_reverse.mp member),
          .inr (of_decide_eq_true periodic)⟩
      · -- A timer that has not been entered again is due later.
        obtain ⟨⟨other, due⟩, member, rfl⟩ := List.mem_map.mp waits
        obtain ⟨member, later⟩ := List.mem_filter.mp member
        exact ⟨due, member, .inl (of_decide_eq_true later)⟩
    · rintro ⟨due, member, kept⟩
      by_cases later : time < due
      · -- What is due later has stayed in the list.
        refine .inr (List.mem_map.mpr ⟨(timerId, due), ?_, rfl⟩)
        exact List.mem_filter.mpr ⟨member, decide_eq_true later⟩
      · -- What is due by now has been entered again, if it is periodic.
        refine .inl (List.mem_map.mpr ⟨(timerId, due), ?_, rfl⟩)
        have now : due ≤ time := Nat.le_of_not_lt later
        have periodic : g.period timerId ≠ 0 := kept.resolve_left later
        exact List.mem_filter.mpr ⟨List.mem_reverse.mpr
          (List.mem_filter.mpr ⟨member, decide_eq_true now⟩), decide_eq_true periodic⟩

/-- An operation enters the timer that it starts. -/
theorem mem_timers_begin (op : AgendaOp C n) (timerId : Fin n) :
    timerId ∈ (g.begin op).timers ↔ timerId ∈ g.timers ∨ op.queued.Starts timerId := by
  cases op with
  | start started called interval period context =>
    simp only [Agenda.begin, AgendaOp.queued, TimerUserOp.Starts]
    split
    · rename_i listed
      -- A timer that runs already stays where it is.
      constructor
      · exact .inl
      · rintro (member | rfl)
        · exact member
        · exact listed
    · rw [mem_timers_schedule]
      show timerId = started ∨ timerId ∈ g.timers ↔ _
      rw [or_comm, eq_comm]
  | stop => simp [Agenda.begin, AgendaOp.queued, TimerUserOp.Starts]
  | stopAll => simp [Agenda.begin, AgendaOp.queued, TimerUserOp.Starts]

/-- What is started is on the agenda, besides what was. -/
theorem mem_timers_foldl_begin (ops : List (AgendaOp C n)) (timerId : Fin n) :
    timerId ∈ (ops.foldl Agenda.begin g).timers ↔
      timerId ∈ g.timers ∨ ∃ op ∈ ops, op.queued.Starts timerId := by
  -- What one operation has entered stays entered.
  induction ops generalizing g with
  | nil => simp
  | cons op rest ih => simp [ih, mem_timers_begin, or_assoc]

/-- The users' operations enter the timers that any of them starts. -/
theorem mem_timers_foldl_beginOf (users : List TimerUserId) (timerId : Fin n) :
    timerId ∈ (users.foldl beginOf g).timers ↔
      timerId ∈ g.timers ∨ ∃ userId ∈ users, ∃ op ∈ g.ops userId, op.queued.Starts timerId := by
  -- A user that has had a turn has no operation waiting, so no start counts twice.
  induction users generalizing g with
  | nil => simp
  | cons first rest ih =>
    have here : timerId ∈ (g.beginOf first).timers ↔
        timerId ∈ g.timers ∨ ∃ op ∈ g.ops first, op.queued.Starts timerId :=
      mem_timers_foldl_begin (g.ops first) timerId
    rw [List.foldl_cons, ih, here, (g.beginOf_frame first).2.2.2.2]
    constructor
    · rintro ((listed | starts) | ⟨userId, member, op, waits, starts⟩)
      · exact .inl listed
      · -- The first user has started it.
        exact .inr ⟨first, List.mem_cons_self, starts⟩
      · by_cases same : userId = first
        · subst same
          simp at waits
        · rw [Function.update_of_ne same] at waits
          exact .inr ⟨userId, List.mem_cons_of_mem _ member, op, waits, starts⟩
    · rintro (listed | ⟨userId, member, op, waits, starts⟩)
      · exact .inl (.inl listed)
      · by_cases same : userId = first
        · subst same
          exact .inl (.inr ⟨op, waits, starts⟩)
        · refine .inr ⟨userId, List.mem_of_ne_of_mem same member, op, ?_, starts⟩
          rwa [Function.update_of_ne same]

/-- After an update, the timers on the agenda are those that were started or have been kept. -/
theorem mem_timers_update (timerId : Fin n) : timerId ∈ g.update.timers ↔
    (∃ userId, ∃ op ∈ g.ops userId, op.queued.Starts timerId) ∨
      ∃ due, (timerId, due) ∈ g.entries ∧
        (∀ userId, ∀ op ∈ g.ops userId, ¬ op.queued.Stops timerId) ∧
        ∀ time, g.handed = some time → time < due ∨ g.period timerId ≠ 0 := by
  -- Deletions, then expiries, then insertions: a start is not struck out by a stop.
  have everyone : ∀ userId, userId ∈ AppTimer.usersInTurn := by decide
  have ops : g.strikeAll.workOff.ops = g.ops := (g.strikeAll.workOff_frame).2.2.2
  unfold Agenda.update
  rw [mem_timers_foldl_beginOf, mem_timers_workOff, ops, or_comm]
  simp only [mem_strikeAll, everyone, true_and, and_assoc]
  rfl

end Agenda

/-- The list handler leaves a timer running exactly if its agenda does. -/
theorem KeepsAgenda.isRunning_iff {config : Fin n → TimerConfig H} {s : TimedTimer H C n cap}
    {g : Agenda H C n} (keeps : KeepsAgenda config s g) (timerId : Fin n) :
    (s.timer.nodes timerId).isRunning = true ↔ timerId ∈ g.timers := by
  unfold Agenda.timers
  rw [keeps.matches_.names]
  exact keeps.sound.listed.isRunning timerId

/-- Some operation that waits on the agenda does what one in the queues does. -/
theorem Waits.exists_iff {t : AppTimer H C n cap} {g : Agenda H C n} (waits : Waits t g)
    (P : TimerUserOp C n → Prop) : (∃ userId, ∃ op ∈ (t.users userId).contents, P op) ↔
      ∃ userId, ∃ op ∈ g.ops userId, P op.queued := by
  simp only [waits _, List.mem_map, exists_exists_and_eq_and]

end BleHub
