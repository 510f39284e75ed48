import BleHub.Firmware.AppTimer
import BleHub.Lib.DeltaList
import BleHub.Lib.StepMachine

/-!
The timer module on its counter, and the agenda that it stands for.

Time is counted in ticks that never wrap around; the counter shows it modulo its range.
-/

namespace BleHub

/-- The number of values of the RTC counter. -/
def counterRange : Nat := 2 ^ 24

/-- The RTC counter at a time. -/
def counterAt (time : Nat) : UInt32 := UInt32.ofNat (time % counterRange)

/-- The mask takes a number of ticks modulo the range of the counter. -/
theorem toNat_mask (x : UInt32) : (x &&& maxRtcCounterVal).toNat = x.toNat % counterRange := by
  -- The mask keeps the lower 24 bits.
  have mask : maxRtcCounterVal.toNat = 2 ^ 24 - 1 := rfl
  rw [UInt32.toNat_and, mask, Nat.and_two_pow_sub_one_eq_mod, counterRange]

/-- The counter is in its range. -/
theorem toNat_counterAt (time : Nat) : (counterAt time).toNat = time % counterRange := by
  have small : time % counterRange < counterRange := Nat.mod_lt _ (by decide)
  have fits : counterRange < UInt32.size := by decide
  exact UInt32.toNat_ofNat_of_lt' (small.trans fits)

/-- The counter goes on with the ticks, and wraps around behind its last value. -/
theorem counterAt_add (time ticks : Nat) :
    (counterAt time + UInt32.ofNat ticks) &&& maxRtcCounterVal = counterAt (time + ticks) := by
  -- Both sides are taken modulo the range.
  apply UInt32.toNat_inj.mp
  rw [toNat_mask, UInt32.toNat_add, toNat_counterAt, toNat_counterAt, UInt32.toNat_ofNat']
  unfold counterRange
  omega

/-- Two counter values show how much time is between them, modulo the counter range. -/
theorem toNat_ticksDiffGet {time later : Nat} (order : time ≤ later) :
    (ticksDiffGet (counterAt later) (counterAt time)).toNat = (later - time) % counterRange := by
  -- A wrapped difference is still right modulo the range.
  unfold ticksDiffGet
  rw [toNat_mask, UInt32.toNat_sub, toNat_counterAt, toNat_counterAt]
  unfold counterRange
  omega

/-- Less than a whole range apart, they show all of it. -/
theorem ticksDiffGet_counterAt {time later : Nat} (order : time ≤ later)
    (near : later < time + counterRange) :
    (ticksDiffGet (counterAt later) (counterAt time)).toNat = later - time := by
  rw [toNat_ticksDiffGet order, Nat.mod_eq_of_lt (by omega)]

/-- What an application created a timer with. -/
structure TimerConfig (H : Type) where
  state : TimerAllocState
  mode : AppTimerMode
  timeoutHandler : H
  deriving DecidableEq

/-- A timeout that was passed on to the scheduler. -/
structure Timeout (H C : Type) where
  time : Nat
  timeoutHandler : H
  context : C
  deriving DecidableEq

/-- What happens next to the timer module. -/
inductive TimedStep (C : Type) where
  /-- The counter ticks, if it runs; the event may be missed if the compare register is too new. -/
  | tick (missed : Bool)
  | appTimerStart (userId : TimerUserId) (timerId : Nat) (timeoutTicks : UInt32) (context : C)
  | appTimerStop (userId : TimerUserId) (timerId : Nat)
  | appTimerStopAll (userId : TimerUserId)
  | rtc1IrqHandler
  /-- The list handler, which takes some ticks while it sets the compare register. -/
  | swi0IrqHandler (delay : Nat)
  deriving DecidableEq

/-! ### The module on its counter -/

/-- The timer module on its counter. -/
structure TimedTimer (H C : Type) (n cap : Nat) where
  timer : AppTimer H C n cap
  now : Nat
  /-- When the compare register was written last. -/
  written : Nat
  /-- The timeouts passed on so far, oldest first. -/
  passed : List (Timeout H C)

namespace AppTimer

variable {H C : Type} {n cap : Nat}

/-- The three stages of the list handler: deletions, expiries, insertions. -/
def updatedList (t : AppTimer H C n cap) : AppTimer H C n cap :=
  let acquired := t.elapsedTicksAcquire
  let expired := acquired.2.listDeletionsHandler.expireTimers t.ticksLatest acquired.1
  expired.1.listInsertionsHandler expired.2

/-- Whether the list handler sets the compare register. -/
def compareUpdate (t : AppTimer H C n cap) : Bool :=
  let acquired := t.elapsedTicksAcquire
  let deleted := acquired.2.listDeletionsHandler
  let expired := deleted.expireTimers t.ticksLatest acquired.1
  acquired.1.isSome || deleted.running.head? != t.running.head? ||
    t.updatedList.running.head? != expired.1.running.head?

/-- The list handler runs its stages, and then sets the compare register if need be. -/
theorem timerListHandler_eq (t : AppTimer H C n cap) (preCounter postCounter : UInt32) :
    t.timerListHandler preCounter postCounter = if t.compareUpdate
      then t.updatedList.compareRegUpdate t.running.isEmpty preCounter postCounter
      else t.updatedList := rfl

/-- The module once it is initialised and its timers are created. -/
def created (config : Fin n → TimerConfig H) (start : Nat) (handler : H) (context : C) :
    AppTimer H C n cap :=
  let t : AppTimer H C n cap := appTimerInit (counterAt start) handler context
  { t with nodes := fun timerId => { t.nodes timerId with
      state := (config timerId).state
      mode := (config timerId).mode
      timeoutHandler := (config timerId).timeoutHandler } }

end AppTimer

namespace TimedTimer

variable {H C : Type} {n cap : Nat}

/-- The counter makes a tick, and the compare register may match it. -/
def tick (s : TimedTimer H C n cap) (missed : Bool) : TimedTimer H C n cap :=
  let rtc := s.timer.rtc
  if rtc.started then
    let now := s.now + 1
    -- Only an event that follows the write too closely can be missed.
    let matches_ := rtc.compare0 == counterAt now && !(missed && decide (now ≤ s.written + 1))
    { s with
      now := now
      timer := { s.timer with rtc := { rtc with rtc1Pending := rtc.rtc1Pending || matches_ } } }
  else s

/-- The counter makes some ticks. -/
def wait (s : TimedTimer H C n cap) : Nat → TimedTimer H C n cap
  | 0 => s
  | ticks + 1 => (s.wait ticks).tick false

/-- One step; interrupts may come at any time. -/
def step (s : TimedTimer H C n cap) : TimedStep C → TimedTimer H C n cap
  | .tick missed => s.tick missed
  | .appTimerStart userId timerId timeoutTicks context =>
    { s with
      timer := (s.timer.appTimerStart userId (counterAt s.now) timerId timeoutTicks context).2 }
  | .appTimerStop userId timerId =>
    { s with timer := (s.timer.appTimerStop userId timerId).2 }
  | .appTimerStopAll userId => { s with timer := (s.timer.appTimerStopAll userId).2 }
  | .rtc1IrqHandler =>
    -- The pending bit is cleared at the entry, so a later match sets it again.
    let entered := { s.timer with rtc := { s.timer.rtc with rtc1Pending := false } }
    let checked := entered.timerTimeoutsCheck (counterAt s.now)
    { s with
      timer := checked.2
      passed := s.passed ++ checked.1.map fun event => ⟨s.now, event.1, event.2⟩ }
  | .swi0IrqHandler delay =>
    let entered := { s.timer with rtc := { s.timer.rtc with swi0Pending := false } }
    let timer := entered.timerListHandler (counterAt s.now) (counterAt (s.now + delay))
    -- The register is set, and the counter read once more, some ticks after the entry.
    let waited := wait { s with timer := timer } delay
    { waited with written := if entered.compareUpdate then waited.now else s.written }

/-- The module once its timers are created, at a given time. -/
def boot (config : Fin n → TimerConfig H) (start : Nat) (handler : H) (context : C) :
    TimedTimer H C n cap :=
  ⟨.created config start handler context, start, start, []⟩

end TimedTimer

/-! ### The agenda -/

/-- An operation that waits, with the time of its call. -/
inductive AgendaOp (C : Type) (n : Nat) where
  | start (timerId : Fin n) (called : Nat) (interval period : UInt32) (context : C)
  | stop (timerId : Fin n)
  | stopAll
  deriving DecidableEq

/-- What the timer module is for: every running timer with the time it is due at. -/
structure Agenda (H C : Type) (n : Nat) where
  now : Nat
  /-- The due time of the last timeout that has been worked off. -/
  latest : Nat
  /-- The running timers with their due times, in the order of these. -/
  entries : List (Fin n × Nat)
  /-- Zero for a timer that expires only once. -/
  period : Fin n → UInt32
  context : Fin n → C
  /-- The timeouts up to this time have been passed on, but are still on the agenda. -/
  handed : Option Nat
  ops : TimerUserId → List (AgendaOp C n)
  passed : List (Timeout H C)

namespace Agenda

variable {H C : Type} {n : Nat}

/-- The entries without a timer. -/
def without (timerId : Fin n) (entries : List (Fin n × Nat)) : List (Fin n × Nat) :=
  entries.filter fun entry => decide (entry.1 ≠ timerId)

/-- The entries with one more, which comes before those that are due at the same time. -/
def enter (entry : Fin n × Nat) (entries : List (Fin n × Nat)) : List (Fin n × Nat) :=
  entries.orderedInsert DeltaList.Sooner entry

/-- The entries that are due by a time. -/
def dueBy (time : Nat) (entries : List (Fin n × Nat)) : List (Fin n × Nat) :=
  entries.filter fun entry => decide (entry.2 ≤ time)

/-- The entries that are due only after a time. -/
def dueAfter (time : Nat) (entries : List (Fin n × Nat)) : List (Fin n × Nat) :=
  entries.filter fun entry => decide (time < entry.2)

/-- Strike out what an operation stops. -/
def strike (entries : List (Fin n × Nat)) : AgendaOp C n → List (Fin n × Nat)
  | .start _ _ _ _ _ => entries
  | .stop timerId => without timerId entries
  | .stopAll => []

/-- Strike out what the waiting operations of a user stop. -/
def strikeOf (ops : TimerUserId → List (AgendaOp C n)) (entries : List (Fin n × Nat))
    (userId : TimerUserId) : List (Fin n × Nat) :=
  (ops userId).foldl strike entries

/-- Strike out what the waiting operations stop, going through the users in turn. -/
def strikeAll (g : Agenda H C n) : Agenda H C n :=
  { g with entries := AppTimer.usersInTurn.foldl (strikeOf g.ops) g.entries }

/-- Enter a timer that was started at a time; what is due already is due at once. -/
def schedule (g : Agenda H C n) (timerId : Fin n) (started : Nat) (interval : UInt32) :
    Agenda H C n :=
  { g with entries := enter (timerId, max (started + interval.toNat) g.latest) g.entries }

/-- Strike out what has been passed on, and enter the periodic timers again. -/
def workOff (g : Agenda H C n) : Agenda H C n :=
  match g.handed with
  | none => g
  | some time =>
    let rest := { g with entries := dueAfter time g.entries, latest := time, handed := none }
    -- A periodic timer counts its next interval from when it was due.
    let again := (dueBy time g.entries).reverse.filter fun entry =>
      decide (g.period entry.1 ≠ 0)
    again.foldl (fun g entry => g.schedule entry.1 entry.2 (g.period entry.1)) rest

/-- Enter the timer that an operation starts, unless it is running already. -/
def begin (g : Agenda H C n) : AgendaOp C n → Agenda H C n
  | .start timerId called interval period context =>
    if timerId ∈ g.entries.map Prod.fst then g
    else
      { g with
        period := Function.update g.period timerId period
        context := Function.update g.context timerId context }.schedule timerId called interval
  | .stop _ => g
  | .stopAll => g

/-- Carry out the operations of one user. -/
def beginOf (g : Agenda H C n) (userId : TimerUserId) : Agenda H C n :=
  let begun := (g.ops userId).foldl begin g
  { begun with ops := Function.update begun.ops userId [] }

/-- Bring the agenda up to date: stops first, then timeouts, then starts. -/
def update (g : Agenda H C n) : Agenda H C n :=
  -- A start that waits with a stop of its timer is carried out after it.
  AppTimer.usersInTurn.foldl beginOf g.strikeAll.workOff

/-- Pass on what is due, in the order of the due times. -/
def passOn (config : Fin n → TimerConfig H) (g : Agenda H C n) : Agenda H C n :=
  match g.entries with
  | [] => g
  | _ :: _ =>
    let due := dueBy g.now g.entries
    -- The time handed over is the due time of the last one, not the time of the interrupt.
    { g with
      handed := some ((due.getLast?.map Prod.snd).getD g.latest)
      passed := g.passed ++ due.map fun entry =>
        ⟨g.now, (config entry.1).timeoutHandler, g.context entry.1⟩ }

/-- Let an operation wait, unless as many are waiting as there is room for. -/
def await (cap : Nat) (g : Agenda H C n) (userId : TimerUserId) (op : AgendaOp C n) :
    Agenda H C n :=
  if (g.ops userId).length < cap then
    { g with ops := Function.update g.ops userId (g.ops userId ++ [op]) }
  else g

/-- The counter makes a tick; without a running timer, it stands still. -/
def tick (g : Agenda H C n) : Agenda H C n :=
  match g.entries with
  | [] => g
  | _ :: _ => { g with now := g.now + 1 }

/-- The counter makes some ticks. -/
def wait (g : Agenda H C n) : Nat → Agenda H C n
  | 0 => g
  | ticks + 1 => (g.wait ticks).tick

/-- The same step on the agenda. -/
def step (config : Fin n → TimerConfig H) (cap : Nat) (g : Agenda H C n) :
    TimedStep C → Agenda H C n
  | .tick _ => g.tick
  | .appTimerStart userId timerId timeoutTicks context =>
    if inside : timerId < n then
      if timeoutTicks < appTimerMinTimeoutTicks ∨ (config ⟨timerId, inside⟩).state ≠ .allocated
      then g
      else
        let period := if (config ⟨timerId, inside⟩).mode = .repeated then timeoutTicks else 0
        g.await cap userId (.start ⟨timerId, inside⟩ g.now timeoutTicks period context)
    else g
  | .appTimerStop userId timerId =>
    if inside : timerId < n then
      if (config ⟨timerId, inside⟩).state ≠ .allocated then g
      else g.await cap userId (.stop ⟨timerId, inside⟩)
    else g
  | .appTimerStopAll userId => g.await cap userId .stopAll
  | .rtc1IrqHandler => g.passOn config
  | .swi0IrqHandler delay => g.update.wait delay

/-- The agenda once the timers are created, at a given time. -/
def boot (start : Nat) (context : C) : Agenda H C n where
  now := start
  latest := start
  entries := []
  period _ := 0
  context _ := context
  handed := none
  ops _ := []
  passed := []

/--
The counter is read in time, and no interval is too long for the ticks of a timer.

The list handler tells a start before the last timeout worked off from one behind it, and so has
to come within half the counter range.
-/
def InRange (g : Agenda H C n) : TimedStep C → Prop
  | .appTimerStart _ _ timeoutTicks _ => timeoutTicks.toNat + counterRange / 2 ≤ 2 ^ 32
  | .rtc1IrqHandler => g.now < g.latest + counterRange
  | .swi0IrqHandler delay => g.now + delay + 1 < g.latest + counterRange / 2
  | _ => True

instance (g : Agenda H C n) : ∀ next, Decidable (g.InRange next)
  | .tick _ => isTrue trivial
  | .appTimerStart _ _ timeoutTicks _ =>
    inferInstanceAs (Decidable (timeoutTicks.toNat + counterRange / 2 ≤ 2 ^ 32))
  | .appTimerStop _ _ => isTrue trivial
  | .appTimerStopAll _ => isTrue trivial
  | .rtc1IrqHandler => inferInstanceAs (Decidable (g.now < g.latest + counterRange))
  | .swi0IrqHandler delay =>
    inferInstanceAs (Decidable (g.now + delay + 1 < g.latest + counterRange / 2))

end Agenda

end BleHub
