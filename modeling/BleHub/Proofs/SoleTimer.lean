import BleHub.Firmware.AppTimer

/-! The timer module while only one single-shot timer is ever used, and only from thread mode. -/

namespace BleHub

variable {H C : Type} {n cap : Nat}

/-- The operation starts the timer once, or stops it. -/
def TimerUserOp.Concerns (timerId : Fin n) : TimerUserOp C n → Prop
  | .start started _ _ ticksPeriodicInterval _ => started = timerId ∧ ticksPeriodicInterval = 0
  | .stop stopped => stopped = timerId
  | .stopAll => False

/-- Whether an operation starts a timer. -/
def TimerUserOp.isStart : TimerUserOp C n → Bool
  | .start _ _ _ _ _ => true
  | .stop _ => false
  | .stopAll => false

/-- The list holds just the timer, if it runs, and the timer expires only once. -/
structure Alone (timerId : Fin n) (handler : H) (t : AppTimer H C n cap) : Prop where
  listed : t.running = if (t.nodes timerId).isRunning then [timerId] else []
  once : (t.nodes timerId).isRunning = true → (t.nodes timerId).ticksPeriodicInterval = 0
  mode : (t.nodes timerId).mode = .singleShot
  handler : (t.nodes timerId).timeoutHandler = handler

/-- Only thread mode queues operations, and only on the timer. -/
structure Queued (timerId : Fin n) (t : AppTimer H C n cap) : Prop where
  thread : ∀ userId, userId ≠ threadModeUserId → (t.users userId).contents = []
  ops : ∀ op ∈ (t.users threadModeUserId).contents, op.Concerns timerId

/-- The operations that wait for the SWI0 interrupt. -/
def AppTimer.waiting (t : AppTimer H C n cap) : List (TimerUserOp C n) :=
  (t.users threadModeUserId).contents

/-- The timer runs and will go on running once the elapsed ticks are taken into account. -/
def Live (timerId : Fin n) (t : AppTimer H C n cap) : Prop :=
  (t.nodes timerId).isRunning = true ∧
    (t.ticksElapsedQReadInd = t.ticksElapsedQWriteInd ∨
      t.ticksElapsed t.ticksElapsedQWriteInd < (t.nodes timerId).ticksToExpire)

/-- A start operation waits behind every stop operation. -/
def StartQueued (timerId : Fin n) (ops : List (TimerUserOp C n)) : Prop :=
  ∃ earlier later ticksAtStart ticksFirstInterval ticksPeriodicInterval context,
    ops = earlier ++
      .start timerId ticksAtStart ticksFirstInterval ticksPeriodicInterval context :: later ∧
    ∀ op ∈ later, op.isStart = true

/-- The timer is armed: it runs and is not about to be stopped, or it is about to be started. -/
def Armed (timerId : Fin n) (t : AppTimer H C n cap) : Prop :=
  (Live timerId t ∧ ∀ op ∈ t.waiting, op.isStart = true) ∨ StartQueued timerId t.waiting

/-- The timer is stopped or about to be: no start waits, and a stop does if the timer runs. -/
def Stopping (timerId : Fin n) (t : AppTimer H C n cap) : Prop :=
  (∀ op ∈ t.waiting, op.isStart = false) ∧
    ((t.nodes timerId).isRunning = true → t.waiting ≠ [])

/-- Neither the operations that wait nor the queue of elapsed ticks have changed. -/
structure SameQueues (t t' : AppTimer H C n cap) : Prop where
  users : t'.users = t.users
  readInd : t'.ticksElapsedQReadInd = t.ticksElapsedQReadInd
  writeInd : t'.ticksElapsedQWriteInd = t.ticksElapsedQWriteInd

/-- Changing nothing keeps the queues. -/
theorem SameQueues.refl (t : AppTimer H C n cap) : SameQueues t t := ⟨rfl, rfl, rfl⟩

/-- Two changes that keep the queues are one. -/
theorem SameQueues.trans {t t' t'' : AppTimer H C n cap} (first : SameQueues t t')
    (second : SameQueues t' t'') : SameQueues t t'' :=
  ⟨second.users.trans first.users, second.readInd.trans first.readInd,
    second.writeInd.trans first.writeInd⟩

section

variable {timerId : Fin n} {handler : H} {t : AppTimer H C n cap}

/-! ### Deletions -/

/-- What going through operations for deletions leads to. -/
structure Deletes (timerId : Fin n) (handler : H) (ops : List (TimerUserOp C n))
    (t t' : AppTimer H C n cap) : Prop where
  alone : Alone timerId handler t'
  queues : SameQueues t t'
  /-- Starts wait for later. -/
  starts : (∀ op ∈ ops, op.isStart = true) → t' = t
  stops : (t.nodes timerId).isRunning = false ∨ (∃ op ∈ ops, op.isStart = false) →
    (t'.nodes timerId).isRunning = false

/-- A stop takes the timer off the list, and a start is passed over. -/
theorem Alone.deleteOp (alone : Alone timerId handler t) {op : TimerUserOp C n}
    (concerns : op.Concerns timerId) : Deletes timerId handler [op] t (t.deleteOp op) := by
  -- The cases follow the kinds of operation, of which stopping everything is never queued.
  cases op with
  | start =>
    refine ⟨alone, .refl t, fun _ => rfl, ?_⟩
    rintro (idle | ⟨op, member, stop⟩)
    · exact idle
    · rw [List.mem_singleton.mp member] at stop
      cases stop
  | stop stopped =>
    have same : stopped = timerId := concerns
    subst same
    have noStart : ¬ ∀ op ∈ [TimerUserOp.stop (C := C) stopped], op.isStart = true := by
      simp [TimerUserOp.isStart]
    cases runs : (t.nodes stopped).isRunning with
    | false =>
      -- A timer that does not run is not in the list.
      have nothing : t.deleteOp (.stop stopped) = t := by simp [AppTimer.deleteOp, runs]
      rw [nothing]
      exact ⟨alone, .refl t, fun _ => rfl, fun _ => runs⟩
    | true =>
      -- Being alone in the list, the timer leaves an empty one behind.
      have list : t.running = [stopped] := by simpa [runs] using alone.listed
      have deleted : t.deleteOp (.stop stopped) =
          { t with nodes := AppTimer.halt t.nodes stopped, running := [] } := by
        simp [AppTimer.deleteOp, runs, list, timerListRemove]
      rw [deleted]
      refine ⟨⟨?_, ?_, ?_, ?_⟩, ⟨rfl, rfl, rfl⟩, fun starts => absurd starts noStart, fun _ => ?_⟩
      · simp [AppTimer.halt]
      · simp [AppTimer.halt]
      · simpa [AppTimer.halt] using alone.mode
      · simpa [AppTimer.halt] using alone.handler
      · simp [AppTimer.halt]
  | stopAll => cases concerns

/-- Going through one more operation first deletes what it says. -/
theorem Deletes.cons {t' t'' : AppTimer H C n cap} {op : TimerUserOp C n}
    {ops : List (TimerUserOp C n)} (first : Deletes timerId handler [op] t t')
    (rest : Deletes timerId handler ops t' t'') : Deletes timerId handler (op :: ops) t t'' := by
  refine ⟨rest.alone, first.queues.trans rest.queues, fun starts => ?_, ?_⟩
  · -- Starts are passed over, be it the first operation or one behind it.
    rw [rest.starts fun other member => starts other (List.mem_cons_of_mem _ member)]
    refine first.starts fun other member => starts other ?_
    rw [List.mem_singleton.mp member]
    exact List.mem_cons_self
  · -- Once the timer is stopped, it stays stopped.
    rintro (idle | ⟨stopping, member, stop⟩)
    · exact rest.stops (.inl (first.stops (.inl idle)))
    · rcases List.mem_cons.mp member with rfl | later
      · exact rest.stops (.inl (first.stops (.inr ⟨_, List.mem_singleton_self _, stop⟩)))
      · exact rest.stops (.inr ⟨stopping, later, stop⟩)

/-- Going through all operations of a queue deletes what any of them says. -/
theorem Alone.deleteOps (alone : Alone timerId handler t) {ops : List (TimerUserOp C n)}
    (concern : ∀ op ∈ ops, op.Concerns timerId) :
    Deletes timerId handler ops t (ops.foldl AppTimer.deleteOp t) := by
  -- The induction is over the queue, from any state of the module.
  induction ops generalizing t with
  | nil =>
    refine ⟨alone, .refl t, fun _ => rfl, ?_⟩
    rintro (idle | ⟨op, member, -⟩)
    · exact idle
    · simp at member
  | cons op ops ih =>
    have first := alone.deleteOp (concern op List.mem_cons_self)
    exact first.cons
      (ih first.alone fun other member => concern other (List.mem_cons_of_mem _ member))

/-- A user without operations has nothing deleted. -/
theorem deleteOpsOf_idle {userId : TimerUserId} (idle : (t.users userId).contents = []) :
    t.deleteOpsOf userId = t := by
  rw [AppTimer.deleteOpsOf, idle, List.foldl_nil]

/-- Only the queue of thread mode has anything to delete. -/
theorem Alone.listDeletionsHandler (alone : Alone timerId handler t) (queued : Queued timerId t) :
    Deletes timerId handler t.waiting t t.listDeletionsHandler := by
  have deleted : Deletes timerId handler t.waiting t (t.deleteOpsOf 2) :=
    alone.deleteOps queued.ops
  -- The other two users are gone through after it, and the deletions leave their queues empty.
  have low : ((t.deleteOpsOf 2).users 1).contents = [] := by
    rw [deleted.queues.users]
    exact queued.thread 1 (by decide)
  have high : ((t.deleteOpsOf 2).users 0).contents = [] := by
    rw [deleted.queues.users]
    exact queued.thread 0 (by decide)
  have same : t.listDeletionsHandler = t.deleteOpsOf 2 := by
    simp only [AppTimer.listDeletionsHandler, AppTimer.usersInTurn, List.foldl_cons,
      List.foldl_nil]
    rw [deleteOpsOf_idle low, deleteOpsOf_idle high]
  rw [same]
  exact deleted

/-! ### Expiries -/

/-- What the elapsed ticks lead to. -/
structure Expires (timerId : Fin n) (handler : H) (acquired : Option UInt32)
    (t t' : AppTimer H C n cap) : Prop where
  alone : Alone timerId handler t'
  queues : SameQueues t t'
  stays : (t.nodes timerId).isRunning = true →
    (∀ elapsed ∈ acquired, elapsed < (t.nodes timerId).ticksToExpire) →
      (t'.nodes timerId).isRunning = true
  rests : (t.nodes timerId).isRunning = false → (t'.nodes timerId).isRunning = false

/-- The timer stays on the list unless it has expired, and is never restarted. -/
theorem Alone.expireTimers (alone : Alone timerId handler t) (previous : UInt32)
    (acquired : Option UInt32) :
    Expires timerId handler acquired t (t.expireTimers previous acquired).1 ∧
      (t.expireTimers previous acquired).2 = [] := by
  cases acquired with
  | none => exact ⟨⟨alone, .refl t, fun runs _ => runs, id⟩, rfl⟩
  | some elapsed =>
    simp only [AppTimer.expireTimers]
    cases runs : (t.nodes timerId).isRunning with
    | false =>
      -- With nothing on the list, the elapsed ticks change nothing.
      have list : t.running = [] := by simpa [runs] using alone.listed
      rw [list]
      refine ⟨⟨⟨?_, alone.once, alone.mode, alone.handler⟩, ⟨rfl, rfl, rfl⟩, ?_, fun _ => runs⟩,
        rfl⟩
      · simp [AppTimer.expiredTimersHandler, runs]
      · intro running
        rw [runs] at running
        cases running
    | true =>
      have list : t.running = [timerId] := by simpa [runs] using alone.listed
      rw [list]
      simp only [AppTimer.expiredTimersHandler]
      by_cases early : elapsed < (t.nodes timerId).ticksToExpire
      · -- The timer waits for the ticks that are left.
        simp only [early, if_true]
        refine ⟨⟨⟨?_, ?_, ?_, ?_⟩, ⟨rfl, rfl, rfl⟩, fun _ _ => ?_, ?_⟩, trivial⟩
        · simp [TimerNode.expireIn, runs]
        · simpa [TimerNode.expireIn] using alone.once
        · simpa [TimerNode.expireIn] using alone.mode
        · simpa [TimerNode.expireIn] using alone.handler
        · simp [TimerNode.expireIn, runs]
        · simp [runs]
      · -- It has expired, and without a period that is its end.
        simp only [early, if_false, alone.once runs, ne_eq, not_true_eq_false]
        refine ⟨⟨⟨?_, ?_, ?_, ?_⟩, ⟨rfl, rfl, rfl⟩, fun _ late => ?_, ?_⟩, trivial⟩
        · simp
        · simp
        · simpa using alone.mode
        · simpa using alone.handler
        · exact absurd (late elapsed rfl) early
        · simp

/-! ### Insertions -/

/-- What going through operations for insertions leads to. -/
structure Inserts (timerId : Fin n) (handler : H) (ops : List (TimerUserOp C n))
    (t t' : AppTimer H C n cap) : Prop where
  alone : Alone timerId handler t'
  queues : SameQueues t t'
  starts : (t.nodes timerId).isRunning = true ∨ (∃ op ∈ ops, op.isStart = true) →
    (t'.nodes timerId).isRunning = true
  /-- Stops do nothing any more. -/
  stops : (∀ op ∈ ops, op.isStart = false) → t' = t

/-- A start makes the timer run, and a stop is passed over. -/
theorem Alone.insertOp (alone : Alone timerId handler t) {op : TimerUserOp C n}
    (concerns : op.Concerns timerId) : Inserts timerId handler [op] t (t.insertOp op) := by
  -- The cases are those of the deletions, with starts and stops in exchanged roles.
  cases op with
  | start started ticksAtStart ticksFirstInterval ticksPeriodicInterval context =>
    obtain ⟨rfl, rfl⟩ := concerns
    have noStop : ¬ ∀ op ∈ [TimerUserOp.start started ticksAtStart ticksFirstInterval 0 context],
        op.isStart = false := by simp [TimerUserOp.isStart]
    cases runs : (t.nodes started).isRunning with
    | true =>
      -- A timer that runs already goes on with its old ticks.
      have nothing :
          t.insertOp (.start started ticksAtStart ticksFirstInterval 0 context) = t := by
        simp [AppTimer.insertOp, runs]
      rw [nothing]
      exact ⟨alone, .refl t, fun _ => runs, fun _ => rfl⟩
    | false =>
      -- In an empty list, the timer keeps all of its ticks.
      have list : t.running = [] := by simpa [runs] using alone.listed
      simp only [AppTimer.insertOp, runs, AppTimer.insertTimer, AppTimer.configure, list,
        timerListInsert, Bool.false_eq_true, if_false]
      refine ⟨⟨?_, ?_, ?_, ?_⟩, ⟨rfl, rfl, rfl⟩, fun _ => ?_, fun stops => absurd stops noStop⟩
      · simp [AppTimer.begin, TimerNode.expireIn]
      · simp [AppTimer.begin, TimerNode.expireIn]
      · simpa [AppTimer.begin, TimerNode.expireIn] using alone.mode
      · simpa [AppTimer.begin, TimerNode.expireIn] using alone.handler
      · simp [AppTimer.begin, TimerNode.expireIn]
  | stop stopped =>
    refine ⟨alone, .refl t, ?_, fun _ => rfl⟩
    rintro (runs | ⟨op, member, start⟩)
    · exact runs
    · rw [List.mem_singleton.mp member] at start
      cases start
  | stopAll => cases concerns

/-- Going through one more operation first inserts what it says. -/
theorem Inserts.cons {t' t'' : AppTimer H C n cap} {op : TimerUserOp C n}
    {ops : List (TimerUserOp C n)} (first : Inserts timerId handler [op] t t')
    (rest : Inserts timerId handler ops t' t'') : Inserts timerId handler (op :: ops) t t'' := by
  refine ⟨rest.alone, first.queues.trans rest.queues, ?_, fun stops => ?_⟩
  · -- Once the timer runs, no insertion stops it.
    rintro (runs | ⟨starting, member, start⟩)
    · exact rest.starts (.inl (first.starts (.inl runs)))
    · rcases List.mem_cons.mp member with rfl | later
      · exact rest.starts (.inl (first.starts (.inr ⟨_, List.mem_singleton_self _, start⟩)))
      · exact rest.starts (.inr ⟨starting, later, start⟩)
  · -- Stops are passed over, be it the first operation or one behind it.
    rw [rest.stops fun other member => stops other (List.mem_cons_of_mem _ member)]
    refine first.stops fun other member => stops other ?_
    rw [List.mem_singleton.mp member]
    exact List.mem_cons_self

/-- Going through all operations of a queue inserts what any of them says. -/
theorem Alone.insertOps (alone : Alone timerId handler t) {ops : List (TimerUserOp C n)}
    (concern : ∀ op ∈ ops, op.Concerns timerId) :
    Inserts timerId handler ops t (ops.foldl AppTimer.insertOp t) := by
  -- The induction is over the queue, from any state of the module.
  induction ops generalizing t with
  | nil =>
    refine ⟨alone, .refl t, ?_, fun _ => rfl⟩
    rintro (runs | ⟨op, member, -⟩)
    · exact runs
    · simp at member
  | cons op ops ih =>
    have first := alone.insertOp (concern op List.mem_cons_self)
    exact first.cons
      (ih first.alone fun other member => concern other (List.mem_cons_of_mem _ member))

/-- What the insertions of one user lead to. -/
structure Empties (timerId : Fin n) (handler : H) (userId : TimerUserId)
    (t t' : AppTimer H C n cap) : Prop where
  alone : Alone timerId handler t'
  contents : ∀ other, (t'.users other).contents =
    if other = userId then [] else (t.users other).contents
  readInd : t'.ticksElapsedQReadInd = t.ticksElapsedQReadInd
  writeInd : t'.ticksElapsedQWriteInd = t.ticksElapsedQWriteInd
  starts : (t.nodes timerId).isRunning = true ∨
    (∃ op ∈ (t.users userId).contents, op.isStart = true) → (t'.nodes timerId).isRunning = true
  stops : (∀ op ∈ (t.users userId).contents, op.isStart = false) → t'.nodes = t.nodes

/-- Carrying out the operations of a user empties its queue and leaves the others alone. -/
theorem Alone.insertOpsOf (alone : Alone timerId handler t) (userId : TimerUserId)
    (concern : ∀ op ∈ (t.users userId).contents, op.Concerns timerId) :
    Empties timerId handler userId t (t.insertOpsOf userId) := by
  -- The operations are taken only after all of them have been carried out.
  obtain ⟨kept, queues, starts, stops⟩ := alone.insertOps concern
  refine ⟨⟨kept.listed, kept.once, kept.mode, kept.handler⟩, fun other => ?_, queues.readInd,
    queues.writeInd, starts, fun idle => ?_⟩
  · simp only [AppTimer.insertOpsOf]
    by_cases same : other = userId
    · subst same
      simp [RingBuffer.contents]
    · simp [same, queues.users]
  · simp only [AppTimer.insertOpsOf, stops idle]

/-- What the insertions of all users lead to. -/
structure Restarts (timerId : Fin n) (handler : H) (t t' : AppTimer H C n cap) : Prop where
  alone : Alone timerId handler t'
  contents : ∀ userId, (t'.users userId).contents = []
  readInd : t'.ticksElapsedQReadInd = t.ticksElapsedQReadInd
  writeInd : t'.ticksElapsedQWriteInd = t.ticksElapsedQWriteInd
  starts : (t.nodes timerId).isRunning = true ∨ (∃ op ∈ t.waiting, op.isStart = true) →
    (t'.nodes timerId).isRunning = true
  stops : (∀ op ∈ t.waiting, op.isStart = false) → t'.nodes = t.nodes

/-- After the insertions all queues are empty, and the timer runs if one of them started it. -/
theorem Alone.listInsertionsHandler (alone : Alone timerId handler t)
    (queued : Queued timerId t) : Restarts timerId handler t (t.listInsertionsHandler []) := by
  -- Only the first of the three queues has operations in it.
  have thread := alone.insertOpsOf 2 queued.ops
  -- The other queues have been empty before, and are so still.
  have noLow : ((t.insertOpsOf 2).users 1).contents = [] := by
    rw [thread.contents 1, if_neg (by decide), queued.thread 1 (by decide)]
  have low := thread.alone.insertOpsOf 1 (by simp [noLow])
  have noHigh : (((t.insertOpsOf 2).insertOpsOf 1).users 0).contents = [] := by
    rw [low.contents 0, if_neg (by decide), thread.contents 0, if_neg (by decide),
      queued.thread 0 (by decide)]
  have high := low.alone.insertOpsOf 0 (by simp [noHigh])
  -- The users come in the order of their queues, the last one first.
  have inTurn : t.listInsertionsHandler [] =
      ((t.insertOpsOf 2).insertOpsOf 1).insertOpsOf 0 := by
    simp only [AppTimer.listInsertionsHandler, AppTimer.usersInTurn, List.foldl_nil,
      List.foldl_cons]
  rw [inTurn]
  refine ⟨high.alone, fun userId => ?_, ?_, ?_, fun start => ?_, fun idle => ?_⟩
  · rw [high.contents userId, low.contents userId, thread.contents userId]
    match userId with
    | 0 | 1 | 2 => rfl
  · rw [high.readInd, low.readInd, thread.readInd]
  · rw [high.writeInd, low.writeInd, thread.writeInd]
  · -- The handlers of the other users start nothing, and so keep a started timer running.
    exact high.starts (.inl (low.starts (.inl (thread.starts start))))
  · rw [high.stops (by simp [noHigh]), low.stops (by simp [noLow])]
    exact thread.stops idle

/-! ### The interrupts -/

/-- Only one timer is ever used, and only from thread mode. -/
structure Sole (timerId : Fin n) (handler : H) (t : AppTimer H C n cap) : Prop where
  alone : Alone timerId handler t
  queued : Queued timerId t

/-- What the module remembers about the timer lies in its nodes, its list and its queues. -/
theorem Sole.congr {t' : AppTimer H C n cap} (sole : Sole timerId handler t)
    (nodes : t'.nodes = t.nodes) (running : t'.running = t.running) (users : t'.users = t.users) :
    Sole timerId handler t' := by
  -- Neither the elapsed ticks nor the peripheral matter to it.
  refine ⟨⟨?_, ?_, ?_, ?_⟩, ?_, ?_⟩
  · rw [running, nodes]
    exact sole.alone.listed
  · rw [nodes]
    exact sole.alone.once
  · rw [nodes]
    exact sole.alone.mode
  · rw [nodes]
    exact sole.alone.handler
  · rw [users]
    exact sole.queued.thread
  · rw [users]
    exact sole.queued.ops

/-- What an armed timer offers to the list handler: it goes on running, or is started anew. -/
def KeepsRunning (timerId : Fin n) (acquired : Option UInt32) (t : AppTimer H C n cap) : Prop :=
  ((t.nodes timerId).isRunning = true ∧ (∀ op ∈ t.waiting, op.isStart = true) ∧
    ∀ elapsed ∈ acquired, elapsed < (t.nodes timerId).ticksToExpire) ∨
  ∃ op ∈ t.waiting, op.isStart = true

/-- The armed timer runs, and an expiry handled later leaves it running. -/
theorem Armed.running {acquired : Option UInt32} (armed : Armed timerId t)
    (given : ∀ elapsed ∈ acquired, elapsed = t.ticksElapsed t.ticksElapsedQWriteInd ∧
      t.ticksElapsedQReadInd ≠ t.ticksElapsedQWriteInd) :
    KeepsRunning timerId acquired t := by
  -- The ticks acquired are the ones that the timer is known to outlast.
  rcases armed with ⟨⟨runs, left⟩, starts⟩ |
    ⟨earlier, later, ticksAtStart, ticksFirst, ticksPeriodic, context, ops, -⟩
  · refine .inl ⟨runs, starts, fun elapsed member => ?_⟩
    obtain ⟨rfl, pending⟩ := given elapsed member
    exact left.resolve_left pending
  · exact .inr ⟨.start timerId ticksAtStart ticksFirst ticksPeriodic context,
      by rw [ops]; simp, rfl⟩

/-- The elapsed ticks are taken from the entry written last, and their queue is then empty. -/
theorem elapsedTicksAcquire_spec (t : AppTimer H C n cap) :
    let acquired := t.elapsedTicksAcquire
    (acquired.2.nodes = t.nodes ∧ acquired.2.running = t.running ∧ acquired.2.users = t.users) ∧
      acquired.2.ticksElapsedQReadInd = acquired.2.ticksElapsedQWriteInd ∧
      ∀ elapsed ∈ acquired.1, elapsed = t.ticksElapsed t.ticksElapsedQWriteInd ∧
        t.ticksElapsedQReadInd ≠ t.ticksElapsedQWriteInd := by
  -- With two entries, the one after the entry read last is the one written last.
  have around : ∀ readInd writeInd : Fin 2, readInd ≠ writeInd → readInd + 1 = writeInd := by
    decide
  simp only [AppTimer.elapsedTicksAcquire]
  split
  · rename_i pending
    have next := around _ _ pending
    refine ⟨⟨rfl, rfl, rfl⟩, next, fun elapsed member => ?_⟩
    simp only [Option.mem_def, Option.some.injEq] at member
    rw [← member, next]
    exact ⟨rfl, pending⟩
  · rename_i empty
    exact ⟨⟨rfl, rfl, rfl⟩, not_not.mp empty, by simp⟩

/-- Setting the compare register changes nothing but the peripheral. -/
theorem compareRegUpdate_spec (t : AppTimer H C n cap) (wasIdle : Bool) (pre post : UInt32) :
    ∃ rtc, t.compareRegUpdate wasIdle pre post = { t with rtc := rtc } := by
  -- One branch stops the peripheral, and the other one sets it.
  unfold AppTimer.compareRegUpdate
  split
  · exact ⟨_, rfl⟩
  · exact ⟨_, rfl⟩

/-- What the three stages of the list handler lead to. -/
structure Updates (timerId : Fin n) (handler : H) (acquired : Option UInt32)
    (t t' : AppTimer H C n cap) : Prop where
  alone : Alone timerId handler t'
  contents : ∀ userId, (t'.users userId).contents = []
  readInd : t'.ticksElapsedQReadInd = t.ticksElapsedQReadInd
  writeInd : t'.ticksElapsedQWriteInd = t.ticksElapsedQWriteInd
  runs : KeepsRunning timerId acquired t → (t'.nodes timerId).isRunning = true
  rests : Stopping timerId t → (t'.nodes timerId).isRunning = false

/-- Deletions, expiries and insertions empty the queues, and run a timer that is to run. -/
theorem Sole.updateList (sole : Sole timerId handler t) (previous : UInt32)
    (acquired : Option UInt32) : Updates timerId handler acquired t
      ((t.listDeletionsHandler.expireTimers previous acquired).1.listInsertionsHandler
        (t.listDeletionsHandler.expireTimers previous acquired).2) := by
  -- The three stages follow each other, with nothing to restart between the last two.
  have deleted := sole.alone.listDeletionsHandler sole.queued
  obtain ⟨expired, restart⟩ := deleted.alone.expireTimers previous acquired
  -- Neither the deletions nor the expiries take anything from the queues of operations.
  have queues := deleted.queues.trans expired.queues
  have waiting : (t.listDeletionsHandler.expireTimers previous acquired).1.waiting = t.waiting := by
    rw [AppTimer.waiting, queues.users]
    rfl
  have queued : Queued timerId (t.listDeletionsHandler.expireTimers previous acquired).1 :=
    ⟨by rw [queues.users]; exact sole.queued.thread, by rw [queues.users]; exact sole.queued.ops⟩
  have inserted := expired.alone.listInsertionsHandler queued
  have starts := inserted.starts
  have stops := inserted.stops
  rw [waiting] at starts stops
  simp only [restart]
  refine ⟨inserted.alone, inserted.contents, inserted.readInd.trans queues.readInd,
    inserted.writeInd.trans queues.writeInd, ?_, ?_⟩
  · rintro (⟨already, onlyStarts, early⟩ | start)
    · -- Without a stop among the operations, the deletions change nothing.
      have same := deleted.starts onlyStarts
      refine starts (.inl (expired.stays ?_ ?_))
      · rw [same]
        exact already
      · rw [same]
        exact early
    · exact starts (.inr start)
  · rintro ⟨noStart, stop⟩
    rw [stops noStart]
    refine expired.rests (deleted.stops ?_)
    -- A running timer is stopped by an operation that waits, and none of them is a start.
    cases running : (t.nodes timerId).isRunning with
    | false => exact .inl rfl
    | true =>
      obtain ⟨op, member⟩ := List.exists_mem_of_ne_nil _ (stop running)
      exact .inr ⟨op, member, noStart op member⟩

/-- What the SWI0 interrupt leads to. -/
structure WorksOff (timerId : Fin n) (handler : H) (t t' : AppTimer H C n cap) : Prop where
  sole : Sole timerId handler t'
  waiting : t'.waiting = []
  taken : t'.ticksElapsedQReadInd = t'.ticksElapsedQWriteInd
  runs : Armed timerId t → (t'.nodes timerId).isRunning = true
  rests : Stopping timerId t → (t'.nodes timerId).isRunning = false

/-- The SWI0 interrupt carries out all operations, and an armed timer runs afterwards. -/
theorem Sole.timerListHandler (sole : Sole timerId handler t) (pre post : UInt32) :
    WorksOff timerId handler t (t.timerListHandler pre post) := by
  -- Taking the elapsed ticks leaves the timers as they are, and the stages start from there.
  obtain ⟨⟨nodes, running, users⟩, empty, given⟩ := elapsedTicksAcquire_spec t
  simp only [AppTimer.timerListHandler]
  generalize t.elapsedTicksAcquire = acquired at *
  obtain ⟨elapsed, start⟩ := acquired
  simp only at nodes running users empty given ⊢
  have waiting : start.waiting = t.waiting := by rw [AppTimer.waiting, users, AppTimer.waiting]
  have updated := (sole.congr nodes running users).updateList t.ticksLatest elapsed
  generalize start.listDeletionsHandler.expireTimers t.ticksLatest elapsed = expired at *
  generalize expired.1.listInsertionsHandler expired.2 = inserted at *
  -- Whatever the peripheral is told, the timer and its queues are as the three stages left them.
  have done : ∀ rtc, WorksOff timerId handler t { inserted with rtc := rtc } := by
    intro rtc
    have empties : Queued timerId inserted := by
      refine ⟨fun userId _ => updated.contents userId, fun op member => ?_⟩
      rw [updated.contents] at member
      simp at member
    have kept : Sole timerId handler inserted := ⟨updated.alone, empties⟩
    refine ⟨kept.congr rfl rfl rfl, updated.contents threadModeUserId, ?_, fun armed => ?_,
      fun stopping => ?_⟩
    · exact updated.readInd.trans (empty.trans updated.writeInd.symm)
    · refine updated.runs ?_
      rw [KeepsRunning, waiting, nodes]
      exact armed.running given
    · refine updated.rests ?_
      rw [Stopping, waiting, nodes]
      exact stopping
  -- The peripheral is told only where the first timer or the list has changed.
  split
  · obtain ⟨rtc, update⟩ := compareRegUpdate_spec inserted t.running.isEmpty pre post
    rw [update]
    exact done rtc
  · exact done inserted.rtc

/-- After the SWI0 interrupt an armed timer is armed by running. -/
theorem Sole.armed_timerListHandler (sole : Sole timerId handler t) (pre post : UInt32)
    (armed : Armed timerId t) : Armed timerId (t.timerListHandler pre post) := by
  -- No operation is left that could stop it, and no ticks are left that could expire it.
  have worked := sole.timerListHandler pre post
  exact .inl ⟨⟨worked.runs armed, .inl worked.taken⟩, by simp [worked.waiting]⟩

/-- The RTC1 interrupt leaves an armed timer armed, or passes its expiry on. -/
theorem Sole.timerTimeoutsCheck (sole : Sole timerId handler t) (counter : UInt32) :
    let result := t.timerTimeoutsCheck counter
    Sole timerId handler result.2 ∧ (∀ event ∈ result.1, event.1 = handler) ∧
      (Armed timerId t → Armed timerId result.2 ∨ result.1 ≠ []) := by
  -- The list has at most one timer, and the only question is whether that one is due.
  have list := sole.alone.listed
  cases runs : (t.nodes timerId).isRunning with
  | false =>
    -- A timer that does not run is armed by a start that waits, which is not touched.
    have idle : t.running = [] := by simpa [runs] using list
    simp only [AppTimer.timerTimeoutsCheck, idle]
    exact ⟨sole, by simp, .inl⟩
  | true =>
    have single : t.running = [timerId] := by simpa [runs] using list
    simp only [AppTimer.timerTimeoutsCheck, single, timersExpiring]
    have kept : ∀ ticks, Sole timerId handler (t.queueTicks ticks) := fun ticks =>
      sole.congr rfl rfl rfl
    by_cases early :
        ticksDiffGet counter t.ticksLatest < (t.nodes timerId).ticksToExpire
    · -- Nothing expires: the queue of elapsed ticks gets a zero, which is not due either.
      simp only [early, if_true]
      refine ⟨kept 0, by simp, fun armed => .inl ?_⟩
      rcases armed with ⟨-, starts⟩ | start
      · refine .inl ⟨⟨runs, .inr ?_⟩, starts⟩
        have positive : 0 < (t.nodes timerId).ticksToExpire :=
          UInt32.lt_of_le_of_lt (UInt32.zero_le) early
        simpa [AppTimer.queueTicks] using positive
      · exact .inr start
    · -- The timer expires, and its handler is what is passed on.
      simp only [early, if_false]
      exact ⟨kept _, by simpa using sole.alone.handler, fun _ => .inr (by simp)⟩

/-! ### Starting and stopping -/

/-- Queueing an operation on the timer keeps it the only one, and appends the operation. -/
theorem Sole.opSchedule (sole : Sole timerId handler t) {op : TimerUserOp C n}
    (concerns : op.Concerns timerId) :
    Sole timerId handler (t.opSchedule threadModeUserId op).2 ∧
      ((t.opSchedule threadModeUserId op).1 = nrfSuccess →
        (t.opSchedule threadModeUserId op).2.waiting = t.waiting ++ [op]) := by
  -- A refused operation changes nothing, and a queued one joins only the queue of thread mode.
  rcases t.opSchedule_spec threadModeUserId op with refused | ⟨queue, contents, queued⟩
  · rw [refused]
    exact ⟨sole, fun success => absurd success (by decide : nrfErrorNoMem ≠ nrfSuccess)⟩
  · have waiting : (t.opSchedule threadModeUserId op).2.waiting = t.waiting ++ [op] := by
      rw [queued]
      simp [AppTimer.waiting, contents]
    refine ⟨⟨?_, fun userId other => ?_, fun other member => ?_⟩, fun _ => waiting⟩
    · rw [queued]
      exact ⟨sole.alone.listed, sole.alone.once, sole.alone.mode, sole.alone.handler⟩
    · rw [queued]
      simpa [Function.update_of_ne other] using sole.queued.thread userId other
    · have member : other ∈ t.waiting ++ [op] := waiting ▸ member
      rcases List.mem_append.mp member with before | new
      · exact sole.queued.ops other before
      · rw [List.mem_singleton.mp new]
        exact concerns

/-- Starting the timer arms it, unless the start is refused. -/
theorem Sole.appTimerStart (sole : Sole timerId handler t) (counter ticks : UInt32) (context : C) :
    let result := t.appTimerStart threadModeUserId counter timerId ticks context
    Sole timerId handler result.2 ∧ (result.1 = nrfSuccess → Armed timerId result.2) := by
  simp only
  rcases t.appTimerStart_spec threadModeUserId counter timerId ticks context with
    ⟨errCode, failed, refused⟩ | ⟨inside, periodic, single, queued⟩
  · rw [refused]
    exact ⟨sole, fun success => absurd success failed⟩
  · rw [queued]
    -- The timer is a single shot, so it is started without a period.
    have concerns : (TimerUserOp.start ⟨timerId, inside⟩ counter ticks periodic context).Concerns
        timerId := ⟨rfl, single sole.alone.mode⟩
    obtain ⟨kept, waiting⟩ := sole.opSchedule concerns
    refine ⟨kept, fun success => .inr ?_⟩
    exact ⟨t.waiting, [], _, _, _, _, waiting success, fun op member => by simp at member⟩

/-- Stopping the timer queues a stop behind all other operations, unless the stop is refused. -/
theorem Sole.appTimerStop (sole : Sole timerId handler t) :
    let result := t.appTimerStop threadModeUserId timerId
    Sole timerId handler result.2 ∧
      (result.1 = nrfSuccess → result.2.waiting = t.waiting ++ [.stop timerId]) := by
  simp only
  rcases t.appTimerStop_spec threadModeUserId timerId with
    ⟨errCode, failed, refused⟩ | ⟨inside, queued⟩
  · rw [refused]
    exact ⟨sole, fun success => absurd success failed⟩
  · rw [queued]
    have concerns : (TimerUserOp.stop ⟨timerId, inside⟩ : TimerUserOp C n).Concerns timerId := rfl
    exact sole.opSchedule concerns

/-! ### The list handler is pending while operations wait -/

/-- Every operation that waits has made the list handler pending. -/
def Scheduled (t : AppTimer H C n cap) : Prop := t.rtc.swi0Pending = false → t.waiting = []

/-- Queueing an operation makes the list handler pending. -/
theorem Scheduled.opSchedule (scheduled : Scheduled t) (userId : TimerUserId)
    (op : TimerUserOp C n) : Scheduled (t.opSchedule userId op).2 := by
  rcases t.opSchedule_spec userId op with refused | ⟨queue, -, queued⟩
  · rw [refused]
    exact scheduled
  · rw [queued]
    intro idle
    cases idle

/-- A start that is queued makes the list handler pending. -/
theorem Scheduled.appTimerStart (scheduled : Scheduled t) (userId : TimerUserId)
    (counter : UInt32) (started : Nat) (ticks : UInt32) (context : C) :
    Scheduled (t.appTimerStart userId counter started ticks context).2 := by
  -- A start that is not refused is a queued operation.
  rcases t.appTimerStart_spec userId counter started ticks context with
    ⟨errCode, -, refused⟩ | ⟨inside, periodic, -, queued⟩
  · rw [refused]
    exact scheduled
  · rw [queued]
    exact scheduled.opSchedule userId _

/-- So does a stop. -/
theorem Scheduled.appTimerStop (scheduled : Scheduled t) (userId : TimerUserId)
    (stopped : Nat) : Scheduled (t.appTimerStop userId stopped).2 := by
  -- A stop that is not refused is a queued operation.
  rcases t.appTimerStop_spec userId stopped with ⟨errCode, -, refused⟩ | ⟨inside, queued⟩
  · rw [refused]
    exact scheduled
  · rw [queued]
    exact scheduled.opSchedule userId _

/-- The RTC1 interrupt touches neither the timers nor the operations. -/
theorem timerTimeoutsCheck_frame (t : AppTimer H C n cap) (counter : UInt32) :
    let t' := (t.timerTimeoutsCheck counter).2
    t'.nodes = t.nodes ∧ t'.users = t.users ∧
      (t'.rtc.swi0Pending = false → t.rtc.swi0Pending = false) := by
  -- It hands elapsed ticks over at most, and then the list handler is pending.
  simp only [AppTimer.timerTimeoutsCheck]
  split
  · exact ⟨rfl, rfl, id⟩
  · exact ⟨rfl, rfl, fun idle => by cases idle⟩

end

end BleHub
