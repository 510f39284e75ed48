import BleHub.Firmware.PreemptedTimer
import BleHub.Proofs.RunningTimers
import BleHub.Proofs.SoleTimer
import Mathlib.Data.List.Basic
import Mathlib.Data.List.Induction
import Mathlib.Tactic.Common

/-!
The list handler under preemption agrees with a handler that runs on a fixed list of operations.

A start takes effect whenever it comes, but a stop between the two scans of the queue is lost.
-/

namespace BleHub

variable {H C : Type} {n cap : Nat}

/-! ### What interrupts of high priority share with the handler -/

namespace AppTimer

/-- The static variables with another queue of the high priority, and another pending bit. -/
def withQueue (t : AppTimer H C n cap) (queue : RingBuffer (TimerUserOp C n) cap)
    (swi0Pending : Bool) : AppTimer H C n cap :=
  { t with
    users := Function.update t.users appHighUserId queue
    rtc := { t.rtc with swi0Pending := swi0Pending } }

variable (t : AppTimer H C n cap) (queue : RingBuffer (TimerUserOp C n) cap) (pending : Bool)

@[simp] theorem withQueue_withQueue (queue' : RingBuffer (TimerUserOp C n) cap)
    (pending' : Bool) : (t.withQueue queue pending).withQueue queue' pending' =
      t.withQueue queue' pending' := by
  simp [withQueue]

@[simp] theorem withQueue_self : t.withQueue (t.users appHighUserId) t.rtc.swi0Pending = t := by
  simp [withQueue]

@[simp] theorem withQueue_users_self : (t.withQueue queue pending).users appHighUserId = queue := by
  simp [withQueue]

@[simp] theorem withQueue_running : (t.withQueue queue pending).running = t.running := rfl

/-- The queues of the lower priorities stay as they are. -/
theorem withQueue_users_of_ne {userId : TimerUserId} (low : userId ≠ appHighUserId) :
    (t.withQueue queue pending).users userId = t.users userId :=
  Function.update_of_ne low _ _

/-- A deletion takes no notice of the queue of the high priority. -/
theorem deleteOp_withQueue (op : TimerUserOp C n) :
    (t.withQueue queue pending).deleteOp op = (t.deleteOp op).withQueue queue pending := by
  -- A deletion works on the nodes and the list alone.
  cases op with
  | start timerId ticksAtStart ticksFirstInterval ticksPeriodicInterval context => rfl
  | stop timerId =>
    by_cases running : (t.nodes timerId).isRunning = true
    · have still : ((t.withQueue queue pending).nodes timerId).isRunning = true := running
      rw [deleteOp, deleteOp, if_pos still, if_pos running]
      rfl
    · have still : ¬((t.withQueue queue pending).nodes timerId).isRunning = true := running
      rw [deleteOp, deleteOp, if_neg still, if_neg running]
  | stopAll => rfl

/-- Neither do several deletions. -/
theorem deleteOps_withQueue (ops : List (TimerUserOp C n)) :
    ops.foldl deleteOp (t.withQueue queue pending) =
      (ops.foldl deleteOp t).withQueue queue pending :=
  List.foldl_hom (fun t : AppTimer H C n cap => t.withQueue queue pending)
    (fun t op => t.deleteOp_withQueue queue pending op)

/-- Inserting a timer into the list takes no notice of that queue, either. -/
theorem insertTimer_withQueue (timerId : Fin n) :
    (t.withQueue queue pending).insertTimer timerId =
      (t.insertTimer timerId).withQueue queue pending := rfl

/-- Nor does inserting several timers. -/
theorem insertTimers_withQueue (timers : List (Fin n)) :
    timers.foldl insertTimer (t.withQueue queue pending) =
      (timers.foldl insertTimer t).withQueue queue pending :=
  List.foldl_hom (fun t : AppTimer H C n cap => t.withQueue queue pending)
    (fun t timerId => t.insertTimer_withQueue queue pending timerId)

/-- An insertion takes no notice of the queue of the high priority. -/
theorem insertOp_withQueue (op : TimerUserOp C n) :
    (t.withQueue queue pending).insertOp op = (t.insertOp op).withQueue queue pending := by
  -- An insertion also works on the nodes and the list alone.
  cases op with
  | start timerId ticksAtStart ticksFirstInterval ticksPeriodicInterval context =>
    by_cases running : (t.nodes timerId).isRunning = true
    · have still : ((t.withQueue queue pending).nodes timerId).isRunning = true := running
      rw [insertOp, insertOp, if_pos still, if_pos running]
    · have still : ¬((t.withQueue queue pending).nodes timerId).isRunning = true := running
      rw [insertOp, insertOp, if_neg still, if_neg running]
      rfl
  | stop timerId => rfl
  | stopAll => rfl

/-- Neither do several insertions. -/
theorem insertOps_withQueue (ops : List (TimerUserOp C n)) :
    ops.foldl insertOp (t.withQueue queue pending) =
      (ops.foldl insertOp t).withQueue queue pending :=
  List.foldl_hom (fun t : AppTimer H C n cap => t.withQueue queue pending)
    (fun t op => t.insertOp_withQueue queue pending op)

/-- A user of low priority has its operations in a queue of its own. -/
theorem insertOpsOf_withQueue {userId : TimerUserId} (low : userId ≠ appHighUserId) :
    (t.withQueue queue pending).insertOpsOf userId =
      (t.insertOpsOf userId).withQueue queue pending := by
  -- The queues of the two users lie apart.
  simp only [insertOpsOf, withQueue_users_of_ne t queue pending low, insertOps_withQueue]
  simp only [withQueue, Function.update_comm low]

/-- The insertions of both users of low priority take no notice of the high one. -/
theorem insertLow_withQueue :
    lowUsersInTurn.foldl insertOpsOf (t.withQueue queue pending) =
      (lowUsersInTurn.foldl insertOpsOf t).withQueue queue pending := by
  -- The two users of low priority own the first two queues, and the third is the one replaced.
  have first : threadModeUserId ≠ appHighUserId := by decide
  have second : appLowUserId ≠ appHighUserId := by decide
  simp only [lowUsersInTurn, List.foldl_cons, List.foldl_nil]
  rw [insertOpsOf_withQueue _ _ _ first, insertOpsOf_withQueue _ _ _ second]

/-- Timers expire whatever is in the queue of the high priority. -/
theorem expireTimers_withQueue (ticksPrevious : UInt32) (acquired : Option UInt32) :
    (t.withQueue queue pending).expireTimers ticksPrevious acquired =
      ((t.expireTimers ticksPrevious acquired).1.withQueue queue pending,
        (t.expireTimers ticksPrevious acquired).2) := by
  -- An expiry works on the nodes, the list and the ticks alone.
  cases acquired <;> rfl

/-- The compare register is set whatever is in that queue. -/
theorem compareRegUpdate_withQueue (wasIdle : Bool) (preCounter postCounter : UInt32) :
    (t.withQueue queue pending).compareRegUpdate wasIdle preCounter postCounter =
      (t.compareRegUpdate wasIdle preCounter postCounter).withQueue queue pending := by
  -- The compare register takes no notice of the other pending interrupt.
  unfold compareRegUpdate
  rw [withQueue_running]
  cases t.running with
  | nil => rfl
  | cons head rest =>
    cases wasIdle <;> rfl

/-- The queue of the high priority comes last in the deletions. -/
theorem listDeletionsHandler_eq :
    t.listDeletionsHandler = (lowUsersInTurn.foldl deleteOpsOf t).deleteOpsOf appHighUserId := by
  simp only [listDeletionsHandler, usersInTurn, lowUsersInTurn, threadModeUserId,
    appLowUserId, appHighUserId, List.foldl_cons, List.foldl_nil]

/-- It also comes last in the insertions. -/
theorem listInsertionsHandler_eq (restart : List (Fin n)) :
    t.listInsertionsHandler restart = (lowUsersInTurn.foldl insertOpsOf
      (restart.foldl insertTimer t)).insertOpsOf appHighUserId := by
  simp only [listInsertionsHandler, usersInTurn, lowUsersInTurn, threadModeUserId,
    appLowUserId, appHighUserId, List.foldl_cons, List.foldl_nil]

/-- Several insertions change the list and its nodes alone. -/
theorem insertOps_onlyList (ops : List (TimerUserOp C n)) : OnlyList t (ops.foldl insertOp t) :=
  .foldl insertOp_onlyList ops t

/-- Going through the queue of the high priority carries out its operations, and empties it. -/
theorem insertOpsOf_high : t.insertOpsOf appHighUserId =
    ((t.users appHighUserId).contents.foldl insertOp t).withQueue
      { t.users appHighUserId with first := (t.users appHighUserId).last }
      t.rtc.swi0Pending := by
  -- The insertions themselves leave the queues alone, so its first index is all that moves.
  have same := (insertOps_onlyList (t := t) (t.users appHighUserId).contents).same
  simp only [insertOpsOf, withQueue]
  rw [same.2.2.1]

/-- The deletions of both users of low priority take no notice of the high one. -/
theorem deleteLow_withQueue :
    lowUsersInTurn.foldl deleteOpsOf (t.withQueue queue pending) =
      (lowUsersInTurn.foldl deleteOpsOf t).withQueue queue pending := by
  -- The queues gone through are the first two, and the third is the one replaced.
  have first : threadModeUserId ≠ appHighUserId := by decide
  have second : appLowUserId ≠ appHighUserId := by decide
  have deletes : ∀ (t : AppTimer H C n cap) {userId}, userId ≠ appHighUserId →
      (t.withQueue queue pending).deleteOpsOf userId =
        (t.deleteOpsOf userId).withQueue queue pending := by
    intro t userId low
    rw [deleteOpsOf, deleteOpsOf, withQueue_users_of_ne t queue pending low, deleteOps_withQueue]
  simp only [lowUsersInTurn, List.foldl_cons, List.foldl_nil]
  rw [deletes t first, deletes _ second]

/-- The elapsed ticks are taken whatever is in the queue. -/
theorem elapsedTicksAcquire_withQueue :
    (t.withQueue queue pending).elapsedTicksAcquire =
      (t.elapsedTicksAcquire.1, t.elapsedTicksAcquire.2.withQueue queue pending) := by
  -- The double buffer of elapsed ticks is read and released, whatever the user queues hold.
  by_cases waiting : t.ticksElapsedQReadInd ≠ t.ticksElapsedQWriteInd
  · have still : (t.withQueue queue pending).ticksElapsedQReadInd ≠
        (t.withQueue queue pending).ticksElapsedQWriteInd := waiting
    rw [elapsedTicksAcquire, elapsedTicksAcquire, if_pos still, if_pos waiting]
    rfl
  · have still : ¬(t.withQueue queue pending).ticksElapsedQReadInd ≠
        (t.withQueue queue pending).ticksElapsedQWriteInd := waiting
    rw [elapsedTicksAcquire, elapsedTicksAcquire, if_neg still, if_neg waiting]

/-- A call finds the queue full, or it replaces the queue and leaves an interrupt pending. -/
theorem opSchedule_high (op : TimerUserOp C n) :
    t.opSchedule appHighUserId op = (nrfErrorNoMem, t) ∨
      ∃ queue', (t.users appHighUserId).push op = some queue' ∧
        t.opSchedule appHighUserId op = (nrfSuccess, t.withQueue queue' true) := by
  -- A full queue is the only reason for refusing the operation.
  unfold opSchedule
  cases (t.users appHighUserId).push op with
  | none => exact .inl rfl
  | some queue' => exact .inr ⟨queue', rfl, rfl⟩

variable {t}

/-- What comes out the same with the queue of some state in place has that queue. -/
theorem users_of_eq_withQueue {t' : AppTimer H C n cap}
    (same : t' = t'.withQueue (t.users appHighUserId) t.rtc.swi0Pending) :
    t'.users appHighUserId = t.users appHighUserId ∧
      t'.rtc.swi0Pending = t.rtc.swi0Pending := by
  constructor
  · rw [same, withQueue_users_self]
  · rw [same]
    rfl

end AppTimer

/-! ### The handler on a fixed list of operations -/

/-- The deletions pass over every start. -/
theorem deleteOps_starts (t : AppTimer H C n cap) (ops : List (TimerUserOp C n)) :
    (ops.filter TimerUserOp.isStart).foldl AppTimer.deleteOp t = t := by
  -- The deletions pass over every start.
  induction ops with
  | nil => rfl
  | cons op ops ih =>
    cases op with
    | start timerId ticksAtStart ticksFirstInterval ticksPeriodicInterval context => exact ih
    | stop timerId => exact ih
    | stopAll => exact ih

/-- The insertions pass over everything but the starts. -/
theorem insertOps_starts (t : AppTimer H C n cap) (ops : List (TimerUserOp C n)) :
    (ops.filter TimerUserOp.isStart).foldl AppTimer.insertOp t =
      ops.foldl AppTimer.insertOp t := by
  -- The insertions pass over everything else.
  induction ops generalizing t with
  | nil => rfl
  | cons op ops ih =>
    cases op with
    | start timerId ticksAtStart ticksFirstInterval ticksPeriodicInterval context => exact ih _
    | stop timerId => exact ih t
    | stopAll => exact ih t

/-- Whether an event is a turn of the handler. -/
def ListEvent.isAdvance : ListEvent C n → Bool
  | .advance => true
  | .call _ => false

namespace ListHandling

/-- The handler once it has gone through these operations for the deletions. -/
def deletedFor (t : AppTimer H C n cap) (ops : List (TimerUserOp C n)) : ListHandling H C n cap :=
  { enter t with timer := ops.foldl AppTimer.deleteOp (enter t).timer }

/-- The handler once it has also carried out these operations for the insertions. -/
def insertedFor (t : AppTimer H C n cap) (deletions insertions : List (TimerUserOp C n)) :
    ListHandling H C n cap :=
  let expired := (deletedFor t deletions).expire
  { expired with timer := insertions.foldl AppTimer.insertOp expired.timer }

/-- What the handler does when the queue of the high priority holds these operations throughout. -/
def handledFor (t : AppTimer H C n cap) (preCounter postCounter : UInt32)
    (ops : List (TimerUserOp C n)) : AppTimer H C n cap :=
  ((insertedFor t ops ops).finish preCounter postCounter).timer

/-- Two handlers differ only in what interrupts may change, and in where they are. -/
def SameHandling (s r : ListHandling H C n cap) : Prop :=
  ∃ queue swi0Pending stage queued, s = { r with
    timer := r.timer.withQueue queue swi0Pending
    stage := stage
    queued := queued }

variable {s r : ListHandling H C n cap}

/-- A handler differs from itself in nothing. -/
theorem SameHandling.refl (s : ListHandling H C n cap) : SameHandling s s :=
  ⟨s.timer.users appHighUserId, s.timer.rtc.swi0Pending, s.stage, s.queued, by
    rw [AppTimer.withQueue_self]⟩

/-- What interrupts change makes no difference. -/
theorem SameHandling.change (same : SameHandling s r)
    (queue : RingBuffer (TimerUserOp C n) cap) (swi0Pending : Bool) (stage : ListStage cap)
    (queued : List (TimerUserOp C n)) :
    SameHandling { s with
      timer := s.timer.withQueue queue swi0Pending, stage := stage, queued := queued } r := by
  obtain ⟨_, _, _, _, rfl⟩ := same
  exact ⟨queue, swi0Pending, stage, queued, by rw [AppTimer.withQueue_withQueue]⟩

/-- The same deletion makes no difference. -/
theorem SameHandling.deleteOp (same : SameHandling s r) (op : TimerUserOp C n)
    (stage : ListStage cap) :
    SameHandling { s with timer := s.timer.deleteOp op, stage := stage }
      { r with timer := r.timer.deleteOp op } := by
  obtain ⟨queue, swi0Pending, _, queued, rfl⟩ := same
  exact ⟨queue, swi0Pending, stage, queued, by rw [AppTimer.deleteOp_withQueue]⟩

/-- Neither does the same insertion. -/
theorem SameHandling.insertOp (same : SameHandling s r) (op : TimerUserOp C n)
    (stage : ListStage cap) :
    SameHandling { s with timer := s.timer.insertOp op, stage := stage }
      { r with timer := r.timer.insertOp op } := by
  obtain ⟨queue, swi0Pending, _, queued, rfl⟩ := same
  exact ⟨queue, swi0Pending, stage, queued, by rw [AppTimer.insertOp_withQueue]⟩

/-- The expiries come out the same. -/
theorem SameHandling.expire (same : SameHandling s r) : SameHandling s.expire r.expire := by
  obtain ⟨queue, swi0Pending, _, queued, rfl⟩ := same
  refine ⟨queue, swi0Pending, .inserting, queued, ?_⟩
  -- Neither the expiries nor the insertions of the lower priorities touch the queue.
  simp only [ListHandling.expire, AppTimer.expireTimers_withQueue, AppTimer.withQueue_running,
    AppTimer.insertTimers_withQueue, AppTimer.insertLow_withQueue]

/-- The end of the handler comes out the same. -/
theorem SameHandling.finish (same : SameHandling s r) (preCounter postCounter : UInt32) :
    SameHandling (s.finish preCounter postCounter) (r.finish preCounter postCounter) := by
  obtain ⟨queue, swi0Pending, _, queued, rfl⟩ := same
  refine ⟨queue, swi0Pending, .done, queued, ?_⟩
  -- The heads of the list that decide on the update of the compare register are the same.
  simp only [ListHandling.finish, AppTimer.withQueue_running, AppTimer.compareRegUpdate_withQueue]
  split
  · rfl
  · rfl

/-- Before the high priority come the elapsed ticks and the deletions of the low ones. -/
theorem enter_timer (t : AppTimer H C n cap) :
    (enter t).timer = lowUsersInTurn.foldl AppTimer.deleteOpsOf t.elapsedTicksAcquire.2 := by
  rw [enter]

/-- Until it has come to the queue of the high priority, the handler leaves it as it is. -/
theorem enter_queue (t : AppTimer H C n cap) :
    (enter t).timer.users appHighUserId = t.users appHighUserId ∧
      (enter t).timer.rtc.swi0Pending = t.rtc.swi0Pending := by
  apply AppTimer.users_of_eq_withQueue
  -- With the very queue of the state, nothing is replaced before, so nothing is changed after.
  conv_lhs => rw [enter_timer, ← t.withQueue_self]
  rw [AppTimer.elapsedTicksAcquire_withQueue, AppTimer.deleteLow_withQueue, enter_timer]

/-- The expiries and the insertions of the lower priorities leave it as it is, too. -/
theorem expire_queue (s : ListHandling H C n cap) :
    s.expire.timer.users appHighUserId = s.timer.users appHighUserId ∧
      s.expire.timer.rtc.swi0Pending = s.timer.rtc.swi0Pending := by
  apply AppTimer.users_of_eq_withQueue
  -- Again the very queue of the state is put in its place, and comes out as it is.
  conv_lhs => rw [expire, ← s.timer.withQueue_self]
  simp only [AppTimer.expireTimers_withQueue, AppTimer.insertTimers_withQueue,
    AppTimer.insertLow_withQueue]
  rw [expire]

/-- So does the end of the insertions. -/
theorem finish_queue (s : ListHandling H C n cap) (preCounter postCounter : UInt32) :
    (s.finish preCounter postCounter).timer.users appHighUserId = s.timer.users appHighUserId ∧
      (s.finish preCounter postCounter).timer.rtc.swi0Pending = s.timer.rtc.swi0Pending := by
  apply AppTimer.users_of_eq_withQueue
  -- Whether the compare register is set or not, the queue is not touched.
  conv_lhs => rw [finish, ← s.timer.withQueue_self]
  simp only [AppTimer.withQueue_running, AppTimer.compareRegUpdate_withQueue]
  rw [finish]
  exact (apply_ite (AppTimer.withQueue · _ _) _ _ _).symm

/-- Deletions and expiries leave the queue of the high priority as it is. -/
theorem deletedFor_queue (t : AppTimer H C n cap) (ops : List (TimerUserOp C n)) :
    (deletedFor t ops).expire.timer.users appHighUserId = t.users appHighUserId ∧
      (deletedFor t ops).expire.timer.rtc.swi0Pending = t.rtc.swi0Pending := by
  -- Deletions change the list and its nodes alone.
  have same := (AppTimer.OnlyList.foldl AppTimer.deleteOp_onlyList ops (enter t).timer).same
  have expired := expire_queue (deletedFor t ops)
  constructor
  · rw [expired.1, deletedFor, same.1, (enter_queue t).1]
  · rw [expired.2, deletedFor, same.2.2.1, (enter_queue t).2]

/-- Undisturbed, the handler carries out what the queue of the high priority held at its entry. -/
theorem timerListHandler_eq_handledFor (t : AppTimer H C n cap) (preCounter postCounter : UInt32) :
    t.timerListHandler preCounter postCounter =
      (handledFor t preCounter postCounter (t.users appHighUserId).contents).withQueue
        { t.users appHighUserId with first := (t.users appHighUserId).last }
        t.rtc.swi0Pending := by
  -- The handler is followed through its loops, each of which has a stage of its own.
  generalize ops : (t.users appHighUserId).contents = high at *
  have deleted : t.elapsedTicksAcquire.2.listDeletionsHandler = (deletedFor t high).timer := by
    -- The queue of the high priority comes last.
    rw [AppTimer.listDeletionsHandler_eq, ← enter_timer, AppTimer.deleteOpsOf, (enter_queue t).1,
      ops]
    rfl
  -- The insertions follow the expiries, and empty the queue in the end.
  have inserted : ((deletedFor t high).timer.expireTimers t.ticksLatest
      t.elapsedTicksAcquire.1).1.listInsertionsHandler ((deletedFor t high).timer.expireTimers
        t.ticksLatest t.elapsedTicksAcquire.1).2 = (insertedFor t high high).timer.withQueue
        { t.users appHighUserId with first := (t.users appHighUserId).last }
        t.rtc.swi0Pending := by
    have lists : lowUsersInTurn.foldl AppTimer.insertOpsOf
        (((deletedFor t high).timer.expireTimers t.ticksLatest t.elapsedTicksAcquire.1).2.foldl
          AppTimer.insertTimer ((deletedFor t high).timer.expireTimers t.ticksLatest
            t.elapsedTicksAcquire.1).1) = (deletedFor t high).expire.timer := by
      simp only [ListHandling.expire, deletedFor, enter]
    rw [AppTimer.listInsertionsHandler_eq, AppTimer.insertOpsOf_high, lists,
      (deletedFor_queue t high).1, (deletedFor_queue t high).2, ops, insertedFor]
  have wasIdle : t.running.isEmpty = t.running.head?.isNone := by
    cases t.running <;> rfl
  -- The values that the handler keeps for its end were taken at its entry.
  have headOld : (insertedFor t high high).timerIdHeadOld = t.running.head? := by
    rw [insertedFor, ListHandling.expire, deletedFor, enter]
  have update : (insertedFor t high high).compareUpdate = (t.elapsedTicksAcquire.1.isSome ||
      (deletedFor t high).timer.running.head? != t.running.head?) := by
    simp only [insertedFor, ListHandling.expire, deletedFor, enter]
  have insertionsHeadOld : (insertedFor t high high).insertionsHeadOld =
      ((deletedFor t high).timer.expireTimers t.ticksLatest
        t.elapsedTicksAcquire.1).1.running.head? := by
    simp only [insertedFor, ListHandling.expire, deletedFor, enter]
  -- Both compare the heads of the list at the same places.
  simp only [AppTimer.timerListHandler, deleted, inserted, wasIdle, AppTimer.withQueue_running,
    AppTimer.compareRegUpdate_withQueue]
  rw [handledFor, ListHandling.finish, headOld, update, insertionsHeadOld]
  exact (apply_ite (AppTimer.withQueue · _ _) _ _ _).symm

/-! ### How far the handler has got -/

section Progress

variable (preCounter postCounter : UInt32) (t : AppTimer H C n cap)

/-- The last event of a run is a step behind the others. -/
theorem run_append (events : List (ListEvent C n)) (event : ListEvent C n) :
    run preCounter postCounter t (events ++ [event]) =
      (run preCounter postCounter t events).step preCounter postCounter event := by
  -- The newest event is the last step.
  rw [run, List.foldl_append]
  rfl

/-- After these events, the handler finds no more operation for the deletions. -/
def ScanEnds (scanned : List (ListEvent C n)) : Prop :=
  (run preCounter postCounter t scanned).stage =
    .deleting ((run preCounter postCounter t scanned).timer.users appHighUserId).last

/-- The operations in the queue at the entry, and those that these events have added. -/
def opsUpTo (events : List (ListEvent C n)) : List (TimerUserOp C n) :=
  (t.users appHighUserId).contents ++ (run preCounter postCounter t events).queued

/-- How far the handler has got with the operations, after some events. -/
inductive Progress (events : List (ListEvent C n)) (s : ListHandling H C n cap) : Prop where
  /-- It has gone through some of them for the deletions, and still has all of them. -/
  | deleting (slot : Fin (cap + 1)) (seen : List (TimerUserOp C n))
      (stage : s.stage = .deleting slot)
      (same : SameHandling s (deletedFor t seen))
      (queue : (s.timer.users appHighUserId).contents =
        (t.users appHighUserId).contents ++ s.queued)
      (reading : (s.timer.users appHighUserId).contents =
        seen ++ ((s.timer.users appHighUserId).readFrom slot).contents)
  /-- It has taken some of them for the insertions. -/
  | inserting (scanned rest : List (ListEvent C n)) (taken : List (TimerUserOp C n))
      (stage : s.stage = .inserting)
      (split : events = scanned ++ .advance :: rest)
      (ends : ScanEnds preCounter postCounter t scanned)
      (earlier : (run preCounter postCounter t scanned).queued <+: s.queued)
      (same : SameHandling s
        (insertedFor t (opsUpTo preCounter postCounter t scanned) taken))
      (queue : (t.users appHighUserId).contents ++ s.queued =
        taken ++ (s.timer.users appHighUserId).contents)
  /-- It has taken one more, which it has not carried out yet. -/
  | insertingOp (slot : Fin (cap + 1)) (scanned rest : List (ListEvent C n))
      (taken : List (TimerUserOp C n))
      (stage : s.stage = .insertingOp slot)
      (split : events = scanned ++ .advance :: rest)
      (ends : ScanEnds preCounter postCounter t scanned)
      (earlier : (run preCounter postCounter t scanned).queued <+: s.queued)
      (same : SameHandling s
        (insertedFor t (opsUpTo preCounter postCounter t scanned) taken))
      (first : RingBuffer.nextSlot slot = (s.timer.users appHighUserId).first)
      (queue : (t.users appHighUserId).contents ++ s.queued =
        taken ++ (s.timer.users appHighUserId).buf slot :: (s.timer.users appHighUserId).contents)
  /-- It has carried out all that it found, and has left the others. -/
  | done (scanned rest : List (ListEvent C n)) (window : List (TimerUserOp C n))
      (stage : s.stage = .done)
      (split : events = scanned ++ .advance :: rest)
      (ends : ScanEnds preCounter postCounter t scanned)
      (same : SameHandling s ((insertedFor t (opsUpTo preCounter postCounter t scanned)
        (opsUpTo preCounter postCounter t scanned ++ window)).finish preCounter postCounter))
      (queue : s.queued = (run preCounter postCounter t scanned).queued ++ window ++
        (s.timer.users appHighUserId).contents)

variable {preCounter postCounter} {t} {events : List (ListEvent C n)}

/-- An event that leaves the handler as it is leaves it where it is. -/
theorem Progress.idle (progress : Progress preCounter postCounter t events s)
    (event : ListEvent C n) : Progress preCounter postCounter t (events ++ [event]) s := by
  -- Only the list of events has grown, behind the turn that ended the scan.
  cases progress with
  | deleting slot seen stage same queue reading =>
    exact .deleting slot seen stage same queue reading
  | inserting scanned rest taken stage split ends earlier same queue =>
    exact .inserting scanned (rest ++ [event]) taken stage (by simp [split]) ends earlier same queue
  | insertingOp slot scanned rest taken stage split ends earlier same first queue =>
    exact .insertingOp slot scanned (rest ++ [event]) taken stage (by simp [split]) ends earlier
      same first queue
  | done scanned rest window stage split ends same queue =>
    exact .done scanned (rest ++ [event]) window stage (by simp [split]) ends same queue

/-- An operation that is queued comes behind all others, wherever the handler is. -/
theorem Progress.call (progress : Progress preCounter postCounter t events s)
    {op : TimerUserOp C n} {queue' : RingBuffer (TimerUserOp C n) cap}
    (pushed : (s.timer.users appHighUserId).push op = some queue') :
    Progress preCounter postCounter t (events ++ [.call op]) { s with
      timer := s.timer.withQueue queue' true
      queued := s.queued ++ [op] } := by
  -- The reader of the deletions and the first index stay where they are.
  have contents := RingBuffer.push_contents pushed
  -- The new queue is the old one with the operation at its end.
  have now : (s.timer.withQueue queue' true).users appHighUserId = queue' :=
    s.timer.withQueue_users_self queue' true
  cases progress with
  | deleting slot seen stage same queue reading =>
    refine .deleting slot seen stage (same.change queue' true _ _) ?_ ?_
    · -- What is seen and what is queued grow by the same operation.
      show ((s.timer.withQueue queue' true).users appHighUserId).contents = _
      rw [now, contents, queue, List.append_assoc]
    · -- The reader is still on its way to the operation.
      show ((s.timer.withQueue queue' true).users appHighUserId).contents = seen ++
        (((s.timer.withQueue queue' true).users appHighUserId).readFrom slot).contents
      rw [now, contents, RingBuffer.push_readFrom pushed reading, ← List.append_assoc,
        ← reading]
  | inserting scanned rest taken stage split ends earlier same queue =>
    -- The operation will be taken, but it has been missed by the deletions.
    refine .inserting scanned (rest ++ [.call op]) taken stage (by simp [split]) ends
      (earlier.trans (List.prefix_append _ _)) (same.change queue' true _ _) ?_
    show _ ++ (s.queued ++ [op]) =
      taken ++ ((s.timer.withQueue queue' true).users appHighUserId).contents
    rw [now, contents, ← List.append_assoc, queue, List.append_assoc]
  | insertingOp slot scanned rest taken stage split ends earlier same first queue =>
    refine .insertingOp slot scanned (rest ++ [.call op]) taken stage (by simp [split]) ends
      (earlier.trans (List.prefix_append _ _)) (same.change queue' true _ _) ?_ ?_
    · -- The first index does not move, so it is still right behind the slot that was taken.
      show RingBuffer.nextSlot slot = ((s.timer.withQueue queue' true).users appHighUserId).first
      rw [now, RingBuffer.push_first pushed, first]
    · -- The operation that has been taken stays in the slot that is kept unused.
      show _ ++ (s.queued ++ [op]) =
        taken ++ ((s.timer.withQueue queue' true).users appHighUserId).buf slot ::
          ((s.timer.withQueue queue' true).users appHighUserId).contents
      rw [now, contents, RingBuffer.push_taken pushed first, ← List.append_assoc, queue,
        List.append_assoc, List.cons_append]
  | done scanned rest window stage split ends same queue =>
    -- The handler has left the loop, so the operation waits for its next run.
    refine .done scanned (rest ++ [.call op]) window stage (by simp [split]) ends
      (same.change queue' true _ _) ?_
    show s.queued ++ [op] = _ ++ ((s.timer.withQueue queue' true).users appHighUserId).contents
    rw [now, contents, queue, List.append_assoc]

/-- A call finds the queue full, or adds to it and makes the handler pending. -/
theorem step_call (s : ListHandling H C n cap) (op : TimerUserOp C n) :
    s.step preCounter postCounter (.call op) = s ∨
      ∃ queue', (s.timer.users appHighUserId).push op = some queue' ∧
        s.step preCounter postCounter (.call op) = { s with
          timer := s.timer.withQueue queue' true
          queued := s.queued ++ [op] } := by
  -- The call reports a full queue, or it succeeds; only then is it recorded.
  rcases s.timer.opSchedule_high op with full | ⟨queue', pushed, scheduled⟩
  · left
    simp only [step, full]
    exact if_neg (by decide)
  · right
    refine ⟨queue', pushed, ?_⟩
    simp only [step, scheduled, if_true]

/-! What a turn does in each of the stages. -/

/-- In front of the last slot, the operation in the slot is carried out if it is a stop. -/
theorem advance_scan {slot : Fin (cap + 1)} (stage : s.stage = .deleting slot)
    (more : slot ≠ (s.timer.users appHighUserId).last) :
    s.advance preCounter postCounter = { s with
      timer := s.timer.deleteOp ((s.timer.users appHighUserId).buf slot)
      stage := .deleting (RingBuffer.nextSlot slot) } := by
  simp only [ListHandling.advance, stage, if_pos more]

/-- At the last slot, the deletions are over and the timers expire. -/
theorem advance_expire {slot : Fin (cap + 1)} (stage : s.stage = .deleting slot)
    (atLast : slot = (s.timer.users appHighUserId).last) :
    s.advance preCounter postCounter = s.expire := by
  simp only [ListHandling.advance, stage, if_neg (not_not.mpr atLast)]

/-- An operation in the queue is taken out of it before it is looked at. -/
theorem advance_take (stage : s.stage = .inserting)
    (more : (s.timer.users appHighUserId).first ≠ (s.timer.users appHighUserId).last) :
    s.advance preCounter postCounter = { s with
      timer := s.timer.withQueue { s.timer.users appHighUserId with
        first := RingBuffer.nextSlot (s.timer.users appHighUserId).first } s.timer.rtc.swi0Pending
      stage := .insertingOp (s.timer.users appHighUserId).first } := by
  simp only [ListHandling.advance, stage, if_pos more]
  rfl

/-- With the queue empty, the handler comes to its end. -/
theorem advance_finish (stage : s.stage = .inserting)
    (empty : (s.timer.users appHighUserId).first = (s.timer.users appHighUserId).last) :
    s.advance preCounter postCounter = s.finish preCounter postCounter := by
  simp only [ListHandling.advance, stage, if_neg (not_not.mpr empty)]

/-- An operation that was taken out is carried out if it is a start. -/
theorem advance_insert {slot : Fin (cap + 1)} (stage : s.stage = .insertingOp slot) :
    s.advance preCounter postCounter = { s with
      timer := s.timer.insertOp ((s.timer.users appHighUserId).buf slot)
      stage := .inserting } := by
  simp only [ListHandling.advance, stage]

/-- Behind its end the handler does nothing. -/
theorem advance_done (stage : s.stage = .done) : s.advance preCounter postCounter = s := by
  simp only [ListHandling.advance, stage]

/-- A turn takes the handler further in the queue, or on to its next stage. -/
theorem Progress.advance (progress : Progress preCounter postCounter t events s)
    (here : s = run preCounter postCounter t events) :
    Progress preCounter postCounter t (events ++ [.advance])
      (s.advance preCounter postCounter) := by
  -- One case for each stage, and in the loops one for whether anything is left.
  cases progress with
  | deleting slot seen stage same queue reading =>
    by_cases atLast : slot = (s.timer.users appHighUserId).last
    · -- All that is in the queue has been seen.
      have seenAll : opsUpTo preCounter postCounter t events = seen := by
        rw [opsUpTo, ← here, ← queue, reading, atLast, RingBuffer.contents_readFrom_last,
          List.append_nil]
      rw [advance_expire stage atLast]
      refine .inserting events [] [] rfl rfl ?_ ?_ ?_ ?_
      · -- The scan ends here, at the last slot of the queue.
        rw [ScanEnds, ← here, stage, atLast]
      · -- Nothing has been queued since then.
        exact ⟨[], by rw [← here, expire, List.append_nil]⟩
      · rw [seenAll, insertedFor, List.foldl_nil]
        exact same.expire
      · -- The insertions begin with the queue that the deletions went through.
        rw [(expire_queue s).1, queue, List.nil_append, expire]
    · -- An operation is looked at by the deletions, and stays in the queue.
      have users := (AppTimer.deleteOp_onlyList s.timer
        ((s.timer.users appHighUserId).buf slot)).same.1
      rw [advance_scan stage atLast]
      refine .deleting (RingBuffer.nextSlot slot)
        (seen ++ [(s.timer.users appHighUserId).buf slot]) rfl ?_ ?_ ?_
      · -- The operation is the last one that has been deleted for.
        have deleted := same.deleteOp ((s.timer.users appHighUserId).buf slot)
          (.deleting (RingBuffer.nextSlot slot))
        simpa only [deletedFor, List.foldl_append, List.foldl_cons, List.foldl_nil] using deleted
      · simp only [users, queue]
      · -- What is left to be seen is shorter by the operation in front.
        simp only [users, List.append_assoc, List.cons_append, List.nil_append]
        rw [← RingBuffer.contents_readFrom _ atLast, ← reading]
  | inserting scanned rest taken stage split ends earlier same queue =>
    by_cases empty : (s.timer.users appHighUserId).first = (s.timer.users appHighUserId).last
    · -- All that has been queued is taken, and what came behind the scan is the window.
      obtain ⟨window, later⟩ := earlier
      have nothing := RingBuffer.contents_of_first_eq_last empty
      have takenAll : taken = opsUpTo preCounter postCounter t scanned ++ window := by
        rw [nothing, List.append_nil, ← later, ← List.append_assoc] at queue
        exact queue.symm
      rw [advance_finish stage empty]
      refine .done scanned (rest ++ [.advance]) window rfl (by simp [split]) ends ?_ ?_
      · -- The end sets the compare register as it would for the fixed list.
        rw [← takenAll]
        exact same.finish preCounter postCounter
      · -- The queue is empty, so nothing is taken after the window.
        rw [(finish_queue s preCounter postCounter).1, nothing, List.append_nil, later, finish]
    · -- The first index moves on before the operation is carried out, as in the source.
      rw [advance_take stage empty]
      refine .insertingOp (s.timer.users appHighUserId).first scanned (rest ++ [.advance]) taken rfl
        (by simp [split]) ends earlier (same.change _ _ _ _) ?_ ?_
      · simp only [AppTimer.withQueue_users_self]
      · -- What is left behind the first index has the entry there in front.
        rw [queue]
        simp only [AppTimer.withQueue_users_self]
        exact congrArg (taken ++ ·) (RingBuffer.contents_readFrom _ empty)
  | insertingOp slot scanned rest taken stage split ends earlier same first queue =>
    -- The operation that has been taken is carried out.
    have users := (AppTimer.insertOp_onlyList s.timer
      ((s.timer.users appHighUserId).buf slot)).same.1
    rw [advance_insert stage]
    refine .inserting scanned (rest ++ [.advance])
      (taken ++ [(s.timer.users appHighUserId).buf slot]) rfl (by simp [split]) ends earlier ?_ ?_
    · -- It is the last one that has been inserted for.
      have inserted := same.insertOp ((s.timer.users appHighUserId).buf slot) .inserting
      simpa only [insertedFor, List.foldl_append, List.foldl_cons, List.foldl_nil] using inserted
    · simp only [users, queue, List.append_assoc, List.cons_append, List.nil_append]
  | done scanned rest window stage split ends same queue =>
    -- A handler that is done stays as it is, so what has been known is still so.
    rw [advance_done stage]
    exact Progress.idle (.done scanned rest window stage split ends same queue) .advance

/-- At its entry the handler has seen nothing, and the queue is as it was. -/
theorem progress_enter : Progress preCounter postCounter t [] (enter t) := by
  have queue := (enter_queue t).1
  have nothing : deletedFor t [] = enter t := by
    rw [deletedFor, List.foldl_nil]
  -- The deletions stand at the first slot, with nothing behind them.
  refine .deleting (t.users appHighUserId).first [] ?_ ?_ ?_ ?_
  · rw [enter]
  · rw [nothing]
    exact .refl _
  · rw [queue, enter, List.append_nil]
  · rw [queue, RingBuffer.readFrom_first, List.nil_append]

/-- Whatever the events are, the handler stands somewhere on its way. -/
theorem progress_run (preCounter postCounter : UInt32) (t : AppTimer H C n cap)
    (events : List (ListEvent C n)) :
    Progress preCounter postCounter t events (run preCounter postCounter t events) := by
  -- One event after the other, from the entry of the handler.
  induction events using List.reverseRecOn with
  | nil => exact progress_enter
  | append_singleton events event ih =>
    rw [run_append]
    cases event with
    | advance => exact ih.advance rfl
    | call op =>
      rcases step_call (run preCounter postCounter t events) op with
        full | ⟨queue', pushed, called⟩
      · rw [full]
        exact ih.idle _
      · rw [called]
        exact ih.call pushed

end Progress

/-! ### What the handler has done when it returns -/

/-- What interrupts may change is all that tells the two apart. -/
theorem SameHandling.timer_eq (same : SameHandling s r) : s.timer =
    r.timer.withQueue (s.timer.users appHighUserId) s.timer.rtc.swi0Pending := by
  obtain ⟨queue, swi0Pending, _, _, rfl⟩ := same
  simp only [AppTimer.withQueue_users_self]
  rfl

/-- More starts at the end make no difference to the deletions. -/
theorem deletedFor_starts (t : AppTimer H C n cap) (ops window : List (TimerUserOp C n)) :
    deletedFor t (ops ++ window.filter TimerUserOp.isStart) = deletedFor t ops := by
  -- The deletions pass over starts, wherever they stand.
  rw [deletedFor, List.foldl_append, deleteOps_starts, deletedFor]

/-- Operations that come after the deletions count for nothing, unless they are starts. -/
theorem insertedFor_window (t : AppTimer H C n cap) (ops window : List (TimerUserOp C n)) :
    insertedFor t (ops ++ window.filter TimerUserOp.isStart)
      (ops ++ window.filter TimerUserOp.isStart) = insertedFor t ops (ops ++ window) := by
  -- The insertions do not see what the filter leaves out, and the deletions not what it keeps.
  rw [insertedFor, deletedFor_starts, List.foldl_append, insertOps_starts, ← List.foldl_append,
    insertedFor]

/-- A turn queues nothing, and leaves the interrupt pending if it was. -/
theorem advance_frame (s : ListHandling H C n cap) (preCounter postCounter : UInt32) :
    (s.advance preCounter postCounter).queued = s.queued ∧
      (s.advance preCounter postCounter).timer.rtc.swi0Pending = s.timer.rtc.swi0Pending := by
  -- Each stage works on the list, and moves indices of the queue at most.
  cases stage : s.stage with
  | deleting slot =>
    by_cases atLast : slot = (s.timer.users appHighUserId).last
    · rw [advance_expire stage atLast]
      exact ⟨by rw [expire], (expire_queue s).2⟩
    · rw [advance_scan stage atLast]
      exact ⟨rfl, by rw [(AppTimer.deleteOp_onlyList s.timer _).same.2.2.1]⟩
  | inserting =>
    by_cases empty : (s.timer.users appHighUserId).first = (s.timer.users appHighUserId).last
    · rw [advance_finish stage empty]
      exact ⟨by rw [finish], (finish_queue s preCounter postCounter).2⟩
    · -- Taking an operation writes the first index and puts the pending bit back as it was.
      rw [advance_take stage empty]
      exact ⟨rfl, rfl⟩
  | insertingOp slot =>
    rw [advance_insert stage]
    exact ⟨rfl, by rw [(AppTimer.insertOp_onlyList s.timer _).same.2.2.1]⟩
  | done =>
    rw [advance_done stage]
    exact ⟨rfl, rfl⟩

/-- Once an operation has been queued meanwhile, the handler is sure to run again. -/
theorem pending_run (preCounter postCounter : UInt32) (t : AppTimer H C n cap)
    (events : List (ListEvent C n)) :
    (run preCounter postCounter t events).queued ≠ [] →
      (run preCounter postCounter t events).timer.rtc.swi0Pending = true := by
  -- Nothing clears the pending bit while the handler runs, and each call sets it.
  induction events using List.reverseRecOn with
  | nil => exact fun some => absurd (by rw [run, List.foldl_nil, enter]) some
  | append_singleton events event ih =>
    rw [run_append]
    cases event with
    | advance =>
      have frame := advance_frame (run preCounter postCounter t events) preCounter postCounter
      rw [step, frame.1, frame.2]
      exact ih
    | call op =>
      -- A refused call leaves everything as it was, and any other one sets the bit.
      rcases step_call (run preCounter postCounter t events) op with
        full | ⟨queue', pushed, called⟩
      · rw [full]
        exact ih
      · rw [called]
        exact fun _ => rfl

/--
When the handler returns, it has done what it does without interrupts in between, except for stops.

The operations queued up to the end of the deletions count as if they had been there at the entry.
Of those queued behind that, and taken, the starts count, and each stop is lost.
Those that are left in the queue wait for the next run, which is pending.
-/
theorem run_done (preCounter postCounter : UInt32) (t : AppTimer H C n cap)
    (events : List (ListEvent C n)) (done : (run preCounter postCounter t events).stage = .done) :
    ∃ scanned rest window late, events = scanned ++ .advance :: rest ∧
      ScanEnds preCounter postCounter t scanned ∧
      (run preCounter postCounter t events).queued =
        (run preCounter postCounter t scanned).queued ++ window ++ late ∧
      ((run preCounter postCounter t events).timer.users appHighUserId).contents = late ∧
      (late ≠ [] → (run preCounter postCounter t events).timer.rtc.swi0Pending = true) ∧
      (run preCounter postCounter t events).timer =
        (handledFor t preCounter postCounter (opsUpTo preCounter postCounter t scanned ++
          window.filter TimerUserOp.isStart)).withQueue
          ((run preCounter postCounter t events).timer.users appHighUserId)
          (run preCounter postCounter t events).timer.rtc.swi0Pending := by
  -- The handler is at its end, so its progress is of the last kind.
  have pending := pending_run preCounter postCounter t events
  cases progress_run preCounter postCounter t events with
  | deleting _ _ stage => exact absurd (stage.symm.trans done) (by simp)
  | inserting _ _ _ stage => exact absurd (stage.symm.trans done) (by simp)
  | insertingOp _ _ _ _ stage => exact absurd (stage.symm.trans done) (by simp)
  | done scanned rest window _ split ends same queue =>
    refine ⟨scanned, rest, window, _, split, ends, queue, rfl, fun left => pending ?_, ?_⟩
    · rw [queue]
      exact fun nothing => left (List.append_eq_nil_iff.mp nothing).2
    · -- A stop in the window makes no difference to either loop, so only the starts are kept.
      rw [handledFor, insertedFor_window]
      exact same.timer_eq

/-- With one timer, the main loop has started it. -/
def startedTimer : AppTimer Unit Unit 1 2 :=
  (AppTimer.opSchedule (.appTimerInit 0 () ()) threadModeUserId (.start (Fin.last 0) 0 100 0 ())).2

/-- An interrupt stops the timer right behind the deletions. -/
def stoppedLate : List (ListEvent Unit 1) :=
  [.advance, .call (.stop (Fin.last 0)), .advance, .advance, .advance, .advance]

/-- The timer keeps running, and its stop is no longer in the queue. -/
theorem run_done_stoppedLate :
    ((run 0 0 startedTimer stoppedLate).timer.nodes (Fin.last 0)).isRunning = true ∧
      ∃ scanned rest window late, stoppedLate = scanned ++ .advance :: rest ∧
        ScanEnds 0 0 startedTimer scanned ∧
        (run 0 0 startedTimer stoppedLate).queued =
          (run 0 0 startedTimer scanned).queued ++ window ++ late ∧
        ((run 0 0 startedTimer stoppedLate).timer.users appHighUserId).contents = late ∧
        (late ≠ [] → (run 0 0 startedTimer stoppedLate).timer.rtc.swi0Pending = true) ∧
        (run 0 0 startedTimer stoppedLate).timer =
          (handledFor startedTimer 0 0 (opsUpTo 0 0 startedTimer scanned ++
            window.filter TimerUserOp.isStart)).withQueue
            ((run 0 0 startedTimer stoppedLate).timer.users appHighUserId)
            (run 0 0 startedTimer stoppedLate).timer.rtc.swi0Pending :=
  ⟨by decide +kernel, run_done 0 0 startedTimer stoppedLate (by decide +kernel)⟩

/-! ### The handler always returns -/

/-- How many turns the handler has still to make, if nothing more is queued. -/
def turnsLeft (s : ListHandling H C n cap) : Nat :=
  let queue := s.timer.users appHighUserId
  match s.stage with
  | .deleting slot => (queue.readFrom slot).contents.length + 2 * queue.contents.length + 2
  | .inserting => 2 * queue.contents.length + 1
  | .insertingOp _ => 2 * queue.contents.length + 2
  | .done => 0

/-- Every turn is one of those that were left. -/
theorem turnsLeft_advance (s : ListHandling H C n cap) (preCounter postCounter : UInt32)
    (under_way : s.stage ≠ .done) :
    (s.advance preCounter postCounter).turnsLeft + 1 = s.turnsLeft := by
  -- The turns left are counted by the stage and by how much of the queue is ahead.
  cases stage : s.stage with
  | deleting slot =>
    by_cases atLast : slot = (s.timer.users appHighUserId).last
    · -- Nothing is left to be looked at, and each operation takes two more turns.
      have expired : s.expire.stage = .inserting := by rw [expire]
      rw [advance_expire stage atLast]
      simp only [turnsLeft, expired, stage, (expire_queue s).1, atLast,
        RingBuffer.contents_readFrom_last, List.length_nil]
      omega
    · -- One operation less is left to be looked at.
      have users := (AppTimer.deleteOp_onlyList s.timer
        ((s.timer.users appHighUserId).buf slot)).same.1
      have seen := congrArg List.length (RingBuffer.contents_readFrom _ atLast)
      rw [List.length_cons] at seen
      rw [advance_scan stage atLast]
      simp only [turnsLeft, stage, users, seen]
      omega
  | inserting =>
    by_cases empty : (s.timer.users appHighUserId).first = (s.timer.users appHighUserId).last
    · -- The queue is empty, and the end is the only turn left.
      have finished : (s.finish preCounter postCounter).stage = .done := by rw [finish]
      rw [advance_finish stage empty]
      simp only [turnsLeft, finished, stage, RingBuffer.contents_of_first_eq_last empty,
        List.length_nil]
    · -- An operation that is taken has one more turn, in which it is carried out.
      have taken : (s.timer.users appHighUserId).contents.length =
          ((s.timer.users appHighUserId).readFrom
            (RingBuffer.nextSlot (s.timer.users appHighUserId).first)).contents.length + 1 :=
        congrArg List.length (RingBuffer.contents_readFrom _ empty)
      rw [advance_take stage empty]
      simp only [turnsLeft, stage, AppTimer.withQueue_users_self, taken]
      show 2 * ((s.timer.users appHighUserId).readFrom
        (RingBuffer.nextSlot (s.timer.users appHighUserId).first)).contents.length + 2 + 1 = _
      omega
  | insertingOp slot =>
    have users := (AppTimer.insertOp_onlyList s.timer
      ((s.timer.users appHighUserId).buf slot)).same.1
    -- Carrying out a start is one turn and does not touch the queue.
    rw [advance_insert stage]
    simp only [turnsLeft, stage, users]
  | done => exact absurd stage under_way

/-- An operation that is queued costs the handler three turns at most. -/
theorem Progress.turnsLeft_call {preCounter postCounter : UInt32} {t : AppTimer H C n cap}
    {events : List (ListEvent C n)} (progress : Progress preCounter postCounter t events s)
    {op : TimerUserOp C n} {queue' : RingBuffer (TimerUserOp C n) cap}
    (pushed : (s.timer.users appHighUserId).push op = some queue') :
    turnsLeft { s with
      timer := s.timer.withQueue queue' true
      queued := s.queued ++ [op] } ≤ s.turnsLeft + 3 := by
  -- At the worst the deletions look at it, and the insertions take it and carry it out.
  have longer := congrArg List.length (RingBuffer.push_contents pushed)
  rw [List.length_append, List.length_singleton] at longer
  cases progress with
  | deleting slot seen stage same queue reading =>
    -- The deletions have one more operation ahead of them.
    have further := congrArg List.length (RingBuffer.push_readFrom pushed reading)
    rw [List.length_append, List.length_singleton] at further
    simp only [turnsLeft, stage, AppTimer.withQueue_users_self, longer, further]
    omega
  | inserting scanned rest taken stage split ends earlier same queue =>
    simp only [turnsLeft, stage, AppTimer.withQueue_users_self, longer]
    omega
  | insertingOp slot scanned rest taken stage split ends earlier same first queue =>
    simp only [turnsLeft, stage, AppTimer.withQueue_users_self, longer]
    omega
  | done scanned rest window stage split ends same queue =>
    -- Behind its end the handler has no turns left anyway.
    simp only [turnsLeft, stage]
    omega

/-- The turns made and those left are no more than three for each operation, and two. -/
theorem turns_bounded (preCounter postCounter : UInt32) (t : AppTimer H C n cap)
    (events : List (ListEvent C n)) :
    (run preCounter postCounter t events).stage = .done ∨
      (run preCounter postCounter t events).turnsLeft + events.countP ListEvent.isAdvance ≤
        3 * (opsUpTo preCounter postCounter t events).length + 2 := by
  induction events using List.reverseRecOn with
  | nil =>
    -- At its entry the handler has the whole queue to look at, and then to take.
    right
    have start : (run preCounter postCounter t []).turnsLeft =
        3 * (t.users appHighUserId).contents.length + 2 := by
      rw [run, List.foldl_nil, turnsLeft, (enter_queue t).1, enter]
      simp only [RingBuffer.readFrom_first]
      omega
    rw [start, opsUpTo, run, List.foldl_nil, enter]
    simp
  | append_singleton events event ih =>
    rw [run_append, opsUpTo, run_append, List.countP_append, List.countP_singleton]
    generalize here : run preCounter postCounter t events = s at *
    rw [opsUpTo, here] at ih
    cases event with
    | advance =>
      have frame := advance_frame s preCounter postCounter
      rw [step, frame.1]
      by_cases returned : s.stage = .done
      · -- A handler that has returned makes no turn that would count.
        left
        rw [advance_done returned, returned]
      · -- The turn made is one less of those left.
        have turn := turnsLeft_advance s preCounter postCounter returned
        have bound := ih.resolve_left returned
        right
        simp only [ListEvent.isAdvance, if_true]
        omega
    | call op =>
      have progress := progress_run preCounter postCounter t events
      rw [here] at progress
      rcases step_call s op with full | ⟨queue', pushed, called⟩
      · -- A refused call adds neither a turn nor an operation.
        rw [full]
        simpa [ListEvent.isAdvance] using ih
      · rw [called]
        rcases ih with returned | bound
        · exact .inl returned
        · -- The three turns are paid for by the operation that is queued.
          have more := progress.turnsLeft_call pushed
          right
          simp only [List.length_append, List.length_singleton] at bound ⊢
          simp only [ListEvent.isAdvance, Bool.false_eq_true, if_false]
          omega

/-- The handler returns after a bounded number of turns, however often it is interrupted. -/
theorem run_returns (preCounter postCounter : UInt32) (t : AppTimer H C n cap)
    (events : List (ListEvent C n))
    (enough : 3 * (opsUpTo preCounter postCounter t events).length + 2 ≤
      events.countP ListEvent.isAdvance) :
    (run preCounter postCounter t events).stage = .done := by
  -- The bound is used up by the turns made.
  rcases turns_bounded preCounter postCounter t events with returned | bound
  · exact returned
  · -- No turn is left, which is only so at the end.
    have none : (run preCounter postCounter t events).turnsLeft = 0 := by omega
    cases stage : (run preCounter postCounter t events).stage with
    | deleting slot => simp [turnsLeft, stage] at none
    | inserting => simp [turnsLeft, stage] at none
    | insertingOp slot => simp [turnsLeft, stage] at none
    | done => rfl

/-- With one operation, five turns are enough. -/
theorem run_returns_stoppedLate :
    (run 0 0 startedTimer stoppedLate).stage = .done := by
  have enough : 3 * (opsUpTo 0 0 startedTimer stoppedLate).length + 2 ≤
      stoppedLate.countP ListEvent.isAdvance := by decide +kernel
  exact run_returns 0 0 startedTimer stoppedLate enough

end ListHandling

end BleHub
