import BleHub.Firmware.AppTimer

/-! Where the contexts of expired timers come from: only from the starts that were queued. -/

namespace BleHub

variable {H C : Type} {n cap : Nat}

/-- The context that an operation hands to its timer. -/
def TimerUserOp.context? : TimerUserOp C n → Option C
  | .start _ _ _ _ context => some context
  | .stop _ => none
  | .stopAll => none

/-- Two arrays of nodes hold the same contexts. -/
def SameContexts (nodes nodes' : TimerNodes H C n) : Prop :=
  ∀ timerId, (nodes' timerId).context = (nodes timerId).context

/-- Two changes that keep the contexts are one. -/
theorem SameContexts.trans {nodes nodes' nodes'' : TimerNodes H C n}
    (first : SameContexts nodes nodes') (second : SameContexts nodes' nodes'') :
    SameContexts nodes nodes'' := fun timerId => (second timerId).trans (first timerId)

/-- Changing a node in other respects keeps every context. -/
theorem sameContexts_modify (nodes : TimerNodes H C n) (timerId : Fin n)
    {f : TimerNode H C → TimerNode H C} (keeps : (f (nodes timerId)).context =
      (nodes timerId).context) : SameContexts nodes (nodes.modify timerId f) := by
  -- Every other node is not touched at all.
  intro other
  by_cases same : other = timerId
  · subst same
    rw [TimerNodes.modify_self]
    exact keeps
  · rw [TimerNodes.modify_of_ne nodes same]

/-- Inserting a timer adds no other timer to the list and keeps every context. -/
theorem timerListInsert_contexts (nodes : TimerNodes H C n) (timerId : Fin n) (ticks : UInt32)
    (running : List (Fin n)) :
    SameContexts nodes (timerListInsert nodes timerId ticks running).1 ∧
      ∀ other ∈ (timerListInsert nodes timerId ticks running).2,
        other = timerId ∨ other ∈ running := by
  -- Looking for the place reads ticks only, and the two nodes that change keep their contexts.
  induction running generalizing ticks with
  | nil =>
    refine ⟨sameContexts_modify nodes timerId rfl, fun other member => ?_⟩
    simpa [timerListInsert] using member
  | cons current rest ih =>
    unfold timerListInsert
    split
    · -- The place is further on.
      obtain ⟨same, members⟩ := ih (ticks - (nodes current).ticksToExpire)
      refine ⟨same, fun other member => ?_⟩
      rcases List.mem_cons.mp member with rfl | later
      · exact .inr (by simp)
      · rcases members other later with new | old
        · exact .inl new
        · exact .inr (by simp [old])
    · -- The place is here, in front of the current timer.
      refine ⟨(sameContexts_modify nodes current rfl).trans (sameContexts_modify _ timerId rfl),
        fun other member => ?_⟩
      simpa using member

/-- Removing a timer keeps every context. -/
theorem timerListRemove_contexts (nodes : TimerNodes H C n) (timerId : Fin n)
    (running : List (Fin n)) :
    SameContexts nodes (timerListRemove nodes timerId running).1 ∧
      ∀ other ∈ (timerListRemove nodes timerId running).2, other ∈ running := by
  -- At most the timer behind the removed one changes, and only in its ticks.
  induction running with
  | nil => exact ⟨fun _ => rfl, fun _ member => member⟩
  | cons current rest ih =>
    unfold timerListRemove
    split
    · split
      · exact ⟨fun _ => rfl, by simp⟩
      · exact ⟨sameContexts_modify nodes _ rfl, fun other member => by simp_all⟩
    · obtain ⟨same, members⟩ := ih
      refine ⟨same, fun other member => ?_⟩
      rcases List.mem_cons.mp member with rfl | later
      · simp
      · simp [members other later]

/-- Expiring timers keeps every context, and leaves or restarts only timers of the list. -/
theorem expiredTimersHandler_contexts (previous elapsed expired : UInt32)
    (nodes : TimerNodes H C n) (restart running : List (Fin n)) :
    let result := AppTimer.expiredTimersHandler previous elapsed expired nodes restart running
    SameContexts nodes result.1 ∧ (∀ other ∈ result.2.1, other ∈ running) ∧
      ∀ other ∈ result.2.2, other ∈ restart ∨ other ∈ running := by
  -- Each expired timer goes to the restart list or nowhere, and its context stays in its node.
  induction running generalizing elapsed expired nodes restart with
  | nil => exact ⟨fun _ => rfl, fun _ member => member, fun _ member => .inl member⟩
  | cons timerId rest ih =>
    simp only [AppTimer.expiredTimersHandler]
    split
    · exact ⟨sameContexts_modify nodes timerId rfl, fun _ member => member,
        fun _ member => .inl member⟩
    · split
      · -- The expired timer is periodic.
        obtain ⟨same, left, restarted⟩ := ih (elapsed - (nodes timerId).ticksToExpire)
          (expired + (nodes timerId).ticksToExpire) (nodes.modify timerId fun _ => _)
          (timerId :: restart)
        refine ⟨(sameContexts_modify nodes timerId rfl).trans same,
          fun other member => by simp [left other member], fun other member => ?_⟩
        rcases restarted other member with before | later
        · rcases List.mem_cons.mp before with rfl | before
          · exact .inr (by simp)
          · exact .inl before
        · exact .inr (by simp [later])
      · -- It is a single shot.
        obtain ⟨same, left, restarted⟩ := ih (elapsed - (nodes timerId).ticksToExpire)
          (expired + (nodes timerId).ticksToExpire) (nodes.modify timerId fun _ => _) restart
        refine ⟨(sameContexts_modify nodes timerId rfl).trans same,
          fun other member => by simp [left other member], fun other member => ?_⟩
        rcases restarted other member with before | later
        · exact .inl before
        · exact .inr (by simp [later])

/-- What expires is a timer of the list, with its own context. -/
theorem timersExpiring_contexts (nodes : TimerNodes H C n) (elapsed expired : UInt32)
    (running : List (Fin n)) :
    ∀ event ∈ (timersExpiring nodes elapsed expired running).1,
      ∃ timerId ∈ running, event.2 = (nodes timerId).context := by
  -- The expiring timers are a first stretch of the list.
  induction running generalizing elapsed expired with
  | nil => simp [timersExpiring]
  | cons timerId rest ih =>
    intro event member
    simp only [timersExpiring] at member
    split at member
    · simp at member
    · rcases List.mem_cons.mp member with rfl | later
      · exact ⟨timerId, by simp, rfl⟩
      · obtain ⟨other, inRest, same⟩ := ih _ _ event later
        exact ⟨other, by simp [inRest], same⟩

/-- Inserting a timer keeps every context. -/
theorem insertTimer_contexts (t : AppTimer H C n cap) (timerId : Fin n) :
    SameContexts t.nodes (t.insertTimer timerId).nodes :=
  (sameContexts_modify t.nodes timerId (f := fun p =>
    { p with ticksAtStart := 0, ticksFirstInterval := 0, isRunning := true }) rfl).trans
      (timerListInsert_contexts _ timerId _ t.running).1

/-- Every context that the module holds for a running or a starting timer has the property. -/
structure Carries (P : C → Prop) (t : AppTimer H C n cap) : Prop where
  running : ∀ timerId ∈ t.running, P (t.nodes timerId).context
  queued : ∀ userId, ∀ op ∈ (t.users userId).contents, ∀ context ∈ op.context?, P context

namespace Carries

variable {P : C → Prop} {t : AppTimer H C n cap}

/-- Deletions add no context. -/
theorem deleteOp (carries : Carries P t) (op : TimerUserOp C n) : Carries P (t.deleteOp op) := by
  -- The list gets shorter, and what waits in the queues stays there.
  cases op with
  | start => exact carries
  | stop timerId =>
    simp only [AppTimer.deleteOp]
    split
    · obtain ⟨same, members⟩ := timerListRemove_contexts t.nodes timerId t.running
      refine ⟨fun other member => ?_, carries.queued⟩
      -- Marking the timer as not running does not touch its context either.
      have kept := same.trans
        (sameContexts_modify (f := fun p => { p with isRunning := false }) _ timerId rfl)
      show P (AppTimer.halt _ timerId other).context
      rw [AppTimer.halt, kept other]
      exact carries.running other (members other member)
    · exact carries
  | stopAll => exact ⟨by simp [AppTimer.deleteOp], carries.queued⟩

/-- Going through the queues for deletions adds no context. -/
theorem listDeletionsHandler (carries : Carries P t) : Carries P t.listDeletionsHandler :=
  List.foldlRecOn AppTimer.usersInTurn AppTimer.deleteOpsOf carries fun _ carries _ _ =>
    List.foldlRecOn _ AppTimer.deleteOp carries fun _ carries op _ => carries.deleteOp op

/-- Taking the elapsed ticks touches neither the timers nor the queues. -/
theorem elapsedTicksAcquire (carries : Carries P t) : Carries P t.elapsedTicksAcquire.2 := by
  -- It moves an index and the last known counter value.
  unfold AppTimer.elapsedTicksAcquire
  split
  · exact ⟨carries.running, carries.queued⟩
  · exact carries

/-- A timer with a context of the property may be inserted. -/
theorem insertTimer (carries : Carries P t) {timerId : Fin n}
    (fresh : P (t.nodes timerId).context) : Carries P (t.insertTimer timerId) := by
  -- The list grows by this one timer.
  have members := (timerListInsert_contexts (AppTimer.begin t.nodes timerId) timerId
    (AppTimer.ticksFromLatest t.ticksLatest (t.nodes timerId)) t.running).2
  refine ⟨fun other member => ?_, carries.queued⟩
  rw [insertTimer_contexts t timerId other]
  rcases members other member with rfl | before
  · exact fresh
  · exact carries.running other before

/-- Carrying out an operation adds at most the context it brings along. -/
theorem insertOp (carries : Carries P t) {op : TimerUserOp C n}
    (brings : ∀ context ∈ op.context?, P context) : Carries P (t.insertOp op) := by
  -- Only a start of a timer that does not run inserts anything.
  cases op with
  | start timerId ticksAtStart ticksFirstInterval ticksPeriodicInterval context =>
    have fresh : P context := brings context rfl
    simp only [AppTimer.insertOp]
    split
    · exact carries
    · -- Only the started timer has a new context.
      have configured : Carries P (t.configure timerId ticksAtStart ticksFirstInterval
          ticksPeriodicInterval context) := by
        refine ⟨fun other member => ?_, carries.queued⟩
        by_cases started : other = timerId
        · subst started
          simpa [AppTimer.configure] using fresh
        · simpa [AppTimer.configure, TimerNodes.modify_of_ne _ started] using
            carries.running other member
      exact configured.insertTimer (by simpa [AppTimer.configure] using fresh)
  | stop timerId => exact carries
  | stopAll => exact carries

/-- Carrying out all operations of a user adds at most the contexts in its queue. -/
theorem insertOpsOf (carries : Carries P t) (userId : TimerUserId) :
    Carries P (t.insertOpsOf userId) := by
  -- All its contexts have been carried in the queue, which is empty afterwards.
  have inserted : Carries P ((t.users userId).contents.foldl AppTimer.insertOp t) :=
    List.foldlRecOn _ AppTimer.insertOp carries fun _ carries' op member =>
      carries'.insertOp (carries.queued userId op member)
  refine ⟨inserted.running, fun other op member => ?_⟩
  simp only [AppTimer.insertOpsOf] at member
  by_cases same : other = userId
  · subst same
    simp [RingBuffer.contents] at member
  · rw [Function.update_of_ne same] at member
    exact inserted.queued other op member

/-- The insertions add at most the contexts of the restarted timers and of the queues. -/
theorem listInsertionsHandler (carries : Carries P t) {restart : List (Fin n)}
    (restarted : ∀ timerId ∈ restart, P (t.nodes timerId).context) :
    Carries P (t.listInsertionsHandler restart) := by
  -- Restarting one timer leaves the contexts of the others alone.
  have both : Carries P (restart.foldl AppTimer.insertTimer t) ∧
      SameContexts t.nodes (restart.foldl AppTimer.insertTimer t).nodes :=
    List.foldlRecOn (motive := fun t' => Carries P t' ∧ SameContexts t.nodes t'.nodes)
      restart AppTimer.insertTimer ⟨carries, fun _ => rfl⟩ fun t' kept timerId member => by
        refine ⟨kept.1.insertTimer ?_, kept.2.trans (insertTimer_contexts t' timerId)⟩
        rw [kept.2 timerId]
        exact restarted timerId member
  exact List.foldlRecOn AppTimer.usersInTurn AppTimer.insertOpsOf both.1
    fun _ carries userId _ => carries.insertOpsOf userId

/-- Setting the compare register touches neither the timers nor the queues. -/
theorem compareRegUpdate (carries : Carries P t) (wasIdle : Bool) (pre post : UInt32) :
    Carries P (t.compareRegUpdate wasIdle pre post) := by
  unfold AppTimer.compareRegUpdate
  split
  · exact ⟨carries.running, carries.queued⟩
  · exact ⟨carries.running, carries.queued⟩

/-- Expiring timers only takes timers off the list, and restarts some of them. -/
theorem expireTimers (carries : Carries P t) (previous : UInt32) (acquired : Option UInt32) :
    Carries P (t.expireTimers previous acquired).1 ∧
      ∀ timerId ∈ (t.expireTimers previous acquired).2,
        P ((t.expireTimers previous acquired).1.nodes timerId).context := by
  -- Without elapsed ticks nothing expires.
  cases acquired with
  | none => exact ⟨carries, by simp [AppTimer.expireTimers]⟩
  | some elapsed =>
    -- The timers to be restarted were in the list, since none is to be restarted beforehand.
    obtain ⟨same, left, restarted⟩ :=
      expiredTimersHandler_contexts previous elapsed 0 t.nodes [] t.running
    refine ⟨⟨fun other member => ?_, carries.queued⟩, fun other member => ?_⟩
    · exact (same other).symm ▸ carries.running other (left other member)
    · rcases restarted other member with none | before
      · simp at none
      · exact (same other).symm ▸ carries.running other before

/-- The SWI0 interrupt adds no context. -/
theorem timerListHandler (carries : Carries P t) (pre post : UInt32) :
    Carries P (t.timerListHandler pre post) := by
  -- Stage by stage: elapsed ticks, deletions, expiries, insertions.
  obtain ⟨expired, restarted⟩ := carries.elapsedTicksAcquire.listDeletionsHandler.expireTimers
    t.ticksLatest t.elapsedTicksAcquire.1
  have inserted := expired.listInsertionsHandler restarted
  simp only [AppTimer.timerListHandler]
  split
  · exact inserted.compareRegUpdate _ pre post
  · exact inserted

/-- The RTC1 interrupt adds no context, and passes on only carried ones. -/
theorem timerTimeoutsCheck (carries : Carries P t) (counter : UInt32) :
    (∀ event ∈ (t.timerTimeoutsCheck counter).1, P event.2) ∧
      Carries P (t.timerTimeoutsCheck counter).2 := by
  -- The list is only read here.
  unfold AppTimer.timerTimeoutsCheck
  split
  · exact ⟨by simp, carries⟩
  · rename_i timerId rest list
    refine ⟨fun event member => ?_, carries.running, carries.queued⟩
    obtain ⟨expired, inList, same⟩ := timersExpiring_contexts _ _ _ _ event member
    rw [same]
    exact carries.running expired (by rw [list]; exact inList)

/-- Queueing an operation adds at most the context it brings along. -/
theorem opSchedule (carries : Carries P t) (userId : TimerUserId) {op : TimerUserOp C n}
    (brings : ∀ context ∈ op.context?, P context) : Carries P (t.opSchedule userId op).2 := by
  -- The list of timers stays as it is.
  rcases t.opSchedule_spec userId op with refused | ⟨queue, contents, queued⟩
  · rw [refused]
    exact carries
  · rw [queued]
    refine ⟨carries.running, fun other op' member => ?_⟩
    by_cases same : other = userId
    · -- In the queue of this user the new operation comes last.
      subst same
      simp only [Function.update_self, contents, List.mem_append, List.mem_singleton] at member
      rcases member with before | rfl
      · exact carries.queued other op' before
      · exact brings
    · simp only [Function.update_of_ne same] at member
      exact carries.queued other op' member

/-- Starting a timer adds at most the context given. -/
theorem appTimerStart (carries : Carries P t) (userId : TimerUserId) (counter : UInt32)
    (timerId : Nat) (ticks : UInt32) {context : C} (fresh : P context) :
    Carries P (t.appTimerStart userId counter timerId ticks context).2 := by
  rcases t.appTimerStart_spec userId counter timerId ticks context with
    ⟨errCode, -, refused⟩ | ⟨inside, periodic, -, queued⟩
  · rw [refused]
    exact carries
  · rw [queued]
    exact carries.opSchedule userId (by simpa [TimerUserOp.context?] using fresh)

/-- Stopping a timer adds no context. -/
theorem appTimerStop (carries : Carries P t) (userId : TimerUserId) (timerId : Nat) :
    Carries P (t.appTimerStop userId timerId).2 := by
  rcases t.appTimerStop_spec userId timerId with ⟨errCode, -, refused⟩ | ⟨inside, queued⟩
  · rw [refused]
    exact carries
  · rw [queued]
    exact carries.opSchedule userId (by simp [TimerUserOp.context?])

end Carries

end BleHub
