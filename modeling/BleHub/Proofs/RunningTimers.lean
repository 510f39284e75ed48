import BleHub.Proofs.TimerList

/-! The running timers: each is in the list once, and the counter runs as long as there are any. -/

namespace BleHub

variable {H C : Type} {n cap : Nat}

/-- What a node was created with. -/
def TimerNode.config (p : TimerNode H C) : TimerConfig H := ⟨p.state, p.mode, p.timeoutHandler⟩

@[simp] theorem TimerNode.config_expireIn (p : TimerNode H C) (ticks : UInt32) :
    (p.expireIn ticks).config = p.config := rfl

@[simp] theorem TimerNode.isRunning_expireIn (p : TimerNode H C) (ticks : UInt32) :
    (p.expireIn ticks).isRunning = p.isRunning := rfl

@[simp] theorem TimerNode.config_expireAfter (ticksPrevious ticks : UInt32) (p : TimerNode H C) :
    (p.expireAfter ticksPrevious ticks).config = p.config := by
  unfold expireAfter
  split <;> rfl

@[simp] theorem TimerNode.isRunning_expireAfter (ticksPrevious ticks : UInt32)
    (p : TimerNode H C) : (p.expireAfter ticksPrevious ticks).isRunning = false := by
  unfold expireAfter
  split <;> rfl

@[simp] theorem TimerNode.context_expireAfter (ticksPrevious ticks : UInt32)
    (p : TimerNode H C) : (p.expireAfter ticksPrevious ticks).context = p.context := by
  unfold expireAfter
  split <;> rfl

namespace AppTimer

/-- Nothing but the list and its nodes has changed. -/
def OnlyList (t t' : AppTimer H C n cap) : Prop :=
  ∃ nodes running, t' = { t with nodes := nodes, running := running }

/-- Changing nothing changes the list at most. -/
theorem OnlyList.refl (t : AppTimer H C n cap) : OnlyList t t := ⟨t.nodes, t.running, rfl⟩

/-- Two changes of the list and its nodes are one. -/
theorem OnlyList.trans {t t' t'' : AppTimer H C n cap} (first : OnlyList t t')
    (second : OnlyList t' t'') : OnlyList t t'' := by
  obtain ⟨nodes, running, rfl⟩ := first
  obtain ⟨nodes', running', rfl⟩ := second
  exact ⟨nodes', running', rfl⟩

/-- Steps that only change the list do so one behind the other. -/
theorem OnlyList.foldl {ι : Type} {f : AppTimer H C n cap → ι → AppTimer H C n cap}
    (each : ∀ t a, OnlyList t (f t a)) (items : List ι) (t : AppTimer H C n cap) :
    OnlyList t (items.foldl f t) := by
  -- Each step starts from what the one before has left.
  induction items generalizing t with
  | nil => exact .refl t
  | cons a rest ih => exact (each t a).trans (ih (f t a))

/-- Everything beside the list can be read before as well as after. -/
theorem OnlyList.same {t t' : AppTimer H C n cap} (only : OnlyList t t') :
    t'.users = t.users ∧ t'.ticksLatest = t.ticksLatest ∧ t'.rtc = t.rtc ∧
      t'.ticksElapsed = t.ticksElapsed ∧ t'.ticksElapsedQReadInd = t.ticksElapsedQReadInd ∧
      t'.ticksElapsedQWriteInd = t.ticksElapsedQWriteInd := by
  obtain ⟨nodes, running, rfl⟩ := only
  exact ⟨rfl, rfl, rfl, rfl, rfl, rfl⟩

/-- A deletion changes the list and its nodes alone. -/
theorem deleteOp_onlyList (t : AppTimer H C n cap) (op : TimerUserOp C n) :
    OnlyList t (t.deleteOp op) := by
  -- Deletions pass over starts, and over stops of timers that do not run.
  cases op with
  | start => exact .refl t
  | stop timerId =>
    simp only [deleteOp]
    split
    · exact ⟨_, _, rfl⟩
    · exact .refl t
  | stopAll => exact ⟨_, _, rfl⟩

/-- Deletions only read the queues. -/
theorem listDeletionsHandler_onlyList (t : AppTimer H C n cap) :
    OnlyList t t.listDeletionsHandler :=
  OnlyList.foldl (fun _ _ => OnlyList.foldl deleteOp_onlyList _ _) _ t

/-- So do the expiries. -/
theorem expireTimers_onlyList (t : AppTimer H C n cap) (ticksPrevious : UInt32)
    (acquired : Option UInt32) : OnlyList t (t.expireTimers ticksPrevious acquired).1 := by
  cases acquired with
  | none => exact .refl t
  | some ticksElapsed => exact ⟨_, _, rfl⟩

/-- So does putting one timer into the list. -/
theorem insertTimer_onlyList (t : AppTimer H C n cap) (timerId : Fin n) :
    OnlyList t (t.insertTimer timerId) := ⟨_, _, rfl⟩

/-- So does an insertion. -/
theorem insertOp_onlyList (t : AppTimer H C n cap) (op : TimerUserOp C n) :
    OnlyList t (t.insertOp op) := by
  -- Insertions pass over stops, and over starts of timers that run.
  cases op with
  | start =>
    simp only [insertOp]
    split
    · exact .refl t
    · exact ⟨_, _, rfl⟩
  | stop => exact .refl t
  | stopAll => exact .refl t

/-- Acquiring the elapsed ticks does not touch the list. -/
theorem elapsedTicksAcquire_list (t : AppTimer H C n cap) :
    t.elapsedTicksAcquire.2.nodes = t.nodes ∧ t.elapsedTicksAcquire.2.running = t.running ∧
      t.elapsedTicksAcquire.2.rtc = t.rtc ∧ t.elapsedTicksAcquire.2.users = t.users := by
  unfold elapsedTicksAcquire
  -- Only the reading index and the latest ticks are written, or nothing at all.
  split
  · exact ⟨rfl, rfl, rfl, rfl⟩
  · exact ⟨rfl, rfl, rfl, rfl⟩

/-! ### Every timer is in the list once -/

/-- The list holds every running timer once, and the nodes are still set up as they were. -/
structure Listed (config : Fin n → TimerConfig H) (t : AppTimer H C n cap) : Prop where
  nodup : t.running.Nodup
  isRunning : ∀ timerId, (t.nodes timerId).isRunning = true ↔ timerId ∈ t.running
  config : ∀ timerId, (t.nodes timerId).config = config timerId

variable {config : Fin n → TimerConfig H} {t : AppTimer H C n cap}

/-- The list is in order as long as it is the same, with the same nodes. -/
theorem Listed.of_same {t' : AppTimer H C n cap} (listed : Listed config t)
    (nodes : t'.nodes = t.nodes) (running : t'.running = t.running) : Listed config t' := by
  refine ⟨?_, ?_, ?_⟩
  · rw [running]
    exact listed.nodup
  · rw [nodes, running]
    exact listed.isRunning
  · rw [nodes]
    exact listed.config

/-- A timer that is marked as not running is not in the list. -/
theorem Listed.fresh (listed : Listed config t) {timerId : Fin n}
    (idle : (t.nodes timerId).isRunning = false) : timerId ∉ t.running := by
  intro member
  rw [(listed.isRunning timerId).mpr member] at idle
  cases idle

/-- Marking timers as not running changes nothing about the others. -/
theorem halt_foldl (nodes : TimerNodes H C n) (timers : List (Fin n)) (timerId : Fin n) :
    timers.foldl halt nodes timerId = if timerId ∈ timers
      then { nodes timerId with isRunning := false } else nodes timerId := by
  -- Marking a timer twice makes no difference.
  induction timers generalizing nodes with
  | nil => rfl
  | cons current rest ih =>
    rw [List.foldl_cons, ih]
    unfold halt
    by_cases here : timerId = current
    · subst here
      simp
    · rw [TimerNodes.modify_of_ne nodes here]
      simp [here]

/-- Deletions keep what a timer was created with, and what it was last started with. -/
theorem deleteOp_kept (t : AppTimer H C n cap) (op : TimerUserOp C n) (timerId : Fin n) :
    ((t.deleteOp op).nodes timerId).config = (t.nodes timerId).config ∧
      ((t.deleteOp op).nodes timerId).ticksPeriodicInterval =
        (t.nodes timerId).ticksPeriodicInterval ∧
      ((t.deleteOp op).nodes timerId).context = (t.nodes timerId).context := by
  -- A start is passed over, and the stops only touch marks and ticks.
  cases op with
  | start => exact ⟨rfl, rfl, rfl⟩
  | stop stopped =>
    simp only [AppTimer.deleteOp]
    split
    · -- The node behind the removed one is given its ticks, and the removed one its mark.
      obtain ⟨ticks, kept⟩ := timerListRemove_retimed t.nodes stopped t.running timerId
      by_cases same : timerId = stopped
      · subst same
        simp only [halt, TimerNodes.modify_self, kept]
        exact ⟨rfl, rfl, rfl⟩
      · simp only [halt, TimerNodes.modify_of_ne _ same, kept]
        exact ⟨rfl, rfl, rfl⟩
    · -- A timer that does not run is left alone.
      exact ⟨rfl, rfl, rfl⟩
  | stopAll =>
    simp only [AppTimer.deleteOp, halt_foldl]
    split
    · exact ⟨rfl, rfl, rfl⟩
    · exact ⟨rfl, rfl, rfl⟩

/-- A stop takes its timer off the list, and all others stay. -/
theorem Listed.deleteOp (listed : Listed config t) (op : TimerUserOp C n) :
    Listed config (t.deleteOp op) := by
  have config_ : ∀ timerId, ((t.deleteOp op).nodes timerId).config = config timerId :=
    fun timerId => (deleteOp_kept t op timerId).1.trans (listed.config timerId)
  cases op with
  | start => exact listed
  | stop timerId =>
    by_cases runs : (t.nodes timerId).isRunning = true
    · -- The next timer in the list takes over the ticks of the one removed.
      have retimed := timerListRemove_retimed t.nodes timerId t.running
      have deleted : t.deleteOp (.stop timerId) = { t with
          nodes := halt (timerListRemove t.nodes timerId t.running).1 timerId
          running := t.running.erase timerId } := by
        simp only [AppTimer.deleteOp, if_pos runs, timerListRemove_running]
      rw [deleted] at config_ ⊢
      refine ⟨listed.nodup.erase timerId, fun other => ?_, config_⟩
      by_cases same : other = timerId
      · -- The timer is off the list, where it was only once, and is marked.
        subst same
        simp [halt, listed.nodup.not_mem_erase]
      · obtain ⟨ticks, kept⟩ := retimed other
        simp only [halt, TimerNodes.modify_of_ne _ same, kept, TimerNode.isRunning_expireIn,
          List.mem_erase_of_ne same]
        exact listed.isRunning other
    · -- A stop of a timer that does not run finds nothing to do.
      have unchanged : t.deleteOp (.stop timerId) = t := by
        simp only [AppTimer.deleteOp, if_neg runs]
      rw [unchanged]
      exact listed
  | stopAll =>
    refine ⟨List.nodup_nil, fun timerId => ?_, config_⟩
    -- Every timer that was running was in the list, and is marked.
    have before := listed.isRunning timerId
    simp only [AppTimer.deleteOp, halt_foldl]
    split
    · simp
    · rename_i unlisted
      simp [before, unlisted]

/-- The deletions of all users keep the list in order. -/
theorem Listed.listDeletionsHandler (listed : Listed config t) :
    Listed config t.listDeletionsHandler := by
  -- Going through a queue, and through the queues, takes one operation after the other.
  refine List.foldlRecOn usersInTurn deleteOpsOf listed fun t listed userId _ => ?_
  exact List.foldlRecOn _ AppTimer.deleteOp listed fun t listed op _ => listed.deleteOp op

/-- The timers that are still in the list are those that are not due yet. -/
theorem Expires.mem_running {base : Nat} {ticksPrevious ticksElapsed ticksExpired : UInt32}
    {nodes : TimerNodes H C n} {restart running : List (Fin n)}
    {result : TimerNodes H C n × List (Fin n) × List (Fin n)}
    (expires : Expires base ticksPrevious ticksElapsed ticksExpired nodes restart running result)
    (timerId : Fin n) : timerId ∈ result.2.1 ↔
      ∃ due, (timerId, due) ∈ DeltaList.dues base (gaps nodes running) ∧
        base + ticksElapsed.toNat < due := by
  -- What the loop leaves is the rest of the list behind the timers that are due.
  have names := map_fst_gaps result.1 result.2.1
  rw [expires.advance, ← DeltaList.map_fst_dues (base + ticksElapsed.toNat),
    DeltaList.dues_advance, DeltaList.dropWhile_eq_filter (DeltaList.pairwise_dues _ _)] at names
  rw [← names]
  simp

/-- The periodic timers that are collected are among those that are due. -/
theorem Expires.mem_restart {base : Nat} {ticksPrevious ticksElapsed ticksExpired : UInt32}
    {nodes : TimerNodes H C n} {running : List (Fin n)}
    {result : TimerNodes H C n × List (Fin n) × List (Fin n)}
    (expires : Expires base ticksPrevious ticksElapsed ticksExpired nodes [] running result)
    {timerId : Fin n} (member : timerId ∈ result.2.2) :
    ∃ due, (timerId, due) ∈ DeltaList.dues base (gaps nodes running) ∧
      due ≤ base + ticksElapsed.toNat := by
  rw [expires.restart, DeltaList.takeWhile_eq_filter (DeltaList.pairwise_dues _ _)] at member
  simp at member
  exact member.1

/-- A timer in the list is due at one time. -/
theorem due_unique {base : Nat} {nodes : TimerNodes H C n} {running : List (Fin n)}
    (nodup : running.Nodup) {timerId : Fin n} {due due' : Nat}
    (member : (timerId, due) ∈ DeltaList.dues base (gaps nodes running))
    (member' : (timerId, due') ∈ DeltaList.dues base (gaps nodes running)) : due = due' := by
  -- No name comes twice in the list, and so no name has two due times.
  have names : ((DeltaList.dues base (gaps nodes running)).map Prod.fst).Nodup := by
    rwa [DeltaList.map_fst_dues, map_fst_gaps]
  have same := List.inj_on_of_nodup_map names member member' rfl
  exact congrArg Prod.snd same

/-- A timer in the list is due at some time. -/
theorem exists_due (base : Nat) (nodes : TimerNodes H C n) {running : List (Fin n)}
    {timerId : Fin n} (listed : timerId ∈ running) :
    ∃ due, (timerId, due) ∈ DeltaList.dues base (gaps nodes running) := by
  rw [← map_fst_gaps nodes running, ← DeltaList.map_fst_dues base] at listed
  simpa using listed

/-- Every node has expired, or has at most been given other ticks to wait. -/
theorem Expires.node {base : Nat} {ticksPrevious ticksElapsed ticksExpired : UInt32}
    {nodes : TimerNodes H C n} {restart running : List (Fin n)}
    {result : TimerNodes H C n × List (Fin n) × List (Fin n)}
    (expires : Expires base ticksPrevious ticksElapsed ticksExpired nodes restart running result)
    (timerId : Fin n) :
    (∃ ticks, result.1 timerId = (nodes timerId).expireIn ticks) ∨
      ∃ ticks, result.1 timerId = (nodes timerId).expireAfter ticksPrevious ticks := by
  -- A timer in the list is due or goes on waiting, and no other is touched.
  by_cases member : timerId ∈ running
  · obtain ⟨due, member⟩ := exists_due base nodes member
    by_cases now : due ≤ base + ticksElapsed.toNat
    · exact .inr ⟨_, expires.due (timerId, due) member now⟩
    · have stays := (expires.mem_running timerId).mpr ⟨due, member, by omega⟩
      exact .inl (expires.waits timerId stays)
  · exact .inl ⟨_, expires.other timerId member⟩

/-- Expiries keep what a timer was created with, and what it was last started with. -/
theorem Expires.kept {base : Nat} {ticksPrevious ticksElapsed ticksExpired : UInt32}
    {nodes : TimerNodes H C n} {restart running : List (Fin n)}
    {result : TimerNodes H C n × List (Fin n) × List (Fin n)}
    (expires : Expires base ticksPrevious ticksElapsed ticksExpired nodes restart running result)
    (timerId : Fin n) : (result.1 timerId).config = (nodes timerId).config ∧
      (result.1 timerId).ticksPeriodicInterval = (nodes timerId).ticksPeriodicInterval ∧
      (result.1 timerId).context = (nodes timerId).context := by
  -- Expired or not, the node has only been given other ticks and marks.
  rcases expires.node timerId with ⟨ticks, kept⟩ | ⟨ticks, expired⟩
  · rw [kept]
    exact ⟨rfl, rfl, rfl⟩
  · rw [expired, TimerNode.config_expireAfter, TimerNode.ticksPeriodicInterval_expireAfter,
      TimerNode.context_expireAfter]
    exact ⟨rfl, rfl, rfl⟩

/-- The list after expiries, and the timers that are to be inserted again. -/
structure ListedApart (config : Fin n → TimerConfig H) (t : AppTimer H C n cap)
    (restart : List (Fin n)) : Prop where
  listed : Listed config t
  nodup : restart.Nodup
  apart : ∀ timerId ∈ restart, timerId ∉ t.running

/-- Timers that are due leave the list, and all others stay. -/
theorem Listed.expireTimers (listed : Listed config t) (ticksPrevious : UInt32)
    (acquired : Option UInt32) :
    ListedApart config (t.expireTimers ticksPrevious acquired).1
      (t.expireTimers ticksPrevious acquired).2 := by
  cases acquired with
  | none => exact ⟨listed, List.nodup_nil, by simp [AppTimer.expireTimers]⟩
  | some ticksElapsed =>
    have result := expires t.nodes ticksPrevious 0 ticksElapsed 0 [] t.running listed.nodup
    simp only [AppTimer.expireTimers]
    generalize expiredTimersHandler ticksPrevious ticksElapsed 0 t.nodes [] t.running = r at *
    -- The list that is left is the end of the one before.
    have names : r.2.1 <:+ t.running := by
      have suffix_ := DeltaList.map_fst_advance_suffix ticksElapsed.toNat (gaps t.nodes t.running)
      rwa [← result.advance, map_fst_gaps, map_fst_gaps] at suffix_
    refine ⟨⟨listed.nodup.sublist names.sublist, fun timerId => ?_, fun timerId => ?_⟩, ?_, ?_⟩
    · by_cases member : timerId ∈ t.running
      · obtain ⟨due, member⟩ := exists_due 0 t.nodes member
        by_cases now : due ≤ 0 + ticksElapsed.toNat
        · -- A timer that is due is neither running nor in the list any more.
          have gone : timerId ∉ r.2.1 := by
            intro stays
            obtain ⟨due', member', later⟩ := (result.mem_running timerId).mp stays
            have same := due_unique listed.nodup member member'
            omega
          simp [result.due _ member now, gone]
        · -- A timer that is due later is still listed and still running.
          have stays := (result.mem_running timerId).mpr ⟨due, member, by omega⟩
          obtain ⟨ticks, kept⟩ := result.waits timerId stays
          have before := (listed.isRunning timerId).mpr (listed_of_mem_dues member)
          simp [kept, before, stays]
      · -- A timer that was not listed is not touched.
        have gone : timerId ∉ r.2.1 := fun stays => member (names.subset stays)
        have before := listed.isRunning timerId
        simp [result.other timerId member, before, member, gone]
    · -- Expiring changes no configuration.
      exact (result.kept timerId).1.trans (listed.config timerId)
    · -- The timers that are collected come from the list, where each stands once.
      rw [result.restart, List.append_nil, List.nodup_reverse]
      apply List.Nodup.filter
      have all : ((DeltaList.dues 0 (gaps t.nodes t.running)).map Prod.fst).Nodup := by
        rw [DeltaList.map_fst_dues, map_fst_gaps]
        exact listed.nodup
      exact all.sublist ((List.takeWhile_sublist _).map Prod.fst)
    · -- A timer that is collected was due, and one that is still in the list was not.
      intro timerId collected stays
      obtain ⟨due, member, now⟩ := result.mem_restart collected
      obtain ⟨due', member', later⟩ := (result.mem_running timerId).mp stays
      have same := due_unique listed.nodup member member'
      omega

/-- An insertion gives the other timers nothing but the ticks they have left. -/
theorem insertTimer_other (t : AppTimer H C n cap) {timerId other : Fin n}
    (apart : other ≠ timerId) :
    ∃ ticks, (t.insertTimer timerId).nodes other = (t.nodes other).expireIn ticks := by
  -- Only the timer behind the new one has its ticks counted anew.
  obtain ⟨ticks, kept⟩ := timerListInsert_retimed (begin t.nodes timerId) timerId
    (ticksFromLatest t.ticksLatest (t.nodes timerId)) t.running other
  refine ⟨ticks, kept.trans ?_⟩
  rw [begin, TimerNodes.modify_of_ne _ apart]

/-- An inserted timer is running. -/
theorem insertTimer_self (t : AppTimer H C n cap) (timerId : Fin n) :
    ∃ ticks, (t.insertTimer timerId).nodes timerId = { t.nodes timerId with
      ticksToExpire := ticks, ticksAtStart := 0, ticksFirstInterval := 0, isRunning := true } := by
  -- The new timer is marked, and given the ticks to the one in front of it.
  obtain ⟨ticks, kept⟩ := timerListInsert_retimed (begin t.nodes timerId) timerId
    (ticksFromLatest t.ticksLatest (t.nodes timerId)) t.running timerId
  refine ⟨ticks, kept.trans ?_⟩
  rw [begin, TimerNodes.modify_self]
  rfl

/-- Insertions keep what a timer was created with, and what it was last started with. -/
theorem insertTimer_kept (t : AppTimer H C n cap) (timerId other : Fin n) :
    ((t.insertTimer timerId).nodes other).config = (t.nodes other).config ∧
      ((t.insertTimer timerId).nodes other).ticksPeriodicInterval =
        (t.nodes other).ticksPeriodicInterval ∧
      ((t.insertTimer timerId).nodes other).context = (t.nodes other).context := by
  -- The inserted timer gets its marks, and the one behind it other ticks.
  by_cases same : other = timerId
  · subst same
    obtain ⟨ticks, node⟩ := insertTimer_self t other
    rw [node]
    exact ⟨rfl, rfl, rfl⟩
  · obtain ⟨ticks, node⟩ := insertTimer_other t same
    rw [node]
    exact ⟨rfl, rfl, rfl⟩

/-- An inserted timer is in the list. -/
theorem insertTimer_perm (t : AppTimer H C n cap) (timerId : Fin n) :
    (t.insertTimer timerId).running.Perm (timerId :: t.running) :=
  timerListInsert_perm _ timerId _ t.running

/-- A timer that is not in the list can be inserted. -/
theorem Listed.insertTimer (listed : Listed config t) {timerId : Fin n}
    (fresh : timerId ∉ t.running) : Listed config (t.insertTimer timerId) := by
  -- The list has the new timer somewhere, in addition to the others.
  have perm := insertTimer_perm t timerId
  refine ⟨?_, fun other => ?_, fun other =>
    (insertTimer_kept t timerId other).1.trans (listed.config other)⟩
  · exact perm.nodup_iff.mpr (List.nodup_cons.mpr ⟨fresh, listed.nodup⟩)
  · by_cases same : other = timerId
    · subst same
      obtain ⟨ticks, node⟩ := insertTimer_self t other
      simp [node, perm.mem_iff]
    · obtain ⟨ticks, node⟩ := insertTimer_other t same
      simp only [node, TimerNode.isRunning_expireIn, perm.mem_iff, List.mem_cons, same, false_or]
      exact listed.isRunning other

/-- Once all collected timers are inserted, every timer is in the list once. -/
theorem ListedApart.insert {restart : List (Fin n)} (apart : ListedApart config t restart) :
    Listed config (restart.foldl AppTimer.insertTimer t) := by
  -- The timers that are still to be inserted stay apart from the list.
  induction restart generalizing t with
  | nil => exact apart.listed
  | cons timerId rest ih =>
    obtain ⟨once, nodup⟩ := List.nodup_cons.mp apart.nodup
    have fresh : timerId ∉ t.running := apart.apart timerId List.mem_cons_self
    refine ih ⟨apart.listed.insertTimer fresh, nodup, fun other member => ?_⟩
    rw [(insertTimer_perm t timerId).mem_iff, List.mem_cons, not_or]
    exact ⟨fun same => once (same ▸ member), apart.apart other (List.mem_cons_of_mem _ member)⟩

/-- Taking over what a start asks for does not touch the list. -/
theorem Listed.configure (listed : Listed config t) (timerId : Fin n)
    (ticksAtStart ticksFirstInterval ticksPeriodicInterval : UInt32) (context : C) :
    Listed config (t.configure timerId ticksAtStart ticksFirstInterval ticksPeriodicInterval
      context) := by
  -- Neither the mark nor what the timer was created with is taken over.
  refine ⟨listed.nodup, fun other => ?_, fun other => ?_⟩
  · by_cases same : other = timerId
    · subst same
      simpa [AppTimer.configure] using listed.isRunning other
    · simpa [AppTimer.configure, TimerNodes.modify_of_ne _ same] using listed.isRunning other
  · by_cases same : other = timerId
    · subst same
      simpa [AppTimer.configure, TimerNode.config] using listed.config other
    · simpa [AppTimer.configure, TimerNodes.modify_of_ne _ same] using listed.config other

/-- A start puts its timer into the list, unless it is there already. -/
theorem Listed.insertOp (listed : Listed config t) (op : TimerUserOp C n) :
    Listed config (t.insertOp op) := by
  -- The source looks at the mark, which says whether the timer is in the list.
  cases op with
  | start timerId ticksAtStart ticksFirstInterval ticksPeriodicInterval context =>
    simp only [AppTimer.insertOp]
    split
    · exact listed
    · rename_i idle
      have fresh : timerId ∉ t.running := listed.fresh (Bool.eq_false_of_not_eq_true idle)
      exact (listed.configure timerId _ _ _ _).insertTimer fresh
  | stop => exact listed
  | stopAll => exact listed

/-- The insertions of a user keep the list in order. -/
theorem Listed.insertOpsOf (listed : Listed config t) (userId : TimerUserId) :
    Listed config (t.insertOpsOf userId) := by
  have inserted : Listed config ((t.users userId).contents.foldl AppTimer.insertOp t) :=
    List.foldlRecOn _ AppTimer.insertOp listed fun t listed op _ => listed.insertOp op
  exact inserted.of_same rfl rfl

/-- The list is in order with the periodic timers and the started ones back in. -/
theorem ListedApart.listInsertionsHandler {restart : List (Fin n)}
    (apart : ListedApart config t restart) : Listed config (t.listInsertionsHandler restart) :=
  List.foldlRecOn usersInTurn AppTimer.insertOpsOf apart.insert fun _ listed userId _ =>
    listed.insertOpsOf userId

/-- Deletions, expiries and insertions leave every running timer in the list once. -/
theorem Listed.updatedList (listed : Listed config t) : Listed config t.updatedList := by
  -- The three stages of the list handler, in their order.
  obtain ⟨nodes, running, -, -⟩ := elapsedTicksAcquire_list t
  have acquired : Listed config t.elapsedTicksAcquire.2 := listed.of_same nodes running
  exact (acquired.listDeletionsHandler.expireTimers _ _).listInsertionsHandler

/-! ### The counter runs while a timer does -/

/-- Insertions only change the list and the queues. -/
theorem insertOpsOf_rtc (t : AppTimer H C n cap) (userId : TimerUserId) :
    (t.insertOpsOf userId).rtc = t.rtc :=
  (OnlyList.foldl insertOp_onlyList (t.users userId).contents t).same.2.2.1

/-- Bringing the list up to date does not touch the counter. -/
theorem updatedList_rtc (t : AppTimer H C n cap) : t.updatedList.rtc = t.rtc := by
  -- No stage before the compare register is set touches a register.
  have handlers : ∀ t' : AppTimer H C n cap,
      (usersInTurn.foldl AppTimer.insertOpsOf t').rtc = t'.rtc := by
    intro t'
    simp only [usersInTurn, List.foldl_cons, List.foldl_nil, insertOpsOf_rtc]
  unfold updatedList
  simp only [AppTimer.listInsertionsHandler, handlers]
  rw [(OnlyList.foldl insertTimer_onlyList _ _).same.2.2.1,
    (expireTimers_onlyList _ _ _).same.2.2.1, (listDeletionsHandler_onlyList _).same.2.2.1,
    (elapsedTicksAcquire_list t).2.2.1]

/-- Without a reason to set the compare register, the head of the list is still the same. -/
theorem updatedList_head (t : AppTimer H C n cap) (quiet : t.compareUpdate = false) :
    t.updatedList.running.head? = t.running.head? := by
  -- The head is compared twice: after the deletions, and after the insertions.
  simp only [compareUpdate, Bool.or_eq_false_iff, bne_eq_false_iff_eq] at quiet
  obtain ⟨⟨nothing, deleted⟩, inserted⟩ := quiet
  have none_ : t.elapsedTicksAcquire.1 = none := by simpa using nothing
  rw [inserted, none_]
  exact deleted

/-- The list is in order, and the counter has been started exactly if there is a timer in it. -/
structure Sound (config : Fin n → TimerConfig H) (t : AppTimer H C n cap) : Prop where
  listed : Listed config t
  started : t.rtc.started = !t.running.isEmpty

/-- Setting the compare register leaves everything but the registers alone. -/
theorem compareRegUpdate_eq (t : AppTimer H C n cap) (wasIdle : Bool)
    (preCounter postCounter : UInt32) :
    t.compareRegUpdate wasIdle preCounter postCounter =
      { t with rtc := (t.compareRegUpdate wasIdle preCounter postCounter).rtc } := by
  unfold AppTimer.compareRegUpdate
  -- The counter is stopped, or the compare register is written.
  split
  · rfl
  · rfl

/-- Setting the compare register starts or stops the counter, as timers are running or not. -/
theorem compareRegUpdate_started (t : AppTimer H C n cap) (wasIdle : Bool)
    (preCounter postCounter : UInt32) :
    (t.compareRegUpdate wasIdle preCounter postCounter).rtc.started =
      (!t.running.isEmpty && (wasIdle || t.rtc.started)) := by
  -- An empty list stops the counter; otherwise it is started unless it runs already.
  unfold AppTimer.compareRegUpdate
  split
  · rename_i empty
    simp [empty]
  · rename_i list
    cases wasIdle with
    | true => simp [list]
    | false => simp [list]

/-- Setting the compare register keeps the list in order. -/
theorem Listed.compareRegUpdate (listed : Listed config t) (wasIdle : Bool)
    (preCounter postCounter : UInt32) :
    Listed config (t.compareRegUpdate wasIdle preCounter postCounter) := by
  rw [compareRegUpdate_eq]
  exact listed.of_same rfl rfl

/-- The list handler keeps all this up. -/
theorem Sound.timerListHandler (sound : Sound config t) (preCounter postCounter : UInt32) :
    Sound config (t.timerListHandler preCounter postCounter) := by
  -- All but the registers is settled once the list is up to date.
  have listed := sound.listed.updatedList
  have rtc := updatedList_rtc t
  have head := updatedList_head t
  rw [timerListHandler_eq]
  generalize t.updatedList = updated at listed rtc head ⊢
  cases set : t.compareUpdate with
  | true =>
    rw [if_pos rfl]
    refine ⟨listed.compareRegUpdate _ _ _, ?_⟩
    -- A counter that has not just been started has been running for the timers before.
    rw [compareRegUpdate_started, compareRegUpdate_eq, rtc, sound.started]
    simp
  | false =>
    rw [if_neg Bool.false_ne_true]
    -- Left alone, the counter goes on as it is, and so does the head of the list.
    have same : updated.running.isEmpty = t.running.isEmpty := by
      rw [Bool.eq_iff_iff, List.isEmpty_iff, List.isEmpty_iff, ← List.head?_eq_none_iff,
        ← List.head?_eq_none_iff, head set]
    exact ⟨listed, by rw [rtc, same, sound.started]⟩

/-- Queueing an operation does not touch the list. -/
theorem Sound.opSchedule (sound : Sound config t) (userId : TimerUserId)
    (op : TimerUserOp C n) : Sound config (t.opSchedule userId op).2 := by
  -- A full queue refuses the operation, and otherwise the queue is all that changes.
  rcases t.opSchedule_spec userId op with full | ⟨queue, -, queued⟩
  · rw [full]
    exact sound
  · rw [queued]
    exact ⟨sound.listed.of_same rfl rfl, sound.started⟩

/-- Passing on timeouts does not touch the list either. -/
theorem Sound.timerTimeoutsCheck (sound : Sound config t) (counter : UInt32) :
    Sound config (t.timerTimeoutsCheck counter).2 := by
  unfold AppTimer.timerTimeoutsCheck
  -- The elapsed ticks are put into their double buffer, outside of the list.
  split
  · exact sound
  · exact ⟨sound.listed.of_same rfl rfl, sound.started⟩

/-- The list and the counter do not depend on which interrupts are pending. -/
theorem Sound.pending (sound : Sound config t) (rtc1Pending swi0Pending : Bool) :
    Sound config { t with rtc := { t.rtc with
      rtc1Pending := rtc1Pending, swi0Pending := swi0Pending } } :=
  ⟨sound.listed.of_same rfl rfl, sound.started⟩

end AppTimer

namespace TimedTimer

variable {config : Fin n → TimerConfig H}

/-- Before anything has happened, no timer is running. -/
theorem sound_boot (config : Fin n → TimerConfig H) (start : Nat) (handler : H) (context : C) :
    (boot config start handler context : TimedTimer H C n cap).timer.Sound config := by
  refine ⟨⟨List.nodup_nil, fun timerId => ?_, fun timerId => rfl⟩, rfl⟩
  simp [boot, AppTimer.created, AppTimer.appTimerInit]

/-- The ticks of the counter do not touch the list. -/
theorem sound_tick {s : TimedTimer H C n cap} (sound : s.timer.Sound config) (missed : Bool) :
    (s.tick missed).timer.Sound config := by
  unfold tick
  simp only
  -- A running counter may match the compare register, which makes RTC1 pending.
  split
  · exact sound.pending _ _
  · exact sound

/-- The module stays sound while time passes. -/
theorem sound_wait {s : TimedTimer H C n cap} (sound : s.timer.Sound config) (ticks : Nat) :
    (s.wait ticks).timer.Sound config := by
  -- Tick by tick.
  induction ticks with
  | zero => exact sound
  | succ ticks ih => exact sound_tick ih false

/-- Whatever happens next, the list stays in order. -/
theorem sound_step {s : TimedTimer H C n cap} (sound : s.timer.Sound config)
    (next : TimedStep C) : (s.step next).timer.Sound config := by
  -- Calls only queue operations; the list is changed by its handler alone.
  cases next with
  | tick missed => exact sound_tick sound missed
  | appTimerStart userId timerId timeoutTicks context =>
    simp only [step]
    rcases s.timer.appTimerStart_spec userId (counterAt s.now) timerId timeoutTicks context with
      ⟨errCode, -, refused⟩ | ⟨inside, timeoutPeriodic, -, queued⟩
    · rw [refused]
      exact sound
    · -- The operation waits for the list handler.
      rw [queued]
      exact sound.opSchedule userId _
  | appTimerStop userId timerId =>
    simp only [step]
    rcases s.timer.appTimerStop_spec userId timerId with ⟨errCode, -, refused⟩ | ⟨inside, queued⟩
    · rw [refused]
      exact sound
    · rw [queued]
      exact sound.opSchedule userId _
  | appTimerStopAll userId => exact sound.opSchedule userId _
  | rtc1IrqHandler => exact (sound.pending false s.timer.rtc.swi0Pending).timerTimeoutsCheck _
  | swi0IrqHandler delay =>
    -- The interrupt is no longer pending when its handler begins.
    have handled := (sound.pending s.timer.rtc.rtc1Pending false).timerListHandler
      (counterAt s.now) (counterAt (s.now + delay))
    exact sound_wait (s := { s with timer := _ }) handled delay

/--
Whatever the interrupts and the calls, the list holds every running timer once.

The counter runs as long as there is one, and no timer has changed its mode or its handler.
-/
theorem sound_run (config : Fin n → TimerConfig H) (start : Nat) (handler : H) (context : C)
    (steps : List (TimedStep C)) :
    (StepMachine.run step (boot config start handler context : TimedTimer H C n cap)
      steps).timer.Sound config :=
  StepMachine.run_invariant (I := fun s : TimedTimer H C n cap => s.timer.Sound config)
    (fun _ next sound => sound_step sound next) steps _ (sound_boot config start handler context)

end TimedTimer

end BleHub
