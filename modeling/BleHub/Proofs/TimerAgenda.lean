import BleHub.Proofs.RunningTimers

/-! The timer module keeps the agenda that it stands for, as long as its counter is read in time. -/

namespace BleHub

variable {H C : Type} {n cap : Nat}

/-- An interval that leaves room for half the counter range in the ticks of a timer. -/
def Short (interval : UInt32) : Prop := interval.toNat + counterRange / 2 ≤ 2 ^ 32

namespace AgendaOp

/-- The operation as it stands in a queue, with the counter value at its call. -/
def queued : AgendaOp C n → TimerUserOp C n
  | .start timerId called interval period context =>
    .start timerId (counterAt called) interval period context
  | .stop timerId => .stop timerId
  | .stopAll => .stopAll

/-- A start that was called within some time. -/
def Within (earliest latest : Nat) : AgendaOp C n → Prop
  | .start _ called interval period _ =>
    earliest ≤ called ∧ called ≤ latest ∧ Short interval ∧ Short period
  | .stop _ => True
  | .stopAll => True

/-- A start that the list handler can tell to be before or behind the last known counter value. -/
def Near (latest : Nat) : AgendaOp C n → Prop
  | .start _ called interval period _ => latest ≤ called + counterRange / 2 ∧
    called + 1 < latest + counterRange / 2 ∧ Short interval ∧ Short period
  | .stop _ => True
  | .stopAll => True

end AgendaOp

/-- The list with its nodes stands for the entries of the agenda. -/
structure Matches (config : Fin n → TimerConfig H) (base : Nat) (t : AppTimer H C n cap)
    (g : Agenda H C n) : Prop where
  listed : t.Listed config
  entries : g.entries = DeltaList.dues base (gaps t.nodes t.running)
  near : ∀ p ∈ g.entries, p.2 < base + 2 ^ 32
  period : ∀ timerId, g.period timerId = (t.nodes timerId).ticksPeriodicInterval
  short : ∀ timerId, Short (g.period timerId)
  context : ∀ timerId, g.context timerId = (t.nodes timerId).context

variable {config : Fin n → TimerConfig H} {base : Nat} {t : AppTimer H C n cap}
  {g : Agenda H C n}

/-- The entries are for the timers in the list. -/
theorem Matches.names (m : Matches config base t g) : g.entries.map Prod.fst = t.running := by
  rw [m.entries, DeltaList.map_fst_dues, map_fst_gaps]

/-- It also stands for them when only what lies beside the list and the entries has changed. -/
theorem Matches.of_same {t' : AppTimer H C n cap} {g' : Agenda H C n} (m : Matches config base t g)
    (nodes : t'.nodes = t.nodes) (running : t'.running = t.running)
    (entries : g'.entries = g.entries) (period : g'.period = g.period)
    (context : g'.context = g.context) : Matches config base t' g' := by
  -- Each part of the relation speaks of the list, the entries, the periods or the contexts.
  refine ⟨m.listed.of_same nodes running, ?_, ?_, ?_, ?_, ?_⟩
  · rw [entries, nodes, running]
    exact m.entries
  · rw [entries]
    exact m.near
  · rw [period, nodes]
    exact m.period
  · rw [period]
    exact m.short
  · rw [context, nodes]
    exact m.context

/-! ### Deletions -/

/-- Removing the one entry of a timer leaves the entries without it. -/
theorem eraseP_eq_without (timerId : Fin n) {entries : List (Fin n × Nat)}
    (nodup : (entries.map Prod.fst).Nodup) :
    (entries.eraseP fun p => decide (p.1 = timerId)) = Agenda.without timerId entries := by
  unfold Agenda.without
  -- Up to the entry of the timer both keep everything.
  induction entries with
  | nil => rfl
  | cons p rest ih =>
    obtain ⟨once, nodup⟩ := List.nodup_cons.mp nodup
    by_cases found : p.1 = timerId
    · -- No other entry is for the same timer.
      have kept : ∀ q ∈ rest, (!decide (q.1 = timerId)) = true := by
        intro q member
        simp only [Bool.not_eq_true', decide_eq_false_iff_not]
        intro same
        exact once (by rw [found, ← same]; exact List.mem_map_of_mem member)
      have all := List.filter_eq_self.mpr kept
      simpa [found] using all.symm
    · simp [found, ih nodup]

/-- A stop strikes out the entries that it is for. -/
theorem Matches.deleteOp (m : Matches config base t g) (op : AgendaOp C n) :
    Matches config base (t.deleteOp op.queued)
      { g with entries := Agenda.strike g.entries op } := by
  -- Neither the configuration nor what was asked for at the start is touched by a stop.
  have listed := m.listed.deleteOp op.queued
  have period : ∀ other,
      g.period other = ((t.deleteOp op.queued).nodes other).ticksPeriodicInterval := fun other =>
    (m.period other).trans (AppTimer.deleteOp_kept t op.queued other).2.1.symm
  have context : ∀ other, g.context other = ((t.deleteOp op.queued).nodes other).context :=
    fun other => (m.context other).trans (AppTimer.deleteOp_kept t op.queued other).2.2.symm
  cases op with
  | start => exact m
  | stop timerId =>
    -- A removal takes the first entry of the timer, which is its only one.
    have nodup : (g.entries.map Prod.fst).Nodup := by
      rw [m.names]
      exact m.listed.nodup
    by_cases runs : (t.nodes timerId).isRunning = true
    · have unlisted : timerId ∉ (timerListRemove t.nodes timerId t.running).2 := by
        rw [timerListRemove_running]
        exact m.listed.nodup.not_mem_erase
      have near := m.near
      rw [m.entries] at near
      have removed := gaps_timerListRemove t.nodes timerId (le_refl (base + 2 ^ 32)) t.running
        m.listed.nodup near
      simp only [AgendaOp.queued, AppTimer.deleteOp, if_pos runs] at listed period context ⊢
      refine ⟨listed, ?_, ?_, period, m.short, context⟩
      · -- The mark of the removed timer does not show in the list, which is without it.
        have kept : gaps (AppTimer.halt (timerListRemove t.nodes timerId t.running).1 timerId)
            (timerListRemove t.nodes timerId t.running).2 =
            gaps (timerListRemove t.nodes timerId t.running).1
              (timerListRemove t.nodes timerId t.running).2 := gaps_modify _ unlisted _
        rw [m.entries] at nodup
        simp only [Agenda.strike, m.entries, kept, removed, DeltaList.dues_remove,
          eraseP_eq_without timerId nodup]
      · -- What is left was near before.
        intro p member
        exact m.near p (List.mem_of_mem_filter member)
    · -- A timer that does not run has no entry.
      have idle := m.listed.fresh (Bool.eq_false_of_not_eq_true runs)
      have same : Agenda.strike g.entries (.stop timerId : AgendaOp C n) = g.entries := by
        apply List.filter_eq_self.mpr
        intro p member
        simp only [decide_eq_true_eq]
        intro found
        rw [← m.names, ← found] at idle
        exact idle (List.mem_map_of_mem member)
      simp only [AgendaOp.queued, AppTimer.deleteOp, if_neg runs, same]
      exact m
  | stopAll =>
    -- The list is empty, and so is the agenda.
    exact ⟨listed, rfl, by simp [Agenda.strike], period, m.short, context⟩

/-- The queues hold the operations that wait on the agenda. -/
def Waits (t : AppTimer H C n cap) (g : Agenda H C n) : Prop :=
  ∀ userId, (t.users userId).contents = (g.ops userId).map AgendaOp.queued

/-- Deletions strike out what the waiting operations stop. -/
theorem Matches.listDeletionsHandler (m : Matches config base t g) (waits : Waits t g) :
    Matches config base t.listDeletionsHandler g.strikeAll := by
  -- The queues are only read, so they stand for the operations that wait throughout.
  have both : t.OnlyList t.listDeletionsHandler ∧
      Matches config base t.listDeletionsHandler g.strikeAll := by
    unfold AppTimer.listDeletionsHandler Agenda.strikeAll
    refine List.foldl_rel (r := fun t' entries =>
      t.OnlyList t' ∧ Matches config base t' { g with entries := entries }) ⟨.refl t, m⟩ ?_
    intro userId _ t' entries ⟨only, m⟩
    refine ⟨only.trans (.foldl AppTimer.deleteOp_onlyList _ t'), ?_⟩
    unfold AppTimer.deleteOpsOf Agenda.strikeOf
    rw [only.same.1, waits userId, List.foldl_map]
    exact List.foldl_rel (r := fun t' entries => Matches config base t'
      { g with entries := entries }) m fun op _ t' entries m => m.deleteOp op
  exact both.2

/-! ### Expiries -/

/-- The periodic timers that are due by a time, the last one first. -/
def Agenda.again (g : Agenda H C n) (time : Nat) : List (Fin n × Nat) :=
  (Agenda.dueBy time g.entries).reverse.filter fun entry => decide (g.period entry.1 ≠ 0)

/-- A periodic timer that can be inserted again, counting from when it was due. -/
structure Ready (t : AppTimer H C n cap) (latest : Nat) (p : Fin n × Nat) : Prop where
  fresh : p.1 ∉ t.running
  atStart : (t.nodes p.1).ticksAtStart = counterAt p.2
  interval : (t.nodes p.1).ticksFirstInterval = (t.nodes p.1).ticksPeriodicInterval
  past : latest ≤ p.2 + counterRange / 2
  due : p.2 ≤ latest

/-- Expiries strike out what is due by then, and leave the periodic timers to be inserted. -/
theorem Matches.expireTimers (m : Matches config base t g) {ticksElapsed : UInt32} {time : Nat}
    (after : time = base + ticksElapsed.toNat) (near : ticksElapsed.toNat ≤ counterRange / 2) :
    Matches config time (t.expireTimers (counterAt base) (some ticksElapsed)).1
        { g with entries := Agenda.dueAfter time g.entries, latest := time, handed := none } ∧
      (t.expireTimers (counterAt base) (some ticksElapsed)).2 =
        (g.again time).map Prod.fst ∧
      ∀ p ∈ g.again time,
        Ready (t.expireTimers (counterAt base) (some ticksElapsed)).1 time p := by
  -- The loop takes off what is due, and the agenda keeps the entries that are due after.
  have listed := m.listed.expireTimers (counterAt base) (some ticksElapsed)
  have result := AppTimer.expires t.nodes (counterAt base) base ticksElapsed 0 [] t.running
    m.listed.nodup
  have sorted := DeltaList.pairwise_dues base (gaps t.nodes t.running)
  have periods : g.period = fun timerId => (t.nodes timerId).ticksPeriodicInterval :=
    funext m.period
  -- The loop collects the periodic timers in front, so the last one comes first.
  have restart : (t.expireTimers (counterAt base) (some ticksElapsed)).2 =
      (g.again time).map Prod.fst := by
    simp only [AppTimer.expireTimers, result.restart, Agenda.again, Agenda.dueBy, m.entries,
      DeltaList.takeWhile_eq_filter sorted, periods, after, List.append_nil, List.filter_map,
      List.filter_reverse, List.map_reverse]
    rfl
  refine ⟨⟨listed.listed, ?_, ?_, fun timerId => ?_, m.short, fun timerId => ?_⟩, restart, ?_⟩
  · simp only [AppTimer.expireTimers, result.advance, after, DeltaList.dues_advance,
      DeltaList.dropWhile_eq_filter sorted, m.entries, Agenda.dueAfter]
  · intro p member
    have bound := m.near p (List.mem_of_mem_filter member)
    omega
  · exact (m.period timerId).trans (result.kept timerId).2.1.symm
  · exact (m.context timerId).trans (result.kept timerId).2.2.symm
  · intro p member
    -- A periodic timer counts on from when it was due, not from when it was handled.
    have fresh := listed.apart p.1 (by rw [restart]; exact List.mem_map_of_mem member)
    simp only [Agenda.again, Agenda.dueBy, m.entries, List.mem_filter, List.mem_reverse,
      decide_eq_true_eq] at member
    obtain ⟨⟨entry, due⟩, periodic⟩ := member
    have later : base ≤ p.2 := DeltaList.base_le_of_mem_dues entry
    have node := result.due p entry (by omega)
    rw [m.period] at periodic
    have expired : (t.nodes p.1).expireAfter (counterAt base) (0 + UInt32.ofNat (p.2 - base)) =
        { t.nodes p.1 with
          ticksToExpire := 0
          isRunning := false
          ticksAtStart := counterAt p.2
          ticksFirstInterval := (t.nodes p.1).ticksPeriodicInterval } := by
      -- The counter value at which the timer was due is counted from the one before.
      have atDue := counterAt_add base (p.2 - base)
      rw [Nat.add_sub_cancel' later] at atDue
      simp only [TimerNode.expireAfter, if_pos periodic, UInt32.zero_add, atDue]
    rw [expired] at node
    exact ⟨fresh, congrArg TimerNode.ticksAtStart node,
      (congrArg TimerNode.ticksFirstInterval node).trans
        (congrArg TimerNode.ticksPeriodicInterval node).symm, by omega, due⟩

/-! ### Insertions -/

/-- An inserted timer has its entry at the end of its interval, or at once if that is over. -/
theorem Matches.insertTimer (m : Matches config g.latest t g)
    (latest : t.ticksLatest = counterAt g.latest) {timerId : Fin n} {started : Nat}
    {interval : UInt32} (fresh : timerId ∉ t.running)
    (atStart : (t.nodes timerId).ticksAtStart = counterAt started)
    (first : (t.nodes timerId).ticksFirstInterval = interval) (short : Short interval)
    (past : g.latest ≤ started + counterRange / 2)
    (future : started + 1 < g.latest + counterRange / 2) :
    Matches config g.latest (t.insertTimer timerId) (g.schedule timerId started interval) := by
  -- The ticks to wait are counted from the last known counter value, as those of the list are.
  have ticks := AppTimer.toNat_ticksFromLatest atStart past future (by rw [first]; exact short)
  -- The inserted node is marked first, which does not show in the list.
  have unmarked : gaps (AppTimer.begin t.nodes timerId) t.running = gaps t.nodes t.running :=
    gaps_modify t.nodes fresh _
  have inserted : gaps (t.insertTimer timerId).nodes (t.insertTimer timerId).running =
      DeltaList.insert timerId (AppTimer.ticksFromLatest t.ticksLatest (t.nodes timerId)).toNat
        (gaps (AppTimer.begin t.nodes timerId) t.running) :=
    gaps_timerListInsert (AppTimer.begin t.nodes timerId) timerId _ t.running m.listed.nodup fresh
  have due : g.latest + (AppTimer.ticksFromLatest t.ticksLatest (t.nodes timerId)).toNat =
      max (started + interval.toNat) g.latest := by
    rw [latest, ticks, first]
    omega
  refine ⟨m.listed.insertTimer fresh, ?_, ?_, fun other => ?_, m.short, fun other => ?_⟩
  · rw [inserted, unmarked, DeltaList.dues_insert, ← m.entries, due]
    rfl
  · intro p member
    rcases (List.mem_orderedInsert _).mp member with rfl | member
    · show max (started + interval.toNat) g.latest < g.latest + 2 ^ 32
      unfold Short at short
      omega
    · exact m.near p member
  · exact (m.period other).trans (AppTimer.insertTimer_kept t timerId other).2.1.symm
  · exact (m.context other).trans (AppTimer.insertTimer_kept t timerId other).2.2.symm

/-- The other timers that can be inserted still can. -/
theorem Ready.insertTimer {latest : Nat} {p : Fin n × Nat} (ready : Ready t latest p)
    {timerId : Fin n} (apart : p.1 ≠ timerId) : Ready (t.insertTimer timerId) latest p := by
  -- Nothing but the ticks to wait can have changed about another timer.
  obtain ⟨ticks, node⟩ := AppTimer.insertTimer_other t apart
  refine ⟨?_, ?_, ?_, ready.past, ready.due⟩
  · rw [(AppTimer.insertTimer_perm t timerId).mem_iff, List.mem_cons, not_or]
    exact ⟨apart, ready.fresh⟩
  · rw [node]
    exact ready.atStart
  · rw [node]
    exact ready.interval

/-- The periodic timers get their entries for the next time. -/
theorem Matches.restart (m : Matches config g.latest t g)
    (latest : t.ticksLatest = counterAt g.latest) {entries : List (Fin n × Nat)}
    (nodup : (entries.map Prod.fst).Nodup) (ready : ∀ p ∈ entries, Ready t g.latest p) :
    Matches config g.latest ((entries.map Prod.fst).foldl AppTimer.insertTimer t)
      (entries.foldl (fun g p => g.schedule p.1 p.2 (g.period p.1)) g) := by
  -- One timer is inserted after the other; those that follow are still apart from the list.
  induction entries generalizing t g with
  | nil => exact m
  | cons p rest ih =>
    obtain ⟨once, nodup⟩ := List.nodup_cons.mp nodup
    have here := ready p List.mem_cons_self
    have interval := here.interval.trans (m.period p.1).symm
    have due := here.due
    have inserted := m.insertTimer latest here.fresh here.atStart interval (m.short p.1)
      here.past (by unfold counterRange; omega)
    refine ih (g := g.schedule p.1 p.2 (g.period p.1)) inserted latest nodup fun q member => ?_
    have apart : q.1 ≠ p.1 := fun same => once (same ▸ List.mem_map_of_mem member)
    exact (ready q (List.mem_cons_of_mem _ member)).insertTimer apart

/-- A timer that has no entry takes over what a start asks for. -/
theorem Matches.configure (m : Matches config g.latest t g) {timerId : Fin n}
    (fresh : timerId ∉ t.running) (ticksAtStart interval : UInt32) {period : UInt32}
    (short : Short period) (context : C) :
    Matches config g.latest (t.configure timerId ticksAtStart interval period context)
      { g with
        period := Function.update g.period timerId period
        context := Function.update g.context timerId context } := by
  -- The timer is not in the list, so its new interval does not show there yet.
  refine ⟨m.listed.configure timerId ticksAtStart interval period context, ?_, m.near, ?_, ?_, ?_⟩
  · rw [m.entries]
    congr 1
    exact (gaps_modify t.nodes fresh _).symm
  · intro other
    by_cases same : other = timerId
    · subst same
      simp [AppTimer.configure]
    · simp [AppTimer.configure, TimerNodes.modify_of_ne _ same, same, m.period]
  · intro other
    by_cases same : other = timerId
    · subst same
      simpa using short
    · simpa [same] using m.short other
  · intro other
    by_cases same : other = timerId
    · subst same
      simp [AppTimer.configure]
    · simp [AppTimer.configure, TimerNodes.modify_of_ne _ same, same, m.context]

/-- A start enters its timer, unless it has an entry already. -/
theorem Matches.insertOp (m : Matches config g.latest t g)
    (latest : t.ticksLatest = counterAt g.latest) (op : AgendaOp C n) (near : op.Near g.latest) :
    Matches config g.latest (t.insertOp op.queued) (g.begin op) := by
  cases op with
  | start timerId called interval period context =>
    -- A start that was called near the last known counter value says when its interval is over.
    obtain ⟨past, future, short, shortPeriod⟩ := near
    simp only [AgendaOp.queued, AppTimer.insertOp, Agenda.begin, m.names]
    by_cases runs : (t.nodes timerId).isRunning = true
    · -- A timer that runs already is left as it is, as in the source.
      rw [if_pos runs, if_pos ((m.listed.isRunning timerId).mp runs)]
      exact m
    · have fresh := m.listed.fresh (Bool.eq_false_of_not_eq_true runs)
      rw [if_neg runs, if_neg fresh]
      refine Matches.insertTimer (g := { g with
        period := Function.update g.period timerId period
        context := Function.update g.context timerId context })
        (m.configure fresh _ _ shortPeriod _) latest fresh ?_ ?_ short past future
      · simp [AppTimer.configure]
      · simp [AppTimer.configure]
  | stop => exact m
  | stopAll => exact m

/-! ### The update of the agenda -/

/-- Nothing but the entries and what they were started with has changed. -/
def Agenda.OnlyEntries (g g' : Agenda H C n) : Prop :=
  ∃ entries period context,
    g' = { g with entries := entries, period := period, context := context }

/-- Two changes of the entries alone are one. -/
theorem Agenda.OnlyEntries.trans {g g' g'' : Agenda H C n} (first : g.OnlyEntries g')
    (second : g'.OnlyEntries g'') : g.OnlyEntries g'' := by
  obtain ⟨entries, period, context, rfl⟩ := first
  obtain ⟨entries', period', context', rfl⟩ := second
  exact ⟨entries', period', context', rfl⟩

/-- Beginning an operation changes the entries alone. -/
theorem Agenda.begin_onlyEntries (g : Agenda H C n) (op : AgendaOp C n) :
    g.OnlyEntries (g.begin op) := by
  -- A start that finds its timer running changes nothing, any other enters it.
  cases op with
  | start timerId called interval period context =>
    simp only [Agenda.begin]
    split
    · exact ⟨_, _, _, rfl⟩
    · exact ⟨_, _, _, rfl⟩
  | stop => exact ⟨_, _, _, rfl⟩
  | stopAll => exact ⟨_, _, _, rfl⟩

/-- Entering timers again only changes the entries. -/
theorem Agenda.schedule_onlyEntries (g : Agenda H C n) (entries : List (Fin n × Nat)) :
    g.OnlyEntries (entries.foldl (fun g p => g.schedule p.1 p.2 (g.period p.1)) g) :=
  List.foldlRecOn (motive := g.OnlyEntries) entries _ ⟨_, _, _, rfl⟩ fun _ only _ _ =>
    only.trans ⟨_, _, _, rfl⟩

/-- What holds of all operations that wait still does when those of one user are replaced. -/
theorem Agenda.ops_update {P : AgendaOp C n → Prop} {ops : TimerUserId → List (AgendaOp C n)}
    (all : ∀ userId, ∀ op ∈ ops userId, P op) (userId : TimerUserId)
    {replaced : List (AgendaOp C n)} (new : ∀ op ∈ replaced, P op) :
    ∀ other, ∀ op ∈ Function.update ops userId replaced other, P op := by
  intro other op member
  by_cases here : other = userId
  · subst here
    rw [Function.update_self] at member
    exact new op member
  · rw [Function.update_of_ne here] at member
    exact all other op member

/-- One more operation that waits has to have the property, too. -/
theorem Agenda.ops_append {P : AgendaOp C n → Prop} {ops : TimerUserId → List (AgendaOp C n)}
    (all : ∀ userId, ∀ op ∈ ops userId, P op) (userId : TimerUserId) {op : AgendaOp C n}
    (here : P op) :
    ∀ other, ∀ op' ∈ Function.update ops userId (ops userId ++ [op]) other, P op' := by
  refine ops_update all userId fun op' member => ?_
  rcases List.mem_append.mp member with earlier | last
  · exact all userId op' earlier
  · rw [List.mem_singleton.mp last]
    exact here

/-- The list stands for the agenda while the waiting operations are carried out. -/
structure Updating (config : Fin n → TimerConfig H) (t : AppTimer H C n cap)
    (g : Agenda H C n) : Prop where
  matches_ : Matches config g.latest t g
  ticksLatest : t.ticksLatest = counterAt g.latest
  waits : Waits t g
  near : ∀ userId, ∀ op ∈ g.ops userId, op.Near g.latest

/-- Carrying out the operations of one user takes them from its queue. -/
theorem Updating.insertOpsOf (u : Updating config t g) (userId : TimerUserId) :
    Updating config (t.insertOpsOf userId) (g.beginOf userId) := by
  -- Both sides go through the operations of the user in their order.
  have all : t.OnlyList ((t.users userId).contents.foldl AppTimer.insertOp t) ∧
      g.OnlyEntries ((g.ops userId).foldl Agenda.begin g) ∧
      Matches config g.latest ((t.users userId).contents.foldl AppTimer.insertOp t)
        ((g.ops userId).foldl Agenda.begin g) := by
    rw [u.waits userId, List.foldl_map]
    refine List.foldl_rel (r := fun t' g' =>
      t.OnlyList t' ∧ g.OnlyEntries g' ∧ Matches config g.latest t' g')
      ⟨.refl t, ⟨_, _, _, rfl⟩, u.matches_⟩ ?_
    intro op member t' g' ⟨only, onlyEntries, m⟩
    have here := g'.begin_onlyEntries op
    refine ⟨only.trans (t'.insertOp_onlyList op.queued), onlyEntries.trans here, ?_⟩
    -- The last known counter value stays the same while operations are carried out.
    have latest : g'.latest = g.latest := by
      obtain ⟨_, _, _, rfl⟩ := onlyEntries
      rfl
    rw [← latest] at m ⊢
    refine m.insertOp ?_ op ?_
    · rw [only.same.2.1, u.ticksLatest, latest]
    · rw [latest]
      exact u.near userId op member
  obtain ⟨only, onlyEntries, m⟩ := all
  unfold AppTimer.insertOpsOf Agenda.beginOf
  simp only
  generalize (t.users userId).contents.foldl AppTimer.insertOp t = t' at only m ⊢
  generalize (g.ops userId).foldl Agenda.begin g = g' at onlyEntries m ⊢
  obtain ⟨entries, period, context, rfl⟩ := onlyEntries
  refine ⟨m.of_same rfl rfl rfl rfl rfl, only.same.2.1.trans u.ticksLatest, fun other => ?_,
    Agenda.ops_update u.near userId fun op member => absurd member List.not_mem_nil⟩
  -- The queue of the user is empty, and the others hold what they did.
  by_cases same : other = userId
  · subst same
    simp [RingBuffer.contents]
  · simpa [same, only.same.1] using u.waits other

/-- The ticks that are handed over lead to the time of the last timeout passed on. -/
def Hands (t : AppTimer H C n cap) (g : Agenda H C n) : Prop :=
  match g.handed with
  | none => t.ticksElapsedQReadInd = t.ticksElapsedQWriteInd
  | some time => t.ticksElapsedQReadInd ≠ t.ticksElapsedQWriteInd ∧
    g.latest ≤ time ∧ time ≤ g.now ∧
    t.ticksElapsed t.ticksElapsedQWriteInd = UInt32.ofNat (time - g.latest)

/-- The next of two entries is the only other one. -/
theorem next_index {readInd writeInd : Fin 2} (apart : readInd ≠ writeInd) :
    readInd + 1 = writeInd := by
  revert readInd writeInd
  decide

/-- Acquiring the elapsed ticks moves the last known counter value to what was passed on. -/
theorem Hands.elapsedTicksAcquire (hands : Hands t g)
    (latest : t.ticksLatest = counterAt g.latest) (inTime : g.now < g.latest + counterRange / 2) :
    (g.handed = none ∧ t.elapsedTicksAcquire = (none, t)) ∨
      ∃ time ticksElapsed, g.handed = some time ∧ g.latest ≤ time ∧ time ≤ g.now ∧
        time = g.latest + ticksElapsed.toNat ∧ ticksElapsed.toNat ≤ counterRange / 2 ∧
        t.elapsedTicksAcquire = (some ticksElapsed, { t with
          ticksElapsedQReadInd := t.ticksElapsedQWriteInd
          ticksLatest := counterAt time }) := by
  -- Either nothing has been handed over, or the ticks lead from the one time to the other.
  unfold Hands at hands
  cases handed : g.handed with
  | none =>
    rw [handed] at hands
    exact .inl ⟨rfl, by simp [AppTimer.elapsedTicksAcquire, hands]⟩
  | some time =>
    rw [handed] at hands
    obtain ⟨apart, later, past, ticks⟩ := hands
    -- The ticks handed over are few enough to be read off the counter.
    have bound : time - g.latest < counterRange / 2 := by omega
    have range : counterRange = 2 ^ 24 := rfl
    have value : (UInt32.ofNat (time - g.latest)).toNat = time - g.latest :=
      UInt32.toNat_ofNat_of_lt' (by unfold UInt32.size; omega)
    refine .inr ⟨time, UInt32.ofNat (time - g.latest), rfl, later, past, ?_, ?_, ?_⟩
    · omega
    · omega
    · -- The two entries of the queue are the one that was read and the one that was written.
      have goesOn := counterAt_add g.latest (time - g.latest)
      rw [Nat.add_sub_cancel' later] at goesOn
      simp [AppTimer.elapsedTicksAcquire, apart, next_index apart, ticks, latest, goesOn]

namespace AppTimer

/-- The list after deletions and expiries, with the periodic timers inserted again. -/
def workedOff (t : AppTimer H C n cap) : AppTimer H C n cap :=
  let acquired := t.elapsedTicksAcquire
  let expired := acquired.2.listDeletionsHandler.expireTimers t.ticksLatest acquired.1
  expired.2.foldl insertTimer expired.1

/-- The insertions come behind everything else. -/
theorem updatedList_eq (t : AppTimer H C n cap) :
    t.updatedList = usersInTurn.foldl insertOpsOf t.workedOff := rfl

/-- Whatever is acquired, only the list changes from then on. -/
theorem workedOff_onlyList (t : AppTimer H C n cap) :
    t.elapsedTicksAcquire.2.OnlyList t.workedOff :=
  ((listDeletionsHandler_onlyList _).trans (expireTimers_onlyList _ _ _)).trans
    (.foldl insertTimer_onlyList _ _)

end AppTimer

/-- No timer has two entries. -/
theorem Matches.nodup (m : Matches config base t g) : (g.entries.map Prod.fst).Nodup := by
  rw [m.names]
  exact m.listed.nodup

/-- Once deletions and expiries are done, the periodic timers are back on the agenda. -/
theorem Matches.workOff (m : Matches config g.latest t g)
    (latest : t.ticksLatest = counterAt g.latest) (waits : Waits t g) (hands : Hands t g)
    (order : g.latest ≤ g.now) (inTime : g.now < g.latest + counterRange / 2) :
    Matches config g.strikeAll.workOff.latest t.workedOff g.strikeAll.workOff ∧
      t.workedOff.ticksLatest = counterAt g.strikeAll.workOff.latest ∧
      g.strikeAll.workOff.ops = g.ops ∧
      g.latest ≤ g.strikeAll.workOff.latest ∧ g.strikeAll.workOff.latest ≤ g.now := by
  -- Deletions come before expiries, so what is stopped does not expire any more.
  have only := t.workedOff_onlyList
  rcases hands.elapsedTicksAcquire latest inTime with ⟨none_, acquired⟩ |
    ⟨time, ticksElapsed, handed, later, past, after, short, acquired⟩
  · -- Nothing was handed over, so only the deletions count.
    have kept : g.strikeAll.workOff = g.strikeAll := by
      simp only [Agenda.workOff, Agenda.strikeAll, none_]
    rw [kept]
    rw [acquired] at only
    refine ⟨?_, only.same.2.1.trans latest, rfl, le_refl _, order⟩
    simp only [AppTimer.workedOff, acquired, AppTimer.expireTimers, List.foldl_nil]
    exact m.listDeletionsHandler waits
  · rw [acquired] at only
    -- Acquiring the ticks moves the last known counter value and nothing in the list.
    have acquired_ : Matches config g.latest { t with
        ticksElapsedQReadInd := t.ticksElapsedQWriteInd, ticksLatest := counterAt time } g :=
      m.of_same rfl rfl rfl rfl rfl
    have deleted := acquired_.listDeletionsHandler waits
    have onlyDeleted := AppTimer.listDeletionsHandler_onlyList { t with
      ticksElapsedQReadInd := t.ticksElapsedQWriteInd, ticksLatest := counterAt time }
    -- What is due by the time handed over expires, and the rest waits on.
    obtain ⟨expired, restart, ready⟩ := deleted.expireTimers after short
    have onlyExpired := onlyDeleted.trans
      (AppTimer.expireTimers_onlyList _ (counterAt g.latest) (some ticksElapsed))
    -- The periodic timers are taken from the entries that are due.
    have nodup : ((g.strikeAll.again time).map Prod.fst).Nodup := by
      rw [← restart]
      exact (deleted.listed.expireTimers _ _).nodup
    have kept : g.strikeAll.workOff = (g.strikeAll.again time).foldl
        (fun g p => g.schedule p.1 p.2 (g.period p.1)) { g.strikeAll with
          entries := Agenda.dueAfter time g.strikeAll.entries, latest := time, handed := none } := by
      simp only [Agenda.workOff, Agenda.strikeAll, handed]
      rfl
    have workedOff : t.workedOff = ((g.strikeAll.again time).map Prod.fst).foldl
        AppTimer.insertTimer ((AppTimer.listDeletionsHandler { t with
          ticksElapsedQReadInd := t.ticksElapsedQWriteInd
          ticksLatest := counterAt time }).expireTimers (counterAt g.latest)
            (some ticksElapsed)).1 := by
      simp only [AppTimer.workedOff, acquired, latest, restart]
    have onlyEntries := Agenda.schedule_onlyEntries { g.strikeAll with
      entries := Agenda.dueAfter time g.strikeAll.entries, latest := time, handed := none }
      (g.strikeAll.again time)
    -- They are entered again one by one, each from the time at which it was due.
    have restarted := Matches.restart (g := { g.strikeAll with
      entries := Agenda.dueAfter time g.strikeAll.entries, latest := time, handed := none })
      expired onlyExpired.same.2.1 nodup ready
    rw [← kept, ← workedOff] at restarted
    rw [← kept] at onlyEntries
    obtain ⟨entries, period, context, result⟩ := onlyEntries
    have atTime : g.strikeAll.workOff.latest = time := by rw [result]
    rw [atTime]
    exact ⟨restarted, only.same.2.1, by rw [result]; rfl, later, past⟩

namespace Agenda

/-- Beginning the operations of one user only takes them from those that wait. -/
theorem beginOf_frame (g : Agenda H C n) (userId : TimerUserId) :
    (g.beginOf userId).now = g.now ∧ (g.beginOf userId).latest = g.latest ∧
      (g.beginOf userId).handed = g.handed ∧ (g.beginOf userId).passed = g.passed ∧
      (g.beginOf userId).ops = Function.update g.ops userId [] := by
  -- An operation that is begun changes entries, periods and contexts alone.
  have only : g.OnlyEntries ((g.ops userId).foldl begin g) :=
    List.foldlRecOn (motive := g.OnlyEntries) _ begin ⟨_, _, _, rfl⟩ fun g' only op _ =>
      only.trans (g'.begin_onlyEntries op)
  obtain ⟨entries, period, context, result⟩ := only
  simp only [beginOf, result, and_self]

/-- Users that have had their turn have no operations waiting. -/
theorem foldl_beginOf_frame (g : Agenda H C n) (users : List TimerUserId) :
    (users.foldl beginOf g).now = g.now ∧ (users.foldl beginOf g).latest = g.latest ∧
      (users.foldl beginOf g).handed = g.handed ∧ (users.foldl beginOf g).passed = g.passed ∧
      ∀ userId, userId ∈ users ∨ g.ops userId = [] → (users.foldl beginOf g).ops userId = [] := by
  -- The users have their turns one after the other.
  induction users generalizing g with
  | nil => simp
  | cons first rest ih =>
    obtain ⟨now, latest, handed, passed, ops⟩ := g.beginOf_frame first
    obtain ⟨now', latest', handed', passed', ops'⟩ := ih (g.beginOf first)
    refine ⟨now'.trans now, latest'.trans latest, handed'.trans handed, passed'.trans passed,
      fun userId done => ops' userId ?_⟩
    -- The first user has nothing waiting any more, and the others as much as before.
    by_cases here : userId = first
    · subst here
      rw [ops, Function.update_self]
      exact .inr rfl
    · rw [ops, Function.update_of_ne here]
      rcases done with member | nothing
      · exact .inl (List.mem_of_ne_of_mem here member)
      · exact .inr nothing

/-- Working off what has been passed on leaves nothing handed over. -/
theorem workOff_frame (g : Agenda H C n) :
    g.workOff.now = g.now ∧ g.workOff.handed = none ∧ g.workOff.passed = g.passed ∧
      g.workOff.ops = g.ops := by
  -- If nothing was handed over, nothing is done.
  unfold workOff
  split
  · rename_i nothing
    exact ⟨rfl, nothing, rfl, rfl⟩
  · rename_i time _
    obtain ⟨entries, period, context, result⟩ := schedule_onlyEntries
      { g with entries := dueAfter time g.entries, latest := time, handed := none } (g.again time)
    simp only [again] at result
    rw [result]
    exact ⟨rfl, rfl, rfl, rfl⟩

/-- Time that passes changes nothing on the agenda. -/
theorem wait_frame (g : Agenda H C n) (ticks : Nat) :
    (g.wait ticks).entries = g.entries ∧ (g.wait ticks).latest = g.latest ∧
      (g.wait ticks).handed = g.handed ∧ g.now ≤ (g.wait ticks).now ∧
      (g.wait ticks).now ≤ g.now + ticks := by
  -- Tick by tick, and none at all while there is no entry.
  induction ticks with
  | zero => exact ⟨rfl, rfl, rfl, le_refl _, le_refl _⟩
  | succ ticks ih =>
    obtain ⟨entries, latest, handed, now, bound⟩ := ih
    unfold wait tick
    split
    · exact ⟨entries, latest, handed, now, by omega⟩
    · exact ⟨entries, latest, handed, now.trans (Nat.le_succ _), Nat.succ_le_succ bound⟩

/-- An update leaves no operation waiting, and nothing handed over. -/
theorem update_frame (g : Agenda H C n) :
    g.update.now = g.now ∧ g.update.latest = g.strikeAll.workOff.latest ∧
      g.update.handed = none ∧ g.update.passed = g.passed ∧ ∀ userId, g.update.ops userId = [] := by
  obtain ⟨now, handed, passed, -⟩ := g.strikeAll.workOff_frame
  obtain ⟨now', latest', handed', passed', ops⟩ :=
    foldl_beginOf_frame g.strikeAll.workOff AppTimer.usersInTurn
  -- Every user has a turn.
  have everyone : ∀ userId, userId ∈ AppTimer.usersInTurn := by decide
  exact ⟨now'.trans now, latest', handed'.trans handed, passed'.trans passed,
    fun userId => ops userId (.inl (everyone userId))⟩

end Agenda

namespace AppTimer

/-- Once the elapsed ticks are acquired, none are left in their queue. -/
theorem elapsedTicksAcquire_indices (t : AppTimer H C n cap) :
    t.elapsedTicksAcquire.2.ticksElapsedQReadInd =
      t.elapsedTicksAcquire.2.ticksElapsedQWriteInd := by
  unfold elapsedTicksAcquire
  split
  · rename_i apart
    exact next_index apart
  · rename_i same
    exact not_not.mp same

/-- Insertions leave the double buffer of elapsed ticks alone. -/
theorem insertOpsOf_indices (t : AppTimer H C n cap) (userId : TimerUserId) :
    (t.insertOpsOf userId).ticksElapsedQReadInd = t.ticksElapsedQReadInd ∧
      (t.insertOpsOf userId).ticksElapsedQWriteInd = t.ticksElapsedQWriteInd :=
  (OnlyList.foldl insertOp_onlyList (t.users userId).contents t).same.2.2.2.2

/-- Behind its three stages, the list handler only sets the compare register. -/
theorem timerListHandler_rtc (t : AppTimer H C n cap) (preCounter postCounter : UInt32) :
    t.timerListHandler preCounter postCounter =
      { t.updatedList with rtc := (t.timerListHandler preCounter postCounter).rtc } := by
  -- Whether the compare register is set depends on the heads of the list.
  rw [timerListHandler_eq]
  generalize t.updatedList = updated
  split
  · exact compareRegUpdate_eq updated _ _ _
  · rfl

/-- The list handler takes whatever has been handed over. -/
theorem updatedList_indices (t : AppTimer H C n cap) :
    t.updatedList.ticksElapsedQReadInd = t.updatedList.ticksElapsedQWriteInd := by
  obtain ⟨-, -, -, -, readInd, writeInd⟩ := t.workedOff_onlyList.same
  simp only [updatedList_eq, usersInTurn, List.foldl_cons, List.foldl_nil, insertOpsOf_indices,
    readInd, writeInd, elapsedTicksAcquire_indices]

end AppTimer

/-! ### The module keeps its agenda -/

/-- The module on its counter stands for an agenda. -/
structure KeepsAgenda (config : Fin n → TimerConfig H) (s : TimedTimer H C n cap)
    (g : Agenda H C n) : Prop where
  sound : s.timer.Sound config
  matches_ : Matches config g.latest s.timer g
  ticksLatest : s.timer.ticksLatest = counterAt g.latest
  waits : Waits s.timer g
  within : ∀ userId, ∀ op ∈ g.ops userId, op.Within g.latest g.now
  hands : Hands s.timer g
  order : g.latest ≤ g.now
  now : g.now = s.now
  passed : g.passed = s.passed

/-- The list handler brings the agenda up to date. -/
theorem KeepsAgenda.updates {s : TimedTimer H C n cap} (r : KeepsAgenda config s g)
    (inTime : g.now + 1 < g.latest + counterRange / 2) :
    Updating config s.timer.updatedList g.update ∧ g.latest ≤ g.update.latest ∧
      g.update.latest ≤ g.now := by
  obtain ⟨m, latest, ops, later, past⟩ := r.matches_.workOff r.ticksLatest r.waits r.hands r.order
    (by omega)
  -- The operations that wait were called within half the counter range.
  have users : s.timer.workedOff.users = s.timer.users :=
    s.timer.workedOff_onlyList.same.1.trans s.timer.elapsedTicksAcquire_list.2.2.2
  have first : Updating config s.timer.workedOff g.strikeAll.workOff := by
    refine ⟨m, latest, ?_, ?_⟩
    · intro userId
      rw [users, ops]
      exact r.waits userId
    · intro userId op member
      rw [ops] at member
      have within := r.within userId op member
      cases op with
      | start timerId called interval period context =>
        obtain ⟨earliest, latest_, short, shortPeriod⟩ := within
        exact ⟨by omega, by omega, short, shortPeriod⟩
      | stop => trivial
      | stopAll => trivial
  rw [g.update_frame.2.1]
  -- The users carry out their operations in the same order on both sides.
  refine ⟨?_, later, past⟩
  rw [AppTimer.updatedList_eq]
  exact List.foldl_rel (r := Updating config) first fun userId _ _ _ u => u.insertOpsOf userId

section

variable {s : TimedTimer H C n cap}

/-- The agenda does not depend on which interrupts are pending. -/
theorem KeepsAgenda.pending (r : KeepsAgenda config s g) (rtc1Pending swi0Pending : Bool) :
    KeepsAgenda config { s with timer := { s.timer with rtc := { s.timer.rtc with
      rtc1Pending := rtc1Pending, swi0Pending := swi0Pending } } } g :=
  ⟨r.sound.pending rtc1Pending swi0Pending, r.matches_.of_same rfl rfl rfl rfl rfl,
    r.ticksLatest, r.waits, r.within, r.hands, r.order, r.now, r.passed⟩

/-- Nor does it depend on when the compare register was written. -/
theorem KeepsAgenda.rewritten (r : KeepsAgenda config s g) (written : Nat) :
    KeepsAgenda config { s with written := written } g :=
  ⟨r.sound, r.matches_, r.ticksLatest, r.waits, r.within, r.hands, r.order, r.now, r.passed⟩

/-- One tick later, the agenda still stands as it is. -/
theorem KeepsAgenda.later (r : KeepsAgenda config s g) :
    KeepsAgenda config { s with now := s.now + 1 } { g with now := g.now + 1 } := by
  refine ⟨r.sound, r.matches_.of_same rfl rfl rfl rfl rfl, r.ticksLatest, r.waits,
    fun userId op member => ?_, ?_, r.order.trans (Nat.le_add_right _ _), congrArg (· + 1) r.now,
    r.passed⟩
  · -- The operations that wait have been called in the past, which they still have.
    have within := r.within userId op member
    cases op with
    | start timerId called interval period context =>
      obtain ⟨earliest, latest, short, shortPeriod⟩ := within
      exact ⟨earliest, latest.trans (Nat.le_add_right _ _), short, shortPeriod⟩
    | stop => trivial
    | stopAll => trivial
  · -- The time that was handed over has passed, and stays where it is.
    have hands := r.hands
    unfold Hands at hands ⊢
    cases handed : g.handed with
    | none => simpa [handed] using hands
    | some time =>
      simp only [handed] at hands
      obtain ⟨apart, later, past, ticksElapsed⟩ := hands
      exact ⟨apart, later, past.trans (Nat.le_add_right _ _), ticksElapsed⟩

/-- The list is empty exactly if the agenda is. -/
theorem KeepsAgenda.running_eq_nil (r : KeepsAgenda config s g) :
    s.timer.running = [] ↔ g.entries = [] := by
  rw [← r.matches_.names, List.map_eq_nil_iff]

/-- The first timer in the list is that of the first entry. -/
theorem KeepsAgenda.running_of_cons (r : KeepsAgenda config s g) {entry : Fin n × Nat}
    {rest : List (Fin n × Nat)} (entries : g.entries = entry :: rest) :
    s.timer.running = entry.1 :: rest.map Prod.fst := by
  rw [← r.matches_.names, entries, List.map_cons]

/-- The counter has been started exactly if there are entries. -/
theorem KeepsAgenda.started (r : KeepsAgenda config s g) :
    s.timer.rtc.started = !g.entries.isEmpty := by
  rw [r.sound.started, ← r.matches_.names, List.isEmpty_map]

/-- The counter ticks as long as there are entries. -/
theorem KeepsAgenda.tick (r : KeepsAgenda config s g) (missed : Bool) :
    KeepsAgenda config (s.tick missed) g.tick := by
  have started := r.started
  unfold TimedTimer.tick Agenda.tick
  -- Without entries the counter stands, in the module and on the agenda.
  cases entries : g.entries with
  | nil =>
    rw [entries, List.isEmpty_nil, Bool.not_true] at started
    simp only [started, Bool.false_eq_true, if_false]
    exact r
  | cons entry rest =>
    rw [entries, List.isEmpty_cons, Bool.not_false] at started
    simp only [started, if_true]
    have ticked := r.later.pending (s.timer.rtc.rtc1Pending ||
      (s.timer.rtc.compare0 == counterAt (s.now + 1) &&
        !(missed && decide (s.now + 1 ≤ s.written + 1)))) s.timer.rtc.swi0Pending
    simp only [started, entries] at ticked
    exact ticked

/-- Any number of ticks later the module still keeps the agenda. -/
theorem KeepsAgenda.wait (r : KeepsAgenda config s g) (ticks : Nat) :
    KeepsAgenda config (s.wait ticks) (g.wait ticks) := by
  induction ticks with
  | zero => exact r
  | succ ticks ih => exact ih.tick false

/-- An operation waits on the agenda if there is room for it in its queue. -/
theorem KeepsAgenda.opSchedule (r : KeepsAgenda config s g) (userId : TimerUserId)
    (op : AgendaOp C n) (within : op.Within g.latest g.now) :
    KeepsAgenda config { s with timer := (s.timer.opSchedule userId op.queued).2 }
      (g.await cap userId op) := by
  -- The queue has as many operations as wait on the agenda, so both are full at once.
  have length : (s.timer.users userId).contents.length = (g.ops userId).length := by
    rw [r.waits userId, List.length_map]
  unfold AppTimer.opSchedule Agenda.await
  rcases (s.timer.users userId).push_spec op.queued with
    ⟨full, pushed⟩ | ⟨room, queue, pushed, contents⟩
  · rw [length] at full
    rw [pushed, if_neg (by omega)]
    exact r
  · rw [length] at room
    rw [pushed, if_pos room]
    refine ⟨⟨r.sound.listed.of_same rfl rfl, r.sound.started⟩,
      r.matches_.of_same rfl rfl rfl rfl rfl, r.ticksLatest, fun other => ?_,
      Agenda.ops_append r.within userId within, r.hands, r.order, r.now, r.passed⟩
    by_cases same : other = userId
    · subst same
      simp [contents, r.waits other]
    · simpa [same] using r.waits other

/-- With a running timer, the RTC1 interrupt looks for those that expire. -/
theorem timerTimeoutsCheck_eq (t : AppTimer H C n cap) (counter : UInt32) {head : Fin n}
    {rest : List (Fin n)} (running : t.running = head :: rest) :
    t.timerTimeoutsCheck counter =
      ((timersExpiring t.nodes (ticksDiffGet counter t.ticksLatest) 0 t.running).1,
        t.queueTicks
          (timersExpiring t.nodes (ticksDiffGet counter t.ticksLatest) 0 t.running).2) := by
  simp only [AppTimer.timerTimeoutsCheck, running]

/-- Handing over ticks leaves an entry in their queue to be read. -/
theorem queueTicks_indices (t : AppTimer H C n cap) (ticks : UInt32) :
    (t.queueTicks ticks).ticksElapsedQReadInd ≠ (t.queueTicks ticks).ticksElapsedQWriteInd ∧
      (t.queueTicks ticks).ticksElapsed (t.queueTicks ticks).ticksElapsedQWriteInd = ticks := by
  simp only [AppTimer.queueTicks, Function.update_self, and_true]
  split
  · rename_i same
    rw [same]
    exact fun next => absurd next.symm (by simp)
  · assumption

/-- The RTC1 interrupt passes on what is due, and hands over when that was. -/
theorem KeepsAgenda.timerTimeoutsCheck (r : KeepsAgenda config s g)
    (inTime : g.now < g.latest + counterRange) :
    KeepsAgenda config { s with
      timer := (s.timer.timerTimeoutsCheck (counterAt s.now)).2
      passed := s.passed ++ (s.timer.timerTimeoutsCheck (counterAt s.now)).1.map fun event =>
        ⟨s.now, event.1, event.2⟩ } (g.passOn config) := by
  have sound := r.sound.timerTimeoutsCheck (counterAt s.now)
  unfold Agenda.passOn
  split
  · rename_i nothing
    -- Without running timers, the interrupt does nothing.
    simp only [AppTimer.timerTimeoutsCheck, r.running_eq_nil.mpr nothing, List.map_nil,
      List.append_nil]
    exact r
  · rename_i entry rest entries
    have running := r.running_of_cons entries
    -- The ticks since the last known counter value are told apart up to the counter range.
    have elapsed : (ticksDiffGet (counterAt s.now) s.timer.ticksLatest).toNat =
        g.now - g.latest := by
      rw [r.ticksLatest, ← r.now]
      exact ticksDiffGet_counterAt r.order inTime
    have until_ : g.latest + (g.now - g.latest) = g.now := Nat.add_sub_cancel' r.order
    have sorted := DeltaList.pairwise_dues g.latest (gaps s.timer.nodes s.timer.running)
    have expiring := timersExpiring_eq s.timer.nodes g.latest
      (ticksDiffGet (counterAt s.now) s.timer.ticksLatest) 0 s.timer.running
    have spent := DeltaList.base_add_spent g.latest (g.now - g.latest)
      (gaps s.timer.nodes s.timer.running)
    have within := DeltaList.spent_le (g.now - g.latest) (gaps s.timer.nodes s.timer.running)
    rw [elapsed, until_, DeltaList.takeWhile_eq_filter sorted, ← r.matches_.entries,
      UInt32.zero_add] at expiring
    rw [until_, DeltaList.takeWhile_eq_filter sorted, ← r.matches_.entries] at spent
    rw [timerTimeoutsCheck_eq s.timer _ running, expiring] at sound ⊢
    -- From here on only the number of ticks matters, not how it has been found.
    generalize DeltaList.spent (g.now - g.latest) _ = ticks at spent within sound ⊢
    obtain ⟨apart, value⟩ := queueTicks_indices s.timer (UInt32.ofNat ticks)
    refine ⟨sound, r.matches_.of_same rfl rfl rfl rfl rfl, r.ticksLatest, r.waits, r.within, ?_,
      r.order, r.now, ?_⟩
    · -- The ticks lead from the last known counter value to the last entry that is due.
      show _ ∧ _ ∧ _ ∧ _
      simp only [Agenda.dueBy] at spent ⊢
      rw [← spent, value, Nat.add_sub_cancel_left]
      exact ⟨apart, Nat.le_add_right _ _, by omega, rfl⟩
    · show g.passed ++ _ = s.passed ++ _
      rw [r.passed, List.map_map]
      congr 1
      apply List.map_congr_left
      intro p _
      -- A handler is what the timer was created with, and a context what it was started with.
      have handler := congrArg TimerConfig.timeoutHandler (r.sound.listed.config p.1)
      simp only [Function.comp, r.now, ← handler, r.matches_.context p.1, TimerNode.config]

/-- The SWI0 interrupt brings the agenda up to date. -/
theorem KeepsAgenda.timerListHandler (r : KeepsAgenda config s g)
    (inTime : g.now + 1 < g.latest + counterRange / 2) (preCounter postCounter : UInt32) :
    KeepsAgenda config
      { s with timer := s.timer.timerListHandler preCounter postCounter } g.update := by
  -- Setting the compare register comes last, and is nothing that the agenda knows of.
  have sound := r.sound.timerListHandler preCounter postCounter
  have indices := s.timer.updatedList_indices
  obtain ⟨u, -, past⟩ := r.updates inTime
  obtain ⟨now, -, handed, passed, ops⟩ := g.update_frame
  rw [AppTimer.timerListHandler_rtc] at sound ⊢
  generalize s.timer.updatedList = updated at sound indices u ⊢
  refine ⟨sound, u.matches_.of_same rfl rfl rfl rfl rfl, u.ticksLatest, u.waits,
    fun userId op member => ?_, ?_, past.trans now.ge, now.trans r.now, passed.trans r.passed⟩
  · -- No operation is left waiting.
    simp only [ops] at member
    cases member
  · unfold Hands
    rw [handed]
    exact indices

/-- Each step of the module is the same step on the agenda. -/
theorem KeepsAgenda.step (r : KeepsAgenda config s g) (next : TimedStep C)
    (inRange : g.InRange next) : KeepsAgenda config (s.step next) (g.step config cap next) := by
  -- Each call is refused by both or queued by both, and each interrupt has its own lemma.
  cases next with
  | tick missed => exact r.tick missed
  | appTimerStart userId timerId timeoutTicks context =>
    simp only [TimedTimer.step, Agenda.step, AppTimer.appTimerStart]
    split
    · rename_i inside
      have node := r.sound.listed.config ⟨timerId, inside⟩
      have state : (s.timer.nodes ⟨timerId, inside⟩).state = (config ⟨timerId, inside⟩).state :=
        congrArg TimerConfig.state node
      have mode : (s.timer.nodes ⟨timerId, inside⟩).mode = (config ⟨timerId, inside⟩).mode :=
        congrArg TimerConfig.mode node
      rw [state, mode]
      -- A timer that is not repeated is started with a period of zero.
      have short : Short (if (config ⟨timerId, inside⟩).mode = .repeated then timeoutTicks
          else 0) := by
        split
        · exact inRange
        · unfold Short
          decide
      have queued := r.opSchedule userId (.start ⟨timerId, inside⟩ g.now timeoutTicks
        (if (config ⟨timerId, inside⟩).mode = .repeated then timeoutTicks else 0) context)
        ⟨r.order, le_refl _, inRange, short⟩
      have counter : counterAt g.now = counterAt s.now := congrArg counterAt r.now
      simp only [AgendaOp.queued, counter] at queued
      by_cases few : timeoutTicks < appTimerMinTimeoutTicks
      · -- An interval that is too short is refused by both.
        rw [if_pos few, if_pos (.inl few)]
        exact r
      · by_cases free : (config ⟨timerId, inside⟩).state ≠ .allocated
        · -- So is a timer that was never created.
          rw [if_neg few, if_pos free, if_pos (.inr free)]
          exact r
        · have accepted : ¬ (timeoutTicks < appTimerMinTimeoutTicks ∨
              (config ⟨timerId, inside⟩).state ≠ .allocated) := not_or.mpr ⟨few, free⟩
          rw [if_neg few, if_neg free, if_neg accepted]
          exact queued
    · exact r
  | appTimerStop userId timerId =>
    simp only [TimedTimer.step, Agenda.step, AppTimer.appTimerStop]
    split
    · rename_i inside
      have state : (s.timer.nodes ⟨timerId, inside⟩).state = (config ⟨timerId, inside⟩).state :=
        congrArg TimerConfig.state (r.sound.listed.config ⟨timerId, inside⟩)
      rw [state]
      -- A stop only asks for a timer that has been created.
      by_cases free : (config ⟨timerId, inside⟩).state ≠ .allocated
      · rw [if_pos free, if_pos free]
        exact r
      · rw [if_neg free, if_neg free]
        exact r.opSchedule userId (.stop ⟨timerId, inside⟩) trivial
    · exact r
  | appTimerStopAll userId => exact r.opSchedule userId .stopAll trivial
  | rtc1IrqHandler =>
    -- The pending bit is cleared when the interrupt is entered.
    exact (r.pending false s.timer.rtc.swi0Pending).timerTimeoutsCheck inRange
  | swi0IrqHandler delay =>
    -- The list handler runs, and the counter goes on for as long as it takes.
    have entered := r.pending s.timer.rtc.rtc1Pending false
    have inTime : g.now + delay + 1 < g.latest + counterRange / 2 := inRange
    have handled := entered.timerListHandler (by omega) (counterAt s.now)
      (counterAt (s.now + delay))
    exact (handled.wait delay).rewritten _

/-- A module with no running timer and nothing waiting stands for an empty agenda. -/
theorem keepsAgenda_boot (config : Fin n → TimerConfig H) (start : Nat) (handler : H)
    (context : C) : KeepsAgenda config
      (TimedTimer.boot config start handler context : TimedTimer H C n cap)
      (Agenda.boot start context) := by
  have sound : (TimedTimer.boot config start handler context :
      TimedTimer H C n cap).timer.Sound config := TimedTimer.sound_boot config start handler context
  have nothing : Short 0 := by
    unfold Short
    decide
  refine ⟨sound, ⟨sound.listed, rfl, by simp [Agenda.boot], fun _ => rfl, fun _ => nothing,
    fun _ => rfl⟩, rfl, fun userId => ?_, by simp [Agenda.boot], rfl, le_refl _, rfl, rfl⟩
  simp [TimedTimer.boot, AppTimer.created, AppTimer.appTimerInit, Agenda.boot]

end

/-- A timer that expires only once. -/
def soleConfig : Fin 1 → TimerConfig Unit := fun _ => ⟨.allocated, .singleShot, ()⟩

/-- The timer is started from thread mode, and its five ticks are over. -/
def startedRun : List (TimedStep Unit) :=
  [.appTimerStart threadModeUserId 0 5 (), .swi0IrqHandler 0] ++ List.replicate 5 (.tick false)

/-- The timer expires, and is worked off. -/
def expiringRun : List (TimedStep Unit) := startedRun ++ [.rtc1IrqHandler, .swi0IrqHandler 0]

example : (StepMachine.run TimedTimer.step
    (TimedTimer.boot soleConfig 0 () () : TimedTimer Unit Unit 1 1) expiringRun).passed =
      [⟨5, (), ()⟩] := by
  decide +kernel

end BleHub
