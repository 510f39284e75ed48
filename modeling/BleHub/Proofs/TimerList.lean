import BleHub.Firmware.TimedTimer

/-! The list of running timers is a delta list, and the module's loops are operations on it. -/

namespace BleHub

variable {H C : Type} {n cap : Nat}

/-- The running timers, each with the ticks that it waits behind the one before it. -/
def gaps (nodes : TimerNodes H C n) (running : List (Fin n)) : List (Fin n × Nat) :=
  running.map fun timerId => (timerId, (nodes timerId).ticksToExpire.toNat)

@[simp] theorem gaps_nil (nodes : TimerNodes H C n) : gaps nodes [] = [] := rfl

@[simp] theorem gaps_cons (nodes : TimerNodes H C n) (timerId : Fin n) (rest : List (Fin n)) :
    gaps nodes (timerId :: rest) =
      (timerId, (nodes timerId).ticksToExpire.toNat) :: gaps nodes rest := rfl

/-- The list shows the timers in their order. -/
@[simp] theorem map_fst_gaps (nodes : TimerNodes H C n) (running : List (Fin n)) :
    (gaps nodes running).map Prod.fst = running := by
  unfold gaps
  rw [List.map_map]
  exact List.map_id running

/-- Every due time belongs to a timer in the list. -/
theorem listed_of_mem_dues {base : Nat} {nodes : TimerNodes H C n} {running : List (Fin n)}
    {p : Fin n × Nat} (member : p ∈ DeltaList.dues base (gaps nodes running)) :
    p.1 ∈ running := by
  have names : p.1 ∈ (DeltaList.dues base (gaps nodes running)).map Prod.fst :=
    List.mem_map_of_mem member
  rwa [DeltaList.map_fst_dues, map_fst_gaps] at names

/-- Only the ticks of the timers in the list matter. -/
theorem gaps_congr {nodes nodes' : TimerNodes H C n} {running : List (Fin n)}
    (same : ∀ timerId ∈ running, nodes' timerId = nodes timerId) :
    gaps nodes' running = gaps nodes running := by
  apply List.map_congr_left
  intro timerId member
  rw [same timerId member]

/-- A node that is not in the list does not matter. -/
theorem gaps_modify (nodes : TimerNodes H C n) {timerId : Fin n} {running : List (Fin n)}
    (unlisted : timerId ∉ running) (f : TimerNode H C → TimerNode H C) :
    gaps (nodes.modify timerId f) running = gaps nodes running := by
  apply gaps_congr
  intro other member
  have apart : other ≠ timerId := fun same => unlisted (same ▸ member)
  exact TimerNodes.modify_of_ne nodes apart f

@[simp] theorem TimerNode.ticksToExpire_expireIn (p : TimerNode H C) (ticks : UInt32) :
    (p.expireIn ticks).ticksToExpire = ticks := rfl

/-- The nodes differ in nothing but the ticks they have left. -/
def Retimed (nodes nodes' : TimerNodes H C n) : Prop :=
  ∀ timerId, ∃ ticks, nodes' timerId = (nodes timerId).expireIn ticks

/-- Nodes that do not change are retimed at most. -/
theorem Retimed.refl (nodes : TimerNodes H C n) : Retimed nodes nodes :=
  fun timerId => ⟨(nodes timerId).ticksToExpire, rfl⟩

/-- Two changes of the times alone are one. -/
theorem Retimed.trans {nodes nodes' nodes'' : TimerNodes H C n} (first : Retimed nodes nodes')
    (second : Retimed nodes' nodes'') : Retimed nodes nodes'' := by
  intro timerId
  obtain ⟨ticks, here⟩ := first timerId
  obtain ⟨ticks', there⟩ := second timerId
  exact ⟨ticks', by rw [there, here]; rfl⟩

/-- Giving one node its ticks leaves everything else as it is. -/
theorem Retimed.modify (nodes : TimerNodes H C n) (timerId : Fin n)
    (ticks : TimerNode H C → UInt32) :
    Retimed nodes (nodes.modify timerId fun p => p.expireIn (ticks p)) := by
  -- A node that is given ticks is one that keeps the rest.
  intro other
  by_cases same : other = timerId
  · subst same
    exact ⟨_, TimerNodes.modify_self _ _ _⟩
  · exact ⟨_, TimerNodes.modify_of_ne _ same _⟩

/-! ### Insertion -/

section

variable (nodes : TimerNodes H C n) (timerId : Fin n)

/-- An insertion gives ticks to the nodes it passes, and changes nothing else. -/
theorem timerListInsert_retimed (ticks : UInt32) (running : List (Fin n)) :
    Retimed nodes (timerListInsert nodes timerId ticks running).1 := by
  -- The search passes nodes over, and at its end changes the one behind, then the new one.
  induction running generalizing ticks with
  | nil => exact .modify nodes timerId fun _ => ticks
  | cons current rest ih =>
    unfold timerListInsert
    split
    · exact ih _
    · exact (Retimed.modify nodes current _).trans (.modify _ timerId fun _ => ticks)

/-- An insertion leaves the nodes alone that are neither in the list nor inserted. -/
theorem timerListInsert_other {other : Fin n} (apart : other ≠ timerId) (ticks : UInt32)
    (running : List (Fin n)) (unlisted : other ∉ running) :
    (timerListInsert nodes timerId ticks running).1 other = nodes other := by
  -- Neither of the two nodes that change is this one.
  induction running generalizing ticks with
  | nil => simp only [timerListInsert, TimerNodes.modify_of_ne _ apart]
  | cons current rest ih =>
    have notHere : other ≠ current := List.ne_of_not_mem_cons unlisted
    unfold timerListInsert
    split
    · exact ih _ (List.not_mem_of_not_mem_cons unlisted)
    · simp only [TimerNodes.modify_of_ne _ apart, TimerNodes.modify_of_ne _ notHere]

/-- An insertion adds the timer to the list. -/
theorem timerListInsert_perm (ticks : UInt32) (running : List (Fin n)) :
    (timerListInsert nodes timerId ticks running).2.Perm (timerId :: running) := by
  -- Passing a timer over swaps it with the new one.
  induction running generalizing ticks with
  | nil => exact .refl _
  | cons current rest ih =>
    unfold timerListInsert
    split
    · exact ((ih _).cons current).trans (.swap timerId current rest)
    · exact .refl _

/-- An insertion is one into the delta list. -/
theorem gaps_timerListInsert (ticks : UInt32) (running : List (Fin n)) (nodup : running.Nodup)
    (fresh : timerId ∉ running) :
    gaps (timerListInsert nodes timerId ticks running).1
        (timerListInsert nodes timerId ticks running).2 =
      DeltaList.insert timerId ticks.toNat (gaps nodes running) := by
  -- The induction follows the search, which takes the ticks of each timer it passes off.
  induction running generalizing ticks with
  | nil => simp [timerListInsert, DeltaList.insert, TimerNode.expireIn]
  | cons current rest ih =>
    obtain ⟨once, nodup⟩ := List.nodup_cons.mp nodup
    have apart : current ≠ timerId := (List.ne_of_not_mem_cons fresh).symm
    have fresh : timerId ∉ rest := List.not_mem_of_not_mem_cons fresh
    unfold timerListInsert DeltaList.insert
    simp only [gaps_cons, gt_iff_lt, UInt32.lt_iff_toNat_lt]
    split
    · -- The new timer is due after the current one, and waits that much less.
      rename_i later
      have below : (nodes current).ticksToExpire ≤ ticks :=
        UInt32.le_iff_toNat_le.mpr (Nat.le_of_lt later)
      have behind := ih (ticks - (nodes current).ticksToExpire) nodup fresh
      rw [UInt32.toNat_sub_of_le _ _ below] at behind
      simp only [gaps_cons, behind, timerListInsert_other nodes timerId apart _ rest once]
    · -- The new timer comes in front, and the current one waits that much less behind it.
      rename_i here
      have below : ticks ≤ (nodes current).ticksToExpire :=
        UInt32.le_iff_toNat_le.mpr (Nat.le_of_not_lt here)
      -- Behind the current timer, no node changes.
      have behind : gaps ((nodes.modify current fun p =>
          p.expireIn (p.ticksToExpire - ticks)).modify timerId (·.expireIn ticks)) rest =
          gaps nodes rest := by
        rw [gaps_modify _ fresh, gaps_modify _ once]
      simp only [gaps_cons, behind, TimerNodes.modify_self, TimerNodes.modify_of_ne _ apart,
        TimerNode.ticksToExpire_expireIn, UInt32.toNat_sub_of_le _ _ below]

/-! ### Removal -/

/-- The timer at the head leaves its ticks to the one behind it. -/
theorem timerListRemove_head (next : Fin n) (rest : List (Fin n)) :
    timerListRemove nodes timerId (timerId :: next :: rest) =
      (nodes.modify next fun p => p.expireIn (p.ticksToExpire + (nodes timerId).ticksToExpire),
        next :: rest) := by
  simp only [timerListRemove, if_pos]

/-- Any other timer at the head is passed over. -/
theorem timerListRemove_behind {current : Fin n} (apart : current ≠ timerId)
    (rest : List (Fin n)) :
    timerListRemove nodes timerId (current :: rest) =
      ((timerListRemove nodes timerId rest).1,
        current :: (timerListRemove nodes timerId rest).2) := by
  simp only [timerListRemove, if_neg apart]

/-- The only timer leaves nothing behind. -/
theorem timerListRemove_only : timerListRemove nodes timerId [timerId] = (nodes, []) := by
  simp only [timerListRemove, if_pos]

/-- A removal gives ticks to the node behind, and changes nothing else. -/
theorem timerListRemove_retimed (running : List (Fin n)) :
    Retimed nodes (timerListRemove nodes timerId running).1 := by
  -- The search ends at the timer, whose ticks go to the one behind.
  induction running with
  | nil => exact .refl nodes
  | cons current rest ih =>
    by_cases found : current = timerId
    · subst found
      cases rest with
      | nil =>
        rw [timerListRemove_only]
        exact .refl nodes
      | cons next rest =>
        rw [timerListRemove_head]
        exact .modify nodes next fun p => p.ticksToExpire + (nodes current).ticksToExpire
    · rw [timerListRemove_behind nodes timerId found]
      exact ih

/-- A removal leaves the nodes alone that are not in the list. -/
theorem timerListRemove_other {other : Fin n} (running : List (Fin n))
    (unlisted : other ∉ running) :
    (timerListRemove nodes timerId running).1 other = nodes other := by
  -- Only the node behind the removed one changes, and that is in the list.
  induction running with
  | nil => rfl
  | cons current rest ih =>
    have unlisted : other ∉ rest := List.not_mem_of_not_mem_cons unlisted
    by_cases found : current = timerId
    · subst found
      cases rest with
      | nil => rw [timerListRemove_only]
      | cons next rest =>
        simp only [timerListRemove_head,
          TimerNodes.modify_of_ne nodes (List.ne_of_not_mem_cons unlisted)]
    · rw [timerListRemove_behind nodes timerId found]
      exact ih unlisted

/-- A removal takes the timer off the list. -/
theorem timerListRemove_running (running : List (Fin n)) :
    (timerListRemove nodes timerId running).2 = running.erase timerId := by
  -- The search looks for the timer from the head on.
  induction running with
  | nil => rfl
  | cons current rest ih =>
    by_cases found : current = timerId
    · subst found
      rw [List.erase_cons_head]
      cases rest with
      | nil => rw [timerListRemove_only]
      | cons next rest => rw [timerListRemove_head]
    · have differs : ¬ (current == timerId) = true := by simpa using found
      rw [List.erase_cons_tail differs, timerListRemove_behind nodes timerId found, ih]

/-- A removal is one from the delta list, unless the ticks of the next timer overflow. -/
theorem gaps_timerListRemove {base bound : Nat} (early : bound ≤ base + 2 ^ 32)
    (running : List (Fin n)) (nodup : running.Nodup)
    (fits : ∀ p ∈ DeltaList.dues base (gaps nodes running), p.2 < bound) :
    gaps (timerListRemove nodes timerId running).1 (timerListRemove nodes timerId running).2 =
      DeltaList.remove (fun other => decide (other = timerId)) (gaps nodes running) := by
  -- The induction follows the search, behind which the due times still fit.
  induction running generalizing base with
  | nil => rfl
  | cons current rest ih =>
    obtain ⟨once, nodup⟩ := List.nodup_cons.mp nodup
    by_cases found : current = timerId
    · subst found
      cases rest with
      | nil => simp [timerListRemove_only, DeltaList.remove, DeltaList.defer]
      | cons next rest =>
        obtain ⟨once', -⟩ := List.nodup_cons.mp nodup
        -- The sum of the two is the due time of the next timer, which is in range.
        have last := fits (next, base + (nodes current).ticksToExpire.toNat +
          (nodes next).ticksToExpire.toNat) (by simp)
        have noOverflow : (nodes next).ticksToExpire.toNat +
            (nodes current).ticksToExpire.toNat < 2 ^ 32 := by
          simp only at last
          omega
        have sum : ((nodes next).ticksToExpire + (nodes current).ticksToExpire).toNat =
            (nodes next).ticksToExpire.toNat + (nodes current).ticksToExpire.toNat := by
          rw [UInt32.toNat_add, Nat.mod_eq_of_lt noOverflow]
        have behind : gaps (nodes.modify next fun p =>
            p.expireIn (p.ticksToExpire + (nodes current).ticksToExpire)) rest =
            gaps nodes rest := gaps_modify nodes once' _
        rw [timerListRemove_head]
        simp only [gaps_cons, DeltaList.remove, DeltaList.defer, behind, TimerNodes.modify_self,
          TimerNode.ticksToExpire_expireIn, sum, decide_true, if_pos]
    · have fits : ∀ p ∈ DeltaList.dues (base + (nodes current).ticksToExpire.toNat)
          (gaps nodes rest), p.2 < bound := by
        intro p member
        exact fits p (List.mem_cons_of_mem _ member)
      have early : bound ≤ base + (nodes current).ticksToExpire.toNat + 2 ^ 32 := by omega
      -- Behind the first timer the search goes on from its due time.
      have behind := ih early nodup fits
      rw [timerListRemove_behind nodes timerId found]
      simp only [gaps_cons, DeltaList.remove, decide_eq_true_eq, if_neg found,
        timerListRemove_other nodes timerId rest once, behind]

end

/-! ### Expiry -/

/-- A node once its timer has expired, some ticks behind the last known counter value. -/
def TimerNode.expireAfter (ticksPrevious ticks : UInt32) (p : TimerNode H C) : TimerNode H C :=
  let expired := { p with ticksToExpire := 0, isRunning := false }
  if p.ticksPeriodicInterval ≠ 0 then
    { expired with
      ticksAtStart := (ticksPrevious + ticks) &&& maxRtcCounterVal
      ticksFirstInterval := p.ticksPeriodicInterval }
  else expired

@[simp] theorem TimerNode.ticksPeriodicInterval_expireAfter (ticksPrevious ticks : UInt32)
    (p : TimerNode H C) :
    (p.expireAfter ticksPrevious ticks).ticksPeriodicInterval = p.ticksPeriodicInterval := by
  unfold expireAfter
  split <;> rfl

namespace AppTimer

variable (nodes : TimerNodes H C n) (ticksPrevious : UInt32)

/-- A timer that is due leaves the list, and is collected if it is periodic. -/
theorem expiredTimersHandler_due {ticksElapsed : UInt32} {timerId : Fin n}
    (due : ¬ ticksElapsed < (nodes timerId).ticksToExpire) (ticksExpired : UInt32)
    (restart rest : List (Fin n)) :
    expiredTimersHandler ticksPrevious ticksElapsed ticksExpired nodes restart (timerId :: rest) =
      expiredTimersHandler ticksPrevious (ticksElapsed - (nodes timerId).ticksToExpire)
        (ticksExpired + (nodes timerId).ticksToExpire)
        (nodes.modify timerId
          (·.expireAfter ticksPrevious (ticksExpired + (nodes timerId).ticksToExpire)))
        (if (nodes timerId).ticksPeriodicInterval ≠ 0 then timerId :: restart else restart)
        rest := by
  -- The source collects a timer only if it has a period.
  by_cases once : (nodes timerId).ticksPeriodicInterval = 0
  · simp [expiredTimersHandler, TimerNode.expireAfter, TimerNodes.modify, due, once]
  · simp [expiredTimersHandler, TimerNode.expireAfter, TimerNodes.modify, due, once]

/-- A timer that is not due ends the search. -/
theorem expiredTimersHandler_waits {ticksElapsed : UInt32} {timerId : Fin n}
    (waits : ticksElapsed < (nodes timerId).ticksToExpire) (ticksExpired : UInt32)
    (restart rest : List (Fin n)) :
    expiredTimersHandler ticksPrevious ticksElapsed ticksExpired nodes restart (timerId :: rest) =
      (nodes.modify timerId fun p => p.expireIn (p.ticksToExpire - ticksElapsed),
        timerId :: rest, restart) := by
  simp only [expiredTimersHandler, if_pos waits]

/-- What taking the timers off the list leads to that are due by a number of ticks. -/
structure Expires (base : Nat) (ticksPrevious ticksElapsed ticksExpired : UInt32)
    (nodes : TimerNodes H C n) (restart running : List (Fin n))
    (result : TimerNodes H C n × List (Fin n) × List (Fin n)) : Prop where
  /-- The list is advanced by the ticks. -/
  advance : gaps result.1 result.2.1 = DeltaList.advance ticksElapsed.toNat (gaps nodes running)
  /-- Of the timers that are due, the periodic ones are collected, the last one first. -/
  restart : result.2.2 =
    ((((DeltaList.dues base (gaps nodes running)).takeWhile fun p =>
      decide (p.2 ≤ base + ticksElapsed.toNat)).map Prod.fst).filter fun timerId =>
        decide ((nodes timerId).ticksPeriodicInterval ≠ 0)).reverse ++ restart
  /-- Every timer that is due remembers when it was. -/
  due : ∀ p ∈ DeltaList.dues base (gaps nodes running),
    p.2 ≤ base + ticksElapsed.toNat → result.1 p.1 =
      (nodes p.1).expireAfter ticksPrevious (ticksExpired + UInt32.ofNat (p.2 - base))
  /-- A timer that is not due goes on waiting. -/
  waits : ∀ timerId ∈ result.2.1, ∃ ticks, result.1 timerId = (nodes timerId).expireIn ticks
  other : ∀ timerId ∉ running, result.1 timerId = nodes timerId

/-- Whatever the list, the timers that are due are taken off it. -/
theorem expires (base : Nat) (ticksElapsed ticksExpired : UInt32)
    (restart running : List (Fin n)) (nodup : running.Nodup) :
    Expires base ticksPrevious ticksElapsed ticksExpired nodes restart running
      (expiredTimersHandler ticksPrevious ticksElapsed ticksExpired nodes restart running) := by
  -- The search moves the base on to the due time of the timer that it takes off.
  induction running generalizing base ticksElapsed ticksExpired nodes restart with
  | nil =>
    refine ⟨rfl, rfl, ?_, ?_, fun _ _ => rfl⟩
    · intro p member
      simp at member
    · -- Whoever waits was behind the head, and has changed its ticks at most.
      intro timerId member
      simp [expiredTimersHandler] at member
  | cons current rest ih =>
    obtain ⟨once, nodup⟩ := List.nodup_cons.mp nodup
    by_cases waits : ticksElapsed < (nodes current).ticksToExpire
    · -- The search ends here, and the head waits only for what is left of its ticks.
      have waits_ : ticksElapsed.toNat < (nodes current).ticksToExpire.toNat :=
        UInt32.lt_iff_toNat_lt.mp waits
      have within : ticksElapsed ≤ (nodes current).ticksToExpire :=
        UInt32.le_iff_toNat_le.mpr waits_.le
      have behind : gaps (nodes.modify current fun p =>
          p.expireIn (p.ticksToExpire - ticksElapsed)) rest = gaps nodes rest :=
        gaps_modify nodes once _
      rw [expiredTimersHandler_waits nodes ticksPrevious waits]
      constructor
      · simp only [gaps_cons, behind, DeltaList.advance, if_pos waits_, TimerNodes.modify_self,
          TimerNode.ticksToExpire_expireIn, UInt32.toNat_sub_of_le _ _ within]
      · simp [waits_]
      · -- Nothing in the list is due before its head.
        intro p member due
        have head : base + (nodes current).ticksToExpire.toNat ≤ p.2 := by
          rcases List.mem_cons.mp member with rfl | later
          · exact le_refl _
          · exact DeltaList.base_le_of_mem_dues later
        omega
      · intro timerId _
        exact Retimed.modify nodes current (fun p => p.ticksToExpire - ticksElapsed) timerId
      · intro timerId unlisted
        simp only [TimerNodes.modify_of_ne nodes (List.ne_of_not_mem_cons unlisted)]
    · -- The timer is taken off, and the rest of the ticks is for those behind it.
      have due_ : (nodes current).ticksToExpire.toNat ≤ ticksElapsed.toNat := by
        rw [UInt32.lt_iff_toNat_lt] at waits
        omega
      have within : (nodes current).ticksToExpire ≤ ticksElapsed :=
        UInt32.le_iff_toNat_le.mpr due_
      rw [expiredTimersHandler_due nodes ticksPrevious waits]
      -- The timers behind find their nodes as they were.
      have kept : ∀ other ∈ rest, nodes.modify current (·.expireAfter ticksPrevious
          (ticksExpired + (nodes current).ticksToExpire)) other = nodes other := by
        intro other member
        have apart : other ≠ current := fun same => once (same ▸ member)
        exact TimerNodes.modify_of_ne nodes apart _
      have behind := gaps_congr kept
      -- The induction hypothesis is about the rest of the list and the rest of the ticks.
      have later := ih (nodes.modify current (·.expireAfter ticksPrevious
        (ticksExpired + (nodes current).ticksToExpire)))
        (base + (nodes current).ticksToExpire.toNat)
        (ticksElapsed - (nodes current).ticksToExpire)
        (ticksExpired + (nodes current).ticksToExpire)
        (if (nodes current).ticksPeriodicInterval ≠ 0 then current :: restart else restart) nodup
      generalize expiredTimersHandler ticksPrevious _ _ _ _ rest = result at later ⊢
      have left : (ticksElapsed - (nodes current).ticksToExpire).toNat =
          ticksElapsed.toNat - (nodes current).ticksToExpire.toNat :=
        UInt32.toNat_sub_of_le _ _ within
      have until_ : base + (nodes current).ticksToExpire.toNat +
          (ticksElapsed.toNat - (nodes current).ticksToExpire.toNat) =
          base + ticksElapsed.toNat := by omega
      have notBefore : ¬ ticksElapsed.toNat < (nodes current).ticksToExpire.toNat := by omega
      constructor
      · rw [later.advance, behind, left, gaps_cons, DeltaList.advance, if_neg notBefore]
      · -- A timer is put in again by its own period, which expiring does not change.
        have periods : ∀ timerId, (nodes.modify current (·.expireAfter ticksPrevious
            (ticksExpired + (nodes current).ticksToExpire)) timerId).ticksPeriodicInterval =
            (nodes timerId).ticksPeriodicInterval := by
          intro timerId
          by_cases same : timerId = current
          · subst same
            rw [TimerNodes.modify_self, TimerNode.ticksPeriodicInterval_expireAfter]
          · rw [TimerNodes.modify_of_ne nodes same]
        rw [later.restart, behind, left, until_]
        simp only [periods]
        by_cases once : (nodes current).ticksPeriodicInterval = 0
        · simp [due_, once]
        · simp [due_, once]
      · intro p member due
        rcases List.mem_cons.mp member with rfl | member
        · -- The timers behind leave the node of the first one alone.
          have ticks : UInt32.ofNat (base + (nodes current).ticksToExpire.toNat - base) =
              (nodes current).ticksToExpire := by
            rw [Nat.add_sub_cancel_left, UInt32.ofNat_toNat]
          rw [later.other current once, TimerNodes.modify_self, ticks]
        · -- A timer behind is due by the ticks in front of it and its own.
          have after : base + (nodes current).ticksToExpire.toNat ≤ p.2 :=
            DeltaList.base_le_of_mem_dues member
          have listed : p.1 ∈ rest := listed_of_mem_dues member
          have split : p.2 - base = (nodes current).ticksToExpire.toNat +
              (p.2 - (base + (nodes current).ticksToExpire.toNat)) := by omega
          have here := later.due p (by rw [behind]; exact member) (by omega)
          rw [here, kept p.1 listed, split, UInt32.ofNat_add, UInt32.ofNat_toNat, UInt32.add_assoc]
      · intro timerId member
        have listed : timerId ∈ rest := by
          have suffix_ := DeltaList.map_fst_advance_suffix
            (ticksElapsed - (nodes current).ticksToExpire).toNat (gaps nodes rest)
          rw [← behind, ← later.advance, behind, map_fst_gaps, map_fst_gaps] at suffix_
          exact suffix_.subset member
        obtain ⟨ticks, same⟩ := later.waits timerId member
        exact ⟨ticks, by rw [same, kept timerId listed]⟩
      · intro timerId unlisted
        have apart := List.ne_of_not_mem_cons unlisted
        rw [later.other timerId (List.not_mem_of_not_mem_cons unlisted),
          TimerNodes.modify_of_ne nodes apart]

end AppTimer

/-- The timers that expire are those that are due, and they use up the time until the last one. -/
theorem timersExpiring_eq (nodes : TimerNodes H C n) (base : Nat)
    (ticksElapsed ticksExpired : UInt32) (running : List (Fin n)) :
    timersExpiring nodes ticksElapsed ticksExpired running =
      (((DeltaList.dues base (gaps nodes running)).takeWhile fun p =>
        decide (p.2 ≤ base + ticksElapsed.toNat)).map fun p =>
          ((nodes p.1).timeoutHandler, (nodes p.1).context),
        ticksExpired +
          UInt32.ofNat (DeltaList.spent ticksElapsed.toNat (gaps nodes running))) := by
  -- The search of the interrupt goes as that of the handler, but changes no node.
  induction running generalizing base ticksElapsed ticksExpired with
  | nil => simp [timersExpiring, DeltaList.spent]
  | cons current rest ih =>
    by_cases waits : ticksElapsed < (nodes current).ticksToExpire
    · have waits_ : ticksElapsed.toNat < (nodes current).ticksToExpire.toNat :=
        UInt32.lt_iff_toNat_lt.mp waits
      simp [timersExpiring, DeltaList.spent, waits, waits_]
    · have due : (nodes current).ticksToExpire.toNat ≤ ticksElapsed.toNat := by
        rw [UInt32.lt_iff_toNat_lt] at waits
        omega
      have notBefore : ¬ ticksElapsed.toNat < (nodes current).ticksToExpire.toNat := by omega
      have until_ : base + (nodes current).ticksToExpire.toNat +
          (ticksElapsed.toNat - (nodes current).ticksToExpire.toNat) =
          base + ticksElapsed.toNat := by omega
      -- The rest of the list is searched with what is left of the ticks.
      have later := ih (base + (nodes current).ticksToExpire.toNat)
        (ticksElapsed - (nodes current).ticksToExpire)
        (ticksExpired + (nodes current).ticksToExpire)
      rw [UInt32.toNat_sub_of_le _ _ (UInt32.le_iff_toNat_le.mpr due), until_] at later
      simp only [timersExpiring, if_neg waits, later, gaps_cons, DeltaList.dues_cons,
        DeltaList.spent, if_neg notBefore, Nat.add_le_add_iff_left, due, decide_true,
        List.takeWhile_cons_of_pos, List.map_cons, UInt32.ofNat_add, UInt32.ofNat_toNat,
        UInt32.add_assoc]

/-! ### The ticks of a start -/

/--
A started timer waits until its interval is over, or for no time if it is over already.

The start has to be less than half the counter range away from the last known counter value.
-/
theorem AppTimer.toNat_ticksFromLatest {latest started : Nat} {p : TimerNode H C}
    (atStart : p.ticksAtStart = counterAt started) (past : latest ≤ started + counterRange / 2)
    (future : started + 1 < latest + counterRange / 2)
    (fits : p.ticksFirstInterval.toNat + counterRange / 2 ≤ 2 ^ 32) :
    (ticksFromLatest (counterAt latest) p).toNat =
      max (started + p.ticksFirstInterval.toNat) latest - latest := by
  -- The source tells the two cases apart by the upper half of the difference, modulo the range.
  have half : (maxRtcCounterVal / 2).toNat = 2 ^ 23 - 1 := by decide
  have range : counterRange = 2 ^ 24 := rfl
  have ahead : ((p.ticksAtStart - counterAt latest) &&& maxRtcCounterVal).toNat =
      (started + 2 ^ 24 - latest) % 2 ^ 24 := by
    rw [atStart, toNat_mask, UInt32.toNat_sub, toNat_counterAt, toNat_counterAt, range]
    omega
  unfold ticksFromLatest
  by_cases order : latest ≤ started
  · -- The start lies behind the last known counter value.
    have inside : (p.ticksAtStart - counterAt latest) &&& maxRtcCounterVal <
        maxRtcCounterVal / 2 := by
      rw [UInt32.lt_iff_toNat_lt, ahead, half]
      omega
    have diff := ticksDiffGet_counterAt order (by omega)
    rw [if_pos inside, UInt32.toNat_add, atStart, diff]
    omega
  · -- The start lies before it, less than half the range.
    have outside : ¬ (p.ticksAtStart - counterAt latest) &&& maxRtcCounterVal <
        maxRtcCounterVal / 2 := by
      rw [UInt32.lt_iff_toNat_lt, ahead, half]
      omega
    have diff := ticksDiffGet_counterAt (Nat.le_of_not_le order) (by omega)
    rw [if_neg outside, atStart]
    simp only [gt_iff_lt, UInt32.lt_iff_toNat_lt, diff]
    split
    · rename_i left
      have within : ticksDiffGet (counterAt latest) (counterAt started) ≤
          p.ticksFirstInterval := UInt32.le_iff_toNat_le.mpr (by rw [diff]; exact left.le)
      rw [UInt32.toNat_sub_of_le _ _ within, diff]
      omega
    · -- Its interval is over already, so it is due at once.
      show 0 = _
      omega

end BleHub
