import BleHub.Proofs.EventPath

/-! The event path over whole runs: what is safe at any time, and what the main loop gets done. -/

namespace BleHub

open AppSched

namespace EventPath

variable {E : Type}

/-- The run of the event path from where main enters its loop. -/
def after (labels : List (EventPathStep E)) : EventPath E := StepMachine.run step boot labels

/-- No interrupt is being served or has occurred, and the main loop sleeps. -/
def Quiet (s : EventPath E) : Prop :=
  s.frames = [] ∧ s.main = .sleeping ∧ s.irqOccurred = false

/-- What holds between any two steps of the event path. -/
structure Sound (s : EventPath E) : Prop where
  delivers : ∃ current pending, Delivers s current pending
  conserved : s.dispatched ++ s.stack = s.generated
  overflow : ∀ halt, s.halted = some halt → halt = .appError nrfErrorNoMem

/-- The event path is sound when main enters its loop. -/
theorem boot_sound : Sound (boot : EventPath E) := by
  -- There is no entry, no interrupt and no event in the stack yet.
  refine ⟨⟨none, [], rfl, by simp, .nil, ⟨by simp [boot], by simp [boot], .nil, by simp [boot],
    fun some_ => absurd rfl some_⟩, rfl, by simp [boot], fun some_ => absurd rfl some_⟩, rfl, ?_⟩
  intro halt halted
  cases halted

/-- Every step delivers, and resets the system only when the queue is full. -/
theorem Delivers.stepLive {s : EventPath E} {current : Option Posting} {pending : List Posting}
    (delivers : Delivers s current pending) (label : EventPathStep E) :
    ∃ current' pending', Delivers (s.stepLive label) current' pending' ∧
      ∀ halt, (s.stepLive label).halted = some halt →
        s.halted = some halt ∨ halt = .appError nrfErrorNoMem := by
  cases label with
  | stackEvent event =>
    -- The pending interrupt announces the event from here on.
    refine ⟨current, pending, ⟨delivers.order, delivers.sized, delivers.filled,
      delivers.serving, delivers.inHand, delivers.drained, fun _ => .inl rfl⟩, fun halt => .inl⟩
  | swi2IrqHandler =>
    -- Taking the interrupt enters a put, unless there is nothing to take.
    simp only [EventPath.stepLive]
    split
    · exact ⟨current, pending, delivers.enter false rfl (.inr rfl), fun halt => .inl⟩
    · exact ⟨current, pending, delivers, fun halt => .inl⟩
  | rtc1IrqHandler timerEvent =>
    -- A timer event has the bytes that its handler expects.
    have sized : (⟨.appTimerEvtGet, timerEvent.toList⟩ : Posting).Sized := timerEvent.length_toList
    exact ⟨current, pending, delivers.enter s.swi2Pending sized (.inl rfl), fun halt => .inl⟩
  | advance =>
    -- The innermost interrupt comes before the main loop.
    simp only [EventPath.stepLive]
    split
    · rename_i frame rest top
      obtain ⟨pending', next, halts⟩ := delivers.stepFrame top
      exact ⟨current, pending', next, halts⟩
    · rename_i idle
      obtain ⟨current', pending', next, same⟩ := delivers.stepMain idle
      exact ⟨current', pending', next, fun halt halted => .inl (same ▸ halted)⟩

/-- An interrupt never touches the events of the stack. -/
theorem stepFrame_frame (s : EventPath E) (posting : Posting) (rest : List PutFrame)
    (pc : PutPc) :
    (s.stepFrame posting rest pc).stack = s.stack ∧
      (s.stepFrame posting rest pc).dispatched = s.dispatched ∧
      (s.stepFrame posting rest pc).generated = s.generated ∧
      (s.stepFrame posting rest pc).swi2Pending = s.swi2Pending := by
  -- It works on the queue and on its own progress only.
  cases pc with
  | entered =>
    simp only [EventPath.stepFrame]
    split
    · split <;> exact ⟨rfl, rfl, rfl, rfl⟩
    · exact ⟨rfl, rfl, rfl, rfl⟩
  | reserved index => exact ⟨rfl, rfl, rfl, rfl⟩
  | copying index k =>
    simp only [EventPath.stepFrame]
    split <;> exact ⟨rfl, rfl, rfl, rfl⟩

/-- The main loop never touches the interrupts and what they have put. -/
theorem stepMain_frame (s : EventPath E) (main : MainPc) :
    (s.stepMain main).frames = s.frames ∧ (s.stepMain main).puts = s.puts ∧
      (s.stepMain main).generated = s.generated ∧
      (s.stepMain main).swi2Pending = s.swi2Pending := by
  -- Whatever its position, it takes entries out of the queue and events out of the stack.
  cases main with
  | testing | taking | readingSize => exact ⟨rfl, rfl, rfl, rfl⟩
  | readingHandler | running | pulling | waiting | sleeping =>
    simp only [EventPath.stepMain]
    split <;> exact ⟨rfl, rfl, rfl, rfl⟩

/-- The only error that the main loop can run into is an event of another size than expected. -/
theorem stepMain_halted {s : EventPath E} (live : s.halted = none) (main : MainPc) :
    (s.stepMain main).halted = none ∨ (s.stepMain main).halted = some (.appError 0) := by
  cases main with
  | testing | taking | readingSize => exact .inl live
  | readingHandler =>
    -- The size is checked before the handler runs.
    simp only [EventPath.stepMain]
    split
    · exact .inl live
    · exact .inr rfl
  | running | pulling | waiting | sleeping =>
    simp only [EventPath.stepMain]
    split <;> exact .inl live

/-- The main loop moves an event from the stack to itself, or leaves all where they are. -/
theorem conserved_stepMain (s : EventPath E) (main : MainPc) :
    (s.stepMain main).dispatched ++ (s.stepMain main).stack = s.dispatched ++ s.stack := by
  cases main with
  | pulling =>
    simp only [EventPath.stepMain]
    split
    · rfl
    · -- The first event of the stack becomes the last that has been dispatched.
      rename_i event rest waiting
      simp [waiting]
  | testing | taking | readingSize => rfl
  | readingHandler | running | waiting | sleeping =>
    -- The other positions do not touch the stack, whichever way they go on.
    simp only [EventPath.stepMain]
    split <;> rfl

/-- Stack events move from the stack to the main loop, or join the others in the stack. -/
theorem conserved_stepLive {s : EventPath E} (conserved : s.dispatched ++ s.stack = s.generated)
    (label : EventPathStep E) :
    (s.stepLive label).dispatched ++ (s.stepLive label).stack = (s.stepLive label).generated := by
  cases label with
  | stackEvent event =>
    -- A new event comes in at the end of the stack.
    simp only [EventPath.stepLive, ← List.append_assoc, conserved]
  | swi2IrqHandler =>
    simp only [EventPath.stepLive]
    split <;> exact conserved
  | rtc1IrqHandler timerEvent => exact conserved
  | advance =>
    simp only [EventPath.stepLive]
    split
    · -- An interrupt in the middle of a put leaves both lists alone.
      rename_i frame rest _
      obtain ⟨stack, dispatched, generated, -⟩ := stepFrame_frame s frame.posting rest frame.pc
      rw [stack, dispatched, generated, conserved]
    · rw [conserved_stepMain, (stepMain_frame s s.main).2.2.1, conserved]

/-- Every step keeps the event path sound. -/
theorem Sound.step {s : EventPath E} (sound : Sound s) (label : EventPathStep E) :
    Sound (s.step label) := by
  unfold EventPath.step
  split
  · -- A system that has been reset does nothing.
    exact sound
  · rename_i live
    obtain ⟨⟨current, pending, delivers⟩, conserved, -⟩ := sound
    obtain ⟨current', pending', next, halts⟩ := delivers.stepLive label
    refine ⟨⟨current', pending', next⟩, conserved_stepLive conserved label, fun halt halted => ?_⟩
    -- It was running before the step, so the step itself has reset it.
    rcases halts halt halted with before | full
    · rw [live] at before
      cases before
    · exact full

/-- So it stays sound for the rest of a run. -/
theorem Sound.run {s : EventPath E} (sound : Sound s) (labels : List (EventPathStep E)) :
    Sound (StepMachine.run EventPath.step s labels) :=
  StepMachine.run_invariant (fun _ label sound => sound.step label) labels s sound

/-- The event path is sound after every run. -/
theorem sound_after (labels : List (EventPathStep E)) : Sound (after labels) :=
  boot_sound.run labels

/-! ### The main loop gets done -/

/-- The work left for an entry of the queue. -/
def entryWork : Nat := schedMaxEventDataSize + 7

/-- The work left for an interrupt, the entry it is going to reserve included. -/
def frameWork (frame : PutFrame) : Nat :=
  match frame.pc with
  | .entered => frame.posting.eventData.length + 3 + entryWork
  | .reserved _ => frame.posting.eventData.length + 2
  | .copying _ k => frame.posting.eventData.length - k + 1

/-- One more round of the main loop after an interrupt. -/
def alertWork : Bool → Nat
  | true => 3
  | false => 0

/-- The work left for the main loop until it sleeps, apart from the entries of the queue. -/
def mainWork (irqOccurred : Bool) : MainPc → Nat
  | .testing => 2
  | .taking => 1
  | .readingSize _ => schedMaxEventDataSize + 7
  | .readingHandler _ _ => schedMaxEventDataSize + 6
  | .running _ eventDataSize _ read => eventDataSize - read.length + 5
  | .pulling => 4
  | .waiting => 1
  | .sleeping => alertWork irqOccurred

/-- All the work left. -/
def work (s : EventPath E) : Nat :=
  (s.frames.map frameWork).sum + s.sched.slots.length * entryWork + s.stack.length +
    mainWork s.irqOccurred s.main + alertWork s.irqOccurred

/-- The innermost interrupt leaves less work, unless it finds the queue full. -/
theorem stepFrame_work {s : EventPath E} {current : Option Posting} {pending : List Posting}
    (delivers : Delivers s current pending) {posting : Posting} {pc : PutPc}
    {rest : List PutFrame} (top : s.frames = ⟨posting, pc⟩ :: rest) :
    (s.stepFrame posting rest pc).halted ≠ none ∨ work (s.stepFrame posting rest pc) < work s := by
  -- An interrupt has accounted for the entry it reserves from the beginning.
  have sized := delivers.serving.sized _ (top ▸ List.mem_cons_self)
  cases pc with
  | entered =>
    simp only [EventPath.stepFrame, fits_of_sized sized, if_true]
    cases full : s.sched.isFull with
    | true => exact .inl (by simp [fail])
    | false =>
      -- The entry is one more in the queue, for which the interrupt has been charged.
      have more := (slots_reserve full).1
      simp only [Bool.false_eq_true, if_false, work, top, more, List.map_cons, List.sum_cons,
        frameWork, List.length_append, List.length_singleton, Nat.add_mul]
      omega
  | reserved index =>
    refine .inr ?_
    have slots : (s.sched.writeHandler index posting.handler).slots = s.sched.slots := rfl
    simp only [EventPath.stepFrame, work, top, slots, List.map_cons, List.sum_cons, frameWork]
    omega
  | copying index k =>
    refine .inr ?_
    simp only [EventPath.stepFrame]
    split
    · -- One byte less is left to be copied.
      rename_i byte given
      obtain ⟨below, -⟩ := List.getElem?_eq_some_iff.mp given
      have slots : (s.sched.writeByte index k byte).slots = s.sched.slots := rfl
      simp only [work, top, slots, List.map_cons, List.sum_cons, frameWork]
      omega
    · -- With the size written, the interrupt is over.
      have slots : (s.sched.writeSize index posting.eventData.length).slots = s.sched.slots := rfl
      simp only [work, top, slots, List.map_cons, List.sum_cons, frameWork]
      omega

/-- The main loop leaves less work, unless it sleeps. -/
theorem stepMain_work {s : EventPath E} {current : Option Posting} {pending : List Posting}
    (delivers : Delivers s current pending) (idle : s.frames = []) :
    Quiet s ∨ work (s.stepMain s.main) < work s := by
  -- An entry taken from the queue leaves as much work as it had, less the step that took it.
  have inHand := delivers.inHand
  cases main : s.main with
  | testing =>
    -- Testing goes on to take an entry, or to wait.
    refine .inr ?_
    simp only [EventPath.stepMain, work, main]
    split <;> simp only [mainWork] <;> omega
  | taking =>
    rw [main] at inHand
    -- Taking an entry makes the queue shorter by one.
    have fewer := slots_release inHand.2
    refine .inr ?_
    simp only [EventPath.stepMain, work, main, fewer, List.length_cons, mainWork, Nat.add_mul,
      entryWork]
    omega
  | readingSize index =>
    refine .inr ?_
    simp only [EventPath.stepMain, work, main, mainWork]
    omega
  | readingHandler index eventDataSize =>
    rw [main] at inHand
    obtain ⟨posting, same, kept, size⟩ := inHand
    have sized := delivers.sized posting same
    have fits := fits_of_sized sized
    -- The check of the event size passes, as the put has made it pass.
    have checked : eventDataSize = (s.sched.queueEventHeaders index).handler.eventSize := by
      rw [kept.holds.handler, size]
      exact sized
    refine .inr ?_
    simp only [EventPath.stepMain, if_pos checked, work, main, mainWork, List.length_nil]
    omega
  | running index eventDataSize handler read =>
    refine .inr ?_
    simp only [EventPath.stepMain]
    split
    · -- One byte less is left to be read.
      simp only [work, main, mainWork, List.length_append, List.length_singleton]
      omega
    · cases handler with
      | bleStackEvtGet =>
        simp only [work, main, mainWork, continuation]
        omega
      | appTimerEvtGet =>
        simp only [work, main, mainWork, continuation]
        omega
  | pulling =>
    refine .inr ?_
    simp only [EventPath.stepMain]
    split
    · simp only [work, main, mainWork]
      omega
    · -- One event less is left in the stack.
      rename_i event rest some_
      simp only [work, main, some_, List.length_cons]
      omega
  | waiting =>
    -- An interrupt since the last round costs one more round, but only once.
    refine .inr ?_
    simp only [EventPath.stepMain]
    cases irq : s.irqOccurred with
    | true =>
      simp only [if_true, work, main, irq, mainWork, alertWork]
      omega
    | false =>
      simp only [Bool.false_eq_true, if_false, work, main, irq, mainWork, alertWork]
      omega
  | sleeping =>
    cases irq : s.irqOccurred with
    | true =>
      refine .inr ?_
      simp only [EventPath.stepMain, irq, if_true, work, main, mainWork, alertWork]
      omega
    | false => exact .inl ⟨idle, main, irq⟩

/-- What has been put stays on record, and the stack is left alone. -/
theorem advance_frame (s : EventPath E) :
    s.puts <+: (s.step .advance).puts ∧ (s.step .advance).generated = s.generated ∧
      (s.step .advance).swi2Pending = s.swi2Pending := by
  -- Only the reservation of an entry adds to the record.
  simp only [EventPath.step]
  split
  · exact ⟨List.prefix_refl _, rfl, rfl⟩
  · simp only [EventPath.stepLive]
    split
    · rename_i frame rest _
      obtain ⟨-, -, generated, swi2⟩ := stepFrame_frame s frame.posting rest frame.pc
      refine ⟨?_, generated, swi2⟩
      cases frame.pc with
      | entered =>
        simp only [EventPath.stepFrame]
        split
        · split
          · exact List.prefix_refl _
          · -- The reservation records the posting behind the others.
            exact List.prefix_append _ _
        · exact List.prefix_refl _
      | reserved index => exact List.prefix_refl _
      | copying index k =>
        simp only [EventPath.stepFrame]
        split <;> exact List.prefix_refl _
    · obtain ⟨-, puts, generated, swi2⟩ := stepMain_frame s s.main
      exact ⟨puts ▸ List.prefix_refl _, generated, swi2⟩

/-- The same holds when the event path is left alone for longer. -/
theorem advances_frame (n : Nat) : ∀ s : EventPath E,
    let t := StepMachine.run step s (List.replicate n .advance)
    s.puts <+: t.puts ∧ t.generated = s.generated ∧ t.swi2Pending = s.swi2Pending := by
  -- Step by step.
  induction n with
  | zero => exact fun s => ⟨List.prefix_refl _, rfl, rfl⟩
  | succ n ih =>
    intro s
    obtain ⟨puts, generated, swi2⟩ := advance_frame s
    obtain ⟨puts', generated', swi2'⟩ := ih (s.step .advance)
    exact ⟨puts.trans puts', generated'.trans generated, swi2'.trans swi2⟩

/-- Left alone, the main loop comes to rest, unless an interrupt finds the queue full. -/
theorem comesToRest (bound : Nat) : ∀ s : EventPath E, Sound s → s.halted = none →
    work s < bound → ∃ n, let t := StepMachine.run step s (List.replicate n .advance)
      t.halted ≠ none ∨ Quiet t := by
  -- Every step leaves less work, so the bound on the work bounds the number of steps.
  induction bound with
  | zero => exact fun s _ _ below => absurd below (Nat.not_lt_zero _)
  | succ bound ih =>
    intro s sound live below
    obtain ⟨current, pending, delivers⟩ := sound.delivers
    have stepped : s.step .advance = s.stepLive .advance := by simp [EventPath.step, live]
    -- Either the innermost interrupt goes on or, without any, the main loop.
    have less : Quiet s ∨ (s.step .advance).halted ≠ none ∨ work (s.step .advance) < work s := by
      rw [stepped]
      simp only [EventPath.stepLive]
      split
      · rename_i frame rest top
        exact .inr (stepFrame_work delivers top)
      · rename_i idle
        rcases stepMain_work delivers idle with quiet | less
        · exact .inl quiet
        · exact .inr (.inr less)
    rcases less with quiet | halted | less
    · -- A system at rest needs no step.
      exact ⟨0, .inr quiet⟩
    · exact ⟨1, .inl halted⟩
    · cases running : (s.step .advance).halted with
      | some halt => exact ⟨1, .inl (by simp [running])⟩
      | none =>
        -- With less work left, the rest of the way is bounded.
        obtain ⟨n, rests⟩ := ih _ (sound.step .advance) running (by omega)
        exact ⟨n + 1, rests⟩

/-! ### What interrupts ask for -/

/-- What a step makes an interrupt ask the scheduler to put. -/
def asks (s : EventPath E) (label : EventPathStep E) : List Posting :=
  match s.halted, label with
  | none, .swi2IrqHandler => if s.swi2Pending then [⟨.bleStackEvtGet, []⟩] else []
  | none, .rtc1IrqHandler timerEvent => [⟨.appTimerEvtGet, timerEvent.toList⟩]
  | _, _ => []

/-- All that interrupts have asked the scheduler to put in a run. -/
def asked (labels : List (EventPathStep E)) : List Posting :=
  StepMachine.trace step asks boot labels

/-- The stack events of a step. -/
def arrives (s : EventPath E) (label : EventPathStep E) : List E :=
  match s.halted, label with
  | none, .stackEvent event => [event]
  | _, _ => []

/-- All stack events of a run. -/
def arrived (labels : List (EventPathStep E)) : List E :=
  StepMachine.trace step arrives boot labels

/-- What the interrupts that have no entry yet are about to put. -/
def aboutToPut (frames : List PutFrame) : List Posting :=
  (frames.filter fun frame => decide (frame.pc = .entered)).map PutFrame.posting

/-- An interrupt that is taken is about to put what it asks for. -/
theorem accounted_enter {noted : List Posting} {s : EventPath E} (posting : Posting)
    (accounted : noted.Perm (s.puts ++ aboutToPut s.frames)) :
    (noted ++ [posting]).Perm ((s.enter posting).puts ++ aboutToPut (s.enter posting).frames) := by
  refine (accounted.append_right [posting]).trans ?_
  rw [List.append_assoc]
  exact (List.perm_append_singleton posting (aboutToPut s.frames)).append_left s.puts

/-- A step puts what an interrupt was about to put, or leaves it to be put. -/
theorem accounted_step {noted : List Posting} {s : EventPath E} (label : EventPathStep E)
    (accounted : noted.Perm (s.puts ++ aboutToPut s.frames)) :
    (noted ++ s.asks label).Perm ((s.step label).puts ++ aboutToPut (s.step label).frames) := by
  cases live : s.halted with
  | some halt => simpa [asks, EventPath.step, live] using accounted
  | none =>
    cases label with
    | stackEvent event =>
      simp only [asks, EventPath.step, live, List.append_nil]
      exact accounted
    | swi2IrqHandler =>
      simp only [asks, EventPath.step, live, EventPath.stepLive]
      split
      · -- The interrupt asks for its put when it is taken.
        exact accounted_enter (s := { s with swi2Pending := false }) _ accounted
      · simpa using accounted
    | rtc1IrqHandler timerEvent =>
      simp only [asks, EventPath.step, live, EventPath.stepLive]
      exact accounted_enter _ accounted
    | advance =>
      simp only [asks, EventPath.step, live, EventPath.stepLive, List.append_nil]
      split
      · rename_i frame rest top
        obtain ⟨posting, pc⟩ := frame
        rw [top] at accounted
        cases pc with
        | entered =>
          -- The posting goes from the end of one list to the end of the other, or stays.
          simp only [EventPath.stepFrame]
          split
          · split
            · simpa [top, EventPath.fail] using accounted
            · simpa [aboutToPut] using accounted
          · simpa [top, EventPath.fail] using accounted
        | reserved index => exact accounted
        | copying index k =>
          simp only [EventPath.stepFrame]
          split
          · exact accounted
          · exact accounted
      · -- The main loop puts nothing.
        obtain ⟨frames, puts, -⟩ := stepMain_frame s s.main
        rw [frames, puts]
        exact accounted

/-- Every event of a step is recorded as generated. -/
theorem generated_step (s : EventPath E) (label : EventPathStep E) :
    (s.step label).generated = s.generated ++ s.arrives label := by
  cases live : s.halted with
  | some halt => simp [arrives, EventPath.step, live]
  | none =>
    -- Only the arrival of a stack event is recorded.
    cases label with
    | stackEvent event => simp [arrives, EventPath.step, live, EventPath.stepLive]
    | swi2IrqHandler =>
      simp only [arrives, EventPath.step, live, EventPath.stepLive, List.append_nil]
      split
      · rfl
      · rfl
    | rtc1IrqHandler timerEvent =>
      simp [arrives, EventPath.step, live, EventPath.stepLive, EventPath.enter]
    | advance =>
      rw [(advance_frame s).2.1]
      simp [arrives, live]

/-- Without interrupts, nothing more is asked for. -/
theorem trace_asks_advances (n : Nat) : ∀ s : EventPath E,
    StepMachine.trace step asks s (List.replicate n .advance) = [] := by
  induction n with
  | zero => exact fun s => rfl
  | succ n ih =>
    intro s
    -- An advance is no interrupt.
    have nothing : s.asks .advance = [] := by
      cases live : s.halted with
      | none => simp [asks, live]
      | some halt => simp [asks, live]
    rw [List.replicate_succ, StepMachine.trace_cons, nothing, ih]
    rfl

/-- The interrupt of the stack leaves its events to the main loop. -/
theorem swi2IrqHandler_frame {s : EventPath E} (live : s.halted = none) :
    (s.step .swi2IrqHandler).halted = none ∧ (s.step .swi2IrqHandler).swi2Pending = false ∧
      (s.step .swi2IrqHandler).generated = s.generated := by
  simp only [EventPath.step, live, EventPath.stepLive]
  split
  · exact ⟨rfl, rfl, rfl⟩
  · rename_i idle
    exact ⟨live, Bool.eq_false_of_not_eq_true idle, rfl⟩

/-- Whatever interrupts have asked for has been put, or is about to be put. -/
theorem accounted_after (labels : List (EventPathStep E)) :
    (asked labels).Perm ((after labels).puts ++ aboutToPut (after labels).frames) :=
  StepMachine.run_trace
    (R := fun noted (s : EventPath E) => noted.Perm (s.puts ++ aboutToPut s.frames))
    (fun _ _ label accounted => accounted_step label accounted) labels [] boot (.refl _)

/-- All stack events of a run are recorded in their order. -/
theorem generated_after (labels : List (EventPathStep E)) :
    (after labels).generated = arrived labels :=
  StepMachine.run_trace (R := fun noted (s : EventPath E) => s.generated = noted)
    (fun _ s label same => (generated_step s label).trans (by rw [same])) labels [] boot rfl

/-! ### What the event path guarantees -/

/-- How many postings the main loop has taken from the queue without having run their handler. -/
def inHand : MainPc → Nat
  | .readingSize _ => 1
  | .readingHandler _ _ => 1
  | .running _ _ _ _ => 1
  | _ => 0

/-- The system has been reset because the queue was full. -/
def Overflowed (s : EventPath E) : Prop := s.halted = some (.appError nrfErrorNoMem)

/-- The guarantees of the event path after a run. -/
structure Reliable (labels : List (EventPathStep E)) (s : EventPath E) : Prop where
  /-- Whatever interrupts have asked the scheduler to put has been put once, or is about to be. -/
  accounted : (asked labels).Perm (s.puts ++ aboutToPut s.frames)
  /-- A put that finds room reserves the next entry, and comes behind all puts before it. -/
  recorded : ∀ posting rest, s.halted = none → s.frames = ⟨posting, .entered⟩ :: rest →
    s.sched.isFull = false →
      (s.step .advance).halted = none ∧ (s.step .advance).puts = s.puts ++ [posting] ∧
        (s.step .advance).frames = ⟨posting, .reserved s.sched.queueEndIndex⟩ :: rest ∧
        (s.step .advance).sched.slots = s.sched.slots ++ [s.sched.queueEndIndex]
  /-- A put that finds the queue full changes nothing in it and resets the system. -/
  overflow : ∀ posting rest, s.halted = none → s.frames = ⟨posting, .entered⟩ :: rest →
    s.sched.isFull = true →
      s.step .advance = { s with halted := some (.appError nrfErrorNoMem) }
  /-- Nothing else resets the system. -/
  onlyOverflow : ∀ label, s.halted = none → (s.step label).halted ≠ none →
    ∃ posting rest, s.frames = ⟨posting, .entered⟩ :: rest ∧ s.sched.isFull = true
  /-- A reset has the error code of a full queue. -/
  resetCode : s.halted ≠ none → s.Overflowed
  /-- Handlers run in the order of the puts, each with the handler and the bytes posted. -/
  inOrder : s.executed <+: s.puts
  /-- What has not run yet is in the queue or in the hands of the main loop. -/
  complete : s.puts.length = s.executed.length + inHand s.main + s.sched.slots.length
  /-- Left alone, the main loop runs everything that interrupts have asked for, and then sleeps. -/
  eventually : s.halted = none → ∃ n,
    let t := StepMachine.run step s (List.replicate n .advance)
    t.Overflowed ∨
      (Quiet t ∧ s.puts <+: t.puts ∧ t.executed = t.puts ∧ (asked labels).Perm t.executed)
  /-- The stack events so far are those that were dispatched and those still in the stack. -/
  conserved : s.dispatched ++ s.stack = arrived labels
  /-- Once the interrupt of the stack is taken, the main loop dispatches every event, and sleeps. -/
  dispatches : s.halted = none → ∃ n,
    let t := StepMachine.run step s (.swi2IrqHandler :: List.replicate n .advance)
    t.Overflowed ∨ (Quiet t ∧ t.executed = t.puts ∧ t.dispatched = arrived labels)
  /-- The main loop does not sleep over an event: all that has been put has run by then. -/
  awake : s.main = .sleeping → s.irqOccurred = false →
    s.executed = s.puts ∧ s.sched.isEmpty = true ∧
      (s.swi2Pending = false → s.dispatched = arrived labels)

/-- A step that resets the system is a put into a full queue. -/
theorem Sound.full_of_halts {s : EventPath E} (sound : Sound s) (live : s.halted = none)
    (label : EventPathStep E) (halts : (s.step label).halted ≠ none) :
    ∃ posting rest, s.frames = ⟨posting, .entered⟩ :: rest ∧ s.sched.isFull = true := by
  obtain ⟨halt, stopped⟩ := Option.ne_none_iff_exists'.mp halts
  -- The error code is that of a full queue, which only a put gives.
  obtain rfl := (sound.step label).overflow halt stopped
  simp only [EventPath.step, live] at stopped
  cases label with
  | stackEvent event => simp [EventPath.stepLive, live] at stopped
  | swi2IrqHandler =>
    simp only [EventPath.stepLive] at stopped
    split at stopped
    · simp [EventPath.enter, live] at stopped
    · simp [live] at stopped
  | rtc1IrqHandler timerEvent => simp [EventPath.stepLive, EventPath.enter, live] at stopped
  | advance =>
    simp only [EventPath.stepLive] at stopped
    split at stopped
    · rename_i frame rest top
      obtain ⟨posting, pc⟩ := frame
      cases pc with
      | entered =>
        obtain ⟨current, pending, delivers⟩ := sound.delivers
        have sized := delivers.serving.sized _ (top ▸ List.mem_cons_self)
        refine ⟨posting, rest, top, ?_⟩
        -- With room, the put would have gone on.
        by_contra room
        simp [EventPath.stepFrame, fits_of_sized sized, room, live] at stopped
      | reserved index => simp [EventPath.stepFrame, live] at stopped
      | copying index k =>
        simp only [EventPath.stepFrame] at stopped
        split at stopped
        · simp [live] at stopped
        · simp [live] at stopped
    · -- The main loop would give another error code.
      rcases stepMain_halted live s.main with runs | other
      · simp [runs] at stopped
      · rw [other] at stopped
        exact absurd stopped (by decide)

/-- While the main loop sleeps undisturbed, nothing is left to be done. -/
theorem Delivers.rest {s : EventPath E} {current : Option Posting} {pending : List Posting}
    (delivers : Delivers s current pending) (sleeping : s.main = .sleeping)
    (undisturbed : s.irqOccurred = false) :
    s.executed = s.puts ∧ s.sched.isEmpty = true ∧ (s.swi2Pending = false → s.stack = []) := by
  have held := delivers.inHand
  rw [sleeping] at held
  -- A sleeping main loop has nothing in hand.
  have free : current = none := held
  have empty := delivers.drained (.inr sleeping) undisturbed
  -- An empty queue holds no posting, and no interrupt is being served.
  have nothing : pending = [] := by
    have filled := delivers.filled
    rw [slots_eq_nil.mpr empty] at filled
    exact List.forall₂_nil_left_iff.mp filled
  have idle : s.frames = [] := by
    by_contra some_
    have alert := delivers.serving.alert some_
    rw [undisturbed] at alert
    cases alert
  subst free nothing
  refine ⟨?_, ?_, fun swi2 => ?_⟩
  · simpa using delivers.order.symm
  · simp [AppSched.isEmpty, empty]
  · -- An event in the stack would have been announced, and there is nobody left to do so.
    by_contra some_
    rcases delivers.announced some_ with pending | pulling | ⟨posting, member, -⟩ |
      ⟨frame, member, -⟩
    · rw [swi2] at pending
      cases pending
    · rw [sleeping] at pulling
      cases pulling
    · simp at member
    · simp [idle] at member

/-- The main loop has as many postings in hand as its position says. -/
theorem inHand_eq {q : HubSched} {current : Option Posting} {main : MainPc}
    (held : InHand q current main) : inHand main = current.toList.length := by
  -- A posting is in hand from the release of its entry to the end of its handler.
  cases main with
  | taking => simp [inHand, held.1]
  | readingSize | readingHandler | running =>
    obtain ⟨posting, rfl, -⟩ := held
    rfl
  | testing | pulling | waiting | sleeping =>
    have none : current = none := held
    simp [inHand, none]

/-- Left alone, the event path comes to rest with everything done, or the queue was too small. -/
theorem Sound.rests {s : EventPath E} (sound : Sound s) (live : s.halted = none) : ∃ n,
    let t := StepMachine.run EventPath.step s (List.replicate n .advance)
    t.Overflowed ∨ (Quiet t ∧ t.executed = t.puts ∧ (t.swi2Pending = false → t.stack = [])) := by
  obtain ⟨n, rests⟩ := comesToRest _ _ sound live (Nat.lt_succ_self _)
  have later := sound.run (List.replicate n .advance)
  refine ⟨n, rests.imp (fun halted => ?_) fun quiet => ?_⟩
  · -- There is only one reason for which the system can have been reset.
    obtain ⟨halt, stopped⟩ := Option.ne_none_iff_exists'.mp halted
    exact stopped.trans (congrArg some (later.overflow halt stopped))
  · obtain ⟨current, pending, delivers⟩ := later.delivers
    obtain ⟨all, -, pulled⟩ := delivers.rest quiet.2.1 quiet.2.2
    exact ⟨quiet, all, pulled⟩

/--
Every event that an interrupt puts reaches the main loop once, in order and unharmed, however
the interrupts fall between the steps of the main loop and between each other's.
-/
theorem reliable_after (labels : List (EventPathStep E)) : Reliable labels (after labels) := by
  -- All guarantees are read off the invariant of the run and the account of what was asked for.
  have sound := sound_after labels
  have accounted := accounted_after labels
  have generated := generated_after labels
  obtain ⟨current, pending, delivers⟩ := sound.delivers
  refine ⟨accounted, ?_, ?_, fun label live => sound.full_of_halts live label, fun halted => ?_,
    ?_, ?_, fun live => ?_, ?_, fun live => ?_, fun sleeping quiet => ?_⟩
  · -- With room, the put takes the next entry and goes on record.
    intro posting rest live top room
    have sized := delivers.serving.sized _ (top ▸ List.mem_cons_self)
    simp only [EventPath.step, live, EventPath.stepLive, top, EventPath.stepFrame,
      fits_of_sized sized, room, if_true, Bool.false_eq_true, if_false]
    exact ⟨trivial, trivial, trivial, (slots_reserve room).1⟩
  · -- Without room, the only effect is the reset.
    intro posting rest live top full
    have sized := delivers.serving.sized _ (top ▸ List.mem_cons_self)
    simp only [EventPath.step, live, EventPath.stepLive, top, EventPath.stepFrame,
      fits_of_sized sized, full, if_true, fail]
  · obtain ⟨halt, stopped⟩ := Option.ne_none_iff_exists'.mp halted
    exact stopped.trans (congrArg some (sound.overflow halt stopped))
  · -- What has run comes in front of what is in hand and what is in the queue.
    rw [delivers.order, List.append_assoc]
    exact List.prefix_append _ _
  · rw [delivers.order, inHand_eq delivers.inHand, delivers.filled.length_eq]
    simp only [List.length_append]
  · obtain ⟨n, full | ⟨quiet, all, -⟩⟩ := sound.rests live
    · exact ⟨n, .inl full⟩
    refine ⟨n, .inr ⟨quiet, (advances_frame n _).1, all, ?_⟩⟩
    -- Advancing asks for nothing new, and nobody is about to put anything in the end.
    have later := StepMachine.run_trace
      (R := fun noted (s : EventPath E) => noted.Perm (s.puts ++ aboutToPut s.frames))
      (fun _ _ label accounted => accounted_step label accounted)
      (List.replicate n .advance) _ _ accounted
    rw [trace_asks_advances, List.append_nil, quiet.1, ← all] at later
    simpa [aboutToPut] using later
  · rw [sound.conserved, generated]
  · -- From there on nothing is pending, so the stack is empty when the main loop sleeps.
    obtain ⟨running, taken, same⟩ := swi2IrqHandler_frame live
    obtain ⟨n, full | ⟨quiet, all, pulled⟩⟩ := (sound.step .swi2IrqHandler).rests running
    · exact ⟨n, .inl full⟩
    refine ⟨n, .inr ⟨quiet, all, ?_⟩⟩
    obtain ⟨-, same', swi2⟩ := advances_frame n ((after labels).step .swi2IrqHandler)
    have whole := ((sound.step .swi2IrqHandler).run (List.replicate n .advance)).conserved
    rw [pulled (swi2.trans taken), List.append_nil] at whole
    exact whole.trans ((same'.trans same).trans generated)
  · -- Asleep and undisturbed, the main loop has left nothing undone.
    obtain ⟨all, empty, pulled⟩ := delivers.rest sleeping quiet
    refine ⟨all, empty, fun swi2 => ?_⟩
    rw [← generated, ← sound.conserved, pulled swi2, List.append_nil]

/-- Two stack events, and a timer that expires while the interrupt for them is putting its event. -/
def nestedRun : List (EventPathStep Nat) :=
  [.stackEvent 1, .stackEvent 2, .swi2IrqHandler, .advance,
    .rtc1IrqHandler #v[1, 2, 3, 4, 5, 6, 7, 8]] ++ List.replicate 48 .advance

/-- Both interrupts are served, the stack is emptied, and the main loop sleeps. -/
theorem reliable_after_nestedRun :
    asked nestedRun = [⟨.bleStackEvtGet, []⟩, ⟨.appTimerEvtGet, [1, 2, 3, 4, 5, 6, 7, 8]⟩] ∧
      (after nestedRun).executed =
        [⟨.bleStackEvtGet, []⟩, ⟨.appTimerEvtGet, [1, 2, 3, 4, 5, 6, 7, 8]⟩] ∧
      (after nestedRun).dispatched = [1, 2] := by
  have sleeping : (after nestedRun).main = .sleeping := by decide +kernel
  have undisturbed : (after nestedRun).irqOccurred = false := by decide +kernel
  have taken : (after nestedRun).swi2Pending = false := by decide +kernel
  have puts : (after nestedRun).puts = asked nestedRun := by decide +kernel
  have asked_ : asked nestedRun =
      [⟨.bleStackEvtGet, []⟩, ⟨.appTimerEvtGet, [1, 2, 3, 4, 5, 6, 7, 8]⟩] := by decide +kernel
  have arrived_ : arrived nestedRun = [1, 2] := by decide +kernel
  obtain ⟨executed, -, dispatched⟩ := (reliable_after nestedRun).awake sleeping undisturbed
  exact ⟨asked_, by rw [executed, puts, asked_], by rw [dispatched taken, arrived_]⟩

end EventPath

end BleHub
