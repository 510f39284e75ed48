import BleHub.Firmware.System
import BleHub.Proofs.Delivery

/-! The scheduler queue of the whole firmware, as it lies in memory and as interrupts fill it. -/

namespace BleHub

open AppSched

/-! ### The representation in memory -/

/-- An entry as an interrupt posts it, given where the code of the timeout handlers lies. -/
def SchedEvent.posting (address : Option TimeoutHandler → Vector UInt8 4) : SchedEvent → Posting
  | .bleStackEvt => ⟨.bleStackEvtGet, []⟩
  -- The context of a timer is NULL in the source, whatever it records here.
  | .appTimerEvt timeoutHandler _ _ =>
    ⟨.appTimerEvtGet, (address timeoutHandler).toList ++ List.replicate 4 0⟩

/-- What the queue in memory holds for a posting. -/
def Posting.event (posting : Posting) : SchedEventHandler × List UInt8 :=
  (posting.handler, posting.eventData)

/-- The queue in memory holds the events of the queue, in the same order. -/
structure Represents (address : Option TimeoutHandler → Vector UInt8 4) (q : HubSched)
    (queue : SchedQueue) : Prop where
  fits : q.Fits
  contents : q.contents = queue.contents.map fun event => (event.posting address).event

section

variable {address : Option TimeoutHandler → Vector UInt8 4} {q : HubSched} {queue : SchedQueue}

/-- Every entry is posted with as much data as its handler checks for. -/
theorem SchedEvent.sized (event : SchedEvent) : (event.posting address).Sized := by
  cases event with
  | bleStackEvt => rfl
  | appTimerEvt timeoutHandler context posted =>
    -- Both the handler and the context are pointers of four bytes.
    rw [Posting.Sized, posting, List.length_append, List.length_replicate, Vector.length_toList]
    rfl

/-- Both queues are empty when main enters its loop. -/
theorem represents_init : Represents address (.init .bleStackEvtGet) (.empty .bleStackEvt) := by
  refine ⟨?_, ?_⟩
  · intro index member
    exact absurd member List.not_mem_nil
  · rw [RingBuffer.contents_empty]
    rfl

/-- Posting to the queue puts the event into the memory, or finds both queues full. -/
theorem Represents.put (represents : Represents address q queue) (event : SchedEvent) :
    let posting := event.posting address
    (queue.push event = none ∧
        q.appSchedEventPut posting.handler posting.eventData = (nrfErrorNoMem, q)) ∨
      ∃ queue' q', queue.push event = some queue' ∧
        q.appSchedEventPut posting.handler posting.eventData = (nrfSuccess, q') ∧
        Represents address q' queue' := by
  intro posting
  have same : q.contents.length = queue.contents.length := by
    rw [represents.contents, List.length_map]
  -- As many events wait in the memory as in the queue, so either both have room or neither.
  rcases appSchedEventPut_spec represents.fits posting.handler (fits_of_sized event.sized) with
    ⟨full, refused⟩ | ⟨q', room, put, fits, contents⟩
  · rcases queue.push_spec event with ⟨-, none⟩ | ⟨below, -⟩
    · exact .inl ⟨none, refused⟩
    · omega
  · rcases queue.push_spec event with ⟨all, -⟩ | ⟨-, queue', pushed, longer⟩
    · omega
    · refine .inr ⟨queue', q', pushed, put, fits, ?_⟩
      rw [contents, longer, represents.contents, List.map_append, List.map_singleton]
      rfl

/-- Taking an entry from the queue gets its event from the memory, or finds both queues empty. -/
theorem Represents.get (represents : Represents address q queue) :
    (queue.pop = none ∧ q.appSchedEventGet = (none, q)) ∨
      ∃ event queue' q', queue.pop = some (event, queue') ∧
        q.appSchedEventGet = (some (event.posting address).event, q') ∧
        Represents address q' queue' := by
  have same := represents.contents
  -- If one of the queues is empty so is the other, as their contents agree.
  rcases appSchedEventGet_spec represents.fits with ⟨empty, none⟩ | ⟨read, q', got, fits, first⟩
  · rcases queue.pop_spec with ⟨-, nothing⟩ | ⟨event, queue', -, contents⟩
    · exact .inl ⟨nothing, none⟩
    · simp [empty, contents] at same
  · rcases queue.pop_spec with ⟨nothing, -⟩ | ⟨event, queue', popped, contents⟩
    · simp [first, nothing] at same
    · -- The oldest event is the same in both, and so are the ones behind it.
      rw [first, contents, List.map_cons, List.cons.injEq] at same
      obtain ⟨rfl, rest⟩ := same
      exact .inr ⟨event, queue', q', popped, got, fits, rest⟩

end

/-- What an interrupt or the main loop does with the queue. -/
inductive QueueStep where
  | put (event : SchedEvent)
  | get

/-- The queue after one of them. -/
def queueStep (queue : SchedQueue) : QueueStep → SchedQueue
  | .put event => (queue.push event).getD queue
  | .get =>
    match queue.pop with
    | some (_, rest) => rest
    | none => queue

/-- The memory after one of them. -/
def memoryStep (address : Option TimeoutHandler → Vector UInt8 4) (q : HubSched) :
    QueueStep → HubSched
  | .put event =>
    (q.appSchedEventPut (event.posting address).handler (event.posting address).eventData).2
  | .get => q.appSchedEventGet.2

/-- Whatever interrupts and main loop do, the memory holds the events of the queue. -/
theorem represents_after (address : Option TimeoutHandler → Vector UInt8 4)
    (steps : List QueueStep) :
    Represents address (StepMachine.run (memoryStep address) (.init .bleStackEvtGet) steps)
      (StepMachine.run queueStep (.empty .bleStackEvt) steps) := by
  refine StepMachine.run_related ?_ steps _ _ represents_init
  intro q queue step represents
  -- Every step does the same to both queues.
  cases step with
  | put event =>
    simp only [memoryStep, queueStep]
    rcases represents.put event with ⟨none, refused⟩ | ⟨queue', q', pushed, put, next⟩
    · -- Neither of them has room, and neither of them changes.
      rw [none, refused]
      exact represents
    · rw [pushed, put]
      exact next
  | get =>
    simp only [memoryStep, queueStep]
    rcases represents.get with ⟨none, empty⟩ | ⟨event, queue', q', popped, got, next⟩
    · -- There is nothing to take from either of them.
      rw [none, empty]
      exact represents
    · rw [popped, got]
      exact next

/-! ### The interrupts that fill it -/

namespace EventPath

variable {E : Type}

/-- An interrupt that is left alone copies the bytes that are left, and returns. -/
theorem run_copying {posting : Posting} {rest : List PutFrame} {index : SchedSlot}
    (bytes : List UInt8) : ∀ k (s : EventPath E), s.halted = none →
      s.frames = ⟨posting, .copying index k⟩ :: rest → bytes = posting.eventData.drop k →
      StepMachine.run step s (List.replicate (bytes.length + 1) .advance) =
        { s with
          sched := (memcpy index k bytes s.sched).writeSize index posting.eventData.length
          frames := rest } := by
  -- Every byte takes one step, and writing the size takes the last one.
  induction bytes with
  | nil =>
    intro k s live top left
    have all : posting.eventData[k]? = none := by
      rw [← List.head?_drop, ← left, List.head?_nil]
    simp [step, live, stepLive, top, stepFrame, all, memcpy]
  | cons byte bytes ih =>
    intro k s live top left
    have given : posting.eventData[k]? = some byte := by
      rw [← List.head?_drop, ← left, List.head?_cons]
    -- Behind the byte come the others, from the next place on.
    have later : bytes = posting.eventData.drop (k + 1) := by
      rw [← List.tail_drop, ← left, List.tail_cons]
    have here : s.step .advance = { s with
        sched := s.sched.writeByte index k byte
        frames := ⟨posting, .copying index (k + 1)⟩ :: rest } := by
      simp [step, live, stepLive, top, stepFrame, given]
    rw [List.length_cons, List.replicate_succ, StepMachine.run_cons, here]
    exact ih (k + 1) _ live rfl later

/-- An interrupt that is left alone does what the function of the scheduler does. -/
theorem run_put {s : EventPath E} {posting : Posting} {rest : List PutFrame}
    (live : s.halted = none) (top : s.frames = ⟨posting, .entered⟩ :: rest)
    (sized : posting.Sized) (room : s.sched.isFull = false) :
    StepMachine.run step s (List.replicate (posting.eventData.length + 3) .advance) =
      { s with
        sched := (s.sched.appSchedEventPut posting.handler posting.eventData).2
        frames := rest
        puts := s.puts ++ [posting] } := by
  have fits := fits_of_sized sized
  -- The entry is reserved, then the handler is written, and the data follows.
  have reserve : s.step .advance = { s with
      sched := s.sched.reserve
      frames := ⟨posting, .reserved s.sched.queueEndIndex⟩ :: rest
      puts := s.puts ++ [posting] } := by
    simp [step, live, stepLive, top, stepFrame, fits, room]
  have write : (s.step .advance).step .advance = { s with
      sched := s.sched.reserve.writeHandler s.sched.queueEndIndex posting.handler
      frames := ⟨posting, .copying s.sched.queueEndIndex 0⟩ :: rest
      puts := s.puts ++ [posting] } := by
    rw [reserve]
    simp [step, live, stepLive, stepFrame]
  -- What the interrupt does from here on is a copy from the first byte.
  have copy := run_copying posting.eventData 0 ((s.step .advance).step .advance)
    (by rw [write]; exact live) (by rw [write]) rfl
  rw [List.replicate_succ, StepMachine.run_cons, List.replicate_succ, StepMachine.run_cons, copy,
    write]
  simp only [appSchedEventPut, if_pos fits, room, Bool.false_eq_true, if_false]

/-- Between interrupts, the memory holds what has been put and not taken by the main loop. -/
theorem queued_after (labels : List (EventPathStep E)) (idle : (after labels).frames = []) :
    let s := after labels
    ∃ current : Option Posting, current.toList.length = inHand s.main ∧
      s.puts.map Posting.event =
        (s.executed ++ current.toList).map Posting.event ++ s.sched.contents := by
  obtain ⟨current, pending, delivers⟩ := (sound_after labels).delivers
  refine ⟨current, (inHand_eq delivers.inHand).symm, ?_⟩
  -- Without an interrupt being served, every entry is complete.
  have read : (after labels).sched.contents = pending.map Posting.event := by
    rw [AppSched.contents, ← List.forall₂_eq_eq_eq, List.forall₂_map_left_iff,
      List.forall₂_map_right_iff]
    exact (delivers.stored idle).imp fun _ _ held => held.2.entry_eq
  rw [delivers.order, List.map_append, read]

end EventPath

end BleHub
