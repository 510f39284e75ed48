import BleHub.Firmware.EventPath
import BleHub.Lib.StepMachine
import BleHub.Proofs.AppScheduler
import Mathlib.Data.List.Forall2

/-! Every event that an interrupt has put reaches the main loop once, in order and unharmed. -/

namespace BleHub

open AppSched

/-- A posting carries as many bytes as its handler checks for. -/
def Posting.Sized (posting : Posting) : Prop :=
  posting.eventData.length = posting.handler.eventSize

/-- A posting of the right size fits into an entry. -/
theorem fits_of_sized {posting : Posting} (sized : posting.Sized) :
    posting.eventData.length ≤ schedMaxEventDataSize := by
  -- No handler checks for more bytes than an entry has.
  have bound : posting.handler.eventSize ≤ schedMaxEventDataSize := by
    cases posting.handler with
    | bleStackEvtGet => exact Nat.zero_le _
    | appTimerEvtGet => exact le_refl _
  rw [sized]
  exact bound

/-! ### Interrupts and the entries they fill -/

/-- The entry that an interrupt has reserved. -/
def PutPc.index? : PutPc → Option SchedSlot
  | .entered => none
  | .reserved index => some index
  | .copying index _ => some index

/-- What an interrupt has written so far is in its entry. -/
def PutFrame.Progress (frame : PutFrame) (q : HubSched) : Prop :=
  match frame.pc with
  | .entered => True
  | .reserved _ => True
  | .copying index k => Copied q index frame.posting.handler frame.posting.eventData k

/-- An interrupt loses nothing while its entry is left alone. -/
theorem PutFrame.Progress.leaves {frame : PutFrame} {q q' : HubSched}
    (progress : frame.Progress q) (sized : frame.posting.Sized)
    (leaves : ∀ index ∈ frame.pc.index?, Leaves q q' index) : frame.Progress q' := by
  obtain ⟨posting, pc⟩ := frame
  cases pc with
  | entered | reserved => trivial
  | copying index k => exact Copied.leaves progress (fits_of_sized sized) (leaves index rfl)

/-- An entry of the queue holds its posting, or an interrupt is about to complete it. -/
structure Filled (q : HubSched) (frames : List PutFrame) (index : SchedSlot)
    (posting : Posting) : Prop where
  sized : posting.Sized
  own : ∀ frame ∈ frames, frame.pc.index? = some index → frame.posting = posting
  done : (∃ frame ∈ frames, frame.pc.index? = some index) ∨
    Holds q index posting.handler posting.eventData

/-- The interrupts being served fill different entries of the queue. -/
structure Serving (q : HubSched) (frames : List PutFrame) (irqOccurred : Bool) : Prop where
  sized : ∀ frame ∈ frames, frame.posting.Sized
  inside : ∀ frame ∈ frames, ∀ index ∈ frame.pc.index?, index ∈ q.slots
  apart : (frames.filterMap (·.pc.index?)).Nodup
  progress : ∀ frame ∈ frames, frame.Progress q
  alert : frames ≠ [] → irqOccurred = true

/-! ### The posting in the hands of the main loop -/

/-- The entry holds a posting, without being part of the queue any more. -/
structure Kept (q : HubSched) (index : SchedSlot) (posting : Posting) : Prop where
  released : index ∉ q.slots
  behind : index + 1 = q.queueStartIndex
  holds : Holds q index posting.handler posting.eventData

/-- How the main loop has the current posting in hand. -/
def InHand (q : HubSched) (current : Option Posting) : MainPc → Prop
  | .taking => current = none ∧ q.queueEndIndex ≠ q.queueStartIndex
  | .readingSize index => ∃ posting, current = some posting ∧ Kept q index posting
  | .readingHandler index eventDataSize =>
    ∃ posting, current = some posting ∧ Kept q index posting ∧
      eventDataSize = posting.eventData.length
  | .running index eventDataSize handler read =>
    ∃ posting, current = some posting ∧ Kept q index posting ∧
      eventDataSize = posting.eventData.length ∧ handler = posting.handler ∧
      read = posting.eventData.take read.length
  | .testing => current = none
  | .pulling => current = none
  | .waiting => current = none
  | .sleeping => current = none

/-- The posting in hand stays in hand while its entry is left alone. -/
theorem InHand.leaves {q q' : HubSched} {current : Option Posting} {main : MainPc}
    (inHand : InHand q current main) (sized : ∀ posting ∈ current, posting.Sized)
    (start : q'.queueStartIndex = q.queueStartIndex)
    (some_ : q.queueEndIndex ≠ q.queueStartIndex → q'.queueEndIndex ≠ q'.queueStartIndex)
    (kept : ∀ index, index ∉ q.slots → index + 1 = q.queueStartIndex →
      Leaves q q' index ∧ index ∉ q'.slots) : InHand q' current main := by
  -- The entry lies right behind the start of the queue, so one fact about it serves all cases.
  have keeps : ∀ index posting, current = some posting → Kept q index posting →
      Kept q' index posting := by
    intro index posting same held
    obtain ⟨leaves, released⟩ := kept index held.released held.behind
    exact ⟨released, by rw [start]; exact held.behind,
      held.holds.leaves (fits_of_sized (sized posting same)) leaves⟩
  cases main with
  | taking => exact ⟨inHand.1, some_ inHand.2⟩
  | readingSize index =>
    obtain ⟨posting, same, held⟩ := inHand
    exact ⟨posting, same, keeps index posting same held⟩
  | readingHandler index eventDataSize =>
    obtain ⟨posting, same, held, size⟩ := inHand
    exact ⟨posting, same, keeps index posting same held, size⟩
  | running index eventDataSize handler read =>
    obtain ⟨posting, same, held, rest⟩ := inHand
    exact ⟨posting, same, keeps index posting same held, rest⟩
  | testing | pulling | waiting | sleeping => exact inHand

/-- Reading one more byte in place gives the next byte of the posting in hand. -/
theorem Kept.readByte {q : HubSched} {index : SchedSlot} {posting : Posting} {read : List UInt8}
    (kept : Kept q index posting) (sofar : read = posting.eventData.take read.length)
    (more : read.length < posting.eventData.length) :
    read ++ [q.readByte index read.length] =
      posting.eventData.take (read ++ [q.readByte index read.length]).length := by
  -- The entry still holds the whole posting, so the byte at this place is the next one.
  have given : posting.eventData[read.length]? = some posting.eventData[read.length] :=
    List.getElem?_eq_getElem more
  have byte := kept.holds.bytes _ _ given
  rw [List.length_append, List.length_singleton, List.take_add_one, given, ← sofar, byte]
  rfl

/-- Somebody is going to pull the events of the stack. -/
def Announced (swi2Pending : Bool) (main : MainPc) (frames : List PutFrame)
    (current : Option Posting) (pending : List Posting) : Prop :=
  swi2Pending = true ∨ main = .pulling ∨
    (∃ posting ∈ current.toList ++ pending, posting.handler = .bleStackEvtGet) ∨
    ∃ frame ∈ frames, frame.pc = .entered ∧ frame.posting.handler = .bleStackEvtGet

/-! ### Taking an interrupt -/

/-- A new interrupt has no entry yet. -/
theorem Filled.enter {q : HubSched} {frames : List PutFrame} {index : SchedSlot}
    {posting new : Posting} (filled : Filled q frames index posting) :
    Filled q (⟨new, .entered⟩ :: frames) index posting := by
  -- Only the older interrupts can be at work on the entry.
  refine ⟨filled.sized, ?_, ?_⟩
  · intro frame member mine
    rcases List.mem_cons.mp member with rfl | before
    · cases mine
    · exact filled.own frame before mine
  · rcases filled.done with ⟨frame, member, mine⟩ | holds
    · exact .inl ⟨frame, List.mem_cons_of_mem _ member, mine⟩
    · exact .inr holds

/-- An interrupt that enters has no entry yet. -/
theorem Serving.enter {q : HubSched} {frames : List PutFrame} {irqOccurred : Bool} {new : Posting}
    (serving : Serving q frames irqOccurred) (sized : new.Sized) :
    Serving q (⟨new, .entered⟩ :: frames) true := by
  -- Without an entry, the new interrupt has nothing to stay apart from.
  refine ⟨?_, ?_, serving.apart, ?_, fun _ => rfl⟩
  · intro frame member
    rcases List.mem_cons.mp member with rfl | before
    · exact sized
    · exact serving.sized frame before
  · intro frame member index mine
    rcases List.mem_cons.mp member with rfl | before
    · cases mine
    · exact serving.inside frame before index mine
  · intro frame member
    rcases List.mem_cons.mp member with rfl | before
    · trivial
    · exact serving.progress frame before

/-- The interrupt for stack events takes over from its pending flag. -/
theorem Announced.enter {swi2Pending swi2Pending' : Bool} {main : MainPc} {frames : List PutFrame}
    {current : Option Posting} {pending : List Posting} {new : Posting}
    (announced : Announced swi2Pending main frames current pending)
    (told : swi2Pending' = swi2Pending ∨ new.handler = .bleStackEvtGet) :
    Announced swi2Pending' main (⟨new, .entered⟩ :: frames) current pending := by
  rcases told with rfl | here
  · rcases announced with swi2 | pulling | posted | ⟨frame, member, entered⟩
    · exact .inl swi2
    · exact .inr (.inl pulling)
    · exact .inr (.inr (.inl posted))
    · exact .inr (.inr (.inr ⟨frame, List.mem_cons_of_mem _ member, entered⟩))
  · exact .inr (.inr (.inr ⟨_, List.mem_cons_self, rfl, here⟩))

/-! ### Filling an entry -/

/-- The innermost interrupt writes to its own entry, and returns once the entry is complete. -/
structure Fills (q q' : HubSched) (frame : PutFrame) (rest frames' : List PutFrame)
    (index : SchedSlot) : Prop where
  mine : frame.pc.index? = some index
  start : q'.queueStartIndex = q.queueStartIndex
  end_ : q'.queueEndIndex = q.queueEndIndex
  leaves : ∀ other, other ≠ index → Leaves q q' other
  next : (frames' = rest ∧ Holds q' index frame.posting.handler frame.posting.eventData) ∨
    ∃ frame', frames' = frame' :: rest ∧ frame'.posting = frame.posting ∧
      frame'.pc.index? = some index ∧ frame'.Progress q'

section

variable {q q' : HubSched} {frame : PutFrame} {rest frames' : List PutFrame} {index : SchedSlot}

/-- The entries of the queue are the same as before. -/
theorem Fills.slots (fills : Fills q q' frame rest frames' index) : q'.slots = q.slots := by
  rw [AppSched.slots, fills.start, fills.end_, AppSched.slots]

/-- Whether or not the interrupt returns, the others are still there. -/
theorem Fills.stay (fills : Fills q q' frame rest frames' index) :
    ∀ other ∈ rest, other ∈ frames' := by
  -- They are behind the innermost interrupt in either case.
  intro other member
  rcases fills.next with ⟨rfl, -⟩ | ⟨frame', rfl, -⟩
  · exact member
  · exact List.mem_cons_of_mem _ member

/-- Besides the others there is at most the interrupt itself, one step further. -/
theorem Fills.origin (fills : Fills q q' frame rest frames' index) :
    ∀ other ∈ frames', other ∈ rest ∨ (other.posting = frame.posting ∧
      other.pc.index? = some index ∧ other.Progress q') := by
  intro other member
  rcases fills.next with ⟨rfl, -⟩ | ⟨frame', rfl, further⟩
  · exact .inl member
  · rcases List.mem_cons.mp member with rfl | before
    · exact .inr further
    · exact .inl before

/-- The entries of the other interrupts are other ones. -/
theorem Serving.elsewhere {irqOccurred : Bool} (serving : Serving q (frame :: rest) irqOccurred)
    (mine : frame.pc.index? = some index) :
    ∀ other ∈ rest, ∀ index' ∈ other.pc.index?, index' ≠ index := by
  -- No entry occurs twice among those of the interrupts.
  have apart := serving.apart
  simp only [List.filterMap_cons, mine, List.nodup_cons] at apart
  rintro other member index' held rfl
  exact apart.1 (List.mem_filterMap.mpr ⟨other, member, held⟩)

/-- An entry is filled by its own interrupt, and left alone by all others. -/
theorem Filled.fill {index' : SchedSlot} {posting : Posting}
    (filled : Filled q (frame :: rest) index' posting)
    (fills : Fills q q' frame rest frames' index) : Filled q' frames' index' posting := by
  -- Whoever is at the entry afterwards was at it before.
  refine ⟨filled.sized, ?_, ?_⟩
  · intro other member held
    rcases fills.origin other member with before | ⟨same, at_, -⟩
    · exact filled.own other (List.mem_cons_of_mem _ before) held
    · -- The interrupt that is at it now is the one that has been filling it.
      have here : index = index' := Option.some.inj (at_.symm.trans held)
      rw [same]
      exact filled.own frame List.mem_cons_self (here ▸ fills.mine)
  · by_cases here : index' = index
    · -- Either the entry is complete now, or the interrupt is still at it.
      subst here
      have same := filled.own frame List.mem_cons_self fills.mine
      rcases fills.next with ⟨-, holds⟩ | ⟨frame', rfl, -, at_, -⟩
      · exact .inr (same ▸ holds)
      · exact .inl ⟨frame', List.mem_cons_self, at_⟩
    · -- Another entry is still with its own interrupt, or complete and left alone.
      rcases filled.done with ⟨other, member, held⟩ | holds
      · rcases List.mem_cons.mp member with rfl | before
        · exact absurd (Option.some.inj (held.symm.trans fills.mine)) here
        · exact .inl ⟨other, fills.stay other before, held⟩
      · exact .inr (holds.leaves (fits_of_sized filled.sized) (fills.leaves index' here))

/-- An interrupt writes to the entry that it has reserved, or leaves. -/
theorem Serving.fill {irqOccurred : Bool} (serving : Serving q (frame :: rest) irqOccurred)
    (fills : Fills q q' frame rest frames' index) : Serving q' frames' irqOccurred := by
  -- The interrupts left are the others, and possibly this one with its posting and its entry.
  refine ⟨?_, ?_, ?_, ?_, fun _ => serving.alert (by simp)⟩
  · intro other member
    rcases fills.origin other member with before | ⟨same, -⟩
    · exact serving.sized other (List.mem_cons_of_mem _ before)
    · rw [Posting.Sized, same]
      exact serving.sized frame List.mem_cons_self
  · -- No entry has left the queue meanwhile.
    intro other member index' held
    rw [fills.slots]
    rcases fills.origin other member with before | ⟨-, at_, -⟩
    · exact serving.inside other (List.mem_cons_of_mem _ before) index' held
    · have here : index = index' := Option.some.inj (at_.symm.trans held)
      exact here ▸ serving.inside frame List.mem_cons_self index fills.mine
  · -- The interrupt keeps its entry or gives it up.
    have apart := serving.apart
    simp only [List.filterMap_cons, fills.mine, List.nodup_cons] at apart
    rcases fills.next with ⟨rfl, -⟩ | ⟨frame', rfl, -, at_, -⟩
    · exact apart.2
    · simp only [List.filterMap_cons, at_, List.nodup_cons]
      exact apart
  · -- The others find their entries as they left them.
    intro other member
    rcases fills.origin other member with before | ⟨-, -, progress⟩
    · exact (serving.progress other (List.mem_cons_of_mem _ before)).leaves
        (serving.sized other (List.mem_cons_of_mem _ before))
        fun index' held => fills.leaves index' (serving.elsewhere fills.mine other before index' held)
    · exact progress

/-- An interrupt that has reserved its entry is not one of those that are about to. -/
theorem Announced.fill {swi2Pending : Bool} {main : MainPc} {current : Option Posting}
    {pending : List Posting} (announced : Announced swi2Pending main (frame :: rest) current pending)
    (fills : Fills q q' frame rest frames' index) :
    Announced swi2Pending main frames' current pending := by
  -- An announcement by the interrupt, the main loop or the queue is not affected.
  rcases announced with swi2 | pulling | posted | ⟨other, member, entered, stack⟩
  · exact .inl swi2
  · exact .inr (.inl pulling)
  · exact .inr (.inr (.inl posted))
  · -- The announcing interrupt has no entry, and so is one of the others.
    rcases List.mem_cons.mp member with rfl | before
    · have mine := fills.mine
      rw [entered] at mine
      cases mine
    · exact .inr (.inr (.inr ⟨other, fills.stay other before, entered, stack⟩))

end

/-! ### Reserving an entry -/

section

variable {q : HubSched} {posting : Posting} {rest : List PutFrame}

/-- No interrupt holds the entry at the end, which is not part of the queue yet. -/
theorem Serving.free {frames : List PutFrame} {irqOccurred : Bool}
    (serving : Serving q frames irqOccurred) :
    ∀ other ∈ frames, other.pc.index? ≠ some q.queueEndIndex := fun other member held =>
  not_mem_slots q (serving.inside other member _ held)

/-- The entries before the reserved one stay as they are. -/
theorem Filled.reserve {index : SchedSlot} {other : Posting}
    (filled : Filled q (⟨posting, .entered⟩ :: rest) index other) (member : index ∈ q.slots) :
    Filled q.reserve (⟨posting, .reserved q.queueEndIndex⟩ :: rest) index other := by
  -- An entry of the queue is not the one that is being reserved.
  have before : index ≠ q.queueEndIndex := fun same => not_mem_slots q (same ▸ member)
  refine ⟨filled.sized, ?_, ?_⟩
  · intro frame among held
    rcases List.mem_cons.mp among with rfl | among
    · exact absurd (Option.some.inj held).symm before
    · exact filled.own frame (List.mem_cons_of_mem _ among) held
  · rcases filled.done with ⟨frame, among, held⟩ | holds
    · rcases List.mem_cons.mp among with rfl | among
      · cases held
      · exact .inl ⟨frame, List.mem_cons_of_mem _ among, held⟩
    · exact .inr (holds.leaves (fits_of_sized filled.sized) (leaves_reserve _ index))

/-- The reserved entry is going to hold the posting of its interrupt. -/
theorem Serving.filled_reserve {irqOccurred : Bool}
    (serving : Serving q (⟨posting, .entered⟩ :: rest) irqOccurred) :
    Filled q.reserve (⟨posting, .reserved q.queueEndIndex⟩ :: rest) q.queueEndIndex posting := by
  refine ⟨serving.sized _ List.mem_cons_self, ?_, .inl ⟨_, List.mem_cons_self, rfl⟩⟩
  intro other among held
  rcases List.mem_cons.mp among with rfl | among
  · rfl
  · exact absurd held (serving.free other (List.mem_cons_of_mem _ among))

/-- An interrupt reserves the entry behind all others. -/
theorem Serving.reserve {irqOccurred : Bool}
    (serving : Serving q (⟨posting, .entered⟩ :: rest) irqOccurred) (room : q.isFull = false) :
    Serving q.reserve (⟨posting, .reserved q.queueEndIndex⟩ :: rest) irqOccurred := by
  -- The reserved entry joins the queue, and nobody else is at it.
  obtain ⟨slots, -⟩ := slots_reserve room
  refine ⟨?_, ?_, ?_, ?_, fun _ => serving.alert (by simp)⟩
  · intro other among
    rcases List.mem_cons.mp among with rfl | among
    · have sized := serving.sized ⟨posting, .entered⟩ List.mem_cons_self
      exact sized
    · exact serving.sized other (List.mem_cons_of_mem _ among)
  · intro other among index held
    simp only [slots, List.mem_append, List.mem_singleton]
    rcases List.mem_cons.mp among with rfl | among
    · exact .inr (Option.some.inj held).symm
    · exact .inl (serving.inside other (List.mem_cons_of_mem _ among) index held)
  · -- Nobody has been at the reserved entry, which was free.
    have apart := serving.apart
    simp only [List.filterMap_cons, PutPc.index?] at apart
    simp only [List.filterMap_cons, PutPc.index?, List.nodup_cons]
    refine ⟨fun member => ?_, apart⟩
    obtain ⟨other, among, held⟩ := List.mem_filterMap.mp member
    exact serving.free other (List.mem_cons_of_mem _ among) held
  · intro other among
    rcases List.mem_cons.mp among with rfl | among
    · trivial
    · exact (serving.progress other (List.mem_cons_of_mem _ among)).leaves
        (serving.sized other (List.mem_cons_of_mem _ among)) fun index _ => leaves_reserve _ index

/-- What the interrupt was about to announce is announced by its posting in the queue. -/
theorem Announced.reserve {swi2Pending : Bool} {main : MainPc} {current : Option Posting}
    {pending : List Posting} {index : SchedSlot}
    (announced : Announced swi2Pending main (⟨posting, .entered⟩ :: rest) current pending) :
    Announced swi2Pending main (⟨posting, .reserved index⟩ :: rest) current
      (pending ++ [posting]) := by
  -- Other announcements stay what they are.
  rcases announced with swi2 | pulling | ⟨posting', member, stack⟩ | ⟨other, among, entered, stack⟩
  · exact .inl swi2
  · exact .inr (.inl pulling)
  · refine .inr (.inr (.inl ⟨posting', ?_, stack⟩))
    rw [← List.append_assoc]
    exact List.mem_append_left _ member
  · rcases List.mem_cons.mp among with rfl | among
    · exact .inr (.inr (.inl ⟨posting, by simp, stack⟩))
    · exact .inr (.inr (.inr ⟨other, List.mem_cons_of_mem _ among, entered, stack⟩))

end

namespace EventPath

variable {E : Type}

/--
What has been put is what has been executed, then what the main loop has in hand, and then what
the entries of the queue hold.
-/
structure Delivers (s : EventPath E) (current : Option Posting) (pending : List Posting) :
    Prop where
  order : s.puts = s.executed ++ current.toList ++ pending
  sized : ∀ posting ∈ current, posting.Sized
  filled : List.Forall₂ (Filled s.sched s.frames) s.sched.slots pending
  serving : Serving s.sched s.frames s.irqOccurred
  inHand : InHand s.sched current s.main
  drained : s.main = .waiting ∨ s.main = .sleeping → s.irqOccurred = false →
    s.sched.queueEndIndex = s.sched.queueStartIndex
  announced : s.stack ≠ [] → Announced s.swi2Pending s.main s.frames current pending

section

variable {s : EventPath E} {current : Option Posting} {pending : List Posting}

/-! ### Steps of the interrupts -/

/-- Taking an interrupt changes nothing in the queue. -/
theorem Delivers.enter (delivers : Delivers s current pending) (swi2Pending : Bool)
    {posting : Posting} (sized : posting.Sized)
    (told : swi2Pending = s.swi2Pending ∨ posting.handler = .bleStackEvtGet) :
    Delivers ({ s with swi2Pending := swi2Pending }.enter posting) current pending := by
  refine ⟨delivers.order, delivers.sized, ?_, delivers.serving.enter sized, delivers.inHand, ?_,
    fun some_ => (delivers.announced some_).enter told⟩
  · exact delivers.filled.imp fun _ _ filled => filled.enter
  · -- The main loop is not going to sleep over this interrupt.
    intro _ quiet
    cases quiet

/-- A write of the innermost interrupt to its own entry harms no other. -/
theorem Delivers.fill (delivers : Delivers s current pending) {frame : PutFrame}
    {rest frames' : List PutFrame} {index : SchedSlot} {q' : HubSched}
    (top : s.frames = frame :: rest) (fills : Fills s.sched q' frame rest frames' index) :
    Delivers { s with sched := q', frames := frames' } current pending := by
  -- The queue keeps its entries, so every part of the invariant is about the same ones.
  obtain ⟨order, sizes, filled, serving, inHand, drained, announced⟩ := delivers
  rw [top] at filled serving announced
  refine ⟨order, sizes, ?_, serving.fill fills, ?_, ?_, fun some_ => (announced some_).fill fills⟩
  · simp only [fills.slots]
    exact filled.imp fun _ _ old => old.fill fills
  · -- The entry in hand is not part of the queue, so no interrupt is filling it.
    have inside := serving.inside frame List.mem_cons_self index fills.mine
    refine inHand.leaves sizes fills.start ?_ fun index' released _ => ?_
    · intro some_
      rw [fills.start, fills.end_]
      exact some_
    · rw [fills.slots]
      exact ⟨fills.leaves index' fun same => released (same ▸ inside), released⟩
  · simp only [fills.start, fills.end_]
    exact drained

/-- Reserving an entry puts the posting behind all others. -/
theorem Delivers.reserve (delivers : Delivers s current pending) {posting : Posting}
    {rest : List PutFrame} (top : s.frames = ⟨posting, .entered⟩ :: rest)
    (room : s.sched.isFull = false) :
    Delivers { s with
      sched := s.sched.reserve
      frames := ⟨posting, .reserved s.sched.queueEndIndex⟩ :: rest
      puts := s.puts ++ [posting] } current (pending ++ [posting]) := by
  obtain ⟨order, sizes, filled, serving, inHand, drained, announced⟩ := delivers
  obtain ⟨slots, spare⟩ := slots_reserve room
  have alert : s.irqOccurred = true := serving.alert (by simp [top])
  rw [top] at filled serving announced
  -- The record, the entries and the interrupts grow by the posting; the rest stays.
  refine ⟨?_, sizes, ?_, serving.reserve room, ?_, ?_, fun some_ => (announced some_).reserve⟩
  · simp only [order, List.append_assoc]
  · -- The new entry and the new posting are both the last of their lists.
    simp only [slots]
    refine List.rel_append ?_ (.cons serving.filled_reserve .nil)
    exact ((List.forall₂_and_left _ _).mpr ⟨fun _ member => member, filled⟩).imp
      fun _ _ old => old.2.reserve old.1
  · refine inHand.leaves sizes rfl (fun _ => ?_) fun index released behind => ?_
    · simp only [AppSched.reserve, nextIndex_eq]
      exact spare
    · -- The entry in hand is the spare one, which is never reserved.
      refine ⟨leaves_reserve _ index, ?_⟩
      simp only [slots, List.mem_append, List.mem_singleton, not_or]
      refine ⟨released, fun same => spare ?_⟩
      rw [← same]
      exact behind
  · -- An interrupt is being served, so the main loop has been alerted.
    intro _ quiet
    rw [alert] at quiet
    cases quiet

/-- The innermost interrupt goes on. -/
theorem Delivers.stepFrame (delivers : Delivers s current pending) {posting : Posting} {pc : PutPc}
    {rest : List PutFrame} (top : s.frames = ⟨posting, pc⟩ :: rest) :
    ∃ pending', Delivers (s.stepFrame posting rest pc) current pending' ∧
      ∀ halt, (s.stepFrame posting rest pc).halted = some halt →
        s.halted = some halt ∨ halt = .appError nrfErrorNoMem := by
  -- Before the reservation the queue changes as a whole, and behind it only one entry does.
  have sized := delivers.serving.sized _ (top ▸ List.mem_cons_self)
  have progress := delivers.serving.progress _ (top ▸ List.mem_cons_self)
  cases pc with
  | entered =>
    simp only [EventPath.stepFrame, fits_of_sized sized, if_true]
    cases full : s.sched.isFull with
    | true =>
      -- The put changes nothing, and the interrupt resets the system.
      refine ⟨pending, ⟨delivers.order, delivers.sized, delivers.filled, delivers.serving,
        delivers.inHand, delivers.drained, delivers.announced⟩, fun halt halted => .inr ?_⟩
      exact (Option.some.inj halted).symm
    | false => exact ⟨pending ++ [posting], delivers.reserve top full, fun halt => .inl⟩
  | reserved index =>
    refine ⟨pending, delivers.fill top ⟨rfl, rfl, rfl,
      fun other apart => leaves_writeHandler apart _, .inr ⟨_, rfl, rfl, rfl, ?_⟩⟩,
      fun halt => .inl⟩
    exact copied_writeHandler s.sched index posting.handler posting.eventData
  | copying index k =>
    have copied : Copied s.sched index posting.handler posting.eventData k := progress
    simp only [EventPath.stepFrame]
    split
    · -- A byte is copied to its place in the entry.
      rename_i byte given
      obtain ⟨below, -⟩ := List.getElem?_eq_some_iff.mp given
      have inside : k < schedMaxEventDataSize := Nat.lt_of_lt_of_le below (fits_of_sized sized)
      exact ⟨pending, delivers.fill top ⟨rfl, rfl, rfl,
        fun other apart => leaves_writeByte apart inside byte,
        .inr ⟨_, rfl, rfl, rfl, copied.writeByte given⟩⟩, fun halt => .inl⟩
    · -- With the size written, the entry is complete and the interrupt returns.
      rename_i all
      exact ⟨pending, delivers.fill top ⟨rfl, rfl, rfl,
        fun other apart => leaves_writeSize apart _, .inl ⟨rfl, copied.writeSize all⟩⟩,
        fun halt => .inl⟩

/-! ### Steps of the main loop -/

/-- The main loop goes from one point to another without taking or finishing an entry. -/
theorem Delivers.goOn (delivers : Delivers s current pending) {main : MainPc}
    (inHand : InHand s.sched current main)
    (drained : main = .waiting ∨ main = .sleeping → s.irqOccurred = false →
      s.sched.queueEndIndex = s.sched.queueStartIndex)
    (pulled : s.main = .pulling → s.stack = []) :
    Delivers { s with main := main } current pending := by
  -- The point only matters to what is in hand, to sleeping and to pulling.
  refine ⟨delivers.order, delivers.sized, delivers.filled, delivers.serving, inHand, drained,
    fun some_ => ?_⟩
  rcases delivers.announced some_ with swi2 | pulling | others
  · exact .inl swi2
  · exact absurd (pulled pulling) some_
  · exact .inr (.inr others)

/-- Without an interrupt being served, every entry of the queue holds its posting. -/
theorem Delivers.stored (delivers : Delivers s current pending) (idle : s.frames = []) :
    List.Forall₂ (fun index posting => posting.Sized ∧
      Holds s.sched index posting.handler posting.eventData) s.sched.slots pending := by
  -- Nobody is about to complete an entry, so all are complete.
  refine delivers.filled.imp fun index posting filled => ⟨filled.sized, ?_⟩
  rcases filled.done with ⟨frame, member, -⟩ | holds
  · rw [idle] at member
    simp at member
  · exact holds

/-- Releasing the first entry takes its posting in hand. -/
theorem Delivers.take (delivers : Delivers s current pending) (idle : s.frames = [])
    (taking : s.main = .taking) :
    ∃ posting pending', pending = posting :: pending' ∧
      Delivers { s with
        sched := s.sched.release
        main := .readingSize s.sched.queueStartIndex } (some posting) pending' := by
  -- The main loop only runs while no interrupt is being served.
  have stored := delivers.stored idle
  obtain ⟨order, sizes, filled, serving, inHand, drained, announced⟩ := delivers
  rw [taking] at inHand
  obtain ⟨none, some_⟩ := inHand
  subst none
  have slots := slots_release some_
  rw [slots] at stored
  -- The oldest posting is the one in the first entry.
  cases stored with
  | @cons _ posting _ pending' here later =>
    refine ⟨posting, pending', rfl, ?_, ?_, ?_, ?_, ?_, ?_, ?_⟩
    · simpa using order
    · intro other same
      cases same
      exact here.1
    · -- The other entries are as before, and no interrupt is at them.
      refine later.imp fun index other held => ⟨held.1, ?_, .inr ?_⟩
      · intro frame member
        simp [idle] at member
      · exact held.2.leaves (fits_of_sized held.1) (leaves_release _ index)
    · exact ⟨by simp [idle], by simp [idle], by simp [idle], by simp [idle], by simp [idle]⟩
    · refine ⟨posting, rfl, ?_, ?_, here.2.leaves (fits_of_sized here.1) (leaves_release _ _)⟩
      · -- The queue never holds an entry twice, so the released one is out of it.
        have once : s.sched.slots.Nodup := RingBuffer.occupied_nodup _ _
        rw [slots, List.nodup_cons] at once
        exact once.1
      · simp only [AppSched.release, nextIndex_eq]
    · rintro (waiting | sleeping)
      · cases waiting
      · cases sleeping
    · -- What the posting announces, it goes on announcing in the hands of the main loop.
      intro stack
      rcases announced stack with swi2 | pulling | posted | ⟨frame, member, -⟩
      · exact .inl swi2
      · rw [taking] at pulling
        cases pulling
      · exact .inr (.inr (.inl (by simpa using posted)))
      · simp [idle] at member

/-- The handler has read its posting and is done with the entry. -/
theorem Delivers.finish (delivers : Delivers s current pending) {index : SchedSlot}
    {eventDataSize : Nat} {handler : SchedEventHandler} {read : List UInt8}
    (running : s.main = .running index eventDataSize handler read)
    (all : ¬ read.length < eventDataSize) :
    Delivers { s with
      executed := s.executed ++ [⟨handler, read⟩]
      main := continuation handler } none pending := by
  obtain ⟨order, sizes, filled, serving, inHand, drained, announced⟩ := delivers
  rw [running] at inHand
  obtain ⟨posting, rfl, kept, rfl, rfl, sofar⟩ := inHand
  -- What has been read is as long as the posting, and so all of it.
  have whole : read = posting.eventData := by
    rw [sofar]
    exact List.take_of_length_le (by omega)
  have same : (⟨posting.handler, read⟩ : Posting) = posting := by rw [whole]
  refine ⟨?_, by simp, filled, serving, ?_, ?_, ?_⟩
  · -- The posting moves from the hands of the main loop to what has run.
    simp only [same, order, Option.toList_some, Option.toList_none, List.append_nil]
  · cases posting.handler with
    | bleStackEvtGet => rfl
    | appTimerEvtGet => rfl
  · cases posting.handler with
    | bleStackEvtGet => rintro (waiting | sleeping) <;> contradiction
    | appTimerEvtGet => rintro (waiting | sleeping) <;> contradiction
  · intro stack
    rcases announced stack with swi2 | pulling | ⟨other, member, pulls⟩ | frame
    · exact .inl swi2
    · rw [running] at pulling
      cases pulling
    · simp only [Option.toList_some, List.singleton_append, List.mem_cons] at member
      rcases member with rfl | later
      · -- The handler for stack events goes on to pull them.
        exact .inr (.inl (by simp only [pulls, continuation]))
      · exact .inr (.inr (.inl ⟨other, by simpa using later, pulls⟩))
    · exact .inr (.inr (.inr frame))

/-- The main loop goes on. -/
theorem Delivers.stepMain (delivers : Delivers s current pending) (idle : s.frames = []) :
    ∃ current' pending', Delivers (s.stepMain s.main) current' pending' ∧
      (s.stepMain s.main).halted = s.halted := by
  -- The cases follow the positions of the main loop; two of them change what is in hand.
  have inHand := delivers.inHand
  cases main : s.main with
  | testing =>
    rw [main] at inHand
    refine ⟨current, pending, ?_, rfl⟩
    simp only [EventPath.stepMain]
    -- An empty queue sends the main loop to wait, and any other one to take an entry.
    cases empty : s.sched.isEmpty with
    | true =>
      have same : s.sched.queueEndIndex = s.sched.queueStartIndex := by
        simpa [AppSched.isEmpty] using empty
      exact delivers.goOn inHand (fun _ _ => same) (by simp [main])
    | false =>
      have some_ : s.sched.queueEndIndex ≠ s.sched.queueStartIndex := by
        simpa [AppSched.isEmpty] using empty
      exact delivers.goOn ⟨inHand, some_⟩ (by simp) (by simp [main])
  | taking =>
    obtain ⟨posting, pending', -, next⟩ := delivers.take idle main
    exact ⟨some posting, pending', next, rfl⟩
  | readingSize index =>
    rw [main] at inHand
    obtain ⟨posting, same, kept⟩ := inHand
    exact ⟨current, pending, delivers.goOn ⟨posting, same, kept, kept.holds.eventDataSize⟩
      (by simp) (by simp [main]), rfl⟩
  | readingHandler index eventDataSize =>
    rw [main] at inHand
    obtain ⟨posting, same, kept, size⟩ := inHand
    -- The check of the event size never fails, since the posting has the right size.
    have checked : eventDataSize = (s.sched.queueEventHeaders index).handler.eventSize := by
      rw [kept.holds.handler, size]
      exact delivers.sized posting same
    simp only [EventPath.stepMain, if_pos checked]
    exact ⟨current, pending, delivers.goOn
      ⟨posting, same, kept, size, kept.holds.handler, by simp⟩ (by simp) (by simp [main]),
      trivial⟩
  | running index eventDataSize handler read =>
    simp only [EventPath.stepMain]
    split
    · -- The handler reads the next byte in place, behind those it has read.
      rename_i more
      rw [main] at inHand
      obtain ⟨posting, same, kept, size, handled, sofar⟩ := inHand
      exact ⟨current, pending, delivers.goOn ⟨posting, same, kept, size, handled,
        kept.readByte sofar (size ▸ more)⟩ (by simp) (by simp [main]), rfl⟩
    · rename_i all
      exact ⟨none, pending, delivers.finish main all, rfl⟩
  | pulling =>
    rw [main] at inHand
    simp only [EventPath.stepMain]
    split
    · -- With the stack empty, no event is left that would have to be announced.
      rename_i nothing
      exact ⟨current, pending, delivers.goOn inHand (by simp) (fun _ => nothing), rfl⟩
    · -- While the main loop pulls, the rest of the stack stays announced.
      rename_i event rest _
      refine ⟨current, pending, ⟨delivers.order, delivers.sized, delivers.filled,
        delivers.serving, delivers.inHand, delivers.drained, fun _ => .inr (.inl main)⟩, rfl⟩
  | waiting =>
    rw [main] at inHand
    have drained := delivers.drained (.inl main)
    simp only [EventPath.stepMain]
    split
    · -- Clearing the alert is safe, since no interrupt is being served.
      have next : Delivers { s with main := .testing } current pending :=
        delivers.goOn inHand (by simp) (by simp [main])
      refine ⟨current, pending, ⟨next.order, next.sized, next.filled, ?_, next.inHand, by simp,
        next.announced⟩, rfl⟩
      exact ⟨next.serving.sized, next.serving.inside, next.serving.apart, next.serving.progress,
        fun some_ => absurd idle some_⟩
    · exact ⟨current, pending, delivers.goOn inHand (fun _ => drained) (by simp [main]), rfl⟩
  | sleeping =>
    rw [main] at inHand
    simp only [EventPath.stepMain]
    split
    · exact ⟨current, pending, delivers.goOn inHand (by simp) (by simp [main]), rfl⟩
    · exact ⟨current, pending, delivers, rfl⟩

end

end EventPath

end BleHub
