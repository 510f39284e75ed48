import BleHub.Proofs.Crc16
import Mathlib.Data.List.Induction

/-! A flash page is read as what was written to it last, or as nothing at all. -/

namespace BleHub

open NorFlash

/-- The lower half of a header is the checksum. -/
theorem toUInt16_flashHeader (crc : UInt16) : (flashHeader crc).toUInt16 = crc := by
  -- The magic number has no bits there.
  apply UInt16.toBitVec_inj.mp
  apply BitVec.eq_of_getLsbD_eq
  intro i inside
  interval_cases i <;> simp [flashHeader, bleFlashMagicNumber]

/-- The upper half of a header is the magic number. -/
theorem flashHeader_and (crc : UInt16) :
    flashHeader crc &&& 0xFFFF0000 = bleFlashMagicNumber := by
  -- The checksum has no bits there.
  apply UInt32.toBitVec_inj.mp
  apply BitVec.eq_of_getLsbD_eq
  intro i inside
  interval_cases i <;> simp [flashHeader, bleFlashMagicNumber]

/-- Programming an erased word writes the value. -/
theorem emptyMask_and (value : UInt32) : bleFlashEmptyMask &&& value = value := by
  -- Every bit has been set by the erase.
  apply UInt32.toBitVec_inj.mp
  apply BitVec.eq_of_getLsbD_eq
  intro i inside
  interval_cases i <;> simp [bleFlashEmptyMask]

/-- No header looks like an erased word. -/
theorem flashHeader_ne_emptyMask (crc : UInt16) : flashHeader crc ≠ bleFlashEmptyMask := by
  -- The magic number has bits that are not set.
  intro same
  have masked := flashHeader_and crc
  rw [same] at masked
  exact absurd masked (by decide)

section

variable (pageWords : Nat)

/-- Reading a page finds its words if they have the checksum of the header. -/
theorem foundWords_eq (flash : Flash) (pageNum : UInt8) :
    foundWords pageWords flash pageNum =
      if flash (pageAddr pageWords pageNum) =
        flashHeader (wordsCrc (storedWords pageWords flash pageNum)) then
        some (storedWords pageWords flash pageNum)
      else none := by
  -- A header with the right checksum has the magic number as well.
  unfold foundWords bleFlashPageRead
  dsimp only
  by_cases valid : flash (pageAddr pageWords pageNum) =
      flashHeader (wordsCrc (storedWords pageWords flash pageNum))
  · have magic : flash (pageAddr pageWords pageNum) &&& 0xFFFF0000 = bleFlashMagicNumber := by
      rw [valid, flashHeader_and]
    rw [if_neg (not_not_intro magic), if_neg (not_not_intro valid.symm), if_pos valid, if_pos rfl]
  · rw [if_neg valid]
    split
    · rfl
    · rw [if_pos (fun same => valid same.symm)]
      rfl

/-- The header of a page that is read has the checksum of what is found. -/
theorem flashCrc_of_found {flash : Flash} {pageNum : UInt8} {words : List UInt32}
    (found : foundWords pageWords flash pageNum = some words) :
    flashCrc pageWords flash pageNum = wordsCrc words := by
  -- The whole header has been compared.
  rw [foundWords_eq] at found
  split at found
  · rename_i valid
    cases found
    rw [flashCrc, valid, toUInt16_flashHeader]
  · cases found

/-- Without a header nothing is found. -/
theorem foundWords_of_emptyMask {flash : Flash} {pageNum : UInt8}
    (header : flash (pageAddr pageWords pageNum) = bleFlashEmptyMask) :
    foundWords pageWords flash pageNum = none := by
  -- An erased word does not have the magic number.
  rw [foundWords_eq, header, if_neg (flashHeader_ne_emptyMask _).symm]

/-- As many words are found as are counted. -/
theorem length_storedWords (flash : Flash) (pageNum : UInt8) :
    (storedWords pageWords flash pageNum).length =
      (storedCount pageWords flash pageNum).toNat := by
  rw [storedWords, List.length_map, List.length_range]

/-- What is found depends on the words themselves and the two in front of them. -/
theorem found_congr {flash flash' : Flash} {pageNum : UInt8} {words : List UInt32}
    (found : foundWords pageWords flash pageNum = some words)
    (same : ∀ i, i < words.length + 2 → flash' (pageAddr pageWords pageNum + i) =
      flash (pageAddr pageWords pageNum + i)) :
    foundWords pageWords flash' pageNum = some words := by
  -- The count is among these words, so reading goes no farther.
  rw [foundWords_eq] at found
  split at found
  · rename_i valid
    cases found
    -- Reading takes the header, the count, and as many words as that says.
    rw [length_storedWords] at same
    have count : storedCount pageWords flash' pageNum = storedCount pageWords flash pageNum := by
      rw [storedCount, storedCount, same 1 (by omega)]
    have stored : storedWords pageWords flash' pageNum = storedWords pageWords flash pageNum := by
      rw [storedWords, storedWords, count]
      refine List.map_congr_left fun i member => ?_
      have inside := List.mem_range.mp member
      rw [Nat.add_assoc, same (2 + i) (by omega)]
    have header := same 0 (by omega)
    rw [Nat.add_zero] at header
    rw [foundWords_eq, stored, header, if_pos valid]
  · cases found

/-- The operations of a block touch as many words as it has. -/
theorem of_mem_blockWriteOps {address target : Nat} {values : List UInt32} {op : Op UInt32}
    (member : op ∈ blockWriteOps address values) (touches : op.Touches target) :
    address ≤ target ∧ target < address + values.length := by
  -- Each operation touches the address it has been given.
  induction values generalizing address with
  | nil => cases member
  | cons value values ih =>
    rw [List.length_cons]
    rcases List.mem_cons.mp member with rfl | member
    · have here : target = address := touches
      omega
    · have behind := ih member
      omega

/-- A block that is written over erased words is read back. -/
theorem applyAll_blockWriteOps (address : Nat) (values : List UInt32) (flash : Flash)
    (erased : ∀ i, i < values.length → flash (address + i) = bleFlashEmptyMask) :
    ((List.range values.length).map fun i =>
      applyAll bleFlashEmptyMask flash (blockWriteOps address values) (address + i)) = values := by
  -- The first word is not touched again by the operations behind it.
  induction values generalizing address flash with
  | nil => rfl
  | cons value values ih =>
    simp only [List.length_cons] at erased
    rw [List.length_cons, List.range_succ_eq_map, List.map_cons, List.map_map, blockWriteOps,
      applyAll_cons]
    have first : applyAll bleFlashEmptyMask
        ((Op.program address value).apply bleFlashEmptyMask flash)
        (blockWriteOps (address + 1) values) (address + 0) = value := by
      rw [applyAll_of_not_touches]
      · show (if address + 0 = address then flash (address + 0) &&& value else _) = value
        rw [if_pos (Nat.add_zero _), erased 0 (by omega), emptyMask_and]
      · intro op member touches
        have behind := of_mem_blockWriteOps member touches
        omega
    -- The words behind the first one are still erased when their turn comes.
    have rest := ih (address + 1)
      ((Op.program address value).apply bleFlashEmptyMask flash) (fun i inside => by
        have apart : ¬ (Op.program address value).Touches (address + 1 + i) := by
          show ¬ address + 1 + i = address
          omega
        rw [Op.apply_of_not_touches _ _ apart, Nat.add_assoc, Nat.add_comm 1,
          erased (i + 1) (by omega)])
    refine congrArg₂ List.cons first ?_
    refine Eq.trans (List.map_congr_left fun i _ => ?_) rest
    rw [Function.comp_apply, Nat.succ_eq_add_one, Nat.add_assoc, Nat.add_comm 1]

/-- The operations of a page write in front of the one that makes the page valid. -/
def frontOps (pageNum : UInt8) (data : FlashData) : List (Op UInt32) :=
  .erase (pageAddr pageWords pageNum) pageWords ::
    (blockWriteOps (pageAddr pageWords pageNum + 2) data.words ++
      [.program (pageAddr pageWords pageNum + 1) data.wordCount.toUInt32])

/-- The header comes last. -/
theorem pageWriteOps_eq (pageNum : UInt8) (data : FlashData) :
    pageWriteOps pageWords pageNum data = frontOps pageWords pageNum data ++
      [.program (pageAddr pageWords pageNum) (flashHeader data.crc)] := by
  simp [pageWriteOps, frontOps]

/-- As many words are written as are counted. -/
theorem FlashData.length_words (data : FlashData) :
    data.words.length = data.wordCount.toNat := Vector.length_toList

/-- The operations behind the erase leave the header alone. -/
theorem not_touches_header {pageNum : UInt8} {data : FlashData} {op : Op UInt32}
    (member : op ∈ blockWriteOps (pageAddr pageWords pageNum + 2) data.words ++
      [.program (pageAddr pageWords pageNum + 1) data.wordCount.toUInt32]) :
    ¬ op.Touches (pageAddr pageWords pageNum) := by
  -- They start behind it.
  intro touches
  rcases List.mem_append.mp member with member | member
  · have behind := of_mem_blockWriteOps member touches
    omega
  · cases List.mem_singleton.mp member
    have here : pageAddr pageWords pageNum = pageAddr pageWords pageNum + 1 := touches
    omega

section

variable {pageWords} (flash : Flash) (pageNum : UInt8) {data : FlashData}

/-- A page write is done if power fails only behind its last step. -/
theorem bleFlashPageWrite_eq (left : Flash) :
    bleFlashPageWrite pageWords flash pageNum data = pageWriteInterrupted pageWords flash pageNum
      data (pageWriteOps pageWords pageNum data).length left := by
  -- Both are skipped for the same checksum.
  unfold bleFlashPageWrite pageWriteInterrupted
  split
  · rfl
  · exact (interrupted_length _ _ _ _).symm

variable (fits : data.wordCount.toNat + 2 ≤ pageWords)

include fits

/-- An erase leaves all the words of the page empty that are written to. -/
theorem erase_apply {i : Nat} (inside : i < data.words.length + 2) :
    (Op.erase (pageAddr pageWords pageNum) pageWords).apply bleFlashEmptyMask flash
      (pageAddr pageWords pageNum + i) = bleFlashEmptyMask := by
  -- The page has room for the data.
  rw [data.length_words] at inside
  exact if_pos ⟨Nat.le_add_right _ _, by omega⟩

/-- In front of the last step the data are on the page, and the header is still empty. -/
theorem applyAll_frontOps :
    let front := applyAll bleFlashEmptyMask flash (frontOps pageWords pageNum data)
    front (pageAddr pageWords pageNum) = bleFlashEmptyMask ∧
      storedCount pageWords front pageNum = data.wordCount ∧
      storedWords pageWords front pageNum = data.words := by
  intro front
  let base := pageAddr pageWords pageNum
  let empty := (Op.erase base pageWords).apply bleFlashEmptyMask flash
  let block := applyAll bleFlashEmptyMask empty (blockWriteOps (base + 2) data.words)
  -- The count is the last to be programmed, after the block on the erased page.
  have whole : front = (Op.program (base + 1) data.wordCount.toUInt32).apply bleFlashEmptyMask
      block := by
    show applyAll _ _ (_ :: (_ ++ [_])) = _
    rw [applyAll_cons, applyAll_append, applyAll_cons, applyAll_nil]
  -- None of the operations behind the erase goes to the header.
  have header : front base = bleFlashEmptyMask := by
    show applyAll _ _ (_ :: _) _ = _
    rw [applyAll_cons, applyAll_of_not_touches _ _ fun _ => not_touches_header pageWords]
    exact erase_apply flash pageNum fits (i := 0) (by omega)
  have count : storedCount pageWords front pageNum = data.wordCount := by
    -- The word with the count has not been touched since the erase.
    have before : block (base + 1) = bleFlashEmptyMask := by
      show applyAll _ _ _ _ = _
      rw [applyAll_of_not_touches]
      · exact erase_apply flash pageNum fits (by omega)
      · intro op member touches
        have behind := of_mem_blockWriteOps member touches
        omega
    rw [storedCount, whole]
    show (if base + 1 = base + 1 then block (base + 1) &&& _ else _).toUInt8 = _
    rw [if_pos rfl, before, emptyMask_and]
    simp
  refine ⟨header, count, ?_⟩
  -- The words come from the block, since the count lies in front of it.
  rw [storedWords, count, ← data.length_words]
  refine Eq.trans (List.map_congr_left fun i _ => ?_)
    (applyAll_blockWriteOps (base + 2) data.words empty fun i inside => ?_)
  · have apart : ¬ (Op.program (base + 1) data.wordCount.toUInt32).Touches (base + 2 + i) := by
      show ¬ base + 2 + i = base + 1
      omega
    rw [whole, Op.apply_of_not_touches _ _ apart]
  · rw [Nat.add_assoc]
    exact erase_apply flash pageNum fits (by omega)

/-- The last step makes the data readable once the whole header has been programmed. -/
theorem found_last (value : UInt32) :
    foundWords pageWords ((Op.program (pageAddr pageWords pageNum) value).apply bleFlashEmptyMask
      (applyAll bleFlashEmptyMask flash (frontOps pageWords pageNum data))) pageNum =
        if value = flashHeader data.crc then some data.words else none := by
  -- Everything but the header is on the page, and the header is still empty.
  obtain ⟨header, count, words⟩ := applyAll_frontOps flash pageNum fits
  generalize applyAll bleFlashEmptyMask flash (frontOps pageWords pageNum data) = front
    at header count words
  -- Neither the count nor the words lie at the address of the header.
  have apart (i : Nat) : (Op.program (pageAddr pageWords pageNum) value).apply bleFlashEmptyMask
      front (pageAddr pageWords pageNum + 1 + i) = front (pageAddr pageWords pageNum + 1 + i) :=
    if_neg (by omega)
  have count' : storedCount pageWords ((Op.program (pageAddr pageWords pageNum) value).apply
      bleFlashEmptyMask front) pageNum = data.wordCount := by
    rw [← count, storedCount, storedCount, ← apart 0]
  have words' : storedWords pageWords ((Op.program (pageAddr pageWords pageNum) value).apply
      bleFlashEmptyMask front) pageNum = data.words := by
    rw [← words, storedWords, storedWords, count', count]
    refine List.map_congr_left fun i _ => ?_
    rw [show pageAddr pageWords pageNum + 2 + i = pageAddr pageWords pageNum + 1 + (1 + i) by omega,
      apart]
  have header' : (Op.program (pageAddr pageWords pageNum) value).apply bleFlashEmptyMask front
      (pageAddr pageWords pageNum) = value := by
    show (if pageAddr pageWords pageNum = pageAddr pageWords pageNum then _ else _) = value
    rw [if_pos rfl, header, emptyMask_and]
  rw [foundWords_eq, words', header']
  rfl

/-- Data that are not skipped are read back. -/
theorem found_of_written (other : flashCrc pageWords flash pageNum ≠ data.crc) :
    foundWords pageWords (bleFlashPageWrite pageWords flash pageNum data) pageNum =
      some data.words := by
  -- The last step programs the whole header.
  rw [bleFlashPageWrite, if_neg other, pageWriteOps_eq, applyAll_append, applyAll_cons,
    applyAll_nil, found_last _ _ fits, if_pos rfl]

/-- A page write leaves the data to be read exactly if it does not take others on the page for
the same because of their checksum. -/
theorem found_bleFlashPageWrite :
    foundWords pageWords (bleFlashPageWrite pageWords flash pageNum data) pageNum =
        some data.words ↔
      (flashCrc pageWords flash pageNum = data.crc →
        foundWords pageWords flash pageNum = some data.words) := by
  -- The write is skipped where the checksums agree, and done where they differ.
  by_cases same : flashCrc pageWords flash pageNum = data.crc
  · rw [bleFlashPageWrite, if_pos same]
    exact ⟨fun found _ => found, fun found => found same⟩
  · exact ⟨fun _ same' => absurd same' same, fun _ => found_of_written _ _ fits same⟩

/-- After a loss of power behind the erase and in front of the last step, the page is empty. -/
theorem found_interrupted_front {steps : Nat} (some_ : 0 < steps) (left : Flash)
    (early : steps < (frontOps pageWords pageNum data).length) :
    foundWords pageWords (interrupted bleFlashEmptyMask left flash
      (frontOps pageWords pageNum data) steps) pageNum = none := by
  -- The header has been erased and is not touched before the last step.
  apply foundWords_of_emptyMask
  cases steps with
  | zero => omega
  | succ steps =>
    rw [frontOps, interrupted, interrupted_of_not_touches _ _ _ _ fun _ =>
      not_touches_header pageWords]
    exact erase_apply flash pageNum fits (i := 0) (by omega)

/-- The operations of a page write stay on the page if the data have room there. -/
theorem touches_page {address : Nat} {op : Op UInt32}
    (member : op ∈ pageWriteOps pageWords pageNum data) (touches : op.Touches address) :
    pageAddr pageWords pageNum ≤ address ∧ address < pageAddr pageWords pageNum + pageWords := by
  have count := data.length_words
  rw [pageWriteOps_eq, frontOps] at member
  simp only [List.cons_append, List.append_assoc, List.mem_cons, List.mem_append,
    List.not_mem_nil, or_false, false_or] at member
  -- The block, the count and the header all lie within the room that the data have.
  rcases member with rfl | member | rfl | rfl
  · exact touches
  · have range := of_mem_blockWriteOps member touches
    omega
  · have here : address = pageAddr pageWords pageNum + 1 := touches
    omega
  · have here : address = pageAddr pageWords pageNum := touches
    omega

/-- A loss of power in a page write does not change the words outside of the page. -/
theorem pageWriteInterrupted_outside (steps : Nat) (left : Flash) {address : Nat}
    (outside : ¬ (pageAddr pageWords pageNum ≤ address ∧
      address < pageAddr pageWords pageNum + pageWords)) :
    pageWriteInterrupted pageWords flash pageNum data steps left address = flash address := by
  -- A write that is skipped changes nothing at all.
  unfold pageWriteInterrupted
  split
  · rfl
  · exact interrupted_of_not_touches _ _ _ _ fun op member touches =>
      outside (touches_page pageNum fits member touches)

/-- A page write that power fails in behind the erase leaves the data to be read, or nothing. -/
theorem found_of_interrupted {steps : Nat} (behind : 0 < steps) (left : Flash)
    (other : flashCrc pageWords flash pageNum ≠ data.crc) :
    foundWords pageWords (pageWriteInterrupted pageWords flash pageNum data steps left) pageNum =
        none ∨
      foundWords pageWords (pageWriteInterrupted pageWords flash pageNum data steps left) pageNum =
        some data.words := by
  -- Power can fail before, in or after the step that programs the header.
  rw [pageWriteInterrupted, if_neg other, pageWriteOps_eq, interrupted_append]
  split
  · rename_i early
    exact .inl (found_interrupted_front flash pageNum fits behind left early)
  · -- The header is programmed in part or in full.
    cases steps - (frontOps pageWords pageNum data).length with
    | zero =>
      -- Bits of the header that are not cleared yet are as if they were not to be cleared.
      have partly := found_last flash pageNum fits
        (flashHeader data.crc ||| left (pageAddr pageWords pageNum))
      split at partly
      · exact .inr partly
      · exact .inl partly
    | succ rest =>
      rw [interrupted, interrupted, found_last _ _ fits, if_pos rfl]
      exact .inr rfl

/-- Words that are found on a page after a loss of power in a write to it are the data, unless
power failed inside the erase or the write was skipped and has left them there. -/
theorem of_found_pageWriteInterrupted {steps : Nat} {left : Flash} {words : List UInt32}
    (found : foundWords pageWords (pageWriteInterrupted pageWords flash pageNum data steps left)
      pageNum = some words) :
    (data.words = words ∨ steps = 0) ∨
      (foundWords pageWords flash pageNum = some words ∧ data.crc = wordsCrc words) := by
  by_cases same : flashCrc pageWords flash pageNum = data.crc
  · -- The words have been there before, and the header has the checksum of both.
    rw [pageWriteInterrupted, if_pos same] at found
    exact .inr ⟨found, same.symm.trans (flashCrc_of_found pageWords found)⟩
  · rcases Nat.eq_zero_or_pos steps with first | behind
    · exact .inl (.inr first)
    · -- Behind the erase, nothing but the data can be found.
      rcases found_of_interrupted flash pageNum fits behind left same with none_ | stored
      · rw [none_] at found
        cases found
      · rw [stored] at found
        exact .inl (.inl (Option.some.inj found))

/-- After a loss of power in a page write, the page is read as the data or as nothing, unless the
write is skipped or power fails inside the erase. The words outside of the page stay as they are. -/
theorem found_pageWriteInterrupted (steps : Nat) (left : Flash) :
    let after := pageWriteInterrupted pageWords flash pageNum data steps left
    ((flashCrc pageWords flash pageNum = data.crc ∧ after = flash) ∨
      (flashCrc pageWords flash pageNum ≠ data.crc ∧ steps = 0) ∨
      foundWords pageWords after pageNum = none ∨
      foundWords pageWords after pageNum = some data.words) ∧
    ∀ address, ¬ (pageAddr pageWords pageNum ≤ address ∧
      address < pageAddr pageWords pageNum + pageWords) → after address = flash address := by
  intro after
  refine ⟨?_, fun address outside => pageWriteInterrupted_outside _ _ fits steps left outside⟩
  -- A write that is skipped has no point at which power could fail.
  by_cases same : flashCrc pageWords flash pageNum = data.crc
  · exact .inl ⟨same, if_pos same⟩
  · -- The erase is the first step.
    rcases Nat.eq_zero_or_pos steps with first | behind
    · exact .inr (.inl ⟨same, first⟩)
    · exact .inr (.inr (found_of_interrupted flash pageNum fits behind left same))

end

end

/-- A flash that has been erased as a whole. -/
def erasedFlash : Flash := fun _ => bleFlashEmptyMask

/-- A single word to be written. -/
def oneWord : FlashData := ⟨1, #v[7]⟩

/-- No word to be written, which has the checksum of an erased header. -/
def noWord : FlashData := ⟨0, #v[]⟩

/-- Nothing is written where no words are written to an erased page, which is then not valid. -/
theorem found_bleFlashPageWrite_noWord :
    foundWords 256 erasedFlash 1 = none ∧ flashCrc 256 erasedFlash 1 = noWord.crc ∧
      foundWords 256 (bleFlashPageWrite 256 erasedFlash 1 noWord) 1 ≠ some noWord.words := by
  -- The checksum of nothing is its initial value, as is the lower half of an erased word.
  have none_ : foundWords 256 erasedFlash 1 = none := by decide +kernel
  have same : flashCrc 256 erasedFlash 1 = noWord.crc := by decide +kernel
  have room : noWord.wordCount.toNat + 2 ≤ 256 := by decide
  refine ⟨none_, same, fun found => ?_⟩
  have before := (found_bleFlashPageWrite erasedFlash 1 room).mp found same
  rw [none_] at before
  cases before

/-- Power fails while the header of a page is being programmed. -/
theorem found_pageWriteInterrupted_oneWord :
    foundWords 256 (pageWriteInterrupted 256 erasedFlash 1 oneWord 3 fun _ => 0xFF) 1 = none ∨
      foundWords 256 (pageWriteInterrupted 256 erasedFlash 1 oneWord 3 fun _ => 0xFF) 1 =
        some oneWord.words := by
  have room : oneWord.wordCount.toNat + 2 ≤ 256 := by decide
  have other : flashCrc 256 erasedFlash 1 ≠ oneWord.crc := by decide +kernel
  rcases (found_pageWriteInterrupted erasedFlash 1 room 3 fun _ => 0xFF).1 with
    ⟨same, _⟩ | ⟨_, first⟩ | read
  · exact absurd same other
  · cases first
  · exact read

/-- What happens to the flash from one moment to the next. -/
inductive FlashEvent where
  /-- A page is written. -/
  | write (pageNum : UInt8) (data : FlashData)
  /-- Power fails in a page write. -/
  | writeFailure (pageNum : UInt8) (data : FlashData) (steps : Nat) (left : Flash)
  /-- A page is erased. -/
  | erase (pageNum : UInt8)
  /-- Power fails in a page erase. -/
  | eraseFailure (pageNum : UInt8) (left : Flash)

namespace FlashEvent

/-- The effect on the flash. -/
def apply (pageWords : Nat) (flash : Flash) : FlashEvent → Flash
  | write pageNum data => bleFlashPageWrite pageWords flash pageNum data
  | writeFailure pageNum data steps left =>
    pageWriteInterrupted pageWords flash pageNum data steps left
  | erase pageNum => bleFlashPageErase pageWords flash pageNum
  | eraseFailure pageNum left => pageEraseInterrupted pageWords flash pageNum left

/-- The page that an event is about. -/
def page : FlashEvent → UInt8
  | write pageNum _ | writeFailure pageNum _ _ _ | erase pageNum | eraseFailure pageNum _ => pageNum

/-- The data of an event have room on a page. -/
def Fits (pageWords : Nat) : FlashEvent → Prop
  | write _ data | writeFailure _ data _ _ => data.wordCount.toNat + 2 ≤ pageWords
  | erase _ | eraseFailure _ _ => True

/-- An event by which these words are to be written to a page. -/
def Offers (pageNum : UInt8) (words : List UInt32) : FlashEvent → Prop
  | write page data | writeFailure page data _ _ => page = pageNum ∧ data.words = words
  | erase _ | eraseFailure _ _ => False

/-- An event in which power fails inside the erase of a page. -/
def BreaksErase (pageNum : UInt8) : FlashEvent → Prop
  | writeFailure page _ steps _ => page = pageNum ∧ steps = 0
  | eraseFailure page _ => page = pageNum
  | write _ _ | erase _ => False

/-- An event that leaves these words on a page: it is about another page, or about data with the
same checksum. -/
def Spares (pageNum : UInt8) (words : List UInt32) : FlashEvent → Prop
  | write page data | writeFailure page data _ _ => page = pageNum → data.crc = wordsCrc words
  | erase page | eraseFailure page _ => page ≠ pageNum

end FlashEvent

section

variable {pageWords : Nat}

/-- Different pages have no words in common. -/
theorem pageAddr_apart {pageNum other : UInt8} (apart : pageNum ≠ other) {i : Nat}
    (inside : i < pageWords) :
    ¬ (pageAddr pageWords other ≤ pageAddr pageWords pageNum + i ∧
      pageAddr pageWords pageNum + i < pageAddr pageWords other + pageWords) := by
  -- The number of a page is the quotient of its addresses.
  rintro ⟨above, below⟩
  unfold pageAddr at above below
  have pos : 0 < pageWords := by omega
  have quotient : (pageWords * pageNum.toNat + i) / pageWords = other.toNat := by
    apply Nat.div_eq_of_lt_le
    · rwa [Nat.mul_comm] at above
    · rwa [Nat.succ_mul, Nat.mul_comm other.toNat]
  rw [Nat.mul_add_div pos, Nat.div_eq_of_lt inside, Nat.add_zero] at quotient
  exact apart (UInt8.toNat_inj.mp quotient)

/-- Events about other pages leave the words of a page alone. -/
theorem apply_other {pageNum : UInt8} {e : FlashEvent} {flash : Flash} (fits : e.Fits pageWords)
    (apart : pageNum ≠ e.page) {i : Nat} (inside : i < pageWords) :
    e.apply pageWords flash (pageAddr pageWords pageNum + i) =
      flash (pageAddr pageWords pageNum + i) := by
  -- Each event works on its own page, which the data do not leave.
  cases e with
  | write other data =>
    rw [FlashEvent.apply, bleFlashPageWrite_eq flash other flash]
    exact pageWriteInterrupted_outside flash other fits _ flash (pageAddr_apart apart inside)
  | writeFailure other data steps left =>
    exact pageWriteInterrupted_outside flash other fits steps left (pageAddr_apart apart inside)
  | erase other =>
    rw [FlashEvent.apply, bleFlashPageErase]
    exact Op.apply_of_not_touches _ _ (pageAddr_apart apart inside)
  | eraseFailure other left =>
    rw [FlashEvent.apply, pageEraseInterrupted]
    exact Op.broken_of_not_touches _ _ (pageAddr_apart apart inside)

/-- Words stay on a page through events that spare them. -/
theorem found_of_spares {pageNum : UInt8} {e : FlashEvent} {flash : Flash} {words : List UInt32}
    (fits : e.Fits pageWords) (short : words.length + 2 ≤ pageWords)
    (found : foundWords pageWords flash pageNum = some words) (spares : e.Spares pageNum words) :
    foundWords pageWords (e.apply pageWords flash) pageNum = some words := by
  -- An event about the page must leave it alone; one about another page does anyway.
  by_cases here : pageNum = e.page
  · have crc := flashCrc_of_found pageWords found
    cases e with
    | write other data =>
      change pageNum = other at here
      subst here
      rwa [FlashEvent.apply, bleFlashPageWrite, if_pos (crc.trans (spares rfl).symm)]
    | writeFailure other data steps left =>
      change pageNum = other at here
      subst here
      rwa [FlashEvent.apply, pageWriteInterrupted, if_pos (crc.trans (spares rfl).symm)]
    | erase other => exact absurd here.symm spares
    | eraseFailure other left => exact absurd here.symm spares
  · exact found_congr pageWords found fun i inside => apply_other fits here (by omega)

/-- Words that are on a page after an event have been brought there by it, or were there before
and have been spared. -/
theorem of_found_apply {pageNum : UInt8} {e : FlashEvent} {flash : Flash} {words : List UInt32}
    (fits : e.Fits pageWords) (short : words.length + 2 ≤ pageWords)
    (found : foundWords pageWords (e.apply pageWords flash) pageNum = some words) :
    (e.Offers pageNum words ∨ e.BreaksErase pageNum) ∨
      (foundWords pageWords flash pageNum = some words ∧ e.Spares pageNum words) := by
  -- What is on the page after the event tells what the event has done to it.
  by_cases here : pageNum = e.page
  · cases e with
    | write other data =>
      change pageNum = other at here
      subst here
      rw [FlashEvent.apply, bleFlashPageWrite_eq flash pageNum flash] at found
      rcases of_found_pageWriteInterrupted flash pageNum fits found with
        (stored | first) | ⟨earlier, same⟩
      · exact .inl (.inl ⟨rfl, stored⟩)
      · -- A page write has more than no step.
        simp [pageWriteOps] at first
      · exact .inr ⟨earlier, fun _ => same⟩
    | writeFailure other data steps left =>
      change pageNum = other at here
      subst here
      rcases of_found_pageWriteInterrupted flash pageNum fits found with
        (stored | first) | ⟨earlier, same⟩
      · exact .inl (.inl ⟨rfl, stored⟩)
      · exact .inl (.inr ⟨rfl, first⟩)
      · exact .inr ⟨earlier, fun _ => same⟩
    | erase other =>
      change pageNum = other at here
      subst here
      rw [FlashEvent.apply, bleFlashPageErase, foundWords_of_emptyMask] at found
      · -- An erased page has no words.
        cases found
      · exact if_pos ⟨Nat.le_refl _, by omega⟩
    | eraseFailure other left => exact .inl (.inr here.symm)
  · -- An event about another page can only have spared the words.
    refine .inr ⟨found_congr pageWords found fun i inside =>
      (apply_other fits here (by omega)).symm, ?_⟩
    cases e with
    | write other data => exact fun same => absurd same.symm here
    | writeFailure other data steps left => exact fun same => absurd same.symm here
    | erase other => exact fun same => here same.symm
    | eraseFailure other left => exact fun same => here same.symm

/-- What happens to the flash in a run. -/
def runFlash (pageWords : Nat) (flash : Flash) (events : List FlashEvent) : Flash :=
  events.foldl (FlashEvent.apply pageWords) flash

/-- Words that are found on a page in the end were brought there by some event of the run, or were
there from the start, and every later event has spared them. The event was to write them, unless
power failed inside its erase. -/
theorem found_runFlash {pageNum : UInt8} {flash : Flash} {events : List FlashEvent}
    {words : List UInt32} (fits : ∀ e ∈ events, e.Fits pageWords)
    (short : words.length + 2 ≤ pageWords) :
    foundWords pageWords (runFlash pageWords flash events) pageNum = some words →
      (∃ before e after, events = before ++ e :: after ∧
        foundWords pageWords (runFlash pageWords flash (before ++ [e])) pageNum = some words ∧
        (e.Offers pageNum words ∨ e.BreaksErase pageNum) ∧
        ∀ later ∈ after, later.Spares pageNum words) ∨
      (foundWords pageWords flash pageNum = some words ∧
        ∀ e ∈ events, e.Spares pageNum words) := by
  -- The last event either brings the words itself or spares what the run before it left behind.
  induction events using List.reverseRecOn with
  | nil => exact fun found => .inr ⟨found, fun e member => by cases member⟩
  | append_singleton events e ih =>
    intro found
    have last := fits e (List.mem_append_right _ (List.mem_singleton_self e))
    -- The last event is applied to what the run before it has left.
    have stepped : foundWords pageWords
        (e.apply pageWords (runFlash pageWords flash events)) pageNum = some words := by
      rwa [runFlash, List.foldl_append] at found
    rcases of_found_apply last short stepped with brought | ⟨earlier, spares⟩
    · exact .inl ⟨events, e, [], rfl, found, brought, fun later member => by cases member⟩
    · -- What the earlier events have spared, the last one spares as well.
      have spared (others : List FlashEvent) (all : ∀ later ∈ others, later.Spares pageNum words) :
          ∀ later ∈ others ++ [e], later.Spares pageNum words := by
        intro later member
        rcases List.mem_append.mp member with member | member
        · exact all later member
        · cases List.mem_singleton.mp member
          exact spares
      rcases ih (fun other member => fits other (List.mem_append_left _ member)) earlier with
        ⟨before, bringing, after, rfl, there, brought, all⟩ | ⟨start, all⟩
      · exact .inl ⟨before, bringing, after ++ [e], by simp, there, brought, spared after all⟩
      · exact .inr ⟨start, spared events all⟩

/-- A run in which a word is written, power fails in a write to another page, and that is erased. -/
def sampleRun : List FlashEvent :=
  [.write 1 oneWord, .writeFailure 2 noWord 1 erasedFlash, .erase 2]

/-- The word that is found in the end has been written by the first event. -/
theorem found_runFlash_sampleRun :
    foundWords 256 (runFlash 256 erasedFlash sampleRun) 1 = some [7] ∧
      ((∃ before e after, sampleRun = before ++ e :: after ∧
        foundWords 256 (runFlash 256 erasedFlash (before ++ [e])) 1 = some [7] ∧
        (e.Offers 1 [7] ∨ e.BreaksErase 1) ∧ ∀ later ∈ after, later.Spares 1 [7]) ∨
      (foundWords 256 erasedFlash 1 = some [7] ∧ ∀ e ∈ sampleRun, e.Spares 1 [7])) := by
  have found : foundWords 256 (runFlash 256 erasedFlash sampleRun) 1 = some [7] := by
    decide +kernel
  have fits : ∀ e ∈ sampleRun, e.Fits 256 := by
    simp [sampleRun, FlashEvent.Fits, oneWord, noWord]
  exact ⟨found, found_runFlash fits (by decide) found⟩

/-- As many words as a byte can count, which is more than a page has room for. -/
def manyWords : FlashData := ⟨255, Vector.replicate 255 0⟩

-- Without room on its own page, a write reaches the header of the next one.
example : foundWords 256 (runFlash 256 erasedFlash [.write 1 oneWord, .write 0 manyWords]) 1 =
    none := by
  decide +kernel

/-- Words that are found on a page are found there until an event does not spare them. -/
theorem found_runFlash_of_spares {pageNum : UInt8} {flash : Flash} {events : List FlashEvent}
    {words : List UInt32} (fits : ∀ e ∈ events, e.Fits pageWords)
    (short : words.length + 2 ≤ pageWords)
    (found : foundWords pageWords flash pageNum = some words)
    (spares : ∀ e ∈ events, e.Spares pageNum words) :
    foundWords pageWords (runFlash pageWords flash events) pageNum = some words := by
  -- Each event in turn leaves the words alone.
  induction events generalizing flash with
  | nil => exact found
  | cons e events ih =>
    exact ih (fun other member => fits other (List.mem_cons_of_mem _ member))
      (found_of_spares (fits e List.mem_cons_self) short found (spares e List.mem_cons_self))
      fun other member => spares other (List.mem_cons_of_mem _ member)

/-- Data whose write is not skipped are found until an event does not spare them. -/
theorem found_runFlash_of_write {pageNum : UInt8} {flash : Flash} {data : FlashData}
    {before after : List FlashEvent}
    (fits : ∀ e ∈ before ++ .write pageNum data :: after, e.Fits pageWords)
    (other : flashCrc pageWords (runFlash pageWords flash before) pageNum ≠ data.crc)
    (spares : ∀ e ∈ after, e.Spares pageNum data.words) :
    foundWords pageWords (runFlash pageWords flash (before ++ .write pageNum data :: after))
      pageNum = some data.words := by
  -- The write is done, and the events behind it spare its data.
  have room : data.wordCount.toNat + 2 ≤ pageWords :=
    fits _ (List.mem_append_right _ List.mem_cons_self)
  have written := found_of_written (runFlash pageWords flash before) pageNum room other
  rw [runFlash, List.foldl_append, List.foldl_cons]
  refine found_runFlash_of_spares (fun e member => ?_) ?_ written spares
  · exact fits e (List.mem_append_right _ (List.mem_cons_of_mem _ member))
  · rwa [data.length_words]

/-- The word stays on its page for the rest of the run. -/
theorem found_runFlash_of_write_sampleRun :
    foundWords 256 (runFlash 256 erasedFlash ([] ++ .write 1 oneWord ::
      [.writeFailure 2 noWord 1 erasedFlash, .erase 2])) 1 = some oneWord.words := by
  have fits : ∀ e ∈ [] ++ FlashEvent.write 1 oneWord ::
      [.writeFailure 2 noWord 1 erasedFlash, .erase 2], e.Fits 256 := by
    simp [FlashEvent.Fits, oneWord, noWord]
  have spares : ∀ e ∈ [FlashEvent.writeFailure 2 noWord 1 erasedFlash, .erase 2],
      e.Spares 1 oneWord.words := by
    simp [FlashEvent.Spares]
  exact found_runFlash_of_write fits (by decide +kernel) spares

/-- A page is not read any more when its words have changed within two bytes that are
neighbours. -/
theorem not_found_of_corrupted {pageNum : UInt8} {flash flash' : Flash} {words : List UInt32}
    {before part part' after : List UInt8}
    (found : foundWords pageWords flash pageNum = some words)
    (header : flash' (pageAddr pageWords pageNum) = flash (pageAddr pageWords pageNum))
    (bytes : dataBytes words = before ++ part ++ after)
    (bytes' : dataBytes (storedWords pageWords flash' pageNum) = before ++ part' ++ after)
    (changed : part ≠ part') (length : part.length = part'.length) (small : part.length ≤ 2) :
    foundWords pageWords flash' pageNum = none := by
  -- The header still has the checksum of the words that were written.
  have crc := flashCrc_of_found pageWords found
  rw [foundWords_eq, if_neg]
  intro valid
  have same := congrArg UInt32.toUInt16 valid
  rw [toUInt16_flashHeader, header] at same
  have equal : wordsCrc words = wordsCrc (storedWords pageWords flash' pageNum) := by
    rw [← crc, ← same]
    rfl
  unfold wordsCrc at equal
  rw [bytes, bytes'] at equal
  exact crc16_ne changed length small none equal

/-- A bit that is lost in the word is noticed. -/
theorem not_found_of_corrupted_oneWord :
    foundWords 256 (runFlash 256 erasedFlash [.write 1 oneWord]) 1 = some [7] ∧
      foundWords 256 ((Op.program (pageAddr 256 1 + 2) 5).apply bleFlashEmptyMask
        (runFlash 256 erasedFlash [.write 1 oneWord])) 1 = none := by
  have found : foundWords 256 (runFlash 256 erasedFlash [.write 1 oneWord]) 1 = some [7] := by
    decide +kernel
  have header : (Op.program (pageAddr 256 1 + 2) 5).apply bleFlashEmptyMask
      (runFlash 256 erasedFlash [.write 1 oneWord]) (pageAddr 256 1) =
        runFlash 256 erasedFlash [.write 1 oneWord] (pageAddr 256 1) := by
    decide +kernel
  have bytes : dataBytes [7] = [] ++ [7] ++ [0, 0, 0] := by decide +kernel
  have bytes' : dataBytes (storedWords 256 ((Op.program (pageAddr 256 1 + 2) 5).apply
      bleFlashEmptyMask (runFlash 256 erasedFlash [.write 1 oneWord])) 1) =
        [] ++ [5] ++ [0, 0, 0] := by
    decide +kernel
  exact ⟨found, not_found_of_corrupted found header bytes bytes' (by decide) rfl (by decide)⟩

end

end BleHub
