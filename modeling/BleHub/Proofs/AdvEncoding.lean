import BleHub.Proofs.AdvStructure

/-! Each function that encodes a field appends the structures that are asked for. -/

namespace BleHub

open AdStructure

/-- The buffer holds these bytes and no others. -/
structure AdvBuffer.Holds (b : AdvBuffer) (bytes : List UInt8) : Prop where
  pLen : b.pLen.toNat = bytes.length
  prefixed : b.pEncodedData.toList.take bytes.length = bytes

namespace AdvBuffer.Holds

variable {b : AdvBuffer} {bytes : List UInt8}

/-- What the buffer holds is not larger than the buffer. -/
theorem le (holds : b.Holds bytes) : bytes.length ≤ bleGapAdvMaxSize := by
  -- The bytes are the front of the buffer, and their count is right.
  have lengths := congrArg List.length holds.prefixed
  simp only [List.length_take, Vector.length_toList] at lengths
  omega

/-- An empty buffer holds nothing, whatever is in it. -/
theorem zero (data : Vector UInt8 bleGapAdvMaxSize) :
    AdvBuffer.Holds ⟨data, 0⟩ [] := ⟨rfl, rfl⟩

/-- Behind what the buffer holds lies what it has held before. -/
theorem toList (holds : b.Holds bytes) : ∃ stale, b.pEncodedData.toList = bytes ++ stale := by
  refine ⟨b.pEncodedData.toList.drop bytes.length, ?_⟩
  have parts := List.take_append_drop bytes.length b.pEncodedData.toList
  rw [holds.prefixed] at parts
  exact parts.symm

/-- A buffer that begins with the bytes it counts holds them. -/
theorem of_toList (stale : List UInt8) (starts : b.pEncodedData.toList = bytes ++ stale)
    (count : b.pLen.toNat = bytes.length) : b.Holds bytes :=
  ⟨count, by rw [starts, List.take_left]⟩

/-- A byte that is counted before it is written is whatever lies there. -/
theorem advanced (holds : b.Holds bytes) (room : bytes.length < bleGapAdvMaxSize) :
    ∃ stale, AdvBuffer.Holds ⟨b.pEncodedData, b.pLen + UInt8.ofNat 1⟩ (bytes ++ [stale]) := by
  -- The buffer has a byte behind those that it holds, which is now counted.
  obtain ⟨stale, starts⟩ := holds.toList
  have lengths := congrArg List.length starts
  simp only [Vector.length_toList, List.length_append] at lengths
  cases stale with
  | nil =>
    simp only [List.length_nil] at lengths
    omega
  | cons byte stale =>
    refine ⟨byte, of_toList stale (by simpa using starts) ?_⟩
    have bound : bleGapAdvMaxSize = 31 := rfl
    simp only [UInt8.toNat_add, UInt8.toNat_ofNat', holds.pLen, List.length_append,
      List.length_singleton]
    omega

/-- A byte in the middle can be written afterwards. -/
theorem patched {old new : UInt8} {rest : List UInt8} (holds : b.Holds (bytes ++ old :: rest)) :
    AdvBuffer.Holds ⟨ByteBuffer.overwrite b.pEncodedData bytes.length [new], b.pLen⟩
      (bytes ++ new :: rest) := by
  -- One byte is replaced, and those on both sides of it stay.
  have inside := holds.le
  obtain ⟨stale, starts⟩ := holds.toList
  simp only [List.length_append, List.length_cons] at inside
  refine of_toList stale ?_ (by simpa using holds.pLen)
  rw [ByteBuffer.toList_overwrite _ (by simp only [List.length_singleton]; omega), starts]
  simp [List.drop_append]

/-- What has been copied behind the held bytes and is counted is held as well. -/
theorem overwritten (holds : b.Holds bytes) {more : List UInt8} {count : Nat}
    (fits : bytes.length + more.length ≤ bleGapAdvMaxSize) (part : count ≤ more.length) :
    AdvBuffer.Holds ⟨ByteBuffer.overwrite b.pEncodedData bytes.length more,
      b.pLen + UInt8.ofNat count⟩ (bytes ++ more.take count) := by
  -- Not all that is copied has to be counted.
  have written := ByteBuffer.take_overwrite b.pEncodedData fits
  constructor
  · -- The buffer is so small that the length does not wrap.
    have bound : bleGapAdvMaxSize = 31 := rfl
    simp only [UInt8.toNat_add, UInt8.toNat_ofNat', holds.pLen, List.length_append,
      List.length_take]
    omega
  · have shorter := congrArg (List.take (bytes.length + count)) written
    rw [List.take_take, Nat.min_eq_left (by omega), holds.prefixed, List.take_length_add_append]
      at shorter
    simpa [Nat.min_eq_left part] using shorter

end AdvBuffer.Holds

namespace Encoder

variable {b : AdvBuffer} {bytes : List UInt8}

@[simp] theorem run_len : len.run b = .done b.pLen b := rfl

@[simp] theorem run_fail {α : Type} (code : ErrCode) :
    (fail code : Encoder α).run b = .stop (.errCode code) b := rfl

@[simp] theorem call_ok {α : Type} (value : α) : (call (.ok value) : Encoder α) = pure value := rfl

@[simp] theorem call_error {α : Type} (code : ErrCode) :
    (call (.error code) : Encoder α) = fail code := rfl

/-- A copy either fits into the buffer or is an overrun. -/
theorem run_copy (start : Nat) (more : List UInt8) :
    (copy start more).run b =
      if start + more.length ≤ bleGapAdvMaxSize then
        .done () ⟨ByteBuffer.overwrite b.pEncodedData start more, b.pLen⟩
      else .stop .overrun b := rfl

@[simp] theorem run_advance (count : Nat) :
    (advance count).run b = .done () ⟨b.pEncodedData, b.pLen + UInt8.ofNat count⟩ := rfl

/-- Putting bytes at the end either fits into the buffer or is an overrun. -/
theorem run_put (more : List UInt8) :
    (put more).run b =
      if b.pLen.toNat + more.length ≤ bleGapAdvMaxSize then
        .done () ⟨ByteBuffer.overwrite b.pEncodedData b.pLen.toNat more,
          b.pLen + UInt8.ofNat more.length⟩
      else .stop .overrun b := by
  -- The position is the length, which is read before it is advanced.
  rw [put, Exec.run_bind, run_len, Outcome.done_bind, Exec.run_bind, run_copy]
  split
  · rfl
  · rfl

/-- A program that puts these bytes behind what is there, whether or not they fit. -/
structure Puts (encode : Encoder Unit) (more : List UInt8) : Prop where
  fitting : ∀ b bytes, AdvBuffer.Holds b bytes →
    bytes.length + more.length ≤ bleGapAdvMaxSize →
    ∃ after, encode.run b = .done () after ∧ after.Holds (bytes ++ more)
  overfull : ∀ b bytes, AdvBuffer.Holds b bytes →
    bleGapAdvMaxSize < bytes.length + more.length →
    ∃ after, encode.run b = .stop .overrun after

/-- Copying to the end and counting the bytes puts them there. -/
theorem puts_put (more : List UInt8) : Puts (put more) more := by
  -- The only check of a single copy is that of the memory behind the buffer.
  constructor
  · intro b bytes holds fits
    rw [run_put, holds.pLen, if_pos fits]
    refine ⟨_, rfl, ?_⟩
    simpa using holds.overwritten fits (Nat.le_refl _)
  · intro b bytes holds full
    rw [run_put, holds.pLen, if_neg (Nat.not_le.mpr full)]
    exact ⟨b, rfl⟩

/-- What two programs put one after the other. -/
theorem Puts.bind {first second : Encoder Unit} {ahead behind : List UInt8}
    (puts : Puts first ahead) (puts' : Puts second behind) :
    Puts (first >>= fun _ => second) (ahead ++ behind) := by
  constructor
  · intro b bytes holds fits
    simp only [List.length_append] at fits
    obtain ⟨middle, ran, held⟩ := puts.fitting b bytes holds (by omega)
    obtain ⟨after, ran', held'⟩ := puts'.fitting middle (bytes ++ ahead) held (by
      simp only [List.length_append]
      omega)
    refine ⟨after, ?_, by simpa using held'⟩
    rw [Exec.run_bind, ran, Outcome.done_bind, ran']
  · intro b bytes holds full
    simp only [List.length_append] at full
    -- Either the first part is too long already or the second one does not fit behind it.
    by_cases room : bytes.length + ahead.length ≤ bleGapAdvMaxSize
    · obtain ⟨middle, ran, held⟩ := puts.fitting b bytes holds room
      obtain ⟨after, ran'⟩ := puts'.overfull middle (bytes ++ ahead) held (by
        simp only [List.length_append]
        omega)
      exact ⟨after, by rw [Exec.run_bind, ran, Outcome.done_bind, ran']⟩
    · obtain ⟨after, ran⟩ := puts.overfull b bytes holds (Nat.not_le.mp room)
      exact ⟨after, by rw [Exec.run_bind, ran, Outcome.stop_bind]⟩

end Encoder

open Encoder

/-- The reasons for which an encoding may stop at all, and those for a lack of room. -/
structure StopRule where
  allowed : AdvStop → Prop
  full : AdvStop → Prop

/-- Nothing is written where it does not fit, except in a bad case. -/
def StopRule.checked (bad : Prop) : StopRule where
  allowed reason := reason ≠ .errCode nrfSuccess ∧ (reason = .overrun → bad)
  full reason := reason = .errCode nrfErrorDataSize ∨ reason = .overrun

/-- What does not fit is written anyway. -/
def StopRule.unchecked : StopRule where
  allowed reason := reason ≠ .errCode nrfSuccess
  full reason := reason = .overrun

/-- How an encoding ends that starts behind these bytes and is asked for these structures. -/
def Appended (rule : StopRule) (bytes : List UInt8) (asked : Except ErrCode (List AdStructure)) :
    Outcome AdvStop AdvBuffer Unit → Prop
  | .done _ after => ∃ ads, asked = .ok ads ∧ after.Holds (bytes ++ serialize ads)
  | .stop reason _ => rule.allowed reason ∧ ∀ ads, asked = .ok ads →
      rule.full reason ∧ bleGapAdvMaxSize < (bytes ++ serialize ads).length

/-- A program that appends what is asked for, or stops for a reason. -/
def Encodes (rule : StopRule) (encode : Encoder Unit)
    (asked : Except ErrCode (List AdStructure)) : Prop :=
  ∀ b bytes, AdvBuffer.Holds b bytes → Appended rule bytes asked (encode.run b)

section

variable {rule : StopRule} {bad : Prop} {b after : AdvBuffer} {bytes : List UInt8}
  {encode encode' : Encoder Unit} {asked : Except ErrCode (List AdStructure)}
  {rest : List (Except ErrCode (List AdStructure))} {type : UInt8} {value : List UInt8}

/-- What cannot be asked for is refused. -/
theorem appended_refused {reason : AdvStop} {error : ErrCode} (allowed : rule.allowed reason) :
    Appended rule bytes (.error error) (.stop reason after) :=
  ⟨allowed, fun _ same => by cases same⟩

/-- An error code is a reason to stop wherever something is checked. -/
theorem allowed_errCode {code : ErrCode} (failed : code ≠ nrfSuccess) :
    (StopRule.checked bad).allowed (.errCode code) :=
  ⟨fun same => failed (AdvStop.errCode.inj same), fun overrun => by cases overrun⟩

/-- In a bad case something may be written behind the buffer. -/
theorem allowed_overrun (wrapped : bad) : (StopRule.checked bad).allowed .overrun :=
  ⟨fun same => (by cases same), fun _ => wrapped⟩

/-- A missing pointer is refused. -/
theorem appended_invalid {error : ErrCode} :
    Appended (.checked bad) bytes (.error error) (.stop (.errCode nrfErrorInvalidParam) after) :=
  appended_refused (allowed_errCode (by decide))

/-- What cannot be asked for may also be refused for its size. -/
theorem appended_refused_size {error : ErrCode} :
    Appended (.checked bad) bytes (.error error) (.stop (.errCode nrfErrorDataSize) after) :=
  appended_refused (allowed_errCode (by decide))

/-- A structure that does not fit is refused for its size. -/
theorem appended_full (full : bleGapAdvMaxSize < bytes.length + (value.length + 2)) :
    Appended (.checked bad) bytes (.ok [⟨type, value⟩])
      (.stop (.errCode nrfErrorDataSize) after) := by
  refine ⟨allowed_errCode (by decide), fun ads same => ⟨.inl rfl, ?_⟩⟩
  cases same
  rw [serialize_singleton]
  simpa using full

/-- Structures that fit are put behind the others. -/
theorem Encoder.Puts.appended {ads : List AdStructure} (puts : Puts encode (serialize ads))
    (holds : b.Holds bytes) (room : bytes.length + (serialize ads).length ≤ bleGapAdvMaxSize) :
    Appended rule bytes (.ok ads) (encode.run b) := by
  obtain ⟨after, ran, held⟩ := puts.fitting b bytes holds room
  rw [ran]
  exact ⟨_, rfl, held⟩

/-- A single structure that fits is put behind the others. -/
theorem Encoder.Puts.appended_singleton (puts : Puts encode (serialize [⟨type, value⟩]))
    (holds : b.Holds bytes) (room : ¬ bleGapAdvMaxSize < bytes.length + (value.length + 2)) :
    Appended rule bytes (.ok [⟨type, value⟩]) (encode.run b) := by
  refine puts.appended holds ?_
  rw [serialize_singleton]
  simpa using room

/-- Nothing is asked for and nothing is done. -/
theorem encodes_pure : Encodes rule (pure ()) (.ok []) := by
  intro b bytes holds
  exact ⟨[], rfl, by simpa using holds⟩

/-- What is asked for in several parts can be met if each of them can. -/
theorem concat_cons_eq_ok {ads : List AdStructure} :
    concat (asked :: rest) = .ok ads ↔
      ∃ before others, asked = .ok before ∧ concat rest = .ok others ∧
        ads = before ++ others := by
  -- The first request that cannot be met decides the error.
  cases asked with
  | error code => simp [concat]
  | ok before =>
    cases behind : concat rest with
    | error code => simp [concat, behind]
    | ok others => simp [concat, behind, Pure.pure, Except.pure, eq_comm]

/-- What comes behind an encoding starts where that one has ended. -/
theorem Appended.bind (first : Appended rule bytes asked (encode.run b))
    (second : Encodes rule encode' (concat rest)) :
    Appended rule bytes (concat (asked :: rest)) ((encode >>= fun _ => encode').run b) := by
  rw [Exec.run_bind]
  cases ran : encode.run b with
  | stop reason after =>
    rw [ran] at first
    refine ⟨first.1, fun ads met => ?_⟩
    -- If all is asked for properly, its first part alone has been too long.
    obtain ⟨before, others, ahead, -, rfl⟩ := concat_cons_eq_ok.mp met
    obtain ⟨reason', full⟩ := first.2 before ahead
    refine ⟨reason', ?_⟩
    simp only [serialize_append, List.length_append] at full ⊢
    omega
  | done _ middle =>
    -- The first part is in the buffer, and the second one starts behind it.
    rw [ran] at first
    obtain ⟨before, ahead, held⟩ := first
    have later := second middle _ held
    rw [Outcome.done_bind]
    cases ran' : encode'.run middle with
    | stop reason after =>
      rw [ran'] at later
      refine ⟨later.1, fun ads met => ?_⟩
      obtain ⟨before', others, ahead', behind, rfl⟩ := concat_cons_eq_ok.mp met
      rw [ahead] at ahead'
      cases ahead'
      simpa using later.2 others behind
    | done _ after =>
      rw [ran'] at later
      obtain ⟨others, behind, held'⟩ := later
      exact ⟨before ++ others, concat_cons_eq_ok.mpr ⟨before, others, ahead, behind, rfl⟩,
        by simpa using held'⟩

/-- Encodings one behind the other encode what is asked for one behind the other. -/
theorem Encodes.bind (first : Encodes rule encode asked)
    (second : Encodes rule encode' (concat rest)) :
    Encodes rule (encode >>= fun _ => encode') (concat (asked :: rest)) :=
  fun b bytes holds => (first b bytes holds).bind second

/-- The last encoding of several. -/
theorem Encodes.last (only : Encodes rule encode asked) :
    Encodes rule encode (concat [asked]) := by
  have alone : concat [asked] = asked := by
    cases asked with
    | error error => rfl
    | ok ads => simp [concat, Pure.pure, Except.pure]
  rwa [alone]

end

section

variable {bad : Prop}

/-- Sixteen bits take two bytes. -/
@[simp] theorem length_uint16Encode (value : UInt16) : (uint16Encode value).length = 2 := rfl

/-- The appearance is encoded in four bytes. -/
theorem encodes_appearance (stack : AdvStack) (advdata : BleAdvdata) :
    Encodes (.checked bad) (whenever advdata.includeAppearance (appearanceEncode stack))
      (appearanceAsked stack advdata) := by
  unfold whenever appearanceAsked
  split
  · intro b bytes holds
    -- The room is checked before the stack is asked for the value.
    rw [appearanceEncode, Exec.run_bind, run_len, Outcome.done_bind, Exec.run_ite, holds.pLen]
    cases got : stack.appearanceGet with
    | error code =>
      have failed : code ≠ nrfSuccess := fun same => stack.appearance_error (same ▸ got)
      split
      · exact appended_refused_size
      · exact appended_refused (allowed_errCode failed)
    | ok appearance =>
      split
      · exact appended_full ‹_›
      · refine Puts.appended_singleton ?_ holds ‹_›
        -- Length, AD type and value.
        exact (puts_put [3]).bind ((puts_put [_]).bind (puts_put _))
  · exact encodes_pure

/-- A length in one byte, computed from a size in two. -/
theorem ofNat_add_toNat (count : Nat) (size : UInt16) :
    UInt8.ofNat (count + size.toNat) = UInt8.ofNat count + size.toUInt8 := by
  rw [UInt8.ofNat_add]
  congr 1

/-- A condition on a size, as a test and as a proposition. -/
theorem size_pos_iff {size : UInt16} : size > 0 ↔ ¬ size = 0 :=
  ⟨fun pos zero => by rw [zero] at pos; exact absurd pos (by decide), UInt16.pos_iff_ne_zero.mpr⟩

/-- An array is encoded behind its length and its AD type. -/
theorem encodes_uint8Array (array : UInt8Array) (advType : UInt8) :
    Encodes (.checked bad) (whenever (array.size > 0) (uint8ArrayEncode array advType))
      (arrayAsked array advType) := by
  -- An empty array is not asked for, a missing one cannot be had.
  unfold whenever arrayAsked
  obtain ⟨size, pData⟩ := array
  simp only [decide_eq_true_eq, size_pos_iff, ite_not]
  split
  · exact encodes_pure
  · simp only [uint8ArrayEncode]
    cases pData with
    | none => exact fun b bytes holds => appended_invalid
    | some data =>
      intro b bytes holds
      have count : data.toList.length = size.toNat := Vector.length_toList
      dsimp only
      rw [Exec.run_bind, run_len, Outcome.done_bind, Exec.run_ite, holds.pLen]
      split
      · exact appended_full (by omega)
      · refine Puts.appended_singleton ?_ holds (by omega)
        rw [serialize_singleton, count, Nat.add_comm, ofNat_add_toNat]
        exact (puts_put [_]).bind ((puts_put [_]).bind (puts_put _))

/-- The transmit power level is encoded in three bytes. -/
theorem encodes_txPowerLevel (advdata : BleAdvdata) :
    Encodes (.checked bad) (unlessNull advdata.pTxPowerLevel txPowerLevelEncode)
      (txPowerLevelAsked advdata) := by
  unfold unlessNull txPowerLevelAsked
  cases advdata.pTxPowerLevel with
  | none => exact encodes_pure
  | some level =>
    intro b bytes holds
    simp only [txPowerLevelEncode]
    rw [Exec.run_bind, run_len, Outcome.done_bind, Exec.run_ite, holds.pLen]
    -- Three bytes either fit, or are refused before any is written.
    split
    · exact appended_full ‹_›
    · refine Puts.appended_singleton ?_ holds ‹_›
      exact (puts_put [2]).bind ((puts_put [_]).bind (puts_put [_]))

/-- A range of connection intervals is encoded in six bytes. -/
theorem encodes_connInt (advdata : BleAdvdata) :
    Encodes (.checked bad) (unlessNull advdata.pSlaveConnInt connIntEncode)
      (connIntAsked advdata) := by
  unfold unlessNull connIntAsked
  cases advdata.pSlaveConnInt with
  | none => exact encodes_pure
  | some connInt =>
    intro b bytes holds
    simp only [connIntEncode]
    rw [Exec.run_bind, run_len, Outcome.done_bind, Exec.run_ite, holds.pLen]
    -- Whether the range is valid is only asked when there is room for it.
    by_cases valid : connIntCheck connInt = nrfSuccess
    · rw [if_pos valid, if_neg (not_not_intro valid)]
      split
      · exact appended_full ‹_›
      · refine Puts.appended_singleton ?_ holds ‹_›
        exact (puts_put [5]).bind ((puts_put [_]).bind ((puts_put _).bind (puts_put _)))
    · rw [if_neg valid, if_pos valid]
      split
      · exact appended_refused_size
      · exact appended_refused (allowed_errCode valid)

/-- Additional data are put behind the identifier, unless their pointer is missing. -/
theorem additionalDataEncode_cases (data : UInt8Array) :
    (∃ bytes, additionalData data = .ok bytes ∧ bytes.length = data.size.toNat ∧
      Puts (additionalDataEncode data) bytes) ∨
    (∃ code, additionalData data = .error code ∧
      additionalDataEncode data = fail nrfErrorInvalidParam) := by
  obtain ⟨size, pData⟩ := data
  unfold additionalData additionalDataEncode
  simp only [size_pos_iff, ite_not]
  -- With a size of zero the pointer is not looked at.
  split
  · rename_i empty
    subst empty
    refine .inl ⟨[], rfl, rfl, ⟨fun b bytes holds _ => ⟨b, rfl, by simpa using holds⟩, ?_⟩⟩
    intro b bytes holds full
    have inside := holds.le
    rw [List.length_nil] at full
    omega
  · cases pData with
    | none => exact .inr ⟨_, rfl, rfl⟩
    | some bytes => exact .inl ⟨_, rfl, Vector.length_toList, puts_put _⟩

/-- A structure that begins with a 16-bit identifier, and the data behind that. -/
def identifiedEncode (type : UInt8) (identifier : UInt16) (data : UInt8Array) : Encoder Unit := do
  put [1 + (2 + data.size.toUInt8)]
  put [type]
  put (uint16Encode identifier)
  additionalDataEncode data

/-- The length is right unless it is too large for a byte. -/
theorem serialize_identified (type : UInt8) (identifier : UInt16) {data : UInt8Array}
    {more : List UInt8} (count : more.length = data.size.toNat) :
    serialize [⟨type, uint16Encode identifier ++ more⟩] =
      [1 + (2 + data.size.toUInt8)] ++ ([type] ++ (uint16Encode identifier ++ more)) := by
  -- The length byte is a sum of bytes here, and counts the same modulo 256.
  have total : (uint16Encode identifier ++ more).length + 1 = 3 + data.size.toNat := by
    rw [List.length_append, length_uint16Encode, count]
    omega
  rw [serialize_singleton, total, ofNat_add_toNat, show UInt8.ofNat 3 = 1 + 2 from rfl,
    UInt8.add_assoc]
  rfl

/-- Such a structure is put behind the others, unless the pointer to its data is missing. -/
theorem identifiedEncode_cases (type : UInt8) (identifier : UInt16) (data : UInt8Array) :
    (∃ more, additionalData data = .ok more ∧ more.length = data.size.toNat ∧
      Puts (identifiedEncode type identifier data)
        (serialize [⟨type, uint16Encode identifier ++ more⟩])) ∨
    (∃ code, additionalData data = .error code ∧ ∀ b bytes, AdvBuffer.Holds b bytes →
      ∃ reason after, (identifiedEncode type identifier data).run b = .stop reason after ∧
        (reason = .errCode nrfErrorInvalidParam ∨
          reason = .overrun ∧ bleGapAdvMaxSize < bytes.length + 4)) := by
  rcases additionalDataEncode_cases data with ⟨more, met, count, puts⟩ | ⟨code, met, refused⟩
  · refine .inl ⟨more, met, count, ?_⟩
    rw [serialize_identified type identifier count]
    exact (puts_put [_]).bind ((puts_put [_]).bind ((puts_put _).bind puts))
  · refine .inr ⟨code, met, fun b bytes holds => ?_⟩
    -- The heading is written before the missing pointer is noticed.
    have heading := (puts_put [1 + (2 + data.size.toUInt8)]).bind
      ((puts_put [type]).bind (puts_put (uint16Encode identifier)))
    have four : ([1 + (2 + data.size.toUInt8)] ++ ([type] ++ uint16Encode identifier)).length =
        4 := rfl
    simp only [identifiedEncode, refused, ← Exec.bind_assoc] at heading ⊢
    rw [Exec.run_bind]
    by_cases room : bytes.length + 4 ≤ bleGapAdvMaxSize
    · obtain ⟨after, ran, -⟩ := heading.fitting b bytes holds (by rwa [four])
      rw [ran]
      exact ⟨_, after, rfl, .inl rfl⟩
    · obtain ⟨after, ran⟩ := heading.overfull b bytes holds (by
        rw [four]
        exact Nat.not_le.mp room)
      rw [ran]
      exact ⟨_, after, rfl, .inr ⟨rfl, Nat.not_le.mp room⟩⟩

/-- The size of manufacturer specific data does not fit into its byte. -/
def ManufDataWrap (advdata : BleAdvdata) : Prop :=
  ∃ manuf, advdata.pManufSpecificData = some manuf ∧ 254 ≤ manuf.data.size.toNat

/-- Manufacturer specific data stay inside the buffer if a byte can hold their size. -/
theorem encodes_manufSpecificData (advdata : BleAdvdata) :
    Encodes (.checked (ManufDataWrap advdata))
      (unlessNull advdata.pManufSpecificData manufSpecificDataEncode)
      (manufSpecificDataAsked advdata) := by
  unfold unlessNull manufSpecificDataAsked
  cases supplied : advdata.pManufSpecificData with
  | none => exact encodes_pure
  | some manuf =>
    intro b bytes holds
    have bound : bleGapAdvMaxSize = 31 := rfl
    -- The size that is checked is the remainder of the size that is copied.
    have width : (2 + manuf.data.size.toUInt8 : UInt8).toNat =
        (2 + manuf.data.size.toNat) % 256 := by
      rw [UInt8.toNat_add, UInt16.toNat_toUInt8]
      show (2 + _) % 256 = _
      omega
    simp only [manufSpecificDataEncode]
    rw [Exec.run_bind, run_len, Outcome.done_bind, Exec.run_ite, holds.pLen, width]
    rcases identifiedEncode_cases bleGapAdTypeManufacturerSpecificData manuf.companyIdentifier
      manuf.data with ⟨more, met, count, puts⟩ | ⟨code, met, refused⟩
    · have total : (uint16Encode manuf.companyIdentifier ++ more).length =
          2 + manuf.data.size.toNat := by
        rw [List.length_append, length_uint16Encode, count]
      have size (type : UInt8) : (serialize [⟨type,
          uint16Encode manuf.companyIdentifier ++ more⟩]).length =
            4 + manuf.data.size.toNat := by
        rw [serialize_singleton, List.length_cons, List.length_cons, total]
        omega
      rw [met, ok_bind]
      split
      · -- The check refuses them, and with the other fields they would be too long.
        rename_i full
        refine ⟨allowed_errCode (by decide), fun ads same => ⟨.inl rfl, ?_⟩⟩
        cases same
        rw [List.length_append, size]
        have smaller := Nat.mod_le (2 + manuf.data.size.toNat) 256
        omega
      · -- The check has let the data pass, so either they fit or their size has wrapped.
        show Appended _ bytes _ ((identifiedEncode _ _ _).run b)
        by_cases room : bytes.length + (4 + manuf.data.size.toNat) ≤ bleGapAdvMaxSize
        · exact puts.appended holds (by rwa [size])
        · obtain ⟨after, ran⟩ := puts.overfull b bytes holds (by
            rw [size]
            exact Nat.not_le.mp room)
          rw [ran]
          refine ⟨allowed_overrun ⟨manuf, supplied, ?_⟩, fun ads same => ⟨.inr rfl, ?_⟩⟩
          · have inside := holds.le
            omega
          · cases same
            rw [List.length_append, size]
            exact Nat.not_le.mp room
    · -- Without the pointer the encoding stops, in the heading or behind it.
      obtain ⟨reason, after, ran, kind⟩ := refused b bytes holds
      rw [met, error_bind]
      split
      · exact appended_refused_size
      · show Appended _ bytes _ ((identifiedEncode _ _ _).run b)
        rw [ran]
        rcases kind with rfl | ⟨rfl, full⟩
        · exact appended_invalid
        · refine appended_refused (allowed_overrun ⟨manuf, supplied, ?_⟩)
          omega

/-- What the buffer holds while UUIDs are collected: in front of them the length is open. -/
def Collected (b : AdvBuffer) (bytes : List UInt8) (type : UInt8) (uuids : List (List UInt8)) :
    Prop :=
  if uuids = [] then b.Holds bytes
  else ∃ stale, b.Holds (bytes ++ stale :: type :: uuids.flatten)

/-- How the collection of the UUIDs of one size ends that has begun with some of them. -/
def Listed (bytes : List UInt8) (type : UInt8) (size : Nat) (uuids : List (List UInt8))
    (encoded : Except ErrCode (List (List UInt8))) : Outcome AdvStop AdvBuffer Bool → Prop
  | .done written after => ∃ all, encoded = .ok all ∧
      written = decide (uuids ++ all.filter (·.length = size) ≠ []) ∧
      Collected after bytes type (uuids ++ all.filter (·.length = size))
  | .stop (.errCode code) _ => code ≠ nrfSuccess ∧ ∀ all, encoded = .ok all →
      code = nrfErrorDataSize ∧ bleGapAdvMaxSize < (bytes ++
        serialize (uuidStructures type (uuids ++ all.filter (·.length = size)))).length
  | .stop .overrun _ => False

/-- The structure of some UUIDs is two bytes longer than these. -/
theorem length_serialize_uuidStructures {type : UInt8} {uuids : List (List UInt8)}
    (some_ : uuids ≠ []) :
    (serialize (uuidStructures type uuids)).length = 2 + uuids.flatten.length := by
  rw [uuidStructures, if_neg some_, serialize_singleton, List.length_cons, List.length_cons]
  omega

/-- Another UUID that fits is put behind those collected so far. -/
theorem collect {b : AdvBuffer} {bytes encoded : List UInt8} {type : UInt8}
    {uuids : List (List UInt8)} (collected : Collected b bytes type uuids)
    (fits : b.pLen.toNat + encoded.length + (if uuids ≠ [] then 0 else 2) ≤ bleGapAdvMaxSize) :
    ∃ after, (whenever (!decide (uuids ≠ [])) (do advance 1; put [type]) >>= fun _ =>
        put encoded).run b = .done () after ∧ Collected after bytes type (uuids ++ [encoded]) := by
  have more : uuids ++ [encoded] ≠ [] := by simp
  -- What is in the buffer decides whether the heading is still to be written.
  unfold Collected at collected ⊢
  simp only [if_neg more]
  by_cases first : uuids = []
  · -- The first one opens the structure.
    subst first
    rw [if_pos rfl] at collected
    simp only [ne_eq, not_true_eq_false, if_false, collected.pLen] at fits
    obtain ⟨stale, opened⟩ := collected.advanced (by omega)
    obtain ⟨middle, ran, headed⟩ := (puts_put [type]).fitting _ _ opened (by
      simp only [List.length_append, List.length_singleton]
      omega)
    obtain ⟨after, ran', held⟩ := (puts_put encoded).fitting _ _ headed (by
      simp only [List.length_append, List.length_singleton]
      omega)
    refine ⟨after, ?_, stale, by simpa using held⟩
    rw [Exec.run_bind, whenever, if_pos (by simp), Exec.run_bind, run_advance,
      Outcome.done_bind, ran, Outcome.done_bind, ran']
  · -- The structure is open, and the UUID goes behind the others.
    rw [if_neg first] at collected
    simp only [ne_eq, first, not_false_eq_true, if_true] at fits
    obtain ⟨stale, held⟩ := collected
    obtain ⟨after, ran, held'⟩ := (puts_put encoded).fitting _ _ held (by
      rw [← held.pLen]
      omega)
    refine ⟨after, ?_, stale, by simpa using held'⟩
    simp [whenever, first, ran]

/-- The buffer counts the UUIDs that are collected and the heading in front of them. -/
theorem Collected.pLen {b : AdvBuffer} {bytes : List UInt8} {type : UInt8}
    {uuids : List (List UInt8)} (collected : Collected b bytes type uuids) :
    b.pLen.toNat + (if uuids ≠ [] then 0 else 2) = bytes.length + 2 + uuids.flatten.length := by
  -- The heading of two bytes is counted once it is there.
  unfold Collected at collected
  split at collected
  · rename_i none_
    subst none_
    simpa using collected.pLen
  · rename_i some_
    obtain ⟨stale, held⟩ := collected
    rw [if_pos some_, held.pLen]
    simp only [List.length_append, List.length_cons]
    omega

/-- What a collection amounts to depends on what is collected in the end. -/
theorem Listed.of_tail {bytes : List UInt8} {type : UInt8} {size : Nat}
    {uuids uuids' : List (List UInt8)} {encoded encoded' : Except ErrCode (List (List UInt8))}
    {o : Outcome AdvStop AdvBuffer Bool} (listed : Listed bytes type size uuids' encoded' o)
    (ahead : ∀ others, encoded' = .ok others → ∃ all, encoded = .ok all ∧
      uuids ++ all.filter (·.length = size) = uuids' ++ others.filter (·.length = size))
    (back : ∀ all, encoded = .ok all → ∃ others, encoded' = .ok others ∧
      uuids ++ all.filter (·.length = size) = uuids' ++ others.filter (·.length = size)) :
    Listed bytes type size uuids encoded o := by
  -- Both ways of ending speak of the same UUIDs.
  cases o with
  | done written after =>
    obtain ⟨others, met, flag, collected⟩ := listed
    obtain ⟨all, met', same⟩ := ahead others met
    rw [← same] at flag collected
    exact ⟨all, met', flag, collected⟩
  | stop reason after =>
    cases reason with
    | overrun => exact listed
    | errCode code =>
      refine ⟨listed.1, fun all met => ?_⟩
      obtain ⟨others, met', same⟩ := back all met
      rw [same]
      exact listed.2 others met'

/-- The loop collects the UUIDs of its size, up to the first one that is invalid or too much. -/
theorem listed_uuidListSizedLoop (stack : AdvStack) (type : UInt8) (size : Nat)
    (rest : List BleUuid) (uuids : List (List UInt8)) (b : AdvBuffer) {bytes : List UInt8}
    (collected : Collected b bytes type uuids) :
    Listed bytes type size uuids (rest.mapM stack.uuidEncode)
      ((uuidListSizedLoop stack type size rest (decide (uuids ≠ []))).run b) := by
  -- The loop goes through the list; what it has collected grows at its end.
  induction rest generalizing uuids b with
  | nil => exact ⟨[], rfl, by simp, by simpa using collected⟩
  | cons uuid rest ih =>
    rw [uuidListSizedLoop, Exec.run_bind]
    cases valid : stack.uuidEncode uuid with
    | error code =>
      -- The list cannot be encoded, and the loop ends with the code of the stack.
      refine ⟨fun same => stack.uuid_error uuid (same ▸ valid), fun all met => ?_⟩
      simp [List.mapM_cons, valid] at met
    | ok encoded =>
      rw [call_ok, Exec.run_pure, Outcome.done_bind, Exec.run_ite]
      -- The list can be encoded if its first UUID and the rest can.
      have tail (all : List (List UInt8)) :
          (uuid :: rest).mapM stack.uuidEncode = .ok all ↔
            ∃ others, rest.mapM stack.uuidEncode = .ok others ∧ all = encoded :: others := by
        cases later : rest.mapM stack.uuidEncode with
        | error code => simp [List.mapM_cons, valid, later]
        | ok others =>
          simp [List.mapM_cons, valid, later, ok_bind, Pure.pure, Except.pure,
            eq_comm]
      split
      · rename_i taken
        -- The UUID has the size that is looked for.
        have next (others : List (List UInt8)) :
            uuids ++ (encoded :: others).filter (·.length = size) =
              (uuids ++ [encoded]) ++ others.filter (·.length = size) := by
          rw [List.filter_cons_of_pos (by simpa using taken), List.append_assoc,
            List.singleton_append]
        rw [Exec.run_bind, run_len, Outcome.done_bind, Exec.run_ite]
        have count := collected.pLen
        simp only [decide_eq_true_eq]
        by_cases full : b.pLen.toNat + encoded.length + (if uuids ≠ [] then 0 else 2) >
            bleGapAdvMaxSize
        · -- There is no room, so the fields asked for would be too long.
          rw [if_pos full]
          refine ⟨by decide, fun all met => ⟨rfl, ?_⟩⟩
          obtain ⟨others, -, rfl⟩ := (tail all).mp met
          rw [next, List.length_append, length_serialize_uuidStructures (by simp)]
          simp only [List.flatten_append, List.length_append, List.flatten_singleton]
          omega
        · -- The UUID is collected, and the loop goes on behind it.
          rw [if_neg full]
          obtain ⟨after, ran, collected'⟩ := collect collected (Nat.not_lt.mp full)
          rw [Exec.pure_bind, ← Exec.bind_assoc, Exec.run_bind, ran, Outcome.done_bind]
          have later := ih (uuids ++ [encoded]) after collected'
          rw [show decide (uuids ++ [encoded] ≠ []) = true by simp] at later
          refine later.of_tail (fun others met => ⟨_, (tail _).mpr ⟨others, met, rfl⟩, next others⟩)
            fun all met => ?_
          obtain ⟨others, met', rfl⟩ := (tail all).mp met
          exact ⟨others, met', next others⟩
      · rename_i skipped
        -- The UUID is left to the loop for the other size.
        have next (others : List (List UInt8)) :
            uuids ++ (encoded :: others).filter (·.length = size) =
              uuids ++ others.filter (·.length = size) := by
          rw [List.filter_cons_of_neg (by simpa using skipped)]
        refine (ih uuids b collected).of_tail
          (fun others met => ⟨_, (tail _).mpr ⟨others, met, rfl⟩, next others⟩) fun all met => ?_
        obtain ⟨others, met', rfl⟩ := (tail all).mp met
        exact ⟨others, met', next others⟩

/-- The UUIDs of one size are encoded behind their AD type, and the length is filled in. -/
theorem encodes_uuidListSized (stack : AdvStack) (uuids : BleAdvdataUuidList) (advType : UInt8)
    (uuidSize : Nat) :
    Encodes (.checked bad) (uuidListSizedEncode stack uuids advType uuidSize)
      (uuidsSizedAsked stack uuids advType uuidSize) := by
  intro b bytes holds
  -- The loop starts with nothing collected.
  have listed := listed_uuidListSizedLoop stack advType uuidSize uuids.pUuids.toList [] b
    (by simpa [Collected] using holds)
  rw [uuidListSizedEncode, Exec.run_bind, run_len, Outcome.done_bind, Exec.run_bind]
  rw [show decide (([] : List (List UInt8)) ≠ []) = false from rfl] at listed
  unfold uuidsSizedAsked
  cases ran : (uuidListSizedLoop stack advType uuidSize uuids.pUuids.toList false).run b with
  | stop reason after =>
    rw [ran] at listed
    cases reason with
    -- The loop checks the room for each UUID, so it never overruns the buffer.
    | overrun => exact listed.elim
    | errCode code =>
      refine ⟨allowed_errCode listed.1, fun ads met => ?_⟩
      cases encoded : uuids.pUuids.toList.mapM stack.uuidEncode with
      | error error => simp [encoded] at met
      | ok all =>
        simp only [encoded, ok_bind, Pure.pure, Except.pure,
          Except.ok.injEq] at met
        subst met
        obtain ⟨rfl, full⟩ := listed.2 all encoded
        exact ⟨.inl rfl, full⟩
  | done written after =>
    rw [ran] at listed
    obtain ⟨all, encoded, flag, collected⟩ := listed
    rw [List.nil_append] at flag collected
    rw [Outcome.done_bind, encoded, flag]
    refine (?_ : Appended _ bytes (.ok (uuidStructures advType _)) _)
    unfold Collected at collected
    generalize all.filter (·.length = uuidSize) = listed at collected
    by_cases none_ : listed = []
    · -- Without UUIDs of the size, no heading was written.
      rw [if_pos none_] at collected
      rw [uuidStructures, if_pos none_, whenever, if_neg (by simpa using none_)]
      exact ⟨[], rfl, by simpa using collected⟩
    · rw [if_neg none_] at collected
      -- The length goes to the byte that was left open in front of the AD type.
      obtain ⟨stale, held⟩ := collected
      rw [uuidStructures, if_neg none_, whenever, if_pos (by simpa using none_), Exec.run_bind,
        run_len, Outcome.done_bind, run_copy]
      have inside := held.le
      have count := held.pLen
      simp only [List.length_append, List.length_cons] at inside count
      -- The length is what has been written since the byte left open.
      have length : after.pLen - (b.pLen + 1) = UInt8.ofNat (listed.flatten.length + 1) := by
        apply UInt8.toNat_inj.mp
        have bound : bleGapAdvMaxSize = 31 := rfl
        have one : (1 : UInt8).toNat = 1 := rfl
        simp only [UInt8.toNat_sub, UInt8.toNat_add, UInt8.toNat_ofNat', holds.pLen, count, one]
        omega
      rw [if_pos (by simp only [List.length_singleton, holds.pLen]; omega), holds.pLen, length]
      refine ⟨_, rfl, ?_⟩
      rw [serialize_singleton]
      exact held.patched

/-- A list of UUIDs is encoded as up to two structures. -/
theorem encodes_uuidList (stack : AdvStack) (uuids : BleAdvdataUuidList)
    (advType16 advType128 : UInt8) :
    Encodes (.checked bad)
      (whenever (uuids.uuidCnt > 0) (uuidListEncode stack uuids advType16 advType128))
      (uuidsAsked stack uuids advType16 advType128) := by
  -- The same list is gone through once for each size.
  unfold whenever uuidsAsked
  split
  · exact (encodes_uuidListSized stack uuids advType16 2).bind
      (encodes_uuidListSized stack uuids advType128 16).last
  · rename_i none_
    -- Without UUIDs there are no structures either.
    obtain ⟨uuidCnt, pUuids⟩ := uuids
    have zero : uuidCnt = 0 := by simpa [size_pos_iff] using none_
    subst zero
    have empty : pUuids.toList = [] := List.eq_nil_of_length_eq_zero Vector.length_toList
    simp only [uuidsSizedAsked, empty]
    exact encodes_pure

/-- Bytes that are put over as many others leave the bytes behind those alone. -/
theorem run_put_over {b : AdvBuffer} (held old more : List UInt8) {tail : List UInt8}
    (starts : b.pEncodedData.toList = held ++ (old ++ tail)) (count : b.pLen.toNat = held.length)
    (same : old.length = more.length) :
    ∃ after, (put more).run b = .done () after ∧
      after.pEncodedData.toList = held ++ (more ++ tail) ∧
      after.pLen.toNat = held.length + more.length := by
  -- What is overwritten has the same length, so the rest keeps its place.
  have lengths := congrArg List.length starts
  have bound : bleGapAdvMaxSize = 31 := rfl
  simp only [Vector.length_toList, List.length_append] at lengths
  rw [run_put, count, if_pos (by omega)]
  refine ⟨_, rfl, ?_, ?_⟩
  · rw [ByteBuffer.toList_overwrite _ (by omega), starts, List.take_left, ← List.drop_drop,
      List.drop_left, ← same, List.drop_left, List.append_assoc]
  · simp only [UInt8.toNat_add, UInt8.toNat_ofNat', count]
    omega

/-- A heading in front of a name that is already there makes it a structure. -/
theorem headed (data : Vector UInt8 bleGapAdvMaxSize) (pLen length type : UInt8)
    {name : List UInt8} {count : Nat} (zero : pLen.toNat = 0)
    (room : name.length ≤ 29) (part : count ≤ name.length) :
    ∃ after : AdvBuffer, (do put [length]; put [type]; advance count : Encoder Unit).run
        ⟨ByteBuffer.overwrite data 2 name, pLen⟩ = .done () after ∧
      after.Holds (length :: type :: name.take count) := by
  -- The name lies behind two bytes, which are whatever was there.
  have bound : bleGapAdvMaxSize = 31 := rfl
  obtain ⟨first, second, tail, starts⟩ : ∃ first second tail,
      (ByteBuffer.overwrite data 2 name).toList = first :: second :: (name ++ tail) := by
    rw [ByteBuffer.toList_overwrite data (by omega), List.append_assoc]
    match whole : data.toList with
    | [] | [_] =>
      have lengths := congrArg List.length whole
      simp [bound] at lengths
    | first :: second :: _ => exact ⟨first, second, _, rfl⟩
  -- Two bytes are written over what has been in front of the name.
  obtain ⟨middle, ran, starts', count'⟩ := run_put_over [] [first] [length]
    (b := ⟨ByteBuffer.overwrite data 2 name, pLen⟩) starts zero rfl
  obtain ⟨after, ran', starts'', count''⟩ :=
    run_put_over [length] [second] [type] starts' count' rfl
  refine ⟨⟨after.pEncodedData, after.pLen + UInt8.ofNat count⟩, ?_, ?_⟩
  · rw [Exec.run_bind, ran, Outcome.done_bind, Exec.run_bind, ran', Outcome.done_bind, run_advance]
  · refine AdvBuffer.Holds.of_toList (name.drop count ++ tail) ?_ ?_
    · rw [starts'']
      show length :: type :: (name ++ tail) = length :: type :: (_ ++ (_ ++ tail))
      rw [← List.append_assoc, List.take_append_drop]
    · simp only [UInt8.toNat_add, UInt8.toNat_ofNat', count'', List.length_cons, List.length_nil,
        List.length_take]
      omega

/-- The name at the front of the packet is encoded whole or in part. -/
theorem appended_name (stack : AdvStack) (advdata : BleAdvdata) {b : AdvBuffer}
    (holds : b.Holds []) :
    Appended (.checked bad) [] (nameAsked stack advdata)
      ((whenever (advdata.nameType ≠ .noName) (nameEncode stack advdata)).run b) := by
  unfold whenever nameAsked
  by_cases none_ : advdata.nameType = .noName
  · rw [if_pos none_, if_neg (by simpa using none_)]
    exact encodes_pure b [] holds
  · have bound : bleGapAdvMaxSize = 31 := rfl
    -- The name is the first field, so it is asked for with room for 29 bytes.
    have zero : b.pLen = 0 := UInt8.toNat_inj.mp holds.pLen
    have room : UInt16.ofNat bleGapAdvMaxSize - (2 + (0 : UInt8).toUInt16) = 29 := by decide
    rw [if_neg none_, if_pos (by simpa using none_), nameEncode, Exec.run_bind, run_len,
      Outcome.done_bind, zero, Exec.run_bind, room]
    cases got : stack.deviceNameGet 29 with
    | error code =>
      exact appended_refused (allowed_errCode fun same => stack.name_error 29 (same ▸ got))
    | ok name =>
      -- The stack returns no more than it was given room for.
      have short : name.length ≤ 29 := stack.name_le 29 name got
      rw [call_ok, Exec.run_pure, Outcome.done_bind, Exec.run_bind, run_copy,
        if_pos (by
          show 0 + 2 + name.length ≤ 31
          omega), Outcome.done_bind, Exec.run_ite]
      rw [ok_bind, show (0 : UInt8).toNat + 2 = 2 from rfl]
      split
      · -- The name is longer than its short form, and only the front of it is counted.
        rename_i shortened
        obtain ⟨after, ran, held⟩ := headed b.pEncodedData b.pLen
          (UInt8.ofNat (advdata.shortNameLen.toNat + 1)) bleGapAdTypeShortLocalName
          holds.pLen short (Nat.le_of_lt shortened.2)
        rw [ran]
        refine ⟨_, rfl, ?_⟩
        rw [serialize_singleton, List.length_take, Nat.min_eq_left (Nat.le_of_lt shortened.2)]
        exact held
      · obtain ⟨after, ran, held⟩ := headed b.pEncodedData b.pLen
          (UInt8.ofNat (name.length + 1)) bleGapAdTypeCompleteLocalName
          holds.pLen short (Nat.le_refl _)
        rw [ran]
        refine ⟨_, rfl, ?_⟩
        rw [serialize_singleton]
        simpa using held

end

/-- The data of one service are written even where they do not fit. -/
theorem encodes_serviceDataLoop (services : List BleAdvdataServiceData) :
    Encodes .unchecked (serviceDataLoop services) (concat (services.map serviceAsked)) := by
  -- Each service is one structure behind the others, with no check before it.
  induction services with
  | nil => exact encodes_pure
  | cons service rest ih =>
    have loop : serviceDataLoop (service :: rest) =
        identifiedEncode bleGapAdTypeServiceData service.serviceUuid service.data >>=
          fun _ => serviceDataLoop rest := by
      simp only [serviceDataLoop, identifiedEncode, Exec.bind_assoc]
    rw [loop, List.map_cons]
    refine Encodes.bind (fun b bytes holds => ?_) ih
    unfold serviceAsked
    rcases identifiedEncode_cases bleGapAdTypeServiceData service.serviceUuid service.data with
      ⟨more, met, count, puts⟩ | ⟨code, met, refused⟩
    · rw [met, ok_bind]
      by_cases room : bytes.length + (serialize [⟨bleGapAdTypeServiceData,
          uint16Encode service.serviceUuid ++ more⟩]).length ≤ bleGapAdvMaxSize
      · -- The structure fits.
        exact puts.appended holds room
      · -- It does not fit, and is written nevertheless.
        obtain ⟨after, ran⟩ := puts.overfull b bytes holds (Nat.not_le.mp room)
        rw [ran]
        refine ⟨fun same => (by cases same), fun ads same => ⟨rfl, ?_⟩⟩
        cases same
        rw [List.length_append]
        exact Nat.not_le.mp room
    · obtain ⟨reason, after, ran, kind⟩ := refused b bytes holds
      rw [met, error_bind, ran]
      refine appended_refused ?_
      rcases kind with rfl | ⟨rfl, -⟩
      · exact fun same => absurd (AdvStop.errCode.inj same) (by decide)
      · exact fun same => by cases same

/-- Service data are all written, wherever they end. -/
theorem encodes_serviceData (advdata : BleAdvdata) :
    Encodes .unchecked (whenever (advdata.serviceDataCount > 0) (serviceDataEncode advdata))
      (serviceDataAsked advdata) := by
  -- A count of zero keeps the loop from being entered.
  have pos : advdata.serviceDataCount > 0 ↔ ¬ advdata.serviceDataCount = 0 :=
    UInt8.pos_iff_ne_zero
  unfold whenever serviceDataAsked serviceDataEncode
  simp only [decide_eq_true_eq, pos, ite_not]
  split
  · exact encodes_pure
  · cases advdata.pServiceDataArray with
    | none =>
      exact fun b bytes holds => appended_refused
        fun same => absurd (AdvStop.errCode.inj same) (by decide)
    | some services => exact encodes_serviceDataLoop services.toList

end BleHub
