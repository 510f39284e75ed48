import BleHub.Proofs.AdvEncoding

/-! A packet that has been encoded is read as what the application has asked for. -/

namespace BleHub

open AdStructure Encoder

/-- The encoding of everything apart from the service data. -/
def fieldsEncode (stack : AdvStack) (advdata : BleAdvdata) : Encoder Unit := do
  whenever (advdata.nameType ≠ .noName) (nameEncode stack advdata)
  whenever advdata.includeAppearance (appearanceEncode stack)
  whenever (advdata.flags.size > 0) (uint8ArrayEncode advdata.flags bleGapAdTypeFlags)
  unlessNull advdata.pTxPowerLevel txPowerLevelEncode
  whenever (advdata.uuidsMoreAvailable.uuidCnt > 0) (uuidListEncode stack
    advdata.uuidsMoreAvailable
    bleGapAdType16bitServiceUuidMoreAvailable bleGapAdType128bitServiceUuidMoreAvailable)
  whenever (advdata.uuidsComplete.uuidCnt > 0) (uuidListEncode stack
    advdata.uuidsComplete
    bleGapAdType16bitServiceUuidComplete bleGapAdType128bitServiceUuidComplete)
  whenever (advdata.uuidsSolicited.uuidCnt > 0) (uuidListEncode stack
    advdata.uuidsSolicited
    bleGapAdTypeSolicitedServiceUuids16bit bleGapAdTypeSolicitedServiceUuids128bit)
  unlessNull advdata.pSlaveConnInt connIntEncode
  unlessNull advdata.pManufSpecificData manufSpecificDataEncode

/-- The encoding starts with an empty packet and ends with the service data. -/
theorem run_advDataEncode (stack : AdvStack) (advdata : BleAdvdata) (b : AdvBuffer) :
    (advDataEncode stack advdata).run b =
      ((fieldsEncode stack advdata).run ⟨b.pEncodedData, 0⟩).bind fun _ =>
        (whenever (advdata.serviceDataCount > 0) (serviceDataEncode advdata)).run := by
  -- The source has one function; the fields before the service data have a rule of their own.
  have split : advDataEncode stack advdata = Exec.modify (fun b => { b with pLen := 0 }) >>=
      fun _ => (fieldsEncode stack advdata >>=
        fun _ => whenever (advdata.serviceDataCount > 0) (serviceDataEncode advdata)) := by
    simp only [advDataEncode, fieldsEncode, Exec.bind_assoc]
  rw [split, Exec.run_bind, Exec.run_modify, Outcome.done_bind, Exec.run_bind]

/-- The fields are appended one behind the other. -/
theorem appended_fields (stack : AdvStack) (advdata : BleAdvdata) {b : AdvBuffer}
    (holds : b.Holds []) :
    Appended (.checked (ManufDataWrap advdata)) [] (fieldsAsked stack advdata)
      ((fieldsEncode stack advdata).run b) :=
  (appended_name stack advdata holds).bind <|
    (encodes_appearance stack advdata).bind <|
    (encodes_uint8Array advdata.flags bleGapAdTypeFlags).bind <|
    (encodes_txPowerLevel advdata).bind <|
    (encodes_uuidList stack advdata.uuidsMoreAvailable _ _).bind <|
    (encodes_uuidList stack advdata.uuidsComplete _ _).bind <|
    (encodes_uuidList stack advdata.uuidsSolicited _ _).bind <|
    (encodes_connInt advdata).bind <|
    (encodes_manufSpecificData advdata).last

/-- The services come last in what is asked for. -/
theorem packetAsked_eq_ok {stack : AdvStack} {advdata : BleAdvdata} {ads : List AdStructure} :
    packetAsked stack advdata = .ok ads ↔ ∃ front services,
      fieldsAsked stack advdata = .ok front ∧ serviceDataAsked advdata = .ok services ∧
        ads = front ++ services := by
  -- What is asked for are the structures of the fields, then those of the services.
  rw [packetAsked, concat_cons_eq_ok]
  constructor
  · rintro ⟨front, others, met, met', rfl⟩
    obtain ⟨services, rest, asked, same, rfl⟩ := concat_cons_eq_ok.mp met'
    cases same
    exact ⟨front, services, met, asked, by rw [List.append_nil]⟩
  · rintro ⟨front, services, met, met', rfl⟩
    refine ⟨front, services, met, concat_cons_eq_ok.mpr ⟨services, [], met', rfl, ?_⟩, rfl⟩
    rw [List.append_nil]

/-- What is asked for behind the fields, once these have been encoded. -/
theorem appended_services (advdata : BleAdvdata) {b : AdvBuffer} {front : List AdStructure}
    (holds : b.Holds (serialize front)) :
    Appended .unchecked (serialize front) (serviceDataAsked advdata)
      ((whenever (advdata.serviceDataCount > 0) (serviceDataEncode advdata)).run b) :=
  encodes_serviceData advdata b _ holds

section

variable (stack : AdvStack) (advdata : BleAdvdata) (b : AdvBuffer)

/-- An encoding that ends well leaves behind what has been asked for. -/
theorem holds_of_done {after : AdvBuffer}
    (ran : (advDataEncode stack advdata).run b = .done () after) :
    ∃ ads, packetAsked stack advdata = .ok ads ∧ after.Holds (serialize ads) := by
  -- Both parts have ended well, and the second one started where the first one ended.
  have fields := appended_fields stack advdata (AdvBuffer.Holds.zero b.pEncodedData)
  rw [run_advDataEncode] at ran
  cases ran' : (fieldsEncode stack advdata).run ⟨b.pEncodedData, 0⟩ with
  | stop reason middle =>
    rw [ran', Outcome.stop_bind] at ran
    cases ran
  | done _ middle =>
    rw [ran'] at fields
    obtain ⟨front, met, held⟩ := fields
    have services := appended_services advdata held
    rw [ran', Outcome.done_bind] at ran
    rw [ran] at services
    obtain ⟨services, met', held'⟩ := services
    refine ⟨front ++ services, packetAsked_eq_ok.mpr ⟨front, services, met, met', rfl⟩, ?_⟩
    rwa [serialize_append]

/-- An encoding that stops has a reason for it. -/
theorem cause_of_stop {reason : AdvStop} {after : AdvBuffer}
    (ran : (advDataEncode stack advdata).run b = .stop reason after) :
    (reason = .overrun → ManufDataWrap advdata ∨ advdata.serviceDataCount ≠ 0) ∧
      reason ≠ .errCode nrfSuccess ∧
      ∀ front ads, fieldsAsked stack advdata = .ok front → packetAsked stack advdata = .ok ads →
        bleGapAdvMaxSize < (serialize ads).length ∧
          (¬ ManufDataWrap advdata → reason =
            if (serialize front).length ≤ bleGapAdvMaxSize then .overrun
            else .errCode nrfErrorDataSize) := by
  -- It stops in the fields, or behind them in the service data.
  have fields := appended_fields stack advdata (AdvBuffer.Holds.zero b.pEncodedData)
  rw [run_advDataEncode] at ran
  cases ran' : (fieldsEncode stack advdata).run ⟨b.pEncodedData, 0⟩ with
  | stop reason' middle =>
    rw [ran', Outcome.stop_bind] at ran
    cases ran
    rw [ran'] at fields
    refine ⟨fun overrun => .inl (fields.1.2 overrun), fields.1.1, fun front ads met whole => ?_⟩
    -- The fields alone are too long already.
    obtain ⟨kind, full⟩ := fields.2 front met
    obtain ⟨front', services, met', -, rfl⟩ := packetAsked_eq_ok.mp whole
    rw [met] at met'
    cases met'
    rw [List.nil_append] at full
    refine ⟨?_, fun small => ?_⟩
    · -- With the service data behind them they are no shorter.
      rw [serialize_append, List.length_append]
      omega
    · rw [if_neg (Nat.not_le.mpr full)]
      rcases kind with rfl | rfl
      · rfl
      · exact absurd (fields.1.2 rfl) small
  | done _ middle =>
    rw [ran'] at fields
    obtain ⟨front, met, held⟩ := fields
    -- The fields are in the buffer, and only the service data can have failed.
    have services := appended_services advdata held
    rw [ran', Outcome.done_bind] at ran
    rw [ran] at services
    refine ⟨fun _ => .inr fun none_ => ?_, services.1, fun front' ads met' whole => ?_⟩
    · -- Without service data the encoding is at its end.
      rw [whenever, if_neg (by simp [none_])] at ran
      cases ran
    · -- The fields have found room, and the service data behind them have not.
      obtain ⟨_, others, met'', asked, rfl⟩ := packetAsked_eq_ok.mp whole
      rw [met] at met' met''
      cases met'
      cases met''
      obtain ⟨overrun, full⟩ := services.2 others asked
      rw [serialize_append]
      have inside : (serialize front).length ≤ bleGapAdvMaxSize := held.le
      exact ⟨full, fun _ => by rw [if_pos inside]; exact overrun⟩

/-- The structures that a receiver finds in what has been encoded. -/
def AdvBuffer.parse (b : AdvBuffer) : Option (List AdStructure) :=
  AdStructure.parse (b.pEncodedData.toList.take b.pLen.toNat)

/-- A receiver finds the structures that a buffer holds. -/
theorem AdvBuffer.Holds.parse {b : AdvBuffer} {ads : List AdStructure}
    (holds : b.Holds (serialize ads)) : b.parse = some ads := by
  -- Each structure is shorter than the packet, so its length fits into a byte.
  have inside := holds.le
  have bound : bleGapAdvMaxSize = 31 := rfl
  rw [AdvBuffer.parse, holds.pLen, holds.prefixed]
  exact parse_serialize (by omega)

/-- The encoding succeeds exactly if all that is asked for can be had and fits into a packet,
and then a receiver finds exactly that. -/
theorem advDataEncode_parse :
    (∀ after, (advDataEncode stack advdata).run b = .done () after →
      ∃ ads, packetAsked stack advdata = .ok ads ∧ after.parse = some ads) ∧
    ((∃ after, (advDataEncode stack advdata).run b = .done () after) ↔
      ∃ ads, packetAsked stack advdata = .ok ads ∧
        (serialize ads).length ≤ bleGapAdvMaxSize) := by
  refine ⟨fun after ran => ?_, fun ⟨after, ran⟩ => ?_, fun ⟨ads, met, fits⟩ => ?_⟩
  · -- After a success the buffer holds what was asked for.
    obtain ⟨ads, met, held⟩ := holds_of_done stack advdata b ran
    exact ⟨ads, met, held.parse⟩
  · -- What is in the buffer is no longer than the buffer.
    obtain ⟨ads, met, held⟩ := holds_of_done stack advdata b ran
    exact ⟨ads, met, held.le⟩
  · -- Had it stopped, what is asked for would be too long.
    cases ran : (advDataEncode stack advdata).run b with
    | done _ after => exact ⟨after, rfl⟩
    | stop reason after =>
      obtain ⟨front, services, met', -, -⟩ := packetAsked_eq_ok.mp met
      have full := ((cause_of_stop stack advdata b ran).2.2 front ads met' met).1
      omega

/-- A stack that holds this name, no appearance and no vendor specific UUIDs. -/
def AdvStack.named (name : List UInt8) : AdvStack where
  deviceNameGet room :=
    if name.length ≤ room.toNat then .ok name else .error nrfErrorDataSize
  appearanceGet := .ok 0
  uuidEncode uuid :=
    if uuid.type = bleUuidTypeBle then .ok (uint16Encode uuid.uuid)
    else .error nrfErrorInvalidParam
  name_le room bytes met := by
    split at met
    · rename_i short
      cases met
      exact short
    · cases met
  length_uuid uuid bytes met := by
    split at met
    · cases met
      exact .inl rfl
    · cases met
  name_error room same := by
    split at same
    · cases same
    · exact absurd (Except.error.inj same) (by decide)
  appearance_error same := by cases same
  uuid_error uuid same := by
    split at same
    · cases same
    · exact absurd (Except.error.inj same) (by decide)

/-- The device name of the application, Nordic_Template. -/
def deviceName : List UInt8 :=
  [0x4E, 0x6F, 0x72, 0x64, 0x69, 0x63, 0x5F, 0x54, 0x65, 0x6D, 0x70, 0x6C, 0x61, 0x74, 0x65]

/-- A buffer with nothing in it. -/
def AdvBuffer.blank : AdvBuffer := ⟨Vector.replicate bleGapAdvMaxSize 0, 0⟩

/-- The packet of the application with a battery level as service data. -/
def batteryData : BleAdvdata :=
  { advertisingData with
    serviceDataCount := 1
    pServiceDataArray := some #v[⟨bleUuidBatteryService, ⟨1, some #v[0x64]⟩⟩] }

/-- A packet that is too long is refused for its size as long as its length comes from the
fields that are checked; service data are written behind the end of the buffer instead. -/
theorem advDataEncode_full {front ads : List AdStructure} (small : ¬ ManufDataWrap advdata)
    (met : fieldsAsked stack advdata = .ok front) (whole : packetAsked stack advdata = .ok ads)
    (full : bleGapAdvMaxSize < (serialize ads).length) :
    ((advDataEncode stack advdata).run b).reason? = some
      (if (serialize front).length ≤ bleGapAdvMaxSize then .overrun
      else .errCode nrfErrorDataSize) := by
  cases ran : (advDataEncode stack advdata).run b with
  | done _ after =>
    -- A packet that is too long cannot have been encoded.
    obtain ⟨ads', met', held⟩ := holds_of_done stack advdata b ran
    rw [whole] at met'
    cases met'
    have inside := held.le
    omega
  | stop reason after =>
    have cause := ((cause_of_stop stack advdata b ran).2.2 front ads met whole).2 small
    rw [Outcome.reason?_stop, cause]

/-- The structures of the packet of the application. -/
def sentStructures : List AdStructure :=
  [⟨bleGapAdTypeCompleteLocalName, deviceName⟩, ⟨bleGapAdTypeAppearance, [0, 0]⟩,
    ⟨bleGapAdTypeFlags, [bleGapAdvFlagsLeOnlyLimitedDiscMode]⟩,
    ⟨bleGapAdType16bitServiceUuidComplete, [0x0F, 0x18]⟩]

/-- The battery level of the application would end behind the buffer. -/
theorem advDataEncode_full_battery :
    bleGapAdvMaxSize < (serialize (sentStructures ++
      [⟨bleGapAdTypeServiceData, [0x0F, 0x18, 0x64]⟩])).length ∧
    ((advDataEncode (.named deviceName) batteryData).run .blank).reason? = some .overrun := by
  have met : fieldsAsked (.named deviceName) batteryData = .ok sentStructures := rfl
  have whole : packetAsked (.named deviceName) batteryData =
      .ok (sentStructures ++ [⟨bleGapAdTypeServiceData, [0x0F, 0x18, 0x64]⟩]) := rfl
  have full : bleGapAdvMaxSize < (serialize (sentStructures ++
      [⟨bleGapAdTypeServiceData, [0x0F, 0x18, 0x64]⟩])).length := by decide
  -- There are no manufacturer data at all.
  have small : ¬ ManufDataWrap batteryData := by
    rintro ⟨_, none_, -⟩
    cases none_
  have stopped := advDataEncode_full (.named deviceName) batteryData .blank small met whole full
  rw [if_pos (by decide)] at stopped
  exact ⟨full, stopped⟩

/-- Nothing is written behind the end of the buffer except for service data, or for
manufacturer specific data whose size does not fit into a byte. -/
theorem advDataEncode_overrun
    (overrun : ((advDataEncode stack advdata).run b).reason? = some .overrun) :
    ManufDataWrap advdata ∨ advdata.serviceDataCount ≠ 0 := by
  cases ran : (advDataEncode stack advdata).run b with
  | done _ after =>
    rw [ran] at overrun
    cases overrun
  | stop reason after =>
    rw [ran] at overrun
    exact (cause_of_stop stack advdata b ran).1 (Option.some.inj overrun)

/-- The battery level is service data. -/
theorem advDataEncode_overrun_battery :
    ((advDataEncode (.named deviceName) batteryData).run .blank).reason? = some .overrun ∧
      (ManufDataWrap batteryData ∨ batteryData.serviceDataCount ≠ 0) :=
  have overrun : ((advDataEncode (.named deviceName) batteryData).run .blank).reason? =
      some .overrun := by decide +kernel
  ⟨overrun, advDataEncode_overrun _ _ _ overrun⟩

end

/-- The flags among some structures. -/
def flagsOf (ads : List AdStructure) : List AdStructure :=
  ads.filter (·.type = bleGapAdTypeFlags)

/-- A request for structures that are not flags. -/
def Flagless (asked : Except ErrCode (List AdStructure)) : Prop :=
  ∀ ads, asked = .ok ads → flagsOf ads = []

namespace Flagless

/-- Nothing that is asked for is flagless. -/
theorem nil : Flagless (.ok []) := fun _ same => by cases same; rfl

/-- What cannot be had is flagless. -/
theorem error (code : ErrCode) : Flagless (.error code) := fun _ same => by cases same

/-- A structure of another type is flagless. -/
theorem singleton {type : UInt8} (other : type ≠ bleGapAdTypeFlags) (value : List UInt8) :
    Flagless (.ok [⟨type, value⟩]) := by
  intro ads same
  cases same
  simp [flagsOf, other]

/-- Several requests without flags make one without flags. -/
theorem concat {requests : List (Except ErrCode (List AdStructure))}
    (all : ∀ asked ∈ requests, Flagless asked) : Flagless (concat requests) := by
  -- The flags of a list of structures are those of its parts.
  induction requests with
  | nil => exact nil
  | cons first rest ih =>
    intro ads met
    obtain ⟨before, others, ahead, behind, rfl⟩ := concat_cons_eq_ok.mp met
    have later := ih fun asked member => all asked (List.mem_cons_of_mem _ member)
    rw [flagsOf, List.filter_append, ← flagsOf, ← flagsOf, later others behind,
      all first List.mem_cons_self before ahead]
    rfl

/-- Data behind an identifier are flagless under another type. -/
theorem identified {type : UInt8} (other : type ≠ bleGapAdTypeFlags) (identifier : UInt16)
    (data : UInt8Array) : Flagless (do
      let more ← additionalData data
      return [⟨type, uint16Encode identifier ++ more⟩]) := by
  cases additionalData data with
  | error code => exact error code
  | ok more => exact singleton other _

/-- Names are flagless. -/
theorem name (stack : AdvStack) (advdata : BleAdvdata) : Flagless (nameAsked stack advdata) := by
  unfold nameAsked
  split
  · exact nil
  · cases stack.deviceNameGet 29 with
    | error code => exact error code
    | ok name =>
      rw [ok_bind]
      split
      · exact singleton (by decide) _
      · exact singleton (by decide) _

/-- Lists of UUIDs are flagless under other types. -/
theorem uuids (stack : AdvStack) (list : BleAdvdataUuidList) {advType16 advType128 : UInt8}
    (other : advType16 ≠ bleGapAdTypeFlags) (other' : advType128 ≠ bleGapAdTypeFlags) :
    Flagless (uuidsAsked stack list advType16 advType128) := by
  -- A list of UUIDs makes at most one structure of each size.
  have sized (advType : UInt8) (size : Nat) (other : advType ≠ bleGapAdTypeFlags) :
      Flagless (uuidsSizedAsked stack list advType size) := by
    unfold uuidsSizedAsked
    cases list.pUuids.toList.mapM stack.uuidEncode with
    | error code => exact error code
    | ok encoded =>
      rw [ok_bind, uuidStructures]
      split
      · exact nil
      · exact singleton other _
  refine concat fun asked member => ?_
  simp only [List.mem_cons, List.not_mem_nil, or_false] at member
  rcases member with rfl | rfl
  · exact sized _ _ other
  · exact sized _ _ other'

/-- Service data are flagless. -/
theorem services (advdata : BleAdvdata) : Flagless (serviceDataAsked advdata) := by
  unfold serviceDataAsked
  split
  · exact nil
  · cases advdata.pServiceDataArray with
    | none => exact error _
    | some services =>
      refine concat fun asked member => ?_
      obtain ⟨service, -, rfl⟩ := List.mem_map.mp member
      exact identified (by decide) _ _

/-- The fields behind the flags are flagless. -/
theorem rest (stack : AdvStack) (advdata : BleAdvdata) : Flagless (BleHub.concat
    [txPowerLevelAsked advdata,
      uuidsAsked stack advdata.uuidsMoreAvailable
        bleGapAdType16bitServiceUuidMoreAvailable bleGapAdType128bitServiceUuidMoreAvailable,
      uuidsAsked stack advdata.uuidsComplete
        bleGapAdType16bitServiceUuidComplete bleGapAdType128bitServiceUuidComplete,
      uuidsAsked stack advdata.uuidsSolicited
        bleGapAdTypeSolicitedServiceUuids16bit bleGapAdTypeSolicitedServiceUuids128bit,
      connIntAsked advdata, manufSpecificDataAsked advdata]) := by
  refine concat fun asked member => ?_
  simp only [List.mem_cons, List.not_mem_nil, or_false] at member
  -- The types of the six fields all differ from that of the flags.
  rcases member with rfl | rfl | rfl | rfl | rfl | rfl
  · unfold txPowerLevelAsked
    cases advdata.pTxPowerLevel with
    | none => exact nil
    | some level => exact singleton (by decide) _
  · exact uuids stack _ (by decide) (by decide)
  · exact uuids stack _ (by decide) (by decide)
  · exact uuids stack _ (by decide) (by decide)
  · unfold connIntAsked
    cases advdata.pSlaveConnInt with
    | none => exact nil
    | some connInt =>
      dsimp only
      split
      · exact singleton (by decide) _
      · exact error _
  · unfold manufSpecificDataAsked
    cases advdata.pManufSpecificData with
    | none => exact nil
    | some manuf => exact identified (by decide) _ _

end Flagless

/-- The flags of a packet are those that are asked for. -/
theorem flagsOf_packetAsked {stack : AdvStack} {advdata : BleAdvdata} {ads : List AdStructure}
    (met : packetAsked stack advdata = .ok ads) :
    ∃ flags, flagsAsked advdata = .ok flags ∧ flagsOf ads = flagsOf flags := by
  -- The flags come third, and nothing before or behind has their type.
  obtain ⟨front, services, fields, asked, rfl⟩ := packetAsked_eq_ok.mp met
  obtain ⟨name, _, named, behind, rfl⟩ := concat_cons_eq_ok.mp fields
  obtain ⟨appearance, _, appeared, behind', rfl⟩ := concat_cons_eq_ok.mp behind
  obtain ⟨flags, others, flagged, behind'', rfl⟩ := concat_cons_eq_ok.mp behind'
  refine ⟨flags, flagged, ?_⟩
  -- The appearance is one structure of another type, or none.
  have appearanceless : Flagless (appearanceAsked stack advdata) := by
    unfold appearanceAsked
    split
    · cases stack.appearanceGet with
      | error code => exact .error code
      | ok appearance => exact .singleton (by decide) _
    · exact .nil
  have name_ := Flagless.name stack advdata name named
  have appearance_ := appearanceless appearance appeared
  have others_ := Flagless.rest stack advdata others behind''
  have services_ := Flagless.services advdata services asked
  simp only [flagsOf] at name_ appearance_ others_ services_ ⊢
  simp only [List.filter_append, name_, appearance_, others_, services_, List.nil_append,
    List.append_nil]

/-- A packet that is handed to the stack has passed its check and has been encoded. -/
theorem of_packetEncode {stack : AdvStack} {check : BleAdvdata → ErrCode} {buffer : AdvBuffer}
    {data : Option BleAdvdata} {packet : AdvBuffer}
    (encoded : packetEncode stack check buffer data = .ok (some packet)) :
    ∃ supplied ads, data = some supplied ∧ check supplied = nrfSuccess ∧
      packetAsked stack supplied = .ok ads ∧ packet.parse = some ads := by
  -- A packet that is not supplied is not handed over, and one that fails its check is refused.
  unfold packetEncode at encoded
  cases data with
  | none => cases encoded
  | some supplied =>
    dsimp only at encoded
    split at encoded
    · cases encoded
    · rename_i passed
      cases ran : (advDataEncode stack supplied).run buffer with
      | stop reason after =>
        rw [ran] at encoded
        cases encoded
      | done _ after =>
        rw [ran] at encoded
        cases encoded
        obtain ⟨ads, met, held⟩ := holds_of_done stack supplied buffer ran
        exact ⟨supplied, ads, rfl, not_not.mp passed, met, held.parse⟩

/-- Advertising data that pass their check ask for flags that deny BR/EDR. -/
theorem flagsAsked_of_advdataCheck {advdata : BleAdvdata}
    (passed : advdataCheck advdata = nrfSuccess) :
    ∃ flags, flagsAsked advdata = .ok [⟨bleGapAdTypeFlags, flags⟩] ∧
      flags.headD 0 &&& bleGapAdvFlagBrEdrNotSupported ≠ 0 := by
  -- The check makes sure of a first byte, and tests one bit of it.
  obtain ⟨_, _, _, ⟨size, pData⟩, _⟩ := advdata
  simp only [advdataCheck, flagsAsked, arrayAsked] at passed ⊢
  split at passed
  · exact absurd passed (by decide)
  · rename_i some_
    rw [if_neg some_]
    cases pData with
    | none =>
      dsimp only at passed
      exact absurd passed (by decide)
    | some data =>
      dsimp only at passed ⊢
      split at passed
      · exact absurd passed (by decide)
      · exact ⟨_, rfl, ‹_›⟩

/-- A scan response that passes its check does not ask for flags. -/
theorem flagsAsked_of_srdataCheck {srdata : BleAdvdata}
    (passed : srdataCheck srdata = nrfSuccess) : flagsAsked srdata = .ok [] := by
  unfold srdataCheck at passed
  split at passed
  · exact absurd passed (by decide)
  · rename_i none_
    rw [flagsAsked, arrayAsked, if_pos (by simpa [size_pos_iff] using none_)]

/-- Advertising data that reach the stack have one flags structure, which denies BR/EDR, and
a scan response has none. -/
theorem bleAdvdataSet_flags {stack : AdvStack} {buffers : AdvBuffer × AdvBuffer}
    {advdata srdata : Option BleAdvdata} {adv sr : Option AdvBuffer}
    (set : bleAdvdataSet stack buffers advdata srdata = .ok (adv, sr)) :
    (∀ packet, adv = some packet → ∃ ads flags, packet.parse = some ads ∧
      flagsOf ads = [⟨bleGapAdTypeFlags, flags⟩] ∧
        flags.headD 0 &&& bleGapAdvFlagBrEdrNotSupported ≠ 0) ∧
    (∀ packet, sr = some packet → ∃ ads, packet.parse = some ads ∧ flagsOf ads = []) := by
  -- Nothing reaches the stack unless both packets have been encoded.
  obtain ⟨encoded, encoded'⟩ :
      packetEncode stack advdataCheck buffers.1 advdata = .ok adv ∧
        packetEncode stack srdataCheck buffers.2 srdata = .ok sr := by
    unfold bleAdvdataSet at set
    cases first : packetEncode stack advdataCheck buffers.1 advdata with
    | error reason => rw [first] at set; cases set
    | ok one =>
      cases second : packetEncode stack srdataCheck buffers.2 srdata with
      | error reason => rw [first, second] at set; cases set
      | ok two =>
        rw [first, second] at set
        cases set
        exact ⟨rfl, rfl⟩
  constructor
  · -- The check has passed, so there is one flags byte, which denies BR/EDR.
    rintro packet rfl
    obtain ⟨supplied, ads, -, passed, met, parsed⟩ := of_packetEncode encoded
    obtain ⟨flags, flagged, same⟩ := flagsOf_packetAsked met
    obtain ⟨value, flagged', denied⟩ := flagsAsked_of_advdataCheck passed
    rw [flagged] at flagged'
    cases flagged'
    refine ⟨ads, value, parsed, ?_, denied⟩
    rw [same]
    simp [flagsOf]
  · -- The check of a scan response only passes without flags.
    rintro packet rfl
    obtain ⟨supplied, ads, -, passed, met, parsed⟩ := of_packetEncode encoded'
    obtain ⟨flags, flagged, same⟩ := flagsOf_packetAsked met
    rw [flagsAsked_of_srdataCheck passed] at flagged
    cases flagged
    exact ⟨ads, parsed, same⟩

/-- What the application hands to the stack: its packet in a buffer of 31 bytes. -/
def sentPacket : AdvBuffer where
  pEncodedData := #v[16, 9, 0x4E, 0x6F, 0x72, 0x64, 0x69, 0x63, 0x5F, 0x54, 0x65, 0x6D, 0x70, 0x6C,
    0x61, 0x74, 0x65, 3, 0x19, 0, 0, 2, 1, 5, 3, 3, 0x0F, 0x18, 0, 0, 0]
  pLen := 28

/-- A scan response with the first six letters of the name and the transmit power. -/
def responseData : BleAdvdata :=
  { advertisingData with
    nameType := .shortName
    shortNameLen := 6
    includeAppearance := false
    flags := .zero
    pTxPowerLevel := some 4
    uuidsComplete := .zero }

/-- The scan response in its buffer, where the rest of the name is left behind the end. -/
def sentResponse : AdvBuffer where
  pEncodedData := #v[7, 8, 0x4E, 0x6F, 0x72, 0x64, 0x69, 0x63, 2, 0x0A, 4, 0x6D, 0x70, 0x6C, 0x61,
    0x74, 0x65, 0, 0, 0, 0, 0, 0, 0, 0, 0, 0, 0, 0, 0, 0]
  pLen := 11

/-- The flags of the application deny BR/EDR, and the scan response has none. -/
theorem bleAdvdataSet_flags_sentPacket :
    bleAdvdataSet (.named deviceName) (.blank, .blank) (some advertisingData)
      (some responseData) = .ok (some sentPacket, some sentResponse) ∧
    (∃ ads flags, sentPacket.parse = some ads ∧ flagsOf ads = [⟨bleGapAdTypeFlags, flags⟩] ∧
      flags.headD 0 &&& bleGapAdvFlagBrEdrNotSupported ≠ 0) ∧
    ∃ ads, sentResponse.parse = some ads ∧ flagsOf ads = [] :=
  have set : bleAdvdataSet (.named deviceName) (.blank, .blank) (some advertisingData)
      (some responseData) = .ok (some sentPacket, some sentResponse) := by decide +kernel
  have flagged := bleAdvdataSet_flags set
  ⟨set, flagged.1 sentPacket rfl, flagged.2 sentResponse rfl⟩

/-- The packet of the application is sent with any name of up to 18 bytes, and with none that
is longer. -/
theorem advertisingInit_parse (stack : AdvStack) (buffers : AdvBuffer × AdvBuffer)
    {name uuid : List UInt8} {appearance : UInt16} (named : stack.deviceNameGet 29 = .ok name)
    (appeared : stack.appearanceGet = .ok appearance)
    (encoded : stack.uuidEncode ⟨bleUuidBatteryService, bleUuidTypeBle⟩ = .ok uuid)
    (short : uuid.length = 2) :
    if name.length ≤ 18 then ∃ packet, advertisingInit stack buffers = .ok (some packet, none) ∧
      packet.parse = some [⟨bleGapAdTypeCompleteLocalName, name⟩,
        ⟨bleGapAdTypeAppearance, uint16Encode appearance⟩,
        ⟨bleGapAdTypeFlags, [bleGapAdvFlagsLeOnlyLimitedDiscMode]⟩,
        ⟨bleGapAdType16bitServiceUuidComplete, uuid⟩]
    else advertisingInit stack buffers = .error (.errCode nrfErrorDataSize) := by
  -- The application asks for four structures.
  have met : packetAsked stack advertisingData = .ok [⟨bleGapAdTypeCompleteLocalName, name⟩,
      ⟨bleGapAdTypeAppearance, uint16Encode appearance⟩,
      ⟨bleGapAdTypeFlags, [bleGapAdvFlagsLeOnlyLimitedDiscMode]⟩,
      ⟨bleGapAdType16bitServiceUuidComplete, uuid⟩] := by
    have name' : nameAsked stack advertisingData = .ok [⟨bleGapAdTypeCompleteLocalName, name⟩] := by
      rw [nameAsked, named]
      rfl
    have appearance' : appearanceAsked stack advertisingData =
        .ok [⟨bleGapAdTypeAppearance, uint16Encode appearance⟩] := by
      rw [appearanceAsked, appeared]
      rfl
    have uuids : uuidsAsked stack advertisingData.uuidsComplete
        bleGapAdType16bitServiceUuidComplete bleGapAdType128bitServiceUuidComplete =
          .ok [⟨bleGapAdType16bitServiceUuidComplete, uuid⟩] := by
      have listed : advertisingData.uuidsComplete.pUuids.toList =
        [⟨bleUuidBatteryService, bleUuidTypeBle⟩] := rfl
      simp [uuidsAsked, uuidsSizedAsked, listed, List.mapM_cons, encoded, concat,
        uuidStructures, short, Pure.pure, Except.pure]
    simp only [packetAsked, fieldsAsked, concat, name', appearance', uuids, ok_bind]
    rfl
  have passed : advdataCheck advertisingData = nrfSuccess := by decide
  -- All but the name takes 13 bytes, of which two are in front of it.
  have size : (serialize [⟨bleGapAdTypeCompleteLocalName, name⟩,
      ⟨bleGapAdTypeAppearance, uint16Encode appearance⟩,
      ⟨bleGapAdTypeFlags, [bleGapAdvFlagsLeOnlyLimitedDiscMode]⟩,
      ⟨bleGapAdType16bitServiceUuidComplete, uuid⟩]).length = name.length + 13 := by
    simp [serialize, record, short]
  have bound : bleGapAdvMaxSize = 31 := rfl
  cases ran : (advDataEncode stack advertisingData).run buffers.1 with
  | done _ packet =>
    -- The packet is in the buffer, so the name has been short enough.
    have sent : advertisingInit stack buffers = .ok (some packet, none) := by
      simp only [advertisingInit, bleAdvdataSet, packetEncode, if_neg (not_not_intro passed), ran]
      rfl
    obtain ⟨ads, met', held⟩ := holds_of_done stack advertisingData buffers.1 ran
    rw [met] at met'
    cases met'
    have inside := held.le
    rw [if_pos (by omega)]
    exact ⟨packet, sent, held.parse⟩
  | stop reason after =>
    -- An error of the encoding is what the application gets.
    have refused : advertisingInit stack buffers = .error reason := by
      simp only [advertisingInit, bleAdvdataSet, packetEncode, if_neg (not_not_intro passed), ran]
      rfl
    have small : ¬ ManufDataWrap advertisingData := by
      rintro ⟨_, none_, -⟩
      cases none_
    obtain ⟨front, services, fields, asked, same⟩ := packetAsked_eq_ok.mp met
    obtain ⟨full, kind⟩ := (cause_of_stop stack advertisingData buffers.1 ran).2.2 front _ fields met
    -- Nothing comes from services, so the checked fields alone are too long.
    cases (asked : Except.ok [] = Except.ok services)
    rw [List.append_nil] at same
    rw [if_neg (by omega), refused, kind small, ← same, if_neg (Nat.not_le.mpr full)]

/-- The name of the application is short enough. -/
theorem advertisingInit_parse_deviceName :
    ∃ packet, advertisingInit (.named deviceName) (.blank, .blank) = .ok (some packet, none) ∧
      packet.parse = some sentStructures := by
  have named : (AdvStack.named deviceName).deviceNameGet 29 = .ok deviceName := rfl
  have appeared : (AdvStack.named deviceName).appearanceGet = .ok 0 := rfl
  have encoded : (AdvStack.named deviceName).uuidEncode
      ⟨bleUuidBatteryService, bleUuidTypeBle⟩ = .ok [0x0F, 0x18] := rfl
  have sent := advertisingInit_parse _ (.blank, .blank) named appeared encoded rfl
  rw [if_pos (by decide)] at sent
  obtain ⟨packet, ran, parsed⟩ := sent
  exact ⟨packet, ran, parsed⟩

end BleHub
