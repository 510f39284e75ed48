import BleHub.Firmware.AdvData
import BleHub.Lib.LengthPrefixed

/-! The structures of a packet of advertising data, and those that an application asks for. -/

namespace BleHub

/-- An AD structure: its type and the bytes behind it. -/
structure AdStructure where
  type : UInt8
  value : List UInt8
  deriving DecidableEq, Repr

namespace AdStructure

/-- What stands behind the length of a structure. -/
def record (ad : AdStructure) : List UInt8 := ad.type :: ad.value

/-- Structures as they are sent, each behind its length. -/
def serialize (ads : List AdStructure) : List UInt8 :=
  LengthPrefixed.encode (ads.map record)

/-- A record without its type is not a structure. -/
def ofRecord : List UInt8 → Option AdStructure
  | [] => none
  | type :: value => some ⟨type, value⟩

/-- The structures that a receiver finds in the bytes of a packet. -/
def parse (bytes : List UInt8) : Option (List AdStructure) :=
  LengthPrefixed.decode bytes >>= fun records => records.mapM ofRecord

@[simp] theorem serialize_nil : serialize [] = [] := rfl

@[simp] theorem serialize_append (first second : List AdStructure) :
    serialize (first ++ second) = serialize first ++ serialize second := by
  simp [serialize]

/-- One structure is its length, its type and its value. -/
theorem serialize_singleton (type : UInt8) (value : List UInt8) :
    serialize [⟨type, value⟩] = UInt8.ofNat (value.length + 1) :: type :: value := by
  simp [serialize, record]

/-- A receiver finds every structure that has been sent, as long as a byte can count it. -/
theorem parse_serialize {ads : List AdStructure} (small : (serialize ads).length < 256) :
    parse (serialize ads) = some ads := by
  have fits : ∀ bytes ∈ ads.map record, LengthPrefixed.Fits bytes := by
    intro bytes member
    obtain ⟨ad, listed, rfl⟩ := List.mem_map.mp member
    refine ⟨List.cons_ne_nil _ _, ?_⟩
    -- A part of the packet is not longer than the packet.
    obtain ⟨before, after, rfl⟩ := List.append_of_mem listed
    simp only [serialize, List.map_append, List.map_cons, LengthPrefixed.encode_append,
      LengthPrefixed.encode_cons, List.length_append, List.length_cons] at small
    omega
  -- Read back as a structure, each record is the one that was written.
  have whole (rest : List AdStructure) : (rest.map record).mapM ofRecord = some rest := by
    induction rest with
    | nil => rfl
    | cons ad rest ih => simp [List.mapM_cons, ih, record, ofRecord]
  rw [parse, serialize, LengthPrefixed.decode_encode fits]
  exact whole ads

end AdStructure

open AdStructure

/-- The structure of a list of UUIDs, which is left out if there are none. -/
def uuidStructures (type : UInt8) (uuids : List (List UInt8)) : List AdStructure :=
  if uuids = [] then [] else [⟨type, uuids.flatten⟩]

/-- The bytes behind a 16-bit identifier. -/
def additionalData (data : UInt8Array) : Except ErrCode (List UInt8) :=
  if data.size = 0 then .ok []
  else match data.pData with
    | none => .error nrfErrorInvalidParam
    | some bytes => .ok bytes.toList

/-- A value that is there is handed to what follows. -/
@[simp] theorem ok_bind {α β : Type} (value : α) (f : α → Except ErrCode β) :
    (Except.ok value >>= f) = f value := rfl

/-- What follows an error is not reached. -/
@[simp] theorem error_bind {α β : Type} (code : ErrCode) (f : α → Except ErrCode β) :
    (Except.error code >>= f) = .error code := rfl

/-- Requests one behind the other, of which the first one that cannot be met spoils all. -/
def concat : List (Except ErrCode (List AdStructure)) → Except ErrCode (List AdStructure)
  | [] => .ok []
  | first :: rest => do
    let ads ← first
    let others ← concat rest
    return ads ++ others

section

variable (stack : AdvStack)

/-- The name that is asked for, whole or shortened. -/
def nameAsked (advdata : BleAdvdata) : Except ErrCode (List AdStructure) :=
  if advdata.nameType = .noName then .ok []
  else do
    let name ← stack.deviceNameGet 29
    if advdata.shortNameLen ≠ 0 ∧ advdata.shortNameLen.toNat < name.length then
      .ok [⟨bleGapAdTypeShortLocalName, name.take advdata.shortNameLen.toNat⟩]
    else .ok [⟨bleGapAdTypeCompleteLocalName, name⟩]

/-- The appearance that is asked for. -/
def appearanceAsked (advdata : BleAdvdata) : Except ErrCode (List AdStructure) :=
  if advdata.includeAppearance then do
    let appearance ← stack.appearanceGet
    return [⟨bleGapAdTypeAppearance, uint16Encode appearance⟩]
  else .ok []

/-- An array that is asked for unless it is empty. -/
def arrayAsked (array : UInt8Array) (advType : UInt8) : Except ErrCode (List AdStructure) :=
  if array.size = 0 then .ok []
  else match array.pData with
    | none => .error nrfErrorInvalidParam
    | some data => .ok [⟨advType, data.toList⟩]

/-- The flags that are asked for. -/
def flagsAsked (advdata : BleAdvdata) : Except ErrCode (List AdStructure) :=
  arrayAsked advdata.flags bleGapAdTypeFlags

/-- The transmit power level that is asked for. -/
def txPowerLevelAsked (advdata : BleAdvdata) : Except ErrCode (List AdStructure) :=
  match advdata.pTxPowerLevel with
  | none => .ok []
  | some level => .ok [⟨bleGapAdTypeTxPowerLevel, [level.toUInt8]⟩]

/-- The UUIDs of one size that are asked for. -/
def uuidsSizedAsked (uuids : BleAdvdataUuidList) (advType : UInt8) (uuidSize : Nat) :
    Except ErrCode (List AdStructure) := do
  let encoded ← uuids.pUuids.toList.mapM stack.uuidEncode
  return uuidStructures advType (encoded.filter (·.length = uuidSize))

/-- The UUIDs that are asked for, first the short ones and then the long ones. -/
def uuidsAsked (uuids : BleAdvdataUuidList) (advType16 advType128 : UInt8) :
    Except ErrCode (List AdStructure) :=
  concat [uuidsSizedAsked stack uuids advType16 2, uuidsSizedAsked stack uuids advType128 16]

/-- The range of connection intervals that is asked for. -/
def connIntAsked (advdata : BleAdvdata) : Except ErrCode (List AdStructure) :=
  match advdata.pSlaveConnInt with
  | none => .ok []
  | some connInt =>
    if connIntCheck connInt = nrfSuccess then
      .ok [⟨bleGapAdTypeSlaveConnectionIntervalRange,
        uint16Encode connInt.minConnInterval ++ uint16Encode connInt.maxConnInterval⟩]
    else .error (connIntCheck connInt)

/-- The manufacturer specific data that are asked for. -/
def manufSpecificDataAsked (advdata : BleAdvdata) : Except ErrCode (List AdStructure) :=
  match advdata.pManufSpecificData with
  | none => .ok []
  | some manuf => do
    let data ← additionalData manuf.data
    return [⟨bleGapAdTypeManufacturerSpecificData, uint16Encode manuf.companyIdentifier ++ data⟩]

/-- The data of one service. -/
def serviceAsked (service : BleAdvdataServiceData) : Except ErrCode (List AdStructure) := do
  let data ← additionalData service.data
  return [⟨bleGapAdTypeServiceData, uint16Encode service.serviceUuid ++ data⟩]

/-- The data of the services that are asked for. -/
def serviceDataAsked (advdata : BleAdvdata) : Except ErrCode (List AdStructure) :=
  if advdata.serviceDataCount = 0 then .ok []
  else match advdata.pServiceDataArray with
    | none => .error nrfErrorInvalidParam
    | some services => concat (services.toList.map serviceAsked)

/-- Everything that is asked for apart from the data of the services. -/
def fieldsAsked (advdata : BleAdvdata) : Except ErrCode (List AdStructure) :=
  concat [nameAsked stack advdata, appearanceAsked stack advdata, flagsAsked advdata,
    txPowerLevelAsked advdata,
    uuidsAsked stack advdata.uuidsMoreAvailable
      bleGapAdType16bitServiceUuidMoreAvailable bleGapAdType128bitServiceUuidMoreAvailable,
    uuidsAsked stack advdata.uuidsComplete
      bleGapAdType16bitServiceUuidComplete bleGapAdType128bitServiceUuidComplete,
    uuidsAsked stack advdata.uuidsSolicited
      bleGapAdTypeSolicitedServiceUuids16bit bleGapAdTypeSolicitedServiceUuids128bit,
    connIntAsked advdata, manufSpecificDataAsked advdata]

/-- Everything that is asked for. -/
def packetAsked (advdata : BleAdvdata) : Except ErrCode (List AdStructure) :=
  concat [fieldsAsked stack advdata, serviceDataAsked advdata]

end

end BleHub
