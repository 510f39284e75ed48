import BleHub.Lib.ByteBuffer
import BleHub.Lib.Exec
import BleHub.Stack.Interface

/-! Advertising data, as ble_advdata.c encodes it and as main.c asks for it. -/

namespace BleHub

/-- Maximum size of advertising data in octets. -/
def bleGapAdvMaxSize : Nat := 31

/-- AD type: flags for discoverability. -/
def bleGapAdTypeFlags : UInt8 := 0x01
/-- AD type: partial list of 16-bit service UUIDs. -/
def bleGapAdType16bitServiceUuidMoreAvailable : UInt8 := 0x02
/-- AD type: complete list of 16-bit service UUIDs. -/
def bleGapAdType16bitServiceUuidComplete : UInt8 := 0x03
/-- AD type: partial list of 128-bit service UUIDs. -/
def bleGapAdType128bitServiceUuidMoreAvailable : UInt8 := 0x06
/-- AD type: complete list of 128-bit service UUIDs. -/
def bleGapAdType128bitServiceUuidComplete : UInt8 := 0x07
/-- AD type: short local device name. -/
def bleGapAdTypeShortLocalName : UInt8 := 0x08
/-- AD type: complete local device name. -/
def bleGapAdTypeCompleteLocalName : UInt8 := 0x09
/-- AD type: transmit power level. -/
def bleGapAdTypeTxPowerLevel : UInt8 := 0x0A
/-- AD type: slave connection interval range. -/
def bleGapAdTypeSlaveConnectionIntervalRange : UInt8 := 0x12
/-- AD type: list of 16-bit service solicitation UUIDs. -/
def bleGapAdTypeSolicitedServiceUuids16bit : UInt8 := 0x14
/-- AD type: list of 128-bit service solicitation UUIDs. -/
def bleGapAdTypeSolicitedServiceUuids128bit : UInt8 := 0x15
/-- AD type: service data. -/
def bleGapAdTypeServiceData : UInt8 := 0x16
/-- AD type: appearance. -/
def bleGapAdTypeAppearance : UInt8 := 0x19
/-- AD type: manufacturer specific data. -/
def bleGapAdTypeManufacturerSpecificData : UInt8 := 0xFF

/-- Flag: BR/EDR is not supported. -/
def bleGapAdvFlagBrEdrNotSupported : UInt8 := 0x04
/-- Flags: limited discoverable mode without BR/EDR. -/
def bleGapAdvFlagsLeOnlyLimitedDiscMode : UInt8 := 0x01 ||| bleGapAdvFlagBrEdrNotSupported

/-- A UUID: its type selects the base that the 16 bits are put into. -/
structure BleUuid where
  uuid : UInt16
  type : UInt8
  deriving DecidableEq, Repr

/-- An array of bytes: the pointer, unless it is NULL, leads to as many as the size says. -/
structure UInt8Array where
  size : UInt16
  pData : Option (Vector UInt8 size.toNat)

/-- The array that memset leaves: no bytes and no pointer. -/
def UInt8Array.zero : UInt8Array := ⟨0, none⟩

/-- The options for the device name inside the advertising data. -/
inductive BleAdvdataNameType where
  | noName
  | shortName
  | fullName
  deriving DecidableEq, Repr

/-- A list of UUIDs with its length. -/
structure BleAdvdataUuidList where
  uuidCnt : UInt16
  pUuids : Vector BleUuid uuidCnt.toNat

/-- The list that memset leaves. -/
def BleAdvdataUuidList.zero : BleAdvdataUuidList := ⟨0, #v[]⟩

/-- A range of connection intervals in units of 1.25 ms. -/
structure BleAdvdataConnInt where
  minConnInterval : UInt16
  maxConnInterval : UInt16

/-- Manufacturer specific data. -/
structure BleAdvdataManufData where
  companyIdentifier : UInt16
  data : UInt8Array

/-- Data of one service. -/
structure BleAdvdataServiceData where
  serviceUuid : UInt16
  data : UInt8Array

/-- What the application wants to have in a packet; the pointers may be NULL. -/
structure BleAdvdata where
  nameType : BleAdvdataNameType
  shortNameLen : UInt8
  includeAppearance : Bool
  flags : UInt8Array
  pTxPowerLevel : Option Int8
  uuidsMoreAvailable : BleAdvdataUuidList
  uuidsComplete : BleAdvdataUuidList
  uuidsSolicited : BleAdvdataUuidList
  pSlaveConnInt : Option BleAdvdataConnInt
  pManufSpecificData : Option BleAdvdataManufData
  serviceDataCount : UInt8
  pServiceDataArray : Option (Vector BleAdvdataServiceData serviceDataCount.toNat)

/-- The answers of the stack to what the encoding asks for, as its interface describes them. -/
structure AdvStack where
  /-- The device name, for a buffer with this many bytes. -/
  deviceNameGet : UInt16 → Except ErrCode (List UInt8)
  appearanceGet : Except ErrCode UInt16
  /-- The little endian bytes of a UUID. -/
  uuidEncode : BleUuid → Except ErrCode (List UInt8)
  /-- The name is not longer than the buffer that is there for it. -/
  name_le : ∀ room name, deviceNameGet room = .ok name → name.length ≤ room.toNat
  /-- A UUID has 2 or 16 bytes. -/
  length_uuid : ∀ uuid bytes, uuidEncode uuid = .ok bytes → bytes.length = 2 ∨ bytes.length = 16
  /-- A call that fails does not return the code of success. -/
  name_error : ∀ room, deviceNameGet room ≠ .error nrfSuccess
  appearance_error : appearanceGet ≠ .error nrfSuccess
  uuid_error : ∀ uuid, uuidEncode uuid ≠ .error nrfSuccess

/-- Why the encoding ends early. -/
inductive AdvStop where
  /-- A function returned this error code. -/
  | errCode (code : ErrCode)
  /-- Something was written behind the end of the buffer. -/
  | overrun
  deriving DecidableEq, Repr

/-- The buffer for the encoded data and the length of what is in it. -/
structure AdvBuffer where
  pEncodedData : Vector UInt8 bleGapAdvMaxSize
  pLen : UInt8
  deriving DecidableEq

/-- A function that encodes a part of the advertising data. -/
abbrev Encoder (α : Type) : Type := Exec AdvStop AdvBuffer α

namespace Encoder

/-- Return an error code to the caller. -/
def fail {α : Type} (code : ErrCode) : Encoder α := Exec.stop (.errCode code)

/-- Call the stack, and hand its error code on. -/
def call {α : Type} : Except ErrCode α → Encoder α
  | .ok value => pure value
  | .error code => fail code

/-- The length of what has been encoded so far. -/
def len : Encoder UInt8 := do return (← Exec.get).pLen

/-- Copy bytes into the buffer, from a position on. -/
def copy (start : Nat) (bytes : List UInt8) : Encoder Unit := fun b =>
  if start + bytes.length ≤ bleGapAdvMaxSize then
    .done () { b with pEncodedData := ByteBuffer.overwrite b.pEncodedData start bytes }
  else .stop .overrun b

/-- Count bytes as encoded, in the one byte of the length. -/
def advance (count : Nat) : Encoder Unit :=
  Exec.modify fun b => { b with pLen := b.pLen + UInt8.ofNat count }

/-- Put bytes behind what has been encoded. -/
def put (bytes : List UInt8) : Encoder Unit := do
  copy (← len).toNat bytes
  advance bytes.length

/-- Do something under a condition. -/
def whenever (condition : Bool) (encode : Encoder Unit) : Encoder Unit :=
  if condition then encode else pure ()

/-- Do something with what a pointer leads to, unless it is NULL. -/
def unlessNull {α : Type} (pointer : Option α) (encode : α → Encoder Unit) : Encoder Unit :=
  match pointer with
  | none => pure ()
  | some value => encode value

end Encoder

open Encoder

/-- The two bytes of a value, the low one first. -/
def uint16Encode (value : UInt16) : List UInt8 :=
  [((value &&& 0x00FF) >>> 0).toUInt8, ((value &&& 0xFF00) >>> 8).toUInt8]

section

variable (stack : AdvStack)

/-- Encode the name: all of it, or what the short name length leaves of it. -/
def nameEncode (advdata : BleAdvdata) : Encoder Unit := do
  let pLen ← len
  -- The room behind the length and the AD type, as a 16-bit value.
  let room : UInt16 := UInt16.ofNat bleGapAdvMaxSize - (2 + pLen.toUInt16)
  let name ← call (stack.deviceNameGet room)
  -- The stack places the name behind a heading that is still to be written.
  copy (pLen.toNat + 2) name
  -- The shortened name is the front of what the stack has placed.
  if advdata.shortNameLen ≠ 0 ∧ advdata.shortNameLen.toNat < name.length then do
    put [UInt8.ofNat (advdata.shortNameLen.toNat + 1)]
    put [bleGapAdTypeShortLocalName]
    advance advdata.shortNameLen.toNat
  else do
    put [UInt8.ofNat (name.length + 1)]
    put [bleGapAdTypeCompleteLocalName]
    advance name.length

/-- Encode the appearance. -/
def appearanceEncode : Encoder Unit := do
  let pLen ← len
  if pLen.toNat + 4 > bleGapAdvMaxSize then fail nrfErrorDataSize
  else do
    let appearance ← call stack.appearanceGet
    put [3]
    put [bleGapAdTypeAppearance]
    put (uint16Encode appearance)

/-- Encode an array of bytes under an AD type. -/
def uint8ArrayEncode (array : UInt8Array) (advType : UInt8) : Encoder Unit :=
  match array.pData with
  -- The pointer is looked at first, whatever the size is.
  | none => fail nrfErrorInvalidParam
  | some data => do
    let pLen ← len
    if pLen.toNat + 2 + array.size.toNat > bleGapAdvMaxSize then fail nrfErrorDataSize
    else do
      -- The heading counts in one byte, but the check has left only small sizes.
      put [1 + array.size.toUInt8]
      put [advType]
      put data.toList

/-- Encode the transmit power level. -/
def txPowerLevelEncode (txPowerLevel : Int8) : Encoder Unit := do
  let pLen ← len
  if pLen.toNat + 3 > bleGapAdvMaxSize then fail nrfErrorDataSize
  else do
    put [2]
    put [bleGapAdTypeTxPowerLevel]
    put [txPowerLevel.toUInt8]

/-- Encode those UUIDs of a list that have a given size, and tell whether there were any. -/
def uuidListSizedLoop (advType : UInt8) (uuidSize : Nat) : List BleUuid → Bool → Encoder Bool
  | [], isHeadingWritten => pure isHeadingWritten
  | uuid :: rest, isHeadingWritten => do
    -- A first call to the stack asks for nothing but the size.
    let encodedSize := (← call (stack.uuidEncode uuid)).length
    if encodedSize = uuidSize then do
      let headingBytes := if isHeadingWritten then 0 else 2
      let pLen ← len
      if pLen.toNat + encodedSize + headingBytes > bleGapAdvMaxSize then fail nrfErrorDataSize
      else do
        -- The length in front of the AD type is left out for now.
        whenever (!isHeadingWritten) do
          advance 1
          put [advType]
        put (← call (stack.uuidEncode uuid))
        uuidListSizedLoop advType uuidSize rest true
    -- UUIDs of other sizes are passed over, and left to the other call.
    else uuidListSizedLoop advType uuidSize rest isHeadingWritten

/-- Encode the UUIDs of one size, then go back and fill in the length. -/
def uuidListSizedEncode (uuids : BleAdvdataUuidList) (advType : UInt8) (uuidSize : Nat) :
    Encoder Unit := do
  let startPos ← len
  let isHeadingWritten ← uuidListSizedLoop stack advType uuidSize uuids.pUuids.toList false
  whenever isHeadingWritten do
    -- The length counts everything behind its own byte.
    let pLen ← len
    copy startPos.toNat [pLen - (startPos + 1)]

/-- Encode a list of UUIDs, those of 16 bits and then those of 128 bits. -/
def uuidListEncode (uuids : BleAdvdataUuidList) (advType16 advType128 : UInt8) :
    Encoder Unit := do
  uuidListSizedEncode stack uuids advType16 2
  uuidListSizedEncode stack uuids advType128 16

/-- Check a range of connection intervals, where 0xFFFF stands for no specific value. -/
def connIntCheck (connInt : BleAdvdataConnInt) : ErrCode :=
  if connInt.minConnInterval < 0x0006 ∨
      (connInt.minConnInterval > 0x0c80 ∧ connInt.minConnInterval ≠ 0xffff) then
    nrfErrorInvalidParam
  else if connInt.maxConnInterval < 0x0006 ∨
      (connInt.maxConnInterval > 0x0c80 ∧ connInt.maxConnInterval ≠ 0xffff) then
    nrfErrorInvalidParam
  else if connInt.minConnInterval ≠ 0xffff ∧ connInt.maxConnInterval ≠ 0xffff ∧
      connInt.minConnInterval > connInt.maxConnInterval then
    nrfErrorInvalidParam
  else nrfSuccess

/-- Encode a range of connection intervals. -/
def connIntEncode (connInt : BleAdvdataConnInt) : Encoder Unit := do
  let pLen ← len
  if pLen.toNat + 2 + 2 * 2 > bleGapAdvMaxSize then fail nrfErrorDataSize
  -- The room is checked before the values are.
  else if connIntCheck connInt ≠ nrfSuccess then fail (connIntCheck connInt)
  else do
    put [1 + 2 * 2]
    put [bleGapAdTypeSlaveConnectionIntervalRange]
    put (uint16Encode connInt.minConnInterval)
    put (uint16Encode connInt.maxConnInterval)

/-- Encode the data behind a 16-bit identifier, if there are any. -/
def additionalDataEncode (data : UInt8Array) : Encoder Unit :=
  if data.size > 0 then
    match data.pData with
    | none => fail nrfErrorInvalidParam
    | some bytes => put bytes.toList
  else pure ()

/-- Encode manufacturer specific data, whose size is computed in one byte. -/
def manufSpecificDataEncode (manufSpData : BleAdvdataManufData) : Encoder Unit := do
  let dataSize : UInt8 := 2 + manufSpData.data.size.toUInt8
  let pLen ← len
  -- From 254 bytes on, the size has wrapped, and the check lets it pass.
  if pLen.toNat + 2 + dataSize.toNat > bleGapAdvMaxSize then fail nrfErrorDataSize
  else do
    put [1 + dataSize]
    put [bleGapAdTypeManufacturerSpecificData]
    put (uint16Encode manufSpData.companyIdentifier)
    additionalDataEncode manufSpData.data

/-- Encode the data of services, without a look at the size of the buffer. -/
def serviceDataLoop : List BleAdvdataServiceData → Encoder Unit
  | [] => pure ()
  | serviceData :: rest => do
    let dataSize : UInt8 := 2 + serviceData.data.size.toUInt8
    -- The other fields are checked for room here.
    put [1 + dataSize]
    put [bleGapAdTypeServiceData]
    put (uint16Encode serviceData.serviceUuid)
    additionalDataEncode serviceData.data
    serviceDataLoop rest

/-- Encode the data of all services. -/
def serviceDataEncode (advdata : BleAdvdata) : Encoder Unit :=
  match advdata.pServiceDataArray with
  | none => fail nrfErrorInvalidParam
  | some services => serviceDataLoop services.toList

/-- Encode everything that has been asked for, field after field. -/
def advDataEncode (advdata : BleAdvdata) : Encoder Unit := do
  -- Only the length starts anew; the bytes are what the call stack has left.
  Exec.modify fun b => { b with pLen := 0 }
  whenever (advdata.nameType ≠ .noName) (nameEncode stack advdata)
  whenever advdata.includeAppearance (appearanceEncode stack)
  whenever (advdata.flags.size > 0) (uint8ArrayEncode advdata.flags bleGapAdTypeFlags)
  unlessNull advdata.pTxPowerLevel txPowerLevelEncode
  whenever (advdata.uuidsMoreAvailable.uuidCnt > 0) (uuidListEncode stack
    advdata.uuidsMoreAvailable
    bleGapAdType16bitServiceUuidMoreAvailable bleGapAdType128bitServiceUuidMoreAvailable)
  whenever (advdata.uuidsComplete.uuidCnt > 0) (uuidListEncode stack
    advdata.uuidsComplete
    bleGapAdType16bitServiceUuidComplete bleGapAdType128bitServiceUuidComplete)
  whenever (advdata.uuidsSolicited.uuidCnt > 0) (uuidListEncode stack
    advdata.uuidsSolicited
    bleGapAdTypeSolicitedServiceUuids16bit bleGapAdTypeSolicitedServiceUuids128bit)
  unlessNull advdata.pSlaveConnInt connIntEncode
  unlessNull advdata.pManufSpecificData manufSpecificDataEncode
  whenever (advdata.serviceDataCount > 0) (serviceDataEncode advdata)

/-- Advertising data must have flags, and these must deny BR/EDR. -/
def advdataCheck (advdata : BleAdvdata) : ErrCode :=
  if advdata.flags.size = 0 then nrfErrorInvalidParam
  else match advdata.flags.pData with
    | none => nrfErrorInvalidParam
    | some data =>
      if data.toList.headD 0 &&& bleGapAdvFlagBrEdrNotSupported = 0 then nrfErrorInvalidParam
      else nrfSuccess

/-- Scan response data must not have flags. -/
def srdataCheck (srdata : BleAdvdata) : ErrCode :=
  if srdata.flags.size > 0 then nrfErrorInvalidParam else nrfSuccess

/-- Check one of the two packets and encode it, if it is supplied. -/
def packetEncode (check : BleAdvdata → ErrCode) (buffer : AdvBuffer) :
    Option BleAdvdata → Except AdvStop (Option AdvBuffer)
  | none => .ok none
  | some data =>
    -- The check comes before anything is encoded.
    if check data ≠ nrfSuccess then .error (.errCode (check data))
    else match (advDataEncode stack data).run buffer with
      | .done _ encoded => .ok (some encoded)
      | .stop reason _ => .error reason

/-- Encode both packets. The result is what sd_ble_gap_adv_data_set is called with, if it is.

The two buffers come with whatever has been on the call stack. -/
def bleAdvdataSet (buffers : AdvBuffer × AdvBuffer) (advdata srdata : Option BleAdvdata) :
    Except AdvStop (Option AdvBuffer × Option AdvBuffer) := do
  let encodedAdvdata ← packetEncode stack advdataCheck buffers.1 advdata
  let encodedSrdata ← packetEncode stack srdataCheck buffers.2 srdata
  return (encodedAdvdata, encodedSrdata)

end

/-- The UUID of the battery service. -/
def bleUuidBatteryService : UInt16 := 0x180F
/-- The type of the UUIDs that the Bluetooth specification assigns. -/
def bleUuidTypeBle : UInt8 := 0x01

/-- The packet that the application asks for. -/
def advertisingData : BleAdvdata where
  nameType := .fullName
  shortNameLen := 0
  includeAppearance := true
  flags := ⟨1, some #v[bleGapAdvFlagsLeOnlyLimitedDiscMode]⟩
  pTxPowerLevel := none
  uuidsMoreAvailable := .zero
  uuidsComplete := ⟨1, #v[⟨bleUuidBatteryService, bleUuidTypeBle⟩]⟩
  uuidsSolicited := .zero
  pSlaveConnInt := none
  pManufSpecificData := none
  serviceDataCount := 0
  pServiceDataArray := none

/-- Encode the packet of the application, without a scan response. -/
def advertisingInit (stack : AdvStack) (buffers : AdvBuffer × AdvBuffer) :
    Except AdvStop (Option AdvBuffer × Option AdvBuffer) :=
  bleAdvdataSet stack buffers (some advertisingData) none

end BleHub
