import BleHub.Lib.Checksum
import BleHub.Lib.NorFlash
import BleHub.Stack.Interface

/-! Flash pages with a checksum, as in ble_flash.c. -/

namespace BleHub

open NorFlash

/-- What marks a page as written, in the upper half of its first word. -/
def bleFlashMagicNumber : UInt32 := 0x45DE0000

/-- A word that has been erased. -/
def bleFlashEmptyMask : UInt32 := 0xFFFFFFFF

/-- The flash memory, word by word. -/
abbrev Flash : Type := Memory UInt32

/-- The checksum after another byte. -/
def crc16Step (crc : UInt16) (byte : UInt8) : UInt16 :=
  -- The source swaps the two bytes first, and then works on the low one.
  let crc := (crc >>> 8) ||| (crc <<< 8)
  let crc := crc ^^^ byte.toUInt16
  let crc := crc ^^^ ((crc &&& 0xff) >>> 4)
  let crc := crc ^^^ ((crc <<< 8) <<< 4)
  crc ^^^ (((crc &&& 0xff) <<< 4) <<< 1)

/-- The checksum of bytes, from an initial value on, which is 0xffff unless there is another. -/
def bleFlashCrc16Compute (pData : List UInt8) (pCrc : Option UInt16) : UInt16 :=
  Checksum.sum crc16Step (pCrc.getD 0xffff) pData

/-- The bytes of a word as they lie in memory, the low one first. -/
def wordBytes (word : UInt32) : List UInt8 :=
  [word.toUInt8, (word >>> 8).toUInt8, (word >>> 16).toUInt8, (word >>> 24).toUInt8]

/-- The bytes of several words. -/
def dataBytes (words : List UInt32) : List UInt8 := words.flatMap wordBytes

/-- Words to be written, as many as a byte counts. -/
structure FlashData where
  wordCount : UInt8
  inArray : Vector UInt32 wordCount.toNat

/-- The words themselves. -/
def FlashData.words (data : FlashData) : List UInt32 := data.inArray.toList

/-- The checksum of words. -/
def wordsCrc (words : List UInt32) : UInt16 := bleFlashCrc16Compute (dataBytes words) none

/-- The checksum that the data are written with. -/
def FlashData.crc (data : FlashData) : UInt16 := wordsCrc data.words

/-- The first word of a page with a given checksum. -/
def flashHeader (crc : UInt16) : UInt32 := bleFlashMagicNumber ||| crc.toUInt32

/-- What reading a page returns. -/
structure PageRead where
  errCode : ErrCode
  wordCount : UInt8
  outArray : List UInt32
  deriving DecidableEq

section

variable (pageWords : Nat)

/-- The address of the first word of a page. -/
def pageAddr (pageNum : UInt8) : Nat := pageWords * pageNum.toNat

/-- Program words one behind the other. -/
def blockWriteOps : Nat → List UInt32 → List (Op UInt32)
  | _, [] => []
  | address, value :: values => .program address value :: blockWriteOps (address + 1) values

/-- What a page write does to the flash: the words come first, then how many they are, and the
header with the checksum comes last. -/
def pageWriteOps (pageNum : UInt8) (data : FlashData) : List (Op UInt32) :=
  let pPage := pageAddr pageWords pageNum
  -- The first two words are skipped, and written when the others are there.
  .erase pPage pageWords :: blockWriteOps (pPage + 2) data.words ++
    [.program (pPage + 1) data.wordCount.toUInt32, .program pPage (flashHeader data.crc)]

/-- The checksum in the header of a page, whether or not the page is valid. -/
def flashCrc (flash : Flash) (pageNum : UInt8) : UInt16 :=
  (flash (pageAddr pageWords pageNum)).toUInt16

/-- Write a page, unless the checksum in its header is that of the data. -/
def bleFlashPageWrite (flash : Flash) (pageNum : UInt8) (data : FlashData) : Flash :=
  -- Only the lower half of the header is compared, whether or not the page is valid.
  if flashCrc pageWords flash pageNum = data.crc then flash
  else applyAll bleFlashEmptyMask flash (pageWriteOps pageWords pageNum data)

/-- A page write that power fails in, after some steps and with some words left as they are. -/
def pageWriteInterrupted (flash : Flash) (pageNum : UInt8) (data : FlashData) (steps : Nat)
    (left : Flash) : Flash :=
  if flashCrc pageWords flash pageNum = data.crc then flash
  else interrupted bleFlashEmptyMask left flash (pageWriteOps pageWords pageNum data) steps

/-- Erase a page. -/
def bleFlashPageErase (flash : Flash) (pageNum : UInt8) : Flash :=
  (Op.erase (pageAddr pageWords pageNum) pageWords).apply bleFlashEmptyMask flash

/-- A page erase that power fails in. -/
def pageEraseInterrupted (flash : Flash) (pageNum : UInt8) (left : Flash) : Flash :=
  (Op.erase (pageAddr pageWords pageNum) pageWords).broken left flash

/-- The count on a page. -/
def storedCount (flash : Flash) (pageNum : UInt8) : UInt8 :=
  (flash (pageAddr pageWords pageNum + 1)).toUInt8

/-- The words that the count on a page leads to. -/
def storedWords (flash : Flash) (pageNum : UInt8) : List UInt32 :=
  (List.range (storedCount pageWords flash pageNum).toNat).map fun i =>
    flash (pageAddr pageWords pageNum + 2 + i)

/-- Read a page: the header must have the magic number, and the checksum of what it leads to. -/
def bleFlashPageRead (flash : Flash) (pageNum : UInt8) : PageRead :=
  let header := flash (pageAddr pageWords pageNum)
  -- An invalid page is reported with a count of zero.
  if header &&& 0xFFFF0000 ≠ bleFlashMagicNumber then
    { errCode := nrfErrorNotFound, wordCount := 0, outArray := [] }
  else
    -- The words are copied out before their checksum is known.
    let wordCount := storedCount pageWords flash pageNum
    let outArray := storedWords pageWords flash pageNum
    if flashHeader (wordsCrc outArray) ≠ header then
      { errCode := nrfErrorNotFound, wordCount := wordCount, outArray := outArray }
    else { errCode := nrfSuccess, wordCount := wordCount, outArray := outArray }

/-- The words that reading a page finds. -/
def foundWords (flash : Flash) (pageNum : UInt8) : Option (List UInt32) :=
  let read := bleFlashPageRead pageWords flash pageNum
  if read.errCode = nrfSuccess then some read.outArray else none

end

end BleHub
