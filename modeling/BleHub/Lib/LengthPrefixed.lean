import Mathlib.Tactic.Common

/-! Sequences of records, each of which stands behind one byte with its length. -/

namespace LengthPrefixed

/-- A record whose length fits into the byte in front of it, where zero stands for no record. -/
def Fits (record : List UInt8) : Prop := record ≠ [] ∧ record.length < 256

/-- The bytes of records, one behind the other. -/
def encode (records : List (List UInt8)) : List UInt8 :=
  records.flatMap fun record => UInt8.ofNat record.length :: record

/-- Read records, of which the first one is read in part and lacks some bytes. -/
def read : Nat → List UInt8 → List UInt8 → Option (List (List UInt8))
  | 0, _, [] => some []
  | 0, _, length :: rest => if length = 0 then none else read length.toNat [] rest
  | _ + 1, _, [] => none
  | 1, record, byte :: rest => (read 0 [] rest).map ((record ++ [byte]) :: ·)
  | left + 2, record, byte :: rest => read (left + 1) (record ++ [byte]) rest

/-- Read records up to the end of the bytes. -/
def decode (bytes : List UInt8) : Option (List (List UInt8)) := read 0 [] bytes

@[simp] theorem encode_nil : encode [] = [] := rfl

@[simp] theorem encode_cons (record : List UInt8) (records : List (List UInt8)) :
    encode (record :: records) = UInt8.ofNat record.length :: record ++ encode records := by
  simp [encode]

@[simp] theorem encode_append (first second : List (List UInt8)) :
    encode (first ++ second) = encode first ++ encode second := by
  simp [encode]

/-- The bytes that a record lacks are read from the front. -/
theorem read_append {missing : List UInt8} (some_ : missing ≠ []) (record rest : List UInt8) :
    read missing.length record (missing ++ rest) =
      (decode rest).map ((record ++ missing) :: ·) := by
  -- Byte after byte moves from what is missing to what has been read.
  induction missing generalizing record with
  | nil => exact absurd rfl some_
  | cons byte missing ih =>
    cases missing with
    | nil => rfl
    | cons next missing =>
      have later := ih (List.cons_ne_nil _ _) (record ++ [byte])
      simp only [List.length_cons, List.cons_append] at later ⊢
      rw [read, later]
      simp

/-- Reading encoded records gives them back. -/
theorem decode_encode {records : List (List UInt8)} (fits : ∀ record ∈ records, Fits record) :
    decode (encode records) = some records := by
  -- The length in front of a record is read as it was written, and is not zero.
  induction records with
  | nil => rfl
  | cons record rest ih =>
    obtain ⟨some_, short⟩ := fits record List.mem_cons_self
    have length : (UInt8.ofNat record.length).toNat = record.length :=
      UInt8.toNat_ofNat_of_lt' short
    have nonzero : UInt8.ofNat record.length ≠ 0 := by
      intro zero
      rw [zero] at length
      exact some_ (List.eq_nil_of_length_eq_zero length.symm)
    have later := ih fun other member => fits other (List.mem_cons_of_mem _ member)
    rw [encode_cons, List.cons_append, decode, read, if_neg nonzero, length,
      read_append some_, later]
    simp

end LengthPrefixed
