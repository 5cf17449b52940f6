import Mathlib.Algebra.Group.Nat.Defs
import DynamicProperties.Cpp.Types

/-!
# Property values, their validation and their hashes

The first half of `value.cpp`: the value variant, the UTF-8 scanner and
encoder, the three validators, the byte estimate and `hashValue`.

A `double` is its 64-bit pattern.  The library only asks whether a number is
finite and feeds its eight bytes to a hash, so no rounding is ever modelled; the
byte order is the little-endian one of the supported platforms.
-/

namespace DynamicProperties.Cpp

open Std

/-- An IEEE-754 binary64 number, as its bits. -/
structure Double where
  bits : UInt64
  deriving DecidableEq, Repr

/-- `std::isfinite`: the exponent field is not all ones. -/
def Double.isFinite (value : Double) : Bool :=
  (value.bits >>> 52) &&& 0x7FF != 0x7FF

structure Vector3 where
  x : Double
  y : Double
  z : Double
  deriving DecidableEq, Repr

/-- `std::variant<bool, double, std::string, Vector3>`. -/
inductive DynamicPropertyValue where
  | bool (value : Bool)
  | number (value : Double)
  | string (value : ByteString)
  | vector3 (value : Vector3)
  deriving DecidableEq, Repr

/-- `std::map<std::string, DynamicPropertyValue>`. -/
abbrev DynamicPropertyMap := ExtTreeMap ByteString DynamicPropertyValue compare

structure ValueValidationResult where
  valid : Bool := false
  message : ByteString := []
  deriving DecidableEq, Repr

/-! ## UTF-8 -/

def isContinuationByte (value : UInt8) : Bool :=
  0x80 ≤ value && value ≤ 0xBF

/-- `isValidUtf8`: the scan consumes one encoded code point per round. -/
def isValidUtf8 : ByteString → Bool
  | [] => true
  | first :: rest =>
      if first ≤ 0x7F then isValidUtf8 rest
      else if 0xC2 ≤ first ∧ first ≤ 0xDF then
        match rest with
        | second :: tail => isContinuationByte second && isValidUtf8 tail
        | [] => false
      else if 0xE0 ≤ first ∧ first ≤ 0xEF then
        match rest with
        | second :: third :: tail =>
            if !isContinuationByte third then false
            else if first = 0xE0 then
              if second < 0xA0 ∨ 0xBF < second then false else isValidUtf8 tail
            else if first = 0xED then
              -- UTF-16 surrogates are not Unicode scalar values
              if second < 0x80 ∨ 0x9F < second then false else isValidUtf8 tail
            else if !isContinuationByte second then false
            else isValidUtf8 tail
        | _ => false
      else if 0xF0 ≤ first ∧ first ≤ 0xF4 then
        match rest with
        | second :: third :: fourth :: tail =>
            if !isContinuationByte third || !isContinuationByte fourth then false
            else if first = 0xF0 then
              if second < 0x90 ∨ 0xBF < second then false else isValidUtf8 tail
            else if first = 0xF4 then
              if second < 0x80 ∨ 0x8F < second then false else isValidUtf8 tail
            else if !isContinuationByte second then false
            else isValidUtf8 tail
        | _ => false
      else false

theorem isValidUtf8_ascii {first : UInt8} {rest : ByteString} (h : first ≤ 0x7F) :
    isValidUtf8 (first :: rest) = isValidUtf8 rest := by
  rw [isValidUtf8.eq_def]
  exact if_pos h

/-- The bytes `appendUtf8` appends for one code point. -/
def appendUtf8 (out : ByteString) (codePoint : UInt32) : ByteString :=
  if codePoint ≤ 0x7F then
    out ++ [codePoint.toUInt8]
  else if codePoint ≤ 0x7FF then
    out ++ [((0xC0 : UInt32) ||| (codePoint >>> 6)).toUInt8,
      ((0x80 : UInt32) ||| (codePoint &&& 0x3F)).toUInt8]
  else if codePoint ≤ 0xFFFF then
    out ++ [((0xE0 : UInt32) ||| (codePoint >>> 12)).toUInt8,
      ((0x80 : UInt32) ||| ((codePoint >>> 6) &&& 0x3F)).toUInt8,
      ((0x80 : UInt32) ||| (codePoint &&& 0x3F)).toUInt8]
  else
    out ++ [((0xF0 : UInt32) ||| (codePoint >>> 18)).toUInt8,
      ((0x80 : UInt32) ||| ((codePoint >>> 12) &&& 0x3F)).toUInt8,
      ((0x80 : UInt32) ||| ((codePoint >>> 6) &&& 0x3F)).toUInt8,
      ((0x80 : UInt32) ||| (codePoint &&& 0x3F)).toUInt8]

/-! ## Validation -/

def valueTypeName : DynamicPropertyValue → ByteString
  | .bool _ => text "bool"
  | .number _ => text "number"
  | .string _ => text "string"
  | .vector3 _ => text "vector3"

def validateValue (value : DynamicPropertyValue) (limits : ValidationLimits) :
    ValueValidationResult :=
  match value with
  | .bool _ => ⟨true, []⟩
  | .number entry =>
      if !entry.isFinite then ⟨false, text "numbers must be finite"⟩ else ⟨true, []⟩
  | .string entry =>
      if limits.maxStringBytes < entry.length then ⟨false, text "string exceeds byte limit"⟩
      else if !isValidUtf8 entry then ⟨false, text "string must be valid UTF-8"⟩
      else ⟨true, []⟩
  | .vector3 entry =>
      if !entry.x.isFinite || !entry.y.isFinite || !entry.z.isFinite then
        ⟨false, text "vector coordinates must be finite"⟩
      else ⟨true, []⟩

/-- The check `validateKey` and `validateCollectionName` share: a non-empty
UTF-8 string without NUL, of at most `limit` bytes. -/
def validateName (subject : ByteString) (limit : Nat) (name : ByteString) :
    ValueValidationResult :=
  if name.isEmpty then ⟨false, subject ++ text " must not be empty"⟩
  else if limit < name.length then ⟨false, subject ++ text " exceeds byte limit"⟩
  else if name.contains 0 then ⟨false, subject ++ text " contains NUL"⟩
  else if !isValidUtf8 name then ⟨false, subject ++ text " must be valid UTF-8"⟩
  else ⟨true, []⟩

def validateKey (key : ByteString) (limits : ValidationLimits) : ValueValidationResult :=
  validateName (text "property key") limits.maxKeyBytes key

def validateCollectionName (collection : ByteString) (limits : ValidationLimits) :
    ValueValidationResult :=
  validateName (text "collection name") limits.maxCollectionBytes collection

/-- An accepted name is a non-empty, NUL-free UTF-8 string within its limit. -/
theorem validateName_valid_iff (subject : ByteString) (limit : Nat) (name : ByteString) :
    (validateName subject limit name).valid = true ↔
      name ≠ [] ∧ name.length ≤ limit ∧ 0 ∉ name ∧ isValidUtf8 name = true := by
  unfold validateName
  by_cases hempty : name.isEmpty = true
  · rw [if_pos hempty]
    exact iff_of_false Bool.false_ne_true fun h => h.1 (List.isEmpty_iff.mp hempty)
  rw [if_neg hempty]
  by_cases hlimit : limit < name.length
  · rw [if_pos hlimit]
    exact iff_of_false Bool.false_ne_true fun h => by omega
  rw [if_neg hlimit]
  by_cases hnul : name.contains 0 = true
  · rw [if_pos hnul]
    exact iff_of_false Bool.false_ne_true fun h => h.2.2.1 (List.contains_iff_mem.mp hnul)
  rw [if_neg hnul]
  have hne : name ≠ [] := fun h => hempty (List.isEmpty_iff.mpr h)
  have hnotMem : 0 ∉ name := fun h => hnul (List.contains_iff_mem.mpr h)
  cases hutf8 : isValidUtf8 name with
  | false => exact iff_of_false Bool.false_ne_true fun h => Bool.false_ne_true h.2.2.2
  | true => exact iff_of_true rfl ⟨hne, Nat.le_of_not_lt hlimit, hnotMem, rfl⟩

/-! ## Size estimate and hashes -/

def estimateStoredBytes (key : ByteString) (value : DynamicPropertyValue) : UInt64 :=
  let base := UInt64.ofNat key.length + 8
  base + match value with
    | .bool _ => 1
    | .number _ => 8
    | .string entry => UInt64.ofNat entry.length
    | .vector3 _ => 24

def FnvOffset : UInt64 := 1469598103934665603

def FnvPrime : UInt64 := 1099511628211

/-- One FNV-1a round. -/
def fnvRound (hash : UInt64) (c : UInt8) : UInt64 :=
  (hash ^^^ c.toUInt64) * FnvPrime

def hashBytes (hash : UInt64) (data : ByteString) : UInt64 :=
  data.foldl fnvRound hash

/-- The eight bytes of a 64-bit word, least significant first. -/
def littleEndian (word : UInt64) : List UInt8 :=
  (List.range 8).map fun i => (word >>> UInt64.ofNat (i * 8)).toUInt8

/-- The bytes `hashPod` reads for a value of each alternative. -/
def podBytes : DynamicPropertyValue → ByteString
  | .bool entry => [if entry then 1 else 0]
  | .number entry => littleEndian entry.bits
  | .string entry => entry
  | .vector3 entry =>
      littleEndian entry.x.bits ++ littleEndian entry.y.bits ++ littleEndian entry.z.bits

/-- `hashValue`: the type name, then the bytes of the value. -/
def hashValue (value : DynamicPropertyValue) : UInt64 :=
  hashBytes (hashBytes FnvOffset (valueTypeName value)) (podBytes value)

@[simp] theorem littleEndian_length (word : UInt64) : (littleEndian word).length = 8 := by
  simp [littleEndian]

private theorem mod_pow_eq_of_digits {base a b k : Nat}
    (h : ∀ i < k, a / base ^ i % base = b / base ^ i % base) : a % base ^ k = b % base ^ k := by
  induction k with
  | zero => rw [Nat.pow_zero, Nat.mod_one, Nat.mod_one]
  | succ k ih =>
      rw [Nat.mod_pow_succ, Nat.mod_pow_succ, ih fun i hi => h i (by omega), h k (by omega)]

/-- The bytes of a word are its digits to the base 256. -/
private theorem toNat_byte (word : UInt64) {i : Nat} (hi : i < 8) :
    (word >>> UInt64.ofNat (i * 8)).toUInt8.toNat = word.toNat / 256 ^ i % 256 := by
  have hshift : (UInt64.ofNat (i * 8)).toNat = i * 8 := UInt64.toNat_ofNat_of_lt' (by
    show i * 8 < 2 ^ 64
    omega)
  have hpow : 2 ^ (i * 8) = 256 ^ i := by rw [Nat.mul_comm, Nat.pow_mul]
  have hsmall : i * 8 % 64 = i * 8 := Nat.mod_eq_of_lt (by omega)
  rw [UInt64.toNat_toUInt8, UInt64.toNat_shiftRight, hshift, hsmall, Nat.shiftRight_eq_div_pow,
    hpow]

/-- A word is the sum of its bytes, so distinct words have distinct bytes. -/
theorem littleEndian_injective : Function.Injective littleEndian := by
  intro a b h
  have hdigits : ∀ i < 8, a.toNat / 256 ^ i % 256 = b.toNat / 256 ^ i % 256 := by
    intro i hi
    have hget : (littleEndian a)[i]? = (littleEndian b)[i]? := by rw [h]
    simp only [littleEndian, List.getElem?_map, List.getElem?_range hi, Option.map_some,
      Option.some.injEq] at hget
    rw [← toNat_byte a hi, ← toNat_byte b hi, hget]
  have hmod : a.toNat % 256 ^ 8 = b.toNat % 256 ^ 8 := mod_pow_eq_of_digits hdigits
  have hsize : ∀ word : UInt64, word.toNat < 256 ^ 8 := fun word =>
    Nat.lt_of_lt_of_eq word.toNat_lt (by decide)
  rw [Nat.mod_eq_of_lt (hsize a), Nat.mod_eq_of_lt (hsize b)] at hmod
  exact UInt64.toNat_inj.mp hmod

end DynamicProperties.Cpp
