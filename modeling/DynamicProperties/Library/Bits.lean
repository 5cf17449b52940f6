import Mathlib.Data.Nat.Bitwise
import DynamicProperties.Library.Blocks

/-!
# Bit strings, the most significant bit first

`bitsOf n value` are the low `n` bits of a number and `ofBits` is the number a bit
string represents.  A string of octets stands for the string of its bits
(`octetBits`), and hexadecimal digits are strings of four bits (`hexDigits`).
-/

namespace DynamicProperties.Library.Bits

open DynamicProperties.Library.Blocks

/-- The low `n` bits of a number. -/
def bitsOf : Nat → Nat → List Bool
  | 0, _ => []
  | n + 1, value => value.testBit n :: bitsOf n value

/-- The number a bit string represents. -/
def ofBits : List Bool → Nat
  | [] => 0
  | b :: rest => b.toNat * 2 ^ rest.length + ofBits rest

theorem bitsOf_nil (value : Nat) : bitsOf 0 value = [] := rfl

theorem bitsOf_succ (n value : Nat) :
    bitsOf (n + 1) value = value.testBit n :: bitsOf n value := rfl

theorem ofBits_cons (b : Bool) (rest : List Bool) :
    ofBits (b :: rest) = b.toNat * 2 ^ rest.length + ofBits rest := rfl

@[simp] theorem bitsOf_length (n value : Nat) : (bitsOf n value).length = n := by
  induction n with
  | zero => rfl
  | succ n ih => rw [bitsOf_succ, List.length_cons, ih]

/-- The high bits stand in front of the low ones. -/
theorem bitsOf_add (m n value : Nat) :
    bitsOf (m + n) value = bitsOf m (value >>> n) ++ bitsOf n value := by
  induction m with
  | zero => rw [Nat.zero_add, bitsOf_nil, List.nil_append]
  | succ m ih =>
      rw [Nat.add_right_comm, bitsOf_succ, bitsOf_succ, ih, List.cons_append,
        Nat.testBit_shiftRight, Nat.add_comm n m]

/-- Bits above the low `n` do not matter. -/
theorem bitsOf_congr {n value value' : Nat}
    (h : ∀ i < n, value.testBit i = value'.testBit i) : bitsOf n value = bitsOf n value' := by
  induction n with
  | zero => rfl
  | succ n ih =>
      rw [bitsOf_succ, bitsOf_succ, h n (Nat.lt_succ_self n),
        ih fun i hi => h i (Nat.lt_succ_of_lt hi)]

theorem bitsOf_mod (n value : Nat) : bitsOf n (value % 2 ^ n) = bitsOf n value :=
  bitsOf_congr fun i hi => by rw [Nat.testBit_mod_two_pow, decide_eq_true hi, Bool.true_and]

theorem bitsOf_zero (n : Nat) : bitsOf n 0 = List.replicate n false := by
  induction n with
  | zero => rfl
  | succ n ih => rw [bitsOf_succ, ih, Nat.zero_testBit, List.replicate_succ]

theorem ofBits_append (xs ys : List Bool) :
    ofBits (xs ++ ys) = ofBits xs * 2 ^ ys.length + ofBits ys := by
  induction xs with
  | nil => rw [List.nil_append, show ofBits [] = 0 from rfl, Nat.zero_mul, Nat.zero_add]
  | cons b xs ih =>
      rw [List.cons_append, ofBits_cons, ofBits_cons, ih, List.length_append, Nat.pow_add,
        Nat.add_mul, Nat.mul_assoc, Nat.add_assoc]

/-- A number is what its low bits represent, as far as they reach. -/
theorem ofBits_bitsOf (n value : Nat) : ofBits (bitsOf n value) = value % 2 ^ n := by
  induction n with
  | zero => exact (Nat.mod_one value).symm
  | succ n ih =>
      have hbit : (value.testBit n).toNat = value / 2 ^ n % 2 := by
        rw [Nat.testBit_eq_decide_div_mod_eq]
        rcases Nat.mod_two_eq_zero_or_one (value / 2 ^ n) with h | h <;> rw [h] <;> rfl
      rw [bitsOf_succ, ofBits_cons, ih, bitsOf_length, hbit, Nat.pow_succ, Nat.mod_mul,
        Nat.mul_comm, Nat.add_comm]

/-! ## Octets -/

/-- The bits of a string of octets. -/
def octetBits (octets : List UInt8) : List Bool := octets.flatMap fun octet => bitsOf 8 octet.toNat

@[simp] theorem octetBits_nil : octetBits [] = [] := rfl

@[simp] theorem octetBits_cons (octet : UInt8) (octets : List UInt8) :
    octetBits (octet :: octets) = bitsOf 8 octet.toNat ++ octetBits octets := List.flatMap_cons

@[simp] theorem octetBits_append (first second : List UInt8) :
    octetBits (first ++ second) = octetBits first ++ octetBits second := List.flatMap_append

@[simp] theorem octetBits_length (octets : List UInt8) :
    (octetBits octets).length = 8 * octets.length := by
  induction octets with
  | nil => rfl
  | cons octet octets ih =>
      rw [octetBits_cons, List.length_append, bitsOf_length, ih, List.length_cons]
      omega

/-- The low `8 * n` bits of a number as octets, the most significant first. -/
def octetsOf : Nat → Nat → List UInt8
  | 0, _ => []
  | n + 1, value => UInt8.ofNat (value >>> (8 * n)) :: octetsOf n value

theorem octetsOf_succ (n value : Nat) :
    octetsOf (n + 1) value = UInt8.ofNat (value >>> (8 * n)) :: octetsOf n value := rfl

@[simp] theorem octetsOf_length (n value : Nat) : (octetsOf n value).length = n := by
  induction n with
  | zero => rfl
  | succ n ih => rw [octetsOf_succ, List.length_cons, ih]

theorem octetBits_octetsOf (n value : Nat) :
    octetBits (octetsOf n value) = bitsOf (8 * n) value := by
  induction n with
  | zero => rfl
  | succ n ih =>
      have hoctet : bitsOf 8 (UInt8.ofNat (value >>> (8 * n))).toNat =
          bitsOf 8 (value >>> (8 * n)) := by
        rw [UInt8.toNat_ofNat', bitsOf_mod]
      rw [octetsOf_succ, octetBits_cons, ih, hoctet, ← bitsOf_add, Nat.mul_succ, Nat.add_comm]

theorem octetBits_replicate_zero (n : Nat) :
    octetBits (List.replicate n 0) = List.replicate (8 * n) false := by
  induction n with
  | zero => rfl
  | succ n ih =>
      rw [List.replicate_succ, octetBits_cons, ih, UInt8.toNat_zero, bitsOf_zero,
        ← List.replicate_add]
      congr 1
      omega

theorem drop_octetBits (octets : List UInt8) (n : Nat) :
    (octetBits octets).drop (8 * n) = octetBits (octets.drop n) := by
  induction n generalizing octets with
  | zero => rfl
  | succ n ih =>
      cases octets with
      | nil => rfl
      | cons octet octets =>
          rw [octetBits_cons, List.drop_succ_cons, ← ih, Nat.mul_succ, Nat.add_comm,
            ← List.drop_drop, List.drop_left' (bitsOf_length 8 _)]

theorem take_octetBits (octets : List UInt8) (n : Nat) :
    (octetBits octets).take (8 * n) = octetBits (octets.take n) := by
  induction n generalizing octets with
  | zero => rfl
  | succ n ih =>
      cases octets with
      | nil => rfl
      | cons octet octets =>
          have hlength : 8 * (n + 1) = (bitsOf 8 octet.toNat).length + 8 * n := by
            rw [bitsOf_length]
            omega
          rw [octetBits_cons, List.take_succ_cons, octetBits_cons, ← ih, hlength,
            List.take_length_add_append]

/-! ## Hexadecimal digits -/

def hexAlphabet : List Char :=
  ['0', '1', '2', '3', '4', '5', '6', '7', '8', '9', 'a', 'b', 'c', 'd', 'e', 'f']

/-- The digit of a string of four bits. -/
def hexDigit (nibble : List Bool) : Char := hexAlphabet.getD (ofBits nibble) '0'

/-- A bit string in hexadecimal, four bits a digit. -/
def hexDigits (bits : List Bool) : List Char := (blocks 4 bits).map hexDigit

/-- One of the digits `0` to `9` and `a` to `f`. -/
def IsHexDigit (c : Char) : Prop := '0' ≤ c ∧ c ≤ '9' ∨ 'a' ≤ c ∧ c ≤ 'f'

instance (c : Char) : Decidable (IsHexDigit c) :=
  inferInstanceAs (Decidable ('0' ≤ c ∧ c ≤ '9' ∨ 'a' ≤ c ∧ c ≤ 'f'))

theorem isHexDigit_hexDigit (nibble : List Bool) : IsHexDigit (hexDigit nibble) := by
  have hall : (hexAlphabet.all fun c => decide (IsHexDigit c)) = true := by decide
  have hmem : hexDigit nibble ∈ hexAlphabet := by
    rw [hexDigit, List.getD_eq_getElem?_getD]
    cases hget : hexAlphabet[ofBits nibble]? with
    | none => exact List.mem_cons_self
    | some c => exact List.mem_of_getElem? hget
  exact of_decide_eq_true (List.all_eq_true.mp hall _ hmem)

theorem isHexDigit_of_mem {bits : List Bool} {c : Char} (h : c ∈ hexDigits bits) :
    IsHexDigit c := by
  obtain ⟨nibble, _, rfl⟩ := List.mem_map.mp h
  exact isHexDigit_hexDigit nibble

theorem hexDigits_length (bits : List Bool) : (hexDigits bits).length = bits.length / 4 := by
  rw [hexDigits, List.length_map, blocks_length (by decide)]

theorem hexDigits_nil : hexDigits [] = [] := by
  rw [hexDigits, blocks_of_short (by decide), List.map_nil]

/-- The sixteen digits. -/
theorem hexDigit_bitsOf : ∀ digit < 16, hexDigit (bitsOf 4 digit) = digit.digitChar := by decide

/-- A string of four bits is one digit. -/
theorem hexDigits_nibble {nibble : List Bool} (h : nibble.length = 4) (bits : List Bool) :
    hexDigits (nibble ++ bits) = hexDigit nibble :: hexDigits bits := by
  rw [hexDigits, blocks_append (by decide) h, List.map_cons, ← hexDigits]

/-- The digits of a byte are those of its halves. -/
theorem hexDigits_bitsOf (value : Nat) (bits : List Bool) :
    hexDigits (bitsOf 8 value ++ bits) =
      hexDigit (bitsOf 4 (value >>> 4)) :: hexDigit (bitsOf 4 value) :: hexDigits bits := by
  have hsplit : bitsOf 8 value = bitsOf 4 (value >>> 4) ++ bitsOf 4 value := bitsOf_add 4 4 value
  rw [hsplit, List.append_assoc, hexDigits_nibble (bitsOf_length 4 _),
    hexDigits_nibble (bitsOf_length 4 _)]

/-- An octet has two digits. -/
theorem hexDigits_octet (octet : UInt8) (bits : List Bool) :
    hexDigits (bitsOf 8 octet.toNat ++ bits) =
      hexDigits (bitsOf 8 octet.toNat) ++ hexDigits bits := by
  rw [hexDigits_bitsOf, ← List.append_nil (bitsOf 8 octet.toNat), hexDigits_bitsOf, hexDigits_nil]
  rfl

end DynamicProperties.Library.Bits
