import Mathlib.Data.Nat.Digits.Defs
import DynamicProperties.ImportAgreement
import DynamicProperties.Python.Exports

/-!
# Exported documents read back

What `json.dumps` writes, `json.loads` reads: a string without surrogates as it was, a
finite float as it was, and an `int` as the same `int`.  `_decoded_value` makes floats of
the coordinates of a vector, and refuses a coordinate that is a `bool`, which
`_validate_value` lets pass.  `Restores` is what an import makes of a stored value, if
anything.
-/

namespace DynamicProperties

open Std
open DynamicProperties.Library
open DynamicProperties.Library.Fallible
open DynamicProperties.Library.Mirror
open DynamicProperties.Library.OrderedMap
open DynamicProperties.Python (Interpreter Encoder PyJson PyObject asciiUnits isSurrogate)

/-! ## Strings -/

theorem asciiUnits_bound (text : Python.Str) : ∀ code ∈ text.map Fin.val, code < 0x110000 := by
  intro code hcode
  obtain ⟨c, -, rfl⟩ := List.mem_map.mp hcode
  exact c.isLt

theorem valid_of_plain {c : Python.CodePoint} (h : isSurrogate c = false) : c.val.isValidChar := by
  have hbound := c.isLt
  simp only [isSurrogate, Bool.and_eq_false_iff, decide_eq_false_iff_not] at h
  rw [Nat.isValidChar]
  omega

/-- A string without surrogates is read as it was written. -/
theorem readString_asciiUnits {text : Python.Str} (h : Python.Encodable text) :
    Interpreter.readString (asciiUnits text) = text := by
  have hvalid : ∀ code ∈ text.map Fin.val, code.isValidChar := by
    intro code hcode
    obtain ⟨c, hc, rfl⟩ := List.mem_map.mp hcode
    exact valid_of_plain (Bool.eq_false_iff.mpr (List.any_eq_false.mp h c hc))
  have hwritten : ∀ code, 0x20 ≤ code → code ≤ 0x7E →
      [Fin.ofNat 0x110000 code] = [Python.asciiPoint (UInt8.ofNat code)] := by
    intro code _ hhigh
    rw [Python.asciiPoint, UInt8.toNat_ofNat', Nat.mod_eq_of_lt (by omega)]
  rw [Interpreter.readString, asciiUnits, Json.decode_escapedAll Python.asciiPoint hvalid hwritten,
    List.flatMap_map]
  calc text.flatMap (fun c => [Fin.ofNat 0x110000 c.val])
      = text.flatMap (fun c => [c]) := List.flatMap_congr fun c _ => by
        rw [show Fin.ofNat 0x110000 c.val = c from Fin.ext (Nat.mod_eq_of_lt c.isLt)]
    _ = text := List.flatMap_singleton' text

/-- A literal of the module that is in ASCII. -/
def AsciiLiteral (interp : Interpreter) (units : List (Json.StringUnit Python.CodePoint)) : Prop :=
  Json.LegalUnits interp.dialect units ∧
    ∀ c ∈ Json.spellUnits interp.dialect units, Json.IsAscii interp.dialect c

theorem asciiLiteral_asciiUnits (interp : Interpreter) (text : Python.Str) :
    AsciiLiteral interp (asciiUnits text) := by
  have hinjective : Function.Injective interp.dialect.ascii := asciiPoint_injective
  exact ⟨Json.legal_escapedAll hinjective (asciiUnits_bound text),
    Json.isAscii_escapedAll hinjective (asciiUnits_bound text)⟩

theorem encodable_literal (literal : String) : Python.Encodable (Python.str literal) :=
  Python.returns_encodeUtf8.mp ⟨_, Python.encodeUtf8_str literal⟩

/-! ## Integers -/

theorem foldl_encode {chars : List Char} (h : ∀ c ∈ chars, c.isDigit = true) (init : Nat) :
    (Utf8.encode chars).foldl (fun n c => 10 * n + (c.toNat - 0x30)) init =
      Nat.ofDigitChars 10 chars init := by
  induction chars generalizing init with
  | nil => rfl
  | cons c rest ih =>
      obtain ⟨hc, hrest⟩ := List.forall_mem_cons.mp h
      have hsmall : c.toNat ≤ 57 := (Char.isDigit_iff_toNat.mp hc).2
      rw [Utf8.encode_cons, (Cpp.encodeChar_digit hc).1, List.singleton_append, List.foldl_cons,
        ih hrest, Nat.ofDigitChars_cons, UInt8.toNat_ofNat', Nat.mod_eq_of_lt (by omega)]
      rfl

/-- The digits of a natural number. -/
theorem text_nat (n : Nat) : Cpp.text (toString n) = Utf8.encode (Nat.toDigits 10 n) := by
  rw [Cpp.text_eq_encode, Nat.toString_eq_repr, Nat.toList_repr]

theorem text_int (value : Int) :
    Cpp.text (toString value) =
      (if value < 0 then [0x2D] else []) ++ Cpp.text (toString value.natAbs) := by
  cases value with
  | ofNat n => rfl
  | negSucc n =>
      rw [if_pos (Int.negSucc_lt_zero n)]
      show Cpp.text ("-" ++ toString (n + 1)) = _
      rw [Cpp.text_eq_encode, Cpp.text_eq_encode, String.toList_append, Utf8.encode_append]
      rfl

theorem encode_toDigits_isDigit (n : Nat) :
    ∀ c ∈ Utf8.encode (Nat.toDigits 10 n), Cpp.isDigit c = true := by
  intro octet hoctet
  obtain ⟨c, hc, hmem⟩ := List.mem_flatMap.mp hoctet
  obtain ⟨heq, hdigit⟩ := Cpp.encodeChar_digit
    (Nat.isDigit_of_mem_toDigits (by decide) (by decide) hc)
  rw [heq, List.mem_singleton] at hmem
  rw [hmem]
  exact Cpp.isDigit_iff.mpr hdigit

/-- What an `int` is written as: a literal of an integer, of that value. -/
theorem intOfLiteral_text (value : Int) :
    Json.NumberLiteral (Cpp.text (toString value)) ∧
      Python.isInteger (Cpp.text (toString value)) = true ∧
      Python.intOfLiteral (Cpp.text (toString value)) = value := by
  have hdigits := encode_toDigits_isDigit value.natAbs
  have hvalue : (Utf8.encode (Nat.toDigits 10 value.natAbs)).foldl
      (fun n c => 10 * n + (c.toNat - 0x30)) 0 = value.natAbs := by
    rw [foldl_encode fun c hc => Nat.isDigit_of_mem_toDigits (by decide) (by decide) hc]
    exact Nat.ofDigitChars_ten_toDigits
  rw [text_int, text_nat]
  generalize hoctets : Utf8.encode (Nat.toDigits 10 value.natAbs) = octets at hdigits hvalue
  have hinteger : Json.Integer octets := hoctets ▸ Cpp.integer_toDigits value.natAbs
  have hplain : octets.filter Cpp.isDigit = octets := List.filter_eq_self.mpr hdigits
  by_cases hneg : value < 0
  · rw [if_pos hneg]
    refine ⟨⟨[0x2D], octets, [], [], by simp, .inr rfl, hinteger, .inl rfl, .inl rfl⟩, ?_, ?_⟩
    · rw [Python.isInteger, List.singleton_append, List.all_cons, List.all_eq_true.mpr]
      · rfl
      · exact fun c hc => by simp [hdigits c hc]
    · rw [Python.intOfLiteral, List.singleton_append,
        List.filter_cons_of_neg (by decide), hplain, hvalue]
      simp only [List.head?_cons, if_true]
      omega
  · rw [if_neg hneg]
    refine ⟨⟨[], octets, [], [], by simp, .inl rfl, hinteger, .inl rfl, .inl rfl⟩, ?_, ?_⟩
    · exact List.all_eq_true.mpr fun c hc => by simp [hdigits c hc]
    · have hhead : octets.head? ≠ some 0x2D := fun hhead => by
        obtain ⟨rest, rfl⟩ := List.head?_eq_some_iff.mp hhead
        exact absurd (hdigits 0x2D List.mem_cons_self) (by decide)
      rw [Python.intOfLiteral, List.nil_append, hplain, hvalue, if_neg hhead]
      omega

/-! ## What `dumps` and `loads` document of each other -/

/-- `float` reads back what `repr` wrote, an object of another type is written as some
document in ASCII, integers in range have a double, and the limit on their digits is the
one they were written under, or higher. -/
structure Reversible (interp : Interpreter) (encoder : Encoder) : Prop where
  repr : ∀ value : Cpp.Double, value.isFinite = true →
    Json.NumberLiteral (encoder.floatRepr value) ∧
      Python.isInteger (encoder.floatRepr value) = false ∧
      interp.float (encoder.floatRepr value) = value
  foreign : ∀ typeName asFloat, (encoder.foreign typeName asFloat).Built interp.dialect.number
    (AsciiLiteral interp)
  ofInt : ∀ value : Int, value.natAbs < integerRange → (interp.ofInt value).isFinite = true
  intDigits : ∀ limit ∈ interp.maxIntDigits, 4300 ≤ limit

section Values

variable {interp : Interpreter} {encoder : Encoder}

/-- What an import makes of a coordinate of a vector. -/
inductive Rereads (interp : Interpreter) (encoder : Encoder) : PyObject → Cpp.Double → Prop
  | float {value : Cpp.Double} (h : value.isFinite = true) :
      Rereads interp encoder (.float value) value
  | int {value : Int} (h : value.natAbs < integerRange) :
      Rereads interp encoder (.int value) (interp.ofInt value)
  | other {typeName : Python.Str} {asFloat : Option Cpp.Double} {value : PyJson}
      {number : Cpp.Double} (hread : interp.read (encoder.foreign typeName asFloat) = some value)
      (hfloat : interp.toFloat value = .ok number) (hfinite : number.isFinite = true) :
      Rereads interp encoder (.other typeName asFloat true) number

/-- What an import makes of a stored value: the same value, with floats for coordinates. -/
inductive Restores (interp : Interpreter) (encoder : Encoder) : PyObject → PyObject → Prop
  | bool (value : Bool) : Restores interp encoder (.bool value) (.bool value)
  | float {value : Cpp.Double} (h : value.isFinite = true) :
      Restores interp encoder (.float value) (.float value)
  | str (text : Python.Str) : Restores interp encoder (.str text) (.str text)
  | vector3 {x y z : PyObject} {a b c : Cpp.Double} (hx : Rereads interp encoder x a)
      (hy : Rereads interp encoder y b) (hz : Rereads interp encoder z c) :
      Restores interp encoder (.vector3 x y z) (.vector3 (.float a) (.float b) (.float c))

theorem toFloat_int {value : Int} {number : Cpp.Double} :
    interp.toFloat (.int value) = .ok number ↔
      value.natAbs < integerRange ∧ interp.ofInt value = number := by
  unfold Interpreter.toFloat
  dsimp only
  by_cases hrange : 2 ^ 1024 - 2 ^ 970 ≤ value.natAbs
  · rw [if_pos hrange]
    exact iff_of_false nofun fun h => Nat.not_lt.mpr hrange h.1
  · rw [if_neg hrange, Except.ok.injEq]
    exact (and_iff_right (Nat.not_le.mp hrange)).symm

theorem read_int (value : Int) :
    interp.read (.number (Cpp.text (toString value))) = some (.int value) := by
  obtain ⟨hliteral, hinteger, hvalue⟩ := intOfLiteral_text value
  rw [Interpreter.read, readNumber_literal interp hliteral, if_pos hinteger, hvalue]

/-- A finite float is read as it was written, and no other as a finite one. -/
theorem read_float (hreversible : Reversible interp encoder) (value : Cpp.Double) :
    ∃ written, interp.read (.number (encoder.floatLiteral value)) = some (.float written) ∧
      written.isFinite = value.isFinite ∧ (value.isFinite = true → written = value) := by
  cases hfinite : value.isFinite with
  | true =>
      obtain ⟨hliteral, hinteger, hvalue⟩ := hreversible.repr value hfinite
      refine ⟨value, ?_, hfinite, fun _ => rfl⟩
      rw [Encoder.floatLiteral, if_pos hfinite, Interpreter.read,
        readNumber_literal interp hliteral, hinteger, hvalue]
      rfl
  | false =>
      have hnever : ∀ {written : Cpp.Double}, false = true → written = value :=
        fun h => absurd h Bool.false_ne_true
      rw [Encoder.floatLiteral, hfinite, if_neg Bool.false_ne_true]
      by_cases hpositive : value = Python.infinity
      · rw [if_pos hpositive]
        exact ⟨Python.infinity, rfl, rfl, hnever⟩
      by_cases hnegative : value = Python.negativeInfinity
      · rw [if_neg hpositive, if_pos hnegative]
        exact ⟨Python.negativeInfinity, rfl, rfl, hnever⟩
      · rw [if_neg hpositive, if_neg hnegative]
        exact ⟨Python.nan, rfl, rfl, hnever⟩

/-- **How a written coordinate is read.** -/
theorem rereads_iff (hreversible : Reversible interp encoder) {coordinate : PyObject}
    {tree : Python.Tree} (htree : encoder.objectTree coordinate = .ok tree)
    {number : Cpp.Double} :
    (∃ value, interp.read tree = some value ∧ interp.toFloat value = .ok number ∧
      number.isFinite = true) ↔ Rereads interp encoder coordinate number := by
  cases coordinate with
  | none =>
      obtain rfl := Except.ok.inj htree
      exact iff_of_false (fun ⟨value, hread, hfloat, _⟩ => by cases hread; cases hfloat) nofun
  | bool flag =>
      obtain rfl := Except.ok.inj htree
      exact iff_of_false (fun ⟨value, hread, hfloat, _⟩ => by cases hread; cases hfloat) nofun
  | str text =>
      obtain rfl := Except.ok.inj htree
      exact iff_of_false (fun ⟨value, hread, hfloat, _⟩ => by cases hread; cases hfloat) nofun
  | vector3 x y z => cases htree
  | int value =>
      obtain ⟨text, -, htree⟩ := bind_eq_ok.mp htree
      obtain rfl := Except.ok.inj htree
      rw [read_int]
      constructor
      · rintro ⟨read, hread, hfloat, -⟩
        obtain rfl := Option.some.inj hread
        obtain ⟨hrange, rfl⟩ := toFloat_int.mp hfloat
        exact .int hrange
      · intro h
        cases h with
        | int hrange =>
            exact ⟨_, rfl, toFloat_int.mpr ⟨hrange, rfl⟩, hreversible.ofInt value hrange⟩
  | float value =>
      obtain rfl := Except.ok.inj htree
      obtain ⟨written, hread, hfinite, hsame⟩ := read_float hreversible value
      rw [hread]
      constructor
      · rintro ⟨read, hread, hfloat, hnumber⟩
        obtain rfl := Option.some.inj hread
        obtain rfl : written = number := Except.ok.inj hfloat
        have hvalue := hfinite.symm.trans hnumber
        obtain rfl := hsame hvalue
        exact .float hvalue
      · intro h
        cases h with
        | float hvalue =>
            obtain rfl := hsame hvalue
            exact ⟨_, rfl, rfl, hvalue⟩
  | other typeName asFloat serializable =>
      cases serializable with
      | false => cases htree
      | true =>
          obtain rfl := Except.ok.inj htree
          constructor
          · rintro ⟨value, hread, hfloat, hfinite⟩
            exact .other hread hfloat hfinite
          · intro h
            cases h with
            | other hread hfloat hfinite => exact ⟨_, hread, hfloat, hfinite⟩

/-! ## Dictionaries -/

theorem forall₂_congr_of_mem {α β : Type} {R S : α → β → Prop} {l : List α} {l' : List β}
    (h : ∀ a ∈ l, ∀ b, R a b ↔ S a b) : List.Forall₂ R l l' ↔ List.Forall₂ S l l' := by
  constructor
  · exact fun hall => (forall₂_of_mem hall h fun a b hiff hab => (hiff b).mp hab).flip
  · exact fun hall => (forall₂_of_mem hall h fun a b hiff hab => (hiff b).mpr hab).flip

/-- A written dictionary is read as a dictionary of the same keys, if its values are. -/
theorem read_dictTree {items : List (Python.Str × Python.Tree)}
    (hkeys : ∀ item ∈ items, Python.Encodable item.1) (hdistinct : (items.map Prod.fst).Nodup)
    {value : PyJson} :
    interp.read (Python.dictTree items) = some value ↔
      ∃ values, List.Forall₂
        (EntriesRelated Eq fun tree value => interp.read tree = some value) items values ∧
          value = .dict values := by
  have hmembers : ∀ values, interp.readMembers (items.map fun item => (asciiUnits item.1, item.2)) =
      some values ↔ List.Forall₂
        (EntriesRelated Eq fun tree value => interp.read tree = some value) items values := by
    intro values
    rw [readMembers_eq_some, List.forall₂_map_left_iff]
    refine forall₂_congr_of_mem fun item hitem value => ?_
    rw [ReadsMember, readString_asciiUnits (hkeys item hitem)]
    rfl
  rw [Python.dictTree, Interpreter.read, Option.bind_eq_some_iff]
  constructor
  · rintro ⟨values, hread, hvalue⟩
    split at hvalue
    · obtain rfl := Option.some.inj hvalue
      exact ⟨values, (hmembers values).mp hread, rfl⟩
    · cases hvalue
  · rintro ⟨values, hvalues, rfl⟩
    refine ⟨values, (hmembers values).mpr hvalues, if_pos ?_⟩
    rw [← keys_eq hvalues]
    exact hdistinct

/-- The dictionary of one property is read as its type and its value. -/
theorem read_typedTree (type : Python.ValueType) {tree : Python.Tree} {data : PyJson} :
    interp.read (Python.typedTree type tree) = some data ↔
      ∃ value, interp.read tree = some value ∧
        data = .dict [(Python.str "type", .str type.text), (Python.str "value", value)] := by
  have htype : interp.read (.string (asciiUnits type.text)) = some (.str type.text) := by
    have hplain : Python.Encodable type.text := by cases type <;> exact encodable_literal _
    rw [Interpreter.read, readString_asciiUnits hplain]
  have hkeys : ∀ item ∈ [(Python.str "type", Json.Tree.string (asciiUnits type.text)),
      (Python.str "value", tree)], Python.Encodable item.1 := by
    simp only [List.forall_mem_cons, List.not_mem_nil, false_implies, implies_true, and_true]
    exact ⟨encodable_literal _, encodable_literal _⟩
  have hdistinct : [Python.str "type", Python.str "value"].Nodup := by decide
  rw [Python.typedTree, read_dictTree hkeys hdistinct]
  constructor
  · rintro ⟨values, hvalues, rfl⟩
    obtain ⟨⟨typeKey, typeName⟩, others, ⟨hkey, hname⟩, hothers, rfl⟩ :=
      List.forall₂_cons_left_iff.mp hvalues
    obtain ⟨⟨valueKey, value⟩, none, ⟨hkey', hvalue⟩, hnone, rfl⟩ :=
      List.forall₂_cons_left_iff.mp hothers
    obtain rfl := List.forall₂_nil_left_iff.mp hnone
    obtain rfl : Python.str "type" = typeKey := hkey
    obtain rfl : Python.str "value" = valueKey := hkey'
    obtain rfl := Option.some.inj (htype.symm.trans hname)
    exact ⟨value, hvalue, rfl⟩
  · rintro ⟨value, hvalue, rfl⟩
    exact ⟨_, .cons ⟨rfl, htype⟩ (.cons ⟨rfl, hvalue⟩ .nil), rfl⟩

/-- A written property is decoded by its type. -/
theorem decodes_typedTree (type : Python.ValueType) {tree : Python.Tree} {restored : PyObject} :
    (∃ data, interp.read (Python.typedTree type tree) = some data ∧
      interp.decodedValue data = .ok restored) ↔
      ∃ value, interp.read tree = some value ∧
        interp.decodedTyped (.str type.text) value = .ok restored := by
  constructor
  · rintro ⟨data, hdata, hdecoded⟩
    obtain ⟨value, hvalue, rfl⟩ := (read_typedTree type).mp hdata
    exact ⟨value, hvalue, hdecoded⟩
  · rintro ⟨value, hvalue, hdecoded⟩
    exact ⟨_, (read_typedTree type).mpr ⟨value, hvalue, rfl⟩, hdecoded⟩

/-- The elements of a written vector are read in their order. -/
theorem read_triple {x y z : Python.Tree} {value : PyJson} :
    interp.read (.array [x, y, z]) = some value ↔
      ∃ a b c, interp.read x = some a ∧ interp.read y = some b ∧ interp.read z = some c ∧
        value = .list [a, b, c] := by
  simp only [Interpreter.read, Interpreter.readElements, Option.map_eq_some_iff,
    Option.bind_eq_some_iff]
  constructor
  · rintro ⟨values, ⟨a, hx, others, ⟨b, hy, last, ⟨c, hz, none, hnone, rfl⟩, rfl⟩, rfl⟩, rfl⟩
    cases hnone
    exact ⟨a, b, c, hx, hy, hz, rfl⟩
  · rintro ⟨a, b, c, hx, hy, hz, rfl⟩
    exact ⟨_, ⟨a, hx, _, ⟨b, hy, _, ⟨c, hz, _, rfl, rfl⟩, rfl⟩, rfl⟩, rfl⟩

/-- A written number is decoded as the float its text reads as. -/
theorem decodes_number {tree : Python.Tree} {restored : PyObject} :
    (∃ data, interp.read (Python.typedTree .number tree) = some data ∧
      interp.decodedValue data = .ok restored) ↔
      ∃ number, (∃ read, interp.read tree = some read ∧ interp.toFloat read = .ok number ∧
        number.isFinite = true) ∧ restored = .float number := by
  rw [decodes_typedTree]
  constructor
  · rintro ⟨read, hread, hdecoded⟩
    obtain ⟨number, hfloat, hfinite, hrestored⟩ := Python.decodedNumber_eq_ok.mp hdecoded
    exact ⟨number, ⟨read, hread, hfloat, hfinite⟩, hrestored⟩
  · rintro ⟨number, ⟨read, hread, hfloat, hfinite⟩, hrestored⟩
    exact ⟨read, hread, Python.decodedNumber_eq_ok.mpr ⟨number, hfloat, hfinite, hrestored⟩⟩

/-- A written vector is decoded as the vector of the floats its coordinates read as. -/
theorem decodes_vector3 {x y z : Python.Tree} {restored : PyObject} :
    (∃ data, interp.read (Python.typedTree .vector3 (.array [x, y, z])) = some data ∧
      interp.decodedValue data = .ok restored) ↔
      ∃ a b c,
        (∃ read, interp.read x = some read ∧ interp.toFloat read = .ok a ∧ a.isFinite = true) ∧
        (∃ read, interp.read y = some read ∧ interp.toFloat read = .ok b ∧ b.isFinite = true) ∧
        (∃ read, interp.read z = some read ∧ interp.toFloat read = .ok c ∧ c.isFinite = true) ∧
        restored = .vector3 (.float a) (.float b) (.float c) := by
  rw [decodes_typedTree]
  constructor
  · rintro ⟨read, hread, hdecoded⟩
    obtain ⟨x', y', z', hx, hy, hz, rfl⟩ := read_triple.mp hread
    have hvector : interp.decodedVector (.str (Python.str "vector3")) (.list [x', y', z']) =
        .ok restored := hdecoded
    obtain ⟨_, _, _, a, b, c, hlist, ha, hb, hc, hrestored⟩ :=
      Python.decodedVector_eq_ok.mp hvector
    cases hlist
    exact ⟨a, b, c, ⟨x', hx, ha⟩, ⟨y', hy, hb⟩, ⟨z', hz, hc⟩, hrestored⟩
  · rintro ⟨a, b, c, ⟨x', hx, ha⟩, ⟨y', hy, hb⟩, ⟨z', hz, hc⟩, hrestored⟩
    have hvector : interp.decodedVector (.str (Python.str "vector3")) (.list [x', y', z']) =
        .ok restored :=
      Python.decodedVector_eq_ok.mpr ⟨x', y', z', a, b, c, rfl, ha, hb, hc, hrestored⟩
    exact ⟨_, read_triple.mpr ⟨x', y', z', hx, hy, hz, rfl⟩, hvector⟩

/-- **What an import makes of a written value.** -/
theorem restores_iff (hreversible : Reversible interp encoder) {value restored : PyObject}
    {tree : Python.Tree} (hwrites : encoder.Writes value tree)
    (hplain : ∀ text, value = .str text → Python.Encodable text) :
    (∃ data, interp.read tree = some data ∧ interp.decodedValue data = .ok restored) ↔
      Restores interp encoder value restored := by
  cases hwrites with
  | bool flag =>
      rw [decodes_typedTree]
      constructor
      · rintro ⟨read, hread, hdecoded⟩
        obtain rfl := Option.some.inj hread
        obtain rfl := Except.ok.inj hdecoded
        exact .bool flag
      · intro h
        cases h
        exact ⟨.bool flag, rfl, rfl⟩
  | str text =>
      have hread : interp.read (.string (asciiUnits text)) = some (.str text) := by
        rw [Interpreter.read, readString_asciiUnits (hplain text rfl)]
      rw [decodes_typedTree, hread]
      constructor
      · rintro ⟨read, hread, hdecoded⟩
        obtain rfl := Option.some.inj hread
        obtain rfl := Except.ok.inj hdecoded
        exact .str text
      · intro h
        cases h
        exact ⟨.str text, rfl, rfl⟩
  | float number =>
      have htree : encoder.objectTree (.float number) =
          .ok (.number (encoder.floatLiteral number)) := rfl
      rw [decodes_number]
      constructor
      · rintro ⟨written, hwritten, rfl⟩
        cases (rereads_iff hreversible htree).mp hwritten with
        | float hvalue => exact .float hvalue
      · intro h
        cases h with
        | float hvalue => exact ⟨number, (rereads_iff hreversible htree).mpr (.float hvalue), rfl⟩
  | vector3 hx hy hz =>
      simp only [decodes_vector3, rereads_iff hreversible hx, rereads_iff hreversible hy,
        rereads_iff hreversible hz]
      constructor
      · rintro ⟨a, b, c, ha, hb, hc, rfl⟩
        exact .vector3 ha hb hc
      · intro h
        cases h with
        | vector3 ha hb hc => exact ⟨_, _, _, ha, hb, hc, rfl⟩

/-! ## Documents -/

/-- The document of a tree is one, and in ASCII. -/
def Exportable (interp : Interpreter) (tree : Python.Tree) : Prop :=
  tree.Built interp.dialect.number (AsciiLiteral interp)

theorem length_encode_toDigits (n : Nat) :
    (Utf8.encode (Nat.toDigits 10 n)).length = (Nat.toDigits 10 n).length := by
  have hlength : ∀ chars : List Char, (∀ c ∈ chars, c.isDigit = true) →
      (Utf8.encode chars).length = chars.length := by
    intro chars h
    induction chars with
    | nil => rfl
    | cons c rest ih =>
        obtain ⟨hc, hrest⟩ := List.forall_mem_cons.mp h
        rw [Utf8.encode_cons, (Cpp.encodeChar_digit hc).1, List.singleton_append,
          List.length_cons, List.length_cons, ih hrest]
  exact hlength _ fun c hc => Nat.isDigit_of_mem_toDigits (by decide) (by decide) hc

theorem number_int (hlimit : ∀ limit ∈ interp.maxIntDigits, 4300 ≤ limit) {value : Int}
    (h : (Nat.toDigits 10 value.natAbs).length ≤ 4300) :
    interp.dialect.number (Cpp.text (toString value)) := by
  refine .inl ⟨(intOfLiteral_text value).1, fun _ limit hmem => ?_⟩
  have hdigits : (Cpp.text (toString value)).filter Cpp.isDigit =
      Utf8.encode (Nat.toDigits 10 value.natAbs) := by
    rw [text_int, text_nat, List.filter_append,
      List.filter_eq_self.mpr (encode_toDigits_isDigit value.natAbs)]
    split <;> rfl
  rw [hdigits, length_encode_toDigits]
  exact Nat.le_trans h (hlimit limit hmem)

theorem number_floatLiteral (hreversible : Reversible interp encoder) (value : Cpp.Double) :
    interp.dialect.number (encoder.floatLiteral value) := by
  unfold Encoder.floatLiteral
  split
  next hfinite =>
    obtain ⟨hliteral, hfraction, -⟩ := hreversible.repr value hfinite
    exact .inl ⟨hliteral, fun hinteger => absurd (hfraction.symm.trans hinteger) nofun⟩
  next =>
    refine .inr ?_
    split
    · simp
    · split <;> simp

theorem ascii_number {digits : List UInt8} (h : interp.dialect.number digits) :
    ∀ c ∈ digits, c < 0x80 := by
  rcases h with ⟨hliteral, -⟩ | hword
  · exact hliteral.ascii
  · have hall : ([Python.nanLiteral, Python.infinityLiteral, 0x2D :: Python.infinityLiteral].all
        fun word => word.all fun c => c < 0x80) = true := rfl
    exact Json.ascii_of_all (List.all_eq_true.mp hall digits hword)

theorem exportable_objectTree (hreversible : Reversible interp encoder) {object : PyObject}
    {tree : Python.Tree} (h : encoder.objectTree object = .ok tree) : Exportable interp tree := by
  cases object with
  | none =>
      obtain rfl := Except.ok.inj h
      exact Json.built_null
  | bool value =>
      obtain rfl := Except.ok.inj h
      exact Json.built_bool value
  | int value =>
      obtain ⟨text, htext, h⟩ := bind_eq_ok.mp h
      obtain rfl := Except.ok.inj h
      unfold Python.intText at htext
      split at htext
      next => cases htext
      next hshort =>
        exact Json.built_number.mpr (number_int hreversible.intDigits
          (Nat.toDigits_length 10 _ 4300 (by decide) (Nat.lt_of_not_ge hshort)))
  | float value =>
      obtain rfl := Except.ok.inj h
      exact Json.built_number.mpr (number_floatLiteral hreversible value)
  | str text =>
      obtain rfl := Except.ok.inj h
      exact Json.built_string.mpr (asciiLiteral_asciiUnits interp text)
  | vector3 x y z => cases h
  | other typeName asFloat serializable =>
      cases serializable with
      | false => cases h
      | true =>
          obtain rfl := Except.ok.inj h
          exact hreversible.foreign typeName asFloat

section Shape

variable {N : List UInt8 → Prop} {L : List (Json.StringUnit Python.CodePoint) → Prop}

theorem built_dictTree {items : List (Python.Str × Python.Tree)} :
    (Python.dictTree items).Built N L ↔
      ∀ item ∈ items, L (asciiUnits item.1) ∧ item.2.Built N L := by
  rw [Python.dictTree, Json.built_object, List.forall_mem_map]

/-- What of a value is written as a number. -/
def numbersOf : PyObject → List PyObject
  | .float value => [.float value]
  | .vector3 x y z => [x, y, z]
  | _ => []

theorem built_typedTree (hplain : ∀ text, Python.Encodable text → L (asciiUnits text))
    (type : Python.ValueType) {tree : Python.Tree} (h : tree.Built N L) :
    (Python.typedTree type tree).Built N L := by
  have htype : L (asciiUnits type.text) := hplain _ (by cases type <;> exact encodable_literal _)
  refine built_dictTree.mpr fun item hitem => ?_
  rcases List.mem_pair.mp hitem with rfl | rfl
  · exact ⟨hplain _ (encodable_literal _), Json.built_string.mpr htype⟩
  · exact ⟨hplain _ (encodable_literal _), h⟩

theorem built_of_writes (hplain : ∀ text, Python.Encodable text → L (asciiUnits text))
    {value : PyObject} {tree : Python.Tree} (h : encoder.Writes value tree)
    (htext : ∀ text, value = .str text → L (asciiUnits text))
    (hnumbers : ∀ object ∈ numbersOf value, ∀ tree, encoder.objectTree object = .ok tree →
      tree.Built N L) : tree.Built N L := by
  cases h with
  | bool value => exact built_typedTree hplain .bool (Json.built_bool value)
  | float value =>
      exact built_typedTree hplain .number (hnumbers _ (List.mem_singleton_self _) _ rfl)
  | str text => exact built_typedTree hplain .string (Json.built_string.mpr (htext text rfl))
  | vector3 hx hy hz =>
      refine built_typedTree hplain .vector3 (Json.built_array.mpr ?_)
      simp only [List.forall_mem_cons, List.not_mem_nil, false_implies, implies_true, and_true]
      exact ⟨hnumbers _ (by simp [numbersOf]) _ hx, hnumbers _ (by simp [numbersOf]) _ hy,
        hnumbers _ (by simp [numbersOf]) _ hz⟩

/-- What is written of an export, from what is written of its fields. -/
theorem built_exportTree (hplain : ∀ text, Python.Encodable text → L (asciiUnits text))
    {ref : Python.CollectionRef} {target : Python.Str} {revision : Python.Tree}
    {properties : List (Python.Str × Python.Tree)} :
    (Encoder.exportTree ref target revision properties).Built N L ↔
      L (asciiUnits ref.collection) ∧
        (∀ item ∈ properties, L (asciiUnits item.1) ∧ item.2.Built N L) ∧
        revision.Built N L ∧ N (Cpp.text "1") ∧ L (asciiUnits target) := by
  have hfield : ∀ literal, L (asciiUnits (Python.str literal)) :=
    fun literal => hplain _ (encodable_literal literal)
  simp only [Encoder.exportTree, built_dictTree, List.forall_mem_cons, List.not_mem_nil,
    false_implies, implies_true, and_true, hfield, true_and, Json.built_string, Json.built_number]

end Shape

/-- What is written of an export is a document in ASCII. -/
theorem exportable_exportTree (hreversible : Reversible interp encoder)
    (ref : Python.CollectionRef) (target : Python.Str) {revision : Python.Tree}
    {entries : List (Python.Str × PyObject)} {properties : List (Python.Str × Python.Tree)}
    (hproperties : List.Forall₂ (EntriesRelated Eq encoder.Writes) entries properties)
    (hrevision : Exportable interp revision) :
    Exportable interp (Encoder.exportTree ref target revision properties) := by
  have hliteral := asciiLiteral_asciiUnits interp
  refine (built_exportTree fun text _ => hliteral text).mpr ⟨hliteral _, fun item hitem => ?_,
    hrevision, @number_int interp hreversible.intDigits 1 (by decide), hliteral _⟩
  obtain ⟨entry, -, -, hwrites⟩ := exists_partner hproperties.flip hitem
  exact ⟨hliteral _, built_of_writes (fun text _ => hliteral text) hwrites
    (fun text _ => hliteral text) fun _ _ _ htree => exportable_objectTree hreversible htree⟩

/-- A document in ASCII is as long as its encoding. -/
theorem encodeUtf8_ascii {document : Python.Str}
    (h : ∀ c ∈ document, Json.IsAscii interp.dialect c) :
    ∃ octets, Python.encodeUtf8 document = .ok octets ∧ octets.length = document.length := by
  have hplain : document.any isSurrogate = false := by
    refine List.any_eq_false.mpr fun c hc => ?_
    obtain ⟨octet, hlow, rfl⟩ := h c hc
    have hlow : octet.toNat < 0x80 := UInt8.lt_iff_toNat_lt.mp hlow
    have hval : (interp.dialect.ascii octet).val = octet.toNat := asciiPoint_val octet
    simp only [isSurrogate, hval, Bool.and_eq_true, decide_eq_true_eq]
    omega
  have hsingle : ∀ c ∈ document, (Python.encodeCodePoint c).length = 1 := by
    intro c hc
    obtain ⟨octet, hlow, rfl⟩ := h c hc
    exact congrArg List.length (encodeCodePoint_ascii hlow)
  refine ⟨document.flatMap Python.encodeCodePoint,
    by rw [Python.encodeUtf8, hplain, if_neg Bool.false_ne_true], ?_⟩
  rw [List.length_flatMap, List.map_congr_left hsingle]
  simp

/-- Python and its module agree on the text of an export. -/
theorem isText_export (hreversible : Reversible interp encoder) (ref : Python.CollectionRef)
    (target : Python.Str) {revision : Int} {revisionTree : Python.Tree}
    (hrevision : encoder.objectTree (.int revision) = .ok revisionTree)
    {entries : List (Python.Str × PyObject)} {properties : List (Python.Str × Python.Tree)}
    (hproperties : List.Forall₂ (EntriesRelated Eq encoder.Writes) entries properties) :
    let tree := Encoder.exportTree ref target revisionTree properties
    Json.IsText interp.dialect tree (tree.compact interp.dialect) ∧
      ∃ octets, Python.encodeUtf8 (tree.compact interp.dialect) = .ok octets ∧
        octets.length = (tree.compact interp.dialect).length := by
  intro tree
  have htree : Exportable interp tree := exportable_exportTree hreversible ref target hproperties
    (exportable_objectTree hreversible hrevision)
  exact ⟨Json.isText_compact (htree.imp (fun _ h => h) fun _ h => h.1),
    encodeUtf8_ascii (Json.isAscii_compact tree (htree.imp (fun _ h => ascii_number h)
      fun _ h => h.2))⟩

/-- The dictionary of an export, as it is read. -/
def exportedRoot (ref : Python.CollectionRef) (target : Python.Str) (revision : Int)
    (items : List (Python.Str × PyJson)) : PyJson :=
  .dict [(Python.str "collection", .str (Interpreter.readString (asciiUnits ref.collection))),
    (Python.str "properties", .dict items), (Python.str "revision", .int revision),
    (Python.str "schema", .int 1),
    (Python.str "target", .str (Interpreter.readString (asciiUnits target)))]

/-- An entry is read as one entry at most. -/
theorem entries_rightUnique : Relator.RightUnique
    (EntriesRelated Eq fun tree value => interp.read tree = some value :
      Python.Str × Python.Tree → Python.Str × PyJson → Prop) := by
  rintro ⟨key, tree⟩ ⟨_, first⟩ ⟨_, second⟩ ⟨rfl, hfirst⟩ ⟨rfl, hsecond⟩
  obtain rfl := Option.some.inj (hfirst.symm.trans hsecond)
  rfl

/-- An export is read wherever the values in it are. -/
theorem read_exportTree (ref : Python.CollectionRef) (target : Python.Str) {revision : Int}
    {revisionTree : Python.Tree} (hrevision : encoder.objectTree (.int revision) = .ok revisionTree)
    {properties : List (Python.Str × Python.Tree)}
    (hkeys : ∀ item ∈ properties, Python.Encodable item.1)
    (hdistinct : (properties.map Prod.fst).Nodup) {root : PyJson} :
    interp.read (Encoder.exportTree ref target revisionTree properties) = some root ↔
      ∃ items, List.Forall₂
        (EntriesRelated Eq fun tree value => interp.read tree = some value) properties items ∧
          root = exportedRoot ref target revision items := by
  obtain ⟨text, -, hwritten⟩ := bind_eq_ok.mp hrevision
  obtain rfl := Except.ok.inj hwritten
  have hfields : ∀ item ∈ [(Python.str "collection", Json.Tree.string (asciiUnits ref.collection)),
      (Python.str "properties", Python.dictTree properties),
      (Python.str "revision", .number (Cpp.text (toString revision))),
      (Python.str "schema", .number (Cpp.text "1")),
      (Python.str "target", .string (asciiUnits target))], Python.Encodable item.1 := by
    simp only [List.forall_mem_cons, List.not_mem_nil, false_implies, implies_true, and_true]
    exact ⟨encodable_literal _, encodable_literal _, encodable_literal _, encodable_literal _,
      encodable_literal _⟩
  have hnames : [Python.str "collection", Python.str "properties", Python.str "revision",
      Python.str "schema", Python.str "target"].Nodup := by decide
  have hcanonical : ∀ {items}, interp.read (Python.dictTree properties) = some (.dict items) →
      List.Forall₂ (EntriesRelated Eq fun tree value => interp.read tree = some value)
        [(Python.str "collection", Json.Tree.string (asciiUnits ref.collection)),
          (Python.str "properties", Python.dictTree properties),
          (Python.str "revision", .number (Cpp.text (toString revision))),
          (Python.str "schema", .number (Cpp.text "1")),
          (Python.str "target", .string (asciiUnits target))]
        [(Python.str "collection", .str (Interpreter.readString (asciiUnits ref.collection))),
          (Python.str "properties", .dict items), (Python.str "revision", .int revision),
          (Python.str "schema", .int 1),
          (Python.str "target", .str (Interpreter.readString (asciiUnits target)))] :=
    fun hdict => .cons ⟨rfl, rfl⟩ (.cons ⟨rfl, hdict⟩ (.cons ⟨rfl, read_int revision⟩
      (.cons ⟨rfl, read_int 1⟩ (.cons ⟨rfl, rfl⟩ .nil))))
  rw [Encoder.exportTree, read_dictTree hfields hnames]
  constructor
  · rintro ⟨values, hvalues, rfl⟩
    obtain ⟨⟨key, value⟩, -, -, hread⟩ := exists_partner hvalues
      (List.mem_cons_of_mem _ List.mem_cons_self)
    obtain ⟨items, hitems, rfl⟩ := (read_dictTree hkeys hdistinct).mp hread
    obtain rfl := entries_rightUnique.forall₂ hvalues (hcanonical hread)
    exact ⟨items, hitems, rfl⟩
  · rintro ⟨items, hitems, rfl⟩
    exact ⟨_, hcanonical ((read_dictTree hkeys hdistinct).mpr ⟨items, hitems, rfl⟩), rfl⟩

/-- The properties of an export are the ones an import takes. -/
theorem documentItems_exportedRoot {ref : Python.CollectionRef} {target : Python.Str}
    {revision : Int} {items found : List (Python.Str × PyJson)} :
    Interpreter.documentItems (exportedRoot ref target revision items) = .ok found ↔
      found = items := by
  show Except.ok items = Except.ok found ↔ found = items
  rw [Except.ok.injEq, eq_comm]

/-- **What an import makes of the properties of an export.** -/
theorem decodes_properties_iff (hreversible : Reversible interp encoder)
    {entries : List (Python.Str × PyObject)} {properties : List (Python.Str × Python.Tree)}
    (hproperties : List.Forall₂ (EntriesRelated Eq encoder.Writes) entries properties)
    (hplain : ∀ entry ∈ entries, ∀ text, entry.2 = .str text → Python.Encodable text)
    {decoded : List (Python.Str × PyObject)} :
    (∃ items, List.Forall₂
        (EntriesRelated Eq fun tree value => interp.read tree = some value) properties items ∧
      List.Forall₂ (EntriesRelated Eq fun data value => interp.decodedValue data = .ok value)
        items decoded) ↔
      List.Forall₂ (EntriesRelated Eq (Restores interp encoder)) entries decoded := by
  induction hproperties generalizing decoded with
  | nil => simp
  | @cons entry property entries properties hentry _ ih =>
      obtain ⟨hplainEntry, hplainRest⟩ := List.forall_mem_cons.mp hplain
      have hrestores := fun restored =>
        @restores_iff interp encoder hreversible entry.2 restored property.2 hentry.2 hplainEntry
      constructor
      · rintro ⟨items, hitems, hdecoded⟩
        obtain ⟨item, others, hread, hothers, rfl⟩ := List.forall₂_cons_left_iff.mp hitems
        obtain ⟨value, rest, hvalue, hrest, rfl⟩ := List.forall₂_cons_left_iff.mp hdecoded
        exact .cons ⟨hentry.1.trans (hread.1.trans hvalue.1),
          (hrestores value.2).mp ⟨item.2, hread.2, hvalue.2⟩⟩
          ((ih hplainRest).mp ⟨others, hothers, hrest⟩)
      · intro h
        obtain ⟨value, rest, hvalue, hrest, rfl⟩ := List.forall₂_cons_left_iff.mp h
        obtain ⟨data, hread, hdecoded⟩ := (hrestores value.2).mpr hvalue.2
        obtain ⟨items, hitems, hrest⟩ := (ih hplainRest).mpr hrest
        exact ⟨(property.1, data) :: items, .cons ⟨rfl, hread⟩ hitems,
          .cons ⟨hentry.1.symm.trans hvalue.1, hdecoded⟩ hrest⟩

/-- Entries under distinct keys that can be encoded are written under such keys. -/
theorem keys_written {entries : List (Python.Str × PyObject)}
    {properties : List (Python.Str × Python.Tree)}
    (hproperties : List.Forall₂ (EntriesRelated Eq encoder.Writes) entries properties)
    (hdistinct : (entries.map Prod.fst).Nodup)
    (hkeys : ∀ entry ∈ entries, Python.Encodable entry.1) :
    (properties.map Prod.fst).Nodup ∧ ∀ item ∈ properties, Python.Encodable item.1 := by
  have hsame := keys_eq hproperties
  refine ⟨hsame ▸ hdistinct, fun item hitem => ?_⟩
  obtain ⟨entry, hentry, hkey, -⟩ := exists_partner hproperties.flip hitem
  exact hkey ▸ hkeys entry hentry

/-- **What an import makes of an export.**  The document is decoded where it is short
enough and every value in it is restored. -/
theorem decodeDocument_export (hreversible : Reversible interp encoder)
    {ref : Python.CollectionRef} {snapshot : Python.CollectionSnapshot} {document : Python.Str}
    (hexport : encoder.exportDocument interp ref snapshot = .ok document)
    (hkeys : ∀ entry ∈ snapshot.properties.toList, Python.Encodable entry.1)
    (hplain : ∀ entry ∈ snapshot.properties.toList, ∀ text, entry.2 = .str text →
      Python.Encodable text)
    {limits : Python.ValidationLimits} {mapping : Python.PropertyMapping} :
    interp.decodeDocument limits document = .ok (some mapping) ↔
      document.length ≤ limits.maxImportBytes ∧
        List.Forall₂ (EntriesRelated Eq (Restores interp encoder)) snapshot.properties.toList
          mapping.items := by
  obtain ⟨target, properties, revision, -, hproperties, hrevision, rfl⟩ :=
    Python.exportDocument_writes hexport
  obtain ⟨htext, octets, hencode, hlength⟩ :=
    isText_export hreversible ref target hrevision hproperties
  have hdistinct : (snapshot.properties.toList.map Prod.fst).Nodup :=
    nodup_of_sorted ExtTreeMap.ordered_keys_toList
  obtain ⟨hnames, hnamesPlain⟩ := keys_written hproperties hdistinct hkeys
  rw [Python.decodeDocument_eq_ok, ← decodes_properties_iff hreversible hproperties hplain,
    ← hlength]
  constructor
  · rintro ⟨encoded, root, items, hencoded, hsize, hroot, hitems, hdecoded⟩
    obtain rfl := Except.ok.inj (hencode.symm.trans hencoded)
    obtain ⟨tree, htree, hread⟩ := loads_eq_ok.mp hroot
    obtain rfl := htree.unique (lexical_python interp) htext
    obtain ⟨values, hvalues, rfl⟩ :=
      (read_exportTree ref target hrevision hnamesPlain hnames).mp hread
    obtain rfl := documentItems_exportedRoot.mp hitems
    obtain ⟨decoded, hdecoded, hsame⟩ := (Python.decodedProperties_eq_ok
      (keys_eq hvalues ▸ hnames) fun _ _ => List.not_mem_nil).mp hdecoded
    exact ⟨hsize, items, hvalues, hsame ▸ hdecoded⟩
  · rintro ⟨hsize, items, hvalues, hdecoded⟩
    exact ⟨octets, exportedRoot ref target snapshot.revision items, items, hencode, hsize,
      loads_eq_ok.mpr ⟨_, htext,
        (read_exportTree ref target hrevision hnamesPlain hnames).mpr ⟨items, hvalues, rfl⟩⟩,
      documentItems_exportedRoot.mpr rfl,
      (Python.decodedProperties_eq_ok (keys_eq hvalues ▸ hnames) fun _ _ => List.not_mem_nil).mpr
        ⟨mapping.items, hdecoded, rfl⟩⟩

end Values

end DynamicProperties
