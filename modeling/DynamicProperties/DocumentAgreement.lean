import DynamicProperties.Correspondence
import DynamicProperties.Cpp.Parser
import DynamicProperties.Library.JsonAlphabet
import DynamicProperties.Library.JsonUnique
import DynamicProperties.Python.Documents

/-!
# Both parsers read the same documents

A document and its octets have the same trees: the grammar is one, over two
alphabets.  `json.loads` takes every tree in which no object repeats a name; the
parser of C++ asks for more, and what it asks for is `Strict`.  On a strict tree the
two values correspond (`alike_read`), so both decoders go the same way from there.
-/

namespace DynamicProperties

open Std
open DynamicProperties.Library
open DynamicProperties.Library.Fallible
open DynamicProperties.Library.Mirror
open DynamicProperties.Library.OrderedMap
open DynamicProperties.Python (Interpreter PyJson encodeCodePoint encodeUtf8 isSurrogate)

/-! ## Code points and octets -/

theorem asciiPoint_val (c : UInt8) : (Python.asciiPoint c).val = c.toNat :=
  Nat.mod_eq_of_lt (Nat.lt_trans c.toNat_lt (by decide))

theorem asciiPoint_injective : Function.Injective Python.asciiPoint := by
  intro c c' h
  have hval : c.toNat = c'.toNat := by rw [← asciiPoint_val, ← asciiPoint_val, h]
  exact UInt8.toNat_inj.mp hval

theorem encodeCodePoint_ascii {c : UInt8} (hc : c < 0x80) :
    encodeCodePoint (Python.asciiPoint c) = [c] := by
  have hsmall : c.toNat < 0x80 := UInt8.lt_iff_toNat_lt.mp hc
  have hword : (UInt32.ofNat c.toNat).toNat = c.toNat :=
    UInt32.toNat_ofNat_of_lt' (Nat.lt_trans hsmall (by decide))
  have hone : UInt32.ofNat c.toNat ≤ 0x7F := by
    rw [UInt32.le_iff_toNat_le, hword]
    exact Nat.le_of_lt_succ hsmall
  rw [encodeCodePoint, asciiPoint_val, Cpp.appendUtf8, if_pos hone, List.nil_append]
  congr 1
  rw [← UInt8.toNat_inj, UInt32.toNat_toUInt8, hword]
  exact Nat.mod_eq_of_lt c.toNat_lt

/-- An octet with the top bit of its marker set is not ASCII. -/
theorem wide_marked {marker low : UInt32} (hmarker : 0x80 ≤ marker.toUInt8) :
    ¬ (marker ||| low).toUInt8 < 0x80 := by
  have hle : marker.toUInt8.toNat ≤ (marker ||| low).toUInt8.toNat := by
    rw [UInt32.toUInt8_or, UInt8.toNat_or]
    exact Nat.left_le_or
  exact UInt8.not_lt.mpr (UInt8.le_trans hmarker (UInt8.le_iff_toNat_le.mpr hle))

/-- Code points from 0x80 on are written without ASCII. -/
theorem encodeCodePoint_wide {c : Python.CodePoint} (hc : 0x80 ≤ c.val) :
    encodeCodePoint c ≠ [] ∧ ∀ octet ∈ encodeCodePoint c, ¬ octet < 0x80 := by
  have hword : (UInt32.ofNat c.val).toNat = c.val :=
    UInt32.toNat_ofNat_of_lt' (Nat.lt_trans c.isLt (by decide))
  have hone : ¬ UInt32.ofNat c.val ≤ 0x7F := by
    rw [UInt32.le_iff_toNat_le, hword]
    exact Nat.not_le.mpr hc
  rw [encodeCodePoint, Cpp.appendUtf8, if_neg hone]
  split
  · refine ⟨List.cons_ne_nil _ _, ?_⟩
    simp only [List.nil_append, List.forall_mem_cons]
    exact ⟨wide_marked (by decide), wide_marked (by decide), fun _ h => absurd h List.not_mem_nil⟩
  split
  · refine ⟨List.cons_ne_nil _ _, ?_⟩
    simp only [List.nil_append, List.forall_mem_cons]
    exact ⟨wide_marked (by decide), wide_marked (by decide), wide_marked (by decide),
      fun _ h => absurd h List.not_mem_nil⟩
  · refine ⟨List.cons_ne_nil _ _, ?_⟩
    simp only [List.nil_append, List.forall_mem_cons]
    exact ⟨wide_marked (by decide), wide_marked (by decide), wide_marked (by decide),
      wide_marked (by decide), fun _ h => absurd h List.not_mem_nil⟩

/-- The octets of a document spell the same grammar. -/
theorem respells_utf8 (interp : Interpreter) :
    Json.Respells interp.dialect Cpp.rfc8259 encodeCodePoint where
  injective := asciiPoint_injective
  injective' := Function.injective_id
  ascii octet hoctet := encodeCodePoint_ascii hoctet
  wide c hc := by
    have hwide : 0x80 ≤ c.val := by
      by_contra hsmall
      refine hc (UInt8.ofNat c.val) ?_ (Fin.ext ?_)
      · rw [UInt8.lt_iff_toNat_lt, UInt8.toNat_ofNat']
        show c.val % 256 < 128
        omega
      · show c.val = (Python.asciiPoint (UInt8.ofNat c.val)).val
        rw [asciiPoint_val, UInt8.toNat_ofNat']
        show c.val = c.val % 256
        omega
    obtain ⟨hne, hoctets⟩ := encodeCodePoint_wide hwide
    refine ⟨hne, fun octet hoctet other hother heq => hoctets octet hoctet ?_⟩
    rw [heq]
    exact hother

/-- The numbers of the Python module can be told from its other values. -/
theorem lexical_python (interp : Interpreter) : interp.dialect.Lexical where
  injective := asciiPoint_injective
  number digits hnumber := by
    rcases hnumber with ⟨hliteral, -⟩ | hword
    · exact hliteral.lexical
    · have hplain : ∀ word ∈ [Python.nanLiteral, Python.infinityLiteral,
          0x2D :: Python.infinityLiteral],
          (word.all fun c => decide (¬ Json.IsDelimiter c)) = true := by decide
      refine ⟨fun c hc => of_decide_eq_true (List.all_eq_true.mp (hplain digits hword) c hc), ?_⟩
      simp only [List.mem_cons, List.not_mem_nil, or_false] at hword
      rcases hword with rfl | rfl | rfl
      · exact ⟨_, _, rfl, by decide⟩
      · exact ⟨_, _, rfl, by decide⟩
      · exact ⟨_, _, rfl, by decide⟩

/-! ## Strings -/

/-- The octets of a tree of code points. -/
abbrev octetTree : Python.Tree → Cpp.Tree := Json.Tree.respell encodeCodePoint

abbrev octetUnits : List (Json.StringUnit Python.CodePoint) → List (Json.StringUnit UInt8) :=
  Json.respellUnits encodeCodePoint

/-- The members of an object as C++ reads them. -/
abbrev octetMembers : List Python.Member → List Cpp.Member :=
  Json.respellMembers encodeCodePoint

theorem octetMembers_eq_map (members : List Python.Member) :
    octetMembers members =
      members.map fun member => (octetUnits member.1, octetTree member.2) :=
  Json.respellMembers_eq_map encodeCodePoint members

theorem octetTree_array (elements : List Python.Tree) :
    octetTree (.array elements) = .array (elements.map octetTree) :=
  congrArg Json.Tree.array (Json.respellElements_eq_map encodeCodePoint elements)

theorem octetTree_object (members : List Python.Member) :
    octetTree (.object members) = .object (octetMembers members) := rfl

theorem textAlike_append {first second : Python.Str} {octets octets' : Cpp.ByteString}
    (h : TextAlike first octets) (h' : TextAlike second octets') :
    TextAlike (first ++ second) (octets ++ octets') := by
  obtain ⟨chars, rfl, rfl⟩ := Python.encodeUtf8_eq_ok_iff.mp h
  obtain ⟨chars', rfl, rfl⟩ := Python.encodeUtf8_eq_ok_iff.mp h'
  refine Python.encodeUtf8_eq_ok_iff.mpr ⟨chars ++ chars', ?_, ?_⟩
  · rw [Python.ofChars, Python.ofChars, Python.ofChars, List.map_append]
  · rw [Utf8.encode_append]

theorem textAlike_codePoint {c : Python.CodePoint} (hc : isSurrogate c = false) :
    TextAlike [c] (encodeCodePoint c) := by
  obtain ⟨char, rfl⟩ := Python.exists_codePoint hc
  refine Python.encodeUtf8_eq_ok_iff.mpr ⟨[char], rfl, ?_⟩
  rw [Python.encodeCodePoint_codePoint, Utf8.encode_cons, Utf8.encode_nil, List.append_nil]

/-- What an escape stands for, written by either side. -/
theorem textAlike_written {code : Nat} (h : code.isValidChar) :
    TextAlike [Fin.ofNat 0x110000 code] (Cpp.writeUtf8 code) := by
  have hchar : (Char.ofNat code).toNat = code := by
    rw [Char.ofNat, dif_pos h]
    rfl
  refine Python.encodeUtf8_eq_ok_iff.mpr ⟨[Char.ofNat code], ?_, ?_⟩
  · show [Fin.ofNat 0x110000 code] = [Fin.ofNat 0x110000 (Char.ofNat code).toNat]
    rw [hchar]
  · rw [Utf8.encode_cons, Utf8.encode_nil, List.append_nil, Cpp.writeUtf8]

/-- The raw characters of a literal are no surrogates. -/
def PlainUnits (units : List (Json.StringUnit Python.CodePoint)) : Prop :=
  ∀ c, .raw c ∈ units → isSurrogate c = false

theorem PlainUnits.tail {unit : Json.StringUnit Python.CodePoint}
    {units : List (Json.StringUnit Python.CodePoint)}
    (h : PlainUnits (unit :: units)) : PlainUnits units :=
  fun c hc => h c (List.mem_cons_of_mem _ hc)

theorem denoteString_raws (first : Cpp.ByteString) (rest : List (Json.StringUnit UInt8)) :
    Cpp.denoteString (first.map .raw ++ rest) = first ++ Cpp.denoteString rest := by
  induction first with
  | nil => rfl
  | cons c first ih => exact congrArg (c :: ·) ih

/-- **A paired literal is the same string for both sides.** -/
theorem textAlike_readString {dialect : Json.Dialect Python.CodePoint}
    {units : List (Json.StringUnit Python.CodePoint)} (hlegal : Json.LegalUnits dialect units)
    (hplain : PlainUnits units) (hpaired : Json.Paired units) :
    TextAlike (Interpreter.readString units) (Cpp.denoteString (octetUnits units)) := by
  have hinduction : ∀ units, Json.Paired units → Json.LegalUnits dialect units → PlainUnits units →
      TextAlike (Interpreter.readString units) (Cpp.denoteString (octetUnits units)) := by
    refine Json.Paired.induction ?_ ?_ ?_ ?_ ?_
    · exact fun _ _ => textAlike_str ""
    · intro c rest ih hlegal hplain
      have hc := textAlike_codePoint (hplain c List.mem_cons_self)
      have hrest := ih (Json.legalUnits_cons.mp hlegal).2 hplain.tail
      have hboth := textAlike_append hc hrest
      rw [← denoteString_raws] at hboth
      exact hboth
    · intro letter rest ih hlegal hplain
      obtain ⟨hletter, hlegal⟩ := Json.legalUnits_cons.mp hlegal
      obtain ⟨code, hcode⟩ := Option.isSome_iff_exists.mp hletter
      have hvalid := (Cpp.Escape.letter hcode).isValidChar
      have hboth := textAlike_append (textAlike_written hvalid) (ih hlegal hplain.tail)
      show TextAlike ([Fin.ofNat 0x110000 ((Json.escapeCode letter).getD 0)] ++ _)
        (Cpp.writeUtf8 ((Json.escapeCode letter).getD 0) ++ _)
      rw [hcode]
      exact hboth
    · intro digits rest hhigh hlow ih hlegal hplain
      obtain ⟨hdigits, hlegal⟩ := Json.legalUnits_cons.mp hlegal
      have hvalid := (Cpp.Escape.unicode hdigits.1 hdigits.2 hhigh hlow).isValidChar
      have hboth := textAlike_append (textAlike_written hvalid) (ih hlegal hplain.tail)
      rw [Interpreter.readString, Json.decodeUnits_unicode hhigh]
      show TextAlike _ (Json.decodeUnits Cpp.writeUtf8 (.unicode digits :: octetUnits rest))
      rw [Json.decodeUnits_unicode hhigh]
      exact hboth
    · intro digits digits' rest hhigh hlow ih hlegal hplain
      obtain ⟨hdigits, hlegal⟩ := Json.legalUnits_cons.mp hlegal
      obtain ⟨hdigits', hlegal⟩ := Json.legalUnits_cons.mp hlegal
      have hvalid :=
        (Cpp.Escape.pair hdigits.1 hdigits.2 hdigits'.1 hdigits'.2 hhigh hlow).isValidChar
      have hboth := textAlike_append (textAlike_written hvalid) (ih hlegal hplain.tail.tail)
      rw [Interpreter.readString, Json.decodeUnits_pair hhigh hlow]
      show TextAlike _ (Json.decodeUnits Cpp.writeUtf8
        (.unicode digits :: .unicode digits' :: octetUnits rest))
      rw [Json.decodeUnits_pair hhigh hlow]
      exact hboth
  exact hinduction units hpaired hlegal hplain

/-! ## Numbers -/

/-- A zero, of either sign. -/
def IsZero (number : Cpp.Double) : Prop := number.bits = 0 ∨ number.bits = 0x8000000000000000

/-- `==` between finite doubles: the two zeros are equal. -/
def NumberEqual (number number' : Cpp.Double) : Prop :=
  number = number' ∨ IsZero number ∧ IsZero number'

theorem isFinite_of_isZero {number : Cpp.Double} (h : IsZero number) : number.isFinite = true := by
  obtain ⟨bits⟩ := number
  rcases h with rfl | rfl <;> decide

theorem NumberEqual.isFinite {number number' : Cpp.Double} (h : NumberEqual number number') :
    number.isFinite = number'.isFinite := by
  rcases h with rfl | ⟨hzero, hzero'⟩
  · rfl
  · rw [isFinite_of_isZero hzero, isFinite_of_isZero hzero']

/-- The first integer that rounds to a power of two beyond the doubles. -/
def integerRange : Nat := 2 ^ 1024 - 2 ^ 970

/-- What the runtimes say of the numbers of a document.  `strtod`, `float` of a string
and `float` of an `int` all round to the nearest double, so they meet; an `int` has
no negative zero.  A limit on the digits of an `int` is at least 640. -/
structure ConvertAlike (interp : Interpreter) (format : Cpp.NumberFormat) : Prop where
  whole : ∀ digits, Json.NumberLiteral digits → (format.strtod digits).2 = []
  float : ∀ digits, Json.NumberLiteral digits → Python.isInteger digits = false →
    interp.float digits = (format.strtod digits).1
  range : ∀ digits, Json.NumberLiteral digits → Python.isInteger digits = true →
    ((format.strtod digits).1.isFinite = true ↔
      (Python.intOfLiteral digits).natAbs < integerRange)
  ofInt : ∀ digits, Json.NumberLiteral digits → Python.isInteger digits = true →
    (Python.intOfLiteral digits).natAbs < integerRange →
    NumberEqual (interp.ofInt (Python.intOfLiteral digits)) (format.strtod digits).1
  one : ∀ digits, Json.NumberLiteral digits → Python.isInteger digits = true →
    ((format.strtod digits).1 = Cpp.doubleOne ↔ Python.intOfLiteral digits = 1)
  intDigits : ∀ limit ∈ interp.maxIntDigits, 640 ≤ limit

/-- The value of digits, most significant first. -/
theorem le_foldl_digits (digits : List UInt8) (init : Nat) :
    init * 10 ^ digits.length ≤
      digits.foldl (fun n c => 10 * n + (c.toNat - 0x30)) init := by
  induction digits generalizing init with
  | nil => simp
  | cons c digits ih =>
      have hstep := ih (10 * init + (c.toNat - 0x30))
      calc init * 10 ^ (digits.length + 1)
          = 10 * init * 10 ^ digits.length := by
            rw [Nat.pow_succ', ← Nat.mul_assoc, Nat.mul_comm init 10]
        _ ≤ (10 * init + (c.toNat - 0x30)) * 10 ^ digits.length :=
          Nat.mul_le_mul_right _ (Nat.le_add_right _ _)
        _ ≤ _ := hstep

/-- The digits of an integer literal are its integer part. -/
theorem integer_of_literal {digits : List UInt8} (h : Json.NumberLiteral digits)
    (hinteger : Python.isInteger digits = true) :
    ∃ integer, Json.Integer integer ∧ digits.filter Cpp.isDigit = integer := by
  obtain ⟨minus, integer, fraction, exponent, rfl, hminus, hint, hfraction, hexponent⟩ := h
  have hplain : ∀ c ∈ minus ++ (integer ++ (fraction ++ exponent)),
      c = 0x2D ∨ Cpp.isDigit c = true := by
    intro c hc
    simpa using List.all_eq_true.mp hinteger c hc
  have hfraction : fraction = [] := by
    rcases hfraction with rfl | ⟨rest, rfl, -⟩
    · rfl
    · exact absurd (hplain 0x2E (by simp)) (by decide)
  have hexponent : exponent = [] := by
    rcases hexponent with rfl | ⟨e, sign, rest, rfl, he, -, -⟩
    · rfl
    · refine absurd (hplain e (by simp)) ?_
      rcases he with rfl | rfl <;> decide
  have hdigits : ∀ c ∈ integer, Cpp.isDigit c = true := by
    intro c hc
    rcases hint with rfl | ⟨hdigits, -⟩
    · rw [List.mem_singleton.mp hc]
      decide
    · exact Cpp.isDigit_iff.mpr (hdigits.2 c hc)
  have hsign : minus.filter Cpp.isDigit = [] := by
    rcases hminus with rfl | rfl <;> rfl
  refine ⟨integer, hint, ?_⟩
  rw [hfraction, hexponent, List.append_nil, List.append_nil, List.filter_append, hsign,
    List.nil_append, List.filter_eq_self.mpr hdigits]

theorem two_pow_le_ten_pow {k n : Nat} (h : k ≤ 3 * n) : 2 ^ k ≤ 10 ^ n := by
  calc 2 ^ k ≤ 2 ^ (3 * n) := Nat.pow_le_pow_right (by decide) h
    _ = 8 ^ n := Nat.pow_mul ..
    _ ≤ 10 ^ n := Nat.pow_le_pow_left (by decide) n

/-- Python reads every integer a double can hold. -/
theorem readsInt_of_range {interp : Interpreter}
    (hlimit : ∀ limit ∈ interp.maxIntDigits, 640 ≤ limit)
    {digits : List UInt8} (h : Json.NumberLiteral digits)
    (hinteger : Python.isInteger digits = true)
    (hrange : (Python.intOfLiteral digits).natAbs < integerRange) : interp.ReadsInt digits := by
  obtain ⟨integer, hint, hfilter⟩ := integer_of_literal h hinteger
  have hvalue : (Python.intOfLiteral digits).natAbs =
      integer.foldl (fun n c => 10 * n + (c.toNat - 0x30)) 0 := by
    unfold Python.intOfLiteral
    simp only [hfilter]
    split <;> simp
  intro limit hmem
  rw [hfilter]
  refine Nat.le_trans ?_ (hlimit limit hmem)
  rcases hint with rfl | ⟨hdigits, hhead⟩
  · decide
  obtain ⟨c, rest, rfl⟩ := List.exists_cons_of_ne_nil hdigits.1
  have hc : 0x31 ≤ c.toNat := by
    obtain ⟨hlow, -⟩ := hdigits.2 c List.mem_cons_self
    have hlow : 0x30 ≤ c.toNat := UInt8.le_iff_toNat_le.mp hlow
    have hne : c.toNat ≠ 0x30 := fun heq => hhead (by
      rw [List.head?_cons, UInt8.toNat_inj.mp (show c.toNat = (0x30 : UInt8).toNat from heq)])
    omega
  by_contra hlong
  have hlength : 1024 ≤ 3 * rest.length := by
    rw [List.length_cons] at hlong
    omega
  have hbig : 10 ^ rest.length ≤ (Python.intOfLiteral digits).natAbs := by
    rw [hvalue, List.foldl_cons]
    calc 10 ^ rest.length
        ≤ (10 * 0 + (c.toNat - 0x30)) * 10 ^ rest.length :=
          Nat.le_mul_of_pos_left _ (by omega)
      _ ≤ _ := le_foldl_digits rest _
  have hbeyond : integerRange ≤ 10 ^ rest.length :=
    Nat.le_trans (Nat.sub_le _ _) (two_pow_le_ten_pow hlength)
  exact absurd hrange (Nat.not_lt.mpr (Nat.le_trans hbeyond hbig))

/-- Literals of the grammar are none of the three words. -/
theorem readNumber_literal (interp : Interpreter) {digits : List UInt8}
    (h : Json.NumberLiteral digits) :
    interp.readNumber digits =
      if Python.isInteger digits then .int (Python.intOfLiteral digits)
      else .float (interp.float digits) := by
  have hletter : ∀ c ∈ digits, c ≠ 0x61 ∧ c ≠ 0x6E := by
    intro c hc
    rcases h.chars c hc with hc | rfl | rfl | rfl | rfl | rfl
    · constructor
      · rintro rfl
        exact absurd hc (by decide)
      · rintro rfl
        exact absurd hc (by decide)
    all_goals decide
  have hnan : digits ≠ Python.nanLiteral := fun heq =>
    (hletter 0x61 (heq ▸ by decide)).1 rfl
  have hinfinity : digits ≠ Python.infinityLiteral := fun heq =>
    (hletter 0x6E (heq ▸ by decide)).2 rfl
  have hnegative : digits ≠ 0x2D :: Python.infinityLiteral := fun heq =>
    (hletter 0x6E (heq ▸ by decide)).2 rfl
  rw [Interpreter.readNumber, if_neg hnan, if_neg hinfinity, if_neg hnegative]

/-! ## Values -/

/-- An `int` and the double C++ reads in its place. -/
structure IntAlike (interp : Interpreter) (value : Int) (number : Cpp.Double) : Prop where
  finite : number.isFinite = true
  range : value.natAbs < integerRange
  equal : NumberEqual (interp.ofInt value) number
  one : number = Cpp.doubleOne ↔ value = 1

/-- The same value for both sides.  The members of an object are sorted in C++. -/
inductive JsonAlike (interp : Interpreter) : PyJson → Cpp.JsonValue → Prop
  | null : JsonAlike interp .none .null
  | bool (value : Bool) : JsonAlike interp (.bool value) (.bool value)
  | int {value : Int} {number : Cpp.Double} (h : IntAlike interp value number) :
      JsonAlike interp (.int value) (.number number)
  | float {number : Cpp.Double} (h : number.isFinite = true) :
      JsonAlike interp (.float number) (.number number)
  | str {value : Python.Str} {octets : Cpp.ByteString} (h : TextAlike value octets) :
      JsonAlike interp (.str value) (.string octets)
  | list {elements : List PyJson} {elements' : List Cpp.JsonValue}
      (h : List.Forall₂ (JsonAlike interp) elements elements') :
      JsonAlike interp (.list elements) (.array elements')
  | dict {items : List (Python.Str × PyJson)}
    {entries sorted : List (Cpp.ByteString × Cpp.JsonValue)}
      (hkeys : List.Forall₂ TextAlike (items.map Prod.fst) (entries.map Prod.fst))
      (hvalues : List.Forall₂ (JsonAlike interp) (items.map Prod.snd) (entries.map Prod.snd))
      (hdistinct : (items.map Prod.fst).Nodup) (hsorted : sorted.Perm entries) :
      JsonAlike interp (.dict items) (.object sorted)

theorem number_alike {interp : Interpreter} {format : Cpp.NumberFormat}
    (hconvert : ConvertAlike interp format) {digits : List UInt8} (h : Json.NumberLiteral digits)
    (hfinite : Cpp.FiniteLiteral format digits) :
    JsonAlike interp (interp.readNumber digits) (.number (format.strtod digits).1) := by
  rw [readNumber_literal interp h]
  by_cases hinteger : Python.isInteger digits = true
  · rw [if_pos hinteger]
    have hrange := (hconvert.range digits h hinteger).mp hfinite.2
    exact .int ⟨hfinite.2, hrange, hconvert.ofInt digits h hinteger hrange,
      hconvert.one digits h hinteger⟩
  · rw [if_neg hinteger, hconvert.float digits h (Bool.not_eq_true _ ▸ hinteger)]
    exact .float hfinite.2

/-! ## The trees both sides read -/

theorem readElements_eq_some {interp : Interpreter} {trees : List Python.Tree}
    {values : List PyJson} :
    interp.readElements trees = some values ↔
      List.Forall₂ (fun tree value => interp.read tree = some value) trees values := by
  induction trees generalizing values with
  | nil =>
      rw [Interpreter.readElements, List.forall₂_nil_left_iff, Option.some.injEq]
      exact eq_comm
  | cons tree rest ih =>
      rw [Interpreter.readElements, Option.bind_eq_some_iff, List.forall₂_cons_left_iff]
      simp only [Option.map_eq_some_iff, ih]
      constructor
      · rintro ⟨value, hvalue, others, hothers, rfl⟩
        exact ⟨value, others, hvalue, hothers, rfl⟩
      · rintro ⟨value, others, hvalue, hothers, rfl⟩
        exact ⟨value, hvalue, others, hothers, rfl⟩

/-- An item of a dictionary is the name and the value of its member. -/
def ReadsMember (interp : Interpreter) (member : Python.Member) (item : Python.Str × PyJson) :
    Prop :=
  Interpreter.readString member.1 = item.1 ∧ interp.read member.2 = some item.2

theorem readMembers_eq_some {interp : Interpreter} {members : List Python.Member}
    {items : List (Python.Str × PyJson)} :
    interp.readMembers members = some items ↔
      List.Forall₂ (ReadsMember interp) members items := by
  induction members generalizing items with
  | nil =>
      rw [Interpreter.readMembers, List.forall₂_nil_left_iff, Option.some.injEq]
      exact eq_comm
  | cons member rest ih =>
      rw [Interpreter.readMembers, Option.bind_eq_some_iff, List.forall₂_cons_left_iff]
      simp only [Option.map_eq_some_iff, ih]
      constructor
      · rintro ⟨value, hvalue, others, hothers, rfl⟩
        exact ⟨_, others, ⟨rfl, hvalue⟩, hothers, rfl⟩
      · rintro ⟨⟨key, value⟩, others, ⟨rfl, hvalue⟩, hothers, rfl⟩
        exact ⟨value, hvalue, others, hothers, rfl⟩

/-- The literals and numbers are such that both sides read them alike. -/
structure Common (interp : Interpreter) (format : Cpp.NumberFormat) (tree : Python.Tree) :
    Prop where
  numbers : tree.Numbers fun digits =>
    Json.NumberLiteral digits ∧ Cpp.FiniteLiteral format digits
  literals : tree.Literals fun units =>
    Json.LegalUnits interp.dialect units ∧ PlainUnits units ∧ Json.Paired units

section Common

variable {interp : Interpreter} {format : Cpp.NumberFormat}

theorem Common.element {elements : List Python.Tree} (h : Common interp format (.array elements))
    {tree : Python.Tree} (htree : tree ∈ elements) : Common interp format tree where
  numbers := Json.numbers_array.mp h.numbers tree htree
  literals := Json.literals_array.mp h.literals tree htree

theorem Common.member {members : List Python.Member} (h : Common interp format (.object members))
    {member : Python.Member} (hmember : member ∈ members) : Common interp format member.2 where
  numbers := Json.numbers_object.mp h.numbers member hmember
  literals := (Json.literals_object.mp h.literals member hmember).2

/-- A common literal is the same string for both sides, and its octets are UTF-8. -/
theorem common_literal {units : List (Json.StringUnit Python.CodePoint)}
    (h : Json.LegalUnits interp.dialect units ∧ PlainUnits units ∧ Json.Paired units) :
    TextAlike (Interpreter.readString units) (Cpp.denoteString (octetUnits units)) ∧
      Utf8.WellFormed (Json.spellUnits Cpp.rfc8259 (octetUnits units)) ∧
      Json.Paired (octetUnits units) := by
  obtain ⟨hlegal, hplain, hpaired⟩ := h
  have htext := textAlike_readString hlegal hplain hpaired
  have hlegal' := (Json.units_respell (respells_utf8 interp) hlegal).1
  have hpaired' := (Json.paired_respell (respells_utf8 interp) units).mpr hpaired
  obtain ⟨chars, -, hchars⟩ := Python.encodeUtf8_eq_ok_iff.mp htext
  refine ⟨htext, (Cpp.wellFormed_spellUnits_iff hlegal' hpaired').mpr ?_, hpaired'⟩
  rw [← Cpp.denoteString, hchars]
  exact ⟨chars, rfl⟩

theorem Common.name {members : List Python.Member} (h : Common interp format (.object members))
    {member : Python.Member} (hmember : member ∈ members) :
    TextAlike (Interpreter.readString member.1) (Cpp.denoteString (octetUnits member.1)) ∧
      Utf8.WellFormed (Json.spellUnits Cpp.rfc8259 (octetUnits member.1)) ∧
      Json.Paired (octetUnits member.1) :=
  common_literal (Json.literals_object.mp h.literals member hmember).1

end Common

/-- What a traversal relates holds of the second list, with what is known of the first. -/
theorem forall₂_of_mem {α β : Type} {p : α → Prop} {R : α → β → Prop} {Q : β → α → Prop}
    {l : List α} {l' : List β} (h : List.Forall₂ R l l') (hall : ∀ a ∈ l, p a)
    (himp : ∀ a b, p a → R a b → Q b a) : List.Forall₂ Q l' l :=
  (List.Forall₂.imp (fun a b hab => himp a b hab.1 hab.2)
    (List.forall₂_and_left l l' |>.mpr ⟨hall, h⟩)).flip

section ReadAlike

variable {interp : Interpreter} {format : Cpp.NumberFormat}

theorem denoteElements_eq_map (trees : List Cpp.Tree) :
    Cpp.denoteElements format trees = trees.map (Cpp.denote format) := by
  induction trees with
  | nil => rfl
  | cons tree rest ih => rw [Cpp.denoteElements, ih, List.map_cons]

theorem denoteMembers_eq_map (members : List Cpp.Member) :
    Cpp.denoteMembers format members =
      members.map fun member => (Cpp.denoteString member.1, Cpp.denote format member.2) := by
  induction members with
  | nil => rfl
  | cons member rest ih => rw [Cpp.denoteMembers, ih, List.map_cons]

/-- The names of an object that was read, on both sides. -/
theorem names_alike {members : List Python.Member} {items : List (Python.Str × PyJson)}
    (h : Common interp format (.object members))
    (hreads : List.Forall₂ (ReadsMember interp) members items) :
    List.Forall₂ TextAlike (items.map Prod.fst)
      (Cpp.memberKeys (octetMembers members)) := by
  rw [octetMembers_eq_map, Cpp.memberKeys, List.map_map, List.forall₂_map_left_iff,
    List.forall₂_map_right_iff]
  refine forall₂_of_mem hreads (fun member hmember => (h.name hmember).1) ?_
  intro member item htext hitem
  exact hitem.1 ▸ htext

/-- Both sides read the tree, or neither does, and as the same value. -/
structure ReadAlike (interp : Interpreter) (format : Cpp.NumberFormat) (tree : Python.Tree) :
    Prop where
  read : Cpp.Acceptable format (octetTree tree) → ∃ value, interp.read tree = some value
  alike : ∀ value, interp.read tree = some value → Cpp.Acceptable format (octetTree tree) ∧
    JsonAlike interp value (Cpp.denote format (octetTree tree))

theorem readAlike_array {elements : List Python.Tree}
    (h : ∀ tree ∈ elements, ReadAlike interp format tree) :
    ReadAlike interp format (.array elements) := by
  have hgood : Cpp.Acceptable format (octetTree (.array elements)) ↔
      ∀ tree ∈ elements, Cpp.Acceptable format (octetTree tree) := by
    rw [octetTree_array, Cpp.acceptable_array, List.forall_mem_map]
  constructor
  · intro hacceptable
    obtain ⟨values, hvalues⟩ := exists_forall₂ fun tree htree =>
      (h tree htree).read (hgood.mp hacceptable tree htree)
    exact ⟨.list values, by rw [Interpreter.read, readElements_eq_some.mpr hvalues]; rfl⟩
  · intro value hvalue
    obtain ⟨values, hvalues, rfl⟩ := Option.map_eq_some_iff.mp hvalue
    have hreads := readElements_eq_some.mp hvalues
    constructor
    · refine hgood.mpr fun tree htree => ?_
      obtain ⟨value, -, hread⟩ := exists_partner hreads htree
      exact ((h tree htree).alike value hread).1
    · rw [octetTree_array, Cpp.denote, denoteElements_eq_map, List.map_map]
      refine .list (List.forall₂_map_right_iff.mpr ?_)
      exact forall₂_of_mem hreads h fun tree value hstep hread => (hstep.alike value hread).2

theorem acceptable_members {members : List Python.Member}
    (h : Common interp format (.object members)) :
    Cpp.Acceptable format (octetTree (.object members)) ↔
      (∀ member ∈ members, Cpp.Acceptable format (octetTree member.2)) ∧
        (Cpp.memberKeys (octetMembers members)).Nodup := by
  rw [octetTree_object, Cpp.acceptable_object, Cpp.AcceptableMembers,
    octetMembers_eq_map, List.forall_mem_map]
  refine and_congr_left fun _ => forall₂_congr fun member hmember => ?_
  obtain ⟨-, hutf8, hpaired⟩ := h.name hmember
  exact ⟨fun hall => hall.2.2, fun hvalue => ⟨hutf8, hpaired, hvalue⟩⟩

theorem entries_alike {members : List Python.Member} {items : List (Python.Str × PyJson)}
    (hcommon : Common interp format (.object members))
    (h : ∀ member ∈ members, ReadAlike interp format member.2)
    (hreads : List.Forall₂ (ReadsMember interp) members items)
    (hdistinct : (items.map Prod.fst).Nodup) :
    JsonAlike interp (.dict items) (Cpp.denote format (octetTree (.object members))) := by
  have hnames := names_alike hcommon hreads
  have hkeys : (Cpp.denoteMembers format (octetMembers members)).map Prod.fst =
      Cpp.memberKeys (octetMembers members) := by
    rw [denoteMembers_eq_map, List.map_map]
    rfl
  have hdistinct' := (List.rel_nodup biUnique_textAlike hnames).mp hdistinct
  have hsorted : (insertEntries (∅ : Cpp.MemberMap)
      (Cpp.denoteMembers format (octetMembers members))).toList.Perm
        (Cpp.denoteMembers format (octetMembers members)) :=
    toList_insertEntries_perm (hkeys ▸ hdistinct') fun _ _ => ExtTreeMap.not_mem_empty
  rw [octetTree_object, Cpp.denote]
  refine .dict (hkeys ▸ hnames) ?_ hdistinct hsorted
  rw [denoteMembers_eq_map, octetMembers_eq_map, List.map_map, List.map_map,
    List.forall₂_map_left_iff, List.forall₂_map_right_iff]
  exact forall₂_of_mem hreads h fun member item hstep hread => (hstep.alike item.2 hread.2).2

theorem readAlike_object {members : List Python.Member}
    (hcommon : Common interp format (.object members))
    (h : ∀ member ∈ members, ReadAlike interp format member.2) :
    ReadAlike interp format (.object members) := by
  have hgood := acceptable_members hcommon
  constructor
  · intro hacceptable
    obtain ⟨hvalues, hdistinct⟩ := hgood.mp hacceptable
    obtain ⟨items, hreads⟩ : ∃ items, List.Forall₂ (ReadsMember interp) members items := by
      refine exists_forall₂ fun member hmember => ?_
      obtain ⟨value, hvalue⟩ := (h member hmember).read (hvalues member hmember)
      exact ⟨(_, value), rfl, hvalue⟩
    have hnames := names_alike hcommon hreads
    have hkeys := (List.rel_nodup biUnique_textAlike hnames).mpr hdistinct
    refine ⟨.dict items, ?_⟩
    rw [Interpreter.read, readMembers_eq_some.mpr hreads]
    exact if_pos hkeys
  · intro value hvalue
    obtain ⟨items, hitems, hdict⟩ := Option.bind_eq_some_iff.mp hvalue
    have hreads := readMembers_eq_some.mp hitems
    split at hdict
    next hkeys =>
      obtain rfl := Option.some.inj hdict
      have hnames := names_alike hcommon hreads
      have hdistinct := (List.rel_nodup biUnique_textAlike hnames).mp hkeys
      refine ⟨hgood.mpr ⟨fun member hmember => ?_, hdistinct⟩,
        entries_alike hcommon h hreads hkeys⟩
      obtain ⟨item, -, hread⟩ := exists_partner hreads hmember
      exact ((h member hmember).alike item.2 hread.2).1
    next => cases hdict

/-- A leaf: Python reads it, and C++ as the same value. -/
theorem readAlike_leaf {tree : Python.Tree} {value : PyJson} (hread : interp.read tree = some value)
    (hgood : Cpp.Acceptable format (octetTree tree))
    (halike : JsonAlike interp value (Cpp.denote format (octetTree tree))) :
    ReadAlike interp format tree where
  read _ := ⟨value, hread⟩
  alike value' hvalue' := by
    rw [hread] at hvalue'
    obtain rfl := Option.some.inj hvalue'
    exact ⟨hgood, halike⟩

/-- **A common tree is read alike.** -/
theorem read_alike (hconvert : ConvertAlike interp format) (tree : Python.Tree) :
    Common interp format tree → ReadAlike interp format tree := by
  induction tree using Json.Tree.induction with
  | null => exact fun _ => readAlike_leaf rfl Cpp.acceptable_null .null
  | bool flag => exact fun _ => readAlike_leaf rfl Cpp.acceptable_bool (.bool flag)
  | number digits =>
      intro h
      obtain ⟨hliteral, hfinite⟩ := Json.numbers_number.mp h.numbers
      exact readAlike_leaf rfl (Cpp.acceptable_number.mpr hfinite)
        (number_alike hconvert hliteral hfinite)
  | string units =>
      intro h
      obtain ⟨htext, hutf8, hpaired⟩ := common_literal (Json.literals_string.mp h.literals)
      exact readAlike_leaf rfl (Cpp.acceptable_string.mpr ⟨hutf8, hpaired⟩) (.str htext)
  | array elements ih =>
      exact fun h => readAlike_array fun tree htree => ih tree htree (h.element htree)
  | object members ih =>
      exact fun h => readAlike_object h fun member hmember => ih member hmember (h.member hmember)

end ReadAlike

/-! ## Documents -/

/-- What the parser of C++ asks of a document beyond `json.loads`. -/
structure Strict (format : Cpp.NumberFormat) (tree : Python.Tree) : Prop where
  /-- Numbers are those of the grammar, and finite. -/
  numbers : tree.Numbers fun digits =>
    Json.NumberLiteral digits ∧ Cpp.FiniteLiteral format digits
  /-- Surrogate escapes come in pairs. -/
  paired : tree.Literals Json.Paired

section Documents

variable {interp : Interpreter} {format : Cpp.NumberFormat} {document : Python.Str}
  {octets : Cpp.ByteString}

/-- The literals of a document are legal, and hold no surrogate where it holds none. -/
theorem common_of_strict (hdocument : ∀ c ∈ document, isSurrogate c = false) {tree : Python.Tree}
    (htext : Json.IsText interp.dialect tree document) (hstrict : Strict format tree) :
    Common interp format tree where
  numbers := hstrict.numbers
  literals := by
    obtain ⟨before, body, after, rfl, -, hspells, -⟩ := htext
    intro node hnode units hunits
    obtain ⟨hlegal, hpiece⟩ := hspells.literals node hnode units hunits
    refine ⟨hlegal, fun c hc => hdocument c ?_, hstrict.paired node hnode units hunits⟩
    have hmem : c ∈ Json.spellUnits interp.dialect units :=
      List.mem_flatMap.mpr ⟨.raw c, hc, List.mem_singleton_self c⟩
    exact List.mem_append_left _ (List.mem_append_right _ (hpiece hmem))

theorem numbers_imp {α : Type} {P Q : List UInt8 → Prop} {tree : Json.Tree α}
    (h : tree.Numbers P) (himp : ∀ digits, P digits → Q digits) : tree.Numbers Q :=
  fun node hnode digits heq => himp digits (h node hnode digits heq)

/-- Python reads every number C++ does. -/
theorem readable_of_finite (hconvert : ConvertAlike interp format) {digits : List UInt8}
    (h : Json.NumberLiteral digits ∧ Cpp.FiniteLiteral format digits) :
    Json.Readable interp.dialect digits := by
  refine ⟨.inl ⟨h.1, fun hinteger => ?_⟩, h.1.ascii⟩
  exact readsInt_of_range hconvert.intDigits h.1 hinteger
    ((hconvert.range digits h.1 hinteger).mp h.2.2)

/-- **A document the parser of C++ accepts is a strict one.** -/
theorem exists_strict (hconvert : ConvertAlike interp format) {tree' : Cpp.Tree}
    (htext : Json.IsText Cpp.rfc8259 tree' (document.flatMap encodeCodePoint))
    (hgood : Cpp.Acceptable format tree') :
    ∃ tree, tree' = octetTree tree ∧ Json.IsText interp.dialect tree document ∧
      Strict format tree := by
  have hnumbers : tree'.Numbers fun digits =>
      Json.NumberLiteral digits ∧ Cpp.FiniteLiteral format digits := by
    obtain ⟨before, body, after, -, -, hspells, -⟩ := htext
    intro node hnode digits heq
    exact ⟨hspells.numbers node hnode digits heq, (hgood node hnode).finite digits heq⟩
  obtain ⟨tree, rfl, hdocument⟩ := htext.of_respelled (respells_utf8 interp)
    (numbers_imp hnumbers fun _ => readable_of_finite hconvert)
  refine ⟨tree, rfl, hdocument, (Json.numbers_respell encodeCodePoint tree).mp hnumbers, ?_⟩
  have hpaired : (octetTree tree).Literals Json.Paired := fun node hnode units hunits =>
    (hgood node hnode).paired units hunits
  intro node hnode units hunits
  have hoctets := (Json.literals_respell encodeCodePoint tree).mp hpaired node hnode units hunits
  exact (Json.paired_respell (respells_utf8 interp) units).mp hoctets

/-- **Both parsers accept a strict document, or neither does, and with the same value.** -/
theorem parseJson_alike (hconvert : ConvertAlike interp format)
    (hencode : encodeUtf8 document = .ok octets) :
    (∀ value', Cpp.parseJson format octets = .ok value' →
      ∃ tree value, Json.IsText interp.dialect tree document ∧ Strict format tree ∧
        interp.read tree = some value ∧ JsonAlike interp value value') ∧
      ∀ tree value, Json.IsText interp.dialect tree document → Strict format tree →
        interp.read tree = some value →
          ∃ value', Cpp.parseJson format octets = .ok value' ∧ JsonAlike interp value value' := by
  obtain ⟨chars, rfl, hchars⟩ := Python.encodeUtf8_eq_ok_iff.mp hencode
  have hplain : ∀ c ∈ Python.ofChars chars, isSurrogate c = false := by
    intro c hc
    obtain ⟨char, -, rfl⟩ := List.mem_map.mp hc
    exact Python.isSurrogate_codePoint char
  have hoctets : octets = (Python.ofChars chars).flatMap encodeCodePoint := by
    rw [hchars, Python.ofChars, List.flatMap_map, Utf8.encode]
    exact List.flatMap_congr fun char _ => (Python.encodeCodePoint_codePoint char).symm
  subst hoctets
  constructor
  · intro value' hparse
    obtain ⟨tree', htext, hgood, rfl⟩ := Cpp.parseJson_eq_ok.mp hparse
    obtain ⟨tree, rfl, hdocument, hstrict⟩ := exists_strict hconvert htext hgood
    have hboth := read_alike hconvert tree (common_of_strict hplain hdocument hstrict)
    obtain ⟨value, hvalue⟩ := hboth.read hgood
    exact ⟨tree, value, hdocument, hstrict, hvalue, (hboth.alike value hvalue).2⟩
  · intro tree value hdocument hstrict hvalue
    have hboth := read_alike hconvert tree (common_of_strict hplain hdocument hstrict)
    obtain ⟨hgood, halike⟩ := hboth.alike value hvalue
    have htext := hdocument.respell (respells_utf8 interp)
      (numbers_imp hstrict.numbers fun digits h => ⟨h.1, h.1.ascii⟩)
    exact ⟨_, Cpp.parseJson_eq_ok.mpr ⟨octetTree tree, htext, hgood, rfl⟩, halike⟩

end Documents

end DynamicProperties
