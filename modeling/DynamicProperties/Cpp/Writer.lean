import DynamicProperties.Cpp.Parser
import DynamicProperties.Library.Mirror

/-!
# What the writer writes

`encodeCollectionJson` spells a parse tree: each string by escapes and raw octets,
the revision by its digits, the properties by members without white space in
between.  The tree denotes what was written, so reading the document back is a
matter of the decoder alone.
-/

namespace DynamicProperties.Cpp

open Std
open DynamicProperties.Library
open DynamicProperties.Library.Fallible
open DynamicProperties.Library.Mirror
open DynamicProperties.Library.OrderedMap

/-! ## Escapes -/

/-- How `escapeJson` writes an octet. -/
def unitOf (c : UInt8) : Json.StringUnit UInt8 :=
  if c = 0x22 then .escape 0x22
  else if c = 0x5C then .escape 0x5C
  else if c = 0x08 then .escape 0x62
  else if c = 0x0C then .escape 0x66
  else if c = 0x0A then .escape 0x6E
  else if c = 0x0D then .escape 0x72
  else if c = 0x09 then .escape 0x74
  else if c < 0x20 then .unicode [0x30, 0x30, hexDigit (c >>> 4), hexDigit (c &&& 0x0F)]
  else .raw c

def unitsOf (value : ByteString) : List (Json.StringUnit UInt8) := value.map unitOf

/-- What `unitOf` guarantees: a legal unit that spells the escape and is read back as
the octet, and no surrogate. -/
structure EscapedAs (c : UInt8) (unit : Json.StringUnit UInt8) : Prop where
  legal : unit.Legal rfc8259
  spell : unit.spell rfc8259 = escapeByte c
  paired : ∀ rest, Json.Paired (unit :: rest) ↔ Json.Paired rest
  decode : ∀ rest, denoteString (unit :: rest) = c :: denoteString rest

private theorem escapedAs_letter {c letter : UInt8}
    (hcode : Json.escapeCode letter = some c.toNat) (hspell : escapeByte c = [0x5C, letter])
    (hc : c.toNat < 0x80) : EscapedAs c (.escape letter) where
  legal := by
    show (Json.escapeCode letter).isSome = true
    rw [hcode]
    rfl
  spell := by rw [Json.StringUnit.spell, token_rfc8259, hspell]
  paired _ := Iff.rfl
  decode rest := by
    show writeUtf8 ((Json.escapeCode letter).getD 0) ++ denoteString rest = _
    rw [hcode]
    show writeUtf8 c.toNat ++ denoteString rest = _
    rw [writeUtf8_ascii hc, UInt8.ofNat_toNat]
    rfl

/-- The digits of a control character that has no letter. -/
private theorem control_digits (n : Fin 32) :
    let digits := [0x30, 0x30, hexDigit (UInt8.ofNat n >>> 4), hexDigit (UInt8.ofNat n &&& 0x0F)]
    digits.all (fun d => (Json.hexDigit? d).isSome) = true ∧ Json.codeUnit digits = n := by
  revert n
  decide

theorem escapedAs_unitOf (c : UInt8) : EscapedAs c (unitOf c) := by
  unfold unitOf
  by_cases hquote : c = 0x22
  · subst hquote
    exact escapedAs_letter rfl rfl (by decide)
  rw [if_neg hquote]
  by_cases hbackslash : c = 0x5C
  · subst hbackslash
    exact escapedAs_letter rfl rfl (by decide)
  rw [if_neg hbackslash]
  by_cases hb : c = 0x08
  · subst hb
    exact escapedAs_letter rfl rfl (by decide)
  rw [if_neg hb]
  by_cases hf : c = 0x0C
  · subst hf
    exact escapedAs_letter rfl rfl (by decide)
  rw [if_neg hf]
  by_cases hn : c = 0x0A
  · subst hn
    exact escapedAs_letter rfl rfl (by decide)
  rw [if_neg hn]
  by_cases hr : c = 0x0D
  · subst hr
    exact escapedAs_letter rfl rfl (by decide)
  rw [if_neg hr]
  by_cases ht : c = 0x09
  · subst ht
    exact escapedAs_letter rfl rfl (by decide)
  rw [if_neg ht]
  have hescape : escapeByte c = if c < 0x20 then
      text "\\u00" ++ [hexDigit (c >>> 4), hexDigit (c &&& 0x0F)] else [c] := by
    rw [escapeByte, if_neg hquote, if_neg hbackslash, if_neg hb, if_neg hf, if_neg hn, if_neg hr,
      if_neg ht]
  by_cases hcontrol : c < 0x20
  · rw [if_pos hcontrol] at hescape ⊢
    have hsmall : c.toNat < 32 := UInt8.lt_iff_toNat_lt.mp hcontrol
    obtain ⟨hdigits, hcode⟩ := control_digits ⟨c.toNat, hsmall⟩
    simp only [UInt8.ofNat_toNat] at hdigits hcode
    have hhigh : ¬ Json.IsHigh c.toNat := fun h => by
      have hle : 0xD800 ≤ c.toNat := h.1
      omega
    have hlow : ¬ Json.IsLow c.toNat := fun h => by
      have hle : 0xDC00 ≤ c.toNat := h.1
      omega
    refine ⟨⟨rfl, List.all_eq_true.mp hdigits⟩, ?_, fun rest => ?_, fun rest => ?_⟩
    · rw [hescape]
      rfl
    · rw [Json.paired_unicode (by rw [hcode]; exact hhigh), hcode]
      exact and_iff_right hlow
    · unfold denoteString
      rw [Json.decodeUnits_unicode (by rw [hcode]; exact hhigh), hcode,
        writeUtf8_ascii (by omega), UInt8.ofNat_toNat]
      rfl
  · rw [if_neg hcontrol] at hescape ⊢
    refine ⟨?_, hescape.symm, fun _ => Iff.rfl, fun _ => rfl⟩
    intro octet hoctet
    obtain rfl : c = octet := hoctet
    exact ⟨UInt8.not_lt.mp hcontrol, hquote, hbackslash⟩

section Units

variable (value : ByteString)

theorem legalUnits_unitsOf : Json.LegalUnits rfc8259 (unitsOf value) := by
  intro unit hunit
  obtain ⟨c, -, rfl⟩ := List.mem_map.mp hunit
  exact (escapedAs_unitOf c).legal

theorem paired_unitsOf : Json.Paired (unitsOf value) := by
  induction value with
  | nil => trivial
  | cons c rest ih => exact ((escapedAs_unitOf c).paired _).mpr ih

theorem denoteString_unitsOf : denoteString (unitsOf value) = value := by
  induction value with
  | nil => rfl
  | cons c rest ih =>
      show denoteString (unitOf c :: unitsOf rest) = _
      rw [(escapedAs_unitOf c).decode, ih]

theorem spellUnits_unitsOf : Json.spellUnits rfc8259 (unitsOf value) = escapeJson value := by
  induction value with
  | nil => rfl
  | cons c rest ih =>
      show Json.spellUnits rfc8259 (unitOf c :: unitsOf rest) = _
      rw [Json.spellUnits_cons, (escapedAs_unitOf c).spell, ih]
      rfl

theorem literal_unitsOf : Json.literal rfc8259 (unitsOf value) = quoted value := by
  rw [literal_rfc8259, spellUnits_unitsOf]
  rfl

/-- A written string is well-formed if the string is. -/
theorem wellFormed_unitsOf {value : ByteString} (h : Utf8.WellFormed value) :
    Utf8.WellFormed (Json.spellUnits rfc8259 (unitsOf value)) := by
  rw [wellFormed_spellUnits_iff (legalUnits_unitsOf value) (paired_unitsOf value)]
  show Utf8.WellFormed (denoteString (unitsOf value))
  rw [denoteString_unitsOf]
  exact h

end Units

/-! ## Integers -/

theorem encodeChar_digit {c : Char} (h : c.isDigit = true) :
    String.utf8EncodeChar c = [UInt8.ofNat c.toNat] ∧ Json.IsDigit (UInt8.ofNat c.toNat) := by
  obtain ⟨hlow, hhigh⟩ := Char.isDigit_iff_toNat.mp h
  have hlow : 48 ≤ c.toNat := hlow
  have hhigh : c.toNat ≤ 57 := hhigh
  refine ⟨Utf8.encodeChar_ascii (by omega), ?_, ?_⟩
  · rw [UInt8.le_iff_toNat_le, UInt8.toNat_ofNat']
    show 48 ≤ _
    omega
  · rw [UInt8.le_iff_toNat_le, UInt8.toNat_ofNat']
    show _ ≤ 57
    omega

theorem digits_encode {chars : List Char} (hne : chars ≠ []) (h : ∀ c ∈ chars, c.isDigit = true) :
    Json.Digits (Utf8.encode chars) := by
  constructor
  · obtain ⟨c, rest, rfl⟩ := List.exists_cons_of_ne_nil hne
    rw [Utf8.encode_cons, (encodeChar_digit (h c (by simp))).1]
    exact List.cons_ne_nil _ _
  · intro octet hoctet
    obtain ⟨c, hc, hmem⟩ := List.mem_flatMap.mp hoctet
    obtain ⟨heq, hdigit⟩ := encodeChar_digit (h c hc)
    rw [heq, List.mem_singleton] at hmem
    rw [hmem]
    exact hdigit

/-- No zero comes first in the digits of a positive number. -/
theorem head_toDigits {n : Nat} (h : 0 < n) : (Nat.toDigits 10 n).head? ≠ some '0' := by
  induction n using Nat.strongRecOn with
  | ind n ih =>
      rw [Nat.toDigits_eq_if (by decide)]
      split
      next hsmall =>
        have hdigit : ∀ n < 10, 0 < n → [n.digitChar].head? ≠ some '0' := by decide
        exact hdigit n hsmall h
      next hlarge =>
        rw [List.head?_append_of_ne_nil _ Nat.toDigits_ne_nil]
        exact ih (n / 10) (by omega) (by omega)

theorem decimal_eq_encode (n : UInt64) : decimal n = Utf8.encode (Nat.toDigits 10 n.toNat) := by
  rw [decimal, text_eq_encode, Nat.toString_eq_repr, Nat.toList_repr]

/-- Printed digits are an integer of the grammar. -/
theorem integer_toDigits (n : Nat) : Json.Integer (Utf8.encode (Nat.toDigits 10 n)) := by
  have hdigits : ∀ c ∈ Nat.toDigits 10 n, c.isDigit = true := fun c hc =>
    Nat.isDigit_of_mem_toDigits (by decide) (by decide) hc
  by_cases hzero : n = 0
  · rw [hzero]
    exact .inl rfl
  · refine .inr ⟨digits_encode Nat.toDigits_ne_nil hdigits, fun hhead => ?_⟩
    have hfirst := head_toDigits (Nat.pos_of_ne_zero hzero)
    obtain ⟨c, rest, hcons⟩ := List.exists_cons_of_ne_nil
      (Nat.toDigits_ne_nil (n := n) (b := 10))
    rw [hcons] at hhead hfirst hdigits
    obtain ⟨heq, -⟩ := encodeChar_digit (hdigits c (by simp))
    rw [Utf8.encode_cons, heq, List.singleton_append, List.head?_cons] at hhead
    have hcode : c.toNat % 256 = 48 := by
      rw [← UInt8.toNat_ofNat', Option.some.inj hhead]
      rfl
    have hhigh : c.toNat ≤ 57 := (Char.isDigit_iff_toNat.mp (hdigits c (by simp))).2
    have hchar : c = '0' := Char.toNat_inj.mp (show c.toNat = 48 by omega)
    exact hfirst (by rw [hchar]; rfl)

/-- A printed integer is an integer of the grammar. -/
theorem integer_decimal (n : UInt64) : Json.Integer (decimal n) := by
  rw [decimal_eq_encode]
  exact integer_toDigits n.toNat

theorem numberLiteral_integer {octets : ByteString} (h : Json.Integer octets) :
    Json.NumberLiteral octets :=
  ⟨[], octets, [], [], by simp, .inl rfl, h, .inl rfl, .inl rfl⟩

/-! ## The document -/

/-- What the codec relies on in the C locale: a finite double is printed as a number
literal that `strtod` maps back to it, and `strtod` reads an integer to its end, as a
finite number; the integer 1 is the double 1. -/
structure CLocale (format : NumberFormat) : Prop where
  print : ∀ value : Double, value.isFinite = true →
    Json.NumberLiteral (format.print17 value) ∧
      format.strtod (format.print17 value) = (value, [])
  integer : ∀ n : UInt64, FiniteLiteral format (decimal n)
  one : (format.strtod (decimal 1)).1 = doubleOne

section Trees

variable (format : NumberFormat)

/-- A value as the writer spells it. -/
def valueTree : DynamicPropertyValue → Tree
  | .bool entry => .bool entry
  | .number entry => .number (format.print17 entry)
  | .string entry => .string (unitsOf entry)
  | .vector3 entry => .array [.number (format.print17 entry.x), .number (format.print17 entry.y),
      .number (format.print17 entry.z)]

/-- An object as the writer spells it. -/
def writtenObject (entries : List (ByteString × Tree)) : Tree :=
  .object (entries.map fun entry => (unitsOf entry.1, entry.2))

def entryTree (value : DynamicPropertyValue) : Tree :=
  writtenObject [(text "type", .string (unitsOf (valueTypeName value))),
    (text "value", valueTree format value)]

def propertiesTree (properties : DynamicPropertyMap) : Tree :=
  writtenObject (properties.toList.map fun entry => (entry.1, entryTree format entry.2))

def documentTree (ref : CollectionRef) (properties : DynamicPropertyMap) (revision : UInt64) :
    Tree :=
  writtenObject [(text "schema", .number (decimal 1)),
    (text "target", .string (unitsOf (describeTarget ref.target))),
    (text "collection", .string (unitsOf ref.collection)),
    (text "revision", .number (decimal revision)),
    (text "properties", propertiesTree format properties)]

end Trees

/-! ### Phrases without white space -/

section Compact

variable {tree : Tree} {trees : List Tree} {members : List Member} {octets rest : ByteString}

theorem spells_lastElement (htree : Json.Spells rfc8259 (.value tree) octets) :
    Json.Spells rfc8259 (.elements [tree]) octets := by
  have hnil : Json.Space [] := nofun
  simpa using Json.Spells.lastElement hnil htree hnil

theorem spells_element (htree : Json.Spells rfc8259 (.value tree) octets)
    (hrest : Json.Spells rfc8259 (.elements trees) rest) :
    Json.Spells rfc8259 (.elements (tree :: trees)) (octets ++ [0x2C] ++ rest) := by
  have hnil : Json.Space [] := nofun
  simpa using Json.Spells.element hnil htree hnil hrest

theorem spells_lastMember (key : ByteString) (htree : Json.Spells rfc8259 (.value tree) octets) :
    Json.Spells rfc8259 (.members [(unitsOf key, tree)]) (quoted key ++ [0x3A] ++ octets) := by
  have hnil : Json.Space [] := nofun
  have h := Json.Spells.lastMember hnil (legalUnits_unitsOf key) hnil hnil htree hnil
  rw [literal_unitsOf] at h
  simpa using h

theorem spells_member (key : ByteString) (htree : Json.Spells rfc8259 (.value tree) octets)
    (hrest : Json.Spells rfc8259 (.members members) rest) :
    Json.Spells rfc8259 (.members ((unitsOf key, tree) :: members))
      (quoted key ++ [0x3A] ++ octets ++ [0x2C] ++ rest) := by
  have hnil : Json.Space [] := nofun
  have h := Json.Spells.member hnil (legalUnits_unitsOf key) hnil hnil htree hnil hrest
  rw [literal_unitsOf] at h
  simpa using h

theorem spells_array (h : Json.Spells rfc8259 (.elements trees) octets) :
    Json.Spells rfc8259 (.value (.array trees)) ([0x5B] ++ octets ++ [0x5D]) := by
  simpa using Json.Spells.array h

theorem spells_object (h : Json.Spells rfc8259 (.members members) octets) :
    Json.Spells rfc8259 (.value (.object members)) ([0x7B] ++ octets ++ [0x7D]) := by
  simpa using Json.Spells.object h

theorem spells_string (value : ByteString) :
    Json.Spells rfc8259 (.value (.string (unitsOf value))) (quoted value) := by
  have h := Json.Spells.string (legalUnits_unitsOf value)
  rwa [literal_unitsOf] at h

theorem spells_number {digits : ByteString} (h : Json.NumberLiteral digits) :
    Json.Spells rfc8259 (.value (.number digits)) digits := by
  have hnumber : Json.Spells rfc8259 (.value (.number digits)) (rfc8259.token digits) := .number h
  rwa [token_rfc8259] at hnumber

end Compact

/-! ### The parts of a document -/

/-- Every number of the value is finite and its string is UTF-8. -/
def Encodable : DynamicPropertyValue → Prop
  | .bool _ => True
  | .number entry => entry.isFinite = true
  | .string entry => Utf8.WellFormed entry
  | .vector3 entry =>
      entry.x.isFinite = true ∧ entry.y.isFinite = true ∧ entry.z.isFinite = true

/-- Every key is UTF-8 and every value can be written. -/
def EncodableMap (properties : DynamicPropertyMap) : Prop :=
  ∀ entry ∈ properties.toList, Utf8.WellFormed entry.1 ∧ Encodable entry.2

section Spelling

variable {format : NumberFormat} (hlocale : CLocale format)
include hlocale

theorem spells_encodeValue {value : DynamicPropertyValue} (h : Encodable value) :
    Json.Spells rfc8259 (.value (valueTree format value)) (encodeValue format value) := by
  cases value with
  | bool entry =>
      have hbool : Json.Spells rfc8259 (.value (.bool entry))
          (rfc8259.token (Json.boolText entry)) :=
        .bool entry
      rw [token_rfc8259] at hbool
      cases entry <;> exact hbool
  | number entry => exact spells_number (hlocale.print entry h).1
  | string entry => exact spells_string entry
  | vector3 entry =>
      obtain ⟨hx, hy, hz⟩ := h
      have harray := spells_array (spells_element (spells_number (hlocale.print entry.x hx).1)
        (spells_element (spells_number (hlocale.print entry.y hy).1)
          (spells_lastElement (spells_number (hlocale.print entry.z hz).1))))
      simp only [List.append_assoc] at harray
      simp only [encodeValue, List.append_assoc]
      exact harray

theorem spells_encodeProperty (key : ByteString) {value : DynamicPropertyValue}
    (h : Encodable value) :
    ∃ octets, Json.Spells rfc8259 (.value (entryTree format value)) octets ∧
      encodeProperty format key value = quoted key ++ [0x3A] ++ octets := by
  refine ⟨_, spells_object (spells_member (text "type") (spells_string (valueTypeName value))
    (spells_lastMember (text "value") (spells_encodeValue hlocale h))), ?_⟩
  simp only [encodeProperty, field, List.append_assoc]
  rfl

/-- The properties, with commas in between. -/
theorem spells_properties {entries : List (ByteString × DynamicPropertyValue)} (hne : entries ≠ [])
    (h : ∀ entry ∈ entries, Encodable entry.2) :
    Json.Spells rfc8259
      (.members (entries.map fun entry => (unitsOf entry.1, entryTree format entry.2)))
      ((text ",").intercalate (entries.map fun entry =>
        encodeProperty format entry.1 entry.2)) := by
  induction entries with
  | nil => exact absurd rfl hne
  | cons entry rest ih =>
      obtain ⟨octets, hspells, htext⟩ := spells_encodeProperty hlocale entry.1 (h entry (by simp))
      cases rest with
      | nil =>
          have hlast := spells_lastMember entry.1 hspells
          rw [← htext] at hlast
          simpa using hlast
      | cons next rest =>
          have hrest := ih (List.cons_ne_nil _ _) fun other hother => h other (by simp [hother])
          have hmember := spells_member entry.1 hspells hrest
          rw [← htext] at hmember
          simp only [List.map_cons, List.intercalate_cons_cons] at hmember ⊢
          exact hmember

theorem spells_propertiesTree {properties : DynamicPropertyMap} (h : EncodableMap properties) :
    Json.Spells rfc8259 (.value (propertiesTree format properties))
      ([0x7B] ++ (text ",").intercalate (properties.toList.map fun entry =>
        encodeProperty format entry.1 entry.2) ++ [0x7D]) := by
  by_cases hempty : properties.toList = []
  · rw [propertiesTree, hempty]
    have hobject : Json.Spells rfc8259 (.value (.object []))
        (rfc8259.token ([0x7B] ++ [] ++ [0x7D])) :=
      .emptyObject nofun
    rwa [token_rfc8259] at hobject
  · rw [propertiesTree, writtenObject, List.map_map]
    exact spells_object (spells_properties hlocale hempty fun entry hentry => (h entry hentry).2)

/-- The document is a JSON text of its tree. -/
theorem isText_encodeCollectionJson (ref : CollectionRef) {properties : DynamicPropertyMap}
    (h : EncodableMap properties) (revision : UInt64) :
    Json.IsText rfc8259 (documentTree format ref properties revision)
      (encodeCollectionJson format ref properties revision) := by
  have hone := spells_number (numberLiteral_integer (integer_decimal 1))
  have hrevision := spells_number (numberLiteral_integer (integer_decimal revision))
  have hroot := spells_object (spells_member (text "schema") hone
    (spells_member (text "target") (spells_string (describeTarget ref.target))
      (spells_member (text "collection") (spells_string ref.collection)
        (spells_member (text "revision") hrevision
          (spells_lastMember (text "properties") (spells_propertiesTree hlocale h))))))
  refine ⟨[], _, [], ?_, nofun, hroot, nofun⟩
  simp only [encodeCollectionJson, field, token_rfc8259, List.nil_append, List.append_nil,
    List.append_assoc]
  rfl

end Spelling

/-! ### Its value -/

section Value

variable {format : NumberFormat}

/-- The value of a written object has the entries in the order of their keys. -/
theorem denote_writtenObject {entries sorted : List (ByteString × Tree)}
    (hperm : sorted.Perm entries)
    (hsorted : (sorted.map Prod.fst).Pairwise fun a b => compare a b = .lt) :
    denote format (writtenObject entries) =
      .object (sorted.map fun entry => (entry.1, denote format entry.2)) := by
  have hmembers : ∀ entries : List (ByteString × Tree),
      denoteMembers format (entries.map fun entry => (unitsOf entry.1, entry.2)) =
        entries.map fun entry => (entry.1, denote format entry.2) := by
    intro entries
    induction entries with
    | nil => rfl
    | cons entry rest ih =>
        rw [List.map_cons, denoteMembers, denoteString_unitsOf, ih]
        rfl
  have hlist := toList_insertEntries_empty
    (hperm.map fun entry => (entry.1, denote format entry.2))
    (List.pairwise_map.mpr (List.pairwise_map.mp hsorted))
  rw [writtenObject, denote, hmembers, hlist]

theorem acceptable_unitsOf {value : ByteString} (h : Utf8.WellFormed value) :
    Acceptable format (.string (unitsOf value)) :=
  acceptable_string.mpr ⟨wellFormed_unitsOf h, paired_unitsOf value⟩

theorem acceptable_writtenObject {entries : List (ByteString × Tree)}
    (hentries : ∀ entry ∈ entries, Utf8.WellFormed entry.1 ∧ Acceptable format entry.2)
    (hdistinct : (entries.map Prod.fst).Nodup) :
    Acceptable format (writtenObject entries) := by
  have hkeys : memberKeys (entries.map fun entry => (unitsOf entry.1, entry.2)) =
      entries.map Prod.fst := by
    rw [memberKeys, List.map_map]
    exact List.map_congr_left fun entry _ => denoteString_unitsOf entry.1
  refine acceptable_object.mpr ⟨fun member hmember => ?_, by rw [hkeys]; exact hdistinct⟩
  obtain ⟨entry, hentry, rfl⟩ := List.mem_map.mp hmember
  obtain ⟨hkey, hvalue⟩ := hentries entry hentry
  exact ⟨wellFormed_unitsOf hkey, paired_unitsOf _, hvalue⟩

variable (hlocale : CLocale format)
include hlocale

theorem acceptable_print {value : Double} (h : value.isFinite = true) :
    Acceptable format (.number (format.print17 value)) := by
  rw [acceptable_number, FiniteLiteral, (hlocale.print value h).2]
  exact ⟨rfl, h⟩

theorem denote_print {value : Double} (h : value.isFinite = true) :
    denote format (.number (format.print17 value)) = .number value := by
  rw [denote, (hlocale.print value h).2]

theorem acceptable_valueTree {value : DynamicPropertyValue} (h : Encodable value) :
    Acceptable format (valueTree format value) := by
  cases value with
  | bool entry => exact acceptable_bool
  | number entry => exact acceptable_print hlocale h
  | string entry => exact acceptable_unitsOf h
  | vector3 entry =>
      obtain ⟨hx, hy, hz⟩ := h
      refine acceptable_array.mpr ?_
      simp only [List.forall_mem_cons]
      exact ⟨acceptable_print hlocale hx, acceptable_print hlocale hy, acceptable_print hlocale hz,
        nofun⟩

theorem acceptable_entryTree {value : DynamicPropertyValue} (h : Encodable value) :
    Acceptable format (entryTree format value) := by
  have hname : Utf8.WellFormed (valueTypeName value) := by
    cases value <;> exact wellFormed_text _
  refine acceptable_writtenObject ?_ (show [text "type", text "value"].Nodup by decide)
  simp only [List.forall_mem_cons]
  exact ⟨⟨wellFormed_text _, acceptable_unitsOf hname⟩,
    ⟨wellFormed_text _, acceptable_valueTree hlocale h⟩, nofun⟩

omit hlocale in
theorem decodeEntry_object (type : ByteString) (value : JsonValue) :
    decodeEntry (.object [(text "type", .string type), (text "value", value)]) =
      decodeTyped type value := rfl

/-- The decoder reads an entry back. -/
theorem decodeEntry_entryTree {value : DynamicPropertyValue} (h : Encodable value) :
    decodeEntry (denote format (entryTree format value)) = .ok value := by
  have hsorted : [text "type", text "value"].Pairwise fun a b => compare a b = .lt := by decide
  rw [entryTree, denote_writtenObject (.refl _) (by exact hsorted)]
  show decodeEntry (.object [(text "type", .string (denoteString (unitsOf (valueTypeName value)))),
    (text "value", denote format (valueTree format value))]) = _
  rw [denoteString_unitsOf, decodeEntry_object]
  cases value with
  | bool entry => rfl
  | number entry =>
      rw [valueTree, denote_print hlocale h]
      show (if entry.isFinite then Except.ok _ else _) = _
      exact if_pos h
  | string entry =>
      show Except.ok (DynamicPropertyValue.string (denoteString (unitsOf entry))) = _
      rw [denoteString_unitsOf]
  | vector3 entry =>
      obtain ⟨hx, hy, hz⟩ := h
      show decodeTyped (text "vector3") (.array [denote format (.number (format.print17 entry.x)),
        denote format (.number (format.print17 entry.y)),
        denote format (.number (format.print17 entry.z))]) = _
      rw [denote_print hlocale hx, denote_print hlocale hy, denote_print hlocale hz]
      rfl

theorem acceptable_documentTree {ref : CollectionRef}
    (htarget : Utf8.WellFormed (describeTarget ref.target))
    (hcollection : Utf8.WellFormed ref.collection) {properties : DynamicPropertyMap}
    (h : EncodableMap properties) (revision : UInt64) :
    Acceptable format (documentTree format ref properties revision) := by
  have hproperties : Acceptable format (propertiesTree format properties) := by
    refine acceptable_writtenObject (fun entry hentry => ?_) ?_
    · obtain ⟨property, hproperty, rfl⟩ := List.mem_map.mp hentry
      obtain ⟨hkey, hvalue⟩ := h property hproperty
      exact ⟨hkey, acceptable_entryTree hlocale hvalue⟩
    · rw [List.map_map]
      exact nodup_of_sorted ExtTreeMap.ordered_keys_toList
  refine acceptable_writtenObject ?_ (show [text "schema", text "target", text "collection",
    text "revision", text "properties"].Nodup by decide)
  simp only [List.forall_mem_cons]
  exact ⟨⟨wellFormed_text _, acceptable_number.mpr (hlocale.integer 1)⟩,
    ⟨wellFormed_text _, acceptable_unitsOf htarget⟩,
    ⟨wellFormed_text _, acceptable_unitsOf hcollection⟩,
    ⟨wellFormed_text _, acceptable_number.mpr (hlocale.integer revision)⟩,
    ⟨wellFormed_text _, hproperties⟩, nofun⟩

end Value

/-! ### Reading the properties back -/

theorem insertIfNew_of_notMem {m : DynamicPropertyMap} {key : ByteString}
    (value : DynamicPropertyValue) (h : key ∉ m) :
    m.insertIfNew key value = m.insert key value := by
  apply ExtTreeMap.ext_getElem?
  intro other
  rw [ExtTreeMap.getElem?_insertIfNew, ExtTreeMap.getElem?_insert]
  by_cases heq : compare key other = .eq
  · rw [if_pos ⟨heq, h⟩, if_pos heq]
  · rw [if_neg fun hboth => heq hboth.1, if_neg heq]

/-- The loop over the properties inserts the decoded entries. -/
theorem decodeProperties_eq_ok {entries : List (ByteString × JsonValue)}
    (hdistinct : (entries.map Prod.fst).Nodup) {m result : DynamicPropertyMap}
    (hnew : ∀ entry ∈ entries, entry.1 ∉ m) :
    decodeProperties entries m = .ok result ↔
      ∃ decoded, List.Forall₂ (EntriesRelated Eq fun data value => decodeEntry data = .ok value)
        entries decoded ∧ result = insertEntries m decoded := by
  induction entries generalizing m with
  | nil =>
      simp only [decodeProperties, List.forall₂_nil_left_iff, exists_eq_left, Except.ok.injEq]
      exact eq_comm
  | cons entry rest ih =>
      obtain ⟨key, data⟩ := entry
      obtain ⟨hfirst, hrest⟩ := List.nodup_cons.mp hdistinct
      have hfresh : ∀ value, ∀ other ∈ rest, other.1 ∉ m.insert key value := by
        intro value other hother hmem
        rcases ExtTreeMap.mem_insert.mp hmem with heq | hold
        · obtain rfl : key = other.1 := LawfulEqCmp.eq_of_compare heq
          exact hfirst (List.mem_map.mpr ⟨other, hother, rfl⟩)
        · exact hnew other (List.mem_cons_of_mem _ hother) hold
      have hinsert : ∀ value, m.insertIfNew key value = m.insert key value := fun value =>
        insertIfNew_of_notMem value (hnew (key, data) List.mem_cons_self)
      rw [decodeProperties, bind_eq_ok]
      constructor
      · rintro ⟨value, hvalue, hloop⟩
        rw [hinsert value, ih hrest (hfresh value)] at hloop
        obtain ⟨decoded, hdecoded, rfl⟩ := hloop
        exact ⟨(key, value) :: decoded, .cons ⟨rfl, hvalue⟩ hdecoded, rfl⟩
      · rintro ⟨decoded, hdecoded, rfl⟩
        obtain ⟨⟨key', value⟩, others, ⟨hkey, hvalue⟩, hothers, rfl⟩ :=
          List.forall₂_cons_left_iff.mp hdecoded
        obtain rfl : key = key' := hkey
        refine ⟨value, hvalue, ?_⟩
        rw [hinsert value, ih hrest (hfresh value)]
        exact ⟨others, hothers, rfl⟩

/-- The root of a document for an import: schema 1, no field but the allowed ones, and
properties. -/
structure ImportRoot (root items : List (ByteString × JsonValue)) : Prop where
  allowed : ∀ entry ∈ root, entry.1 ∈ allowedRootFields
  schema : member root "schema" = some (.number doubleOne)
  properties : member root "properties" = some (.object items)

/-- The root is taken apart field by field. -/
theorem decodeCollectionJson_eq_ok {format : NumberFormat} {document : ByteString}
    {properties : DynamicPropertyMap} :
    decodeCollectionJson format document = .ok properties ↔
      ∃ root items, parseJson format document = .ok (.object root) ∧ ImportRoot root items ∧
        decodeProperties items ∅ = .ok properties := by
  have hallowed : ∀ root : List (ByteString × JsonValue),
      (root.find? fun entry => !allowedRootFields.contains entry.1) = none ↔
        ∀ entry ∈ root, entry.1 ∈ allowedRootFields := by
    intro root
    simp [List.find?_eq_none]
  unfold decodeCollectionJson
  constructor
  · intro h
    obtain ⟨value, hparse, h⟩ := bind_eq_ok.mp h
    split at h
    next root =>
      split at h
      next => cases h
      next hfields =>
        split at h
        next schema hschema =>
          split at h
          next => cases h
          next hone =>
            split at h
            next items hitems =>
              rw [not_not.mp hone] at hschema
              exact ⟨root, items, hparse, ⟨(hallowed root).mp hfields, hschema, hitems⟩, h⟩
            next => cases h
        next => cases h
    next => cases h
  · rintro ⟨root, items, hparse, hroot, h⟩
    refine bind_eq_ok.mpr ⟨_, hparse, ?_⟩
    dsimp only
    rw [(hallowed root).mpr hroot.allowed, hroot.schema, hroot.properties]
    exact h

theorem decodeCollectionJson_encode {format : NumberFormat} (hlocale : CLocale format)
    {ref : CollectionRef} (htarget : Utf8.WellFormed (describeTarget ref.target))
    (hcollection : Utf8.WellFormed ref.collection) {properties : DynamicPropertyMap}
    (h : EncodableMap properties) (revision : UInt64) :
    decodeCollectionJson format (encodeCollectionJson format ref properties revision) =
      .ok properties := by
  have hparse := parseJson_eq_ok.mpr ⟨_, isText_encodeCollectionJson hlocale ref h revision,
    acceptable_documentTree hlocale htarget hcollection h revision, rfl⟩
  have hsorted : [text "collection", text "properties", text "revision", text "schema",
      text "target"].Pairwise fun a b => compare a b = .lt := by decide
  have hperm : ∀ schema target collection revision properties : ByteString × Tree,
      [collection, properties, revision, schema, target].Perm
        [schema, target, collection, revision, properties] :=
    fun schema target collection revision properties =>
      have hswap : ([collection, properties, revision] ++ [schema, target]).Perm
        ([schema, target] ++ [collection, properties, revision]) := List.perm_append_comm
      hswap.trans (.append_left [schema, target] (.cons collection (.swap revision properties [])))
  have hkeys : (properties.toList.map fun entry => (entry.1, entryTree format entry.2)).map Prod.fst
      = properties.toList.map Prod.fst := by
    rw [List.map_map]
    rfl
  rw [documentTree, denote_writtenObject (hperm _ _ _ _ _) (by exact hsorted)] at hparse
  have hproperties : denote format (propertiesTree format properties) =
      .object (properties.toList.map fun entry =>
        (entry.1, denote format (entryTree format entry.2))) := by
    rw [propertiesTree, denote_writtenObject (.refl _) (by
      rw [hkeys]
      exact List.pairwise_map.mpr ExtTreeMap.ordered_keys_toList), List.map_map]
    rfl
  have hone : denote format (.number (decimal 1)) = .number doubleOne := by
    rw [denote, hlocale.one]
  simp only [List.map_cons, List.map_nil, hproperties, hone] at hparse
  have hdecoded : List.Forall₂ (EntriesRelated Eq fun data value => decodeEntry data = .ok value)
      (properties.toList.map fun entry => (entry.1, denote format (entryTree format entry.2)))
      properties.toList :=
    List.forall₂_map_left_iff.mpr <| List.forall₂_same.mpr fun entry hentry =>
      ⟨rfl, decodeEntry_entryTree hlocale (h entry hentry).2⟩
  have hfields : ∀ name ∈ [text "collection", text "properties", text "revision", text "schema",
      text "target"], name ∈ allowedRootFields := by decide
  refine decodeCollectionJson_eq_ok.mpr
    ⟨_, _, hparse, ⟨List.forall_mem_map.mp (by exact hfields), rfl, rfl⟩, ?_⟩
  refine (decodeProperties_eq_ok ?_ fun entry _ => ExtTreeMap.not_mem_empty).mpr
    ⟨properties.toList, hdecoded, insertEntries_toList.symm⟩
  rw [List.map_map]
  exact nodup_of_sorted ExtTreeMap.ordered_keys_toList

/-! ## The round trip -/

/-- The codec gives back every map of well-formed keys and writable values. -/
theorem collection_codec_roundTrips {format : NumberFormat} (hlocale : CLocale format)
    (ref : CollectionRef) (htarget : Utf8.WellFormed (describeTarget ref.target))
    (hcollection : Utf8.WellFormed ref.collection) (properties : DynamicPropertyMap)
    (hproperties : ∀ key value, properties[key]? = some value →
      Utf8.WellFormed key ∧ Encodable value) (revision : UInt64) :
    decodeCollectionJson format (encodeCollectionJson format ref properties revision) =
      .ok properties :=
  decodeCollectionJson_encode hlocale htarget hcollection
    (fun entry hentry => hproperties entry.1 entry.2
      (ExtTreeMap.mem_toList_iff_getElem?_eq_some.mp hentry)) revision

/-- Conversions that satisfy the assumptions: 1 as the C library writes and reads it,
the other doubles by their bits behind a decimal point. -/
def bitsFormat : NumberFormat where
  print17 value := if value = doubleOne then [0x31] else [0x30, 0x2E] ++ decimal value.bits
  strtod octets :=
    match octets with
    | 0x30 :: 0x2E :: digits =>
        (⟨UInt64.ofNat (digits.foldl (fun n c => 10 * n + (c.toNat - 48)) 0)⟩, [])
    | [0x31] => (doubleOne, [])
    | _ => (⟨0⟩, [])

/-- The digits of an integer have its value. -/
theorem foldl_decimal (n : UInt64) :
    (decimal n).foldl (fun n c => 10 * n + (c.toNat - 48)) 0 = n.toNat := by
  have hencode : ∀ (chars : List Char) (init : Nat), (∀ c ∈ chars, c.isDigit = true) →
      (Utf8.encode chars).foldl (fun n c => 10 * n + (c.toNat - 48)) init =
        Nat.ofDigitChars 10 chars init := by
    intro chars
    induction chars with
    | nil => exact fun init _ => Nat.ofDigitChars_nil.symm
    | cons c chars ih =>
        intro init h
        obtain ⟨heq, -⟩ := encodeChar_digit (h c (by simp))
        have hhigh : c.toNat ≤ 57 := (Char.isDigit_iff_toNat.mp (h c (by simp))).2
        have hvalue : (UInt8.ofNat c.toNat).toNat = c.toNat := UInt8.toNat_ofNat_of_lt' (by
          show c.toNat < 256
          omega)
        rw [Utf8.encode_cons, heq, List.singleton_append, List.foldl_cons,
          ih _ fun other hother => h other (by simp [hother]), Nat.ofDigitChars_cons, hvalue]
        rfl
  rw [decimal_eq_encode, hencode _ _ fun c hc =>
    Nat.isDigit_of_mem_toDigits (by decide) (by decide) hc, Nat.ofDigitChars_ten_toDigits]

theorem digits_decimal (n : UInt64) : Json.Digits (decimal n) := by
  rw [decimal_eq_encode]
  exact digits_encode Nat.toDigits_ne_nil fun c hc =>
    Nat.isDigit_of_mem_toDigits (by decide) (by decide) hc

theorem cLocale_bitsFormat : CLocale bitsFormat where
  print value _ := by
    unfold bitsFormat
    simp only
    by_cases hone : value = doubleOne
    · rw [if_pos hone, hone]
      exact ⟨numberLiteral_integer (integer_decimal 1), rfl⟩
    · rw [if_neg hone]
      refine ⟨⟨[], [0x30], 0x2E :: decimal value.bits, [], by simp, .inl rfl, .inl rfl,
        .inr ⟨_, rfl, digits_decimal _⟩, .inl rfl⟩, ?_⟩
      show ((⟨UInt64.ofNat ((decimal value.bits).foldl (fun n c => 10 * n + (c.toNat - 48)) 0)⟩ :
        Double), ([] : ByteString)) = _
      rw [foldl_decimal, UInt64.ofNat_toNat]
  integer n := by
    unfold FiniteLiteral bitsFormat
    simp only
    split
    next digits hdigits =>
      have hpoint := (digits_decimal n).2 0x2E (by rw [hdigits]; simp)
      exact absurd hpoint (by decide)
    next => decide
    next => decide
  one := rfl

theorem collection_codec_roundTrips_sample :
    decodeCollectionJson bitsFormat (encodeCollectionJson bitsFormat ⟨{}, text "plugin:state"⟩
        ((∅ : DynamicPropertyMap).insert (text "line\n") (.number doubleOne)) 1) =
      .ok ((∅ : DynamicPropertyMap).insert (text "line\n") (.number doubleOne)) := by
  have htarget : describeTarget {} = text "world:default" := rfl
  refine collection_codec_roundTrips cLocale_bitsFormat ⟨{}, text "plugin:state"⟩
    (htarget ▸ wellFormed_text _) (wellFormed_text _) _ (fun key value h => ?_) 1
  rw [ExtTreeMap.getElem?_insert] at h
  split at h
  next hkey =>
    cases h
    rw [← LawfulEqCmp.eq_of_compare hkey]
    exact ⟨wellFormed_text _, rfl⟩
  next => rw [ExtTreeMap.getElem?_empty] at h; cases h

end DynamicProperties.Cpp
