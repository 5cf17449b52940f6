import DynamicProperties.Cpp.Utf8
import DynamicProperties.Python.Model

/-!
# Python strings and their UTF-8

A `str` that UTF-8 can encode is a text: the code points of Unicode characters.
`encodeUtf8_eq_ok_iff` relates the three ways the development has to write one: as
characters, as code points and as octets.
-/

namespace DynamicProperties.Python

open DynamicProperties.Library

/-- The code point of a character. -/
def codePoint (c : Char) : CodePoint := Fin.ofNat 0x110000 c.toNat

/-- A text as a `str`. -/
def ofChars (chars : List Char) : Str := chars.map codePoint

theorem codePoint_val (c : Char) : (codePoint c).val = c.toNat := by
  have hvalid : c.toNat < 0x110000 := by
    rcases c.valid with h | h
    · exact Nat.lt_trans h (by decide)
    · exact h.2
  exact Nat.mod_eq_of_lt hvalid

theorem codePoint_injective : Function.Injective codePoint := by
  intro c c' h
  have hval : c.toNat = c'.toNat := by rw [← codePoint_val, ← codePoint_val, h]
  exact Char.toNat_inj.mp hval

theorem isSurrogate_codePoint (c : Char) : isSurrogate (codePoint c) = false := by
  have hval := codePoint_val c
  have hvalid : c.toNat < 0xD800 ∨ 0xDFFF < c.toNat ∧ c.toNat < 0x110000 := c.valid
  rw [isSurrogate, hval, Bool.and_eq_false_iff, decide_eq_false_iff_not, decide_eq_false_iff_not]
  omega

/-- A code point that is no surrogate is a character. -/
theorem exists_codePoint {c : CodePoint} (h : isSurrogate c = false) :
    ∃ char : Char, codePoint char = c := by
  rw [isSurrogate, Bool.and_eq_false_iff, decide_eq_false_iff_not, decide_eq_false_iff_not] at h
  have hvalid : c.val.isValidChar := by
    have hlt := c.isLt
    rcases h with h | h
    · exact .inl (by omega)
    · exact .inr ⟨by omega, hlt⟩
  obtain ⟨char, hchar⟩ := Utf8.exists_char hvalid
  exact ⟨char, Fin.ext ((codePoint_val char).trans hchar)⟩

theorem encodeCodePoint_codePoint (c : Char) :
    encodeCodePoint (codePoint c) = String.utf8EncodeChar c := by
  have hword : UInt32.ofNat (codePoint c).val = c.val := by
    rw [codePoint_val]
    exact UInt32.ofNat_toNat
  rw [encodeCodePoint, hword, Cpp.appendUtf8_char, List.nil_append]

theorem encodeUtf8_ofChars (chars : List Char) :
    encodeUtf8 (ofChars chars) = .ok (Utf8.encode chars) := by
  have hplain : (ofChars chars).any isSurrogate = false := by
    rw [List.any_eq_false]
    intro c hc
    obtain ⟨char, -, rfl⟩ := List.mem_map.mp hc
    rw [isSurrogate_codePoint]
    exact Bool.false_ne_true
  have hoctets : (ofChars chars).flatMap encodeCodePoint = Utf8.encode chars := by
    rw [ofChars, List.flatMap_map, Utf8.encode]
    exact List.flatMap_congr fun c _ => encodeCodePoint_codePoint c
  rw [encodeUtf8, hplain, hoctets]
  rfl

/-- **What UTF-8 makes of a string.** -/
theorem encodeUtf8_eq_ok_iff {value : Str} {octets : Cpp.ByteString} :
    encodeUtf8 value = .ok octets ↔
      ∃ chars, value = ofChars chars ∧ octets = Utf8.encode chars := by
  constructor
  · intro h
    have hplain : ∀ c ∈ value, isSurrogate c = false := by
      unfold encodeUtf8 at h
      split at h
      · cases h
      next hnone =>
        rw [Bool.not_eq_true, List.any_eq_false] at hnone
        intro c hc
        simpa using hnone c hc
    obtain ⟨chars, rfl⟩ : ∃ chars, value = ofChars chars := by
      clear h
      induction value with
      | nil => exact ⟨[], rfl⟩
      | cons c value ih =>
          obtain ⟨char, hchar⟩ := exists_codePoint (hplain c List.mem_cons_self)
          obtain ⟨chars, hchars⟩ := ih fun d hd => hplain d (List.mem_cons_of_mem _ hd)
          exact ⟨char :: chars, by rw [ofChars, List.map_cons, hchar, hchars, ofChars]⟩
    rw [encodeUtf8_ofChars] at h
    exact ⟨chars, rfl, (Except.ok.inj h).symm⟩
  · rintro ⟨chars, rfl, rfl⟩
    exact encodeUtf8_ofChars chars

theorem ofChars_injective : Function.Injective ofChars :=
  List.map_injective_iff.mpr codePoint_injective

theorem ofChars_isPrefix_iff {first second : List Char} :
    ofChars first <+: ofChars second ↔ first <+: second := by
  constructor
  · rintro ⟨rest, hrest⟩
    obtain ⟨start, tail, rfl, hstart, -⟩ := List.map_eq_append_iff.mp hrest.symm
    exact ⟨tail, by rw [ofChars_injective hstart]⟩
  · exact fun h => h.map codePoint

/-- Different strings have different octets. -/
theorem encodeUtf8_inj {value value' : Str} {octets : Cpp.ByteString}
    (h : encodeUtf8 value = .ok octets) (h' : encodeUtf8 value' = .ok octets) :
    value = value' := by
  obtain ⟨chars, rfl, rfl⟩ := encodeUtf8_eq_ok_iff.mp h
  obtain ⟨chars', rfl, hsame⟩ := encodeUtf8_eq_ok_iff.mp h'
  rw [Utf8.encode_injective hsame]

/-- The octets of a literal. -/
theorem encodeUtf8_str (literal : String) : encodeUtf8 (str literal) = .ok (Cpp.text literal) :=
  encodeUtf8_eq_ok_iff.mpr ⟨literal.toList, rfl, Cpp.text_eq_encode literal⟩

end DynamicProperties.Python
