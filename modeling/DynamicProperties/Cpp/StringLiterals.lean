import DynamicProperties.Cpp.Scanner

/-!
# String literals

`parseString` against the grammar of a literal.  An escape is one character,
spelled by one unit or by a surrogate pair (`Escape`); the loop is followed
character by character.  Only the decoded string is checked for UTF-8, and that is
as good as checking the literal: an escape is ASCII in the text and a whole
character in the string, so it cannot hide half a character on either side
(`wellFormed_spellUnits_iff`).
-/

namespace DynamicProperties.Cpp

open DynamicProperties.Library
open DynamicProperties.Library.Fallible

/-- The octets of a code point. -/
def writeUtf8 (code : Nat) : ByteString := String.utf8EncodeChar (Char.ofNat code)

theorem appendUtf8_nil {n : Nat} {code : UInt32} (hcode : code.toNat = n) (h : n.isValidChar) :
    appendUtf8 [] code = writeUtf8 n := by
  have hval : (Char.ofNat n).val = code := by
    rw [← UInt32.toNat_inj, hcode, Char.ofNat, dif_pos h]
    rfl
  rw [← hval, appendUtf8_char, List.nil_append, writeUtf8]

/-- A code point below 0x80 is its own octet. -/
theorem writeUtf8_ascii {n : Nat} (h : n < 0x80) : writeUtf8 n = [UInt8.ofNat n] := by
  have hvalid : n.isValidChar := .inl (Nat.lt_trans h (by decide))
  have hchar : (Char.ofNat n).toNat = n := by
    rw [Char.ofNat, dif_pos hvalid]
    rfl
  rw [writeUtf8, Utf8.encodeChar_ascii (by rw [hchar]; exact h), hchar]

/-! ## Hexadecimal digits -/

/-- A digit counted from `base`, in both arithmetics. -/
private theorem toUInt32_digit {c base first : UInt8} (hbase : base ≤ c)
    (hsmall : first.toNat + (c.toNat - base.toNat) < 256) :
    (first + (c - base)).toUInt32 = UInt32.ofNat (c.toNat - base.toNat + first.toNat) := by
  rw [← UInt32.toNat_inj, UInt8.toNat_toUInt32, UInt8.toNat_add, UInt8.toNat_sub_of_le _ _ hbase,
    UInt32.toNat_ofNat']
  omega

theorem hexValue_eq (c : UInt8) : hexValue c = (Json.hexDigit? c).map UInt32.ofNat := by
  have hbound := c.toNat_lt
  unfold hexValue Json.hexDigit?
  simp only [Bool.and_eq_true, decide_eq_true_eq]
  by_cases hdecimal : 0x30 ≤ c ∧ c ≤ 0x39
  · rw [if_pos hdecimal, if_pos hdecimal, Option.map_some]
    have hle := UInt8.le_iff_toNat_le.mp hdecimal.2
    have hdigit : (0 + (c - 0x30)).toUInt32 = UInt32.ofNat (c.toNat - 48 + 0) :=
      toUInt32_digit hdecimal.1 (by
        show 0 + (c.toNat - 48) < 256
        omega)
    rw [UInt8.zero_add] at hdigit
    rw [hdigit]
    rfl
  rw [if_neg hdecimal, if_neg hdecimal]
  by_cases hlower : 0x61 ≤ c ∧ c ≤ 0x66
  · rw [if_pos hlower, if_pos hlower, Option.map_some]
    have hle : c.toNat ≤ 102 := UInt8.le_iff_toNat_le.mp hlower.2
    rw [toUInt32_digit hlower.1 (by
      show 10 + (c.toNat - 97) < 256
      omega)]
    rfl
  rw [if_neg hlower, if_neg hlower]
  by_cases hupper : 0x41 ≤ c ∧ c ≤ 0x46
  · rw [if_pos hupper, if_pos hupper, Option.map_some]
    have hle : c.toNat ≤ 70 := UInt8.le_iff_toNat_le.mp hupper.2
    rw [toUInt32_digit hupper.1 (by
      show 10 + (c.toNat - 65) < 256
      omega)]
    rfl
  rw [if_neg hupper, if_neg hupper, Option.map_none]

theorem hexDigit?_lt {c : UInt8} {digit : Nat}
    (h : Json.hexDigit? c = some digit) : digit < 16 := by
  unfold Json.hexDigit? at h
  simp only [UInt8.le_iff_toNat_le, UInt8.toNat_ofNat] at h
  split at h
  · cases h
    omega
  split at h
  · cases h
    omega
  split at h
  · cases h
    omega
  · cases h

/-- One more digit of a code unit. -/
private theorem toNat_shift_or {code digit : UInt32} (hcode : code.toNat < 2 ^ 28)
    (hdigit : digit.toNat < 16) :
    ((code <<< 4) ||| digit).toNat = code.toNat * 16 + digit.toNat := by
  have hshift : (code <<< 4).toNat = 2 ^ 4 * code.toNat := by
    rw [UInt32.toNat_shiftLeft]
    show code.toNat <<< 4 % 2 ^ 32 = _
    rw [Nat.shiftLeft_eq]
    omega
  rw [UInt32.toNat_or, hshift, ← Nat.two_pow_add_eq_or_of_lt hdigit]
  omega

/-- The digits of a code unit, as the grammar has them. -/
def HexDigits (digits : ByteString) : Prop := ∀ c ∈ digits, (Json.hexDigit? c).isSome = true

/-- The loop over the digits, from a code that still has room for them. -/
theorem parseHexDigits_eq_ok {n : Nat} {code result : UInt32} {cursor cursor' : Cursor}
    (hroom : (code.toNat + 1) * 16 ^ n ≤ 2 ^ 32) :
    parseHexDigits n code cursor = .ok (result, cursor') ↔
      ∃ digits, digits.length = n ∧ HexDigits digits ∧ Reads cursor digits cursor' ∧
        result.toNat =
          digits.foldl (fun code c => code * 16 + (Json.hexDigit? c).getD 0) code.toNat := by
  induction n generalizing code cursor with
  | zero =>
      constructor
      · intro h
        cases h
        exact ⟨[], rfl, fun _ hc => absurd hc List.not_mem_nil, .nil _, rfl⟩
      · rintro ⟨digits, hlength, -, hreads, hresult⟩
        obtain rfl := List.length_eq_zero_iff.mp hlength
        rw [hreads.of_nil, UInt32.toNat_inj.mp hresult]
        rfl
  | succ n ih =>
      have huncons : ∀ {digits : ByteString}, digits.length = n + 1 →
          Reads cursor digits cursor' → ∃ c tail, digits = c :: tail ∧ tail.length = n ∧
            cursor.rest = c :: (tail ++ cursor'.rest) ∧ Reads (cursor.advance 1) tail cursor' := by
        intro digits hlength hreads
        obtain ⟨c, tail, rfl⟩ := List.exists_cons_of_length_eq_add_one hlength
        exact ⟨c, tail, rfl, Nat.succ.inj hlength, hreads.uncons⟩
      unfold parseHexDigits
      split
      next hnil =>
        refine iff_of_false (fun h => by cases h) ?_
        rintro ⟨digits, hlength, -, hreads, -⟩
        obtain ⟨c, tail, -, -, hrest, -⟩ := huncons hlength hreads
        rw [hnil] at hrest
        cases hrest
      next c rest hrest =>
        rw [hexValue_eq]
        cases hdigit : Json.hexDigit? c with
        | none =>
            refine iff_of_false (fun h => by cases h) ?_
            rintro ⟨digits, hlength, hhex, hreads, -⟩
            obtain ⟨c', tail, rfl, -, hrest', -⟩ := huncons hlength hreads
            obtain rfl := (List.cons.inj (hrest.symm.trans hrest')).1
            have hsome := hhex c (by simp)
            rw [hdigit] at hsome
            cases hsome
        | some digit =>
            have hsmall := hexDigit?_lt hdigit
            have hvalue : (UInt32.ofNat digit).toNat = digit :=
              UInt32.toNat_ofNat_of_lt' (Nat.lt_trans hsmall (by decide))
            have hroom' : (code.toNat * 16 + digit + 1) * 16 ^ n ≤ 2 ^ 32 := calc
              (code.toNat * 16 + digit + 1) * 16 ^ n ≤ ((code.toNat + 1) * 16) * 16 ^ n :=
                Nat.mul_le_mul_right _ (by omega)
              _ = (code.toNat + 1) * 16 ^ (n + 1) := by rw [Nat.mul_assoc, Nat.pow_succ']
              _ ≤ 2 ^ 32 := hroom
            have hcode : code.toNat < 2 ^ 28 := by
              have hle : (code.toNat + 1) * 16 ≤ 2 ^ 32 :=
                Nat.le_trans (Nat.mul_le_mul_left _ (Nat.le_self_pow (Nat.succ_ne_zero n) 16)) hroom
              omega
            have hnext : ((code <<< 4) ||| UInt32.ofNat digit).toNat = code.toNat * 16 + digit := by
              rw [toNat_shift_or hcode (by rw [hvalue]; exact hsmall), hvalue]
            show parseHexDigits n _ _ = _ ↔ _
            rw [ih (by rw [hnext]; exact hroom'), hnext]
            constructor
            · rintro ⟨digits, hlength, hhex, hreads, hresult⟩
              refine ⟨c :: digits, by rw [List.length_cons, hlength], ?_, .cons hrest hreads, ?_⟩
              · exact List.forall_mem_cons.mpr ⟨by rw [hdigit]; rfl, hhex⟩
              · rw [hresult, List.foldl_cons, hdigit]
                rfl
            · rintro ⟨digits, hlength, hhex, hreads, hresult⟩
              obtain ⟨c', tail, rfl, htail, hrest', hreads'⟩ := huncons hlength hreads
              obtain rfl := (List.cons.inj (hrest.symm.trans hrest')).1
              refine ⟨tail, htail, (List.forall_mem_cons.mp hhex).2, hreads', ?_⟩
              rw [hresult, List.foldl_cons, hdigit]
              rfl

theorem parseUnicodeCodeUnit_eq_ok {code : UInt32} {cursor cursor' : Cursor} :
    parseUnicodeCodeUnit cursor = .ok (code, cursor') ↔
      ∃ digits, digits.length = 4 ∧ HexDigits digits ∧ Reads cursor digits cursor' ∧
        code.toNat = Json.codeUnit digits :=
  parseHexDigits_eq_ok (by decide)

theorem codeUnit_lt {digits : ByteString} (hlength : digits.length = 4) :
    Json.codeUnit digits < 0x10000 := by
  have hdigit : ∀ c, (Json.hexDigit? c).getD 0 < 16 := by
    intro c
    cases h : Json.hexDigit? c with
    | none => decide
    | some digit => exact hexDigit?_lt h
  have hfold : ∀ (digits : ByteString) (code : Nat),
      digits.foldl (fun code c => code * 16 + (Json.hexDigit? c).getD 0) code + 1 ≤
        (code + 1) * 16 ^ digits.length := by
    intro digits
    induction digits with
    | nil => intro code; simp
    | cons c digits ih =>
        intro code
        have hc := hdigit c
        have hstep := ih (code * 16 + (Json.hexDigit? c).getD 0)
        calc _ ≤ (code * 16 + (Json.hexDigit? c).getD 0 + 1) * 16 ^ digits.length := hstep
          _ ≤ ((code + 1) * 16) * 16 ^ digits.length := Nat.mul_le_mul_right _ (by omega)
          _ = (code + 1) * 16 ^ (c :: digits).length := by
              rw [Nat.mul_assoc, List.length_cons, Nat.pow_succ']
  have h := hfold digits 0
  rw [hlength] at h
  exact h

/-! ## Escapes -/

/-- The units that spell one character by an escape. -/
inductive Escape : List (Json.StringUnit UInt8) → Nat → Prop
  | letter {letter : UInt8} {code : Nat} (h : Json.escapeCode letter = some code) :
      Escape [.escape letter] code
  | unicode {digits : ByteString} (hlength : digits.length = 4) (hhex : HexDigits digits)
      (hhigh : ¬ Json.IsHigh (Json.codeUnit digits)) (hlow : ¬ Json.IsLow (Json.codeUnit digits)) :
      Escape [.unicode digits] (Json.codeUnit digits)
  | pair {digits digits' : ByteString} (hlength : digits.length = 4) (hhex : HexDigits digits)
      (hlength' : digits'.length = 4) (hhex' : HexDigits digits')
      (hhigh : Json.IsHigh (Json.codeUnit digits)) (hlow : Json.IsLow (Json.codeUnit digits')) :
      Escape [.unicode digits, .unicode digits']
        (Json.pairCode (Json.codeUnit digits) (Json.codeUnit digits'))

section Escapes

variable {units rest : List (Json.StringUnit UInt8)} {code : Nat}

theorem escapeCode_lt {letter : UInt8} (h : Json.escapeCode letter = some code) : code < 0x80 := by
  unfold Json.escapeCode at h
  repeat' split at h
  all_goals first | cases h; decide | cases h

theorem Escape.isValidChar (h : Escape units code) : code.isValidChar := by
  cases h with
  | letter h => exact .inl (Nat.lt_trans (escapeCode_lt h) (by decide))
  | unicode hlength hhex hhigh hlow =>
      have hlt := codeUnit_lt hlength
      simp only [Json.IsHigh, Json.IsLow] at hhigh hlow
      show _ ∨ _
      omega
  | pair hlength hhex hlength' hhex' hhigh hlow =>
      simp only [Json.IsHigh, Json.IsLow] at hhigh hlow
      show _ ∨ _
      unfold Json.pairCode
      omega

theorem Escape.legal (h : Escape units code) : Json.LegalUnits rfc8259 units := by
  cases h with
  | letter h => simp [Json.LegalUnits, Json.StringUnit.Legal, h]
  | unicode hlength hhex => simpa [Json.LegalUnits, Json.StringUnit.Legal] using ⟨hlength, hhex⟩
  | pair hlength hhex hlength' hhex' =>
      simpa [Json.LegalUnits, Json.StringUnit.Legal] using ⟨⟨hlength, hhex⟩, hlength', hhex'⟩

theorem Escape.paired (h : Escape units code) :
    Json.Paired (units ++ rest) ↔ Json.Paired rest := by
  cases h with
  | letter => rfl
  | unicode _ _ hhigh hlow => exact (Json.paired_unicode hhigh).trans (and_iff_right hlow)
  | pair _ _ _ _ hhigh hlow => exact (Json.paired_pair hhigh).trans (and_iff_right hlow)

theorem Escape.decode (h : Escape units code) :
    Json.decodeUnits writeUtf8 (units ++ rest) =
      writeUtf8 code ++ Json.decodeUnits writeUtf8 rest := by
  cases h with
  | letter h =>
      show writeUtf8 ((Json.escapeCode _).getD 0) ++ _ = _
      rw [h]
      rfl
  | unicode _ _ hhigh => exact Json.decodeUnits_unicode hhigh
  | pair _ _ _ _ hhigh hlow => exact Json.decodeUnits_pair hhigh hlow

/-- What an escape looks like in the text, after its backslash. -/
theorem Escape.spell (h : Escape units code) :
    ∃ tail, Json.spellUnits rfc8259 units = 0x5C :: tail := by
  cases h with
  | letter => exact ⟨_, rfl⟩
  | unicode => exact ⟨_, rfl⟩
  | pair => exact ⟨_, rfl⟩

end Escapes

/-- The code point of a pair, in the arithmetic of the source. -/
private theorem toNat_pair {high low : UInt32} (hhigh : Json.IsHigh high.toNat)
    (hlow : Json.IsLow low.toNat) :
    ((0x10000 : UInt32) + ((high - 0xD800) <<< 10) + (low - 0xDC00)).toNat =
      Json.pairCode high.toNat low.toNat := by
  obtain ⟨hhigh, hhigh'⟩ := hhigh
  obtain ⟨hlow, hlow'⟩ := hlow
  have hdiff : (high - 0xD800).toNat = high.toNat - 0xD800 :=
    UInt32.toNat_sub_of_le _ _ (UInt32.le_iff_toNat_le.mpr hhigh)
  have hdiff' : (low - 0xDC00).toNat = low.toNat - 0xDC00 :=
    UInt32.toNat_sub_of_le _ _ (UInt32.le_iff_toNat_le.mpr hlow)
  have hshift : ((high - 0xD800) <<< 10).toNat = (high.toNat - 0xD800) * 0x400 := by
    rw [UInt32.toNat_shiftLeft, hdiff]
    show (high.toNat - 0xD800) <<< 10 % 2 ^ 32 = _
    rw [Nat.shiftLeft_eq]
    omega
  rw [UInt32.toNat_add, UInt32.toNat_add, hshift, hdiff']
  show ((0x10000 + _) % 2 ^ 32 + _) % 2 ^ 32 = _
  unfold Json.pairCode
  omega

private theorem isHigh_iff {code : UInt32} :
    (0xD800 ≤ code ∧ code ≤ 0xDBFF) ↔ Json.IsHigh code.toNat := by
  simp only [UInt32.le_iff_toNat_le]
  rfl

private theorem isLow_iff {code : UInt32} :
    (0xDC00 ≤ code ∧ code ≤ 0xDFFF) ↔ Json.IsLow code.toNat := by
  simp only [UInt32.le_iff_toNat_le]
  rfl

private theorem not_isLow_iff {code : UInt32} :
    (code < 0xDC00 ∨ 0xDFFF < code) ↔ ¬ Json.IsLow code.toNat := by
  rw [← isLow_iff, Decidable.not_and_iff_or_not, UInt32.not_le, UInt32.not_le]

section UnicodeEscape

variable {bytes : ByteString} {cursor cursor' : Cursor}

/-- The `u` escape reads one code unit, or two that form a pair. -/
theorem parseUnicodeEscape_sound (h : parseUnicodeEscape cursor = .ok (bytes, cursor')) :
    ∃ units code octets, Escape units code ∧ bytes = writeUtf8 code ∧
      Json.spellUnits rfc8259 units = [0x5C, 0x75] ++ octets ∧ Reads cursor octets cursor' := by
  obtain ⟨⟨code, middle⟩, hunit, h⟩ := bind_eq_ok.mp h
  obtain ⟨digits, hlength, hhex, hreads, hcode⟩ := parseUnicodeCodeUnit_eq_ok.mp hunit
  simp only [isHigh_iff, isLow_iff, not_isLow_iff] at h
  split at h
  next hhigh =>
    split at h
    next => cases h
    next after hconsume =>
      have hescape : Reads middle [0x5C, 0x75] after := consume_eq_some.mp hconsume
      obtain ⟨⟨low, last⟩, hunit, h⟩ := bind_eq_ok.mp h
      obtain ⟨digits', hlength', hhex', hreads', hcode'⟩ := parseUnicodeCodeUnit_eq_ok.mp hunit
      simp only at h
      split at h
      next => cases h
      next hlow =>
        have hlow := Decidable.not_not.mp hlow
        have hpair := toNat_pair hhigh hlow
        cases h
        rw [hcode] at hhigh
        rw [hcode'] at hlow
        rw [hcode, hcode'] at hpair
        have hspelled : Escape [.unicode digits, .unicode digits'] _ :=
          .pair hlength hhex hlength' hhex' hhigh hlow
        refine ⟨_, _, _, hspelled, appendUtf8_nil hpair hspelled.isValidChar, ?_,
          (hreads.append hescape).append hreads'⟩
        simp [Json.StringUnit.spell]
  next hhigh =>
    split at h
    next => cases h
    next hlow =>
      cases h
      rw [hcode] at hhigh hlow
      have hspelled : Escape [.unicode digits] _ := .unicode hlength hhex hhigh hlow
      refine ⟨_, _, _, hspelled, appendUtf8_nil hcode hspelled.isValidChar, ?_, hreads⟩
      simp [Json.StringUnit.spell]

theorem parseUnicodeEscape_unicode {digits : ByteString} (hlength : digits.length = 4)
    (hhex : HexDigits digits) (hhigh : ¬ Json.IsHigh (Json.codeUnit digits))
    (hlow : ¬ Json.IsLow (Json.codeUnit digits)) (hreads : Reads cursor digits cursor') :
    parseUnicodeEscape cursor = .ok (writeUtf8 (Json.codeUnit digits), cursor') := by
  have hsmall : (UInt32.ofNat (Json.codeUnit digits)).toNat = Json.codeUnit digits :=
    UInt32.toNat_ofNat_of_lt' (Nat.lt_trans (codeUnit_lt hlength) (by decide))
  have hunit := parseUnicodeCodeUnit_eq_ok.mpr ⟨digits, hlength, hhex, hreads, hsmall⟩
  unfold parseUnicodeEscape
  simp only [hunit, bind, Except.bind, isHigh_iff, isLow_iff, hsmall]
  rw [if_neg hhigh, if_neg hlow,
    appendUtf8_nil hsmall (Escape.unicode hlength hhex hhigh hlow).isValidChar]

theorem parseUnicodeEscape_pair {digits digits' : ByteString} (hlength : digits.length = 4)
    (hhex : HexDigits digits) (hlength' : digits'.length = 4) (hhex' : HexDigits digits')
    (hhigh : Json.IsHigh (Json.codeUnit digits)) (hlow : Json.IsLow (Json.codeUnit digits'))
    (hreads : Reads cursor (digits ++ ([0x5C, 0x75] ++ digits')) cursor') :
    parseUnicodeEscape cursor =
      .ok (writeUtf8 (Json.pairCode (Json.codeUnit digits) (Json.codeUnit digits')), cursor') := by
  have hsmall : (UInt32.ofNat (Json.codeUnit digits)).toNat = Json.codeUnit digits :=
    UInt32.toNat_ofNat_of_lt' (Nat.lt_trans (codeUnit_lt hlength) (by decide))
  have hsmall' : (UInt32.ofNat (Json.codeUnit digits')).toNat = Json.codeUnit digits' :=
    UInt32.toNat_ofNat_of_lt' (Nat.lt_trans (codeUnit_lt hlength') (by decide))
  obtain ⟨middle, hreads, hrest⟩ := hreads.split
  obtain ⟨after, hescape, hreads'⟩ := hrest.split
  have hunit := parseUnicodeCodeUnit_eq_ok.mpr ⟨digits, hlength, hhex, hreads, hsmall⟩
  have hunit' := parseUnicodeCodeUnit_eq_ok.mpr ⟨digits', hlength', hhex', hreads', hsmall'⟩
  have hconsume : consume (text "\\u") middle = some after := consume_eq_some.mpr hescape
  have hpair := toNat_pair (hsmall ▸ hhigh) (hsmall' ▸ hlow)
  rw [hsmall, hsmall'] at hpair
  unfold parseUnicodeEscape
  simp only [hunit, hunit', hconsume, bind, Except.bind, isHigh_iff, not_isLow_iff, hsmall,
    hsmall']
  rw [if_pos hhigh, if_neg (not_not_intro hlow),
    appendUtf8_nil hpair (Escape.pair hlength hhex hlength' hhex' hhigh hlow).isValidChar]

end UnicodeEscape

/-- The `switch`, as the table of the grammar. -/
private theorem parseEscape_eq (cursor : Cursor) :
    parseEscape cursor = take cursor >>= fun (escaped, cursor) =>
      match Json.escapeCode escaped with
      | some code => .ok (writeUtf8 code, cursor)
      | none =>
          if escaped = 0x75 then parseUnicodeEscape cursor
          else parseFail "invalid string escape" cursor := by
  unfold parseEscape
  congr
  funext ⟨escaped, cursor⟩
  by_cases hquote : escaped = 0x22
  · rw [hquote]
    rfl
  by_cases hbackslash : escaped = 0x5C
  · rw [hbackslash]
    rfl
  by_cases hslash : escaped = 0x2F
  · rw [hslash]
    rfl
  by_cases hb : escaped = 0x62
  · rw [hb]
    rfl
  by_cases hf : escaped = 0x66
  · rw [hf]
    rfl
  by_cases hn : escaped = 0x6E
  · rw [hn]
    rfl
  by_cases hr : escaped = 0x72
  · rw [hr]
    rfl
  by_cases ht : escaped = 0x74
  · rw [ht]
    rfl
  simp only [Json.escapeCode, if_neg hquote, if_neg hbackslash, if_neg hslash, if_neg hb,
    if_neg hf, if_neg hn, if_neg hr, if_neg ht]

/-- An escape is read as the character its units spell. -/
theorem parseEscape_sound {bytes : ByteString} {cursor cursor' : Cursor}
    (h : parseEscape cursor = .ok (bytes, cursor')) :
    ∃ units code octets, Escape units code ∧ bytes = writeUtf8 code ∧
      Json.spellUnits rfc8259 units = 0x5C :: octets ∧ Reads cursor octets cursor' := by
  rw [parseEscape_eq] at h
  obtain ⟨⟨escaped, middle⟩, htake, h⟩ := bind_eq_ok.mp h
  have hletter := take_eq_ok.mp htake
  simp only at h
  split at h
  next code hcode =>
    cases h
    exact ⟨_, code, [escaped], .letter hcode, rfl, rfl, hletter⟩
  next hcode =>
    split at h
    next hu =>
      obtain ⟨units, code, octets, hescape, hbytes, hspell, hreads⟩ := parseUnicodeEscape_sound h
      subst hu
      exact ⟨units, code, 0x75 :: octets, hescape, hbytes, hspell, hletter.append hreads⟩
    next => cases h

theorem parseEscape_complete {units : List (Json.StringUnit UInt8)} {code : Nat}
    {octets : ByteString} {cursor cursor' : Cursor} (hescape : Escape units code)
    (hspell : Json.spellUnits rfc8259 units = 0x5C :: octets)
    (hreads : Reads cursor octets cursor') :
    parseEscape cursor = .ok (writeUtf8 code, cursor') := by
  rw [parseEscape_eq]
  cases hescape with
  | @letter letter code hcode =>
      obtain rfl : [letter] = octets := (List.cons.inj hspell).2
      rw [take_eq_ok.mpr hreads]
      show (match Json.escapeCode letter with | some code => _ | none => _) = _
      rw [hcode]
  | @unicode digits hlength hhex hhigh hlow =>
      have hoctets : [0x75] ++ digits = octets := by simpa [Json.StringUnit.spell] using hspell
      subst hoctets
      obtain ⟨middle, hletter, hreads⟩ := hreads.split
      rw [take_eq_ok.mpr hletter]
      exact parseUnicodeEscape_unicode hlength hhex hhigh hlow hreads
  | @pair digits digits' hlength hhex hlength' hhex' hhigh hlow =>
      have hoctets : [0x75] ++ (digits ++ ([0x5C, 0x75] ++ digits')) = octets := by
        simpa [Json.StringUnit.spell] using hspell
      subst hoctets
      obtain ⟨middle, hletter, hreads⟩ := hreads.split
      rw [take_eq_ok.mpr hletter]
      exact parseUnicodeEscape_pair hlength hhex hlength' hhex' hhigh hlow hreads

/-- Induction over a literal by its characters. -/
@[elab_as_elim]
theorem paired_induction {motive : List (Json.StringUnit UInt8) → Prop} (nil : motive [])
    (raw : ∀ c rest, (0x20 ≤ c ∧ c ≠ 0x22 ∧ c ≠ 0x5C) → motive rest → motive (.raw c :: rest))
    (escape : ∀ units code rest, Escape units code → motive rest → motive (units ++ rest))
    {units : List (Json.StringUnit UInt8)} (hlegal : Json.LegalUnits rfc8259 units)
    (hpaired : Json.Paired units) : motive units := by
  revert hlegal
  refine Json.Paired.induction (motive := fun units => Json.LegalUnits rfc8259 units → motive units)
    ?_ ?_ ?_ ?_ ?_ units hpaired
  · exact fun _ => nil
  · intro c rest ih hlegal
    obtain ⟨hunit, hrest⟩ := Json.legalUnits_cons.mp hlegal
    exact raw c rest (hunit c rfl) (ih hrest)
  · intro letter rest ih hlegal
    obtain ⟨hunit, hrest⟩ := Json.legalUnits_cons.mp hlegal
    obtain ⟨code, hcode⟩ := Option.isSome_iff_exists.mp hunit
    exact escape _ code rest (.letter hcode) (ih hrest)
  · intro digits rest hhigh hlow ih hlegal
    obtain ⟨hunit, hrest⟩ := Json.legalUnits_cons.mp hlegal
    exact escape _ _ rest (.unicode hunit.1 hunit.2 hhigh hlow) (ih hrest)
  · intro digits digits' rest hhigh hlow ih hlegal
    obtain ⟨hunit, hlegal⟩ := Json.legalUnits_cons.mp hlegal
    obtain ⟨hunit', hrest⟩ := Json.legalUnits_cons.mp hlegal
    exact escape _ _ rest (.pair hunit.1 hunit.2 hunit'.1 hunit'.2 hhigh hlow) (ih hrest)

/-! ## The loop -/

section Loop

variable {value out : ByteString} {cursor cursor' : Cursor}

theorem parseStringLoop_sound {fuel : Nat}
    (h : parseStringLoop fuel out cursor = .ok (value, cursor')) :
    ∃ units, Json.LegalUnits rfc8259 units ∧ Json.Paired units ∧
      Reads cursor (Json.spellUnits rfc8259 units ++ [0x22]) cursor' ∧
      value = out ++ Json.decodeUnits writeUtf8 units ∧ isValidUtf8 value = true := by
  induction fuel generalizing out cursor with
  | zero => cases h
  | succ fuel ih =>
      unfold parseStringLoop at h
      split at h
      next => cases h
      next c rest hrest =>
        simp only at h
        split at h
        next hquote =>
          split at h
          next => cases h
          next hvalid =>
            cases h
            subst hquote
            refine ⟨[], fun _ hunit => absurd hunit List.not_mem_nil, trivial, reads_head hrest,
              (List.append_nil _).symm, by simpa using hvalid⟩
        next hquote =>
          split at h
          next hbackslash =>
            split at h
            next => cases h
            next hcontrol =>
              obtain ⟨units, hlegal, hpaired, hreads, hvalue, hvalid⟩ := ih h
              refine ⟨.raw c :: units, Json.legalUnits_cons.mpr ⟨?_, hlegal⟩, hpaired,
                .cons hrest hreads, by rw [hvalue, List.append_assoc]; rfl, hvalid⟩
              intro octet hoctet
              obtain rfl : c = octet := hoctet
              exact ⟨UInt8.not_lt.mp hcontrol, hquote, hbackslash⟩
          next hbackslash =>
            have hbackslash := Decidable.not_not.mp hbackslash
            subst hbackslash
            obtain ⟨⟨bytes, middle⟩, hparse, h⟩ := bind_eq_ok.mp h
            obtain ⟨escape, code, octets, hescape, rfl, hspell, hescapeReads⟩ :=
              parseEscape_sound hparse
            obtain ⟨units, hlegal, hpaired, hreads, hvalue, hvalid⟩ := ih h
            refine ⟨escape ++ units, ?_, hescape.paired.mpr hpaired, ?_, ?_, hvalid⟩
            · exact List.forall_mem_append.mpr ⟨hescape.legal, hlegal⟩
            · rw [Json.spellUnits_append, hspell]
              exact .cons hrest (by simpa using hescapeReads.append hreads)
            · rw [hvalue, hescape.decode, List.append_assoc]

theorem parseStringLoop_complete {units : List (Json.StringUnit UInt8)}
    (hlegal : Json.LegalUnits rfc8259 units) (hpaired : Json.Paired units) :
    ∀ (fuel : Nat) (out : ByteString) (cursor : Cursor),
      Reads cursor (Json.spellUnits rfc8259 units ++ [0x22]) cursor' →
      (Json.spellUnits rfc8259 units).length < fuel →
      isValidUtf8 (out ++ Json.decodeUnits writeUtf8 units) = true →
      parseStringLoop fuel out cursor =
        .ok (out ++ Json.decodeUnits writeUtf8 units, cursor') := by
  refine paired_induction ?_ ?_ ?_ hlegal hpaired
  · intro fuel out cursor hreads hfuel hvalid
    obtain ⟨fuel, rfl⟩ := Nat.exists_eq_succ_of_ne_zero (Nat.ne_of_gt hfuel)
    have hreads : Reads cursor [0x22] cursor' := hreads
    have hout : out ++ Json.decodeUnits writeUtf8 [] = out := List.append_nil out
    rw [hout] at hvalid ⊢
    unfold parseStringLoop
    rw [hreads.uncons.1]
    simp only
    rw [if_pos trivial, hvalid, hreads.eq_advance]
    rfl
  · intro c units hc ih fuel out cursor hreads hfuel hvalid
    obtain ⟨fuel, rfl⟩ := Nat.exists_eq_succ_of_ne_zero (Nat.ne_of_gt (Nat.zero_lt_of_lt hfuel))
    have hreads : Reads cursor (c :: (Json.spellUnits rfc8259 units ++ [0x22])) cursor' := hreads
    have hout : out ++ Json.decodeUnits writeUtf8 (.raw c :: units) =
        (out ++ [c]) ++ Json.decodeUnits writeUtf8 units := by
      rw [List.append_assoc]
      rfl
    rw [hout] at hvalid ⊢
    unfold parseStringLoop
    rw [hreads.uncons.1]
    simp only
    rw [if_neg hc.2.1, if_pos hc.2.2, if_neg (UInt8.not_lt.mpr hc.1)]
    exact ih _ _ _ hreads.uncons.2 (Nat.lt_of_succ_lt_succ hfuel) hvalid
  · intro escape code units hescape ih fuel out cursor hreads hfuel hvalid
    obtain ⟨fuel, rfl⟩ := Nat.exists_eq_succ_of_ne_zero (Nat.ne_of_gt (Nat.zero_lt_of_lt hfuel))
    obtain ⟨octets, hspell⟩ := hescape.spell
    rw [Json.spellUnits_append, hspell] at hreads hfuel
    have hreads : Reads cursor
        (0x5C :: (octets ++ (Json.spellUnits rfc8259 units ++ [0x22]))) cursor' := by
      simpa using hreads
    obtain ⟨hrest, htail⟩ := hreads.uncons
    obtain ⟨middle, hescapeReads, hreads⟩ := htail.split
    rw [hescape.decode, ← List.append_assoc] at hvalid ⊢
    have hfuel : (Json.spellUnits rfc8259 units).length < fuel := by
      simp only [List.cons_append, List.length_cons, List.length_append] at hfuel
      omega
    unfold parseStringLoop
    rw [hrest]
    simp only
    rw [if_neg (by decide), if_neg (by decide), parseEscape_complete hescape hspell hescapeReads]
    exact ih _ _ _ hreads hfuel hvalid

theorem literal_rfc8259 (units : List (Json.StringUnit UInt8)) :
    Json.literal rfc8259 units = 0x22 :: (Json.spellUnits rfc8259 units ++ [0x22]) := by
  simp [Json.literal]

theorem parseString_eq_ok :
    parseString cursor = .ok (value, cursor') ↔
      ∃ units, Json.LegalUnits rfc8259 units ∧ Json.Paired units ∧
        Utf8.WellFormed (Json.decodeUnits writeUtf8 units) ∧
        value = Json.decodeUnits writeUtf8 units ∧
        Reads cursor (Json.literal rfc8259 units) cursor' := by
  unfold parseString
  rw [bind_eq_ok]
  constructor
  · rintro ⟨⟨c, middle⟩, htake, h⟩
    have hquote := take_eq_ok.mp htake
    simp only at h
    split at h
    next => cases h
    next hc =>
      obtain rfl := Decidable.not_not.mp hc
      obtain ⟨units, hlegal, hpaired, hreads, hvalue, hvalid⟩ := parseStringLoop_sound h
      rw [List.nil_append] at hvalue
      rw [hvalue] at hvalid
      refine ⟨units, hlegal, hpaired, isValidUtf8_iff.mp hvalid, hvalue, ?_⟩
      rw [literal_rfc8259]
      exact hquote.append hreads
  · rintro ⟨units, hlegal, hpaired, hvalid, rfl, hreads⟩
    rw [literal_rfc8259] at hreads
    have hquote := reads_head hreads.uncons.1
    refine ⟨(0x22, cursor.advance 1), take_eq_ok.mpr hquote, ?_⟩
    simp only
    rw [if_neg (by decide)]
    refine parseStringLoop_complete hlegal hpaired _ _ _ hreads.uncons.2 ?_
      (isValidUtf8_iff.mpr hvalid)
    rw [hreads.uncons.2.1, List.length_append, List.length_append]
    omega

end Loop

/-! ## Where UTF-8 is checked -/

/-- The text of an escape is ASCII. -/
theorem Escape.wellFormed_spell {units : List (Json.StringUnit UInt8)} {code : Nat}
    (h : Escape units code) : Utf8.WellFormed (Json.spellUnits rfc8259 units) := by
  apply Utf8.wellFormed_ascii
  cases h with
  | letter hcode => simpa [Json.StringUnit.spell] using Json.escapeCode_ascii hcode
  | unicode _ hhex =>
      have hdigits := fun c hc => Json.hexDigit?_ascii (hhex c hc)
      simpa [Json.StringUnit.spell] using hdigits
  | pair _ hhex _ hhex' =>
      have hdigits := fun c hc => Json.hexDigit?_ascii (hhex c hc)
      have hdigits' := fun c hc => Json.hexDigit?_ascii (hhex' c hc)
      simp only [Json.spellUnits_cons, Json.StringUnit.spell, token_rfc8259, Json.spellUnits_nil,
        List.forall_mem_append, List.forall_mem_cons]
      simpa using ⟨hdigits, hdigits'⟩

/-- Checking the decoded string is checking the octets between the quotation marks. -/
theorem wellFormed_spellUnits_iff {units : List (Json.StringUnit UInt8)}
    (hlegal : Json.LegalUnits rfc8259 units) (hpaired : Json.Paired units) :
    Utf8.WellFormed (Json.spellUnits rfc8259 units) ↔
      Utf8.WellFormed (Json.decodeUnits writeUtf8 units) := by
  have hrun : ∀ run : ByteString, Utf8.WellFormed (run ++ Json.spellUnits rfc8259 units) ↔
      Utf8.WellFormed (run ++ Json.decodeUnits writeUtf8 units) := by
    refine paired_induction ?_ ?_ ?_ hlegal hpaired
    · exact fun run => Iff.rfl
    · intro c units hc ih run
      have h := ih (run ++ [c])
      rw [List.append_assoc, List.append_assoc] at h
      exact h
    · intro escape code units hescape ih run
      obtain ⟨tail, hspell⟩ := hescape.spell
      have hchar : Utf8.WellFormed (writeUtf8 code) := .char _
      rw [Json.spellUnits_append, hescape.decode,
        hescape.wellFormed_spell.around_iff (by rw [hspell]; exact List.cons_ne_nil _ _),
        hchar.around_iff (List.ne_nil_of_length_pos (Utf8.encodeChar_length_pos _))]
      exact and_congr_right fun _ => ih []
  exact hrun []

end DynamicProperties.Cpp
