import DynamicProperties.Library.Utf8
import DynamicProperties.Cpp.Value

/-!
# What the UTF-8 scanner and encoder compute

`isValidUtf8` accepts the octets of a text and nothing else, and `appendUtf8`
appends the octets of the character with a given code point.
-/

namespace DynamicProperties.Cpp

open DynamicProperties.Library

/-! ## The scanner -/

private theorem toNat_continuation {c : UInt8} (h : isContinuationByte c = true) :
    0x80 ≤ c.toNat ∧ c.toNat ≤ 0xBF := by
  simpa [isContinuationByte, UInt8.le_iff_toNat_le] using h

private theorem wellFormed_one {first : UInt8} (h : first.toNat ≤ 0x7F) :
    Utf8.WellFormed [first] := by
  obtain ⟨c, hc⟩ := Utf8.exists_char (n := first.toNat) (.inl (by omega))
  refine ⟨[c], ?_⟩
  rw [Utf8.encode_cons, Utf8.encode_nil, List.append_nil]
  unfold String.utf8EncodeChar
  simp only [hc]
  rw [if_pos (by omega)]
  simp only [List.cons.injEq, and_true, ← UInt8.toNat_inj, UInt8.toNat_ofNat']
  omega

private theorem wellFormed_two {first second : UInt8}
    (hfirst : 0xC2 ≤ first.toNat ∧ first.toNat ≤ 0xDF)
    (hsecond : isContinuationByte second = true) : Utf8.WellFormed [first, second] := by
  have hsecond := toNat_continuation hsecond
  obtain ⟨c, hc⟩ := Utf8.exists_char (n := (first.toNat - 0xC0) * 64 + (second.toNat - 0x80))
    (.inl (by omega))
  refine ⟨[c], ?_⟩
  rw [Utf8.encode_cons, Utf8.encode_nil, List.append_nil]
  unfold String.utf8EncodeChar
  simp only [hc]
  rw [if_neg (by omega), if_pos (by omega)]
  simp only [List.cons.injEq, and_true, ← UInt8.toNat_inj, UInt8.toNat_ofNat']
  omega

/-- Three octets spell a character unless the form is overlong or a surrogate. -/
private theorem wellFormed_three {first second third : UInt8}
    (hfirst : 0xE0 ≤ first.toNat ∧ first.toNat ≤ 0xEF)
    (hsecond : 0x80 ≤ second.toNat ∧ second.toNat ≤ 0xBF)
    (hoverlong : first.toNat = 0xE0 → 0xA0 ≤ second.toNat)
    (hsurrogate : first.toNat = 0xED → second.toNat ≤ 0x9F)
    (hthird : isContinuationByte third = true) : Utf8.WellFormed [first, second, third] := by
  have hthird := toNat_continuation hthird
  obtain ⟨c, hc⟩ := Utf8.exists_char
    (n := (first.toNat - 0xE0) * 4096 + (second.toNat - 0x80) * 64 + (third.toNat - 0x80))
    (show _ ∨ _ by omega)
  refine ⟨[c], ?_⟩
  rw [Utf8.encode_cons, Utf8.encode_nil, List.append_nil]
  unfold String.utf8EncodeChar
  simp only [hc]
  rw [if_neg (by omega), if_neg (by omega), if_pos (by omega)]
  simp only [List.cons.injEq, and_true, ← UInt8.toNat_inj, UInt8.toNat_ofNat']
  omega

/-- Four octets spell a character unless the form is overlong or beyond the last one. -/
private theorem wellFormed_four {first second third fourth : UInt8}
    (hfirst : 0xF0 ≤ first.toNat ∧ first.toNat ≤ 0xF4)
    (hsecond : 0x80 ≤ second.toNat ∧ second.toNat ≤ 0xBF)
    (hoverlong : first.toNat = 0xF0 → 0x90 ≤ second.toNat)
    (hlast : first.toNat = 0xF4 → second.toNat ≤ 0x8F)
    (hthird : isContinuationByte third = true) (hfourth : isContinuationByte fourth = true) :
    Utf8.WellFormed [first, second, third, fourth] := by
  have hthird := toNat_continuation hthird
  have hfourth := toNat_continuation hfourth
  obtain ⟨c, hc⟩ := Utf8.exists_char
    (n := (first.toNat - 0xF0) * 262144 + (second.toNat - 0x80) * 4096
      + (third.toNat - 0x80) * 64 + (fourth.toNat - 0x80))
    (show _ ∨ _ by omega)
  refine ⟨[c], ?_⟩
  rw [Utf8.encode_cons, Utf8.encode_nil, List.append_nil]
  unfold String.utf8EncodeChar
  simp only [hc]
  rw [if_neg (by omega), if_neg (by omega), if_neg (by omega)]
  simp only [List.cons.injEq, and_true, ← UInt8.toNat_inj, UInt8.toNat_ofNat']
  omega

/-- What the scanner accepts is a text. -/
theorem wellFormed_of_isValidUtf8 {value : ByteString} (h : isValidUtf8 value = true) :
    Utf8.WellFormed value := by
  fun_induction isValidUtf8 value with
  | case1 => exact .nil
  | case2 first rest hfirst ih =>
      exact (wellFormed_one (UInt8.le_iff_toNat_le.mp hfirst)).append (ih h)
  | case3 first _ hfirst second tail ih =>
      simp only [UInt8.le_iff_toNat_le, UInt8.toNat_ofNat] at hfirst
      obtain ⟨hsecond, htail⟩ := Bool.and_eq_true_iff.mp h
      exact (wellFormed_two hfirst hsecond).append (ih htail)
  | case7 second third tail hthird hsecond _ _ _ ih =>
      simp only [UInt8.lt_iff_toNat_lt, UInt8.toNat_ofNat, not_or, Nat.not_lt] at hsecond
      exact (wellFormed_three ⟨by decide, by decide⟩ ⟨by omega, hsecond.2⟩ (fun _ => hsecond.1)
        (fun h => absurd h (by decide)) (by simpa using hthird)).append (ih h)
  | case9 second third tail hthird hsecond _ _ _ _ ih =>
      simp only [UInt8.lt_iff_toNat_lt, UInt8.toNat_ofNat, not_or, Nat.not_lt] at hsecond
      exact (wellFormed_three ⟨by decide, by decide⟩ ⟨hsecond.1, by omega⟩
        (fun h => absurd h (by decide)) (fun _ => hsecond.2) (by simpa using hthird)).append (ih h)
  | case11 first _ _ hfirst second third tail hthird hE0 hED hsecond ih =>
      simp only [UInt8.le_iff_toNat_le, UInt8.toNat_ofNat] at hfirst
      exact (wellFormed_three hfirst (toNat_continuation (by simpa using hsecond))
        (fun h => absurd (UInt8.toNat_inj.mp h) hE0) (fun h => absurd (UInt8.toNat_inj.mp h) hED)
        (by simpa using hthird)).append (ih h)
  | case15 second third fourth tail htail hsecond _ _ _ _ ih =>
      simp only [UInt8.lt_iff_toNat_lt, UInt8.toNat_ofNat, not_or, Nat.not_lt] at hsecond
      simp only [Bool.or_eq_true, Bool.not_eq_true', not_or, Bool.not_eq_false] at htail
      exact (wellFormed_four ⟨by decide, by decide⟩ ⟨by omega, hsecond.2⟩ (fun _ => hsecond.1)
        (fun h => absurd h (by decide)) htail.1 htail.2).append (ih h)
  | case17 second third fourth tail htail hsecond _ _ _ _ _ ih =>
      simp only [UInt8.lt_iff_toNat_lt, UInt8.toNat_ofNat, not_or, Nat.not_lt] at hsecond
      simp only [Bool.or_eq_true, Bool.not_eq_true', not_or, Bool.not_eq_false] at htail
      exact (wellFormed_four ⟨by decide, by decide⟩ ⟨hsecond.1, by omega⟩
        (fun h => absurd h (by decide)) (fun _ => hsecond.2) htail.1 htail.2).append (ih h)
  | case19 first _ _ _ hfirst second third fourth tail htail hF0 hF4 hsecond ih =>
      simp only [UInt8.le_iff_toNat_le, UInt8.toNat_ofNat] at hfirst
      simp only [Bool.or_eq_true, Bool.not_eq_true', not_or, Bool.not_eq_false] at htail
      exact (wellFormed_four hfirst (toNat_continuation (by simpa using hsecond))
        (fun h => absurd (UInt8.toNat_inj.mp h) hF0) (fun h => absurd (UInt8.toNat_inj.mp h) hF4)
        htail.1 htail.2).append (ih h)
  | _ => exact absurd h Bool.false_ne_true

private theorem isContinuationByte_of {c : UInt8} (h : 0x80 ≤ c.toNat ∧ c.toNat ≤ 0xBF) :
    isContinuationByte c = true := by
  simpa [isContinuationByte, UInt8.le_iff_toNat_le] using h

private theorem isValidUtf8_two {first second : UInt8} {tail : ByteString}
    (hfirst : 0xC2 ≤ first.toNat ∧ first.toNat ≤ 0xDF)
    (hsecond : 0x80 ≤ second.toNat ∧ second.toNat ≤ 0xBF) :
    isValidUtf8 (first :: second :: tail) = isValidUtf8 tail := by
  rw [isValidUtf8.eq_def]
  simp only [UInt8.le_iff_toNat_le, UInt8.toNat_ofNat]
  rw [if_neg (by omega), if_pos hfirst, isContinuationByte_of hsecond, Bool.true_and]

private theorem isValidUtf8_three {first second third : UInt8} {tail : ByteString}
    (hfirst : 0xE0 ≤ first.toNat ∧ first.toNat ≤ 0xEF)
    (hsecond : 0x80 ≤ second.toNat ∧ second.toNat ≤ 0xBF)
    (hoverlong : first.toNat = 0xE0 → 0xA0 ≤ second.toNat)
    (hsurrogate : first.toNat = 0xED → second.toNat ≤ 0x9F)
    (hthird : 0x80 ≤ third.toNat ∧ third.toNat ≤ 0xBF) :
    isValidUtf8 (first :: second :: third :: tail) = isValidUtf8 tail := by
  rw [isValidUtf8.eq_def]
  simp only [UInt8.le_iff_toNat_le, UInt8.lt_iff_toNat_lt, ← UInt8.toNat_inj, UInt8.toNat_ofNat,
    isContinuationByte_of hsecond, isContinuationByte_of hthird, Bool.not_true]
  rw [if_neg (by omega), if_neg (by omega), if_pos hfirst, if_neg Bool.false_ne_true]
  by_cases hE0 : first.toNat = 0xE0
  · have hlow := hoverlong hE0
    rw [if_pos hE0, if_neg (by omega)]
  rw [if_neg hE0]
  by_cases hED : first.toNat = 0xED
  · have hhigh := hsurrogate hED
    rw [if_pos hED, if_neg (by omega)]
  rw [if_neg hED, if_neg Bool.false_ne_true]

private theorem isValidUtf8_four {first second third fourth : UInt8} {tail : ByteString}
    (hfirst : 0xF0 ≤ first.toNat ∧ first.toNat ≤ 0xF4)
    (hsecond : 0x80 ≤ second.toNat ∧ second.toNat ≤ 0xBF)
    (hoverlong : first.toNat = 0xF0 → 0x90 ≤ second.toNat)
    (hlast : first.toNat = 0xF4 → second.toNat ≤ 0x8F)
    (hthird : 0x80 ≤ third.toNat ∧ third.toNat ≤ 0xBF)
    (hfourth : 0x80 ≤ fourth.toNat ∧ fourth.toNat ≤ 0xBF) :
    isValidUtf8 (first :: second :: third :: fourth :: tail) = isValidUtf8 tail := by
  rw [isValidUtf8.eq_def]
  simp only [UInt8.le_iff_toNat_le, UInt8.lt_iff_toNat_lt, ← UInt8.toNat_inj, UInt8.toNat_ofNat,
    isContinuationByte_of hsecond, isContinuationByte_of hthird, isContinuationByte_of hfourth,
    Bool.not_true, Bool.or_false]
  rw [if_neg (by omega), if_neg (by omega), if_neg (by omega), if_pos hfirst,
    if_neg Bool.false_ne_true]
  by_cases hF0 : first.toNat = 0xF0
  · have hlow := hoverlong hF0
    rw [if_pos hF0, if_neg (by omega)]
  rw [if_neg hF0]
  by_cases hF4 : first.toNat = 0xF4
  · have hhigh := hlast hF4
    rw [if_pos hF4, if_neg (by omega)]
  rw [if_neg hF4, if_neg Bool.false_ne_true]

/-- The scanner passes over one character. -/
theorem isValidUtf8_char_append (c : Char) (rest : ByteString) :
    isValidUtf8 (String.utf8EncodeChar c ++ rest) = isValidUtf8 rest := by
  have hvalid : c.val.toNat < 0xD800 ∨ 0xDFFF < c.val.toNat ∧ c.val.toNat < 0x110000 := c.valid
  unfold String.utf8EncodeChar
  simp only
  generalize c.val.toNat = n at hvalid
  split
  · rw [List.singleton_append, isValidUtf8_ascii]
    rw [UInt8.le_iff_toNat_le, UInt8.toNat_ofNat']
    show n % 256 ≤ 0x7F
    omega
  split
  · apply isValidUtf8_two <;> rw [UInt8.toNat_ofNat'] <;> omega
  split
  · apply isValidUtf8_three <;> simp only [UInt8.toNat_ofNat'] <;> omega
  · apply isValidUtf8_four <;> simp only [UInt8.toNat_ofNat'] <;> omega

/-- The scanner accepts the octets of a text and nothing else. -/
theorem isValidUtf8_iff {value : ByteString} :
    isValidUtf8 value = true ↔ Utf8.WellFormed value := by
  refine ⟨wellFormed_of_isValidUtf8, ?_⟩
  rintro ⟨chars, rfl⟩
  induction chars with
  | nil => rfl
  | cons c chars ih => rw [Utf8.encode_cons, isValidUtf8_char_append, ih]

/-! ## The encoder -/

private theorem toUInt8_marked {marker low : UInt32} (k : Nat) (hmarker : marker.toNat % 2 ^ k = 0)
    (hlow : low.toNat < 2 ^ k) :
    (marker ||| low).toUInt8 = UInt8.ofNat (low.toNat + marker.toNat) := by
  have hsum : marker.toNat ||| low.toNat = marker.toNat + low.toNat := by
    have hmul : marker.toNat = 2 ^ k * (marker.toNat / 2 ^ k) := by
      rw [Nat.mul_div_cancel' (Nat.dvd_of_mod_eq_zero hmarker)]
    rw [hmul, Nat.two_pow_add_eq_or_of_lt hlow]
  rw [← UInt8.toNat_inj, UInt32.toNat_toUInt8, UInt32.toNat_or, hsum, UInt8.toNat_ofNat',
    Nat.add_comm]

private theorem toUInt8_lead {marker codePoint shift : UInt32} (k width : Nat)
    (hshift : shift.toNat % 32 = k) (hmarker : marker.toNat % 2 ^ width = 0)
    (hlow : codePoint.toNat / 2 ^ k < 2 ^ width) :
    (marker ||| (codePoint >>> shift)).toUInt8 =
      UInt8.ofNat (codePoint.toNat / 2 ^ k % 2 ^ width + marker.toNat) := by
  have hvalue : (codePoint >>> shift).toNat = codePoint.toNat / 2 ^ k := by
    rw [UInt32.toNat_shiftRight, hshift, Nat.shiftRight_eq_div_pow]
  rw [toUInt8_marked width hmarker (by rw [hvalue]; exact hlow), hvalue, Nat.mod_eq_of_lt hlow]

private theorem toUInt8_tail (bits : UInt32) :
    ((0x80 : UInt32) ||| (bits &&& 0x3F)).toUInt8 = UInt8.ofNat (bits.toNat % 64 + 0x80) := by
  have hlow : (bits &&& 0x3F).toNat = bits.toNat % 64 := by
    rw [UInt32.toNat_and]
    exact Nat.and_two_pow_sub_one_eq_mod _ 6
  rw [toUInt8_marked 6 rfl (by rw [hlow]; omega), hlow]
  rfl

private theorem toUInt8_shifted_tail (codePoint shift : UInt32) (k : Nat)
    (hshift : shift.toNat % 32 = k) :
    ((0x80 : UInt32) ||| ((codePoint >>> shift) &&& 0x3F)).toUInt8 =
      UInt8.ofNat (codePoint.toNat / 2 ^ k % 64 + 0x80) := by
  rw [toUInt8_tail, UInt32.toNat_shiftRight, hshift, Nat.shiftRight_eq_div_pow]

/-- `appendUtf8` appends the octets of the character. -/
theorem appendUtf8_char (out : ByteString) (c : Char) :
    appendUtf8 out c.val = out ++ String.utf8EncodeChar c := by
  have hvalid : c.val.toNat < 0xD800 ∨ 0xDFFF < c.val.toNat ∧ c.val.toNat < 0x110000 := c.valid
  unfold appendUtf8 String.utf8EncodeChar
  simp only [UInt32.le_iff_toNat_le]
  show (if c.val.toNat ≤ 0x7F then _ else if c.val.toNat ≤ 0x7FF then _
    else if c.val.toNat ≤ 0xFFFF then _ else _) = _
  by_cases hone : c.val.toNat ≤ 0x7F
  · rw [if_pos hone, if_pos hone]
    rfl
  rw [if_neg hone, if_neg hone]
  by_cases htwo : c.val.toNat ≤ 0x7FF
  · rw [if_pos htwo, if_pos htwo, toUInt8_lead 6 5 rfl rfl (by omega), toUInt8_tail]
    rfl
  rw [if_neg htwo, if_neg htwo]
  by_cases hthree : c.val.toNat ≤ 0xFFFF
  · rw [if_pos hthree, if_pos hthree, toUInt8_lead 12 4 rfl rfl (by omega),
      toUInt8_shifted_tail _ _ 6 rfl, toUInt8_tail]
    rfl
  rw [if_neg hthree, if_neg hthree, toUInt8_lead 18 3 rfl rfl (by omega),
    toUInt8_shifted_tail _ _ 12 rfl, toUInt8_shifted_tail _ _ 6 rfl, toUInt8_tail]
  rfl

/-! ## The scan by index -/

/-- `isValidUtf8` as the source scans, from an index on; `none` where it reads past
the end of the view. -/
def scanUtf8 (value : ByteString) (index : Nat) : Option Bool :=
  if index < value.length then
    (value[index]?).bind fun first =>
      if first ≤ 0x7F then scanUtf8 value (index + 1)
      else if 0xC2 ≤ first ∧ first ≤ 0xDF then
        if value.length - index < 2 then some false
        else (value[index + 1]?).bind fun second =>
          if !isContinuationByte second then some false else scanUtf8 value (index + 2)
      else if 0xE0 ≤ first ∧ first ≤ 0xEF then
        if value.length - index < 3 then some false
        else (value[index + 1]?).bind fun second => (value[index + 2]?).bind fun third =>
          if !isContinuationByte third then some false
          else if first = 0xE0 then
            if second < 0xA0 ∨ 0xBF < second then some false else scanUtf8 value (index + 3)
          else if first = 0xED then
            if second < 0x80 ∨ 0x9F < second then some false else scanUtf8 value (index + 3)
          else if !isContinuationByte second then some false
          else scanUtf8 value (index + 3)
      else if 0xF0 ≤ first ∧ first ≤ 0xF4 then
        if value.length - index < 4 then some false
        else (value[index + 1]?).bind fun second => (value[index + 2]?).bind fun third =>
            (value[index + 3]?).bind fun fourth =>
          if !isContinuationByte third || !isContinuationByte fourth then some false
          else if first = 0xF0 then
            if second < 0x90 ∨ 0xBF < second then some false else scanUtf8 value (index + 4)
          else if first = 0xF4 then
            if second < 0x80 ∨ 0x8F < second then some false else scanUtf8 value (index + 4)
          else if !isContinuationByte second then some false
          else scanUtf8 value (index + 4)
      else some false
  else some true
termination_by value.length - index

/-- The scan by index reads inside the view only, and finds what the scan of the
remaining octets finds. -/
theorem scanUtf8_eq (value : ByteString) : ∀ (rest : ByteString) (index : Nat),
    value.drop index = rest → scanUtf8 value index = some (isValidUtf8 rest) := by
  intro rest
  induction hlength : rest.length using Nat.strongRecOn generalizing rest with
  | ind n ih =>
      intro index hdrop
      have hread : ∀ k, value[index + k]? = rest[k]? := by
        intro k
        rw [← hdrop, List.getElem?_drop]
      have hskip : ∀ k, value.drop (index + k) = rest.drop k := by
        intro k
        rw [← hdrop, List.drop_drop]
      have hremaining : value.length - index = rest.length := by
        rw [← hdrop, List.length_drop]
      have hlater : ∀ k, 0 < k → k ≤ rest.length →
          scanUtf8 value (index + k) = some (isValidUtf8 (rest.drop k)) := by
        intro k hpos hk
        refine ih (rest.drop k).length ?_ (rest.drop k) rfl _ (hskip k)
        rw [List.length_drop]
        omega
      rw [scanUtf8]
      cases rest with
      | nil =>
          rw [List.length_nil] at hremaining
          rw [if_neg (by omega)]
          rfl
      | cons first rest =>
          rw [List.length_cons] at hremaining hlater
          rw [if_pos (by omega), show value[index]? = some first from hread 0, Option.bind_some,
            isValidUtf8.eq_def]
          simp only [hremaining, hread, List.getElem?_cons_succ]
          by_cases hascii : first ≤ 0x7F
          · rw [if_pos hascii, if_pos hascii]
            exact hlater 1 (by omega) (by omega)
          rw [if_neg hascii, if_neg hascii]
          by_cases htwo : 0xC2 ≤ first ∧ first ≤ 0xDF
          · rw [if_pos htwo, if_pos htwo]
            cases rest with
            | nil => rfl
            | cons second tail =>
                have htail : scanUtf8 value (index + 2) = some (isValidUtf8 tail) :=
                  hlater 2 (by omega) (by simp)
                rw [if_neg (by simp), htail]
                cases hsecond : isContinuationByte second <;> simp [hsecond]
          rw [if_neg htwo, if_neg htwo]
          by_cases hthree : 0xE0 ≤ first ∧ first ≤ 0xEF
          · rw [if_pos hthree, if_pos hthree]
            rcases rest with _ | ⟨second, _ | ⟨third, tail⟩⟩
            · rfl
            · rfl
            · have htail : scanUtf8 value (index + 3) = some (isValidUtf8 tail) :=
                hlater 3 (by omega) (by simp)
              rw [if_neg (by simp), htail]
              simp only [apply_ite some]
              rfl
          rw [if_neg hthree, if_neg hthree]
          by_cases hfour : 0xF0 ≤ first ∧ first ≤ 0xF4
          · rw [if_pos hfour, if_pos hfour]
            rcases rest with _ | ⟨second, _ | ⟨third, _ | ⟨fourth, tail⟩⟩⟩
            · rfl
            · rfl
            · rfl
            · have htail : scanUtf8 value (index + 4) = some (isValidUtf8 tail) :=
                hlater 4 (by omega) (by simp)
              rw [if_neg (by simp), htail]
              simp only [apply_ite some]
              rfl
          rw [if_neg hfour, if_neg hfour]

/-! ## Sequences of scalar values -/

/-- The code points that are no surrogates. -/
def IsScalarValue (codePoint : UInt32) : Prop :=
  codePoint < 0xD800 ∨ (0xDFFF < codePoint ∧ codePoint ≤ 0x10FFFF)

/-- The octets `appendUtf8` appends for one code point after the other. -/
def appended (codePoints : List UInt32) : ByteString := codePoints.flatMap (appendUtf8 [])

theorem isScalarValue_iff {codePoint : UInt32} :
    IsScalarValue codePoint ↔ codePoint.isValidChar := by
  show _ ↔ codePoint.toNat < 0xD800 ∨ (0xDFFF < codePoint.toNat ∧ codePoint.toNat < 0x110000)
  rw [IsScalarValue, UInt32.lt_iff_toNat_lt, UInt32.lt_iff_toNat_lt, UInt32.le_iff_toNat_le]
  show codePoint.toNat < 0xD800 ∨ (0xDFFF < codePoint.toNat ∧ codePoint.toNat ≤ 0x10FFFF) ↔ _
  omega

/-- Scalar values are the code points of characters. -/
theorem exists_chars {codePoints : List UInt32} (h : ∀ c ∈ codePoints, IsScalarValue c) :
    ∃ chars : List Char, codePoints = chars.map (·.val) := by
  induction codePoints with
  | nil => exact ⟨[], rfl⟩
  | cons c rest ih =>
      obtain ⟨chars, rfl⟩ := ih fun d hd => h d (List.mem_cons_of_mem _ hd)
      exact ⟨⟨c, isScalarValue_iff.mp (h c List.mem_cons_self)⟩ :: chars, rfl⟩

theorem appended_chars (chars : List Char) : appended (chars.map (·.val)) = Utf8.encode chars := by
  unfold appended Utf8.encode
  rw [List.flatMap_map]
  exact congrArg chars.flatMap (funext fun c => appendUtf8_char [] c)

/-- **`isValidUtf8` accepts what `appendUtf8` writes for scalar values**, each text in
one way, and never reads past the end. -/
theorem isValidUtf8_exact (value : ByteString) :
    (isValidUtf8 value = true ↔
      ∃ codePoints, (∀ c ∈ codePoints, IsScalarValue c) ∧ value = appended codePoints) ∧
    (∀ codePoints codePoints', (∀ c ∈ codePoints, IsScalarValue c) →
      (∀ c ∈ codePoints', IsScalarValue c) → value = appended codePoints →
        value = appended codePoints' → codePoints = codePoints') ∧
    scanUtf8 value 0 = some (isValidUtf8 value) := by
  refine ⟨⟨fun hvalid => ?_, ?_⟩, ?_, scanUtf8_eq value value 0 rfl⟩
  · obtain ⟨chars, rfl⟩ := isValidUtf8_iff.mp hvalid
    refine ⟨chars.map (·.val), fun c hc => ?_, (appended_chars chars).symm⟩
    obtain ⟨char, -, rfl⟩ := List.mem_map.mp hc
    exact isScalarValue_iff.mpr char.valid
  · rintro ⟨codePoints, hscalar, rfl⟩
    obtain ⟨chars, rfl⟩ := exists_chars hscalar
    exact isValidUtf8_iff.mpr ⟨chars, appended_chars chars⟩
  · intro codePoints codePoints' hscalar hscalar' hvalue hvalue'
    obtain ⟨chars, rfl⟩ := exists_chars hscalar
    obtain ⟨chars', rfl⟩ := exists_chars hscalar'
    rw [appended_chars] at hvalue hvalue'
    rw [Utf8.encode_injective (hvalue.symm.trans hvalue')]

/-! ## Literals -/

/-- The bytes of a literal are those of its characters. -/
theorem text_eq_encode (literal : String) : text literal = Utf8.encode literal.toList := by
  show literal.toByteArray.data.toList = _
  conv_lhs => rw [← String.ofList_toList (s := literal)]
  rw [String.toByteArray_ofList, List.utf8Encode, List.data_toByteArray]
  rfl

theorem wellFormed_text (literal : String) : Utf8.WellFormed (text literal) :=
  ⟨_, text_eq_encode literal⟩

end DynamicProperties.Cpp
