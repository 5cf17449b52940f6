import DynamicProperties.Library.Trim
import DynamicProperties.Cpp.AccessPolicy
import DynamicProperties.Python.Text
import DynamicProperties.Python.Validation

/-!
# Plugin namespaces on both sides

Both implementations normalize a name to lower case, write underscores for what is
not a letter, a digit, a dot or a dash of ASCII, and trim underscores.  C++ does it
octet by octet and leaves an underscore for every octet of another character;
Python does it character by character, after `lower()`.

The names agree on `Plain` strings only: no Kelvin sign or dotted capital I, whose
lower case has an ASCII letter, and nothing outside ASCII between the first and the
last character that is kept.
-/

namespace DynamicProperties

open DynamicProperties.Library
open DynamicProperties.Library.Trim
open DynamicProperties.Python (CodePoint Str codePoint ofChars encodeUtf8 normalizeCodePoint)

/-! ## Names both sides normalize alike -/

/-- A letter, a digit, a dot or a dash of ASCII. -/
def Kept (c : CodePoint) : Bool :=
  (0x61 ≤ c && c ≤ 0x7A) || (0x41 ≤ c && c ≤ 0x5A) || (0x30 ≤ c && c ≤ 0x39) || c = 0x2E || c = 0x2D

/-- What lies between the first and the last kept character. -/
def core (value : Str) : Str := trim (fun c => !Kept c) value

/-- No letter whose lower case falls back into ASCII, and no other character
outside ASCII between kept ones. -/
def Plain (value : Str) : Prop :=
  0x212A ∉ value ∧ 0x0130 ∉ value ∧ ∀ c ∈ core value, c < 0x80

instance (value : Str) : Decidable (Plain value) :=
  -- the list of the core, not the whole range of code points, is searched
  have : Decidable (∀ c ∈ core value, c < 0x80) := List.decidableBAll (· < 0x80) (core value)
  inferInstanceAs (Decidable (_ ∧ _ ∧ _))

/-! ## One character on either side -/

/-- Octets as code points. -/
def widen (octets : Cpp.ByteString) : Str := octets.map fun octet => Fin.ofNat 0x110000 octet.toNat

theorem widen_injective : Function.Injective widen := by
  refine List.map_injective_iff.mpr fun a b h => ?_
  have hval : a.toNat % 0x110000 = b.toNat % 0x110000 := congrArg Fin.val h
  have ha := a.toNat_lt
  have hb := b.toNat_lt
  exact UInt8.toNat_inj.mp (by omega)

@[simp] theorem widen_nil : widen [] = [] := rfl

@[simp] theorem widen_append (first second : Cpp.ByteString) :
    widen (first ++ second) = widen first ++ widen second := List.map_append

/-- What C++ makes of the octets of a character. -/
def bytewise (c : Char) : Str := widen ((String.utf8EncodeChar c).map Cpp.normalizeByte)

/-- What Python makes of a character. -/
def charwise (c : Char) : Str := normalizeCodePoint (codePoint c)

/-- On ASCII the two sides agree: one character, an underscore unless it is kept. -/
theorem ascii_alike {c : Char} (h : c.toNat < 0x80) :
    bytewise c = charwise c ∧ ∃ x, charwise c = [x] ∧
      (x = Python.underscore ↔ Kept (codePoint c) = false) := by
  have hall : ∀ n : Fin 0x80,
      widen [Cpp.normalizeByte (UInt8.ofNat n.val)] =
        normalizeCodePoint (Fin.ofNat 0x110000 n.val) ∧
      normalizeCodePoint (Fin.ofNat 0x110000 n.val) =
        [(normalizeCodePoint (Fin.ofNat 0x110000 n.val)).headD 0] ∧
      ((normalizeCodePoint (Fin.ofNat 0x110000 n.val)).headD 0 = Python.underscore ↔
        Kept (Fin.ofNat 0x110000 n.val) = false) := by
    decide
  obtain ⟨hsame, hone, hkept⟩ := hall ⟨c.toNat, h⟩
  unfold bytewise
  rw [Utf8.encodeChar_ascii h]
  exact ⟨hsame, _, hone, hkept⟩

theorem kept_ascii {c : Char} (h : Kept (codePoint c) = true) : c.toNat < 0x80 := by
  rw [← Python.codePoint_val]
  simp only [Kept, Bool.or_eq_true, Bool.and_eq_true, decide_eq_true_eq, Fin.le_def] at h
  rcases h with (((h | h) | h) | h) | h
  · exact Nat.lt_of_le_of_lt h.2 (by decide)
  · exact Nat.lt_of_le_of_lt h.2 (by decide)
  · exact Nat.lt_of_le_of_lt h.2 (by decide)
  · rw [h]
    decide
  · rw [h]
    decide

theorem normalizeByte_wide {octet : UInt8} (h : 0x80 ≤ octet.toNat) :
    Cpp.normalizeByte octet = Cpp.underscore := by
  have hkept : ¬ (((0x61 ≤ octet && octet ≤ 0x7A) || (0x30 ≤ octet && octet ≤ 0x39) ||
      octet = 0x2D || octet = Cpp.underscore || octet = 0x2E) = true) := by
    simp only [Cpp.underscore, Bool.or_eq_true, Bool.and_eq_true, decide_eq_true_eq,
      UInt8.le_iff_toNat_le, ← UInt8.toNat_inj, UInt8.reduceToNat]
    omega
  have hupper : ¬ ((0x41 ≤ octet && octet ≤ 0x5A) = true) := by
    simp only [Bool.and_eq_true, decide_eq_true_eq, UInt8.le_iff_toNat_le, UInt8.reduceToNat]
    omega
  rw [Cpp.normalizeByte, if_neg hkept, if_neg hupper]

/-- C++ leaves at least two underscores for a character outside ASCII. -/
theorem bytewise_wide {c : Char} (h : 0x80 ≤ c.toNat) :
    2 ≤ (bytewise c).length ∧ ∀ x ∈ bytewise c, x = Python.underscore := by
  constructor
  · have hpos := c.utf8Size_pos
    have hone : c.utf8Size ≠ 1 := fun hone => by
      have hle : c.val ≤ 127 := Char.utf8Size_eq_one_iff.mp hone
      have hle' : c.toNat ≤ 127 := UInt32.le_iff_toNat_le.mp hle
      omega
    rw [bytewise, widen, List.length_map, List.length_map, String.length_utf8EncodeChar]
    omega
  · intro x hx
    obtain ⟨normalized, hnormalized, rfl⟩ := List.mem_map.mp hx
    obtain ⟨octet, hoctet, rfl⟩ := List.mem_map.mp hnormalized
    rw [normalizeByte_wide (Utf8.encodeChar_wide h octet hoctet)]
    rfl

/-- Python leaves one, but for the two letters that lower into ASCII. -/
theorem charwise_wide {c : Char} (h : 0x80 ≤ c.toNat) :
    charwise c =
      if codePoint c = 0x212A then Python.str "k"
      else if codePoint c = 0x0130 then Python.str "i_"
      else [Python.underscore] := by
  have hkept : ∀ n : CodePoint, n < 0x80 → codePoint c ≠ n := by
    intro n hn heq
    have hval := Python.codePoint_val c
    rw [heq] at hval
    have hlt : n.val < 0x80 := hn
    omega
  have hbound : ∀ n : CodePoint, n < 0x80 → ¬ codePoint c ≤ n := by
    intro n hn hle
    have hval : (codePoint c).val ≤ n.val := hle
    have hlt : n.val < 0x80 := hn
    rw [Python.codePoint_val] at hval
    omega
  unfold charwise normalizeCodePoint
  rw [if_neg, if_neg]
  · exact fun hupper => hbound _ (by decide) hupper.2
  · rintro (hlower | hdigit | hdot | hunderscore | hdash)
    · exact hbound _ (by decide) hlower.2
    · exact hbound _ (by decide) hdigit.2
    · exact hkept _ (by decide) hdot
    · exact hkept _ (by decide) hunderscore
    · exact hkept _ (by decide) hdash

/-! ## Whole names -/

/-- The core of a text, in characters. -/
def coreChars (chars : List Char) : List Char := trim (fun c => !Kept (codePoint c)) chars

theorem core_ofChars (chars : List Char) : core (ofChars chars) = ofChars (coreChars chars) :=
  trim_map (fun _ => rfl) chars

/-- A kept character is one character in the middle of a name on either side. -/
theorem kept_trimmed {c : Char} (h : Kept (codePoint c) = true) :
    charwise c ≠ [] ∧ Trimmed (fun x => decide (x = Python.underscore)) (charwise c) := by
  obtain ⟨x, hx, hkept⟩ := (ascii_alike (kept_ascii h)).2
  have hne : x ≠ Python.underscore := fun heq => by
    rw [hkept.mp heq] at h
    cases h
  rw [hx]
  exact ⟨List.cons_ne_nil _ _, by simpa using hne, by simpa using hne⟩

/-- A word without underscores at its ends. -/
abbrev stripped (word : Str) : Str := trim (fun x => decide (x = Python.underscore)) word

theorem widen_normalize (chars : List Char) :
    widen (Cpp.normalize (Utf8.encode chars)) = stripped (chars.flatMap bytewise) := by
  have hmapped : widen ((Utf8.encode chars).map Cpp.normalizeByte) = chars.flatMap bytewise := by
    rw [widen, Utf8.encode, List.map_flatMap, List.map_flatMap]
    rfl
  have hunderscore : ∀ octet : UInt8, decide (Fin.ofNat 0x110000 octet.toNat = Python.underscore) =
      decide (octet = Cpp.underscore) := by
    intro octet
    refine decide_eq_decide.mpr ⟨fun h => ?_, fun h => by rw [h]; rfl⟩
    exact List.singleton_injective (widen_injective (congrArg (fun x => [x]) h))
  rw [← hmapped]
  exact (trim_map hunderscore _).symm

theorem normalize_ofChars (chars : List Char) :
    Python.normalize (ofChars chars) = stripped (chars.flatMap charwise) := by
  have hmapped : (ofChars chars).flatMap normalizeCodePoint = chars.flatMap charwise :=
    List.flatMap_map codePoint normalizeCodePoint chars
  rw [← hmapped]
  rfl

/-- The C++ name is what the core spells. -/
theorem stripped_bytewise (chars : List Char) :
    stripped (chars.flatMap bytewise) = (coreChars chars).flatMap bytewise := by
  refine trim_flatMap (fun c _ hdropped y hy => ?_) fun c _ hkept => ?_
  · rw [Bool.not_eq_true'] at hdropped
    rw [decide_eq_true_eq]
    by_cases hascii : c.toNat < 0x80
    · obtain ⟨hsame, x, hx, hunkept⟩ := ascii_alike hascii
      rw [hsame, hx, List.mem_singleton] at hy
      rw [hy, hunkept.mpr hdropped]
    · exact (bytewise_wide (Nat.not_lt.mp hascii)).2 y hy
  · rw [Bool.not_eq_false'] at hkept
    rw [(ascii_alike (kept_ascii hkept)).1]
    exact kept_trimmed hkept

/-- A letter whose lower case falls back into ASCII. -/
def FallsBack (c : Char) : Prop := codePoint c = 0x212A ∨ codePoint c = 0x0130

theorem charwise_of_not_fallsBack {c : Char} (h : ¬ FallsBack c) : ∃ x, charwise c = [x] ∧
    (Kept (codePoint c) = false → x = Python.underscore) := by
  by_cases hascii : c.toNat < 0x80
  · obtain ⟨-, x, hx, hunkept⟩ := ascii_alike hascii
    exact ⟨x, hx, hunkept.mpr⟩
  · refine ⟨Python.underscore, ?_, fun _ => rfl⟩
    rw [charwise_wide (Nat.not_lt.mp hascii), if_neg (not_or.mp h).1, if_neg (not_or.mp h).2]

/-- So is the Python name, when no letter falls back into ASCII. -/
theorem stripped_charwise {chars : List Char} (hplain : ∀ c ∈ chars, ¬ FallsBack c) :
    stripped (chars.flatMap charwise) = (coreChars chars).flatMap charwise := by
  refine trim_flatMap (fun c hc hdropped y hy => ?_) fun c _ hkept => ?_
  · rw [Bool.not_eq_true'] at hdropped
    obtain ⟨x, hx, hunkept⟩ := charwise_of_not_fallsBack (hplain c hc)
    rw [hx, List.mem_singleton] at hy
    rw [decide_eq_true_eq, hy, hunkept hdropped]
  · rw [Bool.not_eq_false'] at hkept
    exact kept_trimmed hkept

/-! ### Letters on either side -/

/-- A word without its underscores. -/
def letters (word : Str) : Str := word.filter fun x => !decide (x = Python.underscore)

theorem letters_stripped_flatMap (f : Char → Str) (chars : List Char) :
    letters (stripped (chars.flatMap f)) = chars.flatMap fun c => letters (f c) := by
  rw [letters, filter_trim, List.filter_flatMap]
  rfl

/-- Python never has fewer letters than C++, and has more for a letter that falls
back into ASCII. -/
theorem letters_le (c : Char) : (letters (bytewise c)).length ≤ (letters (charwise c)).length ∧
    (FallsBack c → (letters (bytewise c)).length ≠ (letters (charwise c)).length) := by
  by_cases hascii : c.toNat < 0x80
  · rw [(ascii_alike hascii).1]
    refine ⟨Nat.le_refl _, fun h => ?_⟩
    have hval := Python.codePoint_val c
    rcases h with h | h
    · rw [h] at hval
      exact absurd (hval ▸ hascii) (by decide)
    · rw [h] at hval
      exact absurd (hval ▸ hascii) (by decide)
  · have hwide := Nat.not_lt.mp hascii
    have hnone : letters (bytewise c) = [] := by
      refine List.filter_eq_nil_iff.mpr fun x hx => ?_
      rw [(bytewise_wide hwide).2 x hx]
      decide
    rw [hnone, charwise_wide hwide]
    refine ⟨Nat.zero_le _, ?_⟩
    rintro (h | h)
    · rw [if_pos h]
      decide
    · rw [h]
      decide

/-- **Both sides make the same name of plain strings, and of no others.** -/
theorem normalize_agrees_iff (chars : List Char) :
    Python.normalize (ofChars chars) = widen (Cpp.normalize (Utf8.encode chars)) ↔
      Plain (ofChars chars) := by
  have hmem : ∀ n : CodePoint, n ∉ ofChars chars ↔ ∀ c ∈ chars, codePoint c ≠ n := by
    intro n
    rw [ofChars, List.mem_map, not_exists]
    exact forall_congr' fun c => not_and
  have hplain : Plain (ofChars chars) ↔
      (∀ c ∈ chars, ¬ FallsBack c) ∧ ∀ c ∈ coreChars chars, c.toNat < 0x80 := by
    have hcore : (∀ n ∈ core (ofChars chars), n < 0x80) ↔
        ∀ c ∈ coreChars chars, c.toNat < 0x80 := by
      rw [core_ofChars, ofChars, List.forall_mem_map]
      refine forall₂_congr fun c _ => ?_
      rw [← Python.codePoint_val]
      rfl
    unfold Plain FallsBack
    rw [hcore, hmem, hmem, ← and_assoc]
    refine and_congr_left fun _ => ⟨fun h c hc => ?_, fun h => ⟨fun c hc => ?_, fun c hc => ?_⟩⟩
    · exact not_or.mpr ⟨h.1 c hc, h.2 c hc⟩
    · exact (not_or.mp (h c hc)).1
    · exact (not_or.mp (h c hc)).2
  rw [hplain, widen_normalize, normalize_ofChars]
  constructor
  · intro h
    have hletters : (chars.flatMap fun c => letters (bytewise c)).length =
        (chars.flatMap fun c => letters (charwise c)).length := by
      rw [← letters_stripped_flatMap, ← letters_stripped_flatMap, h]
    have hnone : ∀ c ∈ chars, ¬ FallsBack c := fun c hc hfalls =>
      (letters_le c).2 hfalls (length_eq_of_flatMap (fun c _ => (letters_le c).1) hletters c hc)
    refine ⟨hnone, fun c hc => ?_⟩
    rw [stripped_bytewise, stripped_charwise hnone] at h
    have hone : ∀ c ∈ coreChars chars, (charwise c).length = 1 := fun c hc => by
      obtain ⟨x, hx, -⟩ := charwise_of_not_fallsBack (hnone c (mem_of_mem_trim hc))
      rw [hx]
      rfl
    have hlengths := length_eq_of_flatMap (fun c hc => ?_) (congrArg List.length h) c hc
    · by_contra hwide
      have htwo := (bytewise_wide (Nat.not_lt.mp hwide)).1
      have hsingle := hone c hc
      omega
    · have hsingle := hone c hc
      by_cases hascii : c.toNat < 0x80
      · rw [(ascii_alike hascii).1]
      · have htwo := (bytewise_wide (Nat.not_lt.mp hascii)).1
        omega
  · rintro ⟨hnone, hascii⟩
    rw [stripped_bytewise, stripped_charwise hnone]
    exact List.flatMap_congr fun c hc => (ascii_alike (hascii c hc)).1.symm

/-! ## Prefixes and collections -/

/-- The separator of a plugin collection name. -/
def colon : CodePoint := 0x3A

theorem colon_notMem_normalize (value : Str) : colon ∉ Python.normalize value := by
  have hone : ∀ c, colon ∉ normalizeCodePoint c := by
    intro c h
    unfold normalizeCodePoint at h
    split at h
    next hkept =>
      rw [← List.mem_singleton.mp h] at hkept
      exact absurd hkept (by decide)
    split at h
    next hupper =>
      obtain ⟨n, hn⟩ : ∃ n : Fin 26, c = Fin.ofNat 0x110000 (0x41 + n.val) := by
        have hlow : 0x41 ≤ c.val := hupper.1
        have hhigh : c.val ≤ 0x5A := hupper.2
        refine ⟨⟨c.val - 0x41, by omega⟩, Fin.ext ?_⟩
        show c.val = (0x41 + (c.val - 0x41)) % 0x110000
        omega
      have hall : ∀ n : Fin 26, colon ≠ Fin.ofNat 0x110000 (0x41 + n.val) + 0x20 := by decide
      rw [hn] at h
      exact absurd (List.mem_singleton.mp h) (hall n)
    split at h
    · exact absurd h (by decide)
    split at h
    · exact absurd h (by decide)
    · exact absurd h (by decide)
  intro h
  obtain ⟨c, -, hc⟩ := List.mem_flatMap.mp (mem_of_mem_trim h)
  exact hone c hc

theorem colon_notMem_widen {octets : Cpp.ByteString} (h : Cpp.colon ∉ octets) :
    colon ∉ widen octets := by
  intro hmem
  obtain ⟨octet, hoctet, hcolon⟩ := List.mem_map.mp hmem
  have hsame : octet = Cpp.colon :=
    List.singleton_injective (widen_injective (congrArg (fun x => [x]) hcolon))
  exact h (hsame ▸ hoctet)

section Names

variable {chars : List Char}

/-- The C++ name is empty when nothing is kept. -/
theorem cpp_normalize_eq_nil_iff :
    Cpp.normalize (Utf8.encode chars) = [] ↔ coreChars chars = [] := by
  rw [← List.map_eq_nil_iff, ← widen, widen_normalize, stripped_bytewise]
  constructor
  · intro h
    cases hcore : coreChars chars with
    | nil => rfl
    | cons c rest =>
        have hkept : Kept (codePoint c) = true := by
          have hfirst := (trimmed_trim (fun c => !Kept (codePoint c)) chars).1 c (by
            rw [show trim _ chars = c :: rest from hcore]
            rfl)
          simpa using hfirst
        rw [hcore, List.flatMap_cons, (ascii_alike (kept_ascii hkept)).1] at h
        exact absurd (List.append_eq_nil_iff.mp h).1 (kept_trimmed hkept).1
  · intro h
    rw [h]
    rfl

/-- Where nothing is kept the Python name has no letter but those two. -/
theorem charwise_of_not_kept {c : Char} (h : Kept (codePoint c) = false) :
    charwise c = [Python.underscore] ∨ FallsBack c := by
  by_cases hfalls : FallsBack c
  · exact .inr hfalls
  · obtain ⟨x, hx, hunkept⟩ := charwise_of_not_fallsBack hfalls
    exact .inl (hunkept h ▸ hx)

/-- An empty Python name means that nothing is kept. -/
theorem core_of_normalize_nil (h : Python.normalize (ofChars chars) = []) :
    coreChars chars = [] := by
  rw [normalize_ofChars] at h
  have hall := trim_eq_nil_iff.mp h
  refine trim_eq_nil_iff.mpr fun c hc => ?_
  rw [Bool.not_eq_true', ← Bool.not_eq_true]
  intro hkept
  obtain ⟨x, hx, hunkept⟩ := (ascii_alike (kept_ascii hkept)).2
  have hunderscore := hall x (List.mem_flatMap.mpr
    ⟨c, hc, by rw [hx]; exact List.mem_singleton_self x⟩)
  rw [hunkept.mp (decide_eq_true_eq.mp hunderscore)] at hkept
  cases hkept

/-- Both constructors keep the same prefix exactly when the names agree. -/
theorem prefix_agrees_iff :
    Python.AccessPolicy.prefix_ ⟨ofChars chars⟩ =
        widen (Cpp.DynamicPropertyAccessPolicy.prefix_ ⟨Utf8.encode chars⟩) ↔
      Python.normalize (ofChars chars) = widen (Cpp.normalize (Utf8.encode chars)) := by
  unfold Python.AccessPolicy.prefix_ Cpp.DynamicPropertyAccessPolicy.prefix_
  simp only [List.isEmpty_iff]
  have hdefault : Python.str "endstone-plugin" = widen (Cpp.text "endstone-plugin") := rfl
  by_cases hcpp : Cpp.normalize (Utf8.encode chars) = []
  · rw [if_pos hcpp, hcpp]
    by_cases hpython : Python.normalize (ofChars chars) = []
    · rw [if_pos hpython, hpython]
      exact iff_of_true hdefault rfl
    · -- the letters that fall back into ASCII do not spell the default
      rw [if_neg hpython]
      refine iff_of_false (fun h => ?_) hpython
      have hunkept := trim_eq_nil_iff.mp (cpp_normalize_eq_nil_iff.mp hcpp)
      have he : (0x65 : CodePoint) ∈ Python.normalize (ofChars chars) := by
        rw [h]
        exact List.mem_cons_self
      rw [normalize_ofChars] at he
      obtain ⟨c, hc, hletter⟩ := List.mem_flatMap.mp (mem_of_mem_trim he)
      rcases charwise_of_not_kept (by simpa using hunkept c hc) with hunderscore | hk | hi
      · rw [hunderscore] at hletter
        exact absurd hletter (by decide)
      · unfold charwise at hletter
        rw [hk] at hletter
        exact absurd hletter (by decide)
      · unfold charwise at hletter
        rw [hi] at hletter
        exact absurd hletter (by decide)
  · have hpython : Python.normalize (ofChars chars) ≠ [] :=
      fun h => hcpp (cpp_normalize_eq_nil_iff.mpr (core_of_normalize_nil h))
    rw [if_neg hcpp, if_neg hpython]

theorem colonFree_policy (policy : Python.AccessPolicy) : colon ∉ policy.prefix_ := by
  unfold Python.AccessPolicy.prefix_
  dsimp only
  split
  · decide
  · exact colon_notMem_normalize _

theorem colonFree_cppPolicy (policy : Cpp.DynamicPropertyAccessPolicy) :
    Cpp.colon ∉ policy.prefix_ := by
  unfold Cpp.DynamicPropertyAccessPolicy.prefix_
  dsimp only
  split
  · decide
  · exact Cpp.colon_notMem_normalize _

/-- A word without colons is read back from what it is closed by. -/
theorem closed_eq_iff {a b a' b' : Str} (ha : colon ∉ a) (ha' : colon ∉ a') :
    a ++ [colon] ++ b ++ [colon] = a' ++ [colon] ++ b' ++ [colon] ↔ a = a' ∧ b = b' := by
  constructor
  · intro h
    rw [List.append_assoc, List.append_assoc (a' ++ [colon])] at h
    have hstart : a' ++ [colon] <+: a ++ [colon] ++ (b ++ [colon]) := by
      rw [h]
      exact List.prefix_append _ _
    have hfirst : a = a' :=
      Spelling.eq_of_closed_isPrefix ha ha' (List.prefix_append _ _) hstart
    subst hfirst
    have hrest := List.append_cancel_left h
    exact ⟨rfl, List.append_cancel_right hrest⟩
  · rintro ⟨rfl, rfl⟩
    rfl

variable {configured : List Char}

/-- The prefixes of a plugin agree exactly when its identifier is plain, and the
configured prefix is too unless the plugin has none. -/
theorem pluginPrefix_agrees_iff :
    Python.AccessPolicy.pluginPrefix ⟨ofChars configured⟩ (ofChars chars) =
        widen (Cpp.DynamicPropertyAccessPolicy.pluginPrefix ⟨Utf8.encode configured⟩
          (Utf8.encode chars)) ↔
      Plain (ofChars chars) ∧ (core (ofChars chars) = [] ∨ Plain (ofChars configured)) := by
  have hcore : core (ofChars chars) = [] ↔ Cpp.normalize (Utf8.encode chars) = [] := by
    rw [core_ofChars, cpp_normalize_eq_nil_iff]
    exact List.map_eq_nil_iff
  have hconfigured := prefix_agrees_iff.trans (normalize_agrees_iff configured)
  rw [hcore, ← hconfigured, ← normalize_agrees_iff]
  unfold Python.AccessPolicy.pluginPrefix Cpp.DynamicPropertyAccessPolicy.pluginPrefix
  simp only [List.isEmpty_iff]
  by_cases hcpp : Cpp.normalize (Utf8.encode chars) = []
  · rw [if_pos hcpp, hcpp]
    by_cases hpython : Python.normalize (ofChars chars) = []
    · rw [if_pos hpython]
      exact iff_of_true rfl ⟨hpython, .inl rfl⟩
    · rw [if_neg hpython]
      refine iff_of_false (fun h => ?_) fun h => hpython h.1
      have hnil := (List.append_eq_nil_iff.mp h).2
      cases hnil
  · have hpython : Python.normalize (ofChars chars) ≠ [] :=
      fun h => hcpp (cpp_normalize_eq_nil_iff.mpr (core_of_normalize_nil h))
    rw [if_neg hcpp, if_neg hpython, or_iff_right hcpp, and_comm,
      ← closed_eq_iff (colonFree_policy _) (colon_notMem_widen (colonFree_cppPolicy _)),
      widen_append, widen_append, widen_append]
    exact Iff.rfl

variable {logical : List Char}

/-- Where the prefixes agree, the collections do exactly when the logical name is
plain or there is no prefix. -/
theorem pluginCollection_agrees_iff
    (hsame : Python.AccessPolicy.pluginPrefix ⟨ofChars configured⟩ (ofChars chars) =
        widen (Cpp.DynamicPropertyAccessPolicy.pluginPrefix ⟨Utf8.encode configured⟩
          (Utf8.encode chars))) :
    Python.AccessPolicy.pluginCollection ⟨ofChars configured⟩ (ofChars chars) (ofChars logical) =
        widen (Cpp.DynamicPropertyAccessPolicy.pluginCollection ⟨Utf8.encode configured⟩
          (Utf8.encode chars) (Utf8.encode logical)) ↔
      core (ofChars chars) = [] ∨ Plain (ofChars logical) := by
  have hcore : core (ofChars chars) = [] ↔
      Cpp.DynamicPropertyAccessPolicy.pluginPrefix ⟨Utf8.encode configured⟩
        (Utf8.encode chars) = [] := by
    rw [core_ofChars, ofChars, List.map_eq_nil_iff, ← cpp_normalize_eq_nil_iff, ← not_iff_not]
    exact Cpp.pluginPrefix_ne_nil_iff.symm
  have hwidened : ∀ octets : Cpp.ByteString, widen octets = [] ↔ octets = [] :=
    fun octets => List.map_eq_nil_iff
  rw [hcore, ← normalize_agrees_iff]
  unfold Python.AccessPolicy.pluginCollection Cpp.DynamicPropertyAccessPolicy.pluginCollection
  simp only [hsame, List.isEmpty_iff, Bool.or_eq_true, hwidened]
  by_cases hnone : Cpp.DynamicPropertyAccessPolicy.pluginPrefix ⟨Utf8.encode configured⟩
      (Utf8.encode chars) = []
  · rw [if_pos (.inl hnone), if_pos (.inl hnone)]
    exact iff_of_true rfl (.inl hnone)
  simp only [hnone, false_or]
  by_cases hcpp : Cpp.normalize (Utf8.encode logical) = []
  · rw [if_pos hcpp, hcpp]
    by_cases hpython : Python.normalize (ofChars logical) = []
    · rw [if_pos hpython, hpython]
    · rw [if_neg hpython]
      exact iff_of_false (fun h => hpython (List.append_eq_nil_iff.mp h).2) hpython
  · have hpython : Python.normalize (ofChars logical) ≠ [] :=
      fun h => hcpp (cpp_normalize_eq_nil_iff.mpr (core_of_normalize_nil h))
    rw [if_neg hcpp, if_neg hpython, widen_append]
    exact ⟨List.append_cancel_left, congrArg _⟩

end Names

/-! ## The same namespace -/

theorem encodeUtf8_widen {octets : Cpp.ByteString} (h : ∀ octet ∈ octets, octet.toNat < 0x80) :
    encodeUtf8 (widen octets) = .ok octets := by
  refine Python.encodeUtf8_eq_ok_iff.mpr ⟨octets.map Char.ofUInt8, ?_, ?_⟩
  · rw [ofChars, List.map_map]
    rfl
  · induction octets with
    | nil => rfl
    | cons octet rest ih =>
        have hoctet : (Char.ofUInt8 octet).toNat < 0x80 := h octet List.mem_cons_self
        rw [List.map_cons, Utf8.encode_cons, Utf8.encodeChar_ascii hoctet,
          ← ih fun c hc => h c (List.mem_cons_of_mem _ hc)]
        show octet :: rest = UInt8.ofNat octet.toNat :: rest
        rw [UInt8.ofNat_toNat]

section Ascii

theorem ascii_normalizeByte (octet : UInt8) : (Cpp.normalizeByte octet).toNat < 0x80 := by
  by_cases h : octet.toNat < 0x80
  · unfold Cpp.normalizeByte
    split
    · exact h
    · split
      next hupper =>
        simp only [Bool.and_eq_true, decide_eq_true_eq] at hupper
        have hle := UInt8.le_iff_toNat_le.mp hupper.2
        rw [UInt8.toNat_add, UInt8.toNat_sub_of_le _ _ hupper.1]
        simp only [UInt8.reduceToNat] at hle ⊢
        omega
      next => decide
  · rw [normalizeByte_wide (Nat.le_of_not_lt h)]
    decide

theorem ascii_normalize (value : Cpp.ByteString) :
    ∀ octet ∈ Cpp.normalize value, octet.toNat < 0x80 := by
  intro octet h
  have hmem : octet ∈ trim (fun c => decide (c = Cpp.underscore))
    (value.map Cpp.normalizeByte) := h
  obtain ⟨c, -, rfl⟩ := List.mem_map.mp (mem_of_mem_trim hmem)
  exact ascii_normalizeByte c

variable (policy : Cpp.DynamicPropertyAccessPolicy)

theorem ascii_pluginPrefix (pluginId : Cpp.ByteString) :
    ∀ octet ∈ policy.pluginPrefix pluginId, octet.toNat < 0x80 := by
  have hsame : ∀ octet ∈ policy.prefix_, octet.toNat < 0x80 := by
    unfold Cpp.DynamicPropertyAccessPolicy.prefix_
    dsimp only
    split
    · have hall : ((Cpp.text "endstone-plugin").all fun octet => decide (octet.toNat < 0x80)) =
          true := rfl
      exact fun octet h => of_decide_eq_true (List.all_eq_true.mp hall octet h)
    · exact ascii_normalize _
  have hcolon : ∀ octet ∈ [Cpp.colon], octet.toNat < 0x80 := by
    intro octet hmem
    rw [List.mem_singleton.mp hmem]
    decide
  unfold Cpp.DynamicPropertyAccessPolicy.pluginPrefix
  dsimp only
  split
  · nofun
  · simp only [List.forall_mem_append]
    exact ⟨⟨⟨hsame, hcolon⟩, ascii_normalize _⟩, hcolon⟩

theorem ascii_pluginCollection (pluginId logical : Cpp.ByteString) :
    ∀ octet ∈ policy.pluginCollection pluginId logical, octet.toNat < 0x80 := by
  unfold Cpp.DynamicPropertyAccessPolicy.pluginCollection
  dsimp only
  split
  · nofun
  · exact List.forall_mem_append.mpr ⟨ascii_pluginPrefix policy pluginId, ascii_normalize _⟩

end Ascii

/-- An ASCII answer of C++ encodes the answer of Python exactly when it is that
answer, octet for code point. -/
theorem encodes_iff {value : Str} {octets : Cpp.ByteString}
    (hascii : ∀ octet ∈ octets, octet.toNat < 0x80) :
    encodeUtf8 value = .ok octets ↔ value = widen octets :=
  ⟨fun h => Python.encodeUtf8_inj h (encodeUtf8_widen hascii),
    fun h => h ▸ encodeUtf8_widen hascii⟩

/-- The two policies give a plugin the same prefix and the same collection, and
let it access the same collections. -/
structure SameNamespace (python : Python.AccessPolicy) (cpp : Cpp.DynamicPropertyAccessPolicy)
    (pluginId logical : Str) (pluginIdOctets logicalOctets : Cpp.ByteString) : Prop where
  pluginPrefix : encodeUtf8 (python.pluginPrefix pluginId) = .ok (cpp.pluginPrefix pluginIdOctets)
  pluginCollection : encodeUtf8 (python.pluginCollection pluginId logical) =
    .ok (cpp.pluginCollection pluginIdOctets logicalOctets)
  canAccess : ∀ (rawAdmin : Bool) (ref : Python.CollectionRef) (octetRef : Cpp.CollectionRef),
    encodeUtf8 ref.collection = .ok octetRef.collection →
      python.canAccess { pluginId, rawAdmin } ref =
        cpp.canAccess { pluginId := pluginIdOctets, rawAdmin } octetRef

/-- Equal prefixes start the same names. -/
theorem canAccess_eq {python : Python.AccessPolicy} {cpp : Cpp.DynamicPropertyAccessPolicy}
    {pluginId : Str} {pluginIdOctets : Cpp.ByteString}
    (hsame : encodeUtf8 (python.pluginPrefix pluginId) = .ok (cpp.pluginPrefix pluginIdOctets))
    (rawAdmin : Bool) {ref : Python.CollectionRef} {octetRef : Cpp.CollectionRef}
    (hname : encodeUtf8 ref.collection = .ok octetRef.collection) :
    python.canAccess { pluginId, rawAdmin } ref =
      cpp.canAccess { pluginId := pluginIdOctets, rawAdmin } octetRef := by
  obtain ⟨first, hfirst, hfirstOctets⟩ := Python.encodeUtf8_eq_ok_iff.mp hsame
  obtain ⟨second, hsecond, hsecondOctets⟩ := Python.encodeUtf8_eq_ok_iff.mp hname
  have hempty : (ofChars first).isEmpty = (Utf8.encode first).isEmpty := by
    cases first with
    | nil => rfl
    | cons c rest =>
        have hpos := Utf8.encodeChar_length_pos c
        obtain ⟨lead, tail, hoctets⟩ := List.exists_cons_of_length_pos hpos
        rw [Utf8.encode_cons, hoctets]
        rfl
  have hstarts : (ofChars first).isPrefixOf (ofChars second) =
      (Utf8.encode first).isPrefixOf (Utf8.encode second) := by
    rw [Bool.eq_iff_iff, List.isPrefixOf_iff_prefix, List.isPrefixOf_iff_prefix,
      Python.ofChars_isPrefix_iff, Utf8.encode_isPrefix_iff]
  unfold Python.AccessPolicy.canAccess Cpp.DynamicPropertyAccessPolicy.canAccess
  simp only [hfirst, hfirstOctets, hsecond, hsecondOctets, hempty, hstarts]

/-- **The two implementations give a plugin the same namespace exactly when** its
identifier is plain and, unless the identifier keeps no character and has no
namespace at all, the configured prefix and the logical name are plain too. -/
theorem sameNamespace_iff {configured pluginId logical : Str}
    {configuredOctets pluginIdOctets logicalOctets : Cpp.ByteString}
    (hconfigured : encodeUtf8 configured = .ok configuredOctets)
    (hpluginId : encodeUtf8 pluginId = .ok pluginIdOctets)
    (hlogical : encodeUtf8 logical = .ok logicalOctets) :
    SameNamespace ⟨configured⟩ ⟨configuredOctets⟩ pluginId logical pluginIdOctets logicalOctets ↔
      Plain pluginId ∧ (core pluginId = [] ∨ Plain configured ∧ Plain logical) := by
  obtain ⟨prefixChars, rfl, rfl⟩ := Python.encodeUtf8_eq_ok_iff.mp hconfigured
  obtain ⟨idChars, rfl, rfl⟩ := Python.encodeUtf8_eq_ok_iff.mp hpluginId
  obtain ⟨logicalChars, rfl, rfl⟩ := Python.encodeUtf8_eq_ok_iff.mp hlogical
  have hagrees : encodeUtf8 (Python.AccessPolicy.pluginPrefix ⟨ofChars prefixChars⟩
      (ofChars idChars)) = .ok (Cpp.DynamicPropertyAccessPolicy.pluginPrefix
        ⟨Utf8.encode prefixChars⟩ (Utf8.encode idChars)) ↔ _ :=
    (encodes_iff (ascii_pluginPrefix _ _)).trans pluginPrefix_agrees_iff
  rw [or_and_left, ← and_assoc, ← hagrees]
  constructor
  · intro h
    refine ⟨h.pluginPrefix, ?_⟩
    rw [← pluginCollection_agrees_iff ((encodes_iff (ascii_pluginPrefix _ _)).mp h.pluginPrefix)]
    exact (encodes_iff (ascii_pluginCollection _ _ _)).mp h.pluginCollection
  · rintro ⟨hsame, hcondition⟩
    refine ⟨hsame, ?_, fun rawAdmin ref octetRef hname => canAccess_eq hsame rawAdmin hname⟩
    rw [encodes_iff (ascii_pluginCollection _ _ _), pluginCollection_agrees_iff
      ((encodes_iff (ascii_pluginPrefix _ _)).mp hsame)]
    exact hcondition

theorem sameNamespace_myPlugin :
    SameNamespace ⟨Python.str "Shop"⟩ ⟨Cpp.text "Shop"⟩ (Python.str "My Plugin")
      (Python.str "\u00e9tat") (Cpp.text "My Plugin") (Cpp.text "\u00e9tat") :=
  (sameNamespace_iff (Python.encodeUtf8_str _) (Python.encodeUtf8_str _)
    (Python.encodeUtf8_str _)).mpr (by decide)

/-- A letter of two octets inside an identifier is two underscores in C++ and one
in Python, and the Kelvin sign is a namespace in Python only. -/
theorem namespaces_differ :
    encodeUtf8 (Python.AccessPolicy.pluginPrefix {} (Python.str "a\u00e9b")) =
        .ok (Cpp.text "endstone-plugin:a_b:") ∧
      Cpp.DynamicPropertyAccessPolicy.pluginPrefix {} (Cpp.text "a\u00e9b") =
        Cpp.text "endstone-plugin:a__b:" ∧
      encodeUtf8 (Python.AccessPolicy.pluginPrefix {} (Python.str "a\u00e9b")) ≠
        .ok (Cpp.DynamicPropertyAccessPolicy.pluginPrefix {} (Cpp.text "a\u00e9b")) ∧
      encodeUtf8 (Python.AccessPolicy.pluginPrefix {} (Python.str "\u212a")) =
        .ok (Cpp.text "endstone-plugin:k:") ∧
      Cpp.DynamicPropertyAccessPolicy.pluginPrefix {} (Cpp.text "\u212a") = [] := by
  decide

end DynamicProperties
