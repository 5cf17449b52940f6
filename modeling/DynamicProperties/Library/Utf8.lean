import Mathlib.Data.List.Basic

/-!
# UTF-8 texts

The octets of a text over Lean's encoding of a single character, and the octet
strings that are such texts.  An octet string is cut into characters in one way
only, and an octet that starts a character cannot lie inside another one
(`WellFormed.of_append_lead`), so the parts of a text around it are texts.
-/

namespace DynamicProperties.Library.Utf8

/-- The octets of a text. -/
def encode (chars : List Char) : List UInt8 := chars.flatMap String.utf8EncodeChar

/-- The octets are those of a text. -/
def WellFormed (octets : List UInt8) : Prop := ∃ chars, octets = encode chars

@[simp] theorem encode_nil : encode [] = [] := rfl

@[simp] theorem encode_cons (c : Char) (chars : List Char) :
    encode (c :: chars) = String.utf8EncodeChar c ++ encode chars := List.flatMap_cons

@[simp] theorem encode_append (first second : List Char) :
    encode (first ++ second) = encode first ++ encode second := List.flatMap_append

/-- The character with a given code point. -/
theorem exists_char {n : Nat} (h : n.isValidChar) : ∃ c : Char, c.val.toNat = n :=
  ⟨Char.ofNatAux n h, rfl⟩

/-! ## Octets that start a character -/

/-- No octet of the form `10xxxxxx`. -/
def IsLead (octet : UInt8) : Prop := octet.toNat < 0x80 ∨ 0xC0 ≤ octet.toNat

instance (octet : UInt8) : Decidable (IsLead octet) :=
  inferInstanceAs (Decidable (octet.toNat < 0x80 ∨ 0xC0 ≤ octet.toNat))

theorem encodeChar_length_pos (c : Char) : 0 < (String.utf8EncodeChar c).length := by
  rw [String.length_utf8EncodeChar]
  exact c.utf8Size_pos

/-- A character starts with a lead octet, and its other octets are none. -/
theorem encodeChar_eq (c : Char) : ∃ lead tail, String.utf8EncodeChar c = lead :: tail ∧
    IsLead lead ∧ ∀ octet ∈ tail, ¬ IsLead octet := by
  have hscalar : c.val.toNat < 0x110000 := by
    rcases c.valid with h | h <;> omega
  unfold String.utf8EncodeChar
  simp only
  split
  · refine ⟨_, _, rfl, .inl ?_, by simp⟩
    simp only [UInt8.toNat_ofNat']
    omega
  split
  · refine ⟨_, _, rfl, .inr ?_, ?_⟩
    · simp only [UInt8.toNat_ofNat']
      omega
    · simp only [IsLead, List.mem_cons, List.not_mem_nil, or_false, forall_eq,
        UInt8.toNat_ofNat']
      omega
  split
  · refine ⟨_, _, rfl, .inr ?_, ?_⟩
    · simp only [UInt8.toNat_ofNat']
      omega
    · simp only [IsLead, List.mem_cons, List.not_mem_nil, or_false, forall_eq_or_imp, forall_eq,
        UInt8.toNat_ofNat']
      omega
  · refine ⟨_, _, rfl, .inr ?_, ?_⟩
    · simp only [UInt8.toNat_ofNat']
      omega
    · simp only [IsLead, List.mem_cons, List.not_mem_nil, or_false, forall_eq_or_imp, forall_eq,
        UInt8.toNat_ofNat']
      omega

/-- A character below 0x80 is its own octet. -/
theorem encodeChar_ascii {c : Char} (h : c.toNat < 0x80) :
    String.utf8EncodeChar c = [c.toNat.toUInt8] := by
  have hle : c.val.toNat ≤ 0x7F := Nat.le_of_lt_succ h
  unfold String.utf8EncodeChar
  simp only
  rw [if_pos hle]
  rfl

/-- The octets of any other character are at least 0x80. -/
theorem encodeChar_wide {c : Char} (h : 0x80 ≤ c.toNat) :
    ∀ octet ∈ String.utf8EncodeChar c, 0x80 ≤ octet.toNat := by
  have hscalar : c.val.toNat < 0x110000 := by
    rcases c.valid with h | h <;> omega
  have hwide : ¬ c.val.toNat ≤ 0x7F := Nat.not_le.mpr h
  unfold String.utf8EncodeChar
  simp only
  rw [if_neg hwide]
  split
  · simp only [List.mem_cons, List.not_mem_nil, or_false, forall_eq_or_imp, forall_eq,
      UInt8.toNat_ofNat']
    omega
  split
  · simp only [List.mem_cons, List.not_mem_nil, or_false, forall_eq_or_imp, forall_eq,
      UInt8.toNat_ofNat']
    omega
  · simp only [List.mem_cons, List.not_mem_nil, or_false, forall_eq_or_imp, forall_eq,
      UInt8.toNat_ofNat']
    omega

/-! ## Cutting a text -/

theorem WellFormed.nil : WellFormed [] := ⟨[], rfl⟩

theorem WellFormed.char (c : Char) : WellFormed (String.utf8EncodeChar c) := ⟨[c], by simp⟩

theorem WellFormed.append {first second : List UInt8} (hfirst : WellFormed first)
    (hsecond : WellFormed second) : WellFormed (first ++ second) := by
  obtain ⟨chars, rfl⟩ := hfirst
  obtain ⟨chars', rfl⟩ := hsecond
  exact ⟨chars ++ chars', (encode_append _ _).symm⟩

/-- A text cut before a lead octet, or at its end, is cut between two characters. -/
theorem encode_eq_append {chars : List Char} {first second : List UInt8}
    (h : encode chars = first ++ second) (hlead : ∀ octet ∈ second.head?, IsLead octet) :
    ∃ chars₁ chars₂, chars = chars₁ ++ chars₂ ∧ first = encode chars₁ ∧ second = encode chars₂ := by
  induction chars generalizing first with
  | nil =>
      obtain ⟨rfl, rfl⟩ := List.append_eq_nil_iff.mp h.symm
      exact ⟨[], [], rfl, rfl, rfl⟩
  | cons c chars ih =>
      rw [encode_cons] at h
      rcases List.append_eq_append_iff.mp h with ⟨middle, hfirst, hrest⟩ | ⟨middle, hchar, hsecond⟩
      · -- the first part covers the character
        obtain ⟨chars₁, chars₂, rfl, rfl, rfl⟩ := ih hrest
        exact ⟨c :: chars₁, chars₂, rfl, by rw [encode_cons, hfirst], rfl⟩
      · obtain ⟨lead, tail, heq, -, htail⟩ := encodeChar_eq c
        cases first with
        | nil => exact ⟨[], c :: chars, rfl, rfl, by rw [encode_cons, hchar, hsecond]; rfl⟩
        | cons octet first =>
            cases middle with
            | nil =>
                refine ⟨[c], chars, rfl, ?_, by simpa using hsecond⟩
                rw [encode_cons, hchar]
                simp
            | cons inner middle =>
                -- the cut would lie inside the character
                rw [heq, List.cons_append] at hchar
                have hmem : inner ∈ tail := by
                  rw [(List.cons.inj hchar).2]
                  simp
                have hinner : IsLead inner := hlead inner (by rw [hsecond]; rfl)
                exact absurd hinner (htail inner hmem)

theorem WellFormed.of_append_lead {first second : List UInt8} (h : WellFormed (first ++ second))
    (hlead : ∀ octet ∈ second.head?, IsLead octet) : WellFormed first ∧ WellFormed second := by
  obtain ⟨chars, hchars⟩ := h
  obtain ⟨chars₁, chars₂, -, hfirst, hsecond⟩ := encode_eq_append hchars.symm hlead
  exact ⟨⟨chars₁, hfirst⟩, chars₂, hsecond⟩

/-- A text starts with a lead octet. -/
theorem WellFormed.head_lead {octets : List UInt8} (h : WellFormed octets) :
    ∀ octet ∈ octets.head?, IsLead octet := by
  obtain ⟨chars, rfl⟩ := h
  cases chars with
  | nil => simp
  | cons c chars =>
      obtain ⟨lead, tail, heq, hlead, -⟩ := encodeChar_eq c
      rw [encode_cons, heq]
      simpa using hlead

/-- Octets below 0x80 are the text of their ASCII characters. -/
theorem wellFormed_ascii {octets : List UInt8} (h : ∀ octet ∈ octets, octet.toNat < 0x80) :
    WellFormed octets := by
  induction octets with
  | nil => exact .nil
  | cons octet octets ih =>
      have hoctet := h octet (by simp)
      obtain ⟨c, hc⟩ := exists_char (n := octet.toNat) (.inl (by omega))
      have hchar : String.utf8EncodeChar c = [octet] := by
        rw [encodeChar_ascii (show c.val.toNat < 0x80 by rw [hc]; exact hoctet), ← Char.toNat_val,
          hc]
        simp
      have hcons := (WellFormed.char c).append (ih fun c hc => h c (List.mem_cons_of_mem _ hc))
      rwa [hchar] at hcons

/-- The first character of a text can be read off its octets. -/
theorem encodeChar_append_inj {c c' : Char} {rest rest' : List UInt8}
    (h : String.utf8EncodeChar c ++ rest = String.utf8EncodeChar c' ++ rest') :
    c = c' ∧ rest = rest' := by
  have hdecode : ∀ (c : Char) (rest : List UInt8),
      (String.utf8EncodeChar c ++ rest).toByteArray.utf8DecodeChar? 0 = some c := by
    intro c rest
    rw [List.toByteArray_append]
    exact ByteArray.utf8DecodeChar?_utf8EncodeChar_append
  have hchar : some c = some c' := by rw [← hdecode c rest, ← hdecode c' rest', h]
  obtain rfl := Option.some.inj hchar
  exact ⟨rfl, List.append_cancel_left h⟩

/-- What follows a text makes a longer text only if it is one itself. -/
theorem WellFormed.append_left_iff {first second : List UInt8} (hfirst : WellFormed first) :
    WellFormed (first ++ second) ↔ WellFormed second := by
  refine ⟨fun h => ?_, fun h => hfirst.append h⟩
  obtain ⟨chars, rfl⟩ := hfirst
  induction chars with
  | nil => exact h
  | cons c chars ih =>
      rw [encode_cons, List.append_assoc] at h
      obtain ⟨chars', hchars'⟩ := h
      cases chars' with
      | nil =>
          have hpos := encodeChar_length_pos c
          have hlen := congrArg List.length hchars'
          rw [List.length_append, encode_nil, List.length_nil] at hlen
          omega
      | cons c' chars' =>
          rw [encode_cons] at hchars'
          exact ih ⟨chars', (encodeChar_append_inj hchars').2⟩

/-- A text in the middle of another one cuts it into texts. -/
theorem WellFormed.around_iff {before middle after : List UInt8} (h : WellFormed middle)
    (hne : middle ≠ []) :
    WellFormed (before ++ (middle ++ after)) ↔ WellFormed before ∧ WellFormed after := by
  have hlead : ∀ octet ∈ (middle ++ after).head?, IsLead octet := by
    rw [List.head?_append_of_ne_nil _ hne]
    exact h.head_lead
  constructor
  · intro hall
    obtain ⟨hbefore, hrest⟩ := hall.of_append_lead hlead
    exact ⟨hbefore, h.append_left_iff.mp hrest⟩
  · rintro ⟨hbefore, hafter⟩
    exact hbefore.append (h.append hafter)

/-- Different texts have different octets. -/
theorem encode_injective : Function.Injective encode := by
  have hempty : ∀ c chars, [] ≠ encode (c :: chars) := by
    intro c chars h
    have hpos := encodeChar_length_pos c
    have hlen := congrArg List.length h
    rw [encode_cons, List.length_append, List.length_nil] at hlen
    omega
  intro chars
  induction chars with
  | nil =>
      intro chars' h
      cases chars' with
      | nil => rfl
      | cons c chars' => exact absurd h (hempty c chars')
  | cons c chars ih =>
      intro chars' h
      cases chars' with
      | nil => exact absurd h.symm (hempty c chars)
      | cons c' chars' =>
          rw [encode_cons, encode_cons] at h
          obtain ⟨rfl, hrest⟩ := encodeChar_append_inj h
          rw [ih hrest]

/-- One text starts another exactly when its octets start the other's. -/
theorem encode_isPrefix_iff {first second : List Char} :
    encode first <+: encode second ↔ first <+: second := by
  constructor
  · rintro ⟨rest, hrest⟩
    have hwhole : WellFormed (encode first ++ rest) := ⟨second, hrest⟩
    obtain ⟨tail, rfl⟩ := (WellFormed.append_left_iff ⟨first, rfl⟩).mp hwhole
    rw [← encode_append] at hrest
    exact ⟨tail, encode_injective hrest⟩
  · rintro ⟨rest, rfl⟩
    exact ⟨encode rest, (encode_append first rest).symm⟩

end DynamicProperties.Library.Utf8
