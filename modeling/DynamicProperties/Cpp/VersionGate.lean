import DynamicProperties.Cpp.Codec
import DynamicProperties.Library.Separators
import Mathlib.Computability.Language

/-!
# The version gate of the native adapter

`expectedEndstoneVersion`, which decides whether the server that loads the plugin is
of the one version the native code was built against.  It takes prefixes off the
version and looks for a `+`; the languages below say what it means to accept
(`expectedEndstoneVersion_iff`).
-/

namespace DynamicProperties.Cpp

open DynamicProperties.Library.Separators

/-! ## The recognizer -/

def isLetter (c : UInt8) : Bool := (0x41 ≤ c && c ≤ 0x5A) || (0x61 ≤ c && c ≤ 0x7A)

/-- `std::isalnum` in the locale of the process.  Every locale classifies ASCII alike. -/
structure Locale where
  isalnum : UInt8 → Bool
  ascii : ∀ c < 0x80, isalnum c = (isDigit c || isLetter c)

/-- `'.'` -/
def dot : UInt8 := 0x2E

/-- `'+'` -/
def plus : UInt8 := 0x2B

/-- A character that `validIdentifierList` takes between two dots. -/
def Locale.takes (locale : Locale) (c : UInt8) : Bool := locale.isalnum c || c = 0x2D

def validIdentifierList (locale : Locale) (value : ByteString) : Bool :=
  if value.isEmpty || value.head? = some dot || value.getLast? = some dot then false
  else scan dot locale.takes false value

/-- The version without its `0.11.6`. -/
def expectedSuffix (locale : Locale) (suffix : ByteString) : Bool :=
  if suffix.head? = some plus then validIdentifierList locale (suffix.drop 1)
  else if (text ".dev").isPrefixOf suffix then
    let suffix := suffix.drop 4
    let metadata := suffix.findIdx? (· = plus)
    let serial := upTo suffix metadata
    if serial.isEmpty || !serial.all isDigit then false
    else metadata.all fun position => validIdentifierList locale (suffix.drop (position + 1))
  else if (text "-dev").isPrefixOf suffix then
    let suffix := suffix.drop 4
    if suffix.isEmpty then true
    else if suffix.head? = some plus then validIdentifierList locale (suffix.drop 1)
    else if suffix.head? ≠ some dot then false
    else
      let suffix := suffix.drop 1
      let metadata := suffix.findIdx? (· = plus)
      let prerelease := upTo suffix metadata
      validIdentifierList locale prerelease &&
        metadata.all fun position => validIdentifierList locale (suffix.drop (position + 1))
  else false

/-- `Expected` -/
def expected : ByteString := text "0.11.6"

def withoutV (runtime : ByteString) : ByteString :=
  if runtime.head? = some 0x76 then runtime.drop 1 else runtime

def expectedEndstoneVersion (locale : Locale) (runtime : ByteString) : Bool :=
  let runtime := withoutV runtime
  if runtime = expected then true
  else if !expected.isPrefixOf runtime then false
  else expectedSuffix locale (runtime.drop expected.length)

/-! ## The grammar -/

/-- Non-empty runs of ASCII letters, digits and `-`, joined by single dots. -/
def ids : Language UInt8 :=
  {value | Separated dot (fun c => isDigit c || isLetter c || c = 0x2D) value}

def digits : Language UInt8 := {value | value ≠ [] ∧ ∀ c ∈ value, isDigit c = true}

/-- `+` and identifiers, or nothing. -/
def buildMetadata : Language UInt8 := 1 + {text "+"} * ids

/-- What may follow `0.11.6`. -/
def suffixes : Language UInt8 :=
  buildMetadata + {text ".dev"} * digits * buildMetadata +
    {text "-dev"} * (buildMetadata + {text "."} * ids * buildMetadata)

def versions : Language UInt8 := (1 + {text "v"}) * {text "0.11.6"} * suffixes

theorem text_plus : text "+" = [plus] := rfl

theorem text_dot : text "." = [dot] := rfl

theorem mem_buildMetadata {suffix : ByteString} :
    suffix ∈ buildMetadata ↔ suffix = [] ∨ ∃ value ∈ ids, suffix = plus :: value := by
  rw [buildMetadata, Language.mem_add, Language.mem_one, Language.mem_mul, text_plus]
  constructor
  · rintro (rfl | ⟨_, rfl, value, hvalue, rfl⟩)
    · exact .inl rfl
    · exact .inr ⟨value, hvalue, rfl⟩
  · rintro (rfl | ⟨value, hvalue, rfl⟩)
    · exact .inl rfl
    · exact .inr ⟨[plus], rfl, value, hvalue, rfl⟩

/-- A part, and build metadata behind it. -/
theorem mem_mul_buildMetadata {l : Language UInt8} {suffix : ByteString} :
    suffix ∈ l * buildMetadata ↔ ∃ first, first ∈ l ∧
      (suffix = first ∨ ∃ rest, suffix = first ++ plus :: rest ∧ rest ∈ ids) := by
  rw [Language.mem_mul]
  constructor
  · rintro ⟨first, hfirst, metadata, hmetadata, rfl⟩
    refine ⟨first, hfirst, ?_⟩
    rcases mem_buildMetadata.mp hmetadata with rfl | ⟨value, hvalue, rfl⟩
    · exact .inl (List.append_nil _)
    · exact .inr ⟨value, rfl, hvalue⟩
  · rintro ⟨first, hfirst, rfl | ⟨rest, rfl, hrest⟩⟩
    · exact ⟨suffix, hfirst, [], mem_buildMetadata.mpr (.inl rfl), List.append_nil _⟩
    · exact ⟨first, hfirst, plus :: rest, mem_buildMetadata.mpr (.inr ⟨rest, hrest, rfl⟩), rfl⟩

theorem mem_literal_mul {literal suffix : ByteString} {l : Language UInt8} :
    suffix ∈ ({literal} : Language UInt8) * l ↔ ∃ rest ∈ l, suffix = literal ++ rest := by
  rw [Language.mem_mul]
  constructor
  · rintro ⟨_, rfl, rest, hrest, rfl⟩
    exact ⟨rest, hrest, rfl⟩
  · rintro ⟨rest, hrest, rfl⟩
    exact ⟨literal, rfl, rest, hrest, rfl⟩

theorem mem_suffixes {suffix : ByteString} :
    suffix ∈ suffixes ↔ suffix ∈ buildMetadata ∨
      (∃ rest ∈ digits * buildMetadata, suffix = text ".dev" ++ rest) ∨
      ∃ rest, (rest ∈ buildMetadata ∨ ∃ more ∈ ids * buildMetadata, rest = dot :: more) ∧
        suffix = text "-dev" ++ rest := by
  rw [suffixes, Language.mem_add, Language.mem_add, mul_assoc, mem_literal_mul, mem_literal_mul,
    or_assoc]
  simp only [Language.mem_add, mul_assoc, mem_literal_mul, text_dot, List.singleton_append]

theorem mem_versions {runtime : ByteString} :
    runtime ∈ versions ↔ ∃ suffix ∈ suffixes,
      runtime = expected ++ suffix ∨ runtime = 0x76 :: (expected ++ suffix) := by
  rw [versions, mul_assoc, Language.mem_mul]
  constructor
  · rintro ⟨v, hv, rest, hrest, rfl⟩
    obtain ⟨suffix, hsuffix, rfl⟩ := mem_literal_mul.mp hrest
    refine ⟨suffix, hsuffix, ?_⟩
    rcases (Language.mem_add _ _ v).mp hv with rfl | rfl
    · exact .inl rfl
    · exact .inr rfl
  · rintro ⟨suffix, hsuffix, rfl | rfl⟩
    · exact ⟨[], .inl rfl, _, mem_literal_mul.mpr ⟨suffix, hsuffix, rfl⟩, rfl⟩
    · exact ⟨text "v", .inr rfl, _, mem_literal_mul.mpr ⟨suffix, hsuffix, rfl⟩, rfl⟩

theorem text_dev : text ".dev" = dot :: [0x64, 0x65, 0x76] := rfl

theorem text_dashDev : text "-dev" = 0x2D :: [0x64, 0x65, 0x76] := rfl

theorem plus_cons_mem_suffixes {rest : ByteString} : plus :: rest ∈ suffixes ↔ rest ∈ ids := by
  rw [mem_suffixes, mem_buildMetadata]
  constructor
  · rintro ((h | ⟨value, hvalue, h⟩) | ⟨more, -, h⟩ | ⟨more, -, h⟩)
    · cases h
    · obtain rfl := (List.cons.inj h).2
      exact hvalue
    · exact absurd (List.cons.inj (text_dev ▸ h)).1 (by decide)
    · exact absurd (List.cons.inj (text_dashDev ▸ h)).1 (by decide)
  · exact fun h => .inl (.inr ⟨rest, h, rfl⟩)

theorem dev_mem_suffixes {rest : ByteString} :
    text ".dev" ++ rest ∈ suffixes ↔ rest ∈ digits * buildMetadata := by
  rw [mem_suffixes, mem_buildMetadata]
  constructor
  · rintro ((h | ⟨value, -, h⟩) | ⟨more, hmore, h⟩ | ⟨more, -, h⟩)
    · cases h
    · exact absurd (List.cons.inj (text_dev ▸ h)).1 (by decide)
    · obtain rfl := List.append_cancel_left h
      exact hmore
    · rw [text_dev, text_dashDev] at h
      exact absurd (List.cons.inj h).1 (by decide)
  · exact fun h => .inr (.inl ⟨rest, h, rfl⟩)

theorem dashDev_mem_suffixes {rest : ByteString} :
    text "-dev" ++ rest ∈ suffixes ↔
      rest ∈ buildMetadata ∨ ∃ more ∈ ids * buildMetadata, rest = dot :: more := by
  rw [mem_suffixes, mem_buildMetadata]
  constructor
  · rintro ((h | ⟨value, -, h⟩) | ⟨more, -, h⟩ | ⟨more, hmore, h⟩)
    · cases h
    · exact absurd (List.cons.inj (text_dashDev ▸ h)).1 (by decide)
    · rw [text_dev, text_dashDev] at h
      exact absurd (List.cons.inj h).1 (by decide)
    · obtain rfl := List.append_cancel_left h
      exact hmore
  · exact fun h => .inr (.inr ⟨rest, h, rfl⟩)

/-! ## Exactness -/

def Ascii (value : ByteString) : Prop := ∀ c ∈ value, c < 0x80

section Exactness

variable {locale : Locale}

/-- The scanner of identifiers. -/
theorem validIdentifierList_iff {value : ByteString} (h : Ascii value) :
    validIdentifierList locale value = true ↔ value ∈ ids := by
  have hscan : scan dot locale.takes false value =
      scan dot (fun c => isDigit c || isLetter c || c = 0x2D) false value := by
    refine scan_congr (fun c hc => ?_) false
    rw [Locale.takes, locale.ascii c (h c hc)]
  show _ ↔ Separated dot _ value
  rw [separated_iff (by decide), ← hscan, validIdentifierList]
  split
  · rename_i hends
    simp only [Bool.or_eq_true, List.isEmpty_iff, decide_eq_true_eq] at hends
    refine iff_of_false Bool.false_ne_true ?_
    rintro ⟨hne, hhead, hlast, -⟩
    exact hends.elim (fun h => h.elim hne hhead) hlast
  · rename_i hends
    simp only [Bool.or_eq_true, List.isEmpty_iff, decide_eq_true_eq, not_or] at hends
    exact ⟨fun h => ⟨hends.1.1, hends.1.2, hends.2, h⟩, fun h => h.2.2.2⟩

theorem plus_not_mem_ids {value : ByteString} (h : value ∈ ids) : plus ∉ value := by
  intro hplus
  have hor := Separated.forall_mem h plus hplus
  revert hor
  decide

theorem plus_not_mem_digits {value : ByteString} (h : value ∈ digits) : plus ∉ value := by
  intro hplus
  have hdigit := h.2 plus hplus
  revert hdigit
  decide

/-- A part up to the first `+`, and identifiers behind it. -/
theorem cut_validated {l : Language UInt8} {p : ByteString → Bool} {value : ByteString}
    (h : Ascii value) (hp : ∀ first, Ascii first → (p first = true ↔ first ∈ l))
    (hplus : ∀ first ∈ l, plus ∉ first) :
    (p (upTo value (value.findIdx? (· = plus))) && (value.findIdx? (· = plus)).all fun position =>
        validIdentifierList locale (value.drop (position + 1))) = true ↔
      value ∈ l * buildMetadata := by
  have hfirst : Ascii (upTo value (value.findIdx? (· = plus))) := by
    intro c hc
    unfold upTo at hc
    split at hc
    · exact h c hc
    · exact h c (List.mem_of_mem_take hc)
  have hrest : ∀ n, Ascii (value.drop n) := fun n c hc => h c (List.mem_of_mem_drop hc)
  rw [mem_mul_buildMetadata, ← cut_iff (q := fun rest => rest ∈ ids) hplus, Bool.and_eq_true_iff,
    hp _ hfirst, Option.all_eq_true]
  simp only [validIdentifierList_iff (hrest _)]
  exact Iff.rfl

theorem serial_validated {value : ByteString} (h : Ascii value) :
    (if (upTo value (value.findIdx? (· = plus))).isEmpty ||
        !(upTo value (value.findIdx? (· = plus))).all isDigit then false
      else (value.findIdx? (· = plus)).all fun position =>
        validIdentifierList locale (value.drop (position + 1))) = true ↔
      value ∈ digits * buildMetadata := by
  have hp : ∀ first : ByteString, Ascii first →
      ((!(first.isEmpty || !first.all isDigit)) = true ↔ first ∈ digits) := by
    intro first _
    show _ ↔ first ≠ [] ∧ ∀ c ∈ first, isDigit c = true
    simp
  rw [← @cut_validated locale _ _ _ h hp fun _ => plus_not_mem_digits]
  cases (upTo value (value.findIdx? (· = plus))).isEmpty ||
    !(upTo value (value.findIdx? (· = plus))).all isDigit <;> rfl

theorem ascii_of_append {first rest : ByteString} (h : Ascii (first ++ rest)) : Ascii rest :=
  fun c hc => h c (List.mem_append_right _ hc)

/-- What may follow `-dev`. -/
theorem dashDev_validated {rest : ByteString} (h : Ascii rest) :
    (if rest.isEmpty then true
      else if rest.head? = some plus then validIdentifierList locale (rest.drop 1)
      else if rest.head? ≠ some dot then false
      else
        validIdentifierList locale (upTo (rest.drop 1) ((rest.drop 1).findIdx? (· = plus))) &&
          ((rest.drop 1).findIdx? (· = plus)).all fun position =>
            validIdentifierList locale ((rest.drop 1).drop (position + 1))) = true ↔
      rest ∈ buildMetadata ∨ ∃ more ∈ ids * buildMetadata, rest = dot :: more := by
  cases rest with
  | nil => exact iff_of_true rfl (.inl (mem_buildMetadata.mpr (.inl rfl)))
  | cons c more =>
      have hmore : Ascii more := ascii_of_append (show Ascii ([c] ++ more) from h)
      rw [mem_buildMetadata, List.isEmpty_cons, if_neg Bool.false_ne_true, List.head?_cons,
        List.drop_succ_cons, List.drop_zero]
      by_cases hplus : c = plus
      · subst hplus
        rw [if_pos rfl, validIdentifierList_iff hmore]
        constructor
        · exact fun h => .inl (.inr ⟨more, h, rfl⟩)
        · rintro ((h | ⟨value, hvalue, h⟩) | ⟨other, -, h⟩)
          · cases h
          · rwa [(List.cons.inj h).2]
          · exact absurd (List.cons.inj h).1 (by decide)
      rw [if_neg fun h => hplus (Option.some.inj h)]
      by_cases hdot : c = dot
      · subst hdot
        rw [if_neg (not_not_intro rfl),
          cut_validated hmore (fun _ => validIdentifierList_iff) fun _ => plus_not_mem_ids]
        constructor
        · exact fun h => .inr ⟨more, h, rfl⟩
        · rintro ((h | ⟨value, -, h⟩) | ⟨other, hother, h⟩)
          · cases h
          · exact absurd (List.cons.inj h).1 hplus
          · rwa [(List.cons.inj h).2]
      · rw [if_pos fun h => hdot (Option.some.inj h)]
        refine iff_of_false Bool.false_ne_true ?_
        rintro ((h | ⟨value, -, h⟩) | ⟨other, -, h⟩)
        · cases h
        · exact hplus (List.cons.inj h).1
        · exact hdot (List.cons.inj h).1

/-- **What may follow the base version.** -/
theorem expectedSuffix_iff {suffix : ByteString} (h : Ascii suffix) :
    expectedSuffix locale suffix = true ↔ suffix ∈ suffixes ∧ suffix ≠ [] := by
  unfold expectedSuffix
  by_cases hplus : suffix.head? = some plus
  · obtain ⟨rest, rfl⟩ : ∃ rest, suffix = plus :: rest := List.head?_eq_some_iff.mp hplus
    rw [if_pos hplus, List.drop_succ_cons, List.drop_zero,
      validIdentifierList_iff (ascii_of_append (show Ascii ([plus] ++ rest) from h)),
      plus_cons_mem_suffixes]
    exact (and_iff_left (List.cons_ne_nil _ _)).symm
  rw [if_neg hplus]
  by_cases hdev : (text ".dev").isPrefixOf suffix = true
  · obtain ⟨rest, rfl⟩ := List.isPrefixOf_iff_prefix.mp hdev
    rw [if_pos hdev, dev_mem_suffixes, show (text ".dev" ++ rest).drop 4 = rest from rfl]
    exact (serial_validated (ascii_of_append h)).trans (and_iff_left (List.cons_ne_nil _ _)).symm
  rw [if_neg hdev]
  by_cases hdash : (text "-dev").isPrefixOf suffix = true
  · obtain ⟨rest, rfl⟩ := List.isPrefixOf_iff_prefix.mp hdash
    rw [if_pos hdash, dashDev_mem_suffixes, show (text "-dev" ++ rest).drop 4 = rest from rfl]
    exact (dashDev_validated (ascii_of_append h)).trans (and_iff_left (List.cons_ne_nil _ _)).symm
  rw [if_neg hdash]
  refine iff_of_false Bool.false_ne_true ?_
  rintro ⟨hmem, hne⟩
  rcases mem_suffixes.mp hmem with hmetadata | ⟨rest, -, rfl⟩ | ⟨rest, -, rfl⟩
  · rcases mem_buildMetadata.mp hmetadata with rfl | ⟨value, -, rfl⟩
    · exact hne rfl
    · exact hplus rfl
  · exact hdev (List.isPrefixOf_iff_prefix.mpr (List.prefix_append _ _))
  · exact hdash (List.isPrefixOf_iff_prefix.mpr (List.prefix_append _ _))

theorem mem_versions_iff_withoutV {runtime : ByteString} :
    runtime ∈ versions ↔ ∃ suffix ∈ suffixes, withoutV runtime = expected ++ suffix := by
  rw [mem_versions]
  constructor
  · rintro ⟨suffix, hsuffix, rfl | rfl⟩
    · have hhead : (expected ++ suffix).head? = some 0x30 := rfl
      refine ⟨suffix, hsuffix, if_neg ?_⟩
      rw [hhead]
      decide
    · exact ⟨suffix, hsuffix, rfl⟩
  · rintro ⟨suffix, hsuffix, h⟩
    unfold withoutV at h
    split at h
    · next hv =>
      obtain ⟨rest, rfl⟩ := List.head?_eq_some_iff.mp hv
      exact ⟨suffix, hsuffix, .inr (congrArg (0x76 :: ·) h)⟩
    · exact ⟨suffix, hsuffix, .inl h⟩

theorem ascii_withoutV {runtime : ByteString} (h : Ascii runtime) : Ascii (withoutV runtime) := by
  unfold withoutV
  split
  · exact fun c hc => h c (List.mem_of_mem_drop hc)
  · exact h

theorem nil_mem_suffixes : [] ∈ suffixes :=
  mem_suffixes.mpr (.inl (mem_buildMetadata.mpr (.inl rfl)))

/-- The gate behind the optional `v`. -/
theorem accepts_iff {version : ByteString} (h : Ascii version) :
    (if version = expected then true
      else if !expected.isPrefixOf version then false
      else expectedSuffix locale (version.drop expected.length)) = true ↔
      ∃ suffix ∈ suffixes, version = expected ++ suffix := by
  by_cases hexact : version = expected
  · rw [if_pos hexact]
    exact iff_of_true rfl ⟨[], nil_mem_suffixes, by rw [hexact, List.append_nil]⟩
  rw [if_neg hexact]
  by_cases hprefix : expected <+: version
  · obtain ⟨rest, rfl⟩ := hprefix
    have hrest : rest ≠ [] := fun hnil => hexact (by rw [hnil, List.append_nil])
    rw [List.isPrefixOf_iff_prefix.mpr (List.prefix_append _ _), Bool.not_true,
      if_neg Bool.false_ne_true, List.drop_left, expectedSuffix_iff (ascii_of_append h)]
    constructor
    · exact fun h => ⟨rest, h.1, rfl⟩
    · rintro ⟨suffix, hsuffix, h⟩
      rw [List.append_cancel_left h]
      exact ⟨hsuffix, List.append_cancel_left h ▸ hrest⟩
  · have hnot : (!expected.isPrefixOf version) = true := by
      rw [Bool.not_eq_true', ← Bool.not_eq_true, List.isPrefixOf_iff_prefix]
      exact hprefix
    rw [if_pos hnot]
    refine iff_of_false Bool.false_ne_true ?_
    rintro ⟨suffix, -, rfl⟩
    exact hprefix (List.prefix_append _ _)

/-- **The gate accepts the versions of its grammar, and no other base version.** -/
theorem expectedEndstoneVersion_iff (locale : Locale) {runtime : ByteString} (h : Ascii runtime) :
    (expectedEndstoneVersion locale runtime = true ↔ runtime ∈ versions) ∧
      (expectedEndstoneVersion locale runtime = true → expected <+: withoutV runtime) := by
  have hiff : expectedEndstoneVersion locale runtime = true ↔
      ∃ suffix ∈ suffixes, withoutV runtime = expected ++ suffix :=
    accepts_iff (ascii_withoutV h)
  constructor
  · rw [hiff, mem_versions_iff_withoutV]
  · intro haccepts
    obtain ⟨suffix, -, hsuffix⟩ := hiff.mp haccepts
    rw [hsuffix]
    exact List.prefix_append _ _

end Exactness

/-- The locale "C". -/
def minimalLocale : Locale := ⟨fun c => isDigit c || isLetter c, fun _ _ => rfl⟩

theorem expectedEndstoneVersion_iff_dev : text "v0.11.6-dev.linux.7+build" ∈ versions ∧
    text "0.11.60" ∉ versions ∧ text "0.11.6.dev+build" ∉ versions := by
  have hascii : ∀ value : ByteString, value.all (· < 0x80) = true → Ascii value :=
    fun value h c hc => of_decide_eq_true (List.all_eq_true.mp h c hc)
  refine ⟨(expectedEndstoneVersion_iff minimalLocale (hascii _ rfl)).1.mp (by decide), ?_, ?_⟩
  · rw [← (expectedEndstoneVersion_iff minimalLocale (hascii _ rfl)).1]
    decide
  · rw [← (expectedEndstoneVersion_iff minimalLocale (hascii _ rfl)).1]
    decide

end DynamicProperties.Cpp
