import DynamicProperties.Library.JsonAlphabet

/-!
# Writing JSON

`Tree.compact` is the text of a tree without white space, and it is a text of that tree
wherever the dialect has the numbers and the literals (`isText_compact`).

A writer that keeps to ASCII escapes every other character, beyond the first plane by a
surrogate pair.  `escaped` is the literal it writes for a code point: legal in every
dialect, and read back as the code point unless that is a surrogate itself.  A literal
made of them is paired exactly when the surrogates of the text are (`paired_escapedAll`).
-/

namespace DynamicProperties.Library.Json

section Compact

variable {α : Type} (dialect : Dialect α)

mutual

/-- The text of a tree without white space. -/
def Tree.compact : Tree α → List α
  | .null => dialect.token [0x6E, 0x75, 0x6C, 0x6C]
  | .bool value => dialect.token (boolText value)
  | .number digits => dialect.token digits
  | .string units => literal dialect units
  | .array elements => dialect.token [0x5B] ++ compactElements elements ++ dialect.token [0x5D]
  | .object members => dialect.token [0x7B] ++ compactMembers members ++ dialect.token [0x7D]

def compactElements : List (Tree α) → List α
  | [] => []
  | [tree] => tree.compact
  | tree :: next :: rest =>
      tree.compact ++ dialect.token [0x2C] ++ compactElements (next :: rest)

def compactMembers : List (List (StringUnit α) × Tree α) → List α
  | [] => []
  | [(key, tree)] => literal dialect key ++ dialect.token [0x3A] ++ tree.compact
  | (key, tree) :: next :: rest =>
      literal dialect key ++ dialect.token [0x3A] ++ tree.compact ++ dialect.token [0x2C]
        ++ compactMembers (next :: rest)

end

/-- Every number of the tree satisfies `N`, and every literal `L`. -/
structure Tree.Built (N : List UInt8 → Prop) (L : List (StringUnit α) → Prop) (tree : Tree α) :
    Prop where
  numbers : tree.Numbers N
  literals : tree.Literals L

section Built

variable {N : List UInt8 → Prop} {L : List (StringUnit α) → Prop}

theorem built_array {elements : List (Tree α)} :
    (Tree.array elements).Built N L ↔ ∀ tree ∈ elements, tree.Built N L := by
  constructor
  · exact fun h tree htree =>
      ⟨numbers_array.mp h.numbers tree htree, literals_array.mp h.literals tree htree⟩
  · exact fun h => ⟨numbers_array.mpr fun tree htree => (h tree htree).numbers,
      literals_array.mpr fun tree htree => (h tree htree).literals⟩

theorem built_object {members : List (List (StringUnit α) × Tree α)} :
    (Tree.object members).Built N L ↔ ∀ member ∈ members, L member.1 ∧ member.2.Built N L := by
  constructor
  · intro h member hmember
    have hliterals := literals_object.mp h.literals member hmember
    exact ⟨hliterals.1, numbers_object.mp h.numbers member hmember, hliterals.2⟩
  · exact fun h => ⟨numbers_object.mpr fun member hmember => (h member hmember).2.numbers,
      literals_object.mpr fun member hmember =>
        ⟨(h member hmember).1, (h member hmember).2.literals⟩⟩

theorem built_string {units : List (StringUnit α)} : (Tree.string units).Built N L ↔ L units :=
  ⟨fun h => literals_string.mp h.literals,
    fun h => ⟨numbers_of_plain rfl nofun, literals_string.mpr h⟩⟩

theorem built_number {digits : List UInt8} : (Tree.number digits : Tree α).Built N L ↔ N digits :=
  ⟨fun h => numbers_number.mp h.numbers,
    fun h => ⟨numbers_number.mpr h, literals_of_plain rfl rfl⟩⟩

theorem built_bool (value : Bool) : (Tree.bool value : Tree α).Built N L :=
  ⟨numbers_of_plain rfl nofun, literals_of_plain rfl rfl⟩

theorem built_null : (Tree.null : Tree α).Built N L :=
  ⟨numbers_of_plain rfl nofun, literals_of_plain rfl rfl⟩

theorem Tree.Built.imp {N' : List UInt8 → Prop} {L' : List (StringUnit α) → Prop}
    {tree : Tree α} (h : tree.Built N L) (hnumbers : ∀ digits, N digits → N' digits)
    (hliterals : ∀ units, L units → L' units) : tree.Built N' L' :=
  ⟨fun node hnode digits heq => hnumbers digits (h.numbers node hnode digits heq),
    fun node hnode units hunits => hliterals units (h.literals node hnode units hunits)⟩

end Built

/-! ### What is written is a text -/

variable {dialect}

theorem spells_compactElements {elements : List (Tree α)} (hne : elements ≠ [])
    (h : ∀ tree ∈ elements, Spells dialect (.value tree) (tree.compact dialect)) :
    Spells dialect (.elements elements) (compactElements dialect elements) := by
  have hnone : Space [] := nofun
  induction elements with
  | nil => exact absurd rfl hne
  | cons tree rest ih =>
      obtain ⟨htree, hrest⟩ := List.forall_mem_cons.mp h
      cases rest with
      | nil => simpa [compactElements, Dialect.token] using Spells.lastElement hnone htree hnone
      | cons next rest =>
          have hspells := Spells.element hnone htree hnone (ih (List.cons_ne_nil _ _) hrest)
          simpa [compactElements, Dialect.token] using hspells

theorem spells_compactMembers {members : List (List (StringUnit α) × Tree α)} (hne : members ≠ [])
    (h : ∀ member ∈ members, LegalUnits dialect member.1 ∧
      Spells dialect (.value member.2) (member.2.compact dialect)) :
    Spells dialect (.members members) (compactMembers dialect members) := by
  have hnone : Space [] := nofun
  induction members with
  | nil => exact absurd rfl hne
  | cons member rest ih =>
      obtain ⟨⟨hkey, htree⟩, hrest⟩ := List.forall_mem_cons.mp h
      cases rest with
      | nil =>
          have hspells := Spells.lastMember hnone hkey hnone hnone htree hnone
          simpa [compactMembers, Dialect.token] using hspells
      | cons next rest =>
          have hspells := Spells.member hnone hkey hnone hnone htree hnone
            (ih (List.cons_ne_nil _ _) hrest)
          simpa [compactMembers, Dialect.token] using hspells

/-- What is written spells the tree. -/
theorem spells_compact (tree : Tree α) :
    tree.Built dialect.number (LegalUnits dialect) →
      Spells dialect (.value tree) (tree.compact dialect) := by
  have hempty : Space [] := nofun
  induction tree using Tree.induction with
  | null => exact fun _ => .null
  | bool value => exact fun _ => .bool value
  | number digits => exact fun h => .number (built_number.mp h)
  | string units => exact fun h => .string (built_string.mp h)
  | array elements ih =>
      intro h
      have hspells := fun tree htree => ih tree htree (built_array.mp h tree htree)
      cases elements with
      | nil => simpa [Tree.compact, compactElements, Dialect.token] using Spells.emptyArray hempty
      | cons tree rest => exact .array (spells_compactElements (List.cons_ne_nil _ _) hspells)
  | object members ih =>
      intro h
      have hspells := fun member hmember =>
        (built_object.mp h member hmember).imp_right (ih member hmember)
      cases members with
      | nil => simpa [Tree.compact, compactMembers, Dialect.token] using Spells.emptyObject hempty
      | cons member rest => exact .object (spells_compactMembers (List.cons_ne_nil _ _) hspells)

/-- **A written tree is a text of that tree.** -/
theorem isText_compact {tree : Tree α}
    (h : tree.Built dialect.number (LegalUnits dialect)) :
    IsText dialect tree (tree.compact dialect) :=
  ⟨[], tree.compact dialect, [], by simp [Dialect.token], nofun, spells_compact tree h, nofun⟩

/-! ### What is written is in ASCII -/

theorem isAscii_token {octets : List UInt8} (h : ∀ c ∈ octets, c < 0x80) :
    ∀ c ∈ dialect.token octets, IsAscii dialect c := by
  intro c hc
  obtain ⟨octet, hoctet, rfl⟩ := List.mem_map.mp hc
  exact ⟨octet, h octet hoctet, rfl⟩

theorem isAscii_literal {units : List (StringUnit α)}
    (h : ∀ c ∈ spellUnits dialect units, IsAscii dialect c) :
    ∀ c ∈ literal dialect units, IsAscii dialect c := by
  have hquote : ∀ c ∈ dialect.token [0x22], IsAscii dialect c := isAscii_token (ascii_of_all rfl)
  simp only [literal, List.forall_mem_append]
  exact ⟨⟨hquote, h⟩, hquote⟩

theorem isAscii_compactElements {elements : List (Tree α)}
    (h : ∀ tree ∈ elements, ∀ c ∈ tree.compact dialect, IsAscii dialect c) :
    ∀ c ∈ compactElements dialect elements, IsAscii dialect c := by
  induction elements with
  | nil => nofun
  | cons tree rest ih =>
      obtain ⟨htree, hrest⟩ := List.forall_mem_cons.mp h
      cases rest with
      | nil => exact htree
      | cons next rest =>
          simp only [compactElements, List.forall_mem_append]
          exact ⟨⟨htree, isAscii_token (ascii_of_all rfl)⟩, ih hrest⟩

theorem isAscii_compactMembers {members : List (List (StringUnit α) × Tree α)}
    (h : ∀ member ∈ members, (∀ c ∈ literal dialect member.1, IsAscii dialect c) ∧
      ∀ c ∈ member.2.compact dialect, IsAscii dialect c) :
    ∀ c ∈ compactMembers dialect members, IsAscii dialect c := by
  induction members with
  | nil => nofun
  | cons member rest ih =>
      obtain ⟨⟨hkey, htree⟩, hrest⟩ := List.forall_mem_cons.mp h
      cases rest with
      | nil =>
          simp only [compactMembers, List.forall_mem_append]
          exact ⟨⟨hkey, isAscii_token (ascii_of_all rfl)⟩, htree⟩
      | cons next rest =>
          simp only [compactMembers, List.forall_mem_append]
          exact ⟨⟨⟨⟨hkey, isAscii_token (ascii_of_all rfl)⟩, htree⟩,
            isAscii_token (ascii_of_all rfl)⟩, ih hrest⟩

/-- A tree without characters beyond ASCII is written in ASCII. -/
theorem isAscii_compact (tree : Tree α) :
    tree.Built (fun digits => ∀ c ∈ digits, c < 0x80)
      (fun units => ∀ c ∈ spellUnits dialect units, IsAscii dialect c) →
        ∀ c ∈ tree.compact dialect, IsAscii dialect c := by
  induction tree using Tree.induction with
  | null => exact fun _ => isAscii_token (ascii_of_all rfl)
  | bool value => exact fun _ => isAscii_token (boolText_ascii value)
  | number digits => exact fun h => isAscii_token (built_number.mp h)
  | string units => exact fun h => isAscii_literal (built_string.mp h)
  | array elements ih =>
      intro h
      simp only [Tree.compact, List.forall_mem_append]
      exact ⟨⟨isAscii_token (ascii_of_all rfl),
        isAscii_compactElements fun tree htree => ih tree htree (built_array.mp h tree htree)⟩,
        isAscii_token (ascii_of_all rfl)⟩
  | object members ih =>
      intro h
      simp only [Tree.compact, List.forall_mem_append]
      refine ⟨⟨isAscii_token (ascii_of_all rfl), isAscii_compactMembers fun member hmember => ?_⟩,
        isAscii_token (ascii_of_all rfl)⟩
      obtain ⟨hkey, htree⟩ := built_object.mp h member hmember
      exact ⟨isAscii_literal hkey, ih member hmember htree⟩

end Compact

/-! ## Literals in ASCII -/

/-- A digit below sixteen, in lower case. -/
def lowerHexDigit (n : Nat) : UInt8 := UInt8.ofNat (if n < 10 then 0x30 + n else 0x57 + n)

/-- The four digits of a code unit. -/
def fourHexDigits (code : Nat) : List UInt8 :=
  [lowerHexDigit (code / 0x1000 % 16), lowerHexDigit (code / 0x100 % 16),
    lowerHexDigit (code / 0x10 % 16), lowerHexDigit (code % 16)]

theorem hexDigit?_lowerHexDigit {n : Nat} (h : n < 16) :
    hexDigit? (lowerHexDigit n) = some n := by
  have hall : ∀ n : Fin 16, hexDigit? (lowerHexDigit n) = some n.val := by decide
  exact hall ⟨n, h⟩

theorem codeUnit_fourHexDigits {code : Nat} (h : code < 0x10000) :
    codeUnit (fourHexDigits code) = code := by
  have hdigit : ∀ n, hexDigit? (lowerHexDigit (n % 16)) = some (n % 16) := fun n =>
    hexDigit?_lowerHexDigit (Nat.mod_lt n (by decide))
  simp only [codeUnit, fourHexDigits, List.foldl_cons, List.foldl_nil, hdigit, Option.getD_some]
  omega

theorem legal_fourHexDigits {α : Type} (dialect : Dialect α) (code : Nat) :
    (StringUnit.unicode (fourHexDigits code) : StringUnit α).Legal dialect := by
  refine ⟨rfl, fun c hc => ?_⟩
  have hdigit : ∀ n, (hexDigit? (lowerHexDigit (n % 16))).isSome = true := fun n => by
    rw [hexDigit?_lowerHexDigit (Nat.mod_lt n (by decide))]
    rfl
  simp only [fourHexDigits, List.mem_cons, List.not_mem_nil, or_false] at hc
  rcases hc with rfl | rfl | rfl | rfl
  all_goals exact hdigit _

/-- The letter that escapes a code point, if there is one. -/
def shortEscape (code : Nat) : Option UInt8 :=
  if code = 0x22 then some 0x22
  else if code = 0x5C then some 0x5C
  else if code = 0x0A then some 0x6E
  else if code = 0x0D then some 0x72
  else if code = 0x09 then some 0x74
  else if code = 0x0C then some 0x66
  else if code = 0x08 then some 0x62
  else none

theorem escapeCode_shortEscape {code : Nat} {letter : UInt8} (h : shortEscape code = some letter) :
    escapeCode letter = some code := by
  unfold shortEscape at h
  repeat' split at h
  all_goals cases h
  all_goals subst code; rfl

theorem escapeCode_le {letter : UInt8} {code : Nat} (h : escapeCode letter = some code) :
    code ≤ 0x74 := by
  unfold escapeCode at h
  repeat' split at h
  all_goals first | cases h; decide | cases h

section Escaped

variable {α : Type} (ascii : UInt8 → α)

/-- How a code point is written in ASCII. -/
def escaped (code : Nat) : List (StringUnit α) :=
  match shortEscape code with
  | some letter => [.escape letter]
  | none =>
      if 0x20 ≤ code ∧ code ≤ 0x7E then [.raw (ascii (UInt8.ofNat code))]
      else if code < 0x10000 then [.unicode (fourHexDigits code)]
      else [.unicode (fourHexDigits (0xD800 + (code - 0x10000) / 0x400)),
        .unicode (fourHexDigits (0xDC00 + (code - 0x10000) % 0x400))]

/-- The literal of a text. -/
def escapedAll (codes : List Nat) : List (StringUnit α) := codes.flatMap (escaped ascii)

/-- The shapes of an escaped code point. -/
inductive EscapedAs (code : Nat) : List (StringUnit α) → Prop
  | letter {letter : UInt8} (h : escapeCode letter = some code) : EscapedAs code [.escape letter]
  | raw (hlow : 0x20 ≤ code) (hhigh : code ≤ 0x7E) (hquote : code ≠ 0x22)
      (hbackslash : code ≠ 0x5C) : EscapedAs code [.raw (ascii (UInt8.ofNat code))]
  | unit {digits : List UInt8} (hdigits : digits = fourHexDigits code)
      (hcode : codeUnit digits = code) : EscapedAs code [.unicode digits]
  | pair {high low : Nat} (hhigh : IsHigh (codeUnit (fourHexDigits high)))
      (hlow : IsLow (codeUnit (fourHexDigits low)))
      (hcode : pairCode (codeUnit (fourHexDigits high)) (codeUnit (fourHexDigits low)) = code)
      (hbeyond : 0x10000 ≤ code) :
      EscapedAs code [.unicode (fourHexDigits high), .unicode (fourHexDigits low)]

theorem escapedAs_escaped {code : Nat} (h : code < 0x110000) :
    EscapedAs ascii code (escaped ascii code) := by
  unfold escaped
  split
  next letter hletter => exact .letter (escapeCode_shortEscape hletter)
  next hshort =>
    by_cases hraw : 0x20 ≤ code ∧ code ≤ 0x7E
    · rw [if_pos hraw]
      refine .raw hraw.1 hraw.2 (fun heq => ?_) fun heq => ?_
      · subst heq
        cases hshort
      · subst heq
        cases hshort
    rw [if_neg hraw]
    by_cases hplane : code < 0x10000
    · rw [if_pos hplane]
      exact .unit rfl (codeUnit_fourHexDigits hplane)
    · -- the offset has twenty bits, ten for each surrogate
      rw [if_neg hplane]
      generalize hhigh : 0xD800 + (code - 0x10000) / 0x400 = high
      generalize hlow : 0xDC00 + (code - 0x10000) % 0x400 = low
      have hfirst : codeUnit (fourHexDigits high) = high := codeUnit_fourHexDigits (by omega)
      have hsecond : codeUnit (fourHexDigits low) = low := codeUnit_fourHexDigits (by omega)
      have hpair : pairCode high low = code := by
        unfold pairCode
        omega
      refine .pair ?_ ?_ ?_ (Nat.not_lt.mp hplane)
      · rw [hfirst, IsHigh]
        omega
      · rw [hsecond, IsLow]
        omega
      · rw [hfirst, hsecond, hpair]

section EscapedAs

variable {ascii} {code : Nat} {units rest : List (StringUnit α)}

theorem EscapedAs.legal {dialect : Dialect α} (h : EscapedAs dialect.ascii code units)
    (hascii : Function.Injective dialect.ascii) : LegalUnits dialect units := by
  intro unit hunit
  cases h with
  | letter hletter =>
      obtain rfl := List.mem_singleton.mp hunit
      show (escapeCode _).isSome = true
      rw [hletter]
      rfl
  | raw hlow hhigh hquote hbackslash =>
      obtain rfl := List.mem_singleton.mp hunit
      intro octet hoctet
      obtain rfl := hascii hoctet
      have hvalue : (UInt8.ofNat code).toNat = code := by
        rw [UInt8.toNat_ofNat']
        omega
      refine ⟨?_, fun heq => hquote ?_, fun heq => hbackslash ?_⟩
      · rw [UInt8.le_iff_toNat_le, hvalue]
        exact hlow
      · rw [← hvalue, heq]
        rfl
      · rw [← hvalue, heq]
        rfl
  | unit hdigits hcode =>
      obtain rfl := List.mem_singleton.mp hunit
      rw [hdigits]
      exact legal_fourHexDigits dialect code
  | @pair high low hhigh hlow hcode hbeyond =>
      rcases List.mem_cons.mp hunit with rfl | hunit
      · exact legal_fourHexDigits dialect high
      · obtain rfl := List.mem_singleton.mp hunit
        exact legal_fourHexDigits dialect low

theorem EscapedAs.raw_ascii (h : EscapedAs ascii code units) {c : α} (hc : .raw c ∈ units) :
    ∃ octet < 0x80, c = ascii octet := by
  cases h with
  | letter hletter => cases List.mem_singleton.mp hc
  | raw hlow hhigh hquote hbackslash =>
      obtain rfl := StringUnit.raw.inj (List.mem_singleton.mp hc)
      refine ⟨UInt8.ofNat code, ?_, rfl⟩
      rw [UInt8.lt_iff_toNat_lt, UInt8.toNat_ofNat']
      show _ < 128
      omega
  | unit hdigits hcode => cases List.mem_singleton.mp hc
  | pair hfirst hsecond hpair hbeyond =>
      rcases List.mem_cons.mp hc with heq | hc
      · cases heq
      · cases List.mem_singleton.mp hc

/-- Read back, an escaped code point that is no high surrogate is itself. -/
theorem EscapedAs.decode (h : EscapedAs ascii code units) (hcode : ¬ IsHigh code)
    {write : Nat → List α}
    (hwrite : ∀ code, 0x20 ≤ code → code ≤ 0x7E → write code = [ascii (UInt8.ofNat code)]) :
    decodeUnits write (units ++ rest) = write code ++ decodeUnits write rest := by
  cases h with
  | letter hletter =>
      show write ((escapeCode _).getD 0) ++ decodeUnits write rest = _
      rw [hletter]
      rfl
  | raw hlow hhigh hquote hbackslash =>
      rw [hwrite code hlow hhigh]
      rfl
  | unit hdigits hunit =>
      show decodeUnits write (.unicode _ :: rest) = _
      rw [decodeUnits_unicode (by rw [hunit]; exact hcode), hunit]
  | pair hhigh hlow hpair hbeyond =>
      show decodeUnits write (.unicode _ :: .unicode _ :: rest) = _
      rw [decodeUnits_pair hhigh hlow, hpair]

/-- An escaped code point that is no surrogate neither makes nor needs a pair. -/
theorem EscapedAs.paired (h : EscapedAs ascii code units) (hhigh : ¬ IsHigh code)
    (hlow : ¬ IsLow code) : Paired (units ++ rest) ↔ Paired rest := by
  cases h with
  | letter hletter => exact Iff.rfl
  | raw => exact Iff.rfl
  | unit hdigits hunit =>
      show Paired (.unicode _ :: rest) ↔ _
      rw [paired_unicode (by rw [hunit]; exact hhigh), hunit]
      exact and_iff_right hlow
  | pair hfirst hsecond hpair hbeyond =>
      show Paired (.unicode _ :: .unicode _ :: rest) ↔ _
      rw [paired_pair hfirst]
      exact and_iff_right hsecond

end EscapedAs

/-! ## Literals of whole texts -/

/-- Every surrogate of a text has its other half: the high one stands right in front of
the low one. -/
def SurrogatesPaired : List Nat → Prop
  | [] => True
  | code :: rest =>
      if IsHigh code then
        match rest with
        | [] => False
        | next :: rest => IsLow next ∧ SurrogatesPaired rest
      else ¬ IsLow code ∧ SurrogatesPaired rest

variable {codes : List Nat}

theorem surrogatesPaired_of_plain (h : ∀ code ∈ codes, ¬ IsHigh code ∧ ¬ IsLow code) :
    SurrogatesPaired codes := by
  induction codes with
  | nil => trivial
  | cons code rest ih =>
      obtain ⟨hcode, hrest⟩ := List.forall_mem_cons.mp h
      unfold SurrogatesPaired
      rw [if_neg hcode.1]
      exact ⟨hcode.2, ih hrest⟩

theorem legal_escapedAll {dialect : Dialect α} (hascii : Function.Injective dialect.ascii)
    (h : ∀ code ∈ codes, code < 0x110000) :
    LegalUnits dialect (escapedAll dialect.ascii codes) := by
  intro unit hunit
  obtain ⟨code, hcode, hunit⟩ := List.mem_flatMap.mp hunit
  exact (escapedAs_escaped dialect.ascii (h code hcode)).legal hascii unit hunit

/-- A literal whose characters stand for themselves in ASCII only is in ASCII. -/
theorem isAscii_spellUnits {dialect : Dialect α} {units : List (StringUnit α)}
    (hlegal : LegalUnits dialect units) (hraw : ∀ c, .raw c ∈ units → IsAscii dialect c) :
    ∀ c ∈ spellUnits dialect units, IsAscii dialect c := by
  intro c hc
  obtain ⟨unit, hunit, hc⟩ := List.mem_flatMap.mp hc
  have hlegal := hlegal unit hunit
  cases unit with
  | raw d =>
      obtain rfl := List.mem_singleton.mp hc
      exact hraw c hunit
  | escape letter =>
      refine isAscii_token (fun d hd => ?_) c hc
      rcases List.mem_cons.mp hd with rfl | hd
      · decide
      · obtain rfl := List.mem_singleton.mp hd
        exact legal_escape_ascii hlegal
  | unicode digits =>
      refine isAscii_token (fun d hd => ?_) c hc
      rcases List.mem_append.mp hd with hd | hd
      · exact ascii_of_all (by decide) d hd
      · exact legal_unicode_ascii hlegal d hd

theorem isAscii_escapedAll {dialect : Dialect α} (hascii : Function.Injective dialect.ascii)
    (h : ∀ code ∈ codes, code < 0x110000) :
    ∀ c ∈ spellUnits dialect (escapedAll dialect.ascii codes), IsAscii dialect c := by
  refine isAscii_spellUnits (legal_escapedAll hascii h) fun c hc => ?_
  obtain ⟨code, hcode, hc⟩ := List.mem_flatMap.mp hc
  exact (escapedAs_escaped dialect.ascii (h code hcode)).raw_ascii hc

/-- **A text without surrogates is read back.** -/
theorem decode_escapedAll (h : ∀ code ∈ codes, code.isValidChar) {write : Nat → List α}
    (hwrite : ∀ code, 0x20 ≤ code → code ≤ 0x7E → write code = [ascii (UInt8.ofNat code)]) :
    decodeUnits write (escapedAll ascii codes) = codes.flatMap write := by
  induction codes with
  | nil => rfl
  | cons code rest ih =>
      obtain ⟨hcode, hrest⟩ := List.forall_mem_cons.mp h
      have hhigh : ¬ IsHigh code := fun hhigh => by
        have hlow : 0xD800 ≤ code := hhigh.1
        have hbelow : code ≤ 0xDBFF := hhigh.2
        rcases hcode with hcode | hcode <;> omega
      have hbound : code < 0x110000 := by rcases hcode with hcode | hcode <;> omega
      rw [escapedAll, List.flatMap_cons, List.flatMap_cons,
        (escapedAs_escaped ascii hbound).decode hhigh hwrite]
      congr 1
      exact ih hrest

variable {ascii} in
/-- What follows a high surrogate has to be the low one. -/
theorem EscapedAs.paired_high {code next : Nat} {units rest : List (StringUnit α)}
    (hhigh : IsHigh code) (h : EscapedAs ascii next units) :
    Paired (.unicode (fourHexDigits code) :: (units ++ rest)) ↔ IsLow next ∧ Paired rest := by
  have hcode : codeUnit (fourHexDigits code) = code := by
    have hbelow : code ≤ 0xDBFF := hhigh.2
    exact codeUnit_fourHexDigits (by omega)
  have hhigh' : IsHigh (codeUnit (fourHexDigits code)) := by rwa [hcode]
  have hlower : ∀ {bound}, next ≤ bound → bound < 0xDC00 → ¬ (IsLow next ∧ Paired rest) :=
    fun hnext hbound hpaired => by
      have hlow : 0xDC00 ≤ next := hpaired.1.1
      omega
  cases h with
  | letter hletter =>
      exact iff_of_false (not_paired_high hhigh' nofun)
        (hlower (escapeCode_le hletter) (by decide))
  | raw hlow hhigh hquote hbackslash =>
      exact iff_of_false (not_paired_high hhigh' nofun) (hlower hhigh (by decide))
  | unit hdigits hunit =>
      show Paired (.unicode _ :: .unicode _ :: rest) ↔ _
      rw [paired_pair hhigh', hunit]
  | pair hfirst hsecond hpair hbeyond =>
      refine iff_of_false (fun hpaired => ?_) fun h => ?_
      · have hlow := ((paired_pair hhigh').mp hpaired).1.1
        have hbelow := hfirst.2
        omega
      · have hnext : next ≤ 0xDFFF := h.1.2
        omega

/-- A surrogate is written as it is. -/
theorem escaped_surrogate {code : Nat} (habove : 0xD800 ≤ code) (hbelow : code ≤ 0xDFFF) :
    escaped ascii code = [.unicode (fourHexDigits code)] := by
  have hescaped := escapedAs_escaped ascii (show code < 0x110000 by omega)
  generalize escaped ascii code = units at hescaped
  cases hescaped with
  | letter hletter =>
      have hsmall := escapeCode_le hletter
      omega
  | raw hlow hhigh hquote hbackslash => omega
  | unit hdigits hunit => rw [hdigits]
  | pair hfirst hsecond hpair hbeyond => omega

theorem escaped_high {code : Nat} (h : IsHigh code) :
    escaped ascii code = [.unicode (fourHexDigits code)] :=
  escaped_surrogate ascii h.1 (Nat.le_trans h.2 (by decide))

theorem escaped_low {code : Nat} (h : IsLow code) :
    escaped ascii code = [.unicode (fourHexDigits code)] :=
  escaped_surrogate ascii (Nat.le_trans (by decide) h.1) h.2

/-- **The surrogates of the literal are paired as those of the text are.** -/
theorem paired_escapedAll (h : ∀ code ∈ codes, code < 0x110000) :
    Paired (escapedAll ascii codes) ↔ SurrogatesPaired codes := by
  have hcodeUnit : ∀ {code}, code ≤ 0xDFFF → codeUnit (fourHexDigits code) = code := fun hbelow =>
    codeUnit_fourHexDigits (by omega)
  fun_induction SurrogatesPaired codes with
  | case1 => exact Iff.rfl
  | case2 code hhigh =>
      rw [escapedAll, List.flatMap_cons, escaped_high ascii hhigh]
      refine iff_of_false (not_paired_high ?_ nofun) id
      rwa [hcodeUnit (Nat.le_trans hhigh.2 (by decide))]
  | case3 code hhigh next rest ih =>
      obtain ⟨-, hnext, hrest⟩ := by simpa only [List.forall_mem_cons] using h
      have hpaired : Paired (escapedAll ascii rest) ↔ SurrogatesPaired rest := ih hrest
      rw [escapedAll, List.flatMap_cons, escaped_high ascii hhigh, List.flatMap_cons]
      show Paired (.unicode _ :: (escaped ascii next ++ escapedAll ascii rest)) ↔ _
      rw [(escapedAs_escaped ascii hnext).paired_high hhigh, hpaired]
  | case4 code rest hhigh ih =>
      obtain ⟨hcode, hrest⟩ := List.forall_mem_cons.mp h
      have hpaired : Paired (escapedAll ascii rest) ↔ SurrogatesPaired rest := ih hrest
      show Paired (escaped ascii code ++ escapedAll ascii rest) ↔ _
      by_cases hlow : IsLow code
      · rw [escaped_low ascii hlow]
        show Paired (.unicode _ :: escapedAll ascii rest) ↔ _
        rw [paired_unicode (by rwa [hcodeUnit hlow.2]), hcodeUnit hlow.2]
        exact iff_of_false (fun h => h.1 hlow) fun h => h.1 hlow
      · rw [(escapedAs_escaped ascii hcode).paired hhigh hlow, hpaired]
        exact (and_iff_right hlow).symm

end Escaped

end DynamicProperties.Library.Json
