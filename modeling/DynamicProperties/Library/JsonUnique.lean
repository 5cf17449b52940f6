import DynamicProperties.Library.Json

/-!
# A text spells one tree

The grammar of JSON is unambiguous over every dialect whose number literals can be
told from the other values by their first character and from what follows a value
by its first character.  Two readings of one text are compared from the left: both
have the same first part, and what is left over on either side starts with a
character that the part before it cannot contain.
-/

namespace DynamicProperties.Library.Json

/-! ## Characters that end a part -/

/-- White space. -/
def IsSpace (c : UInt8) : Prop := c = 0x20 ∨ c = 0x09 ∨ c = 0x0A ∨ c = 0x0D

instance (c : UInt8) : Decidable (IsSpace c) :=
  inferInstanceAs (Decidable (c = 0x20 ∨ c = 0x09 ∨ c = 0x0A ∨ c = 0x0D))

/-- What can follow a value: white space, a comma or a closing bracket. -/
def IsDelimiter (c : UInt8) : Prop := IsSpace c ∨ c = 0x2C ∨ c = 0x5D ∨ c = 0x7D

instance (c : UInt8) : Decidable (IsDelimiter c) :=
  inferInstanceAs (Decidable (IsSpace c ∨ c = 0x2C ∨ c = 0x5D ∨ c = 0x7D))

/-- The first character of a value that is not a number. -/
def Marks (c : UInt8) : Prop :=
  c = 0x6E ∨ c = 0x74 ∨ c = 0x66 ∨ c = 0x22 ∨ c = 0x5B ∨ c = 0x7B

instance (c : UInt8) : Decidable (Marks c) :=
  inferInstanceAs (Decidable (c = 0x6E ∨ c = 0x74 ∨ c = 0x66 ∨ c = 0x22 ∨ c = 0x5B ∨ c = 0x7B))

section Lists

variable {α : Type} {P : α → Prop} {first first' rest rest' : List α}

/-- A part up to the first character that cannot be in it. -/
theorem part_unique (hfirst : ∀ c ∈ first, P c) (hfirst' : ∀ c ∈ first', P c)
    (hrest : ∀ c ∈ rest.head?, ¬ P c) (hrest' : ∀ c ∈ rest'.head?, ¬ P c)
    (h : first ++ rest = first' ++ rest') : first = first' ∧ rest = rest' := by
  induction first generalizing first' with
  | nil =>
      cases first' with
      | nil => exact ⟨rfl, h⟩
      | cons c first' =>
          rw [List.nil_append] at h
          exact absurd (hfirst' c List.mem_cons_self) (hrest c (by rw [h]; rfl))
  | cons c first ih =>
      obtain ⟨hc, hfirst⟩ := List.forall_mem_cons.mp hfirst
      cases first' with
      | nil =>
          rw [List.nil_append] at h
          exact absurd hc (hrest' c (by rw [← h]; rfl))
      | cons c' first' =>
          obtain ⟨rfl, htail⟩ := List.cons.inj h
          obtain ⟨rfl, hboth⟩ := ih hfirst (List.forall_mem_cons.mp hfirst').2 htail
          exact ⟨rfl, hboth⟩

end Lists

/-! ## Number literals -/

/-- The characters of a number. -/
theorem NumberLiteral.chars {digits : List UInt8} (h : NumberLiteral digits) :
    ∀ c ∈ digits, IsDigit c ∨ c = 0x2D ∨ c = 0x2B ∨ c = 0x2E ∨ c = 0x65 ∨ c = 0x45 := by
  obtain ⟨minus, integer, fraction, exponent, rfl, hminus, hinteger, hfraction, hexponent⟩ := h
  intro c hc
  simp only [List.mem_append] at hc
  rcases hc with hc | hc | hc | hc
  · rcases hminus with rfl | rfl
    · exact absurd hc List.not_mem_nil
    · exact .inr (.inl (List.mem_singleton.mp hc))
  · rcases hinteger with rfl | ⟨hdigits, -⟩
    · rw [List.mem_singleton.mp hc]
      exact .inl (by decide)
    · exact .inl (hdigits.2 c hc)
  · rcases hfraction with rfl | ⟨digits, rfl, hdigits⟩
    · exact absurd hc List.not_mem_nil
    · rcases List.mem_cons.mp hc with rfl | hc
      · simp
      · exact .inl (hdigits.2 c hc)
  · rcases hexponent with rfl | ⟨e, sign, digits, rfl, he, hsign, hdigits⟩
    · exact absurd hc List.not_mem_nil
    · rcases List.mem_cons.mp hc with rfl | hc
      · rcases he with rfl | rfl <;> simp
      · rcases List.mem_append.mp hc with hc | hc
        · rcases hsign with rfl | rfl | rfl
          · exact absurd hc List.not_mem_nil
          · rw [List.mem_singleton.mp hc]
            simp
          · rw [List.mem_singleton.mp hc]
            simp
        · exact .inl (hdigits.2 c hc)

theorem NumberLiteral.ne_nil {digits : List UInt8} (h : NumberLiteral digits) : digits ≠ [] := by
  obtain ⟨minus, integer, fraction, exponent, rfl, -, hinteger, -, -⟩ := h
  have hne : integer ≠ [] := by
    rcases hinteger with rfl | ⟨hdigits, -⟩
    · exact List.cons_ne_nil _ _
    · exact hdigits.1
  intro hnil
  exact hne (List.append_eq_nil_iff.mp (List.append_eq_nil_iff.mp hnil).2).1

/-- A number of the grammar can be told from the other values. -/
theorem NumberLiteral.lexical {digits : List UInt8} (h : NumberLiteral digits) :
    (∀ c ∈ digits, ¬ IsDelimiter c) ∧ ∃ c rest, digits = c :: rest ∧ ¬ Marks c := by
  have hdigit : ∀ c, IsDigit c → ¬ IsDelimiter c ∧ ¬ Marks c := by
    intro c hc
    constructor
    · rintro ((rfl | rfl | rfl | rfl) | rfl | rfl | rfl) <;> exact absurd hc (by decide)
    · rintro (rfl | rfl | rfl | rfl | rfl | rfl) <;> exact absurd hc (by decide)
  have hplain : ∀ c ∈ digits, ¬ IsDelimiter c ∧ ¬ Marks c := by
    intro c hc
    rcases h.chars c hc with hc | rfl | rfl | rfl | rfl | rfl
    · exact hdigit c hc
    all_goals decide
  obtain ⟨c, rest, rfl⟩ := List.exists_cons_of_ne_nil h.ne_nil
  exact ⟨fun d hd => (hplain d hd).1, c, rest, rfl, (hplain c List.mem_cons_self).2⟩

theorem NumberLiteral.ascii {digits : List UInt8} (h : NumberLiteral digits) :
    ∀ c ∈ digits, c < 0x80 := by
  intro c hc
  rcases h.chars c hc with ⟨-, hhigh⟩ | rfl | rfl | rfl | rfl | rfl
  · exact UInt8.lt_of_le_of_lt hhigh (by decide)
  all_goals decide

section Dialects

variable {α : Type} {dialect : Dialect α}

/-- What makes the first characters tell. -/
structure Dialect.Lexical (dialect : Dialect α) : Prop where
  injective : Function.Injective dialect.ascii
  number : ∀ digits, dialect.number digits →
    (∀ c ∈ digits, ¬ IsDelimiter c) ∧ ∃ c rest, digits = c :: rest ∧ ¬ Marks c

variable (hlexical : dialect.Lexical)
include hlexical

theorem token_inj {octets octets' : List UInt8} (h : dialect.token octets = dialect.token octets') :
    octets = octets' :=
  List.map_injective_iff.mpr hlexical.injective h

/-- A run of ASCII characters of one kind, followed by one of another kind. -/
theorem token_unique {Q : UInt8 → Prop} {octets octets' : List UInt8} {rest rest' : List α}
    (hoctets : ∀ c ∈ octets, Q c) (hoctets' : ∀ c ∈ octets', Q c)
    (hrest : ∀ c ∈ rest.head?, ∀ octet, c = dialect.ascii octet → ¬ Q octet)
    (hrest' : ∀ c ∈ rest'.head?, ∀ octet, c = dialect.ascii octet → ¬ Q octet)
    (h : dialect.token octets ++ rest = dialect.token octets' ++ rest') :
    octets = octets' ∧ rest = rest' := by
  have hspelled : ∀ {octets : List UInt8}, (∀ c ∈ octets, Q c) →
      ∀ c ∈ dialect.token octets, ∃ octet, c = dialect.ascii octet ∧ Q octet := by
    intro octets hoctets c hc
    obtain ⟨octet, hoctet, rfl⟩ := List.mem_map.mp hc
    exact ⟨octet, rfl, hoctets octet hoctet⟩
  have hstops : ∀ {rest : List α},
      (∀ c ∈ rest.head?, ∀ octet, c = dialect.ascii octet → ¬ Q octet) →
      ∀ c ∈ rest.head?, ¬ ∃ octet, c = dialect.ascii octet ∧ Q octet := by
    intro rest hrest c hc hex
    obtain ⟨octet, hoctet, hq⟩ := hex
    exact hrest c hc octet hoctet hq
  obtain ⟨hfirst, hboth⟩ :=
    part_unique (hspelled hoctets) (hspelled hoctets') (hstops hrest) (hstops hrest') h
  exact ⟨token_inj hlexical hfirst, hboth⟩

/-! ## Literals -/

/-- What a unit of a literal starts with; the quotation mark is not among it. -/
theorem StringUnit.Legal.head {unit : StringUnit α} (h : unit.Legal dialect) :
    ∃ c rest, unit.spell dialect = c :: rest ∧ c ≠ dialect.ascii 0x22 := by
  cases unit with
  | raw c => exact ⟨c, [], rfl, fun hquote => (h 0x22 hquote).2.1 rfl⟩
  | escape letter =>
      exact ⟨_, _, rfl, fun hquote => absurd (hlexical.injective hquote) (by decide)⟩
  | unicode digits =>
      exact ⟨_, _, rfl, fun hquote => absurd (hlexical.injective hquote) (by decide)⟩

omit hlexical in
/-- A raw character is not a backslash. -/
theorem StringUnit.Legal.raw_ne {c : α} {rest rest' : List α}
    (h : (StringUnit.raw c).Legal dialect) :
    c :: rest ≠ dialect.ascii 0x5C :: rest' := fun heq =>
  (h 0x5C (List.cons.inj heq).1).2.2 rfl

/-- The letter of an escape is not the one of a code unit. -/
theorem escape_ne_unicode {letter : UInt8} {digits : List UInt8} {rest rest' : List α}
    (h : (StringUnit.escape letter : StringUnit α).Legal dialect) :
    (StringUnit.escape letter).spell dialect ++ rest ≠
      (StringUnit.unicode digits).spell dialect ++ rest' := by
  intro heq
  have hletter : dialect.ascii letter = dialect.ascii 0x75 :=
    (List.cons.inj (List.cons.inj heq).2).1
  have hcode : (escapeCode letter).isSome = true := h
  rw [hlexical.injective hletter] at hcode
  exact absurd hcode (by decide)

theorem unit_unique {unit unit' : StringUnit α} {rest rest' : List α} (h : unit.Legal dialect)
    (h' : unit'.Legal dialect)
    (heq : unit.spell dialect ++ rest = unit'.spell dialect ++ rest') :
    unit = unit' ∧ rest = rest' := by
  cases unit with
  | raw c =>
      cases unit' with
      | raw c' =>
          obtain ⟨rfl, hrest⟩ := List.cons.inj heq
          exact ⟨rfl, hrest⟩
      | escape letter => exact absurd heq h.raw_ne
      | unicode digits => exact absurd heq h.raw_ne
  | escape letter =>
      cases unit' with
      | raw c' => exact absurd heq.symm h'.raw_ne
      | escape letter' =>
          obtain ⟨hletter, hrest⟩ := List.cons.inj (List.cons.inj heq).2
          rw [hlexical.injective hletter]
          exact ⟨rfl, hrest⟩
      | unicode digits => exact absurd heq (escape_ne_unicode hlexical h)
  | unicode digits =>
      cases unit' with
      | raw c' => exact absurd heq.symm h'.raw_ne
      | escape letter => exact absurd heq.symm (escape_ne_unicode hlexical h')
      | unicode digits' =>
          have htail : dialect.token digits ++ rest = dialect.token digits' ++ rest' :=
            (List.cons.inj (List.cons.inj heq).2).2
          have hlength : (dialect.token digits).length = (dialect.token digits').length := by
            rw [Dialect.token, Dialect.token, List.length_map, List.length_map, h.1, h'.1]
          obtain ⟨hdigits, hrest⟩ := List.append_inj htail hlength
          rw [token_inj hlexical hdigits]
          exact ⟨rfl, hrest⟩

/-- The units of a literal, up to its closing quotation mark. -/
theorem units_unique {units units' : List (StringUnit α)} {rest rest' : List α}
    (h : LegalUnits dialect units) (h' : LegalUnits dialect units')
    (heq : spellUnits dialect units ++ dialect.ascii 0x22 :: rest =
      spellUnits dialect units' ++ dialect.ascii 0x22 :: rest') :
    units = units' ∧ rest = rest' := by
  have hnext : ∀ {unit : StringUnit α} {units : List (StringUnit α)} {rest rest' : List α},
      unit.Legal dialect → dialect.ascii 0x22 :: rest ≠
        spellUnits dialect (unit :: units) ++ rest' := by
    intro unit units rest rest' hunit heq
    obtain ⟨c, tail, hspell, hc⟩ := hunit.head hlexical
    rw [spellUnits_cons, hspell] at heq
    exact hc (List.cons.inj heq).1.symm
  induction units generalizing units' with
  | nil =>
      cases units' with
      | nil => exact ⟨rfl, (List.cons.inj heq).2⟩
      | cons unit' units' => exact absurd heq (hnext (legalUnits_cons.mp h').1)
  | cons unit units ih =>
      cases units' with
      | nil => exact absurd heq.symm (hnext (legalUnits_cons.mp h).1)
      | cons unit' units' =>
          rw [spellUnits_cons, spellUnits_cons, List.append_assoc, List.append_assoc] at heq
          obtain ⟨rfl, htail⟩ :=
            unit_unique hlexical (legalUnits_cons.mp h).1 (legalUnits_cons.mp h').1 heq
          obtain ⟨rfl, hboth⟩ := ih (legalUnits_cons.mp h).2 (legalUnits_cons.mp h').2 htail
          exact ⟨rfl, hboth⟩

theorem literal_unique {units units' : List (StringUnit α)} {rest rest' : List α}
    (h : LegalUnits dialect units) (h' : LegalUnits dialect units')
    (heq : literal dialect units ++ rest = literal dialect units' ++ rest') :
    units = units' ∧ rest = rest' := by
  have hinner : ∀ (units : List (StringUnit α)) (rest : List α), literal dialect units ++ rest =
      dialect.ascii 0x22 :: (spellUnits dialect units ++ dialect.ascii 0x22 :: rest) := by
    intro units rest
    simp [literal, Dialect.token]
  rw [hinner, hinner] at heq
  exact units_unique hlexical h h' (List.cons.inj heq).2

/-! ## What values start with -/

omit hlexical

/-- The character a value starts with, unless it is a number. -/
def Tree.mark : Tree α → Option UInt8
  | .null => some 0x6E
  | .bool true => some 0x74
  | .bool false => some 0x66
  | .number _ => none
  | .string _ => some 0x22
  | .array _ => some 0x5B
  | .object _ => some 0x7B

section Marks

@[simp] theorem mark_null : (Tree.null : Tree α).mark = some 0x6E := rfl

@[simp] theorem mark_true : (Tree.bool true : Tree α).mark = some 0x74 := rfl

@[simp] theorem mark_false : (Tree.bool false : Tree α).mark = some 0x66 := rfl

@[simp] theorem mark_number (digits : List UInt8) : (Tree.number digits : Tree α).mark = none := rfl

@[simp] theorem mark_string (units : List (StringUnit α)) :
    (Tree.string units).mark = some 0x22 := rfl

@[simp] theorem mark_array (trees : List (Tree α)) : (Tree.array trees).mark = some 0x5B := rfl

@[simp] theorem mark_object (members : List (List (StringUnit α) × Tree α)) :
    (Tree.object members).mark = some 0x7B := rfl

variable {tree : Tree α}

theorem eq_null_of_mark (h : (Tree.null : Tree α).mark = tree.mark) : tree = .null := by
  cases tree with
  | null => rfl
  | bool value => cases value <;> simp at h
  | number | string | array | object => simp at h

theorem eq_bool_of_mark {value : Bool} (h : (Tree.bool value : Tree α).mark = tree.mark) :
    tree = .bool value := by
  cases tree with
  | bool value' => cases value <;> cases value' <;> simp at h ⊢
  | null | number | string | array | object => cases value <;> simp at h

theorem eq_number_of_mark {digits : List UInt8}
    (h : (Tree.number digits : Tree α).mark = tree.mark) : ∃ digits', tree = .number digits' := by
  cases tree with
  | number digits' => exact ⟨digits', rfl⟩
  | bool value => cases value <;> simp at h
  | null | string | array | object => simp at h

theorem eq_string_of_mark {units : List (StringUnit α)}
    (h : (Tree.string units).mark = tree.mark) : ∃ units', tree = .string units' := by
  cases tree with
  | string units' => exact ⟨units', rfl⟩
  | bool value => cases value <;> simp at h
  | null | number | array | object => simp at h

theorem eq_array_of_mark {trees : List (Tree α)} (h : (Tree.array trees).mark = tree.mark) :
    ∃ trees', tree = .array trees' := by
  cases tree with
  | array trees' => exact ⟨trees', rfl⟩
  | bool value => cases value <;> simp at h
  | null | number | string | object => simp at h

theorem eq_object_of_mark {members : List (List (StringUnit α) × Tree α)}
    (h : (Tree.object members).mark = tree.mark) : ∃ members', tree = .object members' := by
  cases tree with
  | object members' => exact ⟨members', rfl⟩
  | bool value => cases value <;> simp at h
  | null | number | string | array => simp at h

end Marks

variable (dialect) in
/-- White space ended before this text. -/
def NoSpace (text : List α) : Prop :=
  ∀ c ∈ text.head?, ∀ octet, c = dialect.ascii octet → ¬ IsSpace octet

variable (dialect) in
/-- A value ended before this text. -/
def Ends (text : List α) : Prop :=
  ∀ c ∈ text.head?, ∃ octet, c = dialect.ascii octet ∧ IsDelimiter octet

theorem ends_nil : Ends dialect [] := fun _ hc => absurd hc (by simp)

theorem ends_cons {c : UInt8} {rest : List α} (hc : IsDelimiter c) :
    Ends dialect (dialect.ascii c :: rest) := by
  intro d hd
  obtain rfl := Option.some.inj hd
  exact ⟨c, rfl, hc⟩

theorem ends_space {space : List UInt8} {rest : List α} (hspace : Space space)
    (hrest : Ends dialect rest) : Ends dialect (dialect.token space ++ rest) := by
  cases space with
  | nil => exact hrest
  | cons c space => exact ends_cons (.inl (hspace c List.mem_cons_self))

include hlexical

theorem noSpace_cons {c : UInt8} {rest : List α} (hc : ¬ IsSpace c) :
    NoSpace dialect (dialect.ascii c :: rest) := by
  intro d hd octet hoctet
  obtain rfl := Option.some.inj hd
  rwa [← hlexical.injective hoctet]

theorem space_unique {space space' : List UInt8} {rest rest' : List α} (hspace : Space space)
    (hspace' : Space space') (hrest : NoSpace dialect rest) (hrest' : NoSpace dialect rest')
    (heq : dialect.token space ++ rest = dialect.token space' ++ rest') :
    space = space' ∧ rest = rest' :=
  token_unique hlexical (Q := IsSpace) hspace hspace' hrest hrest' heq

/-- The first character of a value says what kind of value it is. -/
theorem Spells.head {tree : Tree α} {text : List α} (h : Spells dialect (.value tree) text) :
    ∃ c rest, text = dialect.ascii c :: rest ∧ ¬ IsDelimiter c ∧
      tree.mark = if Marks c then some c else none := by
  cases h with
  | null => exact ⟨_, _, rfl, by decide, (if_pos (by decide)).symm⟩
  | bool value => cases value <;> exact ⟨_, _, rfl, by decide, (if_pos (by decide)).symm⟩
  | number hnumber =>
      obtain ⟨hplain, c, rest, rfl, hmarks⟩ := hlexical.number _ hnumber
      exact ⟨c, _, rfl, hplain c List.mem_cons_self, (if_neg hmarks).symm⟩
  | string => exact ⟨_, _, rfl, by decide, (if_pos (by decide)).symm⟩
  | emptyArray => exact ⟨_, _, rfl, by decide, (if_pos (by decide)).symm⟩
  | array => exact ⟨_, _, rfl, by decide, (if_pos (by decide)).symm⟩
  | emptyObject => exact ⟨_, _, rfl, by decide, (if_pos (by decide)).symm⟩
  | object => exact ⟨_, _, rfl, by decide, (if_pos (by decide)).symm⟩

theorem Spells.noSpace {tree : Tree α} {text rest : List α}
    (h : Spells dialect (.value tree) text) : NoSpace dialect (text ++ rest) := by
  obtain ⟨c, tail, rfl, hc, -⟩ := h.head hlexical
  exact noSpace_cons hlexical fun hspace => hc (.inl hspace)

theorem noSpace_literal {units : List (StringUnit α)} {rest : List α} :
    NoSpace dialect (literal dialect units ++ rest) :=
  noSpace_cons hlexical (c := 0x22) (by decide)

theorem mark_unique {tree tree' : Tree α} {text text' rest rest' : List α}
    (h : Spells dialect (.value tree) text) (h' : Spells dialect (.value tree') text')
    (heq : text ++ rest = text' ++ rest') : tree.mark = tree'.mark := by
  obtain ⟨c, tail, rfl, -, hmark⟩ := h.head hlexical
  obtain ⟨c', tail', rfl, -, hmark'⟩ := h'.head hlexical
  have hc : c = c' := hlexical.injective (List.cons.inj heq).1
  rw [hmark, hmark', hc]

/-- The first element starts with no delimiter. -/
theorem Spells.head_elements {trees : List (Tree α)} {text : List α}
    (h : Spells dialect (.elements trees) text) :
    ∃ space c rest, text = dialect.token space ++ dialect.ascii c :: rest ∧ Space space ∧
      ¬ IsDelimiter c := by
  cases h with
  | @lastElement tree before after text hbefore htree hafter =>
      obtain ⟨c, rest, rfl, hc, -⟩ := htree.head hlexical
      exact ⟨before, c, rest ++ dialect.token after, List.append_assoc .., hbefore, hc⟩
  | @element tree trees before after text others hbefore htree hafter hrest =>
      obtain ⟨c, rest, rfl, hc, -⟩ := htree.head hlexical
      refine ⟨before, c, rest ++ (dialect.token (after ++ [0x2C]) ++ others), ?_, hbefore, hc⟩
      simp only [List.append_assoc, List.cons_append]

omit hlexical in
/-- The first member starts with its name. -/
theorem Spells.head_members {members : List (List (StringUnit α) × Tree α)} {text : List α}
    (h : Spells dialect (.members members) text) :
    ∃ space rest, text = dialect.token space ++ dialect.ascii 0x22 :: rest ∧ Space space := by
  have hquote : ∀ (before : List UInt8) (units : List (StringUnit α)) (rest : List α),
      dialect.token before ++ (literal dialect units ++ rest) = dialect.token before ++
        dialect.ascii 0x22 :: (spellUnits dialect units ++ dialect.ascii 0x22 :: rest) := by
    intro before units rest
    simp [literal, Dialect.token]
  cases h with
  | lastMember hbefore =>
      rw [List.append_assoc, List.append_assoc, List.append_assoc, hquote]
      exact ⟨_, _, rfl, hbefore⟩
  | member hbefore =>
      rw [List.append_assoc, List.append_assoc, List.append_assoc, List.append_assoc, hquote]
      exact ⟨_, _, rfl, hbefore⟩

/-! ## Comparing two readings -/

omit hlexical in
variable (dialect) in
/-- Whatever reads the same text reads the same phrase. -/
def Unique : Phrase α → List α → Prop
  | .value tree, text => ∀ tree' text' rest rest', Spells dialect (.value tree') text' →
      text ++ rest = text' ++ rest' → Ends dialect rest → Ends dialect rest' →
        tree = tree' ∧ text = text'
  | .elements trees, text => ∀ trees' text' rest rest', Spells dialect (.elements trees') text' →
      text ++ dialect.ascii 0x5D :: rest = text' ++ dialect.ascii 0x5D :: rest' →
        trees = trees' ∧ text = text'
  | .members members, text => ∀ members' text' rest rest',
      Spells dialect (.members members') text' →
      text ++ dialect.ascii 0x7D :: rest = text' ++ dialect.ascii 0x7D :: rest' →
        members = members' ∧ text = text'

/-- A value with white space around it and a delimiter behind that. -/
theorem spaced_unique {tree tree' : Tree α} {text text' rest rest' : List α}
    {before after before' after' : List UInt8} {c c' : UInt8}
    (hunique : Unique dialect (.value tree) text) (h : Spells dialect (.value tree) text)
    (h' : Spells dialect (.value tree') text')
    (hbefore : Space before) (hbefore' : Space before') (hafter : Space after)
    (hafter' : Space after') (hc : IsDelimiter c ∧ ¬ IsSpace c)
    (hc' : IsDelimiter c' ∧ ¬ IsSpace c')
    (heq : dialect.token before ++ (text ++ (dialect.token after ++ dialect.ascii c :: rest)) =
      dialect.token before' ++ (text' ++ (dialect.token after' ++ dialect.ascii c' :: rest'))) :
    (tree = tree' ∧ before = before' ∧ text = text' ∧ after = after') ∧ c = c' ∧ rest = rest' := by
  obtain ⟨rfl, hvalue⟩ := space_unique hlexical hbefore hbefore' (h.noSpace hlexical)
    (h'.noSpace hlexical) heq
  obtain ⟨rfl, rfl⟩ := hunique _ _ _ _ h' hvalue (ends_space hafter (ends_cons hc.1))
    (ends_space hafter' (ends_cons hc'.1))
  obtain ⟨rfl, hend⟩ := space_unique hlexical hafter hafter' (noSpace_cons hlexical hc.2)
    (noSpace_cons hlexical hc'.2) (List.append_cancel_left hvalue)
  obtain ⟨hascii, rfl⟩ := List.cons.inj hend
  exact ⟨⟨rfl, rfl, rfl, rfl⟩, hlexical.injective hascii, rfl⟩

/-- A name and its colon, in front of a value. -/
theorem named_unique {key key' : List (StringUnit α)} {before colon colon' : List UInt8}
    {before' inner inner' : List UInt8} {rest rest' : List α} (hkey : LegalUnits dialect key)
    (hkey' : LegalUnits dialect key') (hbefore : Space before) (hbefore' : Space before')
    (hcolon : Space colon) (hcolon' : Space colon')
    (heq : dialect.token before ++ (literal dialect key ++
        (dialect.token colon ++ dialect.ascii 0x3A :: (dialect.token inner ++ rest))) =
      dialect.token before' ++ (literal dialect key' ++
        (dialect.token colon' ++ dialect.ascii 0x3A :: (dialect.token inner' ++ rest')))) :
    (before = before' ∧ key = key' ∧ colon = colon') ∧
      dialect.token inner ++ rest = dialect.token inner' ++ rest' := by
  obtain ⟨rfl, hname⟩ := space_unique hlexical hbefore hbefore' (noSpace_literal hlexical)
    (noSpace_literal hlexical) heq
  obtain ⟨rfl, hbehind⟩ := literal_unique hlexical hkey hkey' hname
  obtain ⟨rfl, hrest⟩ := space_unique hlexical hcolon hcolon'
    (noSpace_cons hlexical (by decide)) (noSpace_cons hlexical (by decide)) hbehind
  exact ⟨⟨rfl, rfl, rfl⟩, (List.cons.inj hrest).2⟩

omit hlexical in
/-- A structural character with white space around it. -/
theorem token_structural (space : List UInt8) (c : UInt8) (space' : List UInt8) (rest : List α) :
    dialect.token (space ++ c :: space') ++ rest =
      dialect.token space ++ dialect.ascii c :: (dialect.token space' ++ rest) := by
  simp [Dialect.token]

omit hlexical in
theorem token_nil_append (rest : List α) : dialect.token [] ++ rest = rest := rfl

omit hlexical in
theorem bracket_empty (opening closing : UInt8) (space : List UInt8) (rest : List α) :
    dialect.token ([opening] ++ space ++ [closing]) ++ rest =
      dialect.ascii opening :: (dialect.token space ++ dialect.ascii closing :: rest) := by
  simp [Dialect.token]

omit hlexical in
theorem bracket_around (opening closing : UInt8) (text rest : List α) :
    dialect.token [opening] ++ text ++ dialect.token [closing] ++ rest =
      dialect.ascii opening :: (text ++ dialect.ascii closing :: rest) := by
  simp [Dialect.token]

/-- An empty pair of brackets holds no element. -/
theorem not_elements_of_empty {trees : List (Tree α)} {text rest rest' : List α}
    {space : List UInt8} (h : Spells dialect (.elements trees) text) (hspace : Space space)
    (heq : dialect.token space ++ dialect.ascii 0x5D :: rest = text ++ rest') : False := by
  obtain ⟨space', c, tail, rfl, hspace', hc⟩ := h.head_elements hlexical
  rw [List.append_assoc] at heq
  obtain ⟨-, hend⟩ := space_unique hlexical hspace hspace' (noSpace_cons hlexical (by decide))
    (noSpace_cons hlexical fun hc' => hc (.inl hc')) heq
  rw [← hlexical.injective (List.cons.inj hend).1] at hc
  exact hc (by decide)

/-- An empty pair of braces holds no member. -/
theorem not_members_of_empty {members : List (List (StringUnit α) × Tree α)}
    {text rest rest' : List α} {space : List UInt8} (h : Spells dialect (.members members) text)
    (hspace : Space space)
    (heq : dialect.token space ++ dialect.ascii 0x7D :: rest = text ++ rest') : False := by
  obtain ⟨space', tail, rfl, hspace'⟩ := h.head_members
  rw [List.append_assoc] at heq
  obtain ⟨-, hend⟩ := space_unique hlexical hspace hspace' (noSpace_cons hlexical (by decide))
    (noSpace_cons hlexical (by decide)) heq
  exact absurd (hlexical.injective (List.cons.inj hend).1) (by decide)

/-- **The grammar is unambiguous.** -/
theorem Spells.unique {phrase : Phrase α} {text : List α} (h : Spells dialect phrase text) :
    Unique dialect phrase text := by
  induction h with
  | null =>
      intro tree' text' rest rest' h' heq _ _
      obtain rfl := eq_null_of_mark (mark_unique hlexical .null h' heq)
      cases h'
      exact ⟨rfl, rfl⟩
  | bool value =>
      intro tree' text' rest rest' h' heq _ _
      obtain rfl := eq_bool_of_mark (mark_unique hlexical (.bool value) h' heq)
      cases h'
      exact ⟨rfl, rfl⟩
  | @number digits hnumber =>
      intro tree' text' rest rest' h' heq hrest hrest'
      obtain ⟨digits', rfl⟩ := eq_number_of_mark (mark_unique hlexical (.number hnumber) h' heq)
      cases h' with
      | number hnumber' =>
          have hstops : ∀ {rest : List α}, Ends dialect rest →
              ∀ c ∈ rest.head?, ∀ octet, c = dialect.ascii octet → ¬ ¬ IsDelimiter octet := by
            intro rest hends c hc octet hoctet
            obtain ⟨octet', rfl, hdelimiter⟩ := hends c hc
            rw [← hlexical.injective hoctet]
            exact not_not_intro hdelimiter
          obtain ⟨rfl, -⟩ := token_unique hlexical (hlexical.number _ hnumber).1
            (hlexical.number _ hnumber').1 (hstops hrest) (hstops hrest') heq
          exact ⟨rfl, rfl⟩
  | @string units hunits =>
      intro tree' text' rest rest' h' heq _ _
      obtain ⟨units', rfl⟩ := eq_string_of_mark (mark_unique hlexical (.string hunits) h' heq)
      cases h' with
      | string hunits' =>
          obtain ⟨rfl, -⟩ := literal_unique hlexical hunits hunits' heq
          exact ⟨rfl, rfl⟩
  | @emptyArray space hspace =>
      intro tree' text' rest rest' h' heq _ _
      obtain ⟨trees', rfl⟩ := eq_array_of_mark (mark_unique hlexical (.emptyArray hspace) h' heq)
      rw [bracket_empty] at heq
      cases h' with
      | emptyArray hspace' =>
          rw [bracket_empty] at heq
          obtain ⟨rfl, -⟩ := space_unique hlexical hspace hspace'
            (noSpace_cons hlexical (by decide)) (noSpace_cons hlexical (by decide))
            (List.cons.inj heq).2
          exact ⟨rfl, rfl⟩
      | array helements' =>
          rw [bracket_around] at heq
          exact (not_elements_of_empty hlexical helements' hspace (List.cons.inj heq).2).elim
  | @array trees text helements ih =>
      intro tree' text' rest rest' h' heq _ _
      obtain ⟨trees', rfl⟩ := eq_array_of_mark (mark_unique hlexical (.array helements) h' heq)
      rw [bracket_around] at heq
      cases h' with
      | emptyArray hspace' =>
          rw [bracket_empty] at heq
          exact (not_elements_of_empty hlexical helements hspace' (List.cons.inj heq).2.symm).elim
      | array helements' =>
          rw [bracket_around] at heq
          obtain ⟨rfl, rfl⟩ := ih _ _ _ _ helements' (List.cons.inj heq).2
          exact ⟨rfl, rfl⟩
  | @emptyObject space hspace =>
      intro tree' text' rest rest' h' heq _ _
      obtain ⟨members', rfl⟩ :=
        eq_object_of_mark (mark_unique hlexical (.emptyObject hspace) h' heq)
      rw [bracket_empty] at heq
      cases h' with
      | emptyObject hspace' =>
          rw [bracket_empty] at heq
          obtain ⟨rfl, -⟩ := space_unique hlexical hspace hspace'
            (noSpace_cons hlexical (by decide)) (noSpace_cons hlexical (by decide))
            (List.cons.inj heq).2
          exact ⟨rfl, rfl⟩
      | object hmembers' =>
          rw [bracket_around] at heq
          exact (not_members_of_empty hlexical hmembers' hspace (List.cons.inj heq).2).elim
  | @object members text hmembers ih =>
      intro tree' text' rest rest' h' heq _ _
      obtain ⟨members', rfl⟩ := eq_object_of_mark (mark_unique hlexical (.object hmembers) h' heq)
      rw [bracket_around] at heq
      cases h' with
      | emptyObject hspace' =>
          rw [bracket_empty] at heq
          exact (not_members_of_empty hlexical hmembers hspace' (List.cons.inj heq).2.symm).elim
      | object hmembers' =>
          rw [bracket_around] at heq
          obtain ⟨rfl, rfl⟩ := ih _ _ _ _ hmembers' (List.cons.inj heq).2
          exact ⟨rfl, rfl⟩
  | @lastElement tree before after text hbefore htree hafter ih =>
      intro trees' text' rest rest' h' heq
      cases h' with
      | lastElement hbefore' htree' hafter' =>
          simp only [List.append_assoc] at heq
          obtain ⟨⟨rfl, rfl, rfl, rfl⟩, -, -⟩ := spaced_unique hlexical ih htree htree' hbefore
            hbefore' hafter hafter' (by decide) (by decide) heq
          exact ⟨rfl, rfl⟩
      | element hbefore' htree' hafter' hrest' =>
          simp only [List.append_assoc, token_structural, token_nil_append] at heq
          obtain ⟨-, hcomma, -⟩ := spaced_unique hlexical ih htree htree' hbefore hbefore' hafter
            hafter' (by decide) (by decide) heq
          exact absurd hcomma (by decide)
  | @element tree trees before after text others hbefore htree hafter hrest ih ihrest =>
      intro trees' text' rest rest' h' heq
      cases h' with
      | lastElement hbefore' htree' hafter' =>
          simp only [List.append_assoc, token_structural, token_nil_append] at heq
          obtain ⟨-, hcomma, -⟩ := spaced_unique hlexical ih htree htree' hbefore hbefore' hafter
            hafter' (by decide) (by decide) heq
          exact absurd hcomma (by decide)
      | element hbefore' htree' hafter' hrest' =>
          simp only [List.append_assoc, token_structural, token_nil_append] at heq
          obtain ⟨⟨rfl, rfl, rfl, rfl⟩, -, hothers⟩ := spaced_unique hlexical ih htree htree'
            hbefore hbefore' hafter hafter' (by decide) (by decide) heq
          obtain ⟨rfl, rfl⟩ := ihrest _ _ _ _ hrest' hothers
          exact ⟨rfl, rfl⟩
  | @lastMember key tree before colon colon' after text hbefore hkey hcolon hcolon' htree hafter
      ih =>
      intro members' text' rest rest' h' heq
      cases h' with
      | lastMember hbefore' hkey' hinner hinner' htree' hafter' =>
          simp only [List.append_assoc, List.cons_append, List.nil_append, token_structural] at heq
          obtain ⟨⟨rfl, rfl, rfl⟩, hvalue⟩ :=
            named_unique hlexical hkey hkey' hbefore hbefore' hcolon hinner heq
          obtain ⟨⟨rfl, rfl, rfl, rfl⟩, -, -⟩ := spaced_unique hlexical ih htree htree' hcolon'
            hinner' hafter hafter' (by decide) (by decide) hvalue
          exact ⟨rfl, rfl⟩
      | member hbefore' hkey' hinner hinner' htree' hafter' hrest' =>
          simp only [List.append_assoc, List.cons_append, List.nil_append, token_structural,
            token_nil_append] at heq
          obtain ⟨-, hvalue⟩ :=
            named_unique hlexical hkey hkey' hbefore hbefore' hcolon hinner heq
          obtain ⟨-, hcomma, -⟩ := spaced_unique hlexical ih htree htree' hcolon' hinner' hafter
            hafter' (by decide) (by decide) hvalue
          exact absurd hcomma (by decide)
  | @member key tree members before colon colon' after text others hbefore hkey hcolon hcolon' htree
      hafter hrest ih ihrest =>
      intro members' text' rest rest' h' heq
      cases h' with
      | lastMember hbefore' hkey' hinner hinner' htree' hafter' =>
          simp only [List.append_assoc, List.cons_append, List.nil_append, token_structural,
            token_nil_append] at heq
          obtain ⟨-, hvalue⟩ :=
            named_unique hlexical hkey hkey' hbefore hbefore' hcolon hinner heq
          obtain ⟨-, hcomma, -⟩ := spaced_unique hlexical ih htree htree' hcolon' hinner' hafter
            hafter' (by decide) (by decide) hvalue
          exact absurd hcomma (by decide)
      | member hbefore' hkey' hinner hinner' htree' hafter' hrest' =>
          simp only [List.append_assoc, List.cons_append, List.nil_append, token_structural,
            token_nil_append] at heq
          obtain ⟨⟨rfl, rfl, rfl⟩, hvalue⟩ :=
            named_unique hlexical hkey hkey' hbefore hbefore' hcolon hinner heq
          obtain ⟨⟨rfl, rfl, rfl, rfl⟩, -, hothers⟩ := spaced_unique hlexical ih htree htree'
            hcolon' hinner' hafter hafter' (by decide) (by decide) hvalue
          obtain ⟨rfl, rfl⟩ := ihrest _ _ _ _ hrest' hothers
          exact ⟨rfl, rfl⟩

/-- **A text has one tree.** -/
theorem IsText.unique {tree tree' : Tree α} {text : List α} (h : IsText dialect tree text)
    (h' : IsText dialect tree' text) : tree = tree' := by
  obtain ⟨before, body, after, rfl, hbefore, hbody, hafter⟩ := h
  obtain ⟨before', body', after', heq, hbefore', hbody', hafter'⟩ := h'
  rw [List.append_assoc, List.append_assoc] at heq
  obtain ⟨-, hvalue⟩ := space_unique hlexical hbefore hbefore' (hbody.noSpace hlexical)
    (hbody'.noSpace hlexical) heq
  have hends : ∀ {after : List UInt8}, Space after → Ends dialect (dialect.token after) := by
    intro after hafter
    simpa using ends_space hafter ends_nil
  exact (hbody.unique hlexical _ _ _ _ hbody' hvalue (hends hafter) (hends hafter')).1

end Dialects

end DynamicProperties.Library.Json
