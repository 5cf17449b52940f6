import Mathlib.Data.List.Basic

/-!
# The grammar of JSON

The ABNF of RFC 8259 as a relation between a parse tree and its text.  A tree keeps
what the grammar says about a text and nothing else: number and string literals
as they are spelled, members in their order, repeated names included; white space
is not part of it.

Texts are over any alphabet that contains ASCII, so the same grammar reads octets
and code points.  A dialect says which literals are numbers, so that a language
with further literals is an instance too.
-/

namespace DynamicProperties.Library.Json

/-! ## Numbers

`number = [ minus ] int [ frac ] [ exp ]` -/

def IsDigit (c : UInt8) : Prop := 0x30 ≤ c ∧ c ≤ 0x39

instance (c : UInt8) : Decidable (IsDigit c) :=
  inferInstanceAs (Decidable (0x30 ≤ c ∧ c ≤ 0x39))

/-- `1*DIGIT` -/
def Digits (text : List UInt8) : Prop := text ≠ [] ∧ ∀ c ∈ text, IsDigit c

/-- `[ minus ]` -/
def Minus (text : List UInt8) : Prop := text = [] ∨ text = [0x2D]

/-- `int = zero / ( digit1-9 *DIGIT )` -/
def Integer (text : List UInt8) : Prop :=
  text = [0x30] ∨ Digits text ∧ text.head? ≠ some 0x30

/-- `[ frac ]`, with `frac = decimal-point 1*DIGIT` -/
def Fraction (text : List UInt8) : Prop :=
  text = [] ∨ ∃ digits, text = 0x2E :: digits ∧ Digits digits

/-- `[ exp ]`, with `exp = e [ minus / plus ] 1*DIGIT` -/
def Exponent (text : List UInt8) : Prop :=
  text = [] ∨ ∃ e sign digits, text = e :: (sign ++ digits) ∧ (e = 0x65 ∨ e = 0x45) ∧
    (sign = [] ∨ sign = [0x2B] ∨ sign = [0x2D]) ∧ Digits digits

def NumberLiteral (text : List UInt8) : Prop :=
  ∃ minus integer fraction exponent,
    text = minus ++ (integer ++ (fraction ++ exponent)) ∧
    Minus minus ∧ Integer integer ∧ Fraction fraction ∧ Exponent exponent

/-! ## Strings -/

/-- One `char` of a string literal; a surrogate pair is two of them. -/
inductive StringUnit (α : Type) where
  | raw (c : α)
  | escape (letter : UInt8)
  | unicode (digits : List UInt8)

/-- The value of a hexadecimal digit. -/
def hexDigit? (c : UInt8) : Option Nat :=
  if 0x30 ≤ c ∧ c ≤ 0x39 then some (c.toNat - 0x30)
  else if 0x61 ≤ c ∧ c ≤ 0x66 then some (c.toNat - 0x61 + 10)
  else if 0x41 ≤ c ∧ c ≤ 0x46 then some (c.toNat - 0x41 + 10)
  else none

/-- The code unit four hexadecimal digits spell. -/
def codeUnit (digits : List UInt8) : Nat :=
  digits.foldl (fun code c => code * 16 + (hexDigit? c).getD 0) 0

def IsHigh (code : Nat) : Prop := 0xD800 ≤ code ∧ code ≤ 0xDBFF

def IsLow (code : Nat) : Prop := 0xDC00 ≤ code ∧ code ≤ 0xDFFF

instance (code : Nat) : Decidable (IsHigh code) :=
  inferInstanceAs (Decidable (0xD800 ≤ code ∧ code ≤ 0xDBFF))

instance (code : Nat) : Decidable (IsLow code) :=
  inferInstanceAs (Decidable (0xDC00 ≤ code ∧ code ≤ 0xDFFF))

/-- The code point of a surrogate pair. -/
def pairCode (high low : Nat) : Nat := 0x10000 + (high - 0xD800) * 0x400 + (low - 0xDC00)

/-- The character a letter after the backslash stands for. -/
def escapeCode (letter : UInt8) : Option Nat :=
  if letter = 0x22 then some 0x22
  else if letter = 0x5C then some 0x5C
  else if letter = 0x2F then some 0x2F
  else if letter = 0x62 then some 0x08
  else if letter = 0x66 then some 0x0C
  else if letter = 0x6E then some 0x0A
  else if letter = 0x72 then some 0x0D
  else if letter = 0x74 then some 0x09
  else none

theorem escapeCode_ascii {letter : UInt8} {code : Nat} (h : escapeCode letter = some code) :
    letter.toNat < 0x80 := by
  unfold escapeCode at h
  repeat' split at h
  all_goals first | subst letter; decide | cases h

theorem hexDigit?_ascii {c : UInt8} (h : (hexDigit? c).isSome = true) : c.toNat < 0x80 := by
  unfold hexDigit? at h
  simp only [UInt8.le_iff_toNat_le, UInt8.toNat_ofNat] at h
  repeat' split at h
  all_goals first | omega | cases h

section Alphabet

variable {α : Type}

/-- What the grammar leaves to a dialect. -/
structure Dialect (α : Type) where
  /-- How the alphabet spells an ASCII character. -/
  ascii : UInt8 → α
  /-- Which literals are numbers. -/
  number : List UInt8 → Prop

variable (dialect : Dialect α)

/-- A fixed piece of ASCII. -/
def Dialect.token (octets : List UInt8) : List α := octets.map dialect.ascii

/-- `unescaped`, or one of the escapes. -/
def StringUnit.Legal : StringUnit α → Prop
  | .raw c => ∀ octet, c = dialect.ascii octet → 0x20 ≤ octet ∧ octet ≠ 0x22 ∧ octet ≠ 0x5C
  | .escape letter => (escapeCode letter).isSome = true
  | .unicode digits => digits.length = 4 ∧ ∀ c ∈ digits, (hexDigit? c).isSome = true

def StringUnit.spell : StringUnit α → List α
  | .raw c => [c]
  | .escape letter => dialect.token [0x5C, letter]
  | .unicode digits => dialect.token ([0x5C, 0x75] ++ digits)

/-- The text of a literal between its quotation marks. -/
def spellUnits (units : List (StringUnit α)) : List α := units.flatMap (StringUnit.spell dialect)

/-- `string = quotation-mark *char quotation-mark` -/
def literal (units : List (StringUnit α)) : List α :=
  dialect.token [0x22] ++ spellUnits dialect units ++ dialect.token [0x22]

def LegalUnits (units : List (StringUnit α)) : Prop := ∀ unit ∈ units, unit.Legal dialect

/-- Every surrogate of the literal belongs to a pair, high then low. -/
def Paired : List (StringUnit α) → Prop
  | [] => True
  | .unicode digits :: rest =>
      if IsHigh (codeUnit digits) then
        match rest with
        | .unicode digits' :: rest => IsLow (codeUnit digits') ∧ Paired rest
        | _ => False
      else ¬ IsLow (codeUnit digits) ∧ Paired rest
  | .raw _ :: rest => Paired rest
  | .escape _ :: rest => Paired rest

/-- The string a literal denotes, given how a code point is written. -/
def decodeUnits (write : Nat → List α) : List (StringUnit α) → List α
  | [] => []
  | .raw c :: rest => c :: decodeUnits write rest
  | .escape letter :: rest => write ((escapeCode letter).getD 0) ++ decodeUnits write rest
  | .unicode digits :: .unicode digits' :: rest =>
      if IsHigh (codeUnit digits) ∧ IsLow (codeUnit digits') then
        write (pairCode (codeUnit digits) (codeUnit digits')) ++ decodeUnits write rest
      else
        write (codeUnit digits) ++ decodeUnits write (.unicode digits' :: rest)
  | .unicode digits :: rest => write (codeUnit digits) ++ decodeUnits write rest

section Surrogates

variable {write : Nat → List α} {digits digits' : List UInt8} {rest : List (StringUnit α)}

theorem paired_unicode (h : ¬ IsHigh (codeUnit digits)) :
    Paired (.unicode digits :: rest) ↔ ¬ IsLow (codeUnit digits) ∧ Paired rest := by
  cases rest with
  | nil => exact iff_of_eq (if_neg h)
  | cons unit others => cases unit <;> exact iff_of_eq (if_neg h)

theorem paired_pair (h : IsHigh (codeUnit digits)) :
    Paired (.unicode digits :: .unicode digits' :: rest) ↔
      IsLow (codeUnit digits') ∧ Paired rest :=
  iff_of_eq (if_pos h)

/-- A high surrogate needs the low one right behind it. -/
theorem not_paired_high (h : IsHigh (codeUnit digits))
    (hnext : ∀ digits' others, rest ≠ .unicode digits' :: others) :
    ¬ Paired (.unicode digits :: rest) := by
  cases rest with
  | nil => exact fun hpaired => (iff_of_eq (if_pos h)).mp hpaired
  | cons unit others =>
      cases unit with
      | raw c => exact fun hpaired => (iff_of_eq (if_pos h)).mp hpaired
      | escape letter => exact fun hpaired => (iff_of_eq (if_pos h)).mp hpaired
      | unicode digits' => exact absurd rfl (hnext digits' others)

theorem decodeUnits_unicode (h : ¬ IsHigh (codeUnit digits)) :
    decodeUnits write (.unicode digits :: rest) =
      write (codeUnit digits) ++ decodeUnits write rest := by
  cases rest with
  | nil => rfl
  | cons unit rest =>
      cases unit with
      | raw c => rfl
      | escape letter => rfl
      | unicode digits' =>
          exact if_neg fun hpair => h hpair.1

theorem decodeUnits_pair (h : IsHigh (codeUnit digits)) (h' : IsLow (codeUnit digits')) :
    decodeUnits write (.unicode digits :: .unicode digits' :: rest) =
      write (pairCode (codeUnit digits) (codeUnit digits')) ++ decodeUnits write rest :=
  if_pos ⟨h, h'⟩

/-- Induction over a paired literal: by characters, not by units. -/
theorem Paired.induction {motive : List (StringUnit α) → Prop} (nil : motive [])
    (raw : ∀ c rest, motive rest → motive (.raw c :: rest))
    (escape : ∀ letter rest, motive rest → motive (.escape letter :: rest))
    (unicode : ∀ digits rest, ¬ IsHigh (codeUnit digits) → ¬ IsLow (codeUnit digits) →
      motive rest → motive (.unicode digits :: rest))
    (pair : ∀ digits digits' rest, IsHigh (codeUnit digits) → IsLow (codeUnit digits') →
      motive rest → motive (.unicode digits :: .unicode digits' :: rest)) :
    ∀ units : List (StringUnit α), Paired units → motive units := by
  intro units
  fun_induction Paired units with
  | case1 => exact fun _ => nil
  | case2 digits hhigh digits' rest ih => exact fun h => pair _ _ _ hhigh h.1 (ih h.2)
  | case3 digits rest hhigh hother => exact fun h => h.elim
  | case4 digits rest hhigh ih => exact fun h => unicode _ _ hhigh h.1 (ih h.2)
  | case5 c rest ih => exact fun h => raw _ _ (ih h)
  | case6 letter rest ih => exact fun h => escape _ _ (ih h)

end Surrogates

section Spelling

variable {dialect : Dialect α} {unit : StringUnit α} {units : List (StringUnit α)}

@[simp] theorem spellUnits_nil : spellUnits dialect ([] : List (StringUnit α)) = [] := rfl

@[simp] theorem spellUnits_cons :
    spellUnits dialect (unit :: units) = unit.spell dialect ++ spellUnits dialect units :=
  List.flatMap_cons

theorem spellUnits_append {units' : List (StringUnit α)} :
    spellUnits dialect (units ++ units') = spellUnits dialect units ++ spellUnits dialect units' :=
  List.flatMap_append

theorem legalUnits_cons :
    LegalUnits dialect (unit :: units) ↔ unit.Legal dialect ∧ LegalUnits dialect units :=
  List.forall_mem_cons

end Spelling

end Alphabet

/-! ## Values -/

/-- What a text says, up to white space. -/
inductive Tree (α : Type) where
  | null
  | bool (value : Bool)
  | number (literal : List UInt8)
  | string (units : List (StringUnit α))
  | array (elements : List (Tree α))
  | object (members : List (List (StringUnit α) × Tree α))

/-- `ws = *( space / tab / line feed / carriage return )` -/
def Space (text : List UInt8) : Prop :=
  ∀ c ∈ text, c = 0x20 ∨ c = 0x09 ∨ c = 0x0A ∨ c = 0x0D

/-- `true` or `false` -/
def boolText (value : Bool) : List UInt8 :=
  if value then [0x74, 0x72, 0x75, 0x65] else [0x66, 0x61, 0x6C, 0x73, 0x65]

/-- What the productions below spell: a value, or what stands between the brackets
of an array or an object that is not empty. -/
inductive Phrase (α : Type) where
  | value (tree : Tree α)
  | elements (trees : List (Tree α))
  | members (members : List (List (StringUnit α) × Tree α))

section Grammar

variable {α : Type} (dialect : Dialect α)

/-- The productions.  A structural character takes the white space around it, so
each element and each member has its own on both sides. -/
inductive Spells : Phrase α → List α → Prop
  | null : Spells (.value .null) (dialect.token [0x6E, 0x75, 0x6C, 0x6C])
  | bool (value : Bool) : Spells (.value (.bool value)) (dialect.token (boolText value))
  | number {digits : List UInt8} (hnumber : dialect.number digits) :
      Spells (.value (.number digits)) (dialect.token digits)
  | string {units : List (StringUnit α)} (hunits : LegalUnits dialect units) :
      Spells (.value (.string units)) (literal dialect units)
  | emptyArray {space : List UInt8} (hspace : Space space) :
      Spells (.value (.array [])) (dialect.token ([0x5B] ++ space ++ [0x5D]))
  | array {trees : List (Tree α)} {text : List α} (helements : Spells (.elements trees) text) :
      Spells (.value (.array trees)) (dialect.token [0x5B] ++ text ++ dialect.token [0x5D])
  | emptyObject {space : List UInt8} (hspace : Space space) :
      Spells (.value (.object [])) (dialect.token ([0x7B] ++ space ++ [0x7D]))
  | object {members : List (List (StringUnit α) × Tree α)} {text : List α}
      (hmembers : Spells (.members members) text) :
      Spells (.value (.object members)) (dialect.token [0x7B] ++ text ++ dialect.token [0x7D])
  | lastElement {tree : Tree α} {before after : List UInt8} {text : List α}
      (hbefore : Space before) (htree : Spells (.value tree) text) (hafter : Space after) :
      Spells (.elements [tree]) (dialect.token before ++ text ++ dialect.token after)
  | element {tree : Tree α} {trees : List (Tree α)} {before after : List UInt8}
      {text rest : List α} (hbefore : Space before) (htree : Spells (.value tree) text)
      (hafter : Space after) (hrest : Spells (.elements trees) rest) :
      Spells (.elements (tree :: trees))
        (dialect.token before ++ text ++ dialect.token (after ++ [0x2C]) ++ rest)
  | lastMember {key : List (StringUnit α)} {tree : Tree α} {before colon colon' after : List UInt8}
      {text : List α} (hbefore : Space before) (hkey : LegalUnits dialect key)
      (hcolon : Space colon) (hcolon' : Space colon') (htree : Spells (.value tree) text)
      (hafter : Space after) :
      Spells (.members [(key, tree)])
        (dialect.token before ++ literal dialect key ++ dialect.token (colon ++ [0x3A] ++ colon')
          ++ text ++ dialect.token after)
  | member {key : List (StringUnit α)} {tree : Tree α}
      {members : List (List (StringUnit α) × Tree α)} {before colon colon' after : List UInt8}
      {text rest : List α} (hbefore : Space before) (hkey : LegalUnits dialect key)
      (hcolon : Space colon) (hcolon' : Space colon') (htree : Spells (.value tree) text)
      (hafter : Space after) (hrest : Spells (.members members) rest) :
      Spells (.members ((key, tree) :: members))
        (dialect.token before ++ literal dialect key ++ dialect.token (colon ++ [0x3A] ++ colon')
          ++ text ++ dialect.token (after ++ [0x2C]) ++ rest)

variable {dialect} in
/-- White space before the first element belongs to it. -/
theorem Spells.space_elements {trees : List (Tree α)} {space : List UInt8} {text : List α}
    (hspace : Space space) (h : Spells dialect (.elements trees) text) :
    Spells dialect (.elements trees) (dialect.token space ++ text) := by
  have hboth : ∀ {before : List UInt8}, Space before → Space (space ++ before) :=
    fun hbefore c hc =>
    (List.mem_append.mp hc).elim (hspace c) (hbefore c)
  cases h with
  | lastElement hbefore htree hafter =>
      have h := Spells.lastElement (hboth hbefore) htree hafter
      simpa only [Dialect.token, List.map_append, List.append_assoc] using h
  | element hbefore htree hafter hrest =>
      have h := Spells.element (hboth hbefore) htree hafter hrest
      simpa only [Dialect.token, List.map_append, List.append_assoc] using h

variable {dialect} in
/-- White space before the first member belongs to it. -/
theorem Spells.space_members {members : List (List (StringUnit α) × Tree α)} {space : List UInt8}
    {text : List α} (hspace : Space space) (h : Spells dialect (.members members) text) :
    Spells dialect (.members members) (dialect.token space ++ text) := by
  have hboth : ∀ {before : List UInt8}, Space before → Space (space ++ before) :=
    fun hbefore c hc =>
    (List.mem_append.mp hc).elim (hspace c) (hbefore c)
  cases h with
  | lastMember hbefore hkey hcolon hcolon' htree hafter =>
      have h := Spells.lastMember (hboth hbefore) hkey hcolon hcolon' htree hafter
      simpa only [Dialect.token, List.map_append, List.append_assoc] using h
  | member hbefore hkey hcolon hcolon' htree hafter hrest =>
      have h := Spells.member (hboth hbefore) hkey hcolon hcolon' htree hafter hrest
      simpa only [Dialect.token, List.map_append, List.append_assoc] using h

/-- `JSON-text = ws value ws` -/
def IsText (tree : Tree α) (text : List α) : Prop :=
  ∃ before body after, text = dialect.token before ++ body ++ dialect.token after ∧
    Space before ∧ Spells dialect (.value tree) body ∧ Space after

end Grammar

/-! ## The nodes of a tree -/

section Nodes

variable {α : Type}

mutual

/-- A tree and everything below it. -/
def Tree.nodes : Tree α → List (Tree α)
  | .null => [.null]
  | .bool value => [.bool value]
  | .number digits => [.number digits]
  | .string units => [.string units]
  | .array elements => .array elements :: nodesOfElements elements
  | .object members => .object members :: nodesOfMembers members

def nodesOfElements : List (Tree α) → List (Tree α)
  | [] => []
  | tree :: rest => tree.nodes ++ nodesOfElements rest

def nodesOfMembers : List (List (StringUnit α) × Tree α) → List (Tree α)
  | [] => []
  | (_, tree) :: rest => tree.nodes ++ nodesOfMembers rest

end

/-- The literals a node itself has: a string, or the names of an object. -/
def Tree.literals : Tree α → List (List (StringUnit α))
  | .string units => [units]
  | .object members => members.map Prod.fst
  | _ => []

/-- Every node satisfies `P`. -/
def Tree.Everywhere (P : Tree α → Prop) (tree : Tree α) : Prop := ∀ node ∈ tree.nodes, P node

variable {P : Tree α → Prop}

theorem everywhere_elements (trees : List (Tree α)) :
    (∀ node ∈ nodesOfElements trees, P node) ↔ ∀ tree ∈ trees, tree.Everywhere P := by
  induction trees with
  | nil => simp [nodesOfElements]
  | cons tree rest ih =>
      simp only [nodesOfElements, List.mem_append, or_imp, forall_and, ih, List.forall_mem_cons]
      rfl

theorem everywhere_members (members : List (List (StringUnit α) × Tree α)) :
    (∀ node ∈ nodesOfMembers members, P node) ↔
      ∀ member ∈ members, member.2.Everywhere P := by
  induction members with
  | nil => simp [nodesOfMembers]
  | cons member rest ih =>
      simp only [nodesOfMembers, List.mem_append, or_imp, forall_and, ih, List.forall_mem_cons]
      rfl

/-- A tree without branches is its only node. -/
theorem everywhere_leaf {tree : Tree α} (h : tree.nodes = [tree]) :
    tree.Everywhere P ↔ P tree := by
  rw [Tree.Everywhere, h, List.forall_mem_singleton]

@[simp] theorem everywhere_array (trees : List (Tree α)) :
    (Tree.array trees).Everywhere P ↔ P (.array trees) ∧ ∀ tree ∈ trees, tree.Everywhere P := by
  rw [← everywhere_elements]
  exact List.forall_mem_cons

@[simp] theorem everywhere_object (members : List (List (StringUnit α) × Tree α)) :
    (Tree.object members).Everywhere P ↔
      P (.object members) ∧ ∀ member ∈ members, member.2.Everywhere P := by
  rw [← everywhere_members]
  exact List.forall_mem_cons

@[simp] theorem everywhere_string (units : List (StringUnit α)) :
    (Tree.string units).Everywhere P ↔ P (.string units) :=
  everywhere_leaf rfl

@[simp] theorem everywhere_number (digits : List UInt8) :
    (Tree.number digits : Tree α).Everywhere P ↔ P (.number digits) :=
  everywhere_leaf rfl

@[simp] theorem everywhere_bool (value : Bool) :
    (Tree.bool value : Tree α).Everywhere P ↔ P (.bool value) :=
  everywhere_leaf rfl

@[simp] theorem everywhere_null :
    (Tree.null : Tree α).Everywhere P ↔ P .null :=
  everywhere_leaf rfl

/-- Induction over trees. -/
theorem Tree.induction {motive : Tree α → Prop} (null : motive .null)
    (bool : ∀ value, motive (.bool value)) (number : ∀ digits, motive (.number digits))
    (string : ∀ units, motive (.string units))
    (array : ∀ elements, (∀ tree ∈ elements, motive tree) → motive (.array elements))
    (object : ∀ members, (∀ member ∈ members, motive member.2) → motive (.object members)) :
    ∀ tree, motive tree :=
  @Tree.rec α motive (fun elements => ∀ tree ∈ elements, motive tree)
    (fun members => ∀ member ∈ members, motive member.2) (fun member => motive member.2)
    null bool number string array object
    (fun _ h => absurd h List.not_mem_nil)
    (fun _ _ ih ihrest => List.forall_mem_cons.mpr ⟨ih, ihrest⟩)
    (fun _ h => absurd h List.not_mem_nil)
    (fun _ _ ih ihrest => List.forall_mem_cons.mpr ⟨ih, ihrest⟩)
    fun _ _ ih => ih

end Nodes

end DynamicProperties.Library.Json
