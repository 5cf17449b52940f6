import DynamicProperties.Library.Json

/-!
# One text, two alphabets

`write` spells every character of one alphabet with characters of another, as UTF-8
spells code points with octets: ASCII stays what it is, and what is not ASCII has
no ASCII in it.  Then the grammar has the same trees for a text and for what `write`
makes of it, up to the raw characters of the literals (`Spells.respell`,
`Spells.of_respelled`).  Nothing is asked about decoding: the grammar cuts a text
only at ASCII characters.
-/

namespace DynamicProperties.Library.Json

variable {α β : Type}

/-- How one alphabet is written in the other. -/
structure Respells (dialect : Dialect α) (dialect' : Dialect β) (write : α → List β) : Prop where
  injective : Function.Injective dialect.ascii
  injective' : Function.Injective dialect'.ascii
  ascii : ∀ octet < 0x80, write (dialect.ascii octet) = [dialect'.ascii octet]
  wide : ∀ c, (∀ octet < 0x80, c ≠ dialect.ascii octet) →
    write c ≠ [] ∧ ∀ c' ∈ write c, ∀ octet < 0x80, c' ≠ dialect'.ascii octet

/-! ## The same tree -/

section Trees

variable (write : α → List β)

def StringUnit.respell : StringUnit α → List (StringUnit β)
  | .raw c => (write c).map .raw
  | .escape letter => [.escape letter]
  | .unicode digits => [.unicode digits]

def respellUnits (units : List (StringUnit α)) : List (StringUnit β) :=
  units.flatMap (StringUnit.respell write)

mutual

def Tree.respell : Tree α → Tree β
  | .null => .null
  | .bool value => .bool value
  | .number digits => .number digits
  | .string units => .string (respellUnits write units)
  | .array elements => .array (respellElements elements)
  | .object members => .object (respellMembers members)

def respellElements : List (Tree α) → List (Tree β)
  | [] => []
  | tree :: rest => tree.respell :: respellElements rest

def respellMembers : List (List (StringUnit α) × Tree α) → List (List (StringUnit β) × Tree β)
  | [] => []
  | (key, tree) :: rest => (respellUnits write key, tree.respell) :: respellMembers rest

end

def Phrase.respell : Phrase α → Phrase β
  | .value tree => .value (tree.respell write)
  | .elements trees => .elements (respellElements write trees)
  | .members entries => .members (respellMembers write entries)

end Trees

theorem respellElements_eq_map (write : α → List β) (trees : List (Tree α)) :
    respellElements write trees = trees.map (Tree.respell write) := by
  induction trees with
  | nil => rfl
  | cons tree rest ih => rw [respellElements, ih, List.map_cons]

theorem respellMembers_eq_map (write : α → List β)
    (members : List (List (StringUnit α) × Tree α)) :
    respellMembers write members =
      members.map fun member => (respellUnits write member.1, member.2.respell write) := by
  induction members with
  | nil => rfl
  | cons member rest ih => rw [respellMembers, ih, List.map_cons]

/-- Every number of a tree satisfies `P`. -/
def Tree.Numbers (P : List UInt8 → Prop) (tree : Tree α) : Prop :=
  tree.Everywhere fun node => ∀ digits, node = .number digits → P digits

def Phrase.Numbers (P : List UInt8 → Prop) : Phrase α → Prop
  | .value tree => tree.Numbers P
  | .elements trees => ∀ tree ∈ trees, tree.Numbers P
  | .members entries => ∀ entry ∈ entries, entry.2.Numbers P

section Numbers

variable {P : List UInt8 → Prop}

theorem numbers_of_plain {tree : Tree α} (hnodes : tree.nodes = [tree])
    (hplain : ∀ digits, tree ≠ .number digits) : tree.Numbers P := by
  rw [Tree.Numbers, Tree.Everywhere, hnodes, List.forall_mem_singleton]
  exact fun digits heq => absurd heq (hplain digits)

theorem numbers_number {digits : List UInt8} :
    (Tree.number digits : Tree α).Numbers P ↔ P digits := by
  refine (everywhere_number digits).trans ⟨fun h => h digits rfl, fun h other heq => ?_⟩
  cases heq
  exact h

theorem numbers_array {trees : List (Tree α)} :
    (Tree.array trees).Numbers P ↔ ∀ tree ∈ trees, tree.Numbers P :=
  (everywhere_array trees).trans (and_iff_right nofun)

theorem numbers_object {members : List (List (StringUnit α) × Tree α)} :
    (Tree.object members).Numbers P ↔ ∀ member ∈ members, member.2.Numbers P :=
  (everywhere_object members).trans (and_iff_right nofun)

theorem Spells.numbers {dialect : Dialect α} {phrase : Phrase α} {text : List α}
    (h : Spells dialect phrase text) : phrase.Numbers dialect.number := by
  induction h with
  | null | bool value | string hunits => exact numbers_of_plain rfl fun _ heq => by cases heq
  | number hnumber => exact numbers_number.mpr hnumber
  | emptyArray hspace => exact numbers_array.mpr fun _ htree => absurd htree List.not_mem_nil
  | array helements ih => exact numbers_array.mpr ih
  | emptyObject hspace => exact numbers_object.mpr fun _ hmem => absurd hmem List.not_mem_nil
  | object hmembers ih => exact numbers_object.mpr ih
  | lastElement hbefore htree hafter ih => exact List.forall_mem_singleton.mpr ih
  | element hbefore htree hafter hrest ih ihrest => exact List.forall_mem_cons.mpr ⟨ih, ihrest⟩
  | lastMember hbefore hkey hcolon hcolon' htree hafter ih =>
      exact List.forall_mem_singleton.mpr ih
  | member hbefore hkey hcolon hcolon' htree hafter hrest ih ihrest =>
      exact List.forall_mem_cons.mpr ⟨ih, ihrest⟩

theorem numbers_respell (write : α → List β) (tree : Tree α) :
    (tree.respell write).Numbers P ↔ tree.Numbers P := by
  induction tree using Tree.induction with
  | null | bool value | string units =>
      exact iff_of_true (numbers_of_plain rfl fun _ heq => by cases heq)
        (numbers_of_plain rfl fun _ heq => by cases heq)
  | number digits => rw [Tree.respell, numbers_number, numbers_number]
  | array elements ih =>
      rw [Tree.respell, respellElements_eq_map, numbers_array, numbers_array, List.forall_mem_map]
      exact forall₂_congr ih
  | object members ih =>
      rw [Tree.respell, respellMembers_eq_map, numbers_object, numbers_object, List.forall_mem_map]
      exact forall₂_congr ih

end Numbers

/-- Every literal of a tree satisfies `Q`. -/
def Tree.Literals (Q : List (StringUnit α) → Prop) (tree : Tree α) : Prop :=
  tree.Everywhere fun node => ∀ units ∈ node.literals, Q units

def Phrase.Literals (Q : List (StringUnit α) → Prop) : Phrase α → Prop
  | .value tree => tree.Literals Q
  | .elements trees => ∀ tree ∈ trees, tree.Literals Q
  | .members entries => ∀ entry ∈ entries, Q entry.1 ∧ entry.2.Literals Q

section Literals

variable {Q Q' : List (StringUnit α) → Prop}

theorem literals_of_plain {tree : Tree α} (hnodes : tree.nodes = [tree])
    (hplain : tree.literals = []) : tree.Literals Q := by
  rw [Tree.Literals, Tree.Everywhere, hnodes, List.forall_mem_singleton, hplain]
  exact fun _ hunits => absurd hunits List.not_mem_nil

theorem literals_string {units : List (StringUnit α)} :
    (Tree.string units).Literals Q ↔ Q units :=
  (everywhere_string units).trans List.forall_mem_singleton

theorem literals_array {trees : List (Tree α)} :
    (Tree.array trees).Literals Q ↔ ∀ tree ∈ trees, tree.Literals Q :=
  (everywhere_array trees).trans
    (and_iff_right fun _ hunits => absurd hunits List.not_mem_nil)

theorem literals_object {members : List (List (StringUnit α) × Tree α)} :
    (Tree.object members).Literals Q ↔
      ∀ member ∈ members, Q member.1 ∧ member.2.Literals Q := by
  refine (everywhere_object members).trans ?_
  constructor
  · rintro ⟨hnames, hvalues⟩ member hmember
    exact ⟨hnames _ (List.mem_map_of_mem hmember), hvalues member hmember⟩
  · intro h
    refine ⟨fun units hunits => ?_, fun member hmember => (h member hmember).2⟩
    obtain ⟨member, hmember, rfl⟩ := List.mem_map.mp hunits
    exact (h member hmember).1

theorem Phrase.Literals.imp (himp : ∀ units, Q units → Q' units) {phrase : Phrase α}
    (h : phrase.Literals Q) : phrase.Literals Q' := by
  have htree : ∀ tree : Tree α, tree.Literals Q → tree.Literals Q' :=
    fun tree htree node hnode units hunits => himp units (htree node hnode units hunits)
  cases phrase with
  | value tree => exact htree tree h
  | elements trees => exact fun tree hmem => htree tree (h tree hmem)
  | members entries => exact fun entry hmem => ⟨himp _ (h entry hmem).1, htree _ (h entry hmem).2⟩

theorem literals_respell {R : List (StringUnit β) → Prop} (write : α → List β) (tree : Tree α) :
    (tree.respell write).Literals R ↔ tree.Literals fun units => R (respellUnits write units) := by
  induction tree using Tree.induction with
  | null | bool value | number digits =>
      exact iff_of_true (literals_of_plain rfl rfl) (literals_of_plain rfl rfl)
  | string units => rw [Tree.respell, literals_string, literals_string]
  | array elements ih =>
      rw [Tree.respell, respellElements_eq_map, literals_array, literals_array,
        List.forall_mem_map]
      exact forall₂_congr ih
  | object members ih =>
      rw [Tree.respell, respellMembers_eq_map, literals_object, literals_object,
        List.forall_mem_map]
      exact forall₂_congr fun member hmember => and_congr_right fun _ => ih member hmember

/-- A legal literal whose characters are among those of the text. -/
def PieceOf (dialect : Dialect α) (text : List α) (units : List (StringUnit α)) : Prop :=
  LegalUnits dialect units ∧ spellUnits dialect units ⊆ text

theorem pieceOf_literal {dialect : Dialect α} {units : List (StringUnit α)}
    (h : LegalUnits dialect units) : PieceOf dialect (literal dialect units) units :=
  ⟨h, fun _ hc => List.mem_append_left _ (List.mem_append_right _ hc)⟩

/-- The literals of a text are legal pieces of it. -/
theorem Spells.literals {dialect : Dialect α} {phrase : Phrase α} {text : List α}
    (h : Spells dialect phrase text) : phrase.Literals (PieceOf dialect text) := by
  have hmono : ∀ (phrase : Phrase α) {text text' : List α}, text ⊆ text' →
      phrase.Literals (PieceOf dialect text) → phrase.Literals (PieceOf dialect text') :=
    fun _ _ _ hsubset => .imp fun _ hpiece => ⟨hpiece.1, List.Subset.trans hpiece.2 hsubset⟩
  induction h with
  | null | bool value | number hnumber => exact literals_of_plain rfl rfl
  | string hunits => exact literals_string.mpr (pieceOf_literal hunits)
  | emptyArray hspace => exact literals_array.mpr fun _ htree => absurd htree List.not_mem_nil
  | array helements ih =>
      refine literals_array.mpr (hmono (.elements _) ?_ ih)
      intro c hc
      simp [hc]
  | emptyObject hspace => exact literals_object.mpr fun _ hmem => absurd hmem List.not_mem_nil
  | object hmembers ih =>
      refine literals_object.mpr (hmono (.members _) ?_ ih)
      intro c hc
      simp [hc]
  | lastElement hbefore htree hafter ih =>
      refine List.forall_mem_singleton.mpr (hmono (.value _) ?_ ih)
      intro c hc
      simp [hc]
  | element hbefore htree hafter hrest ih ihrest =>
      refine List.forall_mem_cons.mpr ⟨hmono (.value _) ?_ ih,
        hmono (.elements _) ?_ ihrest⟩
      · intro c hc
        simp [hc]
      · intro c hc
        simp [hc]
  | lastMember hbefore hkey hcolon hcolon' htree hafter ih =>
      have hname := pieceOf_literal hkey
      refine List.forall_mem_singleton.mpr
        ⟨⟨hkey, List.Subset.trans hname.2 ?_⟩, hmono (.value _) ?_ ih⟩
      · intro c hc
        simp [hc]
      · intro c hc
        simp [hc]
  | member hbefore hkey hcolon hcolon' htree hafter hrest ih ihrest =>
      have hname := pieceOf_literal hkey
      refine List.forall_mem_cons.mpr
        ⟨⟨⟨hkey, List.Subset.trans hname.2 ?_⟩, hmono (.value _) ?_ ih⟩,
        hmono (.members _) ?_ ihrest⟩
      · intro c hc
        simp [hc]
      · intro c hc
        simp [hc]
      · intro c hc
        simp [hc]

end Literals

/-! ## Cutting a text -/

theorem ascii_of_all {octets : List UInt8} (h : (octets.all fun c => c < 0x80) = true) :
    ∀ c ∈ octets, c < 0x80 :=
  fun c hc => of_decide_eq_true (List.all_eq_true.mp h c hc)

section Respelling

variable {dialect : Dialect α} {dialect' : Dialect β} {write : α → List β}

variable (dialect) in
/-- A character is ASCII. -/
def IsAscii (c : α) : Prop := ∃ octet < 0x80, c = dialect.ascii octet

theorem flatMap_token (hwrite : Respells dialect dialect' write) {octets : List UInt8}
    (hoctets : ∀ c ∈ octets, c < 0x80) :
    (dialect.token octets).flatMap write = dialect'.token octets := by
  induction octets with
  | nil => rfl
  | cons c octets ih =>
      obtain ⟨hc, hoctets⟩ := List.forall_mem_cons.mp hoctets
      show (dialect.ascii c :: dialect.token octets).flatMap write = _
      rw [List.flatMap_cons, hwrite.ascii c hc, ih hoctets]
      rfl

/-- What a character is written as starts with ASCII only for ASCII. -/
theorem write_eq_cons (hwrite : Respells dialect dialect' write) {c : α} {octet : UInt8}
    {rest rest' : List β} (hoctet : octet < 0x80)
    (h : write c ++ rest = dialect'.ascii octet :: rest') :
    c = dialect.ascii octet ∧ rest = rest' := by
  by_cases hc : ∃ octet < 0x80, c = dialect.ascii octet
  · obtain ⟨octet', hoctet', rfl⟩ := hc
    rw [hwrite.ascii octet' hoctet'] at h
    obtain ⟨hascii, hrest⟩ := List.cons.inj h
    rw [hwrite.injective' hascii]
    exact ⟨rfl, hrest⟩
  · obtain ⟨hne, hwide⟩ := hwrite.wide c fun octet hoctet heq => hc ⟨octet, hoctet, heq⟩
    obtain ⟨first, tail, hfirst⟩ := List.exists_cons_of_ne_nil hne
    rw [hfirst] at h hwide
    exact absurd (List.cons.inj h).1 (hwide first List.mem_cons_self octet hoctet)

/-- A piece of ASCII in front comes from the same piece. -/
theorem flatMap_eq_token_append (hwrite : Respells dialect dialect' write) {octets : List UInt8}
    (hoctets : ∀ c ∈ octets, c < 0x80) {text : List α} {rest : List β}
    (h : text.flatMap write = dialect'.token octets ++ rest) :
    ∃ text', text = dialect.token octets ++ text' ∧ text'.flatMap write = rest := by
  induction octets generalizing text with
  | nil => exact ⟨text, rfl, h⟩
  | cons octet octets ih =>
      obtain ⟨hoctet, hoctets⟩ := List.forall_mem_cons.mp hoctets
      cases text with
      | nil => cases h
      | cons c text =>
          rw [List.flatMap_cons] at h
          obtain ⟨rfl, hrest⟩ := write_eq_cons hwrite hoctet h
          obtain ⟨text', rfl, htext'⟩ := ih hoctets hrest
          exact ⟨text', rfl, htext'⟩

/-- A text cut before an ASCII character, or at its end, is cut between two characters. -/
theorem flatMap_eq_append (hwrite : Respells dialect dialect' write) {text : List α}
    {first second : List β} (hsecond : ∀ c ∈ second.head?, IsAscii dialect' c)
    (h : text.flatMap write = first ++ second) :
    ∃ text₁ text₂, text = text₁ ++ text₂ ∧ text₁.flatMap write = first ∧
      text₂.flatMap write = second := by
  induction text generalizing first with
  | nil =>
      obtain ⟨rfl, rfl⟩ := List.append_eq_nil_iff.mp h.symm
      exact ⟨[], [], rfl, rfl, rfl⟩
  | cons c text ih =>
      rw [List.flatMap_cons] at h
      rcases List.append_eq_append_iff.mp h with ⟨middle, rfl, hrest⟩ | ⟨middle, hchar, hbehind⟩
      · -- the first part covers the character
        obtain ⟨text₁, text₂, rfl, rfl, rfl⟩ := ih hrest
        exact ⟨c :: text₁, text₂, rfl, List.flatMap_cons, rfl⟩
      · cases middle with
        | nil =>
            rw [List.append_nil] at hchar
            exact ⟨[c], text, rfl, by rw [List.flatMap_singleton, hchar], hbehind.symm⟩
        | cons inner middle =>
            cases first with
            | nil => exact ⟨[], c :: text, rfl, rfl, by rw [List.flatMap_cons, h]; rfl⟩
            | cons outer first =>
                -- the cut would lie inside a character
                obtain ⟨octet, hoctet, rfl⟩ := hsecond inner (by rw [hbehind]; rfl)
                by_cases hc : ∃ octet < 0x80, c = dialect.ascii octet
                · obtain ⟨octet', hoctet', rfl⟩ := hc
                  rw [hwrite.ascii octet' hoctet'] at hchar
                  simp at hchar
                · have hwide := (hwrite.wide c fun octet hoctet heq => hc ⟨octet, hoctet, heq⟩).2
                  rw [hchar] at hwide
                  exact absurd rfl (hwide (dialect'.ascii octet) (by simp) octet hoctet)

theorem write_ne_nil (hwrite : Respells dialect dialect' write) (c : α) : write c ≠ [] := by
  by_cases hc : ∃ octet < 0x80, c = dialect.ascii octet
  · obtain ⟨octet, hoctet, rfl⟩ := hc
    rw [hwrite.ascii octet hoctet]
    exact List.cons_ne_nil _ _
  · exact (hwrite.wide c fun octet hoctet heq => hc ⟨octet, hoctet, heq⟩).1

theorem flatMap_eq_nil (hwrite : Respells dialect dialect' write) {text : List α}
    (h : text.flatMap write = []) : text = [] := by
  cases text with
  | nil => rfl
  | cons c text =>
      rw [List.flatMap_cons] at h
      exact absurd (List.append_eq_nil_iff.mp h).1 (write_ne_nil hwrite c)

theorem flatMap_eq_token (hwrite : Respells dialect dialect' write) {octets : List UInt8}
    (hoctets : ∀ c ∈ octets, c < 0x80) {text : List α}
    (h : text.flatMap write = dialect'.token octets) : text = dialect.token octets := by
  rw [← List.append_nil (dialect'.token octets)] at h
  obtain ⟨text', rfl, htext'⟩ := flatMap_eq_token_append hwrite hoctets h
  rw [flatMap_eq_nil hwrite htext', List.append_nil]

theorem isAscii_head_token {octets : List UInt8} {rest : List β} (hoctets : ∀ c ∈ octets, c < 0x80)
    (hrest : ∀ c ∈ rest.head?, IsAscii dialect' c) :
    ∀ c ∈ (dialect'.token octets ++ rest).head?, IsAscii dialect' c := by
  cases octets with
  | nil => exact hrest
  | cons octet octets =>
      intro c hc
      obtain rfl := Option.some.inj hc
      exact ⟨octet, hoctets octet List.mem_cons_self, rfl⟩

/-! ## Literals -/

theorem legal_escape_ascii {letter : UInt8}
    (h : (StringUnit.escape letter : StringUnit α).Legal dialect) : letter < 0x80 := by
  obtain ⟨code, hcode⟩ := Option.isSome_iff_exists.mp h
  exact UInt8.lt_iff_toNat_lt.mpr (escapeCode_ascii hcode)

theorem legal_unicode_ascii {digits : List UInt8}
    (h : (StringUnit.unicode digits : StringUnit α).Legal dialect) : ∀ c ∈ digits, c < 0x80 :=
  fun c hc => UInt8.lt_iff_toNat_lt.mpr (hexDigit?_ascii (h.2 c hc))

/-- A raw character stays legal, whatever it is written as. -/
theorem legal_raw (hwrite : Respells dialect dialect' write) {c : α} :
    (StringUnit.raw c).Legal dialect ↔ ∀ c' ∈ write c, (StringUnit.raw c').Legal dialect' := by
  have hwide : ∀ octet : UInt8, ¬ octet < 0x80 → 0x20 ≤ octet ∧ octet ≠ 0x22 ∧ octet ≠ 0x5C := by
    intro octet hoctet
    have hle := UInt8.le_iff_toNat_le.mp (UInt8.not_lt.mp hoctet)
    refine ⟨UInt8.le_iff_toNat_le.mpr (Nat.le_trans (by decide) hle), ?_, ?_⟩ <;>
      · rintro rfl
        exact hoctet (by decide)
  by_cases hc : ∃ octet < 0x80, c = dialect.ascii octet
  · obtain ⟨octet, hoctet, rfl⟩ := hc
    rw [hwrite.ascii octet hoctet, List.forall_mem_singleton]
    constructor
    · intro h octet' heq
      rw [← hwrite.injective' heq]
      exact h octet rfl
    · intro h octet' heq
      rw [← hwrite.injective heq]
      exact h octet rfl
  · have hplain := (hwrite.wide c fun octet hoctet heq => hc ⟨octet, hoctet, heq⟩).2
    refine iff_of_true (fun octet heq => hwide octet fun hoctet => hc ⟨octet, hoctet, heq⟩) ?_
    intro c' hc' octet heq
    exact hwide octet fun hoctet => hplain c' hc' octet hoctet heq

@[simp] theorem spellUnits_raw (text : List α) : spellUnits dialect (text.map .raw) = text := by
  induction text with
  | nil => rfl
  | cons c text ih =>
      rw [List.map_cons, spellUnits_cons, ih]
      rfl

/-- What a unit is written as. -/
theorem unit_respell (hwrite : Respells dialect dialect' write) {unit : StringUnit α}
    (h : unit.Legal dialect) : LegalUnits dialect' (unit.respell write) ∧
      (unit.spell dialect).flatMap write = spellUnits dialect' (unit.respell write) := by
  cases unit with
  | raw c =>
      constructor
      · intro unit' hunit'
        obtain ⟨c', hc', rfl⟩ := List.mem_map.mp hunit'
        exact (legal_raw hwrite).mp h c' hc'
      · show [c].flatMap write = spellUnits dialect' ((write c).map .raw)
        rw [spellUnits_raw, List.flatMap_singleton]
  | escape letter =>
      refine ⟨List.forall_mem_singleton.mpr h, ?_⟩
      have hascii : ∀ c ∈ [0x5C, letter], c < 0x80 := by
        simpa using legal_escape_ascii h
      show (dialect.token [0x5C, letter]).flatMap write = _
      rw [flatMap_token hwrite hascii]
      rfl
  | unicode digits =>
      refine ⟨List.forall_mem_singleton.mpr h, ?_⟩
      have hascii : ∀ c ∈ [0x5C, 0x75] ++ digits, c < 0x80 := by
        simpa using legal_unicode_ascii h
      show (dialect.token ([0x5C, 0x75] ++ digits)).flatMap write = _
      rw [flatMap_token hwrite hascii, StringUnit.respell, spellUnits_cons, spellUnits_nil,
        List.append_nil]
      rfl

theorem units_respell (hwrite : Respells dialect dialect' write) {units : List (StringUnit α)}
    (h : LegalUnits dialect units) : LegalUnits dialect' (respellUnits write units) ∧
      (spellUnits dialect units).flatMap write =
        spellUnits dialect' (respellUnits write units) := by
  induction units with
  | nil => exact ⟨fun _ hunit => absurd hunit List.not_mem_nil, rfl⟩
  | cons unit units ih =>
      obtain ⟨hunit, hunits⟩ := legalUnits_cons.mp h
      obtain ⟨hlegal, hspell⟩ := unit_respell hwrite hunit
      obtain ⟨hlegals, hspells⟩ := ih hunits
      rw [respellUnits, List.flatMap_cons, spellUnits_cons, List.flatMap_append, spellUnits_append,
        hspell, hspells]
      exact ⟨List.forall_mem_append.mpr ⟨hlegal, hlegals⟩, rfl⟩

theorem literal_respell (hwrite : Respells dialect dialect' write) {units : List (StringUnit α)}
    (h : LegalUnits dialect units) :
    (literal dialect units).flatMap write = literal dialect' (respellUnits write units) := by
  have hquote : ∀ c ∈ [(0x22 : UInt8)], c < 0x80 := ascii_of_all rfl
  rw [literal, List.flatMap_append, List.flatMap_append, flatMap_token hwrite hquote,
    (units_respell hwrite h).2]
  rfl

/-- Surrogates keep their neighbours. -/
theorem paired_respell (hwrite : Respells dialect dialect' write) (units : List (StringUnit α)) :
    Paired (respellUnits write units) ↔ Paired units := by
  have hraws : ∀ (first : List β) (rest : List (StringUnit β)),
      Paired (first.map .raw ++ rest) ↔ Paired rest := by
    intro first rest
    induction first with
    | nil => rfl
    | cons c first ih => exact ih
  fun_induction Paired units with
  | case1 => exact iff_of_true trivial trivial
  | case2 digits hhigh digits' rest ih =>
      exact (paired_pair hhigh).trans (and_congr_right fun _ => ih)
  | case3 digits rest hhigh hother =>
      have hnext : ∀ digits' others, respellUnits write rest ≠ .unicode digits' :: others := by
        intro digits' others heq
        cases rest with
        | nil => cases heq
        | cons unit rest =>
            rw [respellUnits, List.flatMap_cons] at heq
            cases unit with
            | unicode digits' => exact hother digits' rest rfl
            | escape letter => cases heq
            | raw c =>
                obtain ⟨c', tail, htail⟩ := List.exists_cons_of_ne_nil (write_ne_nil hwrite c)
                rw [StringUnit.respell, htail] at heq
                cases heq
      exact iff_of_false (not_paired_high hhigh hnext) id
  | case4 digits rest hhigh ih => exact (paired_unicode hhigh).trans (and_congr_right fun _ => ih)
  | case5 c rest ih => exact (hraws (write c) _).trans ih
  | case6 letter rest ih => exact ih

/-- Raw characters at the start of a literal that cannot be an escape. -/
theorem raws_of_spellUnits {first second : List β} {units : List (StringUnit β)}
    (hfirst : ∀ c ∈ first, c ≠ dialect'.ascii 0x5C)
    (h : first ++ second = spellUnits dialect' units) :
    ∃ units', units = first.map .raw ++ units' ∧ second = spellUnits dialect' units' := by
  induction first generalizing units with
  | nil => exact ⟨units, rfl, h⟩
  | cons c first ih =>
      obtain ⟨hc, hfirst⟩ := List.forall_mem_cons.mp hfirst
      cases units with
      | nil => cases h
      | cons unit units =>
          rw [spellUnits_cons] at h
          cases unit with
          | raw c' =>
              obtain ⟨rfl, htail⟩ := List.cons.inj h
              obtain ⟨units', rfl, hsecond⟩ := ih hfirst htail
              exact ⟨units', rfl, hsecond⟩
          | escape letter => exact absurd (List.cons.inj h).1 hc
          | unicode digits => exact absurd (List.cons.inj h).1 hc

/-- The first unit over the first alphabet. -/
theorem exists_unit (hwrite : Respells dialect dialect' write) {text : List α}
    {unit' : StringUnit β} {units' : List (StringUnit β)}
    (hlegal : LegalUnits dialect' (unit' :: units'))
    (h : text.flatMap write = spellUnits dialect' (unit' :: units')) :
    ∃ (unit : StringUnit α) (text' : List α) (rest : List (StringUnit β)),
      unit' :: units' = unit.respell write ++ rest ∧ unit.Legal dialect ∧
        text = unit.spell dialect ++ text' ∧ text'.flatMap write = spellUnits dialect' rest := by
  obtain ⟨hunit, -⟩ := legalUnits_cons.mp hlegal
  rw [spellUnits_cons] at h
  cases unit' with
  | escape letter =>
      have hascii : ∀ c ∈ [0x5C, letter], c < 0x80 := by
        simpa using legal_escape_ascii hunit
      obtain ⟨text', rfl, htext'⟩ := flatMap_eq_token_append hwrite hascii h
      exact ⟨.escape letter, text', units', rfl, hunit, rfl, htext'⟩
  | unicode digits =>
      have hascii : ∀ c ∈ [0x5C, 0x75] ++ digits, c < 0x80 := by
        simpa using legal_unicode_ascii hunit
      obtain ⟨text', rfl, htext'⟩ := flatMap_eq_token_append hwrite hascii h
      exact ⟨.unicode digits, text', units', rfl, hunit, rfl, htext'⟩
  | raw c' =>
      cases text with
      | nil => cases h
      | cons c text =>
          rw [List.flatMap_cons, ← spellUnits_cons] at h
          -- what the character is written as holds no backslash
          have hplain : ∀ d ∈ write c, d ≠ dialect'.ascii 0x5C := by
            by_cases hc : ∃ octet < 0x80, c = dialect.ascii octet
            · obtain ⟨octet, hoctet, rfl⟩ := hc
              rw [hwrite.ascii octet hoctet] at h ⊢
              rw [List.forall_mem_singleton, (List.cons.inj h).1]
              exact fun heq => (hunit 0x5C heq).2.2 rfl
            · have hwide := (hwrite.wide c fun octet hoctet heq => hc ⟨octet, hoctet, heq⟩).2
              exact fun d hd => hwide d hd 0x5C (by decide)
          obtain ⟨rest, hunits, hrest⟩ := raws_of_spellUnits hplain h
          refine ⟨.raw c, text, rest, hunits, (legal_raw hwrite).mpr fun d hd => ?_, rfl, hrest⟩
          exact hlegal _ (by rw [hunits]; exact List.mem_append_left _ (List.mem_map_of_mem hd))

/-- A literal over the second alphabet is one over the first. -/
theorem exists_units (hwrite : Respells dialect dialect' write) :
    ∀ (n : Nat) {text : List α} {units' : List (StringUnit β)}, units'.length ≤ n →
      LegalUnits dialect' units' → text.flatMap write = spellUnits dialect' units' →
      ∃ units, units' = respellUnits write units ∧ LegalUnits dialect units ∧
        text = spellUnits dialect units := by
  -- one unit of the first alphabet may be several of the second
  intro n
  induction n with
  | zero =>
      intro text units' hlength hlegal h
      obtain rfl := List.length_eq_zero_iff.mp (Nat.le_zero.mp hlength)
      exact ⟨[], rfl, fun _ hunit => absurd hunit List.not_mem_nil, flatMap_eq_nil hwrite h⟩
  | succ n ih =>
      intro text units' hlength hlegal h
      cases units' with
      | nil =>
          exact ⟨[], rfl, fun _ hunit => absurd hunit List.not_mem_nil, flatMap_eq_nil hwrite h⟩
      | cons unit' units' =>
          obtain ⟨unit, text', rest, hunits, hunit, rfl, htext'⟩ := exists_unit hwrite hlegal h
          have hpos : 0 < (unit.respell write).length := by
            cases unit with
            | raw c =>
                show 0 < ((write c).map StringUnit.raw).length
                rw [List.length_map]
                exact List.length_pos_iff.mpr (write_ne_nil hwrite c)
            | escape letter => exact Nat.one_pos
            | unicode digits => exact Nat.one_pos
          rw [hunits] at hlegal hlength ⊢
          rw [List.length_append] at hlength
          obtain ⟨units, rfl, hlegals, rfl⟩ :=
            ih (by omega) (fun other hother => hlegal other (List.mem_append_right _ hother)) htext'
          exact ⟨unit :: units, List.flatMap_cons.symm, legalUnits_cons.mpr ⟨hunit, hlegals⟩,
            spellUnits_cons.symm⟩

theorem exists_literal (hwrite : Respells dialect dialect' write) {text : List α}
    {units' : List (StringUnit β)} {rest : List β} (hlegal : LegalUnits dialect' units')
    (h : text.flatMap write = literal dialect' units' ++ rest) :
    ∃ units text', units' = respellUnits write units ∧ LegalUnits dialect units ∧
      text = literal dialect units ++ text' ∧ text'.flatMap write = rest := by
  have hquote : ∀ c ∈ [(0x22 : UInt8)], c < 0x80 := ascii_of_all rfl
  rw [literal, List.append_assoc, List.append_assoc] at h
  obtain ⟨text, rfl, hinner⟩ := flatMap_eq_token_append hwrite hquote h
  have hcut : ∀ c ∈ (dialect'.token [0x22] ++ rest).head?, IsAscii dialect' c := by
    intro c hc
    obtain rfl := Option.some.inj hc
    exact ⟨0x22, by decide, rfl⟩
  obtain ⟨text₁, text₂, rfl, hunits, hbehind⟩ := flatMap_eq_append hwrite hcut hinner
  obtain ⟨units, rfl, hlegal, rfl⟩ := exists_units hwrite _ (Nat.le_refl _) hlegal hunits
  obtain ⟨text', rfl, htext'⟩ := flatMap_eq_token_append hwrite hquote hbehind
  exact ⟨units, text', rfl, hlegal, by simp only [literal, List.append_assoc], htext'⟩

/-! ## Derivations -/

theorem Space.ascii {space : List UInt8} (hspace : Space space) : ∀ c ∈ space, c < 0x80 := by
  intro c hc
  rcases hspace c hc with rfl | rfl | rfl | rfl <;> decide

theorem ascii_append {first second : List UInt8} (hfirst : ∀ c ∈ first, c < 0x80)
    (hsecond : ∀ c ∈ second, c < 0x80) : ∀ c ∈ first ++ second, c < 0x80 :=
  List.forall_mem_append.mpr ⟨hfirst, hsecond⟩

theorem Space.structural {space space' : List UInt8} {c : UInt8} (hspace : Space space)
    (hc : c < 0x80) (hspace' : Space space') : ∀ d ∈ space ++ [c] ++ space', d < 0x80 :=
  ascii_append (ascii_append hspace.ascii (List.forall_mem_singleton.mpr hc)) hspace'.ascii

/-- The numbers of a phrase are numbers of a dialect, in ASCII. -/
def Readable (dialect : Dialect α) (digits : List UInt8) : Prop :=
  dialect.number digits ∧ ∀ c ∈ digits, c < 0x80

theorem boolText_ascii (value : Bool) : ∀ c ∈ boolText value, c < 0x80 := by
  cases value <;> exact ascii_of_all rfl

/-- **A text keeps its tree in the other alphabet.** -/
theorem Spells.respell (hwrite : Respells dialect dialect' write) {phrase : Phrase α}
    {text : List α} (h : Spells dialect phrase text) :
    phrase.Numbers (Readable dialect') →
      Spells dialect' (phrase.respell write) (text.flatMap write) := by
  induction h with
  | null =>
      intro _
      rw [flatMap_token hwrite (ascii_of_all rfl)]
      exact .null
  | bool value =>
      intro _
      rw [flatMap_token hwrite (boolText_ascii value)]
      exact .bool value
  | number hnumber =>
      intro hnumbers
      obtain ⟨hnumber', hascii⟩ := numbers_number.mp hnumbers
      rw [flatMap_token hwrite hascii]
      exact .number hnumber'
  | string hunits =>
      intro _
      rw [literal_respell hwrite hunits]
      exact .string (units_respell hwrite hunits).1
  | emptyArray hspace =>
      intro _
      rw [flatMap_token hwrite
        (ascii_append (ascii_append (ascii_of_all rfl) hspace.ascii) (ascii_of_all rfl))]
      exact .emptyArray hspace
  | array helements ih =>
      intro hnumbers
      rw [List.flatMap_append, List.flatMap_append, flatMap_token hwrite (ascii_of_all rfl),
        flatMap_token hwrite (ascii_of_all rfl)]
      exact .array (ih (numbers_array.mp hnumbers))
  | emptyObject hspace =>
      intro _
      rw [flatMap_token hwrite
        (ascii_append (ascii_append (ascii_of_all rfl) hspace.ascii) (ascii_of_all rfl))]
      exact .emptyObject hspace
  | object hmembers ih =>
      intro hnumbers
      rw [List.flatMap_append, List.flatMap_append, flatMap_token hwrite (ascii_of_all rfl),
        flatMap_token hwrite (ascii_of_all rfl)]
      exact .object (ih (numbers_object.mp hnumbers))
  | lastElement hbefore htree hafter ih =>
      intro hnumbers
      rw [List.flatMap_append, List.flatMap_append, flatMap_token hwrite hbefore.ascii,
        flatMap_token hwrite hafter.ascii]
      exact .lastElement hbefore (ih (hnumbers _ List.mem_cons_self)) hafter
  | element hbefore htree hafter hrest ih ihrest =>
      intro hnumbers
      obtain ⟨hnumber, hnumbers⟩ := List.forall_mem_cons.mp hnumbers
      rw [List.flatMap_append, List.flatMap_append, List.flatMap_append,
        flatMap_token hwrite hbefore.ascii, flatMap_token hwrite
          (ascii_append hafter.ascii (ascii_of_all rfl))]
      exact .element hbefore (ih hnumber) hafter (ihrest hnumbers)
  | lastMember hbefore hkey hcolon hcolon' htree hafter ih =>
      intro hnumbers
      rw [List.flatMap_append, List.flatMap_append, List.flatMap_append, List.flatMap_append,
        flatMap_token hwrite hbefore.ascii, literal_respell hwrite hkey,
        flatMap_token hwrite (hcolon.structural (by decide) hcolon'),
        flatMap_token hwrite hafter.ascii]
      exact .lastMember hbefore (units_respell hwrite hkey).1 hcolon hcolon'
        (ih (hnumbers _ List.mem_cons_self)) hafter
  | member hbefore hkey hcolon hcolon' htree hafter hrest ih ihrest =>
      intro hnumbers
      obtain ⟨hnumber, hnumbers⟩ := List.forall_mem_cons.mp hnumbers
      rw [List.flatMap_append, List.flatMap_append, List.flatMap_append, List.flatMap_append,
        List.flatMap_append, flatMap_token hwrite hbefore.ascii, literal_respell hwrite hkey,
        flatMap_token hwrite (hcolon.structural (by decide) hcolon'),
        flatMap_token hwrite (ascii_append hafter.ascii (ascii_of_all rfl))]
      exact .member hbefore (units_respell hwrite hkey).1 hcolon hcolon' (ih hnumber) hafter
        (ihrest hnumbers)

variable (dialect write) in
/-- What is written as this text has the phrase already. -/
def HasPreimage : Phrase β → List β → Prop
  | .value tree', text' => tree'.Numbers (Readable dialect) → ∀ text, text.flatMap write = text' →
      ∃ tree, tree' = tree.respell write ∧ Spells dialect (.value tree) text
  | .elements trees', text' => (∀ tree' ∈ trees', tree'.Numbers (Readable dialect)) →
      ∀ text, text.flatMap write = text' →
        ∃ trees, trees' = respellElements write trees ∧ Spells dialect (.elements trees) text
  | .members entries', text' => (∀ entry' ∈ entries', entry'.2.Numbers (Readable dialect)) →
      ∀ text, text.flatMap write = text' →
        ∃ entries, entries' = respellMembers write entries ∧ Spells dialect (.members entries) text

/-- What stands before a piece of ASCII, at its end or before more text. -/
theorem exists_before (hwrite : Respells dialect dialect' write) {octets : List UInt8}
    (hoctets : ∀ c ∈ octets, c < 0x80) {text : List α} {first rest : List β}
    (hrest : ∀ c ∈ (dialect'.token octets ++ rest).head?, IsAscii dialect' c)
    (h : text.flatMap write = first ++ (dialect'.token octets ++ rest)) :
    ∃ body text', text = body ++ (dialect.token octets ++ text') ∧ body.flatMap write = first ∧
      text'.flatMap write = rest := by
  obtain ⟨body, behind, rfl, hbody, hbehind⟩ := flatMap_eq_append hwrite hrest h
  obtain ⟨text', rfl, htext'⟩ := flatMap_eq_token_append hwrite hoctets hbehind
  exact ⟨body, text', rfl, hbody, htext'⟩

theorem exists_before_last (hwrite : Respells dialect dialect' write) {octets : List UInt8}
    (hoctets : ∀ c ∈ octets, c < 0x80) {text : List α} {first : List β}
    (h : text.flatMap write = first ++ dialect'.token octets) :
    ∃ body, text = body ++ dialect.token octets ∧ body.flatMap write = first := by
  rw [← List.append_nil (dialect'.token octets)] at h
  obtain ⟨body, text', rfl, hbody, hnil⟩ := exists_before hwrite hoctets
    (isAscii_head_token hoctets (by simp)) h
  rw [flatMap_eq_nil hwrite hnil, List.append_nil]
  exact ⟨body, rfl, hbody⟩

/-- What stands before a comma and the rest. -/
theorem exists_before_comma (hwrite : Respells dialect dialect' write) {after : List UInt8}
    (hafter : Space after) {text : List α} {first rest : List β}
    (h : text.flatMap write = first ++ (dialect'.token (after ++ [0x2C]) ++ rest)) :
    ∃ body text', text = body ++ (dialect.token (after ++ [0x2C]) ++ text') ∧
      body.flatMap write = first ∧ text'.flatMap write = rest := by
  refine exists_before hwrite (ascii_append hafter.ascii (ascii_of_all rfl)) ?_ h
  have hcomma : ∀ c ∈ (dialect'.token [0x2C] ++ rest).head?, IsAscii dialect' c := by
    intro c hc
    obtain rfl := Option.some.inj hc
    exact ⟨0x2C, by decide, rfl⟩
  rw [Dialect.token, List.map_append, List.append_assoc]
  exact isAscii_head_token hafter.ascii hcomma

/-- A name with the colon behind it. -/
theorem exists_name (hwrite : Respells dialect dialect' write) {key : List (StringUnit β)}
    {before colon colon' : List UInt8} (hbefore : Space before) (hkey : LegalUnits dialect' key)
    (hcolon : Space colon) (hcolon' : Space colon') {text : List α} {rest : List β}
    (h : text.flatMap write = dialect'.token before ++ (literal dialect' key ++
      (dialect'.token (colon ++ [0x3A] ++ colon') ++ rest))) :
    ∃ units text', key = respellUnits write units ∧ LegalUnits dialect units ∧
      text = dialect.token before ++ (literal dialect units ++
        (dialect.token (colon ++ [0x3A] ++ colon') ++ text')) ∧ text'.flatMap write = rest := by
  obtain ⟨text, rfl, hname⟩ := flatMap_eq_token_append hwrite hbefore.ascii h
  obtain ⟨units, text, rfl, hlegal, rfl, hbehind⟩ := exists_literal hwrite hkey hname
  obtain ⟨text, rfl, htext⟩ :=
    flatMap_eq_token_append hwrite (hcolon.structural (by decide) hcolon') hbehind
  exact ⟨units, text, rfl, hlegal, rfl, htext⟩

/-- What stands between two brackets. -/
theorem exists_bracketed (hwrite : Respells dialect dialect' write) {opening closing : UInt8}
    (hopening : opening < 0x80) (hclosing : closing < 0x80) {text : List α} {text' : List β}
    (h : text.flatMap write = dialect'.token [opening] ++ text' ++ dialect'.token [closing]) :
    ∃ inner, text = dialect.token [opening] ++ inner ++ dialect.token [closing] ∧
      inner.flatMap write = text' := by
  rw [List.append_assoc] at h
  obtain ⟨text, rfl, hinner⟩ :=
    flatMap_eq_token_append hwrite (List.forall_mem_singleton.mpr hopening) h
  obtain ⟨inner, rfl, hbody⟩ :=
    exists_before_last hwrite (List.forall_mem_singleton.mpr hclosing) hinner
  exact ⟨inner, (List.append_assoc ..).symm, hbody⟩

/-- **A text has no other trees in the other alphabet.** -/
theorem Spells.of_respelled (hwrite : Respells dialect dialect' write) {phrase' : Phrase β}
    {text' : List β} (h : Spells dialect' phrase' text') :
    HasPreimage dialect write phrase' text' := by
  induction h with
  | null =>
      intro _ text htext
      exact ⟨.null, rfl, flatMap_eq_token hwrite (ascii_of_all rfl) htext ▸ .null⟩
  | bool value =>
      intro _ text htext
      rw [flatMap_eq_token hwrite (boolText_ascii value) htext]
      exact ⟨.bool value, rfl, .bool value⟩
  | @number digits hnumber =>
      intro hnumbers text htext
      obtain ⟨hnumber, hascii⟩ := numbers_number.mp hnumbers
      rw [flatMap_eq_token hwrite hascii htext]
      exact ⟨.number digits, rfl, .number hnumber⟩
  | string hunits =>
      intro _ text htext
      rw [← List.append_nil (literal _ _)] at htext
      obtain ⟨units, rest, rfl, hlegal, rfl, hrest⟩ := exists_literal hwrite hunits htext
      rw [flatMap_eq_nil hwrite hrest, List.append_nil]
      exact ⟨.string units, rfl, .string hlegal⟩
  | @emptyArray space hspace =>
      intro _ text htext
      have hascii : ∀ c ∈ [0x5B] ++ space ++ [0x5D], c < 0x80 :=
        ascii_append (ascii_append (ascii_of_all rfl) hspace.ascii) (ascii_of_all rfl)
      rw [flatMap_eq_token hwrite hascii htext]
      exact ⟨.array [], rfl, .emptyArray hspace⟩
  | array helements ih =>
      intro hnumbers text htext
      obtain ⟨inner, rfl, hinner⟩ := exists_bracketed hwrite (by decide) (by decide) htext
      obtain ⟨trees, rfl, hspells⟩ := ih (numbers_array.mp hnumbers) inner hinner
      exact ⟨.array trees, rfl, .array hspells⟩
  | @emptyObject space hspace =>
      intro _ text htext
      have hascii : ∀ c ∈ [0x7B] ++ space ++ [0x7D], c < 0x80 :=
        ascii_append (ascii_append (ascii_of_all rfl) hspace.ascii) (ascii_of_all rfl)
      rw [flatMap_eq_token hwrite hascii htext]
      exact ⟨.object [], rfl, .emptyObject hspace⟩
  | object hmembers ih =>
      intro hnumbers text htext
      obtain ⟨inner, rfl, hinner⟩ := exists_bracketed hwrite (by decide) (by decide) htext
      obtain ⟨entries, rfl, hspells⟩ := ih (numbers_object.mp hnumbers) inner hinner
      exact ⟨.object entries, rfl, .object hspells⟩
  | lastElement hbefore htree hafter ih =>
      intro hnumbers text htext
      rw [List.append_assoc] at htext
      obtain ⟨text, rfl, hrest⟩ := flatMap_eq_token_append hwrite hbefore.ascii htext
      obtain ⟨body, rfl, hvalue⟩ := exists_before_last hwrite hafter.ascii hrest
      obtain ⟨tree, rfl, hspells⟩ := ih (hnumbers _ List.mem_cons_self) body hvalue
      rw [← List.append_assoc]
      exact ⟨[tree], rfl, .lastElement hbefore hspells hafter⟩
  | element hbefore htree hafter hrest ih ihrest =>
      intro hnumbers text htext
      obtain ⟨hnumber, hnumberOthers⟩ := List.forall_mem_cons.mp hnumbers
      rw [List.append_assoc, List.append_assoc] at htext
      obtain ⟨text, rfl, htail⟩ := flatMap_eq_token_append hwrite hbefore.ascii htext
      obtain ⟨body, others, rfl, hvalue, hothers⟩ := exists_before_comma hwrite hafter htail
      obtain ⟨tree, rfl, hspells⟩ := ih hnumber body hvalue
      obtain ⟨trees, rfl, hspellsOthers⟩ := ihrest hnumberOthers others hothers
      rw [← List.append_assoc, ← List.append_assoc]
      exact ⟨tree :: trees, rfl, .element hbefore hspells hafter hspellsOthers⟩
  | lastMember hbefore hkey hcolon hcolon' htree hafter ih =>
      intro hnumbers text htext
      rw [List.append_assoc, List.append_assoc, List.append_assoc] at htext
      obtain ⟨units, text, rfl, hlegal, rfl, hrest⟩ :=
        exists_name hwrite hbefore hkey hcolon hcolon' htext
      obtain ⟨body, rfl, hvalue⟩ := exists_before_last hwrite hafter.ascii hrest
      obtain ⟨tree, rfl, hspells⟩ := ih (hnumbers _ List.mem_cons_self) body hvalue
      rw [← List.append_assoc, ← List.append_assoc, ← List.append_assoc]
      exact ⟨[(units, tree)], rfl, .lastMember hbefore hlegal hcolon hcolon' hspells hafter⟩
  | member hbefore hkey hcolon hcolon' htree hafter hrest ih ihrest =>
      intro hnumbers text htext
      obtain ⟨hnumber, hnumberOthers⟩ := List.forall_mem_cons.mp hnumbers
      rw [List.append_assoc, List.append_assoc, List.append_assoc, List.append_assoc] at htext
      obtain ⟨units, text, rfl, hlegal, rfl, htail⟩ :=
        exists_name hwrite hbefore hkey hcolon hcolon' htext
      obtain ⟨body, others, rfl, hvalue, hothers⟩ := exists_before_comma hwrite hafter htail
      obtain ⟨tree, rfl, hspells⟩ := ih hnumber body hvalue
      obtain ⟨entries, rfl, hspellsOthers⟩ := ihrest hnumberOthers others hothers
      rw [← List.append_assoc, ← List.append_assoc, ← List.append_assoc, ← List.append_assoc]
      exact ⟨(units, tree) :: entries, rfl,
        .member hbefore hlegal hcolon hcolon' hspells hafter hspellsOthers⟩

/-- A text has no other trees in the other alphabet. -/
theorem IsText.of_respelled (hwrite : Respells dialect dialect' write) {text : List α}
    {tree' : Tree β} (h : IsText dialect' tree' (text.flatMap write))
    (hnumbers : tree'.Numbers (Readable dialect)) :
    ∃ tree, tree' = tree.respell write ∧ IsText dialect tree text := by
  obtain ⟨before, body', after, htext, hbefore, hspells, hafter⟩ := h
  rw [List.append_assoc] at htext
  obtain ⟨text, rfl, hrest⟩ := flatMap_eq_token_append hwrite hbefore.ascii htext
  obtain ⟨body, rfl, hbody⟩ := exists_before_last hwrite hafter.ascii hrest
  obtain ⟨tree, rfl, htree⟩ := hspells.of_respelled hwrite hnumbers body hbody
  exact ⟨tree, rfl, before, body, after, (List.append_assoc ..).symm, hbefore, htree, hafter⟩

/-- A text keeps its tree in the other alphabet. -/
theorem IsText.respell (hwrite : Respells dialect dialect' write) {text : List α} {tree : Tree α}
    (h : IsText dialect tree text) (hnumbers : tree.Numbers (Readable dialect')) :
    IsText dialect' (tree.respell write) (text.flatMap write) := by
  obtain ⟨before, body, after, rfl, hbefore, hspells, hafter⟩ := h
  refine ⟨before, body.flatMap write, after, ?_, hbefore, hspells.respell hwrite hnumbers, hafter⟩
  rw [List.flatMap_append, List.flatMap_append, flatMap_token hwrite hbefore.ascii,
    flatMap_token hwrite hafter.ascii]

end Respelling

end DynamicProperties.Library.Json
