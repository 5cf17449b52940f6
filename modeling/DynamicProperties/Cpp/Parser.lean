import DynamicProperties.Library.OrderedMap
import DynamicProperties.Cpp.StringLiterals

/-!
# The parser accepts its language

`parseValue`, `parseMembers` and `parseElements` against the grammar.  `denote` is
the value of a parse tree; a tree is acceptable where every literal is well-formed
UTF-8 with its surrogates paired, every number is finite and no object repeats a
key.  Soundness is by induction on the fuel and gives the tree of what was read;
completeness is by induction on the derivation, for every fuel above a bound that
the length of the text gives.
-/

namespace DynamicProperties.Cpp

open Std
open DynamicProperties.Library
open DynamicProperties.Library.Fallible
open DynamicProperties.Library.OrderedMap

/-! ## What a tree denotes -/

abbrev Tree := Json.Tree UInt8

abbrev Member := List (Json.StringUnit UInt8) × Tree

/-- The string a literal denotes. -/
def denoteString (units : List (Json.StringUnit UInt8)) : ByteString :=
  Json.decodeUnits writeUtf8 units

section Denote

variable (format : NumberFormat)

mutual

/-- The value of a tree: the members of an object in the order of their keys. -/
def denote : Tree → JsonValue
  | .null => .null
  | .bool value => .bool value
  | .number digits => .number (format.strtod digits).1
  | .string units => .string (denoteString units)
  | .array elements => .array (denoteElements elements)
  | .object members => .object (insertEntries ∅ (denoteMembers members)).toList

def denoteElements : List Tree → List JsonValue
  | [] => []
  | tree :: rest => denote tree :: denoteElements rest

def denoteMembers : List Member → List (ByteString × JsonValue)
  | [] => []
  | (key, tree) :: rest => (denoteString key, denote tree) :: denoteMembers rest

end

/-- The keys of an object, unescaped. -/
def memberKeys (members : List Member) : List ByteString :=
  members.map fun member => denoteString member.1

/-- What the parser asks of a node beyond the grammar. -/
structure AcceptableNode (node : Tree) : Prop where
  /-- The octets of every literal are UTF-8. -/
  wellFormed : ∀ units ∈ node.literals, Utf8.WellFormed (Json.spellUnits rfc8259 units)
  /-- Surrogate escapes come in pairs. -/
  paired : ∀ units ∈ node.literals, Json.Paired units
  /-- A number is finite under `strtod`. -/
  finite : ∀ digits, node = .number digits → FiniteLiteral format digits
  /-- No object repeats a key. -/
  distinct : ∀ members, node = .object members → (memberKeys members).Nodup

/-- Every node is acceptable. -/
def Acceptable (tree : Tree) : Prop := tree.Everywhere (AcceptableNode format)

end Denote

/-! ## The members of an object -/

abbrev MemberMap := ExtTreeMap ByteString JsonValue compare

theorem emplace_eq_none {key : ByteString} {value : JsonValue}
    {entries : List (ByteString × JsonValue)} (h : emplace key value entries = none) :
    key ∈ entries.map Prod.fst := by
  induction entries with
  | nil => cases h
  | cons entry rest ih =>
      unfold emplace at h
      split at h
      next => cases h
      next heq => exact List.mem_cons.mpr (.inl (LawfulEqCmp.eq_of_compare heq))
      next => exact List.mem_cons_of_mem _ (ih (Option.map_eq_none_iff.mp h))

theorem emplace_eq_some {key : ByteString} {value : JsonValue}
    {entries entries' : List (ByteString × JsonValue)}
    (h : emplace key value entries = some entries')
    (hsorted : entries.Pairwise fun a b => compare a.1 b.1 = .lt) :
    entries'.Perm ((key, value) :: entries) ∧
      entries'.Pairwise fun a b => compare a.1 b.1 = .lt := by
  induction entries generalizing entries' with
  | nil =>
      cases h
      exact ⟨.refl _, List.pairwise_singleton _ _⟩
  | cons entry rest ih =>
      obtain ⟨hfirst, hrest⟩ := List.pairwise_cons.mp hsorted
      unfold emplace at h
      split at h
      next hlt =>
        cases h
        refine ⟨.refl _, List.pairwise_cons.mpr ⟨fun other hother => ?_, hsorted⟩⟩
        rcases List.mem_cons.mp hother with rfl | hother
        · exact hlt
        · exact TransCmp.lt_trans hlt (hfirst other hother)
      next => cases h
      next hgt =>
        obtain ⟨tail, htail, rfl⟩ := Option.map_eq_some_iff.mp h
        obtain ⟨hperm, hpairwise⟩ := ih htail hrest
        refine ⟨(hperm.cons entry).trans (.swap _ _ _), ?_⟩
        refine List.pairwise_cons.mpr ⟨fun other hother => ?_, hpairwise⟩
        rcases List.mem_cons.mp (hperm.subset hother) with rfl | hother
        · exact OrientedCmp.lt_of_gt hgt
        · exact hfirst other hother

/-- `emplace` inserts a new key into the map. -/
theorem emplace_toList (m : MemberMap) (key : ByteString) (value : JsonValue) :
    emplace key value m.toList =
      if key ∈ m then none else some (m.insert key value).toList := by
  have hkeys : ∀ {k}, k ∈ m.toList.map Prod.fst ↔ k ∈ m := by
    intro k
    rw [ExtTreeMap.map_fst_toList_eq_keys, ExtTreeMap.mem_keys]
  by_cases hkey : key ∈ m
  · rw [if_pos hkey]
    cases hemplace : emplace key value m.toList with
    | none => rfl
    | some entries =>
        obtain ⟨hperm, hsorted⟩ := emplace_eq_some hemplace ExtTreeMap.ordered_keys_toList
        have hdistinct : (entries.map Prod.fst).Nodup := List.pairwise_map.mpr <|
          hsorted.imp fun {a b} hlt heq => by
            rw [heq, ReflOrd.compare_self] at hlt
            cases hlt
        have hrepeated := (hperm.map Prod.fst).nodup_iff.mp hdistinct
        exact absurd (hkeys.mpr hkey) (List.nodup_cons.mp hrepeated).1
  · rw [if_neg hkey]
    cases hemplace : emplace key value m.toList with
    | none => exact absurd (hkeys.mp (emplace_eq_none hemplace)) hkey
    | some entries =>
        obtain ⟨hperm, hsorted⟩ := emplace_eq_some hemplace ExtTreeMap.ordered_keys_toList
        rw [eq_toList_of_sorted hsorted (hperm.trans (toList_insert_perm hkey).symm)]

/-! ## Acceptable trees -/

/-- The literals of the names and the values of an object are acceptable. -/
def AcceptableMembers (format : NumberFormat) (members : List Member) : Prop :=
  ∀ member ∈ members, Utf8.WellFormed (Json.spellUnits rfc8259 member.1) ∧
    Json.Paired member.1 ∧ Acceptable format member.2

theorem acceptable_object {format : NumberFormat} {members : List Member} :
    Acceptable format (.object members) ↔
      AcceptableMembers format members ∧ (memberKeys members).Nodup := by
  refine (Json.everywhere_object members).trans ?_
  constructor
  · rintro ⟨hnode, hvalues⟩
    refine ⟨fun member hmember => ?_, hnode.distinct members rfl⟩
    have hkey : member.1 ∈ (Json.Tree.object members).literals := List.mem_map_of_mem hmember
    exact ⟨hnode.wellFormed _ hkey, hnode.paired _ hkey, hvalues member hmember⟩
  · rintro ⟨hmembers, hdistinct⟩
    refine ⟨⟨fun units hunits => ?_, fun units hunits => ?_, nofun, fun _ h => ?_⟩,
      fun member hmember => (hmembers member hmember).2.2⟩
    · obtain ⟨member, hmember, rfl⟩ := List.mem_map.mp hunits
      exact (hmembers member hmember).1
    · obtain ⟨member, hmember, rfl⟩ := List.mem_map.mp hunits
      exact (hmembers member hmember).2.1
    · cases h
      exact hdistinct

theorem acceptable_array {format : NumberFormat} {trees : List Tree} :
    Acceptable format (.array trees) ↔ ∀ tree ∈ trees, Acceptable format tree := by
  refine (Json.everywhere_array trees).trans
    (and_iff_right ⟨fun _ h => ?_, fun _ h => ?_, nofun, nofun⟩)
  · exact absurd h List.not_mem_nil
  · exact absurd h List.not_mem_nil

theorem acceptable_string {format : NumberFormat} {units : List (Json.StringUnit UInt8)} :
    Acceptable format (.string units) ↔
      Utf8.WellFormed (Json.spellUnits rfc8259 units) ∧ Json.Paired units := by
  refine (Json.everywhere_string units).trans ?_
  constructor
  · exact fun h => ⟨h.wellFormed units (List.mem_singleton_self _),
      h.paired units (List.mem_singleton_self _)⟩
  · rintro ⟨hwellFormed, hpaired⟩
    refine ⟨fun _ h => ?_, fun _ h => ?_, nofun, nofun⟩
    · rwa [List.mem_singleton.mp h]
    · rwa [List.mem_singleton.mp h]

theorem acceptable_number {format : NumberFormat} {digits : ByteString} :
    Acceptable format (.number digits) ↔ FiniteLiteral format digits := by
  refine (Json.everywhere_number digits).trans ?_
  constructor
  · exact fun h => h.finite digits rfl
  · intro hfinite
    refine ⟨fun _ h => ?_, fun _ h => ?_, fun _ h => ?_, nofun⟩
    · exact absurd h List.not_mem_nil
    · exact absurd h List.not_mem_nil
    · cases h
      exact hfinite

theorem acceptable_bool {format : NumberFormat} {value : Bool} :
    Acceptable format (.bool value) := by
  refine (Json.everywhere_bool value).mpr ⟨fun _ h => ?_, fun _ h => ?_, nofun, nofun⟩
  · exact absurd h List.not_mem_nil
  · exact absurd h List.not_mem_nil

theorem acceptable_null {format : NumberFormat} : Acceptable format .null := by
  refine Json.everywhere_null.mpr ⟨fun _ h => ?_, fun _ h => ?_, nofun, nofun⟩
  · exact absurd h List.not_mem_nil
  · exact absurd h List.not_mem_nil

/-! ## Soundness -/

section Soundness

variable (format : NumberFormat)

/-- A value was read, after white space. -/
def ReadsValue (cursor : Cursor) (value : JsonValue) (cursor' : Cursor) : Prop :=
  ∃ space tree octets, Json.Space space ∧ Json.Spells rfc8259 (.value tree) octets ∧
    Acceptable format tree ∧ denote format tree = value ∧ Reads cursor (space ++ octets) cursor'

/-- The rest of an array was read, after the elements `before`. -/
def ReadsElements (before : List JsonValue) (cursor : Cursor) (elements : List JsonValue)
    (cursor' : Cursor) : Prop :=
  ∃ trees octets, Json.Spells rfc8259 (.elements trees) octets ∧
    (∀ tree ∈ trees, Acceptable format tree) ∧ elements = before ++ denoteElements format trees ∧
    Reads cursor (octets ++ [0x5D]) cursor'

/-- The rest of an object was read, after the members in `before`. -/
def ReadsMembers (before : MemberMap) (cursor : Cursor) (members : List (ByteString × JsonValue))
    (cursor' : Cursor) : Prop :=
  ∃ trees octets, Json.Spells rfc8259 (.members trees) octets ∧
    AcceptableMembers format trees ∧ (memberKeys trees).Nodup ∧
    (∀ key ∈ memberKeys trees, key ∉ before) ∧
    members = (insertEntries before (denoteMembers format trees)).toList ∧
    Reads cursor (octets ++ [0x7D]) cursor'

variable {format} {fuel : Nat}

theorem parseValue_sound
    (helements : ∀ {before cursor elements cursor'},
      parseElements format fuel before cursor = .ok (elements, cursor') →
        ReadsElements format before cursor elements cursor')
    (hmembers : ∀ {before : MemberMap} {cursor members cursor'},
      parseMembers format fuel before.toList cursor = .ok (members, cursor') →
        ReadsMembers format before cursor members cursor')
    {cursor cursor' : Cursor} {value : JsonValue}
    (h : parseValue format (fuel + 1) cursor = .ok (value, cursor')) :
    ReadsValue format cursor value cursor' := by
  obtain ⟨space, hspace, hskip, -⟩ := reads_skipSpace cursor
  unfold parseValue at h
  simp only at h
  generalize skipSpace cursor = start at h hskip
  split at h
  next => cases h
  next c rest hrest =>
    have hfirst := reads_head hrest
    split at h
    next hbrace =>
      subst hbrace
      obtain ⟨inner, hinner, hinnerReads, -⟩ := reads_skipSpace (start.advance 1)
      split at h
      next after hconsume =>
        cases h
        refine ⟨space, .object [], _, hspace, .emptyObject hinner,
          acceptable_object.mpr ⟨nofun, List.nodup_nil⟩, rfl, ?_⟩
        have hclose : Reads _ [0x7D] _ := consume_eq_some.mp hconsume
        have hreads := hskip.append ((hfirst.append hinnerReads).append hclose)
        simpa using hreads
      next hconsume =>
        obtain ⟨⟨members, after⟩, hparse, h⟩ := bind_eq_ok.mp h
        cases h
        obtain ⟨trees, octets, hspells, hgood, hdistinct, -, rfl, hreads⟩ :=
          hmembers (show parseMembers format fuel (∅ : MemberMap).toList _ = _ from hparse)
        refine ⟨space, .object trees, _, hspace, .object (.space_members hinner hspells),
          acceptable_object.mpr ⟨hgood, hdistinct⟩, rfl, ?_⟩
        have hreads := hskip.append (hfirst.append (hinnerReads.append hreads))
        simpa using hreads
    next hbrace =>
      split at h
      next hbracket =>
        subst hbracket
        obtain ⟨inner, hinner, hinnerReads, -⟩ := reads_skipSpace (start.advance 1)
        split at h
        next after hconsume =>
          cases h
          refine ⟨space, .array [], _, hspace, .emptyArray hinner,
            acceptable_array.mpr nofun, rfl, ?_⟩
          have hclose : Reads _ [0x5D] _ := consume_eq_some.mp hconsume
          have hreads := hskip.append ((hfirst.append hinnerReads).append hclose)
          simpa using hreads
        next hconsume =>
          obtain ⟨⟨elements, after⟩, hparse, h⟩ := bind_eq_ok.mp h
          cases h
          obtain ⟨trees, octets, hspells, hgood, rfl, hreads⟩ := helements hparse
          refine ⟨space, .array trees, _, hspace, .array (.space_elements hinner hspells),
            acceptable_array.mpr hgood, rfl, ?_⟩
          have hreads := hskip.append (hfirst.append (hinnerReads.append hreads))
          simpa using hreads
      next hbracket =>
        split at h
        next hquote =>
          obtain ⟨⟨string, after⟩, hparse, h⟩ := bind_eq_ok.mp h
          cases h
          obtain ⟨units, hlegal, hpaired, hvalid, rfl, hreads⟩ := parseString_eq_ok.mp hparse
          exact ⟨space, .string units, _, hspace, .string hlegal,
            acceptable_string.mpr ⟨(wellFormed_spellUnits_iff hlegal hpaired).mpr hvalid, hpaired⟩,
            rfl, hskip.append hreads⟩
        next hquote =>
          split at h
          next hnumber =>
            obtain ⟨⟨number, after⟩, hparse, h⟩ := bind_eq_ok.mp h
            cases h
            obtain ⟨digits, hliteral, hfinite, rfl, hreads⟩ := parseNumber_sound hparse
            refine ⟨space, .number digits, _, hspace, .number hliteral,
              acceptable_number.mpr hfinite, rfl, ?_⟩
            rw [token_rfc8259]
            exact hskip.append hreads
          next hnumber =>
            split at h
            next after hconsume =>
              cases h
              exact ⟨space, .bool true, _, hspace, .bool true, acceptable_bool, rfl,
                hskip.append (consume_eq_some.mp hconsume)⟩
            next =>
              split at h
              next after hconsume =>
                cases h
                exact ⟨space, .bool false, _, hspace, .bool false, acceptable_bool, rfl,
                  hskip.append (consume_eq_some.mp hconsume)⟩
              next =>
                split at h
                next after hconsume =>
                  cases h
                  exact ⟨space, .null, _, hspace, .null, acceptable_null, rfl,
                    hskip.append (consume_eq_some.mp hconsume)⟩
                next => cases h

/-- One round of the loop over elements, and the rest. -/
theorem parseElements_sound
    (hvalue : ∀ {cursor value cursor'}, parseValue format fuel cursor = .ok (value, cursor') →
      ReadsValue format cursor value cursor')
    (hrest : ∀ {before cursor elements cursor'},
      parseElements format fuel before cursor = .ok (elements, cursor') →
        ReadsElements format before cursor elements cursor')
    {before elements : List JsonValue} {cursor cursor' : Cursor}
    (h : parseElements format (fuel + 1) before cursor = .ok (elements, cursor')) :
    ReadsElements format before cursor elements cursor' := by
  unfold parseElements at h
  obtain ⟨⟨value, afterValue⟩, hparse, h⟩ := bind_eq_ok.mp h
  obtain ⟨⟨separator, afterSeparator⟩, htake, h⟩ := bind_eq_ok.mp h
  obtain ⟨space, tree, octets, hspace, hspells, hgood, rfl, hreads⟩ := hvalue hparse
  obtain ⟨after, hafter, hafterReads, -⟩ := reads_skipSpace afterValue
  have hseparator := take_eq_ok.mp htake
  have hhead := hreads.append (hafterReads.append hseparator)
  simp only at h
  split at h
  next hclose =>
    cases h
    subst hclose
    refine ⟨[tree], _, .lastElement hspace hspells hafter, ?_, rfl, ?_⟩
    · exact fun other hother => List.mem_singleton.mp hother ▸ hgood
    · simpa using hhead
  next hclose =>
    split at h
    next => cases h
    next hcomma =>
      have hcomma := Decidable.not_not.mp hcomma
      subst hcomma
      obtain ⟨trees, rest, hspells', hgood', rfl, hreads'⟩ := hrest h
      refine ⟨tree :: trees, _, .element hspace hspells hafter hspells', ?_, ?_, ?_⟩
      · exact List.forall_mem_cons.mpr ⟨hgood, hgood'⟩
      · rw [List.append_assoc]
        rfl
      · have hall := hhead.append hreads'
        simpa using hall

/-- One round of the loop over members, and the rest. -/
theorem parseMembers_sound
    (hvalue : ∀ {cursor value cursor'}, parseValue format fuel cursor = .ok (value, cursor') →
      ReadsValue format cursor value cursor')
    (hrest : ∀ {before : MemberMap} {cursor members cursor'},
      parseMembers format fuel before.toList cursor = .ok (members, cursor') →
        ReadsMembers format before cursor members cursor')
    {before : MemberMap} {members : List (ByteString × JsonValue)} {cursor cursor' : Cursor}
    (h : parseMembers format (fuel + 1) before.toList cursor = .ok (members, cursor')) :
    ReadsMembers format before cursor members cursor' := by
  obtain ⟨space, hspace, hskip, -⟩ := reads_skipSpace cursor
  unfold parseMembers at h
  simp only at h
  split at h
  next => cases h
  obtain ⟨⟨key, afterKey⟩, hkey, h⟩ := bind_eq_ok.mp h
  obtain ⟨⟨colon, afterColon⟩, hcolon, h⟩ := bind_eq_ok.mp h
  obtain ⟨units, hlegal, hpaired, hvalid, rfl, hkeyReads⟩ := parseString_eq_ok.mp hkey
  obtain ⟨space', hspace', hskip', -⟩ := reads_skipSpace afterKey
  have hcolonReads := take_eq_ok.mp hcolon
  simp only at h
  split at h
  next => cases h
  next hcolonEq =>
    obtain rfl := Decidable.not_not.mp hcolonEq
    obtain ⟨⟨value, afterValue⟩, hparse, h⟩ := bind_eq_ok.mp h
    obtain ⟨space'', tree, octets, hspace'', hspells, hgood, rfl, hvalueReads⟩ := hvalue hparse
    have hname := hskip.append (hkeyReads.append (hskip'.append (hcolonReads.append hvalueReads)))
    have hmember : AcceptableMembers format [(units, tree)] := List.forall_mem_singleton.mpr
      ⟨(wellFormed_spellUnits_iff hlegal hpaired).mpr hvalid, hpaired, hgood⟩
    rw [emplace_toList] at h
    simp only at h
    split at h
    next => cases h
    next inserted hinserted =>
      split at hinserted
      next => cases hinserted
      next hnew =>
        cases hinserted
        obtain ⟨⟨separator, afterSeparator⟩, htake, h⟩ := bind_eq_ok.mp h
        obtain ⟨after, hafter, hafterReads, -⟩ := reads_skipSpace afterValue
        have hhead := hname.append (hafterReads.append (take_eq_ok.mp htake))
        simp only at h
        split at h
        next hclose =>
          cases h
          subst hclose
          refine ⟨[(units, tree)], _, .lastMember hspace hlegal hspace' hspace'' hspells hafter,
            hmember, List.nodup_singleton _, List.forall_mem_singleton.mpr hnew, rfl, ?_⟩
          simpa using hhead
        next hclose =>
          split at h
          next => cases h
          next hcomma =>
            obtain rfl := Decidable.not_not.mp hcomma
            obtain ⟨trees, rest, hspells', hgood', hdistinct, hfresh, rfl, hreads'⟩ := hrest h
            refine ⟨(units, tree) :: trees, _,
              .member hspace hlegal hspace' hspace'' hspells hafter hspells', ?_, ?_, ?_, rfl, ?_⟩
            · exact List.forall_mem_cons.mpr ⟨hmember _ (List.mem_singleton_self _), hgood'⟩
            · refine List.nodup_cons.mpr ⟨fun hrepeated => ?_, hdistinct⟩
              exact hfresh _ hrepeated ExtTreeMap.mem_insert_self
            · refine List.forall_mem_cons.mpr ⟨hnew, fun other hother hold => ?_⟩
              exact hfresh other hother (ExtTreeMap.mem_insert.mpr (.inr hold))
            · have hall := hhead.append hreads'
              simpa using hall

theorem parse_sound (fuel : Nat) :
    (∀ {cursor value cursor'}, parseValue format fuel cursor = .ok (value, cursor') →
      ReadsValue format cursor value cursor') ∧
    (∀ {before cursor elements cursor'},
      parseElements format fuel before cursor = .ok (elements, cursor') →
        ReadsElements format before cursor elements cursor') ∧
    (∀ {before : MemberMap} {cursor members cursor'},
      parseMembers format fuel before.toList cursor = .ok (members, cursor') →
        ReadsMembers format before cursor members cursor') := by
  induction fuel with
  | zero => exact ⟨nofun, nofun, nofun⟩
  | succ fuel ih =>
      obtain ⟨hvalue, helements, hmembers⟩ := ih
      exact ⟨parseValue_sound helements hmembers, parseElements_sound hvalue helements,
        parseMembers_sound hvalue hmembers⟩

end Soundness

/-! ## Completeness -/

/-- White space, or a character that closes or separates values, ends a number. -/
def Delimits (c : UInt8) : Prop := isSpace c = true ∨ c = 0x2C ∨ c = 0x5D ∨ c = 0x7D

theorem Delimits.ends {c : UInt8} (h : Delimits c) :
    ¬ Json.IsDigit c ∧ c ≠ 0x2E ∧ c ≠ 0x65 ∧ c ≠ 0x45 := by
  rw [Delimits, isSpace_iff] at h
  rcases h with (rfl | rfl | rfl | rfl) | rfl | rfl | rfl <;> decide

theorem numberEnds_of_delimiter {cursor cursor' : Cursor} {space : ByteString} {c : UInt8}
    (hspace : Json.Space space) (hc : Delimits c) (hreads : Reads cursor (space ++ [c]) cursor') :
    NumberEnds cursor := by
  intro next hnext
  apply Delimits.ends
  rw [hreads.1] at hnext
  cases space with
  | nil =>
      cases hnext
      exact hc
  | cons octet space =>
      cases hnext
      exact .inl (isSpace_iff.mpr (hspace next (by simp)))

theorem noSpace_of_head {cursor : Cursor} {c : UInt8} {rest : ByteString}
    (h : cursor.rest = c :: rest) (hc : isSpace c = false) : NoSpace cursor := by
  intro next hnext
  rw [h] at hnext
  cases hnext
  exact hc

/-- A number starts with a minus sign or a digit. -/
theorem number_head {digits : ByteString} (h : Json.NumberLiteral digits) :
    ∃ c rest, digits = c :: rest ∧ (c = 0x2D ∨ Json.IsDigit c) := by
  obtain ⟨minus, integer, fraction, exponent, rfl, hminus, hinteger, -, -⟩ := h
  rcases hminus with rfl | rfl
  · rcases hinteger with rfl | ⟨hdigits, -⟩
    · exact ⟨_, _, rfl, .inr (by decide)⟩
    · obtain ⟨c, rest, rfl⟩ := List.exists_cons_of_ne_nil hdigits.1
      exact ⟨c, _, rfl, .inr (hdigits.2 c (by simp))⟩
  · exact ⟨_, _, rfl, .inl rfl⟩

private theorem number_head_plain {c : UInt8} (h : c = 0x2D ∨ Json.IsDigit c) :
    isSpace c = false ∧ c ≠ 0x7B ∧ c ≠ 0x5B ∧ c ≠ 0x22 ∧ c ≠ 0x5D := by
  rcases h with rfl | ⟨hlow, hhigh⟩
  · decide
  · have hother : ∀ octet : UInt8, ¬ (0x30 ≤ octet ∧ octet ≤ 0x39) → c ≠ octet := by
      rintro octet hoctet rfl
      exact hoctet ⟨hlow, hhigh⟩
    refine ⟨Bool.eq_false_iff.mpr fun hspace => ?_, hother _ (by decide), hother _ (by decide),
      hother _ (by decide), hother _ (by decide)⟩
    rcases isSpace_iff.mp hspace with h | h | h | h
    · exact hother _ (by decide) h
    · exact hother _ (by decide) h
    · exact hother _ (by decide) h
    · exact hother _ (by decide) h

/-- A value starts with a character that is neither white space nor a closing bracket. -/
theorem value_head {tree : Tree} {octets : ByteString}
    (h : Json.Spells rfc8259 (.value tree) octets) :
    ∃ c rest, octets = c :: rest ∧ isSpace c = false ∧ c ≠ 0x5D := by
  cases h with
  | null => exact ⟨_, _, rfl, by decide, by decide⟩
  | bool value => cases value <;> exact ⟨_, _, rfl, by decide, by decide⟩
  | number hnumber =>
      obtain ⟨c, rest, rfl, hc⟩ := number_head hnumber
      have hplain := number_head_plain hc
      exact ⟨c, rest, token_rfc8259 _, hplain.1, hplain.2.2.2.2⟩
  | string => exact ⟨_, _, literal_rfc8259 _, by decide, by decide⟩
  | emptyArray => exact ⟨_, _, rfl, by decide, by decide⟩
  | array => exact ⟨_, _, rfl, by decide, by decide⟩
  | emptyObject => exact ⟨_, _, rfl, by decide, by decide⟩
  | object => exact ⟨_, _, rfl, by decide, by decide⟩

theorem elements_head {trees : List Tree} {octets : ByteString}
    (h : Json.Spells rfc8259 (.elements trees) octets) :
    ∃ space c rest, Json.Space space ∧ octets = space ++ c :: rest ∧ isSpace c = false ∧
      c ≠ 0x5D := by
  cases h with
  | lastElement hbefore htree =>
      obtain ⟨c, rest, rfl, hc⟩ := value_head htree
      exact ⟨_, c, _, hbefore, by simp; rfl, hc⟩
  | element hbefore htree =>
      obtain ⟨c, rest, rfl, hc⟩ := value_head htree
      exact ⟨_, c, _, hbefore, by simp; rfl, hc⟩

theorem members_head {members : List Member} {octets : ByteString}
    (h : Json.Spells rfc8259 (.members members) octets) :
    ∃ space rest, Json.Space space ∧ octets = space ++ 0x22 :: rest := by
  cases h with
  | lastMember hbefore => exact ⟨_, _, hbefore, by simp [literal_rfc8259]; rfl⟩
  | member hbefore => exact ⟨_, _, hbefore, by simp [literal_rfc8259]; rfl⟩

/-! White space that was skipped already does not matter to the loops. -/

theorem skipSpace_idem (cursor : Cursor) : skipSpace (skipSpace cursor) = skipSpace cursor := by
  obtain ⟨-, -, -, hnext⟩ := reads_skipSpace cursor
  exact skipSpace_of_noSpace hnext

theorem parseValue_skipSpace (format : NumberFormat) (fuel : Nat) (cursor : Cursor) :
    parseValue format (fuel + 1) (skipSpace cursor) = parseValue format (fuel + 1) cursor := by
  unfold parseValue
  simp only [skipSpace_idem]

theorem parseElements_skipSpace (format : NumberFormat) (fuel : Nat) (before : List JsonValue)
    (cursor : Cursor) : parseElements format (fuel + 1 + 1) before (skipSpace cursor) =
      parseElements format (fuel + 1 + 1) before cursor := by
  unfold parseElements
  simp only [parseValue_skipSpace]

theorem parseMembers_skipSpace (format : NumberFormat) (fuel : Nat)
    (before : List (ByteString × JsonValue)) (cursor : Cursor) :
    parseMembers format (fuel + 1) before (skipSpace cursor) =
      parseMembers format (fuel + 1) before cursor := by
  unfold parseMembers
  simp only [skipSpace_idem]

section Completeness

variable (format : NumberFormat)

/-- The parser reads every text of the phrase, given enough fuel. -/
def Parses : Json.Phrase UInt8 → ByteString → Prop
  | .value tree, octets => Acceptable format tree →
      ∀ fuel space cursor cursor', Json.Space space → Reads cursor (space ++ octets) cursor' →
        NumberEnds cursor' → 2 * octets.length ≤ fuel →
        parseValue format fuel cursor = .ok (denote format tree, cursor')
  | .elements trees, octets => (∀ tree ∈ trees, Acceptable format tree) →
      ∀ fuel before cursor cursor', Reads cursor (octets ++ [0x5D]) cursor' →
        2 * octets.length + 1 ≤ fuel →
        parseElements format fuel before cursor =
          .ok (before ++ denoteElements format trees, cursor')
  | .members trees, octets => AcceptableMembers format trees → (memberKeys trees).Nodup →
      ∀ fuel (before : MemberMap) cursor cursor', (∀ key ∈ memberKeys trees, key ∉ before) →
        Reads cursor (octets ++ [0x7D]) cursor' → 2 * octets.length + 1 ≤ fuel →
        parseMembers format fuel before.toList cursor =
          .ok ((insertEntries before (denoteMembers format trees)).toList, cursor')

variable {format}

/-- One value, followed by a delimiter and the rest of an array. -/
theorem parseElements_step {tree : Tree} {octets before after : ByteString} {c : UInt8}
    (hbefore : Json.Space before) (hafter : Json.Space after) (hc : c = 0x5D ∨ c = 0x2C)
    (hvalue : Parses format (.value tree) octets) (hgood : Acceptable format tree) {fuel : Nat}
    {elements : List JsonValue} {cursor cursor' : Cursor}
    (hreads : Reads cursor (before ++ octets ++ (after ++ [c])) cursor')
    (hfuel : 2 * octets.length ≤ fuel) :
    parseElements format (fuel + 1) elements cursor =
      if c = 0x5D then .ok (elements ++ [denote format tree], cursor')
      else parseElements format fuel (elements ++ [denote format tree]) cursor' := by
  obtain ⟨afterValue, hvalueReads, hrest⟩ := hreads.split
  obtain ⟨afterSpace, hspaceReads, hseparator⟩ := hrest.split
  have hdelimits : Delimits c := by
    rcases hc with rfl | rfl
    · exact .inr (.inr (.inl rfl))
    · exact .inr (.inl rfl)
  have hnoSpace : NoSpace afterSpace := noSpace_of_head hseparator.1 (by
    rcases hc with rfl | rfl <;> decide)
  conv_lhs => unfold parseElements
  simp only [hvalue hgood fuel before cursor afterValue hbefore hvalueReads
    (numberEnds_of_delimiter hafter hdelimits hrest) hfuel,
    skipSpace_eq hafter hspaceReads hnoSpace, take_eq_ok.mpr hseparator, bind, Except.bind]
  rcases hc with rfl | rfl
  · rfl
  · rfl

/-- One member, followed by a delimiter and the rest of an object. -/
theorem parseMembers_step {key : List (Json.StringUnit UInt8)} {tree : Tree}
    {octets before colon colon' after : ByteString} {c : UInt8}
    (hbefore : Json.Space before) (hkey : Json.LegalUnits rfc8259 key) (hcolon : Json.Space colon)
    (hcolon' : Json.Space colon') (hafter : Json.Space after) (hc : c = 0x7D ∨ c = 0x2C)
    (hvalue : Parses format (.value tree) octets) (hgood : AcceptableMembers format [(key, tree)])
    {fuel : Nat} {members : MemberMap} {cursor cursor' : Cursor}
    (hnew : denoteString key ∉ members)
    (hreads : Reads cursor (before ++ Json.literal rfc8259 key ++ (colon ++ [0x3A] ++ colon')
      ++ octets ++ (after ++ [c])) cursor')
    (hfuel : 2 * octets.length ≤ fuel) :
    parseMembers format (fuel + 1) members.toList cursor =
      if c = 0x7D then .ok ((members.insert (denoteString key) (denote format tree)).toList,
        cursor')
      else parseMembers format fuel
        (members.insert (denoteString key) (denote format tree)).toList cursor' := by
  obtain ⟨hwellFormed, hpaired, hgood⟩ := hgood _ (List.mem_singleton_self _)
  obtain ⟨afterValue, hvalueReads, hrest⟩ := hreads.split
  obtain ⟨afterSpace, hspaceReads, hseparator⟩ := hrest.split
  rw [List.append_assoc, List.append_assoc, List.append_assoc, List.append_assoc] at hvalueReads
  obtain ⟨beforeKey, hbeforeReads, hvalueReads⟩ := hvalueReads.split
  obtain ⟨afterKey, hkeyReads, hvalueReads⟩ := hvalueReads.split
  obtain ⟨beforeColon, hcolonSpaceReads, hvalueReads⟩ := hvalueReads.split
  obtain ⟨afterColon, hcolonReads, hvalueReads⟩ := hvalueReads.split
  have hdelimits : Delimits c := by
    rcases hc with rfl | rfl
    · exact .inr (.inr (.inr rfl))
    · exact .inr (.inl rfl)
  have hquote : beforeKey.rest.head? = some 0x22 := by
    rw [hkeyReads.1, literal_rfc8259]
    rfl
  have hskip : skipSpace cursor = beforeKey :=
    skipSpace_eq hbefore hbeforeReads fun next hnext => by
    rw [hquote] at hnext
    cases hnext
    rfl
  have hskipColon : skipSpace afterKey = beforeColon :=
    skipSpace_eq hcolon hcolonSpaceReads (noSpace_of_head hcolonReads.1 rfl)
  have hskipAfter : skipSpace afterValue = afterSpace :=
    skipSpace_eq hafter hspaceReads (noSpace_of_head hseparator.1 (by
      rcases hc with rfl | rfl <;> decide))
  have hparseKey : parseString beforeKey = .ok (denoteString key, afterKey) :=
    parseString_eq_ok.mpr ⟨key, hkey, hpaired,
      (wellFormed_spellUnits_iff hkey hpaired).mp hwellFormed, rfl, hkeyReads⟩
  have hparseValue := hvalue hgood fuel colon' afterColon afterValue hcolon' hvalueReads
    (numberEnds_of_delimiter hafter hdelimits hrest) hfuel
  conv_lhs => unfold parseMembers
  simp only [hskip, hquote, hparseKey, hskipColon, take_eq_ok.mpr hcolonReads, hparseValue,
    emplace_toList, if_neg hnew, hskipAfter, take_eq_ok.mpr hseparator, bind, Except.bind]
  rcases hc with rfl | rfl
  · rfl
  · rfl

/-- A value is dispatched on its first character, after the white space before it. -/
theorem parses_value {tree : Tree} {octets : ByteString}
    (h : Json.Spells rfc8259 (.value tree) octets)
    (hparse : Acceptable format tree → ∀ fuel cursor cursor', skipSpace cursor = cursor →
      Reads cursor octets cursor' → NumberEnds cursor' → 2 * octets.length ≤ fuel + 1 →
      parseValue format (fuel + 1) cursor = .ok (denote format tree, cursor')) :
    Parses format (.value tree) octets := by
  intro hgood fuel space cursor cursor' hspace hreads hends hfuel
  obtain ⟨start, hspaceReads, hvalueReads⟩ := hreads.split
  obtain ⟨c, rest, rfl, hc, -⟩ := value_head h
  have hnext := noSpace_of_head hvalueReads.uncons.1 hc
  obtain ⟨fuel, rfl⟩ := Nat.exists_eq_succ_of_ne_zero (n := fuel) (by
    rw [List.length_cons] at hfuel
    omega)
  rw [← parseValue_skipSpace, skipSpace_eq hspace hspaceReads hnext]
  exact hparse hgood fuel start cursor' (skipSpace_of_noSpace hnext) hvalueReads hends hfuel

/-- A literal name that the text does not start with is not consumed. -/
theorem consume_other {cursor : Cursor} {c c' : UInt8} {rest value : ByteString}
    (h : cursor.rest = c :: rest) (hne : c ≠ c') : consume (c' :: value) cursor = none :=
  consume_eq_none fun _ hrest => hne (List.cons.inj (h.symm.trans hrest)).1

/-- What stands behind an opening bracket, after its white space. -/
theorem skipSpace_bracket {cursor cursor' : Cursor} {space octets rest : ByteString} {c : UInt8}
    (hspace : Json.Space space) (hoctets : octets = space ++ c :: rest) (hc : isSpace c = false)
    (hreads : Reads cursor octets cursor') :
    (skipSpace cursor).rest = c :: (rest ++ cursor'.rest) := by
  subst hoctets
  obtain ⟨inner, hspaceReads, hinner⟩ := hreads.split
  rw [skipSpace_eq hspace hspaceReads (noSpace_of_head hinner.uncons.1 hc), hinner.uncons.1]

theorem parse_complete {phrase : Json.Phrase UInt8} {octets : ByteString}
    (h : Json.Spells rfc8259 phrase octets) : Parses format phrase octets := by
  induction h with
  | null =>
      refine parses_value .null fun _ fuel cursor cursor' hskip hreads _ _ => ?_
      have hnull : consume (text "null") cursor = some cursor' := consume_eq_some.mpr hreads
      have htrue : consume (text "true") cursor = none :=
        consume_other hreads.uncons.1 (by decide)
      have hfalse : consume (text "false") cursor = none :=
        consume_other hreads.uncons.1 (by decide)
      unfold parseValue
      simp only [hskip, hreads.uncons.1, hnull, htrue, hfalse]
      rfl
  | bool value =>
      refine parses_value (.bool value) fun _ fuel cursor cursor' hskip hreads _ _ => ?_
      unfold parseValue
      cases value with
      | true =>
          have hreads : Reads cursor [0x74, 0x72, 0x75, 0x65] cursor' := hreads
          have htrue : consume (text "true") cursor = some cursor' := consume_eq_some.mpr hreads
          simp only [hskip, hreads.uncons.1, htrue]
          rfl
      | false =>
          have hreads : Reads cursor [0x66, 0x61, 0x6C, 0x73, 0x65] cursor' := hreads
          have hfalse : consume (text "false") cursor = some cursor' := consume_eq_some.mpr hreads
          have htrue : consume (text "true") cursor = none :=
            consume_other hreads.uncons.1 (by decide)
          simp only [hskip, hreads.uncons.1, hfalse, htrue]
          rfl
  | @number digits hnumber =>
      refine parses_value (.number hnumber) fun hgood fuel cursor cursor' hskip hreads hends _ => ?_
      rw [token_rfc8259] at hreads
      obtain ⟨c, rest, hdigits, hc⟩ := number_head hnumber
      have hparse := parseNumber_complete hnumber (acceptable_number.mp hgood) hreads hends
      obtain ⟨-, hbrace, hbracket, hquote, -⟩ := number_head_plain hc
      have hfirst : (decide (c = 0x2D) || isDigit c) = true := by
        rcases hc with rfl | hdigit
        · rfl
        · rw [isDigit_iff.mpr hdigit, Bool.or_true]
      rw [hdigits] at hreads
      unfold parseValue
      simp only [hskip, hreads.uncons.1, hparse, if_neg hbrace, if_neg hbracket, if_neg hquote]
      rw [if_pos hfirst]
      rfl
  | @string units hunits =>
      refine parses_value (.string hunits) fun hgood fuel cursor cursor' hskip hreads _ _ => ?_
      obtain ⟨hwellFormed, hpaired⟩ := acceptable_string.mp hgood
      have hparse : parseString cursor = .ok (denoteString units, cursor') :=
        parseString_eq_ok.mpr ⟨units, hunits, hpaired,
          (wellFormed_spellUnits_iff hunits hpaired).mp hwellFormed, rfl, hreads⟩
      rw [literal_rfc8259] at hreads
      unfold parseValue
      simp only [hskip, hreads.uncons.1, hparse]
      rfl
  | @emptyArray space hspace =>
      refine parses_value (.emptyArray hspace) fun _ fuel cursor cursor' hskip hreads _ _ => ?_
      have hreads : Reads cursor (0x5B :: (space ++ [0x5D])) cursor' := by simpa using hreads
      obtain ⟨hrest, hreads⟩ := hreads.uncons
      obtain ⟨inner, hspaceReads, hclose⟩ := hreads.split
      have hinner := skipSpace_eq hspace hspaceReads (noSpace_of_head hclose.1 rfl)
      have hconsume : consume (text "]") inner = some cursor' := consume_eq_some.mpr hclose
      unfold parseValue
      simp only [hskip, hrest, hinner, hconsume]
      rfl
  | @array trees text helements ih =>
      refine parses_value (.array helements)
        fun hgood fuel cursor cursor' hskip hreads _ hfuel => ?_
      obtain ⟨space, c, rest, hspace, htext, hc, hne⟩ := elements_head helements
      have hreads : Reads cursor (0x5B :: (text ++ [0x5D])) cursor' := by simpa using hreads
      obtain ⟨hrest, hreads⟩ := hreads.uncons
      have hinner := skipSpace_bracket hspace
        (show text ++ [0x5D] = space ++ c :: (rest ++ [0x5D]) by simp [htext]) hc hreads
      have hconsume : consume (Cpp.text "]") (skipSpace (cursor.advance 1)) = none :=
        consume_other hinner hne
      simp only [token_rfc8259, List.length_append, List.length_singleton] at hfuel
      obtain ⟨fuel, rfl⟩ : ∃ n, fuel = n + 1 + 1 := ⟨fuel - 2, by
        rw [htext, List.length_append, List.length_cons] at hfuel
        omega⟩
      have hparse := ih (acceptable_array.mp hgood) (fuel + 1 + 1) [] _ _ hreads (by omega)
      rw [← parseElements_skipSpace] at hparse
      unfold parseValue
      simp only [hskip, hrest, hconsume, hparse]
      rfl
  | @emptyObject space hspace =>
      refine parses_value (.emptyObject hspace) fun _ fuel cursor cursor' hskip hreads _ _ => ?_
      have hreads : Reads cursor (0x7B :: (space ++ [0x7D])) cursor' := by simpa using hreads
      obtain ⟨hrest, hreads⟩ := hreads.uncons
      obtain ⟨inner, hspaceReads, hclose⟩ := hreads.split
      have hinner := skipSpace_eq hspace hspaceReads (noSpace_of_head hclose.1 rfl)
      have hconsume : consume (text "\x7d") inner = some cursor' := consume_eq_some.mpr hclose
      unfold parseValue
      simp only [hskip, hrest, hinner, hconsume]
      rfl
  | @object members text hmembers ih =>
      refine parses_value (.object hmembers)
        fun hgood fuel cursor cursor' hskip hreads _ hfuel => ?_
      obtain ⟨hgood, hdistinct⟩ := acceptable_object.mp hgood
      obtain ⟨space, rest, hspace, htext⟩ := members_head hmembers
      have hreads : Reads cursor (0x7B :: (text ++ [0x7D])) cursor' := by simpa using hreads
      obtain ⟨hrest, hreads⟩ := hreads.uncons
      have hinner := skipSpace_bracket hspace
        (show text ++ [0x7D] = space ++ 0x22 :: (rest ++ [0x7D]) by simp [htext]) rfl hreads
      have hconsume : consume (Cpp.text "\x7d") (skipSpace (cursor.advance 1)) = none :=
        consume_other hinner (by decide)
      simp only [token_rfc8259, List.length_append, List.length_singleton] at hfuel
      obtain ⟨fuel, rfl⟩ : ∃ n, fuel = n + 1 := ⟨fuel - 1, by
        rw [htext, List.length_append, List.length_cons] at hfuel
        omega⟩
      have hparse := ih hgood hdistinct (fuel + 1) ∅ _ _ nofun hreads (by omega)
      rw [← parseMembers_skipSpace] at hparse
      have hempty : (∅ : MemberMap).toList = [] := rfl
      rw [hempty] at hparse
      unfold parseValue
      simp only [hskip, hrest, hconsume, hparse]
      rfl
  | @lastElement tree before after octets hbefore htree hafter ih =>
      intro hgood fuel elements cursor cursor' hreads hfuel
      simp only [token_rfc8259, List.length_append] at hreads hfuel
      obtain ⟨fuel, rfl⟩ := Nat.exists_eq_succ_of_ne_zero (n := fuel) (by omega)
      rw [List.append_assoc] at hreads
      rw [parseElements_step hbefore hafter (.inl rfl) ih (hgood tree (List.mem_singleton_self _))
        hreads (by omega), if_pos rfl]
      rfl
  | @element tree trees before after octets rest hbefore htree hafter hrest ihtree ihrest =>
      intro hgood fuel elements cursor cursor' hreads hfuel
      simp only [token_rfc8259, List.length_append, List.length_singleton] at hreads hfuel
      obtain ⟨hgood, hgoods⟩ := List.forall_mem_cons.mp hgood
      obtain ⟨fuel, rfl⟩ := Nat.exists_eq_succ_of_ne_zero (n := fuel) (by omega)
      rw [List.append_assoc] at hreads
      obtain ⟨middle, hhead, htail⟩ := hreads.split
      rw [parseElements_step hbefore hafter (.inr rfl) ihtree hgood hhead (by omega),
        if_neg (by decide), ihrest hgoods fuel _ _ _ htail (by omega), List.append_assoc]
      rfl
  | @lastMember key tree before colon colon' after octets hbefore hkey hcolon hcolon' htree hafter
      ih =>
      intro hgood hdistinct fuel members cursor cursor' hnew hreads hfuel
      simp only [token_rfc8259, List.length_append] at hreads hfuel
      obtain ⟨fuel, rfl⟩ := Nat.exists_eq_succ_of_ne_zero (n := fuel) (by omega)
      rw [List.append_assoc] at hreads
      rw [parseMembers_step hbefore hkey hcolon hcolon' hafter (.inl rfl) ih hgood
        (hnew _ (List.mem_singleton_self _)) hreads (by omega), if_pos rfl]
      rfl
  | @member key tree members before colon colon' after octets rest hbefore hkey hcolon hcolon' htree
      hafter hrest ihtree ihrest =>
      intro hgood hdistinct fuel map cursor cursor' hnew hreads hfuel
      simp only [token_rfc8259, List.length_append, List.length_singleton] at hreads hfuel
      obtain ⟨hgood, hgoods⟩ := List.forall_mem_cons.mp hgood
      obtain ⟨hkeyNew, hnew⟩ := List.forall_mem_cons.mp hnew
      obtain ⟨hkeyOnce, hdistinct⟩ := List.nodup_cons.mp hdistinct
      obtain ⟨fuel, rfl⟩ := Nat.exists_eq_succ_of_ne_zero (n := fuel) (by omega)
      rw [List.append_assoc] at hreads
      obtain ⟨middle, hhead, htail⟩ := hreads.split
      rw [parseMembers_step hbefore hkey hcolon hcolon' hafter (.inr rfl) ihtree
        (List.forall_mem_singleton.mpr hgood) hkeyNew hhead (by omega), if_neg (by decide)]
      refine ihrest hgoods hdistinct fuel _ _ _ (fun other hother hold => ?_) htail (by omega)
      rcases ExtTreeMap.mem_insert.mp hold with heq | hold
      · rw [← LawfulEqCmp.eq_of_compare heq] at hother
        exact hkeyOnce hother
      · exact hnew other hother hold

end Completeness

/-! ## Termination

Each level of the recursion is entered with less text than the last but one, so
past a bound the fuel does not matter. -/

section Termination

variable {format : NumberFormat}

theorem take_length {c : UInt8} {cursor cursor' : Cursor} (h : take cursor = .ok (c, cursor')) :
    cursor.rest.length = cursor'.rest.length + 1 := by
  rw [(take_eq_ok.mp h).length, List.length_singleton, Nat.add_comm]

end Termination

/-! ## The language -/

section Language

variable {format : NumberFormat} {document : ByteString} {value : JsonValue}

theorem numberEnds_of_space {cursor cursor' : Cursor} {space : ByteString}
    (hspace : Json.Space space) (hreads : Reads cursor space cursor') (hend : cursor'.rest = []) :
    NumberEnds cursor := by
  intro next hnext
  apply Delimits.ends
  rw [hreads.1, hend, List.append_nil] at hnext
  exact .inl (isSpace_iff.mpr (hspace next (List.mem_of_mem_head? hnext)))

theorem parseJson_eq_ok :
    parseJson format document = .ok value ↔
      ∃ tree, Json.IsText rfc8259 tree document ∧ Acceptable format tree ∧
        denote format tree = value := by
  unfold parseJson parseWithin
  rw [bind_eq_ok]
  constructor
  · rintro ⟨⟨value, cursor⟩, hparse, h⟩
    rw [parseValue_skipSpace] at hparse
    obtain ⟨space, tree, octets, hspace, hspells, hgood, rfl, hreads⟩ := (parse_sound _).1 hparse
    obtain ⟨after, hafter, hafterReads, -⟩ := reads_skipSpace cursor
    simp only at h
    split at h
    next => cases h
    next hend =>
      cases h
      have hempty : (skipSpace cursor).rest = [] := by simpa using hend
      have hdocument := (hreads.append hafterReads).1
      rw [hempty, List.append_nil] at hdocument
      refine ⟨tree, ⟨space, octets, after, ?_, hspace, hspells, hafter⟩, hgood, rfl⟩
      rw [token_rfc8259, token_rfc8259]
      exact hdocument
  · rintro ⟨tree, ⟨before, octets, after, hdocument, hbefore, hspells, hafter⟩, hgood, rfl⟩
    rw [token_rfc8259, token_rfc8259] at hdocument
    have hall : Reads ⟨document, 0⟩ (before ++ octets ++ after) ⟨[], document.length⟩ := by
      refine ⟨by simp [hdocument], ?_⟩
      rw [hdocument, Nat.zero_add]
    obtain ⟨cursor, hreads, hafterReads⟩ := hall.split
    have hskip : skipSpace cursor = ⟨[], document.length⟩ := skipSpace_eq hafter hafterReads nofun
    refine ⟨(denote format tree, cursor), ?_, ?_⟩
    · rw [parseValue_skipSpace]
      refine parse_complete hspells hgood _ before _ _ hbefore hreads
        (numberEnds_of_space hafter hafterReads rfl) ?_
      have hlength : document.length = before.length + octets.length + after.length := by
        rw [hdocument, List.length_append, List.length_append]
      omega
    · simp only [hskip]
      rfl

end Language

end DynamicProperties.Cpp
