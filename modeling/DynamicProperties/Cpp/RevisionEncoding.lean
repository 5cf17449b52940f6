import Mathlib.Data.Prod.Basic
import DynamicProperties.Library.Spelling
import DynamicProperties.Cpp.Snapshot

/-!
# What the revision encoding tells apart

`calculateRevision` feeds its fold keys of any length next to the eight bytes of
a value hash, without a length or a separator.  The properties of a collection
are therefore spelled as tagged words, and the encoding loses content exactly
where a spelling does: when a key is another key continued over the bytes of its
hash.  A key with such bytes passes `validateKey` whenever they happen to be
UTF-8 without NUL.
-/

namespace DynamicProperties.Cpp

open Std
open DynamicProperties.Library.Spelling

/-- A state of a collection: whether it exists, and what it holds. -/
structure CollectionState where
  exists_ : Bool
  properties : DynamicPropertyMap

/-- Every key and every value passes its validator. -/
def CollectionState.Valid (state : CollectionState) (limits : ValidationLimits) : Prop :=
  ∀ entry ∈ state.properties.toList,
    (validateKey entry.1 limits).valid = true ∧ (validateValue entry.2 limits).valid = true

instance (state : CollectionState) (limits : ValidationLimits) : Decidable (state.Valid limits) :=
  inferInstanceAs (Decidable (∀ entry ∈ state.properties.toList, _))

/-- The map from keys to the hashes of their values. -/
def hashAt (properties : DynamicPropertyMap) (key : ByteString) : Option UInt64 :=
  (properties[key]?).map hashValue

/-- Each key, in order, with the bytes of its hash. -/
def hashedEntries (properties : DynamicPropertyMap) : List (Entry UInt8) :=
  properties.toList.map fun entry => (entry.1, littleEndian (hashValue entry.2))

theorem propertyBytes_eq_spell (properties : DynamicPropertyMap) :
    propertyBytes properties = spell (hashedEntries properties) := by
  simp only [propertyBytes, spell, hashedEntries, List.flatMap_map]

theorem tagLength_hashedEntries (properties : DynamicPropertyMap) :
    TagLength 8 (hashedEntries properties) := by
  intro entry hentry
  obtain ⟨property, -, rfl⟩ := List.mem_map.mp hentry
  exact littleEndian_length _

/-- The entries hold what the map from keys to hashes does. -/
theorem hashedEntries_eq_iff (properties properties' : DynamicPropertyMap) :
    hashedEntries properties = hashedEntries properties' ↔
      hashAt properties = hashAt properties' := by
  let hashes (p : DynamicPropertyMap) := p.map fun _ value => hashValue value
  have hentries : ∀ p, hashedEntries p =
      (hashes p).toList.map (Prod.map id littleEndian) := by
    intro p
    simp only [hashes, hashedEntries, ExtTreeMap.toList_map, List.map_map]
    rfl
  have hlookup : ∀ p, hashAt p = fun key => (hashes p)[key]? := by
    intro p
    funext key
    simp only [hashes, hashAt, ExtTreeMap.getElem?_map]
  rw [hentries, hentries, hlookup, hlookup]
  constructor
  · intro h
    have hinjective : Function.Injective (Prod.map (id : ByteString → ByteString) littleEndian) :=
      Function.injective_id.prodMap littleEndian_injective
    have hlists := List.map_injective_iff.mpr hinjective h
    rw [ExtTreeMap.ext_toList (List.Perm.of_eq hlists)]
  · intro h
    rw [ExtTreeMap.ext_getElem? fun key => congrFun h key]

/-- The input of the fold determines the existence word and the property bytes. -/
theorem revisionInput_eq_iff (ref : CollectionRef) (state state' : CollectionState) :
    revisionInput ref state.exists_ state.properties =
        revisionInput ref state'.exists_ state'.properties ↔
      state.exists_ = state'.exists_ ∧
        propertyBytes state.properties = propertyBytes state'.properties := by
  constructor
  · intro h
    simp only [revisionInput, List.append_assoc] at h
    have hrest := List.append_cancel_left (List.append_cancel_left h)
    obtain ⟨hword, hbytes⟩ := List.append_inj hrest (by
      rw [littleEndian_length, littleEndian_length])
    refine ⟨?_, hbytes⟩
    have hflag := littleEndian_injective hword
    revert hflag
    cases state.exists_ <;> cases state'.exists_ <;> decide
  · rintro ⟨hflag, hbytes⟩
    rw [revisionInput, revisionInput, hflag, hbytes]

/-- Both states exist or neither does, and at the first property where they
differ, the key of one is the key of the other continued over the hash of its
value, and perhaps over properties after it. -/
def Ambiguous (state state' : CollectionState) : Prop :=
  state.exists_ = state'.exists_ ∧
    (Continues (hashedEntries state.properties) (hashedEntries state'.properties) ∨
      Continues (hashedEntries state'.properties) (hashedEntries state.properties))

/-- Then one of the two holds a key that is a key of the other, followed at least
by the first byte of its hash. -/
theorem Ambiguous.overlaps {state state' : CollectionState} (h : Ambiguous state state') :
    ∃ p p' : DynamicPropertyMap,
      (p = state.properties ∧ p' = state'.properties ∨
        p = state'.properties ∧ p' = state.properties) ∧
      ∃ entry ∈ p.toList, ∃ entry' ∈ p'.toList, ∃ byte,
        (littleEndian (hashValue entry.2)).head? = some byte ∧
          entry.1 ++ [byte] <+: entry'.1 := by
  have hoverlap : ∀ p p' : DynamicPropertyMap, Continues (hashedEntries p) (hashedEntries p') →
      ∃ entry ∈ p.toList, ∃ entry' ∈ p'.toList, ∃ byte,
        (littleEndian (hashValue entry.2)).head? = some byte ∧
          entry.1 ++ [byte] <+: entry'.1 := by
    intro p p' hcontinues
    obtain ⟨word, hword, word', hword', byte, hbyte, hstarts⟩ :=
      hcontinues.overlaps (by omega) (tagLength_hashedEntries p)
    obtain ⟨entry, hentry, rfl⟩ := List.mem_map.mp hword
    obtain ⟨entry', hentry', rfl⟩ := List.mem_map.mp hword'
    exact ⟨entry, hentry, entry', hentry', byte, hbyte, hstarts⟩
  rcases h.2 with hc | hc
  · exact ⟨_, _, Or.inl ⟨rfl, rfl⟩, hoverlap _ _ hc⟩
  · exact ⟨_, _, Or.inr ⟨rfl, rfl⟩, hoverlap _ _ hc⟩

/-- **The encoding tells two states apart exactly when they are not ambiguous.** -/
theorem encoding_distinguishes_iff (ref : CollectionRef) (state state' : CollectionState) :
    (state.exists_ ≠ state'.exists_ ∨ hashAt state.properties ≠ hashAt state'.properties →
      revisionInput ref state.exists_ state.properties ≠
        revisionInput ref state'.exists_ state'.properties) ↔
    ¬ Ambiguous state state' := by
  have hspell : hashedEntries state.properties ≠ hashedEntries state'.properties →
      (propertyBytes state.properties = propertyBytes state'.properties ↔
        Continues (hashedEntries state.properties) (hashedEntries state'.properties) ∨
          Continues (hashedEntries state'.properties) (hashedEntries state.properties)) := by
    intro hne
    rw [propertyBytes_eq_spell, propertyBytes_eq_spell]
    exact spell_eq_iff (by omega) (tagLength_hashedEntries _) (tagLength_hashedEntries _) hne
  constructor
  · rintro hdistinct ⟨hflag, hcontinues⟩
    have hne : hashedEntries state.properties ≠ hashedEntries state'.properties := by
      rcases hcontinues with h | h
      · exact h.ne
      · exact h.ne.symm
    have hhashes : hashAt state.properties ≠ hashAt state'.properties := fun h =>
      hne ((hashedEntries_eq_iff _ _).mpr h)
    exact hdistinct (Or.inr hhashes)
      ((revisionInput_eq_iff ref state state').mpr ⟨hflag, (hspell hne).mpr hcontinues⟩)
  · intro hnot hdiffer hinput
    obtain ⟨hflag, hbytes⟩ := (revisionInput_eq_iff ref state state').mp hinput
    rcases hdiffer with h | h
    · exact h hflag
    · have hne : hashedEntries state.properties ≠ hashedEntries state'.properties := fun heq =>
        h ((hashedEntries_eq_iff _ _).mp heq)
      exact hnot ⟨hflag, (hspell hne).mp hbytes⟩

/-- Two properties: `a` with the string `bad`, whose hash is ASCII, and `b`. -/
def spelledApart : CollectionState where
  exists_ := true
  properties :=
    ((∅ : DynamicPropertyMap).insert (text "a") (.string (text "bad"))).insert (text "b")
      (.bool true)

/-- One property, whose key spells the first one and the hash of its value. -/
def spelledTogether : CollectionState where
  exists_ := true
  properties :=
    (∅ : DynamicPropertyMap).insert
      (text "a" ++ [0x69, 0x1B, 0x77, 0x0C, 0x2F, 0x73, 0x3B, 0x5C] ++ text "b") (.bool true)

/-- Both pass validation and hold different keys; the fold gets the same bytes,
so they share their revision. -/
theorem spelledTogether_encoding :
    spelledApart.Valid {} ∧ spelledTogether.Valid {} ∧
      hashAt spelledApart.properties ≠ hashAt spelledTogether.properties ∧
      ∀ ref, revisionInput ref spelledApart.exists_ spelledApart.properties =
          revisionInput ref spelledTogether.exists_ spelledTogether.properties ∧
        (makeSnapshot ref spelledApart.properties).revision =
          (makeSnapshot ref spelledTogether.properties).revision := by
  refine ⟨by decide, by decide, ?_, ?_⟩
  · intro h
    have hkey := congrFun h (text "b")
    revert hkey
    decide
  · intro ref
    have hinput : revisionInput ref true spelledApart.properties =
        revisionInput ref true spelledTogether.properties :=
      (revisionInput_eq_iff ref spelledApart spelledTogether).mpr ⟨rfl, by decide⟩
    refine ⟨hinput, ?_⟩
    rw [makeSnapshot_revision, makeSnapshot_revision, hinput]

end DynamicProperties.Cpp
