import Mathlib.Data.List.DropRight
import DynamicProperties.Library.Spelling
import DynamicProperties.Library.Trim
import DynamicProperties.Cpp.Operations

/-!
# Plugin namespaces and target validation

`access_policy.h` and `access_policy.cpp`.  A policy stores the configured
prefix only; `prefix_` is the normalized one the constructor keeps, so a policy
with an unnormalized or empty prefix cannot be built.

The one fact other modules need is `eq_of_pluginPrefix_isPrefix`: a normalized
identifier contains no colon, so two plugin prefixes that both start a
collection name belong to the same normalized identifier.

Two plugins therefore share collections exactly when their identifiers normalize
alike (`shares_iff`), and identifiers that are already spelled in normalized
characters do so when they differ in underscores at their ends only.
-/

namespace DynamicProperties.Cpp

open Std
open DynamicProperties.Library

/-- The colon that separates the parts of a plugin collection name. -/
def colon : UInt8 := 0x3A

def underscore : UInt8 := 0x5F

/-- One character of `normalize`. -/
def normalizeByte (c : UInt8) : UInt8 :=
  if (0x61 ≤ c && c ≤ 0x7A) || (0x30 ≤ c && c ≤ 0x39) || c = 0x2D || c = underscore
      || c = 0x2E then c
  else if 0x41 ≤ c && c ≤ 0x5A then c - 0x41 + 0x61
  else underscore

/-- `normalize`: map every byte, then trim underscores at the front and at the
back. -/
def normalize (value : ByteString) : ByteString :=
  ((value.map normalizeByte).dropWhile (· = underscore)).rdropWhile (· = underscore)

/-- `DynamicPropertyAccessPolicy`, by the prefix it was constructed with. -/
structure DynamicPropertyAccessPolicy where
  configured : ByteString := text "endstone-plugin"
  deriving DecidableEq

/-- The prefix the constructor stores. -/
def DynamicPropertyAccessPolicy.prefix_ (policy : DynamicPropertyAccessPolicy) : ByteString :=
  let normalized := normalize policy.configured
  if normalized.isEmpty then text "endstone-plugin" else normalized

namespace DynamicPropertyAccessPolicy

variable (policy : DynamicPropertyAccessPolicy)

def pluginPrefix (pluginId : ByteString) : ByteString :=
  let normalized := normalize pluginId
  if normalized.isEmpty then []
  else policy.prefix_ ++ [colon] ++ normalized ++ [colon]

def pluginCollection (pluginId logicalCollection : ByteString) : ByteString :=
  let pluginPrefix := policy.pluginPrefix pluginId
  let logical := normalize logicalCollection
  if pluginPrefix.isEmpty || logical.isEmpty then [] else pluginPrefix ++ logical

def canAccess (context : AccessContext) (ref : CollectionRef) : Bool :=
  if context.rawAdmin then true
  else
    let pluginPrefix := policy.pluginPrefix context.pluginId
    !pluginPrefix.isEmpty && pluginPrefix.isPrefixOf ref.collection

def canListRawCollections (context : AccessContext) : Bool :=
  context.rawAdmin

end DynamicPropertyAccessPolicy

/-- The checks of a player-item target: an XUID, the expected section, a
non-negative slot. -/
def validatePlayerItem (target : DynamicPropertyTarget) (expected : InventorySection)
    (missingXuid badSlot : ByteString) : Option ByteString :=
  if target.xuid.isEmpty then some missingXuid
  else if target.inventorySection ≠ expected ∨ target.slot < 0 then some badSlot
  else none

def validateTarget (target : DynamicPropertyTarget) : Option ByteString :=
  if target.worldId.isEmpty then some (text "world id must not be empty")
  else match target.kind with
    | .world => none
    | .onlinePlayer | .offlinePlayer =>
        if target.xuid.isEmpty then some (text "player target requires an XUID") else none
    | .loadedEntity | .storedEntity =>
        if target.entityId.isEmpty then
          some (text "entity target requires an entity identifier")
        else none
    | .playerInventorySlot =>
        validatePlayerItem target .main (text "inventory target requires an XUID")
          (text "main inventory target requires a non-negative main slot")
    | .playerArmorSlot =>
        validatePlayerItem target .armor (text "armor target requires an XUID")
          (text "armor target requires a non-negative armor slot")
    | .playerOffhandSlot =>
        validatePlayerItem target .offhand (text "offhand target requires an XUID")
          (text "offhand target requires a non-negative offhand slot")
    | .playerEnderChestSlot =>
        validatePlayerItem target .enderChest (text "Ender Chest target requires an XUID")
          (text "Ender Chest target requires a non-negative slot")
    | .blockContainerSlot =>
        if target.block.isNone then
          some (text "block-container target requires a block location")
        else if target.inventorySection ≠ .blockContainer ∨ target.slot < 0 then
          some (text "block-container target requires a non-negative slot")
        else none
    | .droppedItem =>
        if target.itemEntityId.isEmpty then
          some (text "dropped-item target requires an entity identifier")
        else none
    | .blockEntity =>
        if target.block.isNone then
          some (text "block-entity target requires a block location")
        else none

/-! ## Normalized identifiers and prefixes -/

theorem normalizeByte_ne_colon (c : UInt8) : normalizeByte c ≠ colon := by
  unfold normalizeByte colon underscore
  split
  · rename_i h
    intro hc
    subst hc
    exact absurd h (by decide)
  split
  · rename_i h
    intro hc
    have hc' : c = 0x3A - 0x61 + 0x41 := by
      rw [← hc, UInt8.add_sub_cancel, UInt8.sub_add_cancel]
    subst hc'
    exact absurd h (by decide)
  · decide

theorem colon_notMem_normalize (value : ByteString) : colon ∉ normalize value := by
  intro hmem
  have hdrop := List.IsPrefix.mem hmem (List.rdropWhile_prefix _ _)
  have hmap := List.IsSuffix.mem hdrop (List.dropWhile_suffix _)
  obtain ⟨c, _, hc⟩ := List.mem_map.mp hmap
  exact normalizeByte_ne_colon c hc

section Prefixes

variable {policy : DynamicPropertyAccessPolicy}

theorem pluginPrefix_of_ne_nil {pluginId : ByteString} (h : normalize pluginId ≠ []) :
    policy.pluginPrefix pluginId = policy.prefix_ ++ [colon] ++ normalize pluginId ++ [colon] := by
  simp [DynamicPropertyAccessPolicy.pluginPrefix, h]

theorem pluginPrefix_ne_nil_iff {pluginId : ByteString} :
    policy.pluginPrefix pluginId ≠ [] ↔ normalize pluginId ≠ [] := by
  by_cases h : normalize pluginId = []
  · simp [DynamicPropertyAccessPolicy.pluginPrefix, h]
  · simp [pluginPrefix_of_ne_nil h, h]

/-- Non-empty plugin prefixes are prefix-free up to normalization. -/
theorem eq_of_pluginPrefix_isPrefix {p q name : ByteString}
    (hp : policy.pluginPrefix p ≠ []) (hq : policy.pluginPrefix q ≠ [])
    (hpn : policy.pluginPrefix p <+: name) (hqn : policy.pluginPrefix q <+: name) :
    normalize p = normalize q := by
  have hp' := pluginPrefix_ne_nil_iff.mp hp
  have hq' := pluginPrefix_ne_nil_iff.mp hq
  rw [pluginPrefix_of_ne_nil hp', List.append_assoc] at hpn
  rw [pluginPrefix_of_ne_nil hq', List.append_assoc] at hqn
  obtain ⟨s, hs⟩ := hpn
  obtain ⟨t, ht⟩ := hqn
  have heq := hs.trans ht.symm
  simp only [List.append_assoc] at heq
  have htail := List.append_cancel_left (List.append_cancel_left heq)
  simp only [← List.append_assoc] at htail
  exact Spelling.eq_of_closed_isPrefix (colon_notMem_normalize p) (colon_notMem_normalize q)
    (List.prefix_append _ s) (htail ▸ List.prefix_append _ t)

/-- What an accepted collection means for a plugin without raw access. -/
theorem canAccess_iff {context : AccessContext} {ref : CollectionRef}
    (hadmin : context.rawAdmin = false) :
    policy.canAccess context ref = true ↔
      policy.pluginPrefix context.pluginId ≠ [] ∧
        policy.pluginPrefix context.pluginId <+: ref.collection := by
  simp [DynamicPropertyAccessPolicy.canAccess, hadmin]

/-! ## Who shares a namespace -/

/-- Two plugins without raw access share a collection exactly when their
identifiers normalize to the same name. -/
theorem shares_iff {first second : AccessContext} (hfirst : first.rawAdmin = false)
    (hsecond : second.rawAdmin = false) :
    (∃ ref, policy.canAccess first ref = true ∧ policy.canAccess second ref = true) ↔
      normalize first.pluginId = normalize second.pluginId ∧ normalize first.pluginId ≠ [] := by
  constructor
  · rintro ⟨ref, hp, hq⟩
    obtain ⟨hpne, hpn⟩ := (canAccess_iff hfirst).mp hp
    obtain ⟨hqne, hqn⟩ := (canAccess_iff hsecond).mp hq
    exact ⟨eq_of_pluginPrefix_isPrefix hpne hqne hpn hqn, pluginPrefix_ne_nil_iff.mp hpne⟩
  · rintro ⟨hsame, hne⟩
    have hnames : policy.pluginPrefix first.pluginId = policy.pluginPrefix second.pluginId := by
      simp only [DynamicPropertyAccessPolicy.pluginPrefix, hsame]
    have hpne : policy.pluginPrefix first.pluginId ≠ [] := pluginPrefix_ne_nil_iff.mpr hne
    refine ⟨⟨{}, policy.pluginPrefix first.pluginId⟩, (canAccess_iff hfirst).mpr ⟨hpne, ?_⟩,
      (canAccess_iff hsecond).mpr ⟨hnames ▸ hpne, ?_⟩⟩
    · exact List.prefix_refl _
    · show policy.pluginPrefix second.pluginId <+: policy.pluginPrefix first.pluginId
      exact hnames ▸ List.prefix_refl _

/-- The characters `normalize` leaves alone. -/
def IsKept (c : UInt8) : Prop :=
  (0x61 ≤ c ∧ c ≤ 0x7A) ∨ (0x30 ≤ c ∧ c ≤ 0x39) ∨ c = 0x2E ∨ c = underscore ∨ c = 0x2D

instance (c : UInt8) : Decidable (IsKept c) := inferInstanceAs (Decidable (_ ∨ _))

theorem normalizeByte_of_isKept {c : UInt8} (h : IsKept c) : normalizeByte c = c := by
  unfold normalizeByte
  rw [if_pos]
  rcases h with h | h | h | h | h <;> simp [h]

/-- What is left of an identifier without the underscores at its ends. -/
def withoutEnds (pluginId : ByteString) : ByteString :=
  Trim.trim (· = underscore) pluginId

theorem normalize_of_isKept {pluginId : ByteString} (h : ∀ c ∈ pluginId, IsKept c) :
    normalize pluginId = withoutEnds pluginId := by
  have hsame : pluginId.map normalizeByte = pluginId := by
    rw [List.map_congr_left fun c hc => normalizeByte_of_isKept (h c hc), List.map_id']
  unfold normalize
  rw [hsame]
  rfl

/-- **Plugins with identifiers in normalized characters own disjoint namespaces
exactly when the identifiers differ in more than underscores at their ends.** -/
theorem namespaces_disjoint_iff {first second : AccessContext} (hfirst : first.rawAdmin = false)
    (hsecond : second.rawAdmin = false) (hkeptFirst : ∀ c ∈ first.pluginId, IsKept c)
    (hkeptSecond : ∀ c ∈ second.pluginId, IsKept c)
    (hnamedFirst : ∃ c ∈ first.pluginId, c ≠ underscore) :
    (∀ ref, ¬ (policy.canAccess first ref = true ∧ policy.canAccess second ref = true)) ↔
      withoutEnds first.pluginId ≠ withoutEnds second.pluginId := by
  have hne : normalize first.pluginId ≠ [] := by
    rw [normalize_of_isKept hkeptFirst, withoutEnds, Ne, Trim.trim_eq_nil_iff]
    obtain ⟨c, hc, hnot⟩ := hnamedFirst
    exact fun hall => hnot (by simpa using hall c hc)
  rw [← normalize_of_isKept hkeptFirst, ← normalize_of_isKept hkeptSecond, ← not_exists,
    shares_iff hfirst hsecond, Ne, not_iff_not]
  exact ⟨And.left, fun hsame => ⟨hsame, hne⟩⟩

end Prefixes

def guild : AccessContext := { pluginId := text "guild" }

/-- Another plugin, by its identifier. -/
def underscoredGuild : AccessContext := { pluginId := text "_guild" }

/-- The equivalence for these two. -/
theorem namespaces_disjoint_iff_guild :
    (∀ ref, ¬ (({} : DynamicPropertyAccessPolicy).canAccess guild ref = true ∧
        ({} : DynamicPropertyAccessPolicy).canAccess underscoredGuild ref = true)) ↔
      withoutEnds guild.pluginId ≠ withoutEnds underscoredGuild.pluginId :=
  namespaces_disjoint_iff rfl rfl (by decide +kernel) (by decide +kernel) (by decide +kernel)

/-- Distinct identifiers in normalized characters, and one collection both may use. -/
theorem guild_shares :
    guild.pluginId ≠ underscoredGuild.pluginId ∧
      ((∀ c ∈ guild.pluginId, IsKept c) ∧ ∃ c ∈ guild.pluginId, c ≠ underscore) ∧
      ((∀ c ∈ underscoredGuild.pluginId, IsKept c) ∧
        ∃ c ∈ underscoredGuild.pluginId, c ≠ underscore) ∧
      ∀ context ∈ [guild, underscoredGuild], context.rawAdmin = false ∧
        ({} : DynamicPropertyAccessPolicy).canAccess context
          ⟨{}, text "endstone-plugin:guild:notes"⟩ = true := by
  decide +kernel

end DynamicProperties.Cpp
