import DynamicProperties.Library.Cuts
import DynamicProperties.Cpp.AccessPolicy
import DynamicProperties.Cpp.Snapshot
import DynamicProperties.Cpp.Writer
import Std.Data.String.ToInt

/-!
# What tells collections apart in revisions

A revision and an export name a collection by `describeTarget` and its name, without a
separator between the two, and the text of the target joins ids that are not escaped.
The section of a target and a negative slot are not printed at all.  So two references
are told apart unless they are printed alike, or one of their printed parts runs on over
the parts behind it (`identity_distinguishes_iff`).
-/

namespace DynamicProperties.Cpp

open DynamicProperties.Library
open DynamicProperties.Library.Cuts

/-! ## Printed parts -/

/-- What every input of `calculateRevision` starts with. -/
def identityBytes (ref : CollectionRef) : ByteString :=
  describeTarget ref.target ++ ref.collection

/-- An id behind its marker, if there is one. -/
def marked (marker : ByteString) (value : ByteString) : ByteString :=
  if value.isEmpty then [] else marker ++ value

def blockText : Option BlockLocation → ByteString
  | none => []
  | some block =>
      text ":" ++ block.dimension ++ text "@" ++ decimal32 block.x ++ text "," ++ decimal32 block.y
        ++ text "," ++ decimal32 block.z

def slotText (slot : Int32) : ByteString :=
  if 0 ≤ slot then text ":slot=" ++ decimal32 slot else []

/-- The parts of the identity of a collection behind the kind of its target. -/
def CollectionRef.parts (ref : CollectionRef) : List ByteString :=
  [ref.target.worldId, marked (text ":xuid=") ref.target.xuid,
    marked (text ":entity=") ref.target.entityId, marked (text ":item=") ref.target.itemEntityId,
    blockText ref.target.block, slotText ref.target.slot, ref.collection]

theorem identityBytes_eq (ref : CollectionRef) :
    identityBytes ref = targetKindName ref.target.kind ++ 0x3A :: ref.parts.flatten := by
  have hcolon : text ":" = [0x3A] := rfl
  simp only [identityBytes, describeTarget, CollectionRef.parts, marked, blockText, slotText,
    List.flatten_cons, List.flatten_nil, List.append_nil, List.append_assoc, hcolon,
    List.singleton_append]
  cases ref.target.block <;> rfl

/-- All that is printed of two references is the same. -/
structure PrintedAlike (ref ref' : CollectionRef) : Prop where
  worldId : ref.target.worldId = ref'.target.worldId
  xuid : ref.target.xuid = ref'.target.xuid
  entityId : ref.target.entityId = ref'.target.entityId
  itemEntityId : ref.target.itemEntityId = ref'.target.itemEntityId
  block : ref.target.block = ref'.target.block
  slot : ref.target.slot = ref'.target.slot ∨ ref.target.slot < 0 ∧ ref'.target.slot < 0
  collection : ref.collection = ref'.collection

/-! ## Numbers -/

theorem text_injective : Function.Injective text := by
  intro literal literal' h
  have hdata : literal.toByteArray.data = literal'.toByteArray.data := Array.toList_inj.mp h
  exact String.toByteArray_inj.mp (ByteArray.ext hdata)

theorem decimal32_injective : Function.Injective decimal32 := by
  intro n n' h
  exact Int32.toInt_inj.mp (Int.repr_injective (text_injective h))

theorem mem_encode_toDigits {n : Nat} {c : UInt8} (h : c ∈ Utf8.encode (Nat.toDigits 10 n)) :
    Json.IsDigit c := by
  obtain ⟨digit, hdigit, hmem⟩ := List.mem_flatMap.mp h
  obtain ⟨heq, hspec⟩ :=
    encodeChar_digit (Nat.isDigit_of_mem_toDigits (by decide) (by decide) hdigit)
  rw [heq, List.mem_singleton] at hmem
  rw [hmem]
  exact hspec

/-- A printed number consists of digits, behind a minus perhaps. -/
theorem mem_decimal32 {n : Int32} {c : UInt8} (h : c ∈ decimal32 n) :
    c = 0x2D ∨ Json.IsDigit c := by
  rw [decimal32, Int.toString_eq_repr, Int.repr_eq_if, text_eq_encode] at h
  split at h
  · rw [Nat.toList_repr] at h
    exact .inr (mem_encode_toDigits h)
  · rw [String.toList_append, Nat.toList_repr, Utf8.encode_append] at h
    rcases List.mem_append.mp h with hminus | hdigit
    · exact .inl (List.mem_singleton.mp hminus)
    · exact .inr (mem_encode_toDigits hdigit)

theorem not_mem_decimal32 {c : UInt8} (hminus : c ≠ 0x2D) (hdigit : ¬ Json.IsDigit c) (n : Int32) :
    c ∉ decimal32 n := fun h => (mem_decimal32 h).elim hminus hdigit

/-! ## What is printed -/

theorem marked_injective {marker : ByteString} (hmarker : marker ≠ []) :
    Function.Injective (marked marker) := by
  intro value value' h
  unfold marked at h
  cases value with
  | nil =>
      cases value' with
      | nil => rfl
      | cons c rest =>
          have hnil : marker ++ c :: rest = [] := h.symm
          exact absurd (List.append_eq_nil_iff.mp hnil).1 hmarker
  | cons c rest =>
      cases value' with
      | nil => exact absurd (List.append_eq_nil_iff.mp h).1 hmarker
      | cons c' rest' => exact List.append_cancel_left h

theorem blockText_injective : Function.Injective blockText := by
  have hcomma : ∀ n, 0x2C ∉ decimal32 n := not_mem_decimal32 (by decide) (by decide)
  have hat : ∀ n, 0x40 ∉ decimal32 n := not_mem_decimal32 (by decide) (by decide)
  have hprint : ∀ block : BlockLocation, blockText (some block) =
      ((0x3A :: block.dimension ++ 0x40 :: decimal32 block.x) ++ 0x2C :: decimal32 block.y) ++
        0x2C :: decimal32 block.z := by
    intro block
    show [0x3A] ++ _ ++ [0x40] ++ _ ++ [0x2C] ++ _ ++ [0x2C] ++ _ = _
    simp
  intro block block' h
  cases block with
  | none =>
      cases block' with
      | none => rfl
      | some block' => rw [hprint] at h; cases h
  | some block =>
      cases block' with
      | none => rw [hprint] at h; cases h
      | some block' =>
          rw [hprint, hprint] at h
          obtain ⟨h, hz⟩ := cut_at_last (hcomma _) (hcomma _) h
          obtain ⟨h, hy⟩ := cut_at_last (hcomma _) (hcomma _) h
          obtain ⟨h, hx⟩ := cut_at_last (hat _) (hat _) h
          obtain ⟨dimension, x, y, z⟩ := block
          obtain rfl := decimal32_injective hx
          obtain rfl := decimal32_injective hy
          obtain rfl := decimal32_injective hz
          obtain rfl := (List.cons.inj h).2
          rfl

/-- Negative slots are not printed. -/
theorem slotText_eq_iff {slot slot' : Int32} :
    slotText slot = slotText slot' ↔ slot = slot' ∨ slot < 0 ∧ slot' < 0 := by
  have hne : ∀ n, text ":slot=" ++ decimal32 n ≠ [] := fun _ h =>
    absurd (List.append_eq_nil_iff.mp h).1 (by decide)
  unfold slotText
  by_cases h : 0 ≤ slot <;> by_cases h' : 0 ≤ slot'
  · rw [if_pos h, if_pos h', List.append_cancel_left_eq, decimal32_injective.eq_iff]
    exact (or_iff_left fun hneg => Int32.not_lt.mpr h hneg.1).symm
  · rw [if_pos h, if_neg h']
    refine iff_of_false (hne _) ?_
    rintro (rfl | hneg)
    · exact h' h
    · exact Int32.not_lt.mpr h hneg.1
  · rw [if_neg h, if_pos h']
    refine iff_of_false (hne _).symm ?_
    rintro (rfl | hneg)
    · exact h h'
    · exact Int32.not_lt.mpr h' hneg.2
  · rw [if_neg h, if_neg h']
    exact iff_of_true rfl (.inr ⟨Int32.not_le.mp h, Int32.not_le.mp h'⟩)

theorem parts_eq_iff {ref ref' : CollectionRef} :
    ref.parts = ref'.parts ↔ PrintedAlike ref ref' := by
  constructor
  · intro h
    simp only [CollectionRef.parts, List.cons.injEq, and_true] at h
    obtain ⟨hworld, hxuid, hentity, hitem, hblock, hslot, hcollection⟩ := h
    exact ⟨hworld, marked_injective (by decide) hxuid, marked_injective (by decide) hentity,
      marked_injective (by decide) hitem, blockText_injective hblock, slotText_eq_iff.mp hslot,
      hcollection⟩
  · rintro ⟨hworld, hxuid, hentity, hitem, hblock, hslot, hcollection⟩
    rw [CollectionRef.parts, CollectionRef.parts, hworld, hxuid, hentity, hitem, hblock,
      slotText_eq_iff.mpr hslot, hcollection]

theorem targetKindName_injective : Function.Injective targetKindName := by
  intro kind kind' h
  have hindex : ∀ k : TargetKind, (([TargetKind.world, .onlinePlayer, .offlinePlayer, .loadedEntity,
      .storedEntity, .playerInventorySlot, .playerArmorSlot, .playerOffhandSlot,
      .playerEnderChestSlot, .blockContainerSlot, .droppedItem, .blockEntity].map
        fun k => (targetKindName k, k)).lookup (targetKindName k)) = some k := by
    intro k
    cases k <;> rfl
  have hkind := hindex kind
  rw [h, hindex kind'] at hkind
  exact (Option.some.inj hkind).symm

theorem colon_not_mem_targetKindName (kind : TargetKind) : 0x3A ∉ targetKindName kind := by
  cases kind <;> decide

/-! ## References that are told apart -/

/-- The targets are of two kinds, or the references are not printed alike and neither runs
on over the other. -/
def Distinguished (ref ref' : CollectionRef) : Prop :=
  ref.target.kind ≠ ref'.target.kind ∨
    ¬ PrintedAlike ref ref' ∧ ¬ RunsOn ref.parts ref'.parts ∧ ¬ RunsOn ref'.parts ref.parts

/-- Where a reference runs on, a longer part goes on with a colon or with the first byte of
the name. -/
theorem runsOn_letter {ref ref' : CollectionRef} (h : RunsOn ref.parts ref'.parts) :
    ∃ part ∈ ref.parts, ∃ part' ∈ ref'.parts, ∃ letter,
      (letter = 0x3A ∨ ref.collection.head? = some letter) ∧ part ++ [letter] <+: part' := by
  obtain ⟨part, hpart, part', hpart', later, hlater, letter, hletter, hprefix⟩ := h.overlaps
  refine ⟨part, hpart, part', hpart', letter, ?_, hprefix⟩
  have hmarked : ∀ marker value : ByteString, marker.head? = some 0x3A →
      ∀ c, (marked marker value).head? = some c → c = 0x3A := by
    intro marker value hmarker c hc
    unfold marked at hc
    split at hc
    · cases hc
    · rw [List.head?_append, hmarker] at hc
      exact (Option.some.inj hc).symm
  simp only [CollectionRef.parts, List.tail_cons, List.mem_cons, List.not_mem_nil, or_false]
    at hlater
  rcases hlater with rfl | rfl | rfl | rfl | rfl | rfl
  · exact .inl (hmarked _ _ rfl letter hletter)
  · exact .inl (hmarked _ _ rfl letter hletter)
  · exact .inl (hmarked _ _ rfl letter hletter)
  · left
    cases hblock : ref.target.block with
    | none => rw [hblock] at hletter; cases hletter
    | some block => rw [hblock] at hletter; exact (Option.some.inj hletter).symm
  · left
    unfold slotText at hletter
    split at hletter
    · exact (Option.some.inj hletter).symm
    · cases hletter
  · exact .inr hletter

theorem identityBytes_eq_iff {ref ref' : CollectionRef} :
    identityBytes ref = identityBytes ref' ↔
      ref.target.kind = ref'.target.kind ∧ ref.parts.flatten = ref'.parts.flatten := by
  rw [identityBytes_eq, identityBytes_eq]
  constructor
  · intro h
    obtain ⟨hkind, hparts⟩ := cut_at_first (colon_not_mem_targetKindName _)
      (colon_not_mem_targetKindName _) h
    exact ⟨targetKindName_injective hkind, hparts⟩
  · rintro ⟨hkind, hparts⟩
    rw [hkind, hparts]

theorem revisionInput_eq_identityBytes (ref : CollectionRef) (exists_ : Bool)
    (properties : DynamicPropertyMap) :
    revisionInput ref exists_ properties =
      identityBytes ref ++
        (littleEndian (if exists_ then 1 else 0) ++ propertyBytes properties) := by
  rw [revisionInput, identityBytes, List.append_assoc _ (littleEndian _)]

/-- **Two references are told apart exactly when they are `Distinguished`**, by their
identity and by the revisions of equal contents. -/
theorem identity_distinguishes_iff (ref ref' : CollectionRef) :
    (identityBytes ref ≠ identityBytes ref' ↔ Distinguished ref ref') ∧
      ∀ exists_ properties, revisionInput ref exists_ properties ≠
        revisionInput ref' exists_ properties ↔ Distinguished ref ref' := by
  have hidentity : identityBytes ref ≠ identityBytes ref' ↔ Distinguished ref ref' := by
    have hlength : ref.parts.length = ref'.parts.length := rfl
    rw [Ne, identityBytes_eq_iff, flatten_eq_iff hlength, parts_eq_iff, Distinguished]
    simp only [not_and_or, not_or]
  refine ⟨hidentity, fun exists_ properties => ?_⟩
  rw [revisionInput_eq_identityBytes, revisionInput_eq_identityBytes, ← hidentity, Ne,
    List.append_cancel_right_eq]

/-- The collection `bc` of the world `a`. -/
def shortWorld : CollectionRef := ⟨{ worldId := text "a" }, text "bc"⟩

/-- The collection `c` of the world `ab`. -/
def longWorld : CollectionRef := ⟨{ worldId := text "ab" }, text "c"⟩

/-- Both are valid references, and nothing tells their revisions apart. -/
theorem shortWorld_longWorld_share :
    validateTarget shortWorld.target = none ∧ validateTarget longWorld.target = none ∧
      (validateCollectionName shortWorld.collection {}).valid = true ∧
      (validateCollectionName longWorld.collection {}).valid = true ∧
      shortWorld ≠ longWorld ∧ identityBytes shortWorld = identityBytes longWorld ∧
      ∀ exists_ properties, (makeSnapshot shortWorld properties exists_).revision =
        (makeSnapshot longWorld properties exists_).revision := by
  have hidentity : identityBytes shortWorld = identityBytes longWorld := by decide
  refine ⟨by decide, by decide, by decide, by decide, by decide, hidentity, ?_⟩
  intro exists_ properties
  rw [makeSnapshot_revision, makeSnapshot_revision, revisionInput_eq_identityBytes,
    revisionInput_eq_identityBytes, hidentity]

end DynamicProperties.Cpp
