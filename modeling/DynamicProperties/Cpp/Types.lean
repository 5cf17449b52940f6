import Mathlib.Data.List.Basic
import Std.Data.ExtTreeMap

/-!
# Shared value types of the C++ library

Targets, collection references, statuses, access contexts and limits, as
`types.h` declares them, with the two functions of `types.cpp` the model
needs: `targetKindName` and `describeTarget`.

A `std::string` is a `ByteString`: the library never assumes an encoding
except where it checks one.  The defaulted three-way comparisons of the source
compare the members in declaration order; `Std.ExtTreeMap` plays `std::map`, so
every key type carries its order here, together with the two facts a tree map
needs of it.
-/

namespace DynamicProperties.Cpp

open Std

/-- A `std::string`: arbitrary bytes. -/
abbrev ByteString := List UInt8

/-- The bytes of a string literal of the source. -/
def text (literal : String) : ByteString := literal.toUTF8.data.toList

/-- `std::to_string` of an unsigned 64-bit number. -/
def decimal (n : UInt64) : ByteString := text (toString n.toNat)

/-- An `std::int32_t` as an output stream prints it. -/
def decimal32 (n : Int32) : ByteString := text (toString n.toInt)

inductive TargetKind where
  | world
  | onlinePlayer
  | offlinePlayer
  | loadedEntity
  | storedEntity
  | playerInventorySlot
  | playerArmorSlot
  | playerOffhandSlot
  | playerEnderChestSlot
  | blockContainerSlot
  | droppedItem
  | blockEntity
  deriving DecidableEq, Repr

inductive InventorySection where
  | none
  | main
  | armor
  | offhand
  | enderChest
  | blockContainer
  deriving DecidableEq, Repr

structure BlockLocation where
  dimension : ByteString := text "overworld"
  x : Int32 := 0
  y : Int32 := 0
  z : Int32 := 0
  deriving DecidableEq, Repr

/-- `DynamicPropertyTarget`; `inventorySection` is the source's `section`. -/
structure DynamicPropertyTarget where
  kind : TargetKind := .world
  worldId : ByteString := text "default"
  xuid : ByteString := []
  entityId : ByteString := []
  block : Option BlockLocation := none
  inventorySection : InventorySection := .none
  slot : Int32 := -1
  itemEntityId : ByteString := []
  deriving DecidableEq, Repr

structure CollectionRef where
  target : DynamicPropertyTarget
  collection : ByteString
  deriving DecidableEq, Repr

/-! ## Defaulted comparisons -/

instance : Ord TargetKind := ⟨compareOn TargetKind.ctorIdx⟩

instance : TransOrd TargetKind :=
  inferInstanceAs (TransCmp (compareOn TargetKind.ctorIdx))

instance : LawfulEqOrd TargetKind where
  eq_of_compare {a b} h := by
    have hcmp : compare a.ctorIdx b.ctorIdx = .eq := h
    have hidx : a.ctorIdx = b.ctorIdx := LawfulEqCmp.eq_of_compare hcmp
    cases a <;> cases b <;> first | rfl | exact absurd hidx (by decide)

instance : Ord InventorySection := ⟨compareOn InventorySection.ctorIdx⟩

instance : TransOrd InventorySection :=
  inferInstanceAs (TransCmp (compareOn InventorySection.ctorIdx))

instance : LawfulEqOrd InventorySection where
  eq_of_compare {a b} h := by
    have hcmp : compare a.ctorIdx b.ctorIdx = .eq := h
    have hidx : a.ctorIdx = b.ctorIdx := LawfulEqCmp.eq_of_compare hcmp
    cases a <;> cases b <;> first | rfl | exact absurd hidx (by decide)

/-- Member-wise comparison of block locations. -/
def compareBlock : BlockLocation → BlockLocation → Ordering :=
  compareLex (compareOn (·.dimension))
    (compareLex (compareOn (·.x)) (compareLex (compareOn (·.y)) (compareOn (·.z))))

instance : Ord BlockLocation := ⟨compareBlock⟩

instance : TransOrd BlockLocation :=
  inferInstanceAs (TransCmp (compareLex _ _))

instance : LawfulEqOrd BlockLocation where
  eq_of_compare {a b} h := by
    have h' : compareBlock a b = .eq := h
    simp only [compareBlock, compareLex_eq_eq, compareOn, LawfulEqCmp.compare_eq_iff_eq] at h'
    obtain ⟨hd, hx, hy, hz⟩ := h'
    cases a
    cases b
    simp_all

/-- Member-wise comparison of targets, in declaration order. -/
def compareTarget : DynamicPropertyTarget → DynamicPropertyTarget → Ordering :=
  compareLex (compareOn (·.kind))
    (compareLex (compareOn (·.worldId))
      (compareLex (compareOn (·.xuid))
        (compareLex (compareOn (·.entityId))
          (compareLex (compareOn (·.block))
            (compareLex (compareOn (·.inventorySection))
              (compareLex (compareOn (·.slot)) (compareOn (·.itemEntityId))))))))

instance : Ord DynamicPropertyTarget := ⟨compareTarget⟩

instance : TransOrd DynamicPropertyTarget :=
  inferInstanceAs (TransCmp (compareLex _ _))

instance : LawfulEqOrd DynamicPropertyTarget where
  eq_of_compare {a b} h := by
    have h' : compareTarget a b = .eq := h
    simp only [compareTarget, compareLex_eq_eq, compareOn,
      LawfulEqCmp.compare_eq_iff_eq] at h'
    obtain ⟨hk, hw, hx, he, hb, hi, hs, hd⟩ := h'
    cases a
    cases b
    simp_all

/-- Member-wise comparison of collection references. -/
def compareRef : CollectionRef → CollectionRef → Ordering :=
  compareLex (compareOn (·.target)) (compareOn (·.collection))

instance : Ord CollectionRef := ⟨compareRef⟩

instance : TransOrd CollectionRef :=
  inferInstanceAs (TransCmp (compareLex _ _))

instance : LawfulEqOrd CollectionRef where
  eq_of_compare {a b} h := by
    have h' : compareRef a b = .eq := h
    simp only [compareRef, compareLex_eq_eq, compareOn,
      LawfulEqCmp.compare_eq_iff_eq] at h'
    obtain ⟨ht, hc⟩ := h'
    cases a
    cases b
    simp_all

/-! ## Enumerations and records without behaviour -/

inductive MutationOrigin where
  | api
  | command
  | scriptApi
  | player
  | worldLoad
  | storageLoad
  | migration
  | rollback
  | nativeHook
  | unknown
  deriving DecidableEq, Repr

inductive DynamicPropertyStatus where
  | applied
  | captured
  | notFound
  | conflict
  | cancelled
  | targetUnavailable
  | collectionUnavailable
  | invalidTarget
  | invalidCollection
  | invalidKey
  | invalidValue
  | permissionDenied
  | unsupported
  | runtimeMismatch
  | binaryIdentityMismatch
  | symbolValidationFailed
  | storageUnavailable
  | persistenceFailed
  | transactionFailed
  | rollbackFailed
  | adapterUnavailable
  | adapterError
  deriving DecidableEq, Repr

inductive ImportPolicy where
  | failIfDestinationExists
  | merge
  | replace
  deriving DecidableEq, Repr

inductive ExternalMutationDecision where
  | allow
  | cancel
  | observeOnly
  deriving DecidableEq, Repr

structure AccessContext where
  pluginId : ByteString := []
  actorId : ByteString := []
  rawAdmin : Bool := false
  origin : MutationOrigin := .api
  reason : ByteString := []
  deriving DecidableEq, Repr

/-- `ValidationLimits`, with the defaults of the source. -/
structure ValidationLimits where
  maxCollectionBytes : Nat := 256
  maxKeyBytes : Nat := 256
  maxStringBytes : Nat := 32767
  maxPropertiesPerCollection : Nat := 16384
  maxTransactionOperations : Nat := 4096
  maxImportBytes : Nat := 16 * 1024 * 1024
  deriving DecidableEq, Repr

/-- The capability flags the modelled functions read. -/
structure DynamicPropertyCapabilities where
  world : Bool := false
  onlinePlayers : Bool := false
  offlinePlayers : Bool := false
  loadedEntities : Bool := false
  storedEntities : Bool := false
  playerInventoryItems : Bool := false
  playerArmorItems : Bool := false
  playerOffhandItems : Bool := false
  playerEnderChestItems : Bool := false
  blockContainerItems : Bool := false
  droppedItems : Bool := false
  blockEntities : Bool := false
  blockDynamicProperties : Bool := false
  read : Bool := false
  write : Bool := false
  remove : Bool := false
  clear : Bool := false
  listCollections : Bool := false
  bulkSet : Bool := false
  collectionRename : Bool := false
  propertyCopyMove : Bool := false
  collectionCopyMove : Bool := false
  exportImport : Bool := false
  atomicTransactions : Bool := false
  externalChangeObservation : Bool := false
  externalChangeCancellation : Bool := false
  persistenceFlush : Bool := false
  deriving DecidableEq, Repr

/-! ## Names and descriptions -/

def targetKindName : TargetKind → ByteString
  | .world => text "world"
  | .onlinePlayer => text "online_player"
  | .offlinePlayer => text "offline_player"
  | .loadedEntity => text "loaded_entity"
  | .storedEntity => text "stored_entity"
  | .playerInventorySlot => text "player_inventory_slot"
  | .playerArmorSlot => text "player_armor_slot"
  | .playerOffhandSlot => text "player_offhand_slot"
  | .playerEnderChestSlot => text "player_ender_chest_slot"
  | .blockContainerSlot => text "block_container_slot"
  | .droppedItem => text "dropped_item"
  | .blockEntity => text "block_entity"

/-- The text that starts every revision and names the target in an export. -/
def describeTarget (target : DynamicPropertyTarget) : ByteString :=
  targetKindName target.kind ++ text ":" ++ target.worldId
    ++ (if target.xuid.isEmpty then [] else text ":xuid=" ++ target.xuid)
    ++ (if target.entityId.isEmpty then [] else text ":entity=" ++ target.entityId)
    ++ (if target.itemEntityId.isEmpty then [] else text ":item=" ++ target.itemEntityId)
    ++ (match target.block with
        | none => []
        | some block =>
            text ":" ++ block.dimension ++ text "@" ++ decimal32 block.x ++ text ","
              ++ decimal32 block.y ++ text "," ++ decimal32 block.z)
    ++ (if 0 ≤ target.slot then text ":slot=" ++ decimal32 target.slot else [])

end DynamicProperties.Cpp
