import Mathlib.Data.Finmap
import DynamicProperties.Library.OrderedMap
import DynamicProperties.Library.Sequence
import DynamicProperties.Python.Model

/-!
# The Python reference adapter

`InMemoryAdapter` of `service.py`, with the functions it snapshots with.  A call
may raise: a function that only reads is in `Except PyError`, and one that writes
returns the store it leaves behind together with its result, also when it raises
after the write.

A revision is eight bytes of the BLAKE2b hash of the JSON text of a collection.
The hash is a parameter, `digest`, on the value `json.dumps` is given.
-/

namespace DynamicProperties.Python

open Std
open DynamicProperties.Library.OrderedMap
open DynamicProperties.Library.Sequence

/-! ## Snapshots -/

/-- The type names `_value_type` returns. -/
inductive ValueType where
  | bool
  | number
  | string
  | vector3
  deriving DecidableEq, Repr

/-- `_value_type`. -/
def valueType : PyObject → Except PyError ValueType
  | .bool _ => .ok .bool
  | .float _ => .ok .number
  | .str _ => .ok .string
  | .vector3 _ _ _ => .ok .vector3
  | value => .error (.typeError (str "unsupported dynamic-property type: " ++ value.typeName))

/-- `_estimate_bytes`. -/
def estimateBytes (key : Str) (value : PyObject) : Except PyError Nat := do
  let base := (← encodeUtf8 key).length + 8
  match value with
  | .bool _ => return base + 1
  | .float _ => return base + 8
  | .str text => return base + (← encodeUtf8 text).length
  | _ => return base + 24

/-- `{"type": …, "value": …}`: the value is written as it is, or as the list of
its three coordinates. -/
structure EncodedValue where
  type : ValueType
  value : List PyObject
  deriving DecidableEq

/-- `_encoded_value`. -/
def encodedValue (value : PyObject) : Except PyError EncodedValue := do
  let type ← valueType value
  match value with
  | .vector3 x y z => return ⟨type, [x, y, z]⟩
  | value => return ⟨type, [value]⟩

/-- `target.kind.value`. -/
def kindValue : TargetKind → Str
  | .world => str "world"
  | .onlinePlayer => str "online_player"
  | .offlinePlayer => str "offline_player"
  | .loadedEntity => str "loaded_entity"
  | .storedEntity => str "stored_entity"
  | .playerInventorySlot => str "player_inventory_slot"
  | .playerArmorSlot => str "player_armor_slot"
  | .playerOffhandSlot => str "player_offhand_slot"
  | .playerEnderChestSlot => str "player_ender_chest_slot"
  | .blockContainerSlot => str "block_container_slot"
  | .droppedItem => str "dropped_item"
  | .blockEntity => str "block_entity"

/-- One labelled part of a description; an empty text is left out. -/
def labelled (label : String) (value : Str) : List Str :=
  if value.isEmpty then [] else [str label ++ value]

def describeBlock : Option BlockLocation → Except PyError (List Str)
  | none => return []
  | some block =>
      return [block.dimension ++ str "@" ++ (← intText block.x) ++ str "," ++ (← intText block.y)
        ++ str "," ++ (← intText block.z)]

def describeSlot (slot : Int) : Except PyError (List Str) :=
  if slot < 0 then return [] else return [str "slot=" ++ (← intText slot)]

/-- `describe_target`. -/
def describeTarget (target : DynamicPropertyTarget) : Except PyError Str := do
  let block ← describeBlock target.block
  let slot ← describeSlot target.slot
  return List.intercalate (str ":") ([kindValue target.kind, target.worldId]
    ++ labelled "xuid=" target.xuid ++ labelled "entity=" target.entityId
    ++ labelled "item=" target.itemEntityId ++ block ++ slot)

/-- The dictionary whose JSON text is hashed. -/
structure Canonical where
  target : Str
  collection : Str
  exists_ : Bool
  properties : List (Str × EncodedValue)
  deriving DecidableEq

/-- What `json.dumps` refuses to write. -/
def checkJson : PyObject → Except PyError Unit
  | .int value => do
      let _ ← intText value
      return ()
  | .vector3 _ _ _ => .error (.typeError (str "Object of type Vector3 is not JSON serializable"))
  | .other typeName _ serializable =>
      if serializable then .ok ()
      else
        .error (.typeError (str "Object of type " ++ typeName ++ str " is not JSON serializable"))
  | _ => .ok ()

/-- `total + _estimate_bytes(key, value)`. -/
def addEstimate (total : Nat) (entry : Str × PyObject) : Except PyError Nat := do
  return total + (← estimateBytes entry.1 entry.2)

def encodedEntry (entry : Str × PyObject) : Except PyError (Str × EncodedValue) := do
  return (entry.1, ← encodedValue entry.2)

/-- `_transaction_id`: the number is drawn from one counter of the process. -/
def newTransactionId (kind : String) (ids : Nat) : Str × Nat :=
  (str kind ++ str "-" ++ str (toString ids), ids + 1)

section Adapter

variable (digest : Canonical → UInt64)

/-- `_snapshot`: the size first, then the encoding, then its hash. -/
def snapshotOf (ref : CollectionRef) (properties : DynamicPropertyMap) (exists_ : Bool := true) :
    Except PyError CollectionSnapshot := do
  let byteCount ← properties.toList.foldlM addEstimate 0
  let target ← describeTarget ref.target
  let encoded ← properties.toList.mapM encodedEntry
  encoded.forM fun entry => entry.2.value.forM checkJson
  let revision := digest { target, collection := ref.collection, exists_, properties := encoded }
  return { ref, properties, byteCount, revision := revision.toNat, exists_ }

/-! ## Operations -/

def RenameCollectionOperation.sourceRef (entry : RenameCollectionOperation) : CollectionRef :=
  ⟨entry.target, entry.source⟩

def RenameCollectionOperation.destinationRef (entry : RenameCollectionOperation) :
    CollectionRef :=
  ⟨entry.target, entry.destination⟩

/-- `operation_refs`. -/
def operationRefs : Operation → List CollectionRef
  | .renameCollection entry => [entry.sourceRef, entry.destinationRef]
  | .transferProperty entry => [entry.source, entry.destination]
  | .transferCollection entry => [entry.source, entry.destination]
  | .importCollection entry => [entry.destination]
  | .setProperty entry => [entry.ref]
  | .setMany entry => [entry.ref]
  | .removeProperty entry => [entry.ref]
  | .removeMany entry => [entry.ref]
  | .clearCollection entry => [entry.ref]

/-- `_expected_revision`. -/
def expectedRevision (operation : Operation) (ref : CollectionRef) : ExpectedRevision :=
  match operation with
  | .setProperty entry => if entry.ref = ref then entry.expectedRevision else none
  | .setMany entry => if entry.ref = ref then entry.expectedRevision else none
  | .removeProperty entry => if entry.ref = ref then entry.expectedRevision else none
  | .removeMany entry => if entry.ref = ref then entry.expectedRevision else none
  | .clearCollection entry => if entry.ref = ref then entry.expectedRevision else none
  | .renameCollection entry =>
      if ref = entry.sourceRef then entry.expectedSourceRevision
      else if ref = entry.destinationRef then entry.expectedDestinationRevision
      else none
  | .transferProperty entry =>
      if entry.source = entry.destination ∧ ref = entry.source then
        if entry.expectedSourceRevision.isSome then entry.expectedSourceRevision
        else entry.expectedDestinationRevision
      else if ref = entry.source then entry.expectedSourceRevision
      else if ref = entry.destination then entry.expectedDestinationRevision
      else none
  | .transferCollection entry =>
      if ref = entry.source then entry.expectedSourceRevision
      else if ref = entry.destination then entry.expectedDestinationRevision
      else none
  | .importCollection entry =>
      if ref = entry.destination then entry.expectedDestinationRevision else none

/-- `dict(mapping)`. -/
def PropertyMapping.toDict (mapping : PropertyMapping) : DynamicPropertyMap :=
  insertEntries ∅ mapping.items

/-! ## The store -/

/-- `dict[CollectionRef, dict[str, DynamicPropertyValue]]`. -/
abbrev Store := Finmap fun _ : CollectionRef => DynamicPropertyMap

/-- `dict[DynamicPropertyTarget, bool]`. -/
abbrev Availability := Finmap fun _ : DynamicPropertyTarget => Bool

/-- The state of an `InMemoryAdapter`. -/
structure InMemoryAdapter where
  store : Store := ∅
  availability : Availability := ∅

/-- `_available`. -/
def targetAvailable (availability : Availability) (target : DynamicPropertyTarget) : Bool :=
  (availability.lookup target).getD true

/-- `_capture`. -/
def captureIn (availability : Availability) (store : Store) (ref : CollectionRef) :
    Except PyError CaptureResult := do
  if !targetAvailable availability ref.target then
    return { status := .targetUnavailable, message := str "target is unavailable" }
  match store.lookup ref with
  | none =>
      return { status := .captured, message := str "collection does not exist"
               snapshot := some (← snapshotOf digest ref ∅ false) }
  | some properties =>
      return { status := .captured, message := str "captured"
               snapshot := some (← snapshotOf digest ref properties) }

/-- What `fail` is called with. -/
structure MutationFailure where
  status : Status
  message : Str
  deriving DecidableEq

def notFound (message : String) : MutationFailure := ⟨.notFound, str message⟩

def conflict (message : String) : MutationFailure := ⟨.conflict, str message⟩

/-- `store.setdefault(ref, {})`: the collection, created empty when it is missing. -/
def setDefault (store : Store) (ref : CollectionRef) : DynamicPropertyMap × Store :=
  match store.lookup ref with
  | some values => (values, store)
  | none => (∅, store.insert ref ∅)

/-- The tail of the collection-level branches: fail on an existing destination,
merge over it, or replace it. -/
def writeDestination (store : Store) (destination : CollectionRef) (values : DynamicPropertyMap)
    (policy : ImportPolicy) : Store × Option MutationFailure :=
  match policy, store.lookup destination with
  | .failIfDestinationExists, some _ =>
      (store, some (conflict "destination collection already exists"))
  | .merge, some existing => (store.insert destination (overlay existing values), none)
  | _, _ => (store.insert destination values, none)

/-- The branches of `_apply`: what each operation does to the store.  Dictionaries
are written in place in the source; here the store gets the new one. -/
def mutate (store : Store) : Operation → Store × Option MutationFailure
  | .setProperty entry =>
      let (values, store) := setDefault store entry.ref
      (store.insert entry.ref (values.insert entry.key entry.value), none)
  | .setMany entry =>
      let (values, store) := setDefault store entry.ref
      (store.insert entry.ref (overlay values entry.values.toDict), none)
  | .removeProperty entry =>
      match store.lookup entry.ref with
      | none =>
          (store,
            if entry.requireExisting then some (notFound "property does not exist") else none)
      | some values =>
          if values.contains entry.key then
            (store.insert entry.ref (values.erase entry.key), none)
          else
            (store,
              if entry.requireExisting then some (notFound "property does not exist") else none)
  | .removeMany entry =>
      let values := store.lookup entry.ref
      if entry.requireAllExisting && entry.keys.any fun key => values.all (!·.contains key) then
        (store, some (notFound "one or more properties do not exist"))
      else
        match values with
        | none => (store, none)
        | some values => (store.insert entry.ref (eraseAll values entry.keys), none)
  | .clearCollection entry =>
      if entry.removeCollection then (store.erase entry.ref, none)
      else (store.insert entry.ref ∅, none)
  | .renameCollection entry =>
      match store.lookup entry.sourceRef with
      | none => (store, some (notFound "source collection does not exist"))
      | some sourceValues =>
          match writeDestination store entry.destinationRef sourceValues
              entry.destinationPolicy with
          | (store, some failed) => (store, some failed)
          | (store, none) => (store.erase entry.sourceRef, none)
  | .transferProperty entry =>
      match (store.lookup entry.source).bind (·[entry.sourceKey]?) with
      | none => (store, some (notFound "source property does not exist"))
      | some value =>
          -- the destination is created before the overwrite check
          let (destinationValues, store) := setDefault store entry.destination
          if destinationValues.contains entry.destinationKey && !entry.overwrite then
            (store, some (conflict "destination property already exists"))
          else
            let store := store.insert entry.destination
              (destinationValues.insert entry.destinationKey value)
            if entry.removeSource then
              -- read again: the source may be the dictionary just written
              match store.lookup entry.source with
              | none => (store, none)
              | some sourceValues =>
                  (store.insert entry.source (sourceValues.erase entry.sourceKey), none)
            else (store, none)
  | .transferCollection entry =>
      match store.lookup entry.source with
      | none => (store, some (notFound "source collection does not exist"))
      | some sourceValues =>
          match writeDestination store entry.destination sourceValues
              entry.destinationPolicy with
          | (store, some failed) => (store, some failed)
          | (store, none) =>
              if entry.removeSource && entry.source != entry.destination then
                (store.erase entry.source, none)
              else (store, none)
  | .importCollection entry =>
      writeDestination store entry.destination entry.properties.toDict entry.policy

/-! ## `_apply` -/

/-- The first loop of `_apply`: capture every participant and check the revision
expected of it. -/
def checkParticipants (availability : Availability) (store : Store) (operation : Operation)
    (force : Bool) : List CollectionRef → List CollectionSnapshot →
      Except PyError (Except OperationResult (List CollectionSnapshot))
  | [], before => return .ok before
  | ref :: rest, before => do
      let captured ← captureIn digest availability store ref
      match captured.ok, captured.snapshot with
      | true, some snapshot =>
          let before := before ++ [snapshot]
          if !force ∧ ∃ expected ∈ expectedRevision operation ref, expected ≠ snapshot.revision then
            return .error
              { status := .conflict, message := str "collection revision changed", before }
          else checkParticipants availability store operation force rest before
      | _, _ =>
          return .error { status := captured.status, message := captured.message, before }

/-- `_apply`.  Its result is an exception when a snapshot of a participant cannot
be taken; after the mutation the store is written by then. -/
def applyIn (availability : Availability) (store : Store) (operation : Operation) (force : Bool) :
    Except PyError OperationResult × Store :=
  -- `dict.fromkeys` keeps the first mention of each reference
  let refs := (operationRefs operation).eraseDups
  match checkParticipants digest availability store operation force refs [] with
  | .error raised => (.error raised, store)
  | .ok (.error result) => (.ok result, store)
  | .ok (.ok before) =>
      match mutate store operation with
      | (store, some failed) =>
          (.ok { status := failed.status, message := failed.message, before }, store)
      | (store, none) =>
          let result := do
            let after := (← refs.mapM fun ref => captureIn digest availability store ref).filterMap
              (·.snapshot)
            return { status := .applied, message := str "applied", before, after
                     resultingRevision := (after.getLast?.map (·.revision)).getD 0 }
          (result, store)

namespace InMemoryAdapter

/-- Every capability; the native gates, no flags of the model, stay closed. -/
def capabilities : Capabilities where
  world := true
  onlinePlayers := true
  offlinePlayers := true
  loadedEntities := true
  storedEntities := true
  playerInventoryItems := true
  playerArmorItems := true
  playerOffhandItems := true
  playerEnderChestItems := true
  blockContainerItems := true
  droppedItems := true
  blockEntities := true
  blockDynamicProperties := true
  read := true
  write := true
  remove := true
  clear := true
  listCollections := true
  bulkSet := true
  collectionRename := true
  propertyCopyMove := true
  collectionCopyMove := true
  exportImport := true
  atomicTransactions := true
  externalChangeObservation := true
  externalChangeCancellation := true
  persistenceFlush := true

def setTargetAvailable (adapter : InMemoryAdapter) (target : DynamicPropertyTarget)
    (available : Bool) : InMemoryAdapter :=
  { adapter with availability := adapter.availability.insert target available }

def capture (adapter : InMemoryAdapter) (ref : CollectionRef) : Except PyError CaptureResult :=
  captureIn digest adapter.availability adapter.store ref

def apply (adapter : InMemoryAdapter) (operation : Operation) (force : Bool) :
    Except PyError OperationResult × InMemoryAdapter :=
  let (result, store) := applyIn digest adapter.availability adapter.store operation force
  (result, { adapter with store })

end InMemoryAdapter

/-- The call returned, and reports success. -/
def returnsApplied : Except PyError OperationResult → Bool
  | .ok result => result.ok
  | .error _ => false

namespace InMemoryAdapter

def applyStep (force : Bool) (operation : Operation) (adapter : InMemoryAdapter) :
    Except PyError OperationResult × InMemoryAdapter :=
  adapter.apply digest operation force

/-- Apply operations one after another, up to the first that is not applied. -/
def applyEach (adapter : InMemoryAdapter) (operations : List Operation) (force : Bool) :
    List (Except PyError OperationResult) × InMemoryAdapter :=
  runUntil (applyStep digest force) returnsApplied operations adapter

/-- Every operation of the list is applied. -/
def AppliesAll (adapter : InMemoryAdapter) (operations : List Operation) (force : Bool) : Prop :=
  ∀ result ∈ (adapter.applyEach digest operations force).1, returnsApplied result = true

instance (adapter : InMemoryAdapter) (operations : List Operation) (force : Bool) :
    Decidable (adapter.AppliesAll digest operations force) :=
  inferInstanceAs (Decidable (∀ result ∈ (adapter.applyEach digest operations force).1, _))

/-! ## `transact` -/

/-- The loop of `transact`: apply to the copy of the store, stop at the first
failure.  No copy is returned on failure. -/
def transactLoop (availability : Availability) (force rollbackOnFailure : Bool) :
    List Operation → Store → List OperationResult →
      Except PyError (TransactionResult × Option Store)
  | [], candidate, operationResults =>
      .ok ({ status := .applied, message := str "transaction applied atomically"
             operationResults },
        some candidate)
  | operation :: rest, candidate, operationResults =>
      match applyIn digest availability candidate operation force with
      | (.error raised, _) => .error raised
      | (.ok result, candidate) =>
          let operationResults := operationResults ++ [result]
          if !result.ok then
            .ok ({ status := .transactionFailed, message := result.message, operationResults
                   rolledBack := rollbackOnFailure },
              none)
          else transactLoop availability force rollbackOnFailure rest candidate operationResults

/-- `transact`; `ids` is the counter behind `_transaction_id`. -/
def transact (adapter : InMemoryAdapter) (transaction : Transaction) (ids : Nat) :
    Except PyError TransactionResult × InMemoryAdapter × Nat :=
  match transactLoop digest adapter.availability transaction.force transaction.rollbackOnFailure
      transaction.operations adapter.store [] with
  | .error raised => (.error raised, adapter, ids)
  | .ok (result, candidate) =>
      let (transactionId, ids) := newTransactionId "memtx" ids
      (.ok { result with transactionId }, { adapter with store := candidate.getD adapter.store },
        ids)

end InMemoryAdapter

end Adapter

end DynamicProperties.Python
