import DynamicProperties.Library.OrderedMap
import DynamicProperties.Cpp.AccessPolicy

/-!
# The in-memory adapter

`in_memory_adapter.h` and `in_memory_adapter.cpp`, branch by branch.  The
functions that take a `Store &` in the source return the store they leave
behind, also when they fail: that a failing operation leaves no trace is a
theorem (`mutate_of_failure` in the effects module), not a property of the
encoding.
-/

namespace DynamicProperties.Cpp

open Std
open DynamicProperties.Library.OrderedMap

/-- `std::map<CollectionRef, DynamicPropertyMap>`. -/
abbrev Store := ExtTreeMap CollectionRef DynamicPropertyMap compare

/-- `std::map<DynamicPropertyTarget, bool>`. -/
abbrev Availability := ExtTreeMap DynamicPropertyTarget Bool compare

/-- The state of `InMemoryDynamicPropertyAdapter`, with the counter behind
`nextTransactionId`. -/
structure InMemoryAdapter where
  store : Store := ∅
  availability : Availability := ∅
  transactionCounter : UInt64 := 1

/-- `makeFailure` of the service and `failure` of the adapter. -/
def failure (status : DynamicPropertyStatus) (message : ByteString)
    (before : List CollectionSnapshot := []) : OperationResult :=
  { status, message, before }

/-- The revision a caller expects of one collection. -/
def expectedRevision (operation : DynamicPropertyOperation) (ref : CollectionRef) :
    ExpectedRevision :=
  match operation with
  | .setProperty entry => if entry.ref = ref then entry.expectedRevision else none
  | .setMany entry => if entry.ref = ref then entry.expectedRevision else none
  | .removeProperty entry => if entry.ref = ref then entry.expectedRevision else none
  | .removeMany entry => if entry.ref = ref then entry.expectedRevision else none
  | .clearCollection entry => if entry.ref = ref then entry.expectedRevision else none
  | .renameCollection entry =>
      if entry.sourceRef = ref then entry.expectedSourceRevision
      else if entry.destinationRef = ref then entry.expectedDestinationRevision
      else none
  | .transferProperty entry =>
      if entry.source = ref ∧ entry.destination = ref then
        if entry.expectedSourceRevision.isSome then entry.expectedSourceRevision
        else entry.expectedDestinationRevision
      else if entry.source = ref then entry.expectedSourceRevision
      else if entry.destination = ref then entry.expectedDestinationRevision
      else none
  | .transferCollection entry =>
      if entry.source = ref then entry.expectedSourceRevision
      else if entry.destination = ref then entry.expectedDestinationRevision
      else none
  | .importCollection entry =>
      if entry.destination = ref then entry.expectedDestinationRevision else none

def targetAvailable (availability : Availability) (target : DynamicPropertyTarget) : Bool :=
  match availability[target]? with
  | none => true
  | some available => available

def captureUnlocked (availability : Availability) (store : Store) (ref : CollectionRef) :
    CaptureResult :=
  if !targetAvailable availability ref.target then
    { status := .targetUnavailable, message := text "target is unavailable" }
  else
    match store[ref]? with
    | none =>
        { status := .captured, message := text "collection does not exist"
          snapshot := some (makeSnapshot ref ∅ false true true true) }
    | some properties =>
        { status := .captured, message := text "captured"
          snapshot := some (makeSnapshot ref properties) }

/-- `store[ref]`: the collection, created empty when it is missing. -/
def collectionOrNew (store : Store) (ref : CollectionRef) : DynamicPropertyMap :=
  (store[ref]?).getD ∅

/-- A failing return inside the visitor of `applyUnlocked`: status and message;
the caller's `before` snapshots are attached by `applyUnlocked`. -/
structure MutationFailure where
  status : DynamicPropertyStatus
  message : ByteString
  deriving DecidableEq

def notFound (message : String) : MutationFailure := ⟨.notFound, text message⟩

def conflict (message : String) : MutationFailure := ⟨.conflict, text message⟩

/-- The tail of the collection-level branches: fail on an existing destination,
merge over it, or replace it. -/
def writeDestination (store : Store) (destination : CollectionRef)
    (values : DynamicPropertyMap) (policy : ImportPolicy) : Store × Option MutationFailure :=
  match policy, store[destination]? with
  | .failIfDestinationExists, some _ =>
      (store, some (conflict "destination collection already exists"))
  | .merge, some existing => (store.insert destination (overlay existing values), none)
  | _, _ => (store.insert destination values, none)

/-- The visitor of `applyUnlocked`: what each operation does to the store. -/
def mutate (store : Store) : DynamicPropertyOperation → Store × Option MutationFailure
  | .setProperty entry =>
      (store.insert entry.ref ((collectionOrNew store entry.ref).insert entry.key entry.value),
        none)
  | .setMany entry =>
      (store.insert entry.ref (overlay (collectionOrNew store entry.ref) entry.values), none)
  | .removeProperty entry =>
      match store[entry.ref]? with
      | none =>
          (store,
            if entry.requireExisting then some (notFound "property does not exist") else none)
      | some properties =>
          if properties.contains entry.key then
            (store.insert entry.ref (properties.erase entry.key), none)
          else
            (store,
              if entry.requireExisting then some (notFound "property does not exist") else none)
  | .removeMany entry =>
      match store[entry.ref]? with
      | none =>
          (store,
            if entry.requireAllExisting && !entry.keys.isEmpty then
              some (notFound "one or more properties do not exist")
            else none)
      | some properties =>
          if entry.requireAllExisting && entry.keys.any (fun key => !properties.contains key) then
            (store, some (notFound "one or more properties do not exist"))
          else
            (store.insert entry.ref (eraseAll properties entry.keys), none)
  | .clearCollection entry =>
      if entry.removeCollection then (store.erase entry.ref, none)
      else (store.insert entry.ref ∅, none)
  | .renameCollection entry =>
      match store[entry.sourceRef]? with
      | none => (store, some (notFound "source collection does not exist"))
      | some sourceValues =>
          match writeDestination store entry.destinationRef sourceValues
              entry.destinationPolicy with
          | (store, some failed) => (store, some failed)
          | (store, none) => (store.erase entry.sourceRef, none)
  | .transferProperty entry =>
      match (store[entry.source]?).bind (·[entry.sourceKey]?) with
      | none => (store, some (notFound "source property does not exist"))
      | some value =>
          -- the destination is created before the overwrite check
          let destination := collectionOrNew store entry.destination
          let store := store.insert entry.destination destination
          if !entry.overwrite && destination.contains entry.destinationKey then
            (store, some (conflict "destination property already exists"))
          else
            let store :=
              store.insert entry.destination (destination.insert entry.destinationKey value)
            if entry.removeSource then
              match store[entry.source]? with
              | none => (store, none)
              | some source => (store.insert entry.source (source.erase entry.sourceKey), none)
            else (store, none)
  | .transferCollection entry =>
      match store[entry.source]? with
      | none => (store, some (notFound "source collection does not exist"))
      | some sourceValues =>
          match writeDestination store entry.destination sourceValues
              entry.destinationPolicy with
          | (store, some failed) => (store, some failed)
          | (store, none) =>
              if entry.removeSource && entry.source != entry.destination then
                (store.erase entry.source, none)
              else (store, none)
  | .importCollection entry =>
      writeDestination store entry.destination entry.properties entry.policy

/-- The references of a loop that skips what `std::set::insert` has seen. -/
def firstMentions (seen : List CollectionRef) : List CollectionRef → List CollectionRef
  | [] => []
  | ref :: rest =>
      if ref ∈ seen then firstMentions seen rest
      else ref :: firstMentions (ref :: seen) rest

/-- The distinct participating collections, in order of first mention. -/
def participants (operation : DynamicPropertyOperation) : List CollectionRef :=
  firstMentions [] (operationCollections operation)

/-- The first loop of `applyUnlocked`: capture every participant and check the
revision expected of it. -/
def checkParticipants (availability : Availability) (store : Store)
    (operation : DynamicPropertyOperation) (force : Bool) :
    List CollectionRef → List CollectionSnapshot →
      Except OperationResult (List CollectionSnapshot)
  | [], before => .ok before
  | ref :: rest, before =>
      let captured := captureUnlocked availability store ref
      match captured.snapshot with
      | none => .error (failure captured.status captured.message before)
      | some snapshot =>
          let before := before ++ [snapshot]
          if !force ∧ ∃ expected ∈ expectedRevision operation ref, expected ≠ snapshot.revision
          then .error (failure .conflict (text "collection revision changed") before)
          else checkParticipants availability store operation force rest before

/-- The guard at the top of `applyUnlocked`: a same-collection property transfer
whose two expectations contradict each other. -/
def conflictingExpectations : DynamicPropertyOperation → Bool
  | .transferProperty entry =>
      entry.source = entry.destination ∧ entry.expectedSourceRevision.isSome ∧
        entry.expectedDestinationRevision.isSome ∧
        entry.expectedSourceRevision ≠ entry.expectedDestinationRevision
  | _ => false

def applyUnlocked (availability : Availability) (store : Store)
    (operation : DynamicPropertyOperation) (force : Bool) : OperationResult × Store :=
  if conflictingExpectations operation then
    (failure .invalidValue
      (text "same-collection transfer has conflicting revision expectations"), store)
  else
    match checkParticipants availability store operation force (participants operation) [] with
    | .error result => (result, store)
    | .ok before =>
        match mutate store operation with
        | (store, some failed) => (failure failed.status failed.message before, store)
        | (store, none) =>
            let after := (participants operation).filterMap fun ref =>
              (captureUnlocked availability store ref).snapshot
            ({ status := .applied, message := text "applied", before, after
               resultingRevision := (after.getLast?.map (·.revision)).getD 0 }, store)

namespace InMemoryAdapter

/-- Every capability of the reference adapter; the native gates stay closed. -/
def capabilities : DynamicPropertyCapabilities where
  world := true
  onlinePlayers := true
  offlinePlayers := true
  loadedEntities := true
  storedEntities := true
  playerInventoryItems := true
  playerArmorItems := true
  playerOffhandItems := true
  playerEnderChestItems := true
  blockContainerItems := true
  droppedItems := true
  blockEntities := true
  blockDynamicProperties := true
  read := true
  write := true
  remove := true
  clear := true
  listCollections := true
  bulkSet := true
  collectionRename := true
  propertyCopyMove := true
  collectionCopyMove := true
  exportImport := true
  atomicTransactions := true
  externalChangeObservation := true
  externalChangeCancellation := true
  persistenceFlush := true

variable (adapter : InMemoryAdapter)

def capture (ref : CollectionRef) : CaptureResult :=
  captureUnlocked adapter.availability adapter.store ref

def listCollections (target : DynamicPropertyTarget) : ListCollectionsResult :=
  if !targetAvailable adapter.availability target then
    { status := .targetUnavailable, message := text "target is unavailable" }
  else
    { status := .captured, message := text "captured"
      collections := adapter.store.toList.filterMap fun entry =>
        if entry.1.target = target then some entry.1.collection else none }

def apply (operation : DynamicPropertyOperation) (force : Bool) :
    OperationResult × InMemoryAdapter :=
  let (result, store) := applyUnlocked adapter.availability adapter.store operation force
  (result, { adapter with store })

/-- The loop of `transact`: apply to the candidate store, stop at the first
failure.  No candidate is returned on failure. -/
def transactLoop (availability : Availability) (force rollbackOnFailure : Bool) :
    List DynamicPropertyOperation → Store → TransactionResult → TransactionResult × Option Store
  | [], candidate, out =>
      ({ out with status := .applied, message := text "transaction applied atomically" },
        some candidate)
  | operation :: rest, candidate, out =>
      let (result, candidate) := applyUnlocked availability candidate operation force
      let out := { out with operationResults := out.operationResults ++ [result] }
      if !result.ok then
        ({ out with
            status := .transactionFailed, message := result.message
            rolledBack := rollbackOnFailure }, none)
      else transactLoop availability force rollbackOnFailure rest candidate out

def transact (transaction : DynamicPropertyTransaction) :
    TransactionResult × InMemoryAdapter :=
  let out : TransactionResult :=
    { transactionId := text "memtx-" ++ decimal adapter.transactionCounter }
  let adapter := { adapter with transactionCounter := adapter.transactionCounter + 1 }
  match transactLoop adapter.availability transaction.force transaction.rollbackOnFailure
      transaction.operations adapter.store out with
  | (out, none) => (out, adapter)
  | (out, some candidate) => (out, { adapter with store := candidate })

def flush (target : DynamicPropertyTarget) : OperationResult :=
  if !targetAvailable adapter.availability target then
    failure .targetUnavailable (text "target is unavailable")
  else
    { status := .applied, message := text "persistence flush completed" }

def setTargetAvailable (target : DynamicPropertyTarget) (available : Bool) : InMemoryAdapter :=
  { adapter with availability := adapter.availability.insert target available }

end InMemoryAdapter

end DynamicProperties.Cpp
