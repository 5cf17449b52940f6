import DynamicProperties.Cpp.Snapshot

/-!
# Operations, transactions and their results

`operations.h` and `operations.cpp`: the nine operations, the collections each
of them names, and the records a caller gets back.
-/

namespace DynamicProperties.Cpp

open Std

/-- A `std::uint64_t` revision a caller may or may not supply. -/
abbrev ExpectedRevision := Option UInt64

structure SetPropertyOperation where
  ref : CollectionRef
  key : ByteString
  value : DynamicPropertyValue
  expectedRevision : ExpectedRevision := none
  deriving DecidableEq

structure SetManyOperation where
  ref : CollectionRef
  values : DynamicPropertyMap
  expectedRevision : ExpectedRevision := none
  deriving DecidableEq

structure RemovePropertyOperation where
  ref : CollectionRef
  key : ByteString
  expectedRevision : ExpectedRevision := none
  requireExisting : Bool := false
  deriving DecidableEq

structure RemoveManyOperation where
  ref : CollectionRef
  keys : List ByteString
  expectedRevision : ExpectedRevision := none
  requireAllExisting : Bool := false
  deriving DecidableEq

structure ClearCollectionOperation where
  ref : CollectionRef
  expectedRevision : ExpectedRevision := none
  removeCollection : Bool := false
  deriving DecidableEq

/-- `RenameCollectionOperation`; `source` and `destination` are the source's
`from` and `to`. -/
structure RenameCollectionOperation where
  target : DynamicPropertyTarget
  source : ByteString
  destination : ByteString
  expectedSourceRevision : ExpectedRevision := none
  destinationPolicy : ImportPolicy := .failIfDestinationExists
  expectedDestinationRevision : ExpectedRevision := none
  deriving DecidableEq

structure TransferPropertyOperation where
  source : CollectionRef
  sourceKey : ByteString
  destination : CollectionRef
  destinationKey : ByteString
  expectedSourceRevision : ExpectedRevision := none
  expectedDestinationRevision : ExpectedRevision := none
  removeSource : Bool := false
  overwrite : Bool := false
  deriving DecidableEq

structure TransferCollectionOperation where
  source : CollectionRef
  destination : CollectionRef
  expectedSourceRevision : ExpectedRevision := none
  expectedDestinationRevision : ExpectedRevision := none
  destinationPolicy : ImportPolicy := .failIfDestinationExists
  removeSource : Bool := false
  deriving DecidableEq

structure ImportCollectionOperation where
  destination : CollectionRef
  properties : DynamicPropertyMap
  expectedDestinationRevision : ExpectedRevision := none
  policy : ImportPolicy := .merge
  deriving DecidableEq

/-- `std::variant` over the nine operations. -/
inductive DynamicPropertyOperation where
  | setProperty (entry : SetPropertyOperation)
  | setMany (entry : SetManyOperation)
  | removeProperty (entry : RemovePropertyOperation)
  | removeMany (entry : RemoveManyOperation)
  | clearCollection (entry : ClearCollectionOperation)
  | renameCollection (entry : RenameCollectionOperation)
  | transferProperty (entry : TransferPropertyOperation)
  | transferCollection (entry : TransferCollectionOperation)
  | importCollection (entry : ImportCollectionOperation)
  deriving DecidableEq

structure OperationResult where
  status : DynamicPropertyStatus := .adapterError
  message : ByteString := []
  before : List CollectionSnapshot := []
  after : List CollectionSnapshot := []
  resultingRevision : UInt64 := 0
  deriving DecidableEq

def OperationResult.ok (result : OperationResult) : Bool :=
  result.status = .applied

theorem OperationResult.ok_iff {result : OperationResult} :
    result.ok = true ↔ result.status = .applied := by
  simp [OperationResult.ok]

structure DynamicPropertyTransaction where
  operations : List DynamicPropertyOperation
  force : Bool := false
  rollbackOnFailure : Bool := true
  requireAtomic : Bool := true
  auditReason : ByteString := []
  deriving DecidableEq

structure TransactionResult where
  status : DynamicPropertyStatus := .adapterError
  message : ByteString := []
  operationResults : List OperationResult := []
  rolledBack : Bool := false
  transactionId : ByteString := []
  deriving DecidableEq

def TransactionResult.ok (result : TransactionResult) : Bool :=
  result.status = .applied

def operationName : DynamicPropertyOperation → ByteString
  | .setProperty _ => text "set_property"
  | .setMany _ => text "set_many"
  | .removeProperty _ => text "remove_property"
  | .removeMany _ => text "remove_many"
  | .clearCollection _ => text "clear_collection"
  | .renameCollection _ => text "rename_collection"
  | .transferProperty _ => text "transfer_property"
  | .transferCollection _ => text "transfer_collection"
  | .importCollection _ => text "import_collection"

def RenameCollectionOperation.sourceRef (entry : RenameCollectionOperation) : CollectionRef :=
  ⟨entry.target, entry.source⟩

def RenameCollectionOperation.destinationRef (entry : RenameCollectionOperation) :
    CollectionRef :=
  ⟨entry.target, entry.destination⟩

/-- The collections an operation names, source first. -/
def operationCollections : DynamicPropertyOperation → List CollectionRef
  | .renameCollection entry => [entry.sourceRef, entry.destinationRef]
  | .transferProperty entry => [entry.source, entry.destination]
  | .transferCollection entry => [entry.source, entry.destination]
  | .importCollection entry => [entry.destination]
  | .setProperty entry => [entry.ref]
  | .setMany entry => [entry.ref]
  | .removeProperty entry => [entry.ref]
  | .removeMany entry => [entry.ref]
  | .clearCollection entry => [entry.ref]

/-- `operationPrimaryKey` of `events.cpp`: the key an event filter sees. -/
def operationPrimaryKey : DynamicPropertyOperation → Option ByteString
  | .setProperty entry => some entry.key
  | .removeProperty entry => some entry.key
  | .transferProperty entry => some entry.destinationKey
  | _ => none

end DynamicProperties.Cpp
