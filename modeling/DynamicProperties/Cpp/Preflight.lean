import DynamicProperties.Cpp.Adapter

/-!
# Preflight checks of the service

The checks of `service.cpp` that need no listener: `validateCapability`,
`validateOperation` and `validatePropertyLimits`.

`validatePropertyLimits` captures every collection its operations name and then
replays the operations over key sets and existence flags alone; `Shadow` is that
pair of maps.  The captures go through the adapter one at a time, so the
function is written over an arbitrary monad: a call issues them as requests,
while under the commit lock they read one fixed adapter (`limitError`).
-/

namespace DynamicProperties.Cpp

open Std
open DynamicProperties.Library.OrderedMap

/-- A `DynamicPropertyService` over an adapter with the given capabilities; bus
and sink are shared objects, known by number. -/
structure DynamicPropertyService where
  limits : ValidationLimits := {}
  capabilities : DynamicPropertyCapabilities := InMemoryAdapter.capabilities
  eventBus : Nat := 0
  auditSink : Nat := 0
  accessPolicy : DynamicPropertyAccessPolicy := {}

def targetCapability (capabilities : DynamicPropertyCapabilities) : TargetKind → Bool
  | .world => capabilities.world
  | .onlinePlayer => capabilities.onlinePlayers
  | .offlinePlayer => capabilities.offlinePlayers
  | .loadedEntity => capabilities.loadedEntities
  | .storedEntity => capabilities.storedEntities
  | .playerInventorySlot => capabilities.playerInventoryItems
  | .playerArmorSlot => capabilities.playerArmorItems
  | .playerOffhandSlot => capabilities.playerOffhandItems
  | .playerEnderChestSlot => capabilities.playerEnderChestItems
  | .blockContainerSlot => capabilities.blockContainerItems
  | .droppedItem => capabilities.droppedItems
  | .blockEntity => capabilities.blockEntities && capabilities.blockDynamicProperties

namespace DynamicPropertyService

variable (service : DynamicPropertyService)

def validateCapability (target : DynamicPropertyTarget) : Option OperationResult :=
  match validateTarget target with
  | some error => some (failure .invalidTarget error)
  | none =>
      if !targetCapability service.capabilities target.kind then
        some (failure .unsupported
          (text "adapter does not support target kind " ++ targetKindName target.kind))
      else none

/-- The checks every reference goes through: capability, name, access. -/
def checkReference (context : AccessContext) (ref : CollectionRef) (denied : ByteString) :
    Option OperationResult :=
  match service.validateCapability ref.target with
  | some error => some error
  | none =>
      let validation := validateCollectionName ref.collection service.limits
      if !validation.valid then some (failure .invalidCollection validation.message)
      else if !service.accessPolicy.canAccess context ref then
        some (failure .permissionDenied denied)
      else none

/-- One round of the first loop of `validateOperation`. -/
def validateReference (context : AccessContext) (ref : CollectionRef) : Option OperationResult :=
  service.checkReference context ref (text "collection access denied: " ++ ref.collection)

/-- The `validateEntry` closure: a key, with or without its value. -/
def validateEntry (key : ByteString) (value : Option DynamicPropertyValue := none) :
    Option OperationResult :=
  let keyResult := validateKey key service.limits
  if !keyResult.valid then some (failure .invalidKey keyResult.message)
  else match value with
    | none => none
    | some value =>
        let valueResult := validateValue value service.limits
        if !valueResult.valid then some (failure .invalidValue valueResult.message) else none

/-- The loop over the entries of a map. -/
def validateEntries (values : DynamicPropertyMap) : Option OperationResult :=
  values.toList.findSome? fun entry => service.validateEntry entry.1 (some entry.2)

/-- `makeFailure(Unsupported, …)` when a capability is missing. -/
def requireCapability (supported : Bool) (message : String) : Option OperationResult :=
  if supported then none else some (failure .unsupported (text message))

/-- A count against `max_properties_per_collection`. -/
def requireCount (count : Nat) (message : String) : Option OperationResult :=
  if service.limits.maxPropertiesPerCollection < count then
    some (failure .invalidValue (text message))
  else none

/-- The visitor of `validateOperation`. -/
def validateShape : DynamicPropertyOperation → Option OperationResult
  | .setProperty entry =>
      requireCapability service.capabilities.write "adapter does not support writes"
        <|> service.validateEntry entry.key (some entry.value)
  | .setMany entry =>
      requireCapability service.capabilities.bulkSet "adapter does not support bulk writes"
        <|> service.requireCount entry.values.size "bulk write exceeds property-count limit"
        <|> service.validateEntries entry.values
  | .removeProperty entry =>
      requireCapability service.capabilities.remove "adapter does not support removals"
        <|> service.validateEntry entry.key
  | .removeMany entry =>
      requireCapability service.capabilities.remove "adapter does not support removals"
        <|> service.requireCount entry.keys.length "bulk removal exceeds property-count limit"
        <|> entry.keys.findSome? fun key => service.validateEntry key
  | .clearCollection _ =>
      requireCapability service.capabilities.clear "adapter does not support collection clearing"
  | .renameCollection entry =>
      requireCapability service.capabilities.collectionRename
          "adapter does not support collection renaming"
        <|> if entry.source = entry.destination then
              some (failure .invalidCollection
                (text "source and destination collections must differ"))
            else none
  | .transferProperty entry =>
      requireCapability service.capabilities.propertyCopyMove
          "adapter does not support property transfer"
        <|> service.validateEntry entry.sourceKey
        <|> service.validateEntry entry.destinationKey
        <|> if conflictingExpectations (.transferProperty entry) then
              some (failure .invalidValue
                (text "same-collection transfer has conflicting revision expectations"))
            else if entry.removeSource ∧ entry.source = entry.destination ∧
                entry.sourceKey = entry.destinationKey then
              some (failure .invalidKey
                (text "source and destination properties must differ for a move"))
            else none
  | .transferCollection entry =>
      requireCapability service.capabilities.collectionCopyMove
          "adapter does not support collection transfer"
        <|> if entry.removeSource ∧ entry.source = entry.destination then
              some (failure .invalidCollection
                (text "source and destination collections must differ for a move"))
            else none
  | .importCollection entry =>
      requireCapability service.capabilities.exportImport "adapter does not support import"
        <|> service.requireCount entry.properties.size "import exceeds property-count limit"
        <|> service.validateEntries entry.properties

def validateOperation (operation : DynamicPropertyOperation) (context : AccessContext) :
    Option OperationResult :=
  (operationCollections operation).findSome? (service.validateReference context)
    <|> service.validateShape operation

end DynamicPropertyService

/-! ## The limit simulation -/

/-- The two maps of `validatePropertyLimits`. -/
structure Shadow where
  keys : ExtTreeMap CollectionRef (Finset ByteString) compare := ∅
  exists_ : ExtTreeMap CollectionRef Bool compare := ∅

namespace Shadow

/-- `keys[ref]`. -/
def keysOf (shadow : Shadow) (ref : CollectionRef) : Finset ByteString :=
  (shadow.keys[ref]?).getD ∅

/-- `exists[ref]`. -/
def existsOf (shadow : Shadow) (ref : CollectionRef) : Bool :=
  (shadow.exists_[ref]?).getD false

def setKeys (shadow : Shadow) (ref : CollectionRef) (keys : Finset ByteString) : Shadow :=
  { shadow with keys := shadow.keys.insert ref keys }

def setExists (shadow : Shadow) (ref : CollectionRef) (value : Bool) : Shadow :=
  { shadow with exists_ := shadow.exists_.insert ref value }

/-- The keys a destination has before an import policy adds the new ones. -/
def destinationKeys (shadow : Shadow) (policy : ImportPolicy) (ref : CollectionRef) :
    Finset ByteString :=
  if policy = .merge ∧ shadow.existsOf ref then shadow.keysOf ref else ∅

/-- Keys arriving at a destination: `none` when the policy forbids it. -/
def arrive (shadow : Shadow) (policy : ImportPolicy) (ref : CollectionRef)
    (arriving : Finset ByteString) : Option Shadow :=
  if policy = .failIfDestinationExists ∧ shadow.existsOf ref then none
  else some ((shadow.setKeys ref (shadow.destinationKeys policy ref ∪ arriving)).setExists ref true)

/-- Forget a collection that was moved away. -/
def vacate (shadow : Shadow) (ref : CollectionRef) : Shadow :=
  (shadow.setKeys ref ∅).setExists ref false

/-- The visitor of `validatePropertyLimits`: `none` where it returns `false`. -/
def step (shadow : Shadow) : DynamicPropertyOperation → Option Shadow
  | .setProperty entry =>
      some ((shadow.setKeys entry.ref (insert entry.key (shadow.keysOf entry.ref))).setExists
        entry.ref true)
  | .setMany entry =>
      some ((shadow.setKeys entry.ref (shadow.keysOf entry.ref ∪ keySet entry.values)).setExists
        entry.ref true)
  | .removeProperty entry =>
      if entry.requireExisting ∧ entry.key ∉ shadow.keysOf entry.ref then none
      else some (shadow.setKeys entry.ref ((shadow.keysOf entry.ref).erase entry.key))
  | .removeMany entry =>
      if entry.requireAllExisting ∧ ∃ key ∈ entry.keys, key ∉ shadow.keysOf entry.ref then none
      else some (shadow.setKeys entry.ref (shadow.keysOf entry.ref \ entry.keys.toFinset))
  | .clearCollection entry =>
      some ((shadow.setKeys entry.ref ∅).setExists entry.ref (!entry.removeCollection))
  | .renameCollection entry =>
      if !shadow.existsOf entry.sourceRef then none
      else
        (shadow.arrive entry.destinationPolicy entry.destinationRef
          (shadow.keysOf entry.sourceRef)).map (·.vacate entry.sourceRef)
  | .transferProperty entry =>
      if entry.sourceKey ∉ shadow.keysOf entry.source then none
      else if entry.destinationKey ∈ shadow.keysOf entry.destination ∧ !entry.overwrite then none
      else
        let shadow := (shadow.setKeys entry.destination
          (insert entry.destinationKey (shadow.keysOf entry.destination))).setExists
            entry.destination true
        if entry.removeSource then
          some (shadow.setKeys entry.source ((shadow.keysOf entry.source).erase entry.sourceKey))
        else some shadow
  | .transferCollection entry =>
      if !shadow.existsOf entry.source then none
      else
        (shadow.arrive entry.destinationPolicy entry.destination
          (shadow.keysOf entry.source)).map fun shadow =>
            if entry.removeSource then shadow.vacate entry.source else shadow
  | .importCollection entry =>
      shadow.arrive entry.policy entry.destination (keySet entry.properties)

/-- Some simulated collection holds more keys than allowed. -/
def exceeds (shadow : Shadow) (limit : Nat) : Bool :=
  shadow.keys.toList.any fun entry => limit < entry.2.card

/-- The second loop: stop quietly at the first operation that cannot apply, and
report the first state that exceeds the limit. -/
def overflows (limit : Nat) : List DynamicPropertyOperation → Shadow → Bool
  | [], _ => false
  | operation :: rest, shadow =>
      match shadow.step operation with
      | none => false
      | some shadow => if shadow.exceeds limit then true else overflows limit rest shadow

/-- What the first loop records of one captured collection. -/
def record (shadow : Shadow) (ref : CollectionRef) (snapshot : CollectionSnapshot) : Shadow :=
  let shadow := shadow.setExists ref snapshot.exists_
  if snapshot.properties.isEmpty then shadow
  else shadow.setKeys ref (keySet snapshot.properties)

end Shadow

/-- The members of an `std::set<CollectionRef>`, in its order. -/
def refSet (refs : List CollectionRef) : List CollectionRef :=
  (refs.foldl (fun (set : ExtTreeSet CollectionRef compare) ref => set.insert ref) ∅).toList

/-- The collections named by any operation of a list, each once, in order. -/
def namedCollections (operations : List DynamicPropertyOperation) : List CollectionRef :=
  refSet (operations.flatMap operationCollections)

section Limits

variable {m : Type → Type} [Monad m] (capture : CollectionRef → m CaptureResult)

/-- The first loop of `validatePropertyLimits`. -/
def captureShadow : List CollectionRef → Shadow → m (Except OperationResult Shadow)
  | [], shadow => pure (.ok shadow)
  | ref :: rest, shadow => do
      let captured ← capture ref
      match captured.ok, captured.snapshot with
      | true, some snapshot => captureShadow rest (shadow.record ref snapshot)
      | ok, _ =>
          pure (.error (failure (if ok then .adapterError else captured.status)
            (if captured.message.isEmpty then
                text "adapter capture failed during commit validation"
              else captured.message)))

def validatePropertyLimits (limits : ValidationLimits)
    (operations : List DynamicPropertyOperation) : m (Option OperationResult) := do
  match ← captureShadow capture (namedCollections operations) {} with
  | .error error => pure (some error)
  | .ok shadow =>
      if shadow.overflows limits.maxPropertiesPerCollection operations then
        pure (some (failure .invalidValue
          (text "resulting collection exceeds property-count limit")))
      else pure none

end Limits

/-- `validatePropertyLimits` on one fixed adapter, as it runs under the commit
lock. -/
def limitError (adapter : InMemoryAdapter) (limits : ValidationLimits)
    (operations : List DynamicPropertyOperation) : Option OperationResult :=
  Id.run (validatePropertyLimits (fun ref => pure (adapter.capture ref)) limits operations)

end DynamicProperties.Cpp
