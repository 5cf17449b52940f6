import Mathlib.Data.List.DropRight
import DynamicProperties.Library.Fallible
import DynamicProperties.Python.Adapter

/-!
# What the Python service accepts

The checks of `service.py` an operation goes through before anything is written:
names, values, targets, access, and `_validate_operation` itself.

A check passes, rejects the operation with a result, or raises; `Check` is that,
and `do` runs checks in their order.
-/

namespace DynamicProperties.Python

open DynamicProperties.Library.Fallible

/-! ## Names and values -/

/-- The checks `_validate_key` and `_validate_collection` share.  Both first ask
for a `str`, which a name of the model always is. -/
def validateName (subject : String) (limit : Int) (name : Str) : Option Str :=
  if name.isEmpty then some (str subject ++ str " must not be empty")
  else if name.contains 0 then some (str subject ++ str " contains NUL")
  else match encodeUtf8 name with
    | .error _ => some (str subject ++ str " must be valid UTF-8")
    | .ok encoded =>
        if limit < encoded.length then some (str subject ++ str " exceeds byte limit") else none

/-- `_validate_key`. -/
def validateKey (key : Str) (limits : ValidationLimits) : Option Str :=
  validateName "property key" limits.maxKeyBytes key

/-- `_validate_collection`. -/
def validateCollection (name : Str) (limits : ValidationLimits) : Option Str :=
  validateName "collection name" limits.maxCollectionBytes name

/-- `all(math.isfinite(v) for v in …)`: stops at the first that is not. -/
def allFinite : List PyObject → Except PyError Bool
  | [] => return true
  | value :: rest => do
      if ← isFinite value then allFinite rest else return false

/-- `_validate_value`. -/
def validateValue (value : PyObject) (limits : ValidationLimits) : Except PyError (Option Str) :=
  match valueType value, value with
  | .error (.typeError message), _ => return some message
  | .error raised, _ => .error raised
  | .ok _, .float number =>
      return if number.isFinite then none else some (str "numbers must be finite")
  | .ok _, .str text =>
      match encodeUtf8 text with
      | .error _ => return some (str "string must be valid UTF-8")
      | .ok encoded =>
          return if limits.maxStringBytes < encoded.length then
            some (str "string exceeds byte limit") else none
  | .ok _, .vector3 x y z => do
      return if ← allFinite [x, y, z] then none else some (str "vector coordinates must be finite")
  | .ok _, _ => return none

/-! ## Targets -/

/-- `item_sections`. -/
def itemSection : TargetKind → Option InventorySection
  | .playerInventorySlot => some .main
  | .playerArmorSlot => some .armor
  | .playerOffhandSlot => some .offhand
  | .playerEnderChestSlot => some .enderChest
  | _ => none

/-- `validate_target`. -/
def validateTarget (target : DynamicPropertyTarget) : Option Str :=
  if target.worldId.isEmpty then some (str "world id must not be empty")
  else if (target.kind = .onlinePlayer ∨ target.kind = .offlinePlayer) ∧ target.xuid.isEmpty then
    some (str "player target requires an XUID")
  else if (target.kind = .loadedEntity ∨ target.kind = .storedEntity) ∧ target.entityId.isEmpty then
    some (str "entity target requires an entity identifier")
  else if ∃ expected ∈ itemSection target.kind, target.xuid.isEmpty ∨ target.slot < 0 ∨
      target.inventorySection ≠ expected then
    some (str ("player item target requires an XUID, non-negative slot, and matching "
      ++ "inventory section"))
  else if target.kind = .blockContainerSlot ∧ (target.block.isNone ∨ target.slot < 0 ∨
      target.inventorySection ≠ .blockContainer) then
    some (str ("block-container target requires a block location, non-negative slot, and "
      ++ "block-container section"))
  else if target.kind = .droppedItem ∧ target.itemEntityId.isEmpty then
    some (str "dropped-item target requires an entity identifier")
  else if target.kind = .blockEntity ∧ target.block.isNone then
    some (str "block-entity target requires a block location")
  else none

/-! ## Access -/

def underscore : CodePoint := 0x5F

/-- What `lower()` and the substitution of `_normalize` make of one character.
Two characters outside ASCII have an ASCII letter in their lower case: the Kelvin
sign, and the dotted capital I, which also leaves a combining dot. -/
def normalizeCodePoint (c : CodePoint) : Str :=
  if (0x61 ≤ c ∧ c ≤ 0x7A) ∨ (0x30 ≤ c ∧ c ≤ 0x39) ∨ c = 0x2E ∨ c = underscore ∨ c = 0x2D then [c]
  else if 0x41 ≤ c ∧ c ≤ 0x5A then [c + 0x20]
  else if c = 0x212A then str "k"
  else if c = 0x0130 then str "i_"
  else [underscore]

/-- `AccessPolicy._normalize`. -/
def normalize (value : Str) : Str :=
  ((value.flatMap normalizeCodePoint).dropWhile (· = underscore)).rdropWhile (· = underscore)

/-- `AccessPolicy`, by the prefix it was constructed with. -/
structure AccessPolicy where
  configured : Str := str "endstone-plugin"
  deriving DecidableEq

namespace AccessPolicy

variable (policy : AccessPolicy)

/-- The prefix the constructor stores. -/
def prefix_ : Str :=
  let normalized := normalize policy.configured
  if normalized.isEmpty then str "endstone-plugin" else normalized

def pluginPrefix (pluginId : Str) : Str :=
  let normalized := normalize pluginId
  if normalized.isEmpty then [] else policy.prefix_ ++ str ":" ++ normalized ++ str ":"

def pluginCollection (pluginId : Str) (logicalCollection : Str := str "default") : Str :=
  let pluginPrefix := policy.pluginPrefix pluginId
  let logical := normalize logicalCollection
  if pluginPrefix.isEmpty || logical.isEmpty then [] else pluginPrefix ++ logical

def canAccess (context : AccessContext) (ref : CollectionRef) : Bool :=
  if context.rawAdmin then true
  else
    let pluginPrefix := policy.pluginPrefix context.pluginId
    !pluginPrefix.isEmpty && pluginPrefix.isPrefixOf ref.collection

end AccessPolicy

/-! ## Operations -/

/-- Why a check does not pass. -/
inductive Stop where
  | rejected (result : OperationResult)
  | raised (error : PyError)

abbrev Check := Except Stop Unit

def reject (status : Status) (message : Str) : Check :=
  .error (.rejected { status, message })

/-- `if not supported: return OperationResult(status, message)`. -/
def require (supported : Prop) [Decidable supported] (status : Status) (message : Str) : Check :=
  if supported then .ok () else reject status message

/-- `if error := …: return OperationResult(status, error)`. -/
def requireNone (status : Status) : Option Str → Check
  | none => .ok ()
  | some error => reject status error

/-- A function of checks, as its caller sees it. -/
def Check.report : Check → Except PyError (Option OperationResult)
  | .ok () => .ok none
  | .error (.rejected result) => .ok (some result)
  | .error (.raised error) => .error error

/-- A `DynamicPropertyService` over an adapter with the given capabilities.  Event
buses and audit sinks may be shared between services and are named by numbers. -/
structure DynamicPropertyService where
  limits : ValidationLimits := {}
  capabilities : Capabilities := InMemoryAdapter.capabilities
  accessPolicy : AccessPolicy := {}
  eventBus : Nat := 0
  auditSink : Nat := 0

namespace DynamicPropertyService

variable (service : DynamicPropertyService)

/-- `_target_capable`. -/
def targetCapable (kind : TargetKind) : Bool :=
  match kind with
  | .world => service.capabilities.world
  | .onlinePlayer => service.capabilities.onlinePlayers
  | .offlinePlayer => service.capabilities.offlinePlayers
  | .loadedEntity => service.capabilities.loadedEntities
  | .storedEntity => service.capabilities.storedEntities
  | .playerInventorySlot => service.capabilities.playerInventoryItems
  | .playerArmorSlot => service.capabilities.playerArmorItems
  | .playerOffhandSlot => service.capabilities.playerOffhandItems
  | .playerEnderChestSlot => service.capabilities.playerEnderChestItems
  | .blockContainerSlot => service.capabilities.blockContainerItems
  | .droppedItem => service.capabilities.droppedItems
  | .blockEntity =>
      service.capabilities.blockEntities && service.capabilities.blockDynamicProperties

/-- `_validate_ref`. -/
def validateRef (context : AccessContext) (ref : CollectionRef) : Check := do
  requireNone .invalidTarget (validateTarget ref.target)
  require (service.targetCapable ref.target.kind) .unsupported
    (str "target kind " ++ kindValue ref.target.kind ++ str " is unsupported")
  requireNone .invalidCollection (validateCollection ref.collection service.limits)
  require (service.accessPolicy.canAccess context ref) .permissionDenied
    (str "collection access denied: " ++ ref.collection)

/-- `validate_entry(key)`. -/
def validateEntryKey (key : Str) : Check :=
  requireNone .invalidKey (validateKey key service.limits)

/-- `validate_entry(key, value)`: a value that is `None` is not looked at, as if
there were none. -/
def validateEntry (key : Str) (value : PyObject) : Check := do
  service.validateEntryKey key
  match value with
  | .none => return ()
  | value =>
      match validateValue value service.limits with
      | .error raised => .error (.raised raised)
      | .ok verdict => requireNone .invalidValue verdict

def validateEntries (mapping : PropertyMapping) : Check :=
  mapping.items.forM fun entry => service.validateEntry entry.1 entry.2

/-- A count against `max_properties_per_collection`. -/
def requireCount (count : Nat) (message : String) : Check :=
  require (count ≤ service.limits.maxPropertiesPerCollection) .invalidValue (str message)

/-- The branches of `_validate_operation`. -/
def validateShape : Operation → Check
  | .setProperty entry => do
      require service.capabilities.write .unsupported (str "adapter does not support writes")
      service.validateEntry entry.key entry.value
  | .setMany entry => do
      require service.capabilities.bulkSet .unsupported
        (str "adapter does not support bulk writes")
      service.requireCount entry.values.items.length "bulk write exceeds property-count limit"
      service.validateEntries entry.values
  | .removeProperty entry => do
      require service.capabilities.remove .unsupported (str "adapter does not support removals")
      service.validateEntryKey entry.key
  | .removeMany entry => do
      require service.capabilities.remove .unsupported (str "adapter does not support removals")
      service.requireCount entry.keys.length "bulk removal exceeds property-count limit"
      entry.keys.forM service.validateEntryKey
  | .clearCollection _ =>
      require service.capabilities.clear .unsupported
        (str "adapter does not support collection clearing")
  | .renameCollection entry => do
      require service.capabilities.collectionRename .unsupported
        (str "adapter does not support collection renaming")
      require (entry.source ≠ entry.destination) .invalidCollection
        (str "source and destination collections must differ")
  | .transferProperty entry => do
      require service.capabilities.propertyCopyMove .unsupported
        (str "adapter does not support property transfer")
      service.validateEntryKey entry.sourceKey
      service.validateEntryKey entry.destinationKey
      require (¬ (entry.source = entry.destination ∧ entry.expectedSourceRevision.isSome ∧
          entry.expectedDestinationRevision.isSome ∧
          entry.expectedSourceRevision ≠ entry.expectedDestinationRevision)) .invalidValue
        (str "source and destination revisions must match for a same-collection transfer")
      require (¬ (entry.removeSource ∧ entry.source = entry.destination ∧
          entry.sourceKey = entry.destinationKey)) .invalidKey
        (str "source and destination properties must differ for a move")
  | .transferCollection entry => do
      require service.capabilities.collectionCopyMove .unsupported
        (str "adapter does not support collection transfer")
      require (¬ (entry.removeSource ∧ entry.source = entry.destination)) .invalidCollection
        (str "source and destination collections must differ for a move")
  | .importCollection entry => do
      require service.capabilities.exportImport .unsupported
        (str "adapter does not support import")
      service.requireCount entry.properties.items.length "import exceeds property-count limit"
      service.validateEntries entry.properties

/-- The checks of `_validate_operation`, in their order. -/
def checkOperation (operation : Operation) (context : AccessContext) : Check := do
  (operationRefs operation).forM (service.validateRef context)
  service.validateShape operation

/-- `_validate_operation`. -/
def validateOperation (operation : Operation) (context : AccessContext) :
    Except PyError (Option OperationResult) :=
  (service.checkOperation operation context).report

end DynamicPropertyService

/-! ## What a passed check says -/

section Passed

theorem bind_passes {first : Check} {second : Unit → Check} :
    (first >>= second) = .ok () ↔ first = .ok () ∧ second () = .ok () :=
  bind_eq_ok.trans ⟨fun ⟨_, h⟩ => h, fun h => ⟨(), h⟩⟩

@[simp] theorem require_passes {supported : Prop} [Decidable supported] {status : Status}
    {message : Str} : require supported status message = .ok () ↔ supported := by
  unfold require
  split <;> simp_all [reject]

@[simp] theorem requireNone_passes {status : Status} {error : Option Str} :
    requireNone status error = .ok () ↔ error = none := by
  cases error <;> simp [requireNone, reject]

theorem report_none {check : Check} : check.report = .ok none ↔ check = .ok () := by
  match check with
  | .ok () => simp [Check.report]
  | .error (.rejected result) => simp [Check.report]
  | .error (.raised error) => simp [Check.report]

end Passed

end DynamicProperties.Python
