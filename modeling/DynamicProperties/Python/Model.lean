import Mathlib.Algebra.Group.Nat.Defs
import Mathlib.Data.List.Nodup
import DynamicProperties.Cpp.Snapshot

/-!
# The data of the Python package

`model.py`.  A `str` is its code points, lone surrogates included; an `int` has no
bounds; an attribute declared as a property value can hold any object, so values
are `PyObject` and what may be stored is decided by the code that checks it.

The enumerations have the members of their C++ counterparts and are shared with
them, and so are the capability flags.
-/

namespace DynamicProperties.Python

open Std

abbrev TargetKind := Cpp.TargetKind
abbrev InventorySection := Cpp.InventorySection
abbrev Status := Cpp.DynamicPropertyStatus
abbrev ImportPolicy := Cpp.ImportPolicy
abbrev MutationOrigin := Cpp.MutationOrigin
abbrev Capabilities := Cpp.DynamicPropertyCapabilities

/-! ## Strings -/

instance instNeZeroCodePoints : @NeZero Nat Zero.ofOfNat0 0x110000 := ⟨by decide⟩

abbrev CodePoint := Fin 0x110000

/-- A `str`. -/
abbrev Str := List CodePoint

instance : TransOrd Str := inferInstance

instance : LawfulEqOrd Str := inferInstance

/-- The code points of a string literal of the source. -/
def str (literal : String) : Str := literal.toList.map fun c => Fin.ofNat 0x110000 c.toNat

/-- What a call may raise. -/
inductive PyError where
  | unicodeEncodeError
  | valueError (message : Str)
  | typeError (message : Str)
  | overflowError (message : Str)
  deriving DecidableEq, Repr

def isSurrogate (c : CodePoint) : Bool := 0xD800 ≤ c.val && c.val ≤ 0xDFFF

/-- The bytes UTF-8 has for a code point. -/
def encodeCodePoint (c : CodePoint) : Cpp.ByteString :=
  Cpp.appendUtf8 [] (UInt32.ofNat c.val)

/-- `value.encode("utf-8")`: a surrogate cannot be encoded. -/
def encodeUtf8 (value : Str) : Except PyError Cpp.ByteString :=
  if value.any isSurrogate then .error .unicodeEncodeError
  else .ok (value.flatMap encodeCodePoint)

/-- The text of an integer: the interpreter refuses to write more than 4300 digits. -/
def intText (value : Int) : Except PyError Str :=
  if 10 ^ 4300 ≤ value.natAbs then
    .error (.valueError
      (str "Exceeds the limit (4300 digits) for integer string conversion"))
  else .ok (str (toString value))

/-! ## Objects -/

/-- An object, as far as the code looks at it.  An object of another type is known
by the name of its type, by what `__float__` returns, if it has that, and by
whether `json.dumps` can write it.  `deepcopy` gives an equal object. -/
inductive PyObject where
  | none
  | bool (value : Bool)
  | int (value : Int)
  | float (value : Cpp.Double)
  | str (value : Str)
  | vector3 (x y z : PyObject)
  | other (typeName : Str) (asFloat : Option Cpp.Double) (serializable : Bool)
  deriving DecidableEq

/-- `type(value).__name__`. -/
def PyObject.typeName : PyObject → Str
  | .none => Python.str "NoneType"
  | .bool _ => Python.str "bool"
  | .int _ => Python.str "int"
  | .float _ => Python.str "float"
  | .str _ => Python.str "str"
  | .vector3 _ _ _ => Python.str "Vector3"
  | .other typeName _ _ => typeName

/-- `math.isfinite`. -/
def isFinite : PyObject → Except PyError Bool
  | .bool _ => .ok true
  | .int value =>
      -- the first integer that rounds to a power beyond the range of a double
      if 2 ^ 1024 - 2 ^ 970 ≤ value.natAbs then
        .error (.overflowError (str "int too large to convert to float"))
      else .ok true
  | .float value => .ok value.isFinite
  | .other _ (some value) _ => .ok value.isFinite
  | value => .error (.typeError (str "must be real number, not " ++ value.typeName))

/-- A dictionary of properties.  The code never depends on the order of a stored
dictionary: it sorts the items, or treats them as a set. -/
abbrev DynamicPropertyMap := ExtTreeMap Str PyObject compare

/-- The mapping a caller passes: its items, in their order, with distinct keys. -/
structure PropertyMapping where
  items : List (Str × PyObject)
  distinct : (items.map Prod.fst).Nodup := by decide
  deriving DecidableEq

/-! ## Targets and references -/

structure BlockLocation where
  dimension : Str := str "overworld"
  x : Int := 0
  y : Int := 0
  z : Int := 0
  deriving DecidableEq

/-- `DynamicPropertyTarget`; `inventorySection` is the source's `section`. -/
structure DynamicPropertyTarget where
  kind : TargetKind := .world
  worldId : Str := str "default"
  xuid : Str := []
  entityId : Str := []
  block : Option BlockLocation := none
  inventorySection : InventorySection := .none
  slot : Int := -1
  itemEntityId : Str := []
  deriving DecidableEq

structure CollectionRef where
  target : DynamicPropertyTarget
  collection : Str
  deriving DecidableEq

structure AccessContext where
  pluginId : Str := []
  actorId : Str := []
  rawAdmin : Bool := false
  origin : MutationOrigin := .api
  reason : Str := []
  deriving DecidableEq

structure ValidationLimits where
  maxCollectionBytes : Int := 256
  maxKeyBytes : Int := 256
  maxStringBytes : Int := 32767
  maxPropertiesPerCollection : Int := 16384
  maxTransactionOperations : Int := 4096
  maxImportBytes : Int := 16 * 1024 * 1024
  deriving DecidableEq

/-! ## Snapshots -/

structure CollectionSnapshot where
  ref : CollectionRef
  properties : DynamicPropertyMap := ∅
  byteCount : Nat := 0
  revision : Int := 0
  exists_ : Bool := false
  loaded : Bool := true
  persistent : Bool := true
  writable : Bool := true
  deriving DecidableEq

structure CaptureResult where
  status : Status
  message : Str
  snapshot : Option CollectionSnapshot := none
  deriving DecidableEq

def CaptureResult.ok (result : CaptureResult) : Bool :=
  result.status = .captured

/-! ## Operations -/

/-- `int | None`. -/
abbrev ExpectedRevision := Option Int

structure SetPropertyOperation where
  ref : CollectionRef
  key : Str
  value : PyObject
  expectedRevision : ExpectedRevision := none
  deriving DecidableEq

structure SetManyOperation where
  ref : CollectionRef
  values : PropertyMapping
  expectedRevision : ExpectedRevision := none
  deriving DecidableEq

structure RemovePropertyOperation where
  ref : CollectionRef
  key : Str
  expectedRevision : ExpectedRevision := none
  requireExisting : Bool := false
  deriving DecidableEq

structure RemoveManyOperation where
  ref : CollectionRef
  keys : List Str
  expectedRevision : ExpectedRevision := none
  requireAllExisting : Bool := false
  deriving DecidableEq

structure ClearCollectionOperation where
  ref : CollectionRef
  expectedRevision : ExpectedRevision := none
  removeCollection : Bool := false
  deriving DecidableEq

structure RenameCollectionOperation where
  target : DynamicPropertyTarget
  source : Str
  destination : Str
  expectedSourceRevision : ExpectedRevision := none
  destinationPolicy : ImportPolicy := .failIfDestinationExists
  expectedDestinationRevision : ExpectedRevision := none
  deriving DecidableEq

structure TransferPropertyOperation where
  source : CollectionRef
  sourceKey : Str
  destination : CollectionRef
  destinationKey : Str
  expectedSourceRevision : ExpectedRevision := none
  expectedDestinationRevision : ExpectedRevision := none
  removeSource : Bool := false
  overwrite : Bool := false
  deriving DecidableEq

structure TransferCollectionOperation where
  source : CollectionRef
  destination : CollectionRef
  expectedSourceRevision : ExpectedRevision := none
  expectedDestinationRevision : ExpectedRevision := none
  destinationPolicy : ImportPolicy := .failIfDestinationExists
  removeSource : Bool := false
  deriving DecidableEq

structure ImportCollectionOperation where
  destination : CollectionRef
  properties : PropertyMapping
  expectedDestinationRevision : ExpectedRevision := none
  policy : ImportPolicy := .merge
  deriving DecidableEq

/-- The union `Operation`. -/
inductive Operation where
  | setProperty (entry : SetPropertyOperation)
  | setMany (entry : SetManyOperation)
  | removeProperty (entry : RemovePropertyOperation)
  | removeMany (entry : RemoveManyOperation)
  | clearCollection (entry : ClearCollectionOperation)
  | renameCollection (entry : RenameCollectionOperation)
  | transferProperty (entry : TransferPropertyOperation)
  | transferCollection (entry : TransferCollectionOperation)
  | importCollection (entry : ImportCollectionOperation)
  deriving DecidableEq

structure OperationResult where
  status : Status
  message : Str
  before : List CollectionSnapshot := []
  after : List CollectionSnapshot := []
  resultingRevision : Int := 0
  deriving DecidableEq

def OperationResult.ok (result : OperationResult) : Bool :=
  result.status = .applied

structure Transaction where
  operations : List Operation := []
  force : Bool := false
  rollbackOnFailure : Bool := true
  requireAtomic : Bool := true
  auditReason : Str := []
  deriving DecidableEq

structure TransactionResult where
  status : Status
  message : Str
  operationResults : List OperationResult := []
  rolledBack : Bool := false
  transactionId : Str := []
  deriving DecidableEq

def TransactionResult.ok (result : TransactionResult) : Bool :=
  result.status = .applied

end DynamicProperties.Python
