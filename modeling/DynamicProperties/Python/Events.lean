import DynamicProperties.Cpp.Events
import DynamicProperties.Python.Adapter

/-!
# Events, filters, the event bus and the audit record of the Python package

`events.py` and the record of `audit.py`.  As in the C++ library a listener is
foreign code and a subscription is kept as its filter.  A dictionary keeps the
order of its insertions, so the listeners of a bus are a list; the lock makes
each function of the bus one step.
-/

namespace DynamicProperties.Python

abbrev EventKind := Cpp.DynamicPropertyEventKind

structure Event where
  kind : EventKind
  transactionId : Str := []
  operationName : Str := []
  actor : AccessContext := {}
  collections : List CollectionRef := []
  key : Option Str := none
  before : List CollectionSnapshot := []
  after : List CollectionSnapshot := []
  cancellable : Bool := false
  cancelled : Bool := false
  cancellationReason : Str := []
  deriving DecidableEq

structure EventFilter where
  kind : Option EventKind := none
  targetKind : Option TargetKind := none
  target : Option DynamicPropertyTarget := none
  collection : Option Str := none
  key : Option Str := none
  deriving DecidableEq

def EventFilter.matches (filter : EventFilter) (event : Event) : Bool :=
  if filter.kind.isSome ∧ filter.kind ≠ some event.kind then false
  else if filter.key.isSome ∧ filter.key ≠ event.key then false
  else if filter.targetKind.isNone ∧ filter.target.isNone ∧ filter.collection.isNone then true
  else event.collections.any fun ref =>
    Cpp.admits filter.targetKind ref.target.kind && Cpp.admits filter.target ref.target
      && Cpp.admits filter.collection ref.collection

/-- The subscriptions of an `EventBus`, in the order they were made. -/
structure EventBus where
  listeners : List (Nat × EventFilter) := []
  nextId : Nat := 1

namespace EventBus

variable (bus : EventBus)

def subscribe (filter : EventFilter) : Nat × EventBus :=
  (bus.nextId,
    { listeners := bus.listeners ++ [(bus.nextId, filter)], nextId := bus.nextId + 1 })

def unsubscribe (subscriptionId : Nat) : Bool × EventBus :=
  (bus.listeners.any (·.1 = subscriptionId),
    { bus with listeners := bus.listeners.filter (·.1 ≠ subscriptionId) })

/-- The first half of `publish`: the listeners whose filter matches. -/
def listenersFor (event : Event) : List Nat :=
  bus.listeners.filterMap fun entry => if entry.2.matches event then some entry.1 else none

end EventBus

structure AuditRecord where
  transactionId : Str
  operationName : Str
  actor : AccessContext
  status : Status
  message : Str
  before : List CollectionSnapshot := []
  after : List CollectionSnapshot := []
  external : Bool := false
  rolledBack : Bool := false
  deriving DecidableEq

/-! ## What events say about operations -/

/-- `operation_name`. -/
def operationName : Operation → Str
  | .setProperty _ => str "set_property"
  | .setMany _ => str "set_many"
  | .removeProperty _ => str "remove_property"
  | .removeMany _ => str "remove_many"
  | .clearCollection _ => str "clear_collection"
  | .renameCollection _ => str "rename_collection"
  | .transferProperty _ => str "transfer_property"
  | .transferCollection _ => str "transfer_collection"
  | .importCollection _ => str "import_collection"

/-- `operation_key`. -/
def operationKey : Operation → Option Str
  | .setProperty entry => some entry.key
  | .removeProperty entry => some entry.key
  | .transferProperty entry => some entry.destinationKey
  | _ => none

end DynamicProperties.Python
