import DynamicProperties.Cpp.Operations

/-!
# Events, filters, the event bus and the audit record

`events.h`, `events.cpp` and the record of `audit.h`.  A listener is foreign
code: a subscription is kept as its filter, and what a listener does to the
event it is handed is left to the step relation of the service.  The bus matches
an event against its filters once, before the first listener runs, so matching
is a function of the bus and of the event as published.
-/

namespace DynamicProperties.Cpp

open Std

inductive DynamicPropertyEventKind where
  | beforeMutation
  | afterMutation
  | beforeTransaction
  | afterTransaction
  | beforeExternalMutation
  | afterExternalMutation
  | collectionMigrated
  deriving DecidableEq, Repr

structure DynamicPropertyEvent where
  kind : DynamicPropertyEventKind := .beforeMutation
  transactionId : ByteString := []
  operationName : ByteString := []
  actor : AccessContext := {}
  collections : List CollectionRef := []
  key : Option ByteString := none
  before : List CollectionSnapshot := []
  after : List CollectionSnapshot := []
  cancellable : Bool := false
  cancelled : Bool := false
  cancellationReason : ByteString := []
  deriving DecidableEq

structure EventFilter where
  kind : Option DynamicPropertyEventKind := none
  targetKind : Option TargetKind := none
  target : Option DynamicPropertyTarget := none
  collection : Option ByteString := none
  key : Option ByteString := none
  deriving DecidableEq

/-- An optional filter field: absent, or equal to the event's value. -/
def admits {α : Type} [DecidableEq α] (wanted : Option α) (value : α) : Bool :=
  wanted.isNone || wanted = some value

def EventFilter.matches (filter : EventFilter) (event : DynamicPropertyEvent) : Bool :=
  if !admits filter.kind event.kind then false
  else if filter.key.isSome ∧ filter.key ≠ event.key then false
  else if filter.targetKind.isNone ∧ filter.target.isNone ∧ filter.collection.isNone then true
  else event.collections.any fun ref =>
    admits filter.targetKind ref.target.kind && admits filter.target ref.target
      && admits filter.collection ref.collection

/-- The subscriptions of a `DynamicPropertyEventBus`, by identifier. -/
structure DynamicPropertyEventBus where
  subscriptions : ExtTreeMap UInt64 EventFilter compare := ∅
  nextSubscriptionId : UInt64 := 1

namespace DynamicPropertyEventBus

variable (bus : DynamicPropertyEventBus)

/-- `emplace` keeps an existing subscription with the same identifier. -/
def subscribe (filter : EventFilter) : UInt64 × DynamicPropertyEventBus :=
  (bus.nextSubscriptionId,
    { subscriptions := bus.subscriptions.insertIfNew bus.nextSubscriptionId filter
      nextSubscriptionId := bus.nextSubscriptionId + 1 })

def unsubscribe (subscriptionId : UInt64) : Bool × DynamicPropertyEventBus :=
  (bus.subscriptions.contains subscriptionId,
    { bus with subscriptions := bus.subscriptions.erase subscriptionId })

/-- The first half of `publish`: the subscriptions whose filter matches, in
order of their identifiers. -/
def listenersFor (event : DynamicPropertyEvent) : List UInt64 :=
  bus.subscriptions.toList.filterMap fun entry =>
    if entry.2.matches event then some entry.1 else none

end DynamicPropertyEventBus

structure DynamicPropertyAuditRecord where
  transactionId : ByteString
  operationName : ByteString
  actor : AccessContext
  status : DynamicPropertyStatus
  message : ByteString
  before : List CollectionSnapshot
  after : List CollectionSnapshot
  external : Bool := false
  rolledBack : Bool := false
  deriving DecidableEq

end DynamicProperties.Cpp
