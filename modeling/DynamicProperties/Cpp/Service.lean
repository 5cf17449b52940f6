import DynamicProperties.Library.Requests
import DynamicProperties.Cpp.Codec
import DynamicProperties.Cpp.Events
import DynamicProperties.Cpp.Preflight

/-!
# The coordinating service

`service.cpp`.  Each public function is a program of requests to the shared
world: the adapter, the transaction counter, the event buses and the audit
sinks.  A request is what happens without anybody else in between.  Adapter
calls outside the commit lock are single requests; everything a function does
while it holds `mutation_mutex_` is one request, `commitApply`, `commitTransact`
or `revalidate`.

Listeners are foreign code that runs inside `publish`.  The program hands a
listener the event as the listeners before it left it; what comes back, and
whether the listener threw, is not determined.  A nested service call made by a
listener is a call of its own that takes its steps before the listener's answer.
-/

namespace DynamicProperties.Cpp

open Std
open DynamicProperties.Library.Requests

/-! ## The shared world and its requests -/

/-- What the services of one process share. -/
structure World where
  adapter : InMemoryAdapter := {}
  serviceTransactionCounter : UInt64 := 1
  eventBuses : Nat → DynamicPropertyEventBus := fun _ => {}
  auditSinks : Nat → List DynamicPropertyAuditRecord := fun _ => []

/-- What a transaction does under the commit lock: the captures before, the
refusal or the adapter's result, the captures after. -/
structure TransactCommit where
  before : List CollectionSnapshot
  outcome : Except OperationResult TransactionResult
  after : List CollectionSnapshot

inductive Request where
  | capture (ref : CollectionRef)
  | listCollections (target : DynamicPropertyTarget)
  | makeTransactionId
  | matchListeners (bus : Nat) (event : DynamicPropertyEvent)
  /-- Hand `current` to a listener.  `published` is the event as it was announced
  and `position` the number of listeners that received it before. -/
  | invoke (listener : UInt64) (published : DynamicPropertyEvent) (position : Nat)
      (current : DynamicPropertyEvent)
  | commitApply (service : DynamicPropertyService) (operation : DynamicPropertyOperation)
      (context : AccessContext) (force : Bool)
  | commitTransact (service : DynamicPropertyService) (transaction : DynamicPropertyTransaction)
      (context : AccessContext) (collections : List CollectionRef)
  | revalidate (service : DynamicPropertyService) (operation : DynamicPropertyOperation)
      (context : AccessContext)
  | flush (target : DynamicPropertyTarget)
  | record (sink : Nat) (entry : DynamicPropertyAuditRecord)

/-- The answers; a listener returns the event and whether it threw, a sink
whether it threw. -/
abbrev Response : Request → Type
  | .capture _ => CaptureResult
  | .listCollections _ => ListCollectionsResult
  | .makeTransactionId => ByteString
  | .matchListeners _ _ => List UInt64
  | .invoke _ _ _ _ => DynamicPropertyEvent × Bool
  | .commitApply _ _ _ _ => Except OperationResult OperationResult
  | .commitTransact _ _ _ _ => TransactCommit
  | .revalidate _ _ _ => Option OperationResult
  | .flush _ => OperationResult
  | .record _ _ => Bool

/-- The interface between the service and the world. -/
abbrev serviceInterface : Interface := ⟨Request, Response⟩

abbrev ServiceProgram := Program serviceInterface

/-! ## What happens under the commit lock -/

/-- The captures of several collections; a failing capture leaves no snapshot. -/
def captureEach {m : Type → Type} [Monad m] (capture : CollectionRef → m CaptureResult) :
    List CollectionRef → m (List CollectionSnapshot)
  | [] => pure []
  | ref :: rest => do
      let captured ← capture ref
      let snapshots ← captureEach capture rest
      pure (captured.snapshot.toList ++ snapshots)

namespace DynamicPropertyService

variable (service : DynamicPropertyService)

/-- The loop over `validateOperation`: the first error, if any. -/
def validateOperations (operations : List DynamicPropertyOperation) (context : AccessContext) :
    Option OperationResult :=
  operations.findSome? fun operation => service.validateOperation operation context

/-- The revalidation every commit repeats under the lock. -/
def commitError (adapter : InMemoryAdapter) (operations : List DynamicPropertyOperation)
    (context : AccessContext) : Option OperationResult :=
  service.validateOperations operations context
    <|> limitError adapter service.limits operations

/-- The critical section of `apply`. -/
def commitApply (adapter : InMemoryAdapter) (operation : DynamicPropertyOperation)
    (context : AccessContext) (force : Bool) :
    Except OperationResult OperationResult × InMemoryAdapter :=
  match service.commitError adapter [operation] context with
  | some error => (.error error, adapter)
  | none =>
      let (result, adapter) := adapter.apply operation force
      (.ok result, adapter)

/-- The critical section of `transact`. -/
def commitTransact (adapter : InMemoryAdapter) (transaction : DynamicPropertyTransaction)
    (context : AccessContext) (collections : List CollectionRef) :
    TransactCommit × InMemoryAdapter :=
  let captures (adapter : InMemoryAdapter) :=
    Id.run (captureEach (fun ref => pure (adapter.capture ref)) collections)
  match service.commitError adapter transaction.operations context with
  | some error => (⟨captures adapter, .error error, captures adapter⟩, adapter)
  | none =>
      let (result, committed) := adapter.transact transaction
      (⟨captures adapter, .ok result, captures committed⟩, committed)

end DynamicPropertyService

/-! ## The step relation -/

/-- The answer to a request.  For listeners and sinks this is the answer of the
idle ones, which change nothing and do not throw. -/
def respond (world : World) : (r : Request) → Response r × World
  | .capture ref => (world.adapter.capture ref, world)
  | .listCollections target => (world.adapter.listCollections target, world)
  | .makeTransactionId =>
      (text "dptx-" ++ decimal world.serviceTransactionCounter,
        { world with serviceTransactionCounter := world.serviceTransactionCounter + 1 })
  | .matchListeners bus event => ((world.eventBuses bus).listenersFor event, world)
  | .invoke _ _ _ current => ((current, false), world)
  | .commitApply service operation context force =>
      let (outcome, adapter) := service.commitApply world.adapter operation context force
      (outcome, { world with adapter })
  | .commitTransact service transaction context collections =>
      let (commit, adapter) := service.commitTransact world.adapter transaction context collections
      (commit, { world with adapter })
  | .revalidate service operation context =>
      (service.commitError world.adapter [operation] context, world)
  | .flush target => (world.adapter.flush target, world)
  | .record sink entry =>
      (false,
        { world with auditSinks :=
            Function.update world.auditSinks sink (world.auditSinks sink ++ [entry]) })

/-- A request and an answer to it.  A listener may answer anything; a sink either
keeps the record, or throws and does not. -/
def Acts (world : World) : (r : Request) → Response r → World → Prop
  | .invoke _ _ _ _, _, world' => world' = world
  | .record sink entry, threw, world' =>
      (threw = true ∧ world' = world) ∨ (threw, world') = respond world (.record sink entry)
  | r, response, world' => (response, world') = respond world r

/-- Change one event bus. -/
def World.updateBus (world : World) (bus : Nat)
    (change : DynamicPropertyEventBus → DynamicPropertyEventBus) : World :=
  { world with eventBuses :=
      Function.update world.eventBuses bus (change (world.eventBuses bus)) }

/-- What happens to the world from outside the calls: targets come and go, and
listeners are subscribed and unsubscribed. -/
inductive Interferes (world : World) : World → Prop
  | setTargetAvailable (target : DynamicPropertyTarget) (available : Bool) :
      Interferes world
        { world with adapter := world.adapter.setTargetAvailable target available }
  | subscribe (bus : Nat) (filter : EventFilter) :
      Interferes world (world.updateBus bus fun events => (events.subscribe filter).2)
  | unsubscribe (bus : Nat) (subscriptionId : UInt64) :
      Interferes world (world.updateBus bus fun events => (events.unsubscribe subscriptionId).2)

namespace Ask

abbrev capture (ref : CollectionRef) : ServiceProgram CaptureResult :=
  Program.call (.capture ref) .done

abbrev listCollections (target : DynamicPropertyTarget) : ServiceProgram ListCollectionsResult :=
  Program.call (.listCollections target) .done

abbrev makeTransactionId : ServiceProgram ByteString :=
  Program.call .makeTransactionId .done

abbrev matchListeners (bus : Nat) (event : DynamicPropertyEvent) : ServiceProgram (List UInt64) :=
  Program.call (.matchListeners bus event) .done

abbrev invoke (listener : UInt64) (published : DynamicPropertyEvent) (position : Nat)
    (current : DynamicPropertyEvent) : ServiceProgram (DynamicPropertyEvent × Bool) :=
  Program.call (.invoke listener published position current) .done

abbrev commitApply (service : DynamicPropertyService) (operation : DynamicPropertyOperation)
    (context : AccessContext) (force : Bool) :
    ServiceProgram (Except OperationResult OperationResult) :=
  Program.call (.commitApply service operation context force) .done

abbrev commitTransact (service : DynamicPropertyService) (transaction : DynamicPropertyTransaction)
    (context : AccessContext) (collections : List CollectionRef) :
    ServiceProgram TransactCommit :=
  Program.call (.commitTransact service transaction context collections) .done

abbrev revalidate (service : DynamicPropertyService) (operation : DynamicPropertyOperation)
    (context : AccessContext) : ServiceProgram (Option OperationResult) :=
  Program.call (.revalidate service operation context) .done

abbrev flush (target : DynamicPropertyTarget) : ServiceProgram OperationResult :=
  Program.call (.flush target) .done

abbrev record (sink : Nat) (entry : DynamicPropertyAuditRecord) : ServiceProgram Bool :=
  Program.call (.record sink entry) .done

end Ask

/-! ## Publishing -/

/-- The second half of `DynamicPropertyEventBus::publish`: the listeners in turn,
each with the event as the previous ones left it.  Returns the final event and
the listeners that threw. -/
def invokeAll (published : DynamicPropertyEvent) :
    Nat → List UInt64 → DynamicPropertyEvent →
      ServiceProgram (DynamicPropertyEvent × List UInt64)
  | _, [], current => pure (current, [])
  | position, listener :: rest, current => do
      let (current, threw) ← Ask.invoke listener published position current
      let (current, failures) ← invokeAll published (position + 1) rest current
      pure (current, if threw then listener :: failures else failures)

/-- `DynamicPropertyEventBus::publish`. -/
def publish (bus : Nat) (event : DynamicPropertyEvent) :
    ServiceProgram (DynamicPropertyEvent × List UInt64) := do
  let listeners ← Ask.matchListeners bus event
  invokeAll event 0 listeners event

/-- A failed listener cancels a cancellable event, with a default reason. -/
def failClosed (event : DynamicPropertyEvent) (failures : List UInt64) (reason : String) :
    DynamicPropertyEvent :=
  if failures.isEmpty then event
  else
    { event with
      cancelled := true
      cancellationReason :=
        if event.cancellationReason.isEmpty then text reason else event.cancellationReason }

/-- The fields every single-operation event starts from. -/
def operationEvent (kind : DynamicPropertyEventKind) (operation : DynamicPropertyOperation)
    (context : AccessContext) (transactionId : ByteString) : DynamicPropertyEvent :=
  { kind, transactionId
    operationName := operationName operation
    actor := context
    collections := operationCollections operation
    key := operationPrimaryKey operation }

/-- The event `publishAfter` announces. -/
def afterEvent (kind : DynamicPropertyEventKind) (operation : DynamicPropertyOperation)
    (context : AccessContext) (result : OperationResult) (transactionId : ByteString) :
    DynamicPropertyEvent :=
  { operationEvent kind operation context transactionId with
    before := result.before, after := result.after }

/-- A collection transfer that removes its source. -/
def isMigration : DynamicPropertyOperation → Bool
  | .transferCollection transfer => transfer.removeSource
  | _ => false

def auditRecord (operation : DynamicPropertyOperation) (context : AccessContext)
    (result : OperationResult) (transactionId : ByteString) (external rolledBack : Bool) :
    DynamicPropertyAuditRecord :=
  { transactionId
    operationName := operationName operation
    actor := context
    status := result.status
    message := result.message
    before := result.before
    after := result.after
    external, rolledBack }

namespace DynamicPropertyService

variable (service : DynamicPropertyService)

def publishBefore (kind : DynamicPropertyEventKind) (operation : DynamicPropertyOperation)
    (context : AccessContext) (transactionId : ByteString) (cancellable : Bool) :
    ServiceProgram (Bool × ByteString) := do
  let event := { operationEvent kind operation context transactionId with cancellable }
  let before ← captureEach Ask.capture event.collections
  let (event, failures) ← publish service.eventBus { event with before }
  let event :=
    if cancellable then failClosed event failures "before-event listener failed" else event
  pure (event.cancelled && cancellable, event.cancellationReason)

def publishAfter (kind : DynamicPropertyEventKind) (operation : DynamicPropertyOperation)
    (context : AccessContext) (result : OperationResult) (transactionId : ByteString) :
    ServiceProgram Unit := do
  let (event, _) ←
    publish service.eventBus (afterEvent kind operation context result transactionId)
  if result.ok && isMigration operation then
    let _ ← publish service.eventBus { event with kind := .collectionMigrated }
    pure ()
  else pure ()

def audit (operation : DynamicPropertyOperation) (context : AccessContext)
    (result : OperationResult) (transactionId : ByteString) (external : Bool := false)
    (rolledBack : Bool := false) : ServiceProgram Unit := do
  let _ ← Ask.record service.auditSink
    (auditRecord operation context result transactionId external rolledBack)
  pure ()

/-- The audit loops of `transact`. -/
def auditEach (context : AccessContext) (transactionId : ByteString) (rolledBack : Bool) :
    List (DynamicPropertyOperation × OperationResult) → ServiceProgram Unit
  | [] => pure ()
  | (operation, result) :: rest => do
      service.audit operation context result transactionId false rolledBack
      auditEach context transactionId rolledBack rest

/-! ## Apply -/

/-- `apply` from the commit lock on. -/
def applyCommit (operation : DynamicPropertyOperation) (context : AccessContext) (force : Bool)
    (transactionId : ByteString) : ServiceProgram OperationResult := do
  match ← Ask.commitApply service operation context force with
  | .error error =>
      service.audit operation context error transactionId
      pure error
  | .ok result =>
      service.publishAfter .afterMutation operation context result transactionId
      service.audit operation context result transactionId
      pure result

/-- `apply` after its preflight. -/
def applyAnnounced (operation : DynamicPropertyOperation) (context : AccessContext)
    (force : Bool) : ServiceProgram OperationResult := do
  let transactionId ← Ask.makeTransactionId
  let (cancelled, reason) ←
    service.publishBefore .beforeMutation operation context transactionId true
  if cancelled then
    let result := failure .cancelled
      (if reason.isEmpty then text "mutation cancelled" else reason)
    service.audit operation context result transactionId
    pure result
  else service.applyCommit operation context force transactionId

def apply (operation : DynamicPropertyOperation) (context : AccessContext)
    (force : Bool := false) : ServiceProgram OperationResult :=
  if force && !context.rawAdmin then
    pure (failure .permissionDenied (text "force requires raw administrative access"))
  else
    match service.validateOperation operation context with
    | some error => pure error
    | none => do
        match ← validatePropertyLimits Ask.capture service.limits [operation] with
        | some error => pure error
        | none => service.applyAnnounced operation context force

/-! ## Transact -/

/-- The caller's context, with the audit reason of the transaction. -/
def transactionContext (transaction : DynamicPropertyTransaction) (context : AccessContext) :
    AccessContext :=
  if transaction.auditReason.isEmpty then context
  else { context with reason := transaction.auditReason }

/-- The fields both transaction events start from. -/
def transactionEvent (kind : DynamicPropertyEventKind) (context : AccessContext)
    (transactionId : ByteString) (collections : List CollectionRef) : DynamicPropertyEvent :=
  { kind, transactionId, operationName := text "transaction", actor := context, collections }

/-- `transact` from the commit lock on. -/
def transactCommit (transaction : DynamicPropertyTransaction) (context : AccessContext)
    (transactionId : ByteString) (collections : List CollectionRef) :
    ServiceProgram TransactionResult := do
  let commit ← Ask.commitTransact service transaction context collections
  match commit.outcome with
  | .error error =>
      let results := List.replicate transaction.operations.length error
      service.auditEach context transactionId false (transaction.operations.zip results)
      pure { status := error.status, message := error.message, operationResults := results
             transactionId }
  | .ok result => do
      let event := transactionEvent .afterTransaction context transactionId collections
      let _ ← publish service.eventBus { event with before := commit.before, after := commit.after }
      service.auditEach context transactionId result.rolledBack
        (transaction.operations.zip result.operationResults)
      pure { result with transactionId }

/-- `transact` after its preflight. -/
def transactAnnounced (transaction : DynamicPropertyTransaction) (context : AccessContext)
    (transactionId : ByteString) : ServiceProgram TransactionResult := do
  let collections := namedCollections transaction.operations
  let before ← captureEach Ask.capture collections
  let event := transactionEvent .beforeTransaction context transactionId collections
  let (event, failures) ← publish service.eventBus { event with cancellable := true, before }
  let event := failClosed event failures "before-transaction listener failed"
  if event.cancelled then
    let message :=
      if event.cancellationReason.isEmpty then text "transaction cancelled"
      else event.cancellationReason
    let cancelled := failure .cancelled message
    let results := List.replicate transaction.operations.length cancelled
    service.auditEach context transactionId false (transaction.operations.zip results)
    pure { status := .cancelled, message, operationResults := results, transactionId }
  else service.transactCommit transaction context transactionId collections

/-- The checks of `transact` that come before its captures. -/
def transactError (transaction : DynamicPropertyTransaction) (context : AccessContext) :
    Option OperationResult :=
  if service.limits.maxTransactionOperations < transaction.operations.length then
    some (failure .invalidValue (text "transaction exceeds operation limit"))
  else if transaction.requireAtomic && !service.capabilities.atomicTransactions then
    some (failure .unsupported (text "adapter does not provide atomic transactions"))
  else if transaction.force && !context.rawAdmin then
    some (failure .permissionDenied (text "force requires raw administrative access"))
  else
    service.validateOperations transaction.operations
      (transactionContext transaction context)

def transact (transaction : DynamicPropertyTransaction) (context : AccessContext) :
    ServiceProgram TransactionResult := do
  let transactionId ← Ask.makeTransactionId
  if transaction.operations.isEmpty then
    pure { status := .applied, message := text "empty transaction", transactionId }
  else
    match service.transactError transaction context with
    | some error => pure { status := error.status, message := error.message, transactionId }
    | none => do
        match ← validatePropertyLimits Ask.capture service.limits transaction.operations with
        | some error => pure { status := error.status, message := error.message, transactionId }
        | none =>
            service.transactAnnounced transaction (transactionContext transaction context)
              transactionId

end DynamicPropertyService

end DynamicProperties.Cpp
