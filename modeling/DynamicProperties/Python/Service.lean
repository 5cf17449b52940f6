import DynamicProperties.Library.Pool
import DynamicProperties.Library.Raising
import DynamicProperties.Python.Events
import DynamicProperties.Python.Preflight

/-!
# The coordinating service of the Python package

`DynamicPropertyService` of `service.py`, as programs of requests.  An adapter call
is one request, under the adapter's guard, and so is all that `apply` and
`transact` do while they hold the mutation lock.

A call may raise, since a capture may.  What the event bus and the audit trail do
cannot: both catch and log every `Exception` of a listener or a sink, so the
`try … finally` around an after event is a sequence.

An `apply` here commits without a second `_validate_operation`, and the gate for
external mutations has no revalidation at all.
-/

namespace DynamicProperties.Python

open DynamicProperties.Library.Requests
open DynamicProperties.Library.Raising
open DynamicProperties.Library.Pool

/-! ## The shared world and its requests -/

/-- What the services of one process share. -/
structure World where
  adapter : InMemoryAdapter := {}
  transactionIds : Nat := 1
  eventBuses : Nat → EventBus := fun _ => {}
  auditSinks : Nat → List AuditRecord := fun _ => []

inductive Request where
  | capture (ref : CollectionRef)
  | newTransactionId
  | matchListeners (bus : Nat) (event : Event)
  /-- Hand `current` to a listener.  `published` is the event as it was announced
  and `position` the number of listeners that received it before. -/
  | invoke (listener : Nat) (published : Event) (position : Nat) (current : Event)
  | commitApply (service : DynamicPropertyService) (operation : Operation) (force : Bool)
  | commitTransact (service : DynamicPropertyService) (transaction : Transaction)
      (refs : List CollectionRef)
  | record (sink : Nat) (entry : AuditRecord)

/-- What a transaction leaves: its result, and the captures after it. -/
structure TransactCommit where
  result : TransactionResult
  after : List CollectionSnapshot
  deriving DecidableEq

/-- The answers; a listener returns the event and whether it raised, a sink whether
it raised. -/
abbrev Response : Request → Type
  | .capture _ => Except PyError CaptureResult
  | .newTransactionId => Str
  | .matchListeners _ _ => List Nat
  | .invoke _ _ _ _ => Event × Bool
  | .commitApply _ _ _ => Except PyError (Except OperationResult OperationResult)
  | .commitTransact _ _ _ => Except PyError (Except OperationResult TransactCommit)
  | .record _ _ => Bool

/-- The interface between the service and the world. -/
abbrev serviceInterface : Interface := ⟨Request, Response⟩

/-- A call that cannot raise. -/
abbrev ServiceProgram := Program serviceInterface

/-- A call that may raise. -/
abbrev RaisingCall := RaisingProgram serviceInterface PyError

/-! ## What happens under the mutation lock -/

/-- `tuple(result.snapshot for ref in refs if (result := capture(ref)).snapshot is
not None)`. -/
def captureEach {m : Type → Type} [Monad m] (capture : CollectionRef → m CaptureResult) :
    List CollectionRef → m (List CollectionSnapshot)
  | [] => pure []
  | ref :: rest => do
      let captured ← capture ref
      let snapshots ← captureEach capture rest
      pure (captured.snapshot.toList ++ snapshots)

section Commits

variable (digest : Canonical → UInt64)

namespace DynamicPropertyService

variable (service : DynamicPropertyService)

/-- The critical section of `apply`. -/
def commitApply (adapter : InMemoryAdapter) (operation : Operation) (force : Bool) :
    Except PyError (Except OperationResult OperationResult) × InMemoryAdapter :=
  match validatePropertyLimits digest adapter service.limits [operation] with
  | .error raised => (.error raised, adapter)
  | .ok (some error) => (.ok (.error error), adapter)
  | .ok none =>
      let (result, adapter) := adapter.apply digest operation force
      (result.map .ok, adapter)

/-- The critical section of `transact`, with the counter behind `_transaction_id`. -/
def commitTransact (adapter : InMemoryAdapter) (transaction : Transaction)
    (refs : List CollectionRef) (ids : Nat) :
    Except PyError (Except OperationResult TransactCommit) × InMemoryAdapter × Nat :=
  match validatePropertyLimits digest adapter service.limits transaction.operations with
  | .error raised => (.error raised, adapter, ids)
  | .ok (some error) => (.ok (.error error), adapter, ids)
  | .ok none =>
      match adapter.transact digest transaction ids with
      | (.error raised, committed) => (.error raised, committed)
      | (.ok result, committed) =>
          ((captureEach (committed.1.capture digest) refs).map fun after => .ok ⟨result, after⟩,
            committed)

end DynamicPropertyService

/-! ## The step relation -/

/-- The answer to a request.  For listeners and sinks this is the answer of the
idle ones, which change nothing and do not raise. -/
def respond (world : World) : (r : Request) → Response r × World
  | .capture ref => (world.adapter.capture digest ref, world)
  | .newTransactionId =>
      let (transactionId, transactionIds) := newTransactionId "dptx" world.transactionIds
      (transactionId, { world with transactionIds })
  | .matchListeners bus event => ((world.eventBuses bus).listenersFor event, world)
  | .invoke _ _ _ current => ((current, false), world)
  | .commitApply service operation force =>
      let (outcome, adapter) := service.commitApply digest world.adapter operation force
      (outcome, { world with adapter })
  | .commitTransact service transaction refs =>
      let (outcome, adapter, transactionIds) :=
        service.commitTransact digest world.adapter transaction refs world.transactionIds
      (outcome, { world with adapter, transactionIds })
  | .record sink entry =>
      (false,
        { world with auditSinks :=
            Function.update world.auditSinks sink (world.auditSinks sink ++ [entry]) })

/-- A request and an answer to it.  A listener may answer anything; a sink either
keeps the record, or raises and does not. -/
def Acts (world : World) : (r : Request) → Response r → World → Prop
  | .invoke _ _ _ _, _, world' => world' = world
  | .record sink entry, raised, world' =>
      (raised = true ∧ world' = world) ∨
        (raised, world') = respond digest world (.record sink entry)
  | r, response, world' => (response, world') = respond digest world r

end Commits

/-- Change one event bus. -/
def World.updateBus (world : World) (bus : Nat) (change : EventBus → EventBus) : World :=
  { world with eventBuses :=
      Function.update world.eventBuses bus (change (world.eventBuses bus)) }

/-- What happens to the world from outside the calls: targets come and go, and
listeners are subscribed and unsubscribed. -/
inductive Interferes (world : World) : World → Prop
  | setTargetAvailable (target : DynamicPropertyTarget) (available : Bool) :
      Interferes world
        { world with adapter := world.adapter.setTargetAvailable target available }
  | subscribe (bus : Nat) (filter : EventFilter) :
      Interferes world (world.updateBus bus fun events => (events.subscribe filter).2)
  | unsubscribe (bus : Nat) (subscriptionId : Nat) :
      Interferes world (world.updateBus bus fun events => (events.unsubscribe subscriptionId).2)

namespace Ask

abbrev capture (ref : CollectionRef) : RaisingCall CaptureResult :=
  attempt (I := serviceInterface) (.capture ref) id

abbrev newTransactionId : RaisingCall Str :=
  ask (I := serviceInterface) .newTransactionId

abbrev matchListeners (bus : Nat) (event : Event) : ServiceProgram (List Nat) :=
  Program.call (.matchListeners bus event) .done

abbrev invoke (listener : Nat) (published : Event) (position : Nat) (current : Event) :
    ServiceProgram (Event × Bool) :=
  Program.call (.invoke listener published position current) .done

abbrev commitApply (service : DynamicPropertyService) (operation : Operation) (force : Bool) :
    RaisingCall (Except OperationResult OperationResult) :=
  attempt (I := serviceInterface) (.commitApply service operation force) id

abbrev commitTransact (service : DynamicPropertyService) (transaction : Transaction)
    (refs : List CollectionRef) : RaisingCall (Except OperationResult TransactCommit) :=
  attempt (I := serviceInterface) (.commitTransact service transaction refs) id

abbrev record (sink : Nat) (entry : AuditRecord) : ServiceProgram Bool :=
  Program.call (.record sink entry) .done

end Ask

/-! ## Publishing -/

/-- The second half of `publish`: the listeners in turn, each with the event as the
previous ones left it.  Returns the final event and the listeners that raised. -/
def invokeAll (published : Event) :
    Nat → List Nat → Event → ServiceProgram (Event × List Nat)
  | _, [], current => pure (current, [])
  | position, listener :: rest, current => do
      let (current, raised) ← Ask.invoke listener published position current
      let (current, failures) ← invokeAll published (position + 1) rest current
      pure (current, if raised then listener :: failures else failures)

/-- `EventBus.publish`. -/
def publish (bus : Nat) (event : Event) : ServiceProgram (Event × List Nat) := do
  let listeners ← Ask.matchListeners bus event
  invokeAll event 0 listeners event

/-- A failed listener cancels an event that is not cancelled yet. -/
def failClosed (event : Event) (failures : List Nat) : Event :=
  if !failures.isEmpty ∧ !event.cancelled then
    { event with cancelled := true, cancellationReason := str "event listener failed" }
  else event

/-- The fields every single-operation event starts from. -/
def operationEvent (kind : EventKind) (operation : Operation) (context : AccessContext)
    (transactionId : Str) : Event :=
  { kind, transactionId
    operationName := operationName operation
    actor := context
    collections := operationRefs operation
    key := operationKey operation }

/-- The fields both transaction events start from. -/
def transactionEvent (kind : EventKind) (context : AccessContext) (transactionId : Str)
    (refs : List CollectionRef) : Event :=
  { kind, transactionId, operationName := str "transaction", actor := context, collections := refs }

/-- A collection transfer that removes its source. -/
def isMigration : Operation → Bool
  | .transferCollection transfer => transfer.removeSource
  | _ => false

def auditRecord (operation : Operation) (context : AccessContext) (result : OperationResult)
    (transactionId : Str) (external rolledBack : Bool) : AuditRecord :=
  { transactionId
    operationName := operationName operation
    actor := context
    status := result.status
    message := result.message
    before := result.before
    after := result.after
    external, rolledBack }

structure ExternalMutationGateResult where
  decision : Cpp.ExternalMutationDecision
  status : Status
  message : Str
  transactionId : Str
  deriving DecidableEq

namespace DynamicPropertyService

variable (service : DynamicPropertyService)

/-- `_before`: the event as its listeners leave it. -/
def before (kind : EventKind) (operation : Operation) (context : AccessContext)
    (transactionId : Str) (cancellable : Bool) : RaisingCall Event := do
  let before ← captureEach Ask.capture (operationRefs operation)
  let event := { operationEvent kind operation context transactionId with before, cancellable }
  let (event, failures) ← lift (publish service.eventBus event)
  pure (if cancellable then failClosed event failures else event)

/-- `_after`. -/
def after (kind : EventKind) (operation : Operation) (context : AccessContext)
    (result : OperationResult) (transactionId : Str) : ServiceProgram Unit := do
  let (event, _) ← publish service.eventBus
    { operationEvent kind operation context transactionId with
      before := result.before, after := result.after }
  if result.ok && isMigration operation then
    let _ ← publish service.eventBus { event with kind := .collectionMigrated }
    pure ()
  else pure ()

/-- `_audit`. -/
def audit (operation : Operation) (context : AccessContext) (result : OperationResult)
    (transactionId : Str) (external : Bool := false) (rolledBack : Bool := false) :
    ServiceProgram Unit := do
  let _ ← Ask.record service.auditSink
    (auditRecord operation context result transactionId external rolledBack)
  pure ()

/-- The audit loops of `transact`. -/
def auditEach (context : AccessContext) (transactionId : Str) (rolledBack : Bool) :
    List (Operation × OperationResult) → ServiceProgram Unit
  | [] => pure ()
  | (operation, result) :: rest => do
      service.audit operation context result transactionId false rolledBack
      auditEach context transactionId rolledBack rest

def capture (ref : CollectionRef) (context : AccessContext) : RaisingCall CaptureResult := do
  match ← outcome (service.validateRef context ref).report with
  | some error => pure { status := error.status, message := error.message }
  | none =>
      if !service.capabilities.read then
        pure { status := .unsupported, message := str "adapter does not support reads" }
      else Ask.capture ref

/-! ## Apply -/

/-- `apply` from the mutation lock on. -/
def applyCommit (operation : Operation) (context : AccessContext) (force : Bool)
    (transactionId : Str) : RaisingCall OperationResult := do
  match ← Ask.commitApply service operation force with
  | .error error =>
      lift (service.audit operation context error transactionId)
      pure error
  | .ok result =>
      lift (service.after .afterMutation operation context result transactionId)
      lift (service.audit operation context result transactionId)
      pure result

/-- `apply` after its preflight. -/
def applyAnnounced (operation : Operation) (context : AccessContext) (force : Bool) :
    RaisingCall OperationResult := do
  let transactionId ← Ask.newTransactionId
  let event ← service.before .beforeMutation operation context transactionId true
  if event.cancelled then
    let result : OperationResult :=
      { status := .cancelled
        message :=
          if event.cancellationReason.isEmpty then str "mutation cancelled"
          else event.cancellationReason }
    lift (service.audit operation context result transactionId)
    pure result
  else service.applyCommit operation context force transactionId

def apply (operation : Operation) (context : AccessContext) (force : Bool := false) :
    RaisingCall OperationResult :=
  if force && !context.rawAdmin then
    pure { status := .permissionDenied
           message := str "force requires raw administrative access" }
  else do
    match ← outcome (service.validateOperation operation context) with
    | some error => pure error
    | none =>
        match ← validatePropertyLimitsOver Ask.capture service.limits [operation] with
        | some error => pure error
        | none => service.applyAnnounced operation context force

/-! ## Transact -/

/-- The caller's context, with the audit reason of the transaction. -/
def transactionContext (transaction : Transaction) (context : AccessContext) : AccessContext :=
  if transaction.auditReason.isEmpty then context
  else { context with reason := transaction.auditReason }

/-- The loop over `_validate_operation`: the first error, if any. -/
def validateOperations : List Operation → AccessContext →
    Except PyError (Option OperationResult)
  | [], _ => return none
  | operation :: rest, context => do
      match ← service.validateOperation operation context with
      | some error => return some error
      | none => validateOperations rest context

/-- The checks of `transact` that come before its captures. -/
def transactError (transaction : Transaction) (context : AccessContext) :
    Except PyError (Option OperationResult) :=
  if service.limits.maxTransactionOperations < transaction.operations.length then
    return some { status := .invalidValue, message := str "transaction exceeds operation limit" }
  else if transaction.requireAtomic && !service.capabilities.atomicTransactions then
    return some
      { status := .unsupported
        message := str "adapter does not provide atomic transactions" }
  else if transaction.force && !context.rawAdmin then
    return some
      { status := .permissionDenied
        message := str "force requires raw administrative access" }
  else
    service.validateOperations transaction.operations (transactionContext transaction context)

/-- `transact` from the mutation lock on.  The after event repeats `before`, the
captures the before event was announced with. -/
def transactCommit (transaction : Transaction) (context : AccessContext) (transactionId : Str)
    (refs : List CollectionRef) (before : List CollectionSnapshot) :
    RaisingCall TransactionResult := do
  match ← Ask.commitTransact service transaction refs with
  | .error error =>
      let results := List.replicate transaction.operations.length error
      lift (service.auditEach context transactionId false (transaction.operations.zip results))
      pure { status := error.status, message := error.message, operationResults := results
             transactionId }
  | .ok commit =>
      let event := transactionEvent .afterTransaction context transactionId refs
      let _ ← lift (publish service.eventBus { event with before, after := commit.after })
      lift (service.auditEach context transactionId commit.result.rolledBack
        (transaction.operations.zip commit.result.operationResults))
      pure { commit.result with transactionId }

/-- `transact` after its preflight. -/
def transactAnnounced (transaction : Transaction) (context : AccessContext) :
    RaisingCall TransactionResult := do
  let transactionId ← Ask.newTransactionId
  let refs := namedRefs transaction.operations
  let before ← captureEach Ask.capture refs
  let event := transactionEvent .beforeTransaction context transactionId refs
  let (event, failures) ← lift (publish service.eventBus { event with before, cancellable := true })
  let event := failClosed event failures
  if event.cancelled then
    let message :=
      if event.cancellationReason.isEmpty then str "transaction cancelled"
      else event.cancellationReason
    let results := List.replicate transaction.operations.length
      ({ status := .cancelled, message } : OperationResult)
    lift (service.auditEach context transactionId false (transaction.operations.zip results))
    pure { status := .cancelled, message, operationResults := results, transactionId }
  else service.transactCommit transaction context transactionId refs before

def transact (transaction : Transaction) (context : AccessContext) :
    RaisingCall TransactionResult :=
  if transaction.operations.isEmpty then do
    let transactionId ← Ask.newTransactionId
    pure { status := .applied, message := str "empty transaction", transactionId }
  else do
    match ← outcome (service.transactError transaction context) with
    | some error => pure { status := error.status, message := error.message }
    | none =>
        match ← validatePropertyLimitsOver Ask.capture service.limits transaction.operations with
        | some error => pure { status := error.status, message := error.message }
        | none =>
            service.transactAnnounced transaction (transactionContext transaction context)

/-! ## External mutations -/

/-- The origin an external context gets when it claims to come from the API. -/
def externalContext (context : AccessContext) : AccessContext :=
  if context.origin = .api then { context with origin := .nativeHook } else context

def beforeExternalMutation (operation : Operation) (context : AccessContext)
    (cancellable : Bool) : RaisingCall ExternalMutationGateResult := do
  let context := externalContext context
  let transactionId ← Ask.newTransactionId
  if !service.capabilities.externalChangeObservation then
    pure { decision := .observeOnly, status := .unsupported
           message := str "external change observation is unavailable", transactionId }
  else
    let canCancel := cancellable && service.capabilities.externalChangeCancellation
    let refused (error : OperationResult) : ExternalMutationGateResult :=
      { decision := if canCancel then .cancel else .observeOnly
        status := error.status, message := error.message, transactionId }
    match ← outcome (service.validateOperation operation context) with
    | some error => pure (refused error)
    | none =>
        match ← validatePropertyLimitsOver Ask.capture service.limits [operation] with
        | some error => pure (refused error)
        | none =>
            let event ← service.before .beforeExternalMutation operation context transactionId
              canCancel
            if event.cancelled && canCancel then
              pure { decision := .cancel, status := .cancelled, transactionId
                     message :=
                       if event.cancellationReason.isEmpty then str "external mutation cancelled"
                       else event.cancellationReason }
            else if cancellable && !service.capabilities.externalChangeCancellation then
              pure { decision := .observeOnly, status := .unsupported, transactionId
                     message := str "external mutation can be observed but not cancelled" }
            else
              pure { decision := .allow, status := .applied, transactionId
                     message := str "external mutation allowed" }

def afterExternalMutation (operation : Operation) (result : OperationResult)
    (context : AccessContext) (transactionId : Str := []) : RaisingCall Unit := do
  let context := externalContext context
  let transactionId ← if transactionId.isEmpty then Ask.newTransactionId else pure transactionId
  lift (service.after .afterExternalMutation operation context result transactionId)
  lift (service.audit operation context result transactionId true false)

end DynamicPropertyService

end DynamicProperties.Python
