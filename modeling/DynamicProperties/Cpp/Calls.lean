import DynamicProperties.Library.Pool
import DynamicProperties.Cpp.Service

/-!
# The other calls of the service, and all calls together

The read calls, the wrappers around `apply`, the export and import of documents
and the gate for external mutations.  `ServiceCall` lists everything a client
can call; `serviceSystem` is any number of such calls in flight over one world.
-/

namespace DynamicProperties.Cpp

open Std
open DynamicProperties.Library.Requests
open DynamicProperties.Library.Pool

structure PropertyReadResult where
  status : DynamicPropertyStatus := .adapterError
  message : ByteString := []
  value : Option DynamicPropertyValue := none
  collectionRevision : UInt64 := 0
  deriving DecidableEq

structure ExportResult where
  status : DynamicPropertyStatus := .adapterError
  message : ByteString := []
  document : ByteString := []
  revision : UInt64 := 0
  deriving DecidableEq

structure ExternalMutationGateResult where
  decision : ExternalMutationDecision := .observeOnly
  status : DynamicPropertyStatus := .applied
  message : ByteString := []
  transactionId : ByteString := []
  deriving DecidableEq

namespace DynamicPropertyService

variable (service : DynamicPropertyService) (format : NumberFormat)

/-! ## Reads -/

/-- The checks of `capture`. -/
def captureError (ref : CollectionRef) (context : AccessContext) : Option OperationResult :=
  service.checkReference context ref (text "collection access denied")
    <|> requireCapability service.capabilities.read "adapter does not support reads"

def capture (ref : CollectionRef) (context : AccessContext) : ServiceProgram CaptureResult :=
  match service.captureError ref context with
  | some error => pure { status := error.status, message := error.message }
  | none => Ask.capture ref

def get (ref : CollectionRef) (key : ByteString) (context : AccessContext) :
    ServiceProgram PropertyReadResult :=
  let validation := validateKey key service.limits
  if !validation.valid then pure { status := .invalidKey, message := validation.message }
  else do
    let captured ← service.capture ref context
    match captured.ok, captured.snapshot with
    | true, some snapshot =>
        match snapshot.properties[key]? with
        | none =>
            pure { status := .notFound, message := text "property does not exist"
                   collectionRevision := snapshot.revision }
        | some value =>
            pure { status := .captured, message := text "captured", value := some value
                   collectionRevision := snapshot.revision }
    | _, _ => pure { status := captured.status, message := captured.message }

def listCollections (target : DynamicPropertyTarget) (context : AccessContext) :
    ServiceProgram ListCollectionsResult :=
  match service.validateCapability target
      <|> requireCapability service.capabilities.listCollections
        "adapter does not support collection listing" with
  | some error => pure { status := error.status, message := error.message }
  | none => do
      let result ← Ask.listCollections target
      if !result.ok || DynamicPropertyAccessPolicy.canListRawCollections context then pure result
      else
        let pluginPrefix := service.accessPolicy.pluginPrefix context.pluginId
        if pluginPrefix.isEmpty then
          pure { status := .permissionDenied, message := text "plugin identity is required" }
        else
          pure { result with
            collections := result.collections.filter fun name => pluginPrefix.isPrefixOf name }

def flush (target : DynamicPropertyTarget) : ServiceProgram OperationResult :=
  match service.validateCapability target
      <|> requireCapability service.capabilities.persistenceFlush
        "adapter does not support persistence flush" with
  | some error => pure error
  | none => Ask.flush target

/-! ## Wrappers around `apply` -/

def set (ref : CollectionRef) (key : ByteString) (value : DynamicPropertyValue)
    (context : AccessContext) (expectedRevision : ExpectedRevision := none) :
    ServiceProgram OperationResult :=
  service.apply (.setProperty { ref, key, value, expectedRevision }) context

def migrateCollection (source destination : CollectionRef) (context : AccessContext)
    (policy : ImportPolicy := .failIfDestinationExists) (removeSource : Bool := true)
    (expectedSourceRevision expectedDestinationRevision : ExpectedRevision := none) :
    ServiceProgram OperationResult :=
  service.apply (.transferCollection
    { source, destination, expectedSourceRevision, expectedDestinationRevision
      destinationPolicy := policy, removeSource }) context

def exportCollection (ref : CollectionRef) (context : AccessContext) :
    ServiceProgram ExportResult :=
  if !service.capabilities.exportImport then
    pure { status := .unsupported, message := text "adapter does not support export" }
  else do
    let captured ← service.capture ref context
    match captured.ok, captured.snapshot with
    | true, some snapshot =>
        pure { status := .captured, message := text "exported"
               document := encodeCollectionJson format ref snapshot.properties snapshot.revision
               revision := snapshot.revision }
    | _, _ => pure { status := captured.status, message := captured.message }

def importCollection (destination : CollectionRef) (document : ByteString)
    (context : AccessContext) (policy : ImportPolicy := .merge)
    (expectedRevision : ExpectedRevision := none) : ServiceProgram OperationResult :=
  if service.limits.maxImportBytes < document.length then
    pure (failure .invalidValue (text "import document exceeds byte limit"))
  else
    match decodeCollectionJson format document with
    | .error error =>
        pure (failure .invalidValue (text "invalid import document: " ++ error))
    | .ok properties =>
        service.apply (.importCollection
          { destination, properties, expectedDestinationRevision := expectedRevision, policy })
          context

/-! ## External mutations -/

/-- The origin an external context gets when it claims to come from the API. -/
def externalContext (context : AccessContext) : AccessContext :=
  if context.origin = .api then { context with origin := .nativeHook } else context

def beforeExternalMutation (operation : DynamicPropertyOperation) (context : AccessContext)
    (cancellable : Bool) : ServiceProgram ExternalMutationGateResult := do
  let context := externalContext context
  let transactionId ← Ask.makeTransactionId
  if !service.capabilities.externalChangeObservation then
    pure { decision := .observeOnly, status := .unsupported
           message := text "external change observation is unavailable", transactionId }
  else
    let canCancel := cancellable && service.capabilities.externalChangeCancellation
    let refused (error : OperationResult) : ExternalMutationGateResult :=
      { decision := if canCancel then .cancel else .observeOnly
        status := error.status, message := error.message, transactionId }
    match service.validateOperation operation context with
    | some error => pure (refused error)
    | none => do
        match ← validatePropertyLimits Ask.capture service.limits [operation] with
        | some error => pure (refused error)
        | none => do
            let (cancelled, reason) ← service.publishBefore .beforeExternalMutation operation
              context transactionId canCancel
            if cancelled then
              pure { decision := .cancel, status := .cancelled, transactionId
                     message :=
                       if reason.isEmpty then text "external mutation cancelled" else reason }
            else do
              match ← Ask.revalidate service operation context with
              | some error => pure (refused error)
              | none =>
                  if cancellable && !canCancel then
                    pure { decision := .observeOnly, status := .unsupported, transactionId
                           message := text "external mutation can be observed but not cancelled" }
                  else
                    pure { decision := .allow, status := .applied, transactionId
                           message := text "external mutation allowed" }

def afterExternalMutation (operation : DynamicPropertyOperation) (result : OperationResult)
    (context : AccessContext) (transactionId : ByteString := []) : ServiceProgram Unit := do
  let context := externalContext context
  let transactionId ← if transactionId.isEmpty then Ask.makeTransactionId else pure transactionId
  service.publishAfter .afterExternalMutation operation context result transactionId
  service.audit operation context result transactionId true false

end DynamicPropertyService

/-! ## Every call -/

/-- A call of a public function, with its service and arguments. -/
inductive ServiceCall where
  | capture (service : DynamicPropertyService) (ref : CollectionRef) (context : AccessContext)
  | get (service : DynamicPropertyService) (ref : CollectionRef) (key : ByteString)
      (context : AccessContext)
  | listCollections (service : DynamicPropertyService) (target : DynamicPropertyTarget)
      (context : AccessContext)
  | apply (service : DynamicPropertyService) (operation : DynamicPropertyOperation)
      (context : AccessContext) (force : Bool)
  | transact (service : DynamicPropertyService) (transaction : DynamicPropertyTransaction)
      (context : AccessContext)
  | flush (service : DynamicPropertyService) (target : DynamicPropertyTarget)
  | exportCollection (service : DynamicPropertyService) (ref : CollectionRef)
      (context : AccessContext)
  | importCollection (service : DynamicPropertyService) (destination : CollectionRef)
      (document : ByteString) (context : AccessContext) (policy : ImportPolicy)
      (expectedRevision : ExpectedRevision)
  | beforeExternalMutation (service : DynamicPropertyService)
      (operation : DynamicPropertyOperation) (context : AccessContext) (cancellable : Bool)
  | afterExternalMutation (service : DynamicPropertyService)
      (operation : DynamicPropertyOperation) (result : OperationResult) (context : AccessContext)
      (transactionId : ByteString)

/-- What a call returns. -/
inductive CallResult where
  | captured (result : CaptureResult)
  | read (result : PropertyReadResult)
  | listed (result : ListCollectionsResult)
  | operation (result : OperationResult)
  | transaction (result : TransactionResult)
  | exported (result : ExportResult)
  | gate (result : ExternalMutationGateResult)
  | observed

namespace ServiceCall

def service : ServiceCall → DynamicPropertyService
  | capture service _ _ => service
  | get service _ _ _ => service
  | listCollections service _ _ => service
  | apply service _ _ _ => service
  | transact service _ _ => service
  | flush service _ => service
  | exportCollection service _ _ => service
  | importCollection service _ _ _ _ _ => service
  | beforeExternalMutation service _ _ _ => service
  | afterExternalMutation service _ _ _ _ => service

/-- The program of a call. -/
def program (format : NumberFormat) : ServiceCall → ServiceProgram CallResult
  | capture service ref context => do
      let result ← service.capture ref context
      pure (.captured result)
  | get service ref key context => do
      let result ← service.get ref key context
      pure (.read result)
  | listCollections service target context => do
      let result ← service.listCollections target context
      pure (.listed result)
  | apply service operation context force => do
      let result ← service.apply operation context force
      pure (.operation result)
  | transact service transaction context => do
      let result ← service.transact transaction context
      pure (.transaction result)
  | flush service target => do
      let result ← service.flush target
      pure (.operation result)
  | exportCollection service ref context => do
      let result ← service.exportCollection format ref context
      pure (.exported result)
  | importCollection service destination document context policy expectedRevision => do
      let result ← service.importCollection format destination document context policy
        expectedRevision
      pure (.operation result)
  | beforeExternalMutation service operation context cancellable => do
      let result ← service.beforeExternalMutation operation context cancellable
      pure (.gate result)
  | afterExternalMutation service operation result context transactionId => do
      service.afterExternalMutation operation result context transactionId
      pure .observed

end ServiceCall

/-- Any number of calls over one world. -/
def serviceSystem (format : NumberFormat) :
    System serviceInterface World ServiceCall CallResult where
  program := ServiceCall.program format
  act := Acts
  interferes := Interferes

/-- One step of a call. -/
abbrev ServiceStep := Step serviceInterface World

end DynamicProperties.Cpp
