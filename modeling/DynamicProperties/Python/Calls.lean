import DynamicProperties.Python.Documents
import DynamicProperties.Python.Service

/-!
# All calls of the Python service together

`import_collection`, and any number of calls in flight over one world.  The calls
that only read (`get`, `list_collections`, `export_collection`, `flush`) ask for
nothing `capture` does not ask for and are left out.
-/

namespace DynamicProperties.Python

open DynamicProperties.Library.Requests
open DynamicProperties.Library.Raising
open DynamicProperties.Library.Pool

namespace DynamicPropertyService

variable (service : DynamicPropertyService) (interp : Interpreter)

noncomputable def importCollection (destination : CollectionRef) (document : Str)
    (context : AccessContext) (policy : ImportPolicy := .merge)
    (expectedRevision : ExpectedRevision := none) : RaisingCall OperationResult :=
  match interp.decodeDocument service.limits document with
  | .error raised =>
      pure { status := .invalidValue
             message := str "invalid import document: " ++ interp.describe raised }
  | .ok none =>
      pure { status := .invalidValue, message := str "import document exceeds byte limit" }
  | .ok (some properties) =>
      service.apply (.importCollection
        { destination, properties, expectedDestinationRevision := expectedRevision, policy })
        context

end DynamicPropertyService

/-- A call of a public function, with its service and arguments. -/
inductive ServiceCall where
  | capture (service : DynamicPropertyService) (ref : CollectionRef) (context : AccessContext)
  | apply (service : DynamicPropertyService) (operation : Operation) (context : AccessContext)
      (force : Bool)
  | transact (service : DynamicPropertyService) (transaction : Transaction)
      (context : AccessContext)
  | importCollection (service : DynamicPropertyService) (destination : CollectionRef)
      (document : Str) (context : AccessContext) (policy : ImportPolicy)
      (expectedRevision : ExpectedRevision)
  | beforeExternalMutation (service : DynamicPropertyService) (operation : Operation)
      (context : AccessContext) (cancellable : Bool)
  | afterExternalMutation (service : DynamicPropertyService) (operation : Operation)
      (result : OperationResult) (context : AccessContext) (transactionId : Str)

/-- What a call returns. -/
inductive CallResult where
  | captured (result : CaptureResult)
  | operation (result : OperationResult)
  | transaction (result : TransactionResult)
  | gate (result : ExternalMutationGateResult)
  | observed

namespace ServiceCall

def service : ServiceCall → DynamicPropertyService
  | capture service _ _ => service
  | apply service _ _ _ => service
  | transact service _ _ => service
  | importCollection service _ _ _ _ _ => service
  | beforeExternalMutation service _ _ _ => service
  | afterExternalMutation service _ _ _ _ => service

/-- The program of a call. -/
noncomputable def program (interp : Interpreter) : ServiceCall → RaisingCall CallResult
  | capture service ref context => do
      let result ← service.capture ref context
      pure (.captured result)
  | apply service operation context force => do
      let result ← service.apply operation context force
      pure (.operation result)
  | transact service transaction context => do
      let result ← service.transact transaction context
      pure (.transaction result)
  | importCollection service destination document context policy expectedRevision => do
      let result ← service.importCollection interp destination document context policy
        expectedRevision
      pure (.operation result)
  | beforeExternalMutation service operation context cancellable => do
      let result ← service.beforeExternalMutation operation context cancellable
      pure (.gate result)
  | afterExternalMutation service operation result context transactionId => do
      service.afterExternalMutation operation result context transactionId
      pure .observed

end ServiceCall

/-- Any number of calls over one world. -/
noncomputable def serviceSystem (digest : Canonical → UInt64) (interp : Interpreter) :
    System serviceInterface World ServiceCall (Except PyError CallResult) where
  program call := (call.program interp).run
  act := Acts digest
  interferes := Interferes

/-- One step of a call. -/
abbrev ServiceStep := Step serviceInterface World

end DynamicProperties.Python
