import DynamicProperties.Cpp.Calls

/-!
# What a call may request

Only two requests reach the store: the commits of `apply` and of `transact`.
Everything else a service does is quiet (`acts_quiet`), and a call commits
nothing but the operations it was called with, for its own service
(`issues_program`).
-/

namespace DynamicProperties.Cpp

open DynamicProperties.Library.Requests

/-- A request that cannot change the store. -/
def Quiet : Request → Prop
  | .commitApply _ _ _ _ => False
  | .commitTransact _ _ _ _ => False
  | _ => True

/-- A quiet request that is not an audit record either. -/
def Silent : Request → Prop
  | .commitApply _ _ _ _ => False
  | .commitTransact _ _ _ _ => False
  | .record _ _ => False
  | _ => True

theorem Silent.quiet {r : Request} (h : Silent r) : Quiet r := by
  cases r with
  | commitApply service operation context force => exact h
  | commitTransact service transaction context collections => exact h
  | _ => trivial

/-- A quiet request leaves the adapter and the event buses as they were. -/
theorem acts_quiet_setting {world world' : World} {r : Request} {response : Response r}
    (hquiet : Quiet r) (h : Acts world r response world') :
    world'.adapter = world.adapter ∧ world'.eventBuses = world.eventBuses := by
  cases r with
  | commitApply service operation context force => exact hquiet.elim
  | commitTransact service transaction context collections => exact hquiet.elim
  | invoke listener published position current =>
      have hworld : world' = world := h
      rw [hworld]
      exact ⟨rfl, rfl⟩
  | record sink entry =>
      have hcases : (response = true ∧ world' = world) ∨
          (response, world') = respond world (.record sink entry) := h
      rcases hcases with ⟨-, rfl⟩ | hkept
      · exact ⟨rfl, rfl⟩
      · rw [show world' = (respond world (.record sink entry)).2 from congrArg Prod.snd hkept]
        exact ⟨rfl, rfl⟩
  | capture ref | listCollections target | makeTransactionId | matchListeners bus event
  | revalidate service operation context | flush target =>
      rw [show world' = (respond world _).2 from congrArg Prod.snd h]
      exact ⟨rfl, rfl⟩

theorem acts_quiet {world world' : World} {r : Request} {response : Response r}
    (hquiet : Quiet r) (h : Acts world r response world') : world'.adapter = world.adapter :=
  (acts_quiet_setting hquiet h).1

/-- The deterministic answers are among those a request may get. -/
theorem acts_respond (world : World) (r : Request) :
    Acts world r (respond world r).1 (respond world r).2 := by
  cases r with
  | invoke listener published position current => rfl
  | record sink entry => exact Or.inr rfl
  | _ => rfl

/-- The outside never touches the store. -/
theorem interferes_store {world world' : World} (h : Interferes world world') :
    world'.adapter.store = world.adapter.store := by
  cases h <;> rfl

section Issues

variable {P : Request → Prop}

theorem issues_captureEach {refs : List CollectionRef} (h : ∀ ref ∈ refs, P (.capture ref)) :
    Issues (I := serviceInterface) P (captureEach Ask.capture refs) := by
  induction refs with
  | nil => trivial
  | cons ref rest ih =>
      refine issues_call_bind (h ref List.mem_cons_self) fun captured => ?_
      exact issues_bind (ih fun r hr => h r (List.mem_cons_of_mem _ hr)) fun snapshots => trivial

theorem issues_captureShadow {refs : List CollectionRef} (h : ∀ ref ∈ refs, P (.capture ref)) :
    ∀ shadow, Issues (I := serviceInterface) P (captureShadow Ask.capture refs shadow) := by
  induction refs with
  | nil => exact fun shadow => trivial
  | cons ref rest ih =>
      intro shadow
      refine issues_call_bind (h ref List.mem_cons_self) fun captured => ?_
      split
      · exact ih (fun r hr => h r (List.mem_cons_of_mem _ hr)) _
      · trivial

/-- The preflight captures the collections its operations name. -/
theorem issues_validatePropertyLimits (limits : ValidationLimits)
    {operations : List DynamicPropertyOperation}
    (h : ∀ ref ∈ namedCollections operations, P (.capture ref)) :
    Issues (I := serviceInterface) P
      (validatePropertyLimits Ask.capture limits operations) := by
  refine issues_bind (issues_captureShadow h _) fun outcome => ?_
  cases outcome with
  | error error => trivial
  | ok shadow =>
      dsimp only
      split <;> trivial

theorem issues_invokeAll (hsilent : ∀ r, Silent r → P r) (published : DynamicPropertyEvent)
    (listeners : List UInt64) :
    ∀ position current,
      Issues (I := serviceInterface) P (invokeAll published position listeners current) := by
  induction listeners with
  | nil => exact fun position current => trivial
  | cons listener rest ih =>
      intro position current
      refine issues_call_bind (hsilent _ trivial) fun answer => ?_
      exact issues_bind (ih _ _) fun final => trivial

theorem issues_publish (hsilent : ∀ r, Silent r → P r) (bus : Nat) (event : DynamicPropertyEvent) :
    Issues (I := serviceInterface) P (publish bus event) :=
  issues_call_bind (hsilent _ trivial) fun listeners =>
    issues_invokeAll hsilent event listeners 0 event

variable (service : DynamicPropertyService)

theorem issues_publishBefore (hsilent : ∀ r, Silent r → P r) (kind : DynamicPropertyEventKind)
    (operation : DynamicPropertyOperation) (context : AccessContext) (transactionId : ByteString)
    (cancellable : Bool) :
    Issues (I := serviceInterface) P
      (service.publishBefore kind operation context transactionId cancellable) :=
  issues_bind (issues_captureEach fun _ _ => hsilent _ trivial) fun _ =>
    issues_bind (issues_publish hsilent _ _) fun _ => trivial

theorem issues_publishAfter (hsilent : ∀ r, Silent r → P r) (kind : DynamicPropertyEventKind)
    (operation : DynamicPropertyOperation) (context : AccessContext) (result : OperationResult)
    (transactionId : ByteString) :
    Issues (I := serviceInterface) P
      (service.publishAfter kind operation context result transactionId) := by
  refine issues_bind (issues_publish hsilent _ _) fun final => ?_
  dsimp only
  split
  · exact issues_bind (issues_publish hsilent _ _) fun _ => trivial
  · trivial

theorem issues_audit (hquiet : ∀ r, Quiet r → P r) (operation : DynamicPropertyOperation)
    (context : AccessContext) (result : OperationResult) (transactionId : ByteString)
    (external rolledBack : Bool) :
    Issues (I := serviceInterface) P
      (service.audit operation context result transactionId external rolledBack) :=
  issues_call_bind (hquiet _ trivial) fun _ => trivial

theorem issues_auditEach (hquiet : ∀ r, Quiet r → P r) (context : AccessContext)
    (transactionId : ByteString) (rolledBack : Bool)
    (entries : List (DynamicPropertyOperation × OperationResult)) :
    Issues (I := serviceInterface) P
      (service.auditEach context transactionId rolledBack entries) := by
  induction entries with
  | nil => trivial
  | cons entry rest ih => exact issues_bind (issues_audit service hquiet _ _ _ _ _ _) fun _ => ih

/-- `apply` commits its own operation, if anything. -/
theorem issues_apply (hquiet : ∀ r, Quiet r → P r) {operation : DynamicPropertyOperation}
    {context : AccessContext} {force : Bool}
    (hcommit : P (.commitApply service operation context force)) :
    Issues (I := serviceInterface) P (service.apply operation context force) := by
  have hsilent : ∀ r, Silent r → P r := fun r h => hquiet r h.quiet
  unfold DynamicPropertyService.apply
  split
  · trivial
  split
  · trivial
  refine issues_bind (issues_validatePropertyLimits _ fun _ _ => hsilent _ trivial) fun error => ?_
  cases error with
  | some error => trivial
  | none =>
      refine issues_call_bind (hquiet _ trivial) fun transactionId => ?_
      refine issues_bind (issues_publishBefore service hsilent _ _ _ _ _) fun answer => ?_
      dsimp only
      split
      · exact issues_bind (issues_audit service hquiet _ _ _ _ _ _) fun _ => trivial
      refine issues_call_bind hcommit fun outcome => ?_
      cases outcome with
      | error error =>
          exact issues_bind (issues_audit service hquiet _ _ _ _ _ _) fun _ => trivial
      | ok result =>
          exact issues_bind (issues_publishAfter service hsilent _ _ _ _ _) fun _ =>
            issues_bind (issues_audit service hquiet _ _ _ _ _ _) fun _ => trivial

/-- `transact` commits its own transaction, if anything. -/
theorem issues_transact (hquiet : ∀ r, Quiet r → P r) {transaction : DynamicPropertyTransaction}
    {context : AccessContext}
    (hcommit : ∀ context collections,
      P (.commitTransact service transaction context collections)) :
    Issues (I := serviceInterface) P (service.transact transaction context) := by
  have hsilent : ∀ r, Silent r → P r := fun r h => hquiet r h.quiet
  refine issues_call_bind (hquiet _ trivial) fun transactionId => ?_
  split
  · trivial
  split
  · trivial
  refine issues_bind (issues_validatePropertyLimits _ fun _ _ => hsilent _ trivial) fun error => ?_
  cases error with
  | some error => trivial
  | none =>
      refine issues_bind (issues_captureEach fun _ _ => hsilent _ trivial) fun before => ?_
      refine issues_bind (issues_publish hsilent _ _) fun answer => ?_
      dsimp only
      split
      · exact issues_bind (issues_auditEach service hquiet _ _ _ _) fun _ => trivial
      refine issues_call_bind (hcommit _ _) fun commit => ?_
      cases commit.outcome with
      | error error =>
          exact issues_bind (issues_auditEach service hquiet _ _ _ _) fun _ => trivial
      | ok result =>
          exact issues_bind (issues_publish hsilent _ _) fun _ =>
            issues_bind (issues_auditEach service hquiet _ _ _ _) fun _ => trivial

/-- A capture asks for its own reference, once its checks pass. -/
theorem issues_capture {ref : CollectionRef} {context : AccessContext}
    (h : service.captureError ref context = none → P (.capture ref)) :
    Issues (I := serviceInterface) P (service.capture ref context) := by
  unfold DynamicPropertyService.capture
  split
  · trivial
  · rename_i hpassed
    exact ⟨h hpassed, fun _ => trivial⟩

theorem issues_get {ref : CollectionRef} (key : ByteString) {context : AccessContext}
    (h : service.captureError ref context = none → P (.capture ref)) :
    Issues (I := serviceInterface) P (service.get ref key context) := by
  unfold DynamicPropertyService.get
  dsimp only
  split
  · trivial
  refine issues_bind (issues_capture service h) fun captured => ?_
  split
  · split <;> trivial
  · trivial

theorem issues_listCollections (hsilent : ∀ r, Silent r → P r) (target : DynamicPropertyTarget)
    (context : AccessContext) :
    Issues (I := serviceInterface) P (service.listCollections target context) := by
  unfold DynamicPropertyService.listCollections
  split
  · trivial
  refine issues_call_bind (hsilent _ trivial) fun result => ?_
  split
  · trivial
  · dsimp only
    split <;> trivial

theorem issues_flush (hsilent : ∀ r, Silent r → P r) (target : DynamicPropertyTarget) :
    Issues (I := serviceInterface) P (service.flush target) := by
  unfold DynamicPropertyService.flush
  split
  · trivial
  · exact ⟨hsilent _ trivial, fun _ => trivial⟩

theorem issues_exportCollection (format : NumberFormat) {ref : CollectionRef}
    {context : AccessContext}
    (h : service.captureError ref context = none → P (.capture ref)) :
    Issues (I := serviceInterface) P (service.exportCollection format ref context) := by
  unfold DynamicPropertyService.exportCollection
  split
  · trivial
  refine issues_bind (issues_capture service h) fun captured => ?_
  split <;> trivial

theorem issues_beforeExternalMutation (hsilent : ∀ r, Silent r → P r)
    (operation : DynamicPropertyOperation) (context : AccessContext) (cancellable : Bool) :
    Issues (I := serviceInterface) P
      (service.beforeExternalMutation operation context cancellable) := by
  refine issues_call_bind (hsilent _ trivial) fun transactionId => ?_
  split
  · trivial
  dsimp only
  split
  · trivial
  refine issues_bind (issues_validatePropertyLimits _ fun _ _ => hsilent _ trivial) fun error => ?_
  cases error with
  | some error => trivial
  | none =>
      refine issues_bind (issues_publishBefore service hsilent _ _ _ _ _) fun answer => ?_
      split
      · trivial
      refine issues_call_bind (hsilent _ trivial) fun late => ?_
      cases late with
      | some error => trivial
      | none =>
          show Issues (I := serviceInterface) P (if _ then _ else _)
          split <;> trivial

theorem issues_afterExternalMutation (hquiet : ∀ r, Quiet r → P r)
    (operation : DynamicPropertyOperation) (result : OperationResult) (context : AccessContext)
    (transactionId : ByteString) :
    Issues (I := serviceInterface) P
      (service.afterExternalMutation operation result context transactionId) := by
  have hsilent : ∀ r, Silent r → P r := fun r h => hquiet r h.quiet
  unfold DynamicPropertyService.afterExternalMutation
  dsimp only
  split
  · exact issues_call_bind (hquiet _ trivial) fun _ =>
      issues_bind (issues_publishAfter service hsilent _ _ _ _ _) fun _ =>
        issues_audit service hquiet _ _ _ _ _ _
  · exact issues_bind trivial fun _ =>
      issues_bind (issues_publishAfter service hsilent _ _ _ _ _) fun _ =>
        issues_audit service hquiet _ _ _ _ _ _

end Issues

/-- The operations a call may commit. -/
def ServiceCall.operations (format : NumberFormat) : ServiceCall → List DynamicPropertyOperation
  | apply _ operation _ _ => [operation]
  | transact _ transaction _ => transaction.operations
  | importCollection _ destination document _ policy expectedRevision =>
      match decodeCollectionJson format document with
      | .ok properties =>
          [.importCollection
            { destination, properties, expectedDestinationRevision := expectedRevision, policy }]
      | .error _ => []
  | _ => []

/-- A request that a call may issue: a quiet one, or the commit of its own
operations by its own service. -/
def Permits (service : DynamicPropertyService) (operations : List DynamicPropertyOperation) :
    Request → Prop
  | .commitApply committing operation _ _ => committing = service ∧ operation ∈ operations
  | .commitTransact committing transaction _ _ =>
      committing = service ∧ ∀ operation ∈ transaction.operations, operation ∈ operations
  | _ => True

theorem permits_quiet {service : DynamicPropertyService}
    {operations : List DynamicPropertyOperation} (r : Request) (h : Quiet r) :
    Permits service operations r := by
  cases r with
  | commitApply committing operation context force => exact h.elim
  | commitTransact committing transaction context collections => exact h.elim
  | _ => trivial

theorem permits_silent {service : DynamicPropertyService}
    {operations : List DynamicPropertyOperation} (r : Request) (h : Silent r) :
    Permits service operations r :=
  permits_quiet r h.quiet

/-- **A call commits nothing but its own operations, for its own service.** -/
theorem issues_program (format : NumberFormat) (call : ServiceCall) :
    Issues (I := serviceInterface) (Permits call.service (call.operations format))
      (call.program format) := by
  cases call with
  | capture service ref context =>
      exact issues_bind (issues_capture service fun _ => trivial) fun _ => trivial
  | get service ref key context =>
      exact issues_bind (issues_get service key fun _ => trivial) fun _ => trivial
  | listCollections service target context =>
      exact issues_bind (issues_listCollections service permits_silent target context)
        fun _ => trivial
  | apply service operation context force =>
      exact issues_bind (issues_apply service permits_quiet ⟨rfl, List.mem_singleton.mpr rfl⟩)
        fun _ => trivial
  | transact service transaction context =>
      exact issues_bind (issues_transact service permits_quiet fun _ _ => ⟨rfl, fun _ h => h⟩)
        fun _ => trivial
  | flush service target =>
      exact issues_bind (issues_flush service permits_silent target) fun _ => trivial
  | exportCollection service ref context =>
      exact issues_bind (issues_exportCollection service format fun _ => trivial)
        fun _ => trivial
  | importCollection service destination document context policy expectedRevision =>
      refine issues_bind ?_ fun _ => trivial
      unfold DynamicPropertyService.importCollection
      split
      · trivial
      split
      · trivial
      · rename_i properties hdecode
        refine issues_apply service permits_quiet ⟨rfl, ?_⟩
        simp [ServiceCall.operations, hdecode]
  | beforeExternalMutation service operation context cancellable =>
      exact issues_bind
        (issues_beforeExternalMutation service permits_silent operation context cancellable)
        fun _ => trivial
  | afterExternalMutation service operation result context transactionId =>
      exact issues_bind
        (issues_afterExternalMutation service permits_quiet operation result context transactionId)
        fun _ => trivial

end DynamicProperties.Cpp
