import DynamicProperties.Python.Calls

/-!
# What a call of the Python service may request

Only the two commits reach the store (`acts_quiet`).  A call commits nothing but the
operations it was called with, for its own service, and only operations that
`_validate_operation` passed (`issues_program`): the commits do not validate again.
-/

namespace DynamicProperties.Python

open DynamicProperties.Library.Requests
open DynamicProperties.Library.Raising

/-- A request that cannot change the store. -/
def Quiet : Request → Prop
  | .commitApply _ _ _ => False
  | .commitTransact _ _ _ => False
  | _ => True

section Steps

variable {digest : Canonical → UInt64} {world world' : World}

/-- A quiet request leaves the adapter and the event buses as they were. -/
theorem acts_quiet_setting {r : Request} {response : Response r} (hquiet : Quiet r)
    (h : Acts digest world r response world') :
    world'.adapter = world.adapter ∧ world'.eventBuses = world.eventBuses := by
  cases r with
  | commitApply service operation force => exact hquiet.elim
  | commitTransact service transaction refs => exact hquiet.elim
  | invoke listener published position current =>
      have hworld : world' = world := h
      rw [hworld]
      exact ⟨rfl, rfl⟩
  | record sink entry =>
      have hcases : (response = true ∧ world' = world) ∨
          (response, world') = respond digest world (.record sink entry) := h
      rcases hcases with ⟨-, rfl⟩ | hkept
      · exact ⟨rfl, rfl⟩
      · rw [show world' = (respond digest world (.record sink entry)).2 from
          congrArg Prod.snd hkept]
        exact ⟨rfl, rfl⟩
  | capture ref | newTransactionId | matchListeners bus event =>
      rw [show world' = (respond digest world _).2 from congrArg Prod.snd h]
      exact ⟨rfl, rfl⟩

theorem acts_quiet {r : Request} {response : Response r} (hquiet : Quiet r)
    (h : Acts digest world r response world') : world'.adapter = world.adapter :=
  (acts_quiet_setting hquiet h).1

/-- The deterministic answers are among those a request may get. -/
theorem acts_respond (digest : Canonical → UInt64) (world : World) (r : Request) :
    Acts digest world r (respond digest world r).1 (respond digest world r).2 := by
  cases r with
  | invoke listener published position current => rfl
  | record sink entry => exact Or.inr rfl
  | capture ref | newTransactionId | matchListeners bus event | commitApply service operation force
  | commitTransact service transaction refs => rfl

/-- The outside never touches the store. -/
theorem interferes_store (h : Interferes world world') :
    world'.adapter.store = world.adapter.store := by
  cases h <;> rfl

end Steps

section Issues

variable {P : Request → Prop}

theorem issues_captureEach (hcapture : ∀ ref, P (.capture ref)) (refs : List CollectionRef) :
    Issues (I := serviceInterface) P (captureEach Ask.capture refs).run := by
  induction refs with
  | nil => trivial
  | cons ref rest ih =>
      exact issues_then (issues_attempt (I := serviceInterface) id (hcapture ref)) fun captured =>
        issues_then ih fun snapshots => trivial

theorem issues_captureShadow (hcapture : ∀ ref, P (.capture ref)) (refs : List CollectionRef) :
    ∀ shadow, Issues (I := serviceInterface) P (captureShadowOver Ask.capture refs shadow).run := by
  induction refs with
  | nil => exact fun shadow => trivial
  | cons ref rest ih =>
      intro shadow
      refine issues_then (issues_attempt (I := serviceInterface) id (hcapture ref))
        fun captured => ?_
      cases captured.snapshot with
      | some snapshot => exact ih _
      | none => trivial

theorem issues_validatePropertyLimits (hcapture : ∀ ref, P (.capture ref))
    (limits : ValidationLimits) (operations : List Operation) :
    Issues (I := serviceInterface) P
      (validatePropertyLimitsOver Ask.capture limits operations).run := by
  refine issues_then (issues_captureShadow hcapture _ _) fun outcome => ?_
  cases outcome with
  | error error => trivial
  | ok shadow =>
      show Issues (I := serviceInterface) P (ExceptT.run (if _ then _ else _))
      split <;> trivial

theorem issues_audit (hrecord : ∀ sink entry, P (.record sink entry))
    (service : DynamicPropertyService) (operation : Operation) (context : AccessContext)
    (result : OperationResult) (transactionId : Str) (external rolledBack : Bool) :
    Issues (I := serviceInterface) P
      (service.audit operation context result transactionId external rolledBack) :=
  issues_call_bind (hrecord _ _) fun _ => trivial

theorem issues_auditEach (hrecord : ∀ sink entry, P (.record sink entry))
    (service : DynamicPropertyService) (context : AccessContext) (transactionId : Str)
    (rolledBack : Bool) (entries : List (Operation × OperationResult)) :
    Issues (I := serviceInterface) P
      (service.auditEach context transactionId rolledBack entries) := by
  induction entries with
  | nil => trivial
  | cons entry rest ih =>
      exact issues_bind (issues_audit hrecord service _ _ _ _ _ _) fun _ => ih

variable (hquiet : ∀ r, Quiet r → P r)

include hquiet

theorem issues_invokeAll (published : Event) (listeners : List Nat) :
    ∀ position current, Issues (I := serviceInterface) P
      (invokeAll published position listeners current) := by
  induction listeners with
  | nil => exact fun position current => trivial
  | cons listener rest ih =>
      intro position current
      refine issues_call_bind (hquiet _ trivial) fun answer => ?_
      exact issues_bind (ih _ _) fun final => trivial

theorem issues_publish (bus : Nat) (event : Event) :
    Issues (I := serviceInterface) P (publish bus event) :=
  issues_call_bind (hquiet _ trivial) fun listeners =>
    issues_invokeAll hquiet event listeners 0 event

variable (service : DynamicPropertyService)

/-- A record is quiet. -/
theorem issues_lift_audit (operation : Operation) (context : AccessContext)
    (result : OperationResult) (transactionId : Str) (external rolledBack : Bool) :
    Issues (I := serviceInterface) P (lift (service.audit operation context result transactionId
      external rolledBack) : RaisingCall Unit).run :=
  issues_lift (issues_audit (fun _ _ => hquiet _ trivial) service _ _ _ _ _ _)

theorem issues_lift_auditEach (context : AccessContext) (transactionId : Str) (rolledBack : Bool)
    (entries : List (Operation × OperationResult)) :
    Issues (I := serviceInterface) P
      (lift (service.auditEach context transactionId rolledBack entries) : RaisingCall Unit).run :=
  issues_lift (issues_auditEach (fun _ _ => hquiet _ trivial) service _ _ _ _)

theorem issues_before (kind : EventKind) (operation : Operation) (context : AccessContext)
    (transactionId : Str) (cancellable : Bool) :
    Issues (I := serviceInterface) P
      (service.before kind operation context transactionId cancellable).run :=
  issues_then (issues_captureEach (fun _ => hquiet _ trivial) _) fun _ =>
    issues_then (issues_lift (issues_publish hquiet _ _)) fun _ => trivial

theorem issues_after (kind : EventKind) (operation : Operation) (context : AccessContext)
    (result : OperationResult) (transactionId : Str) :
    Issues (I := serviceInterface) P
      (service.after kind operation context result transactionId) := by
  refine issues_bind (issues_publish hquiet _ _) fun final => ?_
  dsimp only
  split
  · exact issues_bind (issues_publish hquiet _ _) fun _ => trivial
  · trivial

/-- The end of `apply`, whatever the commit answered. -/
theorem issues_applyCommit {operation : Operation} {force : Bool}
    (hcommit : P (.commitApply service operation force)) (context : AccessContext)
    (transactionId : Str) :
    Issues (I := serviceInterface) P
      (service.applyCommit operation context force transactionId).run := by
  refine issues_then (issues_attempt (I := serviceInterface) id hcommit) fun outcome => ?_
  cases outcome with
  | error error =>
      exact issues_then (issues_lift_audit hquiet service _ _ _ _ _ _) fun _ => trivial
  | ok result =>
      exact issues_then (issues_lift (issues_after hquiet service _ _ _ _ _)) fun _ =>
        issues_then (issues_lift_audit hquiet service _ _ _ _ _ _) fun _ => trivial

/-- `apply` commits its own operation, once it passed. -/
theorem issues_apply {operation : Operation} {context : AccessContext} {force : Bool}
    (hcommit : service.validateOperation operation context = .ok none →
      P (.commitApply service operation force)) :
    Issues (I := serviceInterface) P (service.apply operation context force).run := by
  unfold DynamicPropertyService.apply
  split
  · trivial
  refine issues_outcome_bind fun verdict hverdict => ?_
  cases verdict with
  | some error => trivial
  | none =>
      refine issues_then (issues_validatePropertyLimits (fun _ => hquiet _ trivial) _ _)
        fun error => ?_
      cases error with
      | some error => trivial
      | none =>
          refine issues_then (issues_attempt (I := serviceInterface) _ (hquiet _ trivial))
            fun transactionId => ?_
          refine issues_then (issues_before hquiet service _ _ _ _ _) fun event => ?_
          dsimp only
          split
          · exact issues_then (issues_lift_audit hquiet service _ _ _ _ _ _) fun _ => trivial
          · exact issues_applyCommit hquiet service (hcommit hverdict) _ _

/-- The end of `transact`, whatever the commit answered. -/
theorem issues_transactCommit {transaction : Transaction} {refs : List CollectionRef}
    (hcommit : P (.commitTransact service transaction refs)) (context : AccessContext)
    (transactionId : Str) (before : List CollectionSnapshot) :
    Issues (I := serviceInterface) P
      (service.transactCommit transaction context transactionId refs before).run := by
  refine issues_then (issues_attempt (I := serviceInterface) id hcommit) fun outcome => ?_
  cases outcome with
  | error error =>
      exact issues_then (issues_lift_auditEach hquiet service _ _ _ _) fun _ => trivial
  | ok commit =>
      exact issues_then (issues_lift (issues_publish hquiet _ _)) fun _ =>
        issues_then (issues_lift_auditEach hquiet service _ _ _ _) fun _ => trivial

omit hquiet in
/-- Every operation of a loop that passed did pass. -/
theorem validateOperations_none {operations : List Operation} {context : AccessContext}
    (h : service.validateOperations operations context = .ok none) :
    ∀ operation ∈ operations, service.validateOperation operation context = .ok none := by
  induction operations with
  | nil => exact fun _ hmem => absurd hmem List.not_mem_nil
  | cons operation rest ih =>
      rw [DynamicPropertyService.validateOperations] at h
      cases hfirst : service.validateOperation operation context with
      | error raised =>
          rw [hfirst] at h
          cases h
      | ok verdict =>
          rw [hfirst] at h
          cases verdict with
          | some error => cases h
          | none => exact List.forall_mem_cons.mpr ⟨hfirst, ih h⟩

omit hquiet in
theorem transactError_none {transaction : Transaction} {context : AccessContext}
    (h : service.transactError transaction context = .ok none) :
    ∀ operation ∈ transaction.operations,
      service.validateOperation operation
        (DynamicPropertyService.transactionContext transaction context) = .ok none := by
  unfold DynamicPropertyService.transactError at h
  split at h
  · cases h
  split at h
  · cases h
  split at h
  · cases h
  exact validateOperations_none service h

/-- `transact` commits its own transaction, once all its operations passed. -/
theorem issues_transact {transaction : Transaction} {context : AccessContext}
    (hcommit : (∀ operation ∈ transaction.operations,
        service.validateOperation operation
          (DynamicPropertyService.transactionContext transaction context) = .ok none) →
      ∀ refs, P (.commitTransact service transaction refs)) :
    Issues (I := serviceInterface) P (service.transact transaction context).run := by
  unfold DynamicPropertyService.transact
  split
  · exact issues_then (issues_attempt (I := serviceInterface) _ (hquiet _ trivial)) fun _ => trivial
  refine issues_outcome_bind fun verdict hverdict => ?_
  cases verdict with
  | some error => trivial
  | none =>
      refine issues_then (issues_validatePropertyLimits (fun _ => hquiet _ trivial) _ _)
        fun error => ?_
      cases error with
      | some error => trivial
      | none =>
          refine issues_then (issues_attempt (I := serviceInterface) _ (hquiet _ trivial))
            fun transactionId => ?_
          refine issues_then (issues_captureEach (fun _ => hquiet _ trivial) _) fun before => ?_
          refine issues_then (issues_lift (issues_publish hquiet _ _)) fun answer => ?_
          dsimp only
          split
          · exact issues_then (issues_lift_auditEach hquiet service _ _ _ _) fun _ => trivial
          · exact issues_transactCommit hquiet service
              (hcommit (transactError_none service hverdict) _) _ _ _

theorem issues_capture (ref : CollectionRef) (context : AccessContext) :
    Issues (I := serviceInterface) P (service.capture ref context).run := by
  refine issues_outcome_bind fun verdict _ => ?_
  cases verdict with
  | some error => trivial
  | none =>
      show Issues (I := serviceInterface) P (ExceptT.run (if _ then _ else _))
      split
      · trivial
      · exact issues_attempt (I := serviceInterface) id (hquiet _ trivial)

/-- The gate for external mutations only looks. -/
theorem issues_beforeExternalMutation (operation : Operation) (context : AccessContext)
    (cancellable : Bool) :
    Issues (I := serviceInterface) P
      (service.beforeExternalMutation operation context cancellable).run := by
  refine issues_then (issues_attempt (I := serviceInterface) _ (hquiet _ trivial))
    fun transactionId => ?_
  show Issues (I := serviceInterface) P (ExceptT.run (if _ then _ else _))
  split
  · trivial
  refine issues_outcome_bind fun verdict _ => ?_
  cases verdict with
  | some error => trivial
  | none =>
      refine issues_then (issues_validatePropertyLimits (fun _ => hquiet _ trivial) _ _)
        fun error => ?_
      cases error with
      | some error => trivial
      | none =>
          refine issues_then (issues_before hquiet service _ _ _ _ _) fun event => ?_
          split
          · trivial
          · split <;> trivial

theorem issues_afterExternalMutation (operation : Operation) (result : OperationResult)
    (context : AccessContext) (transactionId : Str) :
    Issues (I := serviceInterface) P
      (service.afterExternalMutation operation result context transactionId).run := by
  have hrest : ∀ announced : Str, Issues (I := serviceInterface) P (ExceptT.run (do
      lift (service.after .afterExternalMutation operation
        (DynamicPropertyService.externalContext context) result announced)
      lift (service.audit operation (DynamicPropertyService.externalContext context) result
        announced true false) : RaisingCall Unit)) := fun announced =>
    issues_then (issues_lift (issues_after hquiet service _ _ _ _ _)) fun _ =>
      issues_lift_audit hquiet service _ _ _ _ _ _
  unfold DynamicPropertyService.afterExternalMutation
  dsimp only
  split
  · exact issues_then (issues_attempt (I := serviceInterface) _ (hquiet _ trivial)) hrest
  · exact issues_then (p := pure transactionId) trivial hrest

end Issues

/-! ## Every call -/

/-- The operations a call may commit. -/
def ServiceCall.Supplies (interp : Interpreter) : ServiceCall → Operation → Prop
  | .apply _ operation _ _, supplied => supplied = operation
  | .transact _ transaction _, supplied => supplied ∈ transaction.operations
  | .importCollection service destination document _ policy expectedRevision, supplied =>
      ∃ properties, interp.decodeDocument service.limits document = .ok (some properties) ∧
        supplied = .importCollection
          { destination, properties, expectedDestinationRevision := expectedRevision, policy }
  | _, _ => False

/-- A commit of the service, of operations that passed its validation and are among
`supplied`. -/
def CommitsOnly (service : DynamicPropertyService) (supplied : Operation → Prop) : Request → Prop
  | .commitApply by_ operation _ =>
      by_ = service ∧ supplied operation ∧
        ∃ context, service.validateOperation operation context = .ok none
  | .commitTransact by_ transaction _ =>
      by_ = service ∧ ∀ operation ∈ transaction.operations, supplied operation ∧
        ∃ context, service.validateOperation operation context = .ok none
  | _ => True

theorem CommitsOnly.of_quiet {service : DynamicPropertyService} {supplied : Operation → Prop}
    {r : Request} (h : Quiet r) : CommitsOnly service supplied r := by
  cases r with
  | commitApply service operation force => exact h.elim
  | commitTransact service transaction refs => exact h.elim
  | _ => trivial

/-- **What a call commits.** -/
theorem issues_program (interp : Interpreter) (call : ServiceCall) {supplied : Operation → Prop}
    (h : ∀ operation, call.Supplies interp operation → supplied operation) :
    Issues (CommitsOnly call.service supplied) (call.program interp).run := by
  have hquiet : ∀ r, Quiet r → CommitsOnly call.service supplied r := fun _ => .of_quiet
  cases call with
  | capture service ref context =>
      exact issues_then (issues_capture hquiet service ref context) fun _ => trivial
  | apply service operation context force =>
      exact issues_then (issues_apply hquiet service fun hvalid =>
        ⟨rfl, h operation rfl, context, hvalid⟩) fun _ => trivial
  | transact service transaction context =>
      exact issues_then (issues_transact hquiet service fun hvalid refs =>
        ⟨rfl, fun operation hmem => ⟨h operation hmem, _, hvalid operation hmem⟩⟩) fun _ => trivial
  | importCollection service destination document context policy expectedRevision =>
      refine issues_then ?_ fun _ => trivial
      unfold DynamicPropertyService.importCollection
      split
      · trivial
      · trivial
      next properties hdecode =>
        exact issues_apply hquiet service fun hvalid =>
          ⟨rfl, h _ ⟨properties, hdecode, rfl⟩, context, hvalid⟩
  | beforeExternalMutation service operation context cancellable =>
      exact issues_then (issues_beforeExternalMutation hquiet service _ _ _) fun _ => trivial
  | afterExternalMutation service operation result context transactionId =>
      exact issues_then (issues_afterExternalMutation hquiet service _ _ _ _) fun _ => trivial

end DynamicProperties.Python
