import DynamicProperties.Cpp.Activation
import DynamicProperties.Cpp.Legality

/-!
# A service over the guarded adapter

The plugin never registers such a service.  Would a client get hold of one nevertheless, the
gate is closed a second time: the guarded adapter has no capability, so no call of the service
comes as far as the adapter, and what a call returns says that it was refused
(`guarded_service_refuses`).  The one call that does something is `afterExternalMutation`,
which tells the listeners and the audit sink what happened outside.
-/

namespace DynamicProperties.Cpp

open DynamicProperties.Library.Requests
open DynamicProperties.Library.Pool

/-- The service was made for the adapter. -/
def DynamicPropertyService.Over (service : DynamicPropertyService) (adapter : NativeAdapter) :
    Prop :=
  service.capabilities = adapter.capabilities.toDynamicPropertyCapabilities

/-- A request that calls the adapter. -/
def ReachesAdapter : Request → Prop
  | .makeTransactionId => False
  | .matchListeners _ _ => False
  | .invoke _ _ _ _ => False
  | .record _ _ => False
  | _ => True

/-- An operation that did nothing. -/
def OperationResult.Refused (result : OperationResult) : Prop :=
  result.ok = false ∧ result.before = [] ∧ result.after = []

/-- What a call returns when it was refused.  An empty transaction has nothing to refuse. -/
def ServiceCall.Refuses : ServiceCall → CallResult → Prop
  | .capture .., .captured result => result.ok = false ∧ result.snapshot = none
  | .get .., .read result => result.status ≠ .captured ∧ result.value = none
  | .listCollections .., .listed result => result.ok = false ∧ result.collections = []
  | .transact _ transaction _, .transaction result =>
      (result.ok = true → transaction.operations = []) ∧ result.operationResults = []
  | .exportCollection .., .exported result => result.status = .unsupported ∧ result.document = []
  | .beforeExternalMutation .., .gate result =>
      result.decision = .observeOnly ∧ result.status = .unsupported
  | .afterExternalMutation .., .observed => True
  | .apply .., .operation result => result.Refused
  | .flush .., .operation result => result.Refused
  | .importCollection .., .operation result => result.Refused
  | _, _ => False

/-- The call reports an external mutation. -/
def ServiceCall.isReport : ServiceCall → Bool
  | .afterExternalMutation .. => true
  | _ => false

section Refusals

variable {service : DynamicPropertyService} {adapter : GuardedBds2633DynamicPropertyAdapter}

theorem refused_failure {status : DynamicPropertyStatus} (h : status ≠ .applied)
    (message : ByteString) : (failure status message).Refused :=
  ⟨decide_eq_false h, rfl, rfl⟩

/-- The answer of the guarded adapter itself: the first gate that is closed. -/
theorem closedResult_refused (adapter : GuardedBds2633DynamicPropertyAdapter) :
    adapter.closedResult.Refused := by
  unfold GuardedBds2633DynamicPropertyAdapter.closedResult
  split
  · exact refused_failure (by decide) _
  split
  · exact refused_failure (by decide) _
  · exact refused_failure (by decide) _

/-- No kind of target is supported. -/
theorem validateCapability_guarded (h : service.Over (.guarded adapter))
    (target : DynamicPropertyTarget) :
    ∃ status message, service.validateCapability target = some (failure status message) ∧
      (status = .invalidTarget ∨ status = .unsupported) := by
  have hkind : targetCapability service.capabilities target.kind = false := by
    rw [h]
    cases target.kind <;> rfl
  unfold DynamicPropertyService.validateCapability
  cases validateTarget target with
  | some error => exact ⟨_, _, rfl, .inl rfl⟩
  | none =>
      dsimp only
      rw [hkind]
      exact ⟨_, _, rfl, .inr rfl⟩

theorem captureError_guarded (h : service.Over (.guarded adapter)) (ref : CollectionRef)
    (context : AccessContext) :
    ∃ status message, service.captureError ref context = some (failure status message) ∧
      (status = .invalidTarget ∨ status = .unsupported) := by
  obtain ⟨status, message, herror, hstatus⟩ := validateCapability_guarded h ref.target
  refine ⟨status, message, ?_, hstatus⟩
  rw [DynamicPropertyService.captureError, DynamicPropertyService.checkReference, herror]
  rfl

theorem capture_guarded (h : service.Over (.guarded adapter)) (ref : CollectionRef)
    (context : AccessContext) :
    ∃ result, service.capture ref context = .done result ∧ result.ok = false ∧
      result.snapshot = none := by
  obtain ⟨status, message, herror, hstatus⟩ := captureError_guarded h ref context
  refine ⟨{ status, message }, ?_, ?_, rfl⟩
  · rw [DynamicPropertyService.capture, herror]
    rfl
  · rcases hstatus with rfl | rfl <;> rfl

theorem get_guarded (h : service.Over (.guarded adapter)) (ref : CollectionRef)
    (key : ByteString) (context : AccessContext) :
    ∃ result, service.get ref key context = .done result ∧ result.status ≠ .captured ∧
      result.value = none := by
  obtain ⟨captured, hcapture, hok, -⟩ := capture_guarded h ref context
  unfold DynamicPropertyService.get
  dsimp only
  split
  · exact ⟨_, rfl, DynamicPropertyStatus.noConfusion, rfl⟩
  · refine ⟨{ status := captured.status, message := captured.message }, ?_,
      of_decide_eq_false hok, rfl⟩
    rw [hcapture, Program.done_bind, hok]
    rfl

theorem listCollections_guarded (h : service.Over (.guarded adapter))
    (target : DynamicPropertyTarget) (context : AccessContext) :
    ∃ result, service.listCollections target context = .done result ∧ result.ok = false ∧
      result.collections = [] := by
  obtain ⟨status, message, herror, hstatus⟩ := validateCapability_guarded h target
  refine ⟨{ status, message }, ?_, ?_, rfl⟩
  · rw [DynamicPropertyService.listCollections, herror]
    rfl
  · rcases hstatus with rfl | rfl <;> rfl

theorem flush_guarded (h : service.Over (.guarded adapter)) (target : DynamicPropertyTarget) :
    ∃ result, service.flush target = .done result ∧ result.Refused := by
  obtain ⟨status, message, herror, hstatus⟩ := validateCapability_guarded h target
  refine ⟨failure status message, ?_, refused_failure ?_ message⟩
  · rw [DynamicPropertyService.flush, herror]
    rfl
  · rcases hstatus with rfl | rfl <;> decide

/-- Every operation names a collection, so none is valid. -/
theorem validateOperation_guarded (h : service.Over (.guarded adapter))
    (operation : DynamicPropertyOperation) (context : AccessContext) :
    ∃ error, service.validateOperation operation context = some error ∧ error.Refused := by
  obtain ⟨ref, rest, hrefs⟩ : ∃ ref rest, operationCollections operation = ref :: rest := by
    cases operation <;> exact ⟨_, _, rfl⟩
  obtain ⟨status, message, herror, hstatus⟩ := validateCapability_guarded h ref.target
  refine ⟨failure status message, ?_, refused_failure ?_ _⟩
  · rw [DynamicPropertyService.validateOperation, hrefs, List.findSome?_cons,
      DynamicPropertyService.validateReference, DynamicPropertyService.checkReference, herror]
    rfl
  · rcases hstatus with rfl | rfl <;> decide

/-- `apply` refuses before it asks for anything. -/
theorem apply_guarded (h : service.Over (.guarded adapter)) (operation : DynamicPropertyOperation)
    (context : AccessContext) (force : Bool) :
    ∃ result, service.apply operation context force = .done result ∧ result.Refused := by
  obtain ⟨error, herror, hrefused⟩ := validateOperation_guarded h operation context
  unfold DynamicPropertyService.apply
  split
  · exact ⟨_, rfl, refused_failure (by decide) _⟩
  · rw [herror]
    exact ⟨error, rfl, hrefused⟩

theorem importCollection_guarded (h : service.Over (.guarded adapter)) (format : NumberFormat)
    (destination : CollectionRef) (document : ByteString) (context : AccessContext)
    (policy : ImportPolicy) (expectedRevision : ExpectedRevision) :
    ∃ result, service.importCollection format destination document context policy
        expectedRevision = .done result ∧ result.Refused := by
  unfold DynamicPropertyService.importCollection
  split
  · exact ⟨_, rfl, refused_failure (by decide) _⟩
  split
  · exact ⟨_, rfl, refused_failure (by decide) _⟩
  · exact apply_guarded h _ context false

/-- `transact` refuses what is in the transaction. -/
theorem transactError_guarded (h : service.Over (.guarded adapter))
    {transaction : DynamicPropertyTransaction} (hne : transaction.operations ≠ [])
    (context : AccessContext) :
    ∃ error, service.transactError transaction context = some error ∧ error.ok = false := by
  obtain ⟨operation, rest, hoperations⟩ := List.exists_cons_of_ne_nil hne
  obtain ⟨error, herror, hrefused⟩ := validateOperation_guarded h operation
    (DynamicPropertyService.transactionContext transaction context)
  unfold DynamicPropertyService.transactError
  split
  · exact ⟨_, rfl, rfl⟩
  split
  · exact ⟨_, rfl, rfl⟩
  split
  · exact ⟨_, rfl, rfl⟩
  · rw [DynamicPropertyService.validateOperations, hoperations, List.findSome?_cons, herror]
    exact ⟨error, rfl, hrefused.1⟩

end Refusals

/-! ## All calls -/

section Calls

variable {W : Type} {act : W → (r : Request) → Response r → W → Prop}

/-- A program that asks for nothing but an id, and returns something that `Q` holds of. -/
inductive Idle {α : Type} (Q : α → Prop) : ServiceProgram α → Prop
  | done {a : α} (h : Q a) : Idle Q (.done a)
  | numbered {answer : ByteString → α} (h : ∀ id, Q (answer id)) :
      Idle Q (.call .makeTransactionId fun id => .done (answer id))

theorem Idle.issues {α : Type} {Q : α → Prop} {p : ServiceProgram α} (h : Idle Q p) :
    Issues (I := serviceInterface) (fun r => ¬ ReachesAdapter r) p := by
  cases h with
  | done _ => trivial
  | numbered _ => exact ⟨id, fun _ => trivial⟩

theorem Idle.ensures {α : Type} {Q : α → Prop} {p : ServiceProgram α} (h : Idle Q p) :
    Ensures act p fun _ a => Q a := by
  cases h with
  | done h => exact ensures_done h
  | numbered h => exact ensures_call fun _ response _ _ => ensures_done (h response)

variable (format : NumberFormat) {call : ServiceCall}
  {adapter : GuardedBds2633DynamicPropertyAdapter}

/-- **Each call is idle**, except the one that reports an external mutation. -/
theorem program_idle (h : call.service.Over (.guarded adapter)) (hcall : call.isReport = false) :
    Idle call.Refuses (call.program format) := by
  cases call with
  | capture service ref context =>
      replace h : service.Over (.guarded adapter) := h
      obtain ⟨result, hprogram, hrefused⟩ := capture_guarded h ref context
      rw [ServiceCall.program, hprogram]
      exact .done hrefused
  | get service ref key context =>
      replace h : service.Over (.guarded adapter) := h
      obtain ⟨result, hprogram, hrefused⟩ := get_guarded h ref key context
      rw [ServiceCall.program, hprogram]
      exact .done hrefused
  | listCollections service target context =>
      replace h : service.Over (.guarded adapter) := h
      obtain ⟨result, hprogram, hrefused⟩ := listCollections_guarded h target context
      rw [ServiceCall.program, hprogram]
      exact .done hrefused
  | apply service operation context force =>
      replace h : service.Over (.guarded adapter) := h
      obtain ⟨result, hprogram, hrefused⟩ := apply_guarded h operation context force
      rw [ServiceCall.program, hprogram]
      exact .done hrefused
  | transact service transaction context =>
      replace h : service.Over (.guarded adapter) := h
      rw [ServiceCall.program, DynamicPropertyService.transact]
      by_cases hempty : transaction.operations = []
      · rw [hempty]
        exact .numbered fun _ => ⟨fun _ => hempty, rfl⟩
      · obtain ⟨error, herror, hok⟩ := transactError_guarded h hempty context
        rw [List.isEmpty_eq_false_iff.mpr hempty, herror]
        exact .numbered fun _ =>
          ⟨fun happlied => absurd (hok.symm.trans happlied) Bool.false_ne_true, rfl⟩
  | flush service target =>
      replace h : service.Over (.guarded adapter) := h
      obtain ⟨result, hprogram, hrefused⟩ := flush_guarded h target
      rw [ServiceCall.program, hprogram]
      exact .done hrefused
  | exportCollection service ref context =>
      have hexport : service.capabilities.exportImport = false := by
        rw [show service.capabilities = _ from h]
        rfl
      rw [ServiceCall.program, DynamicPropertyService.exportCollection, hexport]
      exact .done ⟨rfl, rfl⟩
  | importCollection service destination document context policy expectedRevision =>
      replace h : service.Over (.guarded adapter) := h
      obtain ⟨result, hprogram, hrefused⟩ := importCollection_guarded h format destination
        document context policy expectedRevision
      rw [ServiceCall.program, hprogram]
      exact .done hrefused
  | beforeExternalMutation service operation context cancellable =>
      have hobserve : service.capabilities.externalChangeObservation = false := by
        rw [show service.capabilities = _ from h]
        rfl
      rw [ServiceCall.program, DynamicPropertyService.beforeExternalMutation, hobserve]
      exact .numbered fun _ => ⟨rfl, rfl⟩
  | afterExternalMutation service operation result context transactionId =>
      cases hcall

/-! ### Reports -/

theorem issues_invokeAll_outside (published : DynamicPropertyEvent) (listeners : List UInt64) :
    ∀ position current, Issues (I := serviceInterface) (fun r => ¬ ReachesAdapter r)
      (invokeAll published position listeners current) := by
  induction listeners with
  | nil => exact fun _ _ => trivial
  | cons listener rest ih =>
      exact fun _ _ => issues_call_bind id fun _ => issues_bind (ih _ _) fun _ => trivial

theorem issues_publish_outside (bus : Nat) (event : DynamicPropertyEvent) :
    Issues (I := serviceInterface) (fun r => ¬ ReachesAdapter r) (publish bus event) :=
  issues_call_bind id fun _ => issues_invokeAll_outside _ _ _ _

/-- A report goes to listeners and to the sink. -/
theorem issues_report (hcall : call.isReport = true) :
    Issues (I := serviceInterface) (fun r => ¬ ReachesAdapter r) (call.program format) := by
  cases call with
  | afterExternalMutation service operation result context transactionId =>
      have hpublish : ∀ id, Issues (I := serviceInterface) (fun r => ¬ ReachesAdapter r)
          (service.publishAfter .afterExternalMutation operation
            (DynamicPropertyService.externalContext context) result id) := by
        intro id
        refine issues_bind (issues_publish_outside _ _) fun final => ?_
        dsimp only
        split
        · exact issues_bind (issues_publish_outside _ _) fun _ => trivial
        · trivial
      have hrecord : ∀ id, Issues (I := serviceInterface) (fun r => ¬ ReachesAdapter r)
          (service.audit operation (DynamicPropertyService.externalContext context) result id
            true false) :=
        fun _ => ⟨fun h => h, fun _ => trivial⟩
      refine issues_bind ?_ fun _ => trivial
      unfold DynamicPropertyService.afterExternalMutation
      dsimp only
      split
      · exact issues_call_bind id fun id => issues_bind (hpublish id) fun _ => hrecord id
      · exact issues_bind trivial fun id => issues_bind (hpublish id) fun _ => hrecord id
  | _ => cases hcall

theorem ensures_report (hcall : call.isReport = true) :
    Ensures act (call.program format) fun _ result => call.Refuses result := by
  cases call with
  | afterExternalMutation service operation result context transactionId =>
      rw [ServiceCall.program]
      exact ensures_bind (fun _ _ _ => trivial) fun _ _ _ => ensures_done trivial
  | _ => cases hcall

/-- **A service over the guarded adapter**, whatever else runs: none of its calls comes as far
as the adapter, and each returns that it was refused. -/
theorem guarded_service_refuses {sys : System serviceInterface W ServiceCall CallResult}
    (hprogram : sys.program = ServiceCall.program format) {init : W}
    {state : State serviceInterface W ServiceCall CallResult} (hrun : Run sys init state)
    {c : Call serviceInterface W ServiceCall CallResult} (hc : c ∈ state.calls)
    (h : c.job.service.Over (.guarded adapter)) :
    (∀ step ∈ c.steps, ¬ ReachesAdapter step.request) ∧
      ∀ result, c.Returned result → c.job.Refuses result := by
  have hexec := hrun.executes c hc
  rw [hprogram] at hexec
  have hcall : Issues (I := serviceInterface) (fun r => ¬ ReachesAdapter r)
        (c.job.program format) ∧
      Ensures sys.act (c.job.program format) fun _ result => c.job.Refuses result := by
    cases hreport : c.job.isReport with
    | true => exact ⟨issues_report format hreport, ensures_report format hreport⟩
    | false =>
        have hidle := program_idle format h hreport
        exact ⟨hidle.issues, hidle.ensures⟩
  refine ⟨fun step hstep => ((hexec.issues hcall.1).1 step hstep).1, fun result hreturned => ?_⟩
  rw [Call.Returned] at hreturned
  rw [hreturned] at hexec
  exact hcall.2 c.steps result hexec

end Calls

/-- A service over the adapter of a plugin that found nothing right. -/
def closedService : DynamicPropertyService where
  capabilities :=
    (GuardedBds2633DynamicPropertyAdapter.mk {}).capabilities.toDynamicPropertyCapabilities

theorem guarded_service_refuses_flush :
    (ServiceCall.flush closedService {}).Refuses
      (.operation (failure .unsupported (text "adapter does not support target kind world"))) := by
  have hrun : Run (serviceSystem silentFormat) ({} : World) _ :=
    .move .nil (.start _ (.flush closedService {}))
  have hover : closedService.Over (.guarded ⟨{}⟩) := rfl
  exact (guarded_service_refuses silentFormat rfl hrun List.mem_cons_self hover).2 _ rfl

end DynamicProperties.Cpp
