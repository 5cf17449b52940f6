import DynamicProperties.Library.TwoRuns
import DynamicProperties.Cpp.Agreement
import DynamicProperties.Cpp.Conduct

/-!
# Plugins cannot observe or touch what they do not own

A plugin owns the collections whose name starts with its prefix.  `Alike` relates
two worlds that hold the same for the plugin's collections and have the same
targets available; elsewhere each keeps what it held at the start.  Every request
of a plugin call is answered alike from two such worlds, so every call, and every
sequence of calls, returns the same in both, up to transaction identifiers.

The reason is the same for all calls: once validation has passed, the operation
names only collections the plugin owns, and what the adapter does with an
operation depends on these alone.
-/

namespace DynamicProperties.Cpp

open Std
open DynamicProperties.Library
open DynamicProperties.Library.Requests
open DynamicProperties.Library.TwoRuns

/-! ## Ownership -/

/-- The plugin owns the collections whose name starts with its prefix. -/
def DynamicPropertyService.Owns (service : DynamicPropertyService) (pluginId : ByteString)
    (ref : CollectionRef) : Prop :=
  service.accessPolicy.pluginPrefix pluginId <+: ref.collection

/-- A context of the plugin without raw administrative access. -/
def AccessContext.IsOf (context : AccessContext) (pluginId : ByteString) : Prop :=
  context.pluginId = pluginId ∧ context.rawAdmin = false

section Ownership

variable {service : DynamicPropertyService} {pluginId : ByteString} {context : AccessContext}

theorem owns_of_canAccess (hof : context.IsOf pluginId) {ref : CollectionRef}
    (h : service.accessPolicy.canAccess context ref = true) : service.Owns pluginId ref := by
  have hprefixed := ((canAccess_iff hof.2).mp h).2
  rw [hof.1] at hprefixed
  exact hprefixed

/-- What passes validation names only collections the plugin owns. -/
theorem names_of_validated (hof : context.IsOf pluginId) {operation : DynamicPropertyOperation}
    (h : service.validateOperation operation context = none) :
    NamesOnly (service.Owns pluginId) operation := fun ref href =>
  owns_of_canAccess hof ((validateOperation_none h).references ref href).2

theorem names_of_allValidated (hof : context.IsOf pluginId)
    {operations : List DynamicPropertyOperation}
    (h : service.validateOperations operations context = none) :
    ∀ operation ∈ operations, NamesOnly (service.Owns pluginId) operation := by
  intro operation hop
  exact names_of_validated hof (List.findSome?_eq_none_iff.mp h operation hop)

theorem owns_of_captured (hof : context.IsOf pluginId) {ref : CollectionRef}
    (h : service.captureError ref context = none) : service.Owns pluginId ref :=
  owns_of_canAccess hof (checkReference_none (orElse_eq_none.mp h).1).2

end Ownership

/-! ## Worlds alike -/

/-- The two worlds look the same to the plugin, and outside its collections each
holds what it held at the start. -/
structure Alike (service : DynamicPropertyService) (pluginId : ByteString)
    (outside outside' : Contents) (world world' : World) : Prop where
  availability : world.adapter.availability = world'.adapter.availability
  agree : AgreeOn (service.Owns pluginId) world.adapter.store world'.adapter.store
  kept : ∀ ref, ¬ service.Owns pluginId ref → contents world.adapter.store ref = outside ref
  kept' : ∀ ref, ¬ service.Owns pluginId ref → contents world'.adapter.store ref = outside' ref
  silent : (world.eventBuses service.eventBus).subscriptions = ∅
  silent' : (world'.eventBuses service.eventBus).subscriptions = ∅

section Requests

variable {service : DynamicPropertyService} {pluginId : ByteString} {outside outside' : Contents}

/-- A commit on both sides that keeps to the plugin's collections. -/
theorem Alike.commit {world world' : World}
    (h : Alike service pluginId outside outside' world world')
    {adapter adapter' : InMemoryAdapter}
    (havailability : adapter.availability = world.adapter.availability)
    (havailability' : adapter'.availability = world'.adapter.availability)
    (hagree : AgreeOn (service.Owns pluginId) adapter.store adapter'.store)
    (hkept : ∀ ref, ¬ service.Owns pluginId ref →
      contents adapter.store ref = contents world.adapter.store ref)
    (hkept' : ∀ ref, ¬ service.Owns pluginId ref →
      contents adapter'.store ref = contents world'.adapter.store ref) :
    Alike service pluginId outside outside' { world with adapter }
      { world' with adapter := adapter' }
    where
  availability := havailability.trans (h.availability.trans havailability'.symm)
  agree := hagree
  kept ref href := (hkept ref href).trans (h.kept ref href)
  kept' ref href := (hkept' ref href).trans (h.kept' ref href)
  silent := h.silent
  silent' := h.silent'

/-- A capture of an owned collection. -/
def OwnCapture (service : DynamicPropertyService) (pluginId : ByteString) : Request → Prop
  | .capture ref => service.Owns pluginId ref
  | _ => False

theorem answers_ownCapture (r : Request) (h : OwnCapture service pluginId r) :
    Answers (I := serviceInterface) Acts (Alike service pluginId outside outside') r r (· = ·) := by
  cases r with
  | capture ref =>
      intro world world' x y after after' halike hx hy
      have hx' : (x, after) = (world.adapter.capture ref, world) := hx
      have hy' : (y, after') = (world'.adapter.capture ref, world') := hy
      cases hx'
      cases hy'
      exact ⟨halike, InMemoryAdapter.capture_agree halike.availability halike.agree h⟩
  | _ => exact h.elim

theorem answers_makeTransactionId :
    Answers (I := serviceInterface) Acts (Alike service pluginId outside outside')
      .makeTransactionId .makeTransactionId fun _ _ => True := by
  intro world world' x y after after' halike hx hy
  rw [show after = (respond world .makeTransactionId).2 from congrArg Prod.snd hx,
    show after' = (respond world' .makeTransactionId).2 from congrArg Prod.snd hy]
  exact ⟨⟨halike.availability, halike.agree, halike.kept, halike.kept', halike.silent,
    halike.silent'⟩, trivial⟩

/-- A bus without subscriptions has no listener for any event. -/
theorem answers_matchListeners (event event' : DynamicPropertyEvent) :
    Answers (I := serviceInterface) Acts (Alike service pluginId outside outside')
      (.matchListeners service.eventBus event) (.matchListeners service.eventBus event')
      fun listeners listeners' => listeners = [] ∧ listeners' = [] := by
  intro world world' x y after after' halike hx hy
  have hx' : (x, after) =
    ((world.eventBuses service.eventBus).listenersFor event, world) := hx
  have hy' : (y, after') =
    ((world'.eventBuses service.eventBus).listenersFor event', world') := hy
  cases hx'
  cases hy'
  refine ⟨halike, ?_, ?_⟩
  · simp [DynamicPropertyEventBus.listenersFor, halike.silent]
  · simp [DynamicPropertyEventBus.listenersFor, halike.silent']

/-- Whether or not a sink keeps a record, the stores stay as they are. -/
theorem answers_record (sink : Nat) (entry entry' : DynamicPropertyAuditRecord) :
    Answers (I := serviceInterface) Acts (Alike service pluginId outside outside')
      (.record sink entry) (.record sink entry') fun _ _ => True := by
  have hbuses : ∀ {world after : World} {entry : DynamicPropertyAuditRecord} {threw : Bool},
      Acts world (.record sink entry) threw after → after.eventBuses = world.eventBuses := by
    intro world after entry threw hact
    have hcases : (threw = true ∧ after = world) ∨
      (threw, after) = respond world (.record sink entry) := hact
    rcases hcases with ⟨-, rfl⟩ | hkept
    · rfl
    · rw [show after = (respond world (.record sink entry)).2 from congrArg Prod.snd hkept]
      rfl
  intro world world' x y after after' halike hx hy
  have hadapter : after.adapter = world.adapter := acts_quiet (by trivial) hx
  have hadapter' : after'.adapter = world'.adapter := acts_quiet (by trivial) hy
  refine ⟨⟨?_, ?_, ?_, ?_, ?_, ?_⟩, trivial⟩
  · rw [hadapter, hadapter', halike.availability]
  · rw [hadapter, hadapter']
    exact halike.agree
  · rw [hadapter]
    exact halike.kept
  · rw [hadapter']
    exact halike.kept'
  · rw [hbuses hx]
    exact halike.silent
  · rw [hbuses hy]
    exact halike.silent'

/-- The listing a plugin is shown. -/
def ownListing (service : DynamicPropertyService) (pluginId : ByteString)
    (listing : ListCollectionsResult) : ListCollectionsResult :=
  { listing with
    collections := listing.collections.filter fun name =>
      (service.accessPolicy.pluginPrefix pluginId).isPrefixOf name }

theorem answers_listCollections (target : DynamicPropertyTarget) :
    Answers (I := serviceInterface) Acts (Alike service pluginId outside outside')
      (.listCollections target) (.listCollections target) fun listing listing' =>
        listing.ok = listing'.ok ∧ (listing.ok = false → listing = listing') ∧
          ownListing service pluginId listing = ownListing service pluginId listing' := by
  intro world world' x y after after' halike hx hy
  have hx' : (x, after) = (world.adapter.listCollections target, world) := hx
  have hy' : (y, after') = (world'.adapter.listCollections target, world') := hy
  cases hx'
  cases hy'
  refine ⟨halike, InMemoryAdapter.listCollections_agree halike.availability ?_ target⟩
  intro ref href
  exact halike.agree ref (List.isPrefixOf_iff_prefix.mp href)

variable {context : AccessContext}

theorem answers_commitApply (hof : context.IsOf pluginId) (operation : DynamicPropertyOperation)
    (force : Bool) :
    Answers (I := serviceInterface) Acts (Alike service pluginId outside outside')
      (.commitApply service operation context force)
      (.commitApply service operation context force) (· = ·) := by
  intro world world' x y after after' halike hx hy
  have hnames : service.validateOperations [operation] context = none →
      ∀ o ∈ [operation], NamesOnly (service.Owns pluginId) o := names_of_allValidated hof
  have herror := commitError_agree halike.availability halike.agree service context hnames
  have hx' : (x, after) = ((service.commitApply world.adapter operation context force).1,
    { world with adapter := (service.commitApply world.adapter operation context force).2 }) := hx
  have hy' : (y, after') = ((service.commitApply world'.adapter operation context force).1,
    { world' with adapter := (service.commitApply world'.adapter operation context force).2 }) := hy
  unfold DynamicPropertyService.commitApply at hx' hy'
  rw [herror] at hx'
  cases hcommit : service.commitError world'.adapter [operation] context with
  | some error =>
      rw [hcommit] at hx' hy'
      cases hx'
      cases hy'
      exact ⟨halike, rfl⟩
  | none =>
      rw [hcommit] at hx' hy'
      cases hx'
      cases hy'
      have hop : NamesOnly (service.Owns pluginId) operation :=
        hnames (orElse_eq_none.mp hcommit).1 operation (List.mem_singleton.mpr rfl)
      have happlied : (world.adapter.apply operation force).1 =
            (world'.adapter.apply operation force).1 ∧
          AgreeOn (service.Owns pluginId) (world.adapter.apply operation force).2.store
            (world'.adapter.apply operation force).2.store := by
        simp only [InMemoryAdapter.apply_result, InMemoryAdapter.apply_store, halike.availability]
        exact applyUnlocked_agree halike.agree hop
      refine ⟨halike.commit rfl rfl happlied.2 ?_ ?_, congrArg Except.ok happlied.1⟩
      · intro ref href
        exact applyUnlocked_outside hop href
      · intro ref href
        exact applyUnlocked_outside hop href

/-- Two commits of one transaction: the same refusal, or results that differ at
most in their identifier. -/
def SameOutcome (commit commit' : TransactCommit) : Prop :=
  (∃ error, commit.outcome = .error error ∧ commit'.outcome = .error error) ∨
    ∃ result result', commit.outcome = .ok result ∧ commit'.outcome = .ok result' ∧
      result.withoutId = result'.withoutId

theorem answers_commitTransact (hof : context.IsOf pluginId)
    (transaction : DynamicPropertyTransaction) (collections : List CollectionRef) :
    Answers (I := serviceInterface) Acts (Alike service pluginId outside outside')
      (.commitTransact service transaction context collections)
      (.commitTransact service transaction context collections) SameOutcome := by
  intro world world' x y after after' halike hx hy
  have hnames : service.validateOperations transaction.operations context = none →
      ∀ o ∈ transaction.operations, NamesOnly (service.Owns pluginId) o :=
    names_of_allValidated hof
  have herror := commitError_agree halike.availability halike.agree service context hnames
  have hx' : (x, after) =
    ((service.commitTransact world.adapter transaction context collections).1,
      { world with adapter :=
          (service.commitTransact world.adapter transaction context collections).2 }) := hx
  have hy' : (y, after') =
    ((service.commitTransact world'.adapter transaction context collections).1,
      { world' with adapter :=
          (service.commitTransact world'.adapter transaction context collections).2 }) := hy
  unfold DynamicPropertyService.commitTransact at hx' hy'
  rw [herror] at hx'
  cases hcommit : service.commitError world'.adapter transaction.operations context with
  | some error =>
      rw [hcommit] at hx' hy'
      cases hx'
      cases hy'
      exact ⟨halike, Or.inl ⟨error, rfl, rfl⟩⟩
  | none =>
      rw [hcommit] at hx' hy'
      cases hx'
      cases hy'
      have hops := hnames (orElse_eq_none.mp hcommit).1
      obtain ⟨hresult, hstores⟩ :=
        InMemoryAdapter.transact_agree halike.availability halike.agree hops
      refine ⟨halike.commit (InMemoryAdapter.transact_availability _ _)
        (InMemoryAdapter.transact_availability _ _) hstores ?_ ?_,
        Or.inr ⟨_, _, rfl, rfl, hresult⟩⟩
      · intro ref href
        exact InMemoryAdapter.transact_outside hops href
      · intro ref href
        exact InMemoryAdapter.transact_outside hops href

/-! ## Calls -/

/-- Two programs of the plugin: related worlds, related results. -/
abbrev Matches (service : DynamicPropertyService) (pluginId : ByteString)
    (outside outside' : Contents) {α : Type} (p q : ServiceProgram α) (Q : α → α → Prop) : Prop :=
  Relates (I := serviceInterface) Acts (Alike service pluginId outside outside') p q Q

theorem matches_captures {α : Type} {p : ServiceProgram α}
    (h : Issues (I := serviceInterface) (OwnCapture service pluginId) p) :
    Matches service pluginId outside outside' p p (· = ·) :=
  relates_of_issues answers_ownCapture h

/-- Nobody listens: the event comes back as it was published. -/
theorem matches_publish (event event' : DynamicPropertyEvent) :
    Matches service pluginId outside outside' (publish service.eventBus event)
      (publish service.eventBus event') fun x y => x = (event, []) ∧ y = (event', []) := by
  refine relates_call_bind (answers_matchListeners event event') fun listeners listeners' h => ?_
  obtain ⟨rfl, rfl⟩ := h
  exact relates_done ⟨rfl, rfl⟩

theorem matches_publishBefore (kind : DynamicPropertyEventKind)
    {operation : DynamicPropertyOperation} (hnames : NamesOnly (service.Owns pluginId) operation)
    (transactionId transactionId' : ByteString) (cancellable : Bool) :
    Matches service pluginId outside outside'
      (service.publishBefore kind operation context transactionId cancellable)
      (service.publishBefore kind operation context transactionId' cancellable)
      fun x y => x = (false, []) ∧ y = (false, []) := by
  refine relates_bind (matches_captures (issues_captureEach hnames)) fun before before' h => ?_
  refine relates_bind (matches_publish _ _) fun x y hxy => ?_
  obtain ⟨rfl, rfl⟩ := hxy
  apply relates_done
  cases cancellable <;> exact ⟨rfl, rfl⟩

theorem matches_publishAfter (kind : DynamicPropertyEventKind)
    (operation : DynamicPropertyOperation) (result : OperationResult)
    (transactionId transactionId' : ByteString) :
    Matches service pluginId outside outside'
      (service.publishAfter kind operation context result transactionId)
      (service.publishAfter kind operation context result transactionId') fun _ _ => True := by
  refine relates_bind (matches_publish _ _) fun x y _ => ?_
  dsimp only
  split
  · exact relates_bind (matches_publish _ _) fun _ _ _ => relates_done trivial
  · exact relates_done trivial

theorem matches_audit (operation : DynamicPropertyOperation) (result : OperationResult)
    (transactionId transactionId' : ByteString) (external rolledBack : Bool) :
    Matches service pluginId outside outside'
      (service.audit operation context result transactionId external rolledBack)
      (service.audit operation context result transactionId' external rolledBack)
      fun _ _ => True :=
  relates_call_bind (answers_record _ _ _) fun _ _ _ => relates_done trivial

theorem matches_auditEach (transactionId transactionId' : ByteString) (rolledBack : Bool)
    (entries : List (DynamicPropertyOperation × OperationResult)) :
    Matches service pluginId outside outside'
      (service.auditEach context transactionId rolledBack entries)
      (service.auditEach context transactionId' rolledBack entries) fun _ _ => True := by
  induction entries with
  | nil => exact relates_done trivial
  | cons entry rest ih =>
      exact relates_bind (matches_audit entry.1 entry.2 _ _ _ _) fun _ _ _ => ih

theorem matches_applyCommit (hof : context.IsOf pluginId) (operation : DynamicPropertyOperation)
    (force : Bool) (transactionId transactionId' : ByteString) :
    Matches service pluginId outside outside'
      (service.applyCommit operation context force transactionId)
      (service.applyCommit operation context force transactionId') (· = ·) := by
  refine relates_call_bind (answers_commitApply hof operation force) fun outcome outcome' h => ?_
  subst h
  cases outcome with
  | error error =>
      exact relates_bind (matches_audit _ _ _ _ _ _) fun _ _ _ => relates_done rfl
  | ok result =>
      refine relates_bind (matches_publishAfter _ _ _ _ _) fun _ _ _ => ?_
      exact relates_bind (matches_audit _ _ _ _ _ _) fun _ _ _ => relates_done rfl

/-- The preflight of validated operations captures only owned collections. -/
theorem matches_validatePropertyLimits (hof : context.IsOf pluginId)
    {operations : List DynamicPropertyOperation}
    (h : service.validateOperations operations context = none) (limits : ValidationLimits) :
    Matches service pluginId outside outside'
      (validatePropertyLimits Ask.capture limits operations)
      (validatePropertyLimits Ask.capture limits operations) (· = ·) := by
  refine matches_captures (issues_validatePropertyLimits limits fun ref href => ?_)
  obtain ⟨operation, hop, hmem⟩ := mem_namedCollections.mp href
  exact names_of_allValidated hof h operation hop ref hmem

theorem matches_apply (hof : context.IsOf pluginId) (operation : DynamicPropertyOperation)
    (force : Bool) :
    Matches service pluginId outside outside' (service.apply operation context force)
      (service.apply operation context force) (· = ·) := by
  unfold DynamicPropertyService.apply
  split
  · exact relates_done rfl
  cases hvalid : service.validateOperation operation context with
  | some error => exact relates_done rfl
  | none =>
      have hops : service.validateOperations [operation] context = none := by
        simp [DynamicPropertyService.validateOperations, hvalid]
      refine relates_bind (matches_validatePropertyLimits hof hops _) fun error error' h => ?_
      subst h
      cases error with
      | some error => exact relates_done rfl
      | none =>
          refine relates_call_bind answers_makeTransactionId
            fun transactionId transactionId' _ => ?_
          refine relates_bind (matches_publishBefore _ (names_of_validated hof hvalid) _ _ _)
            fun x y hxy => ?_
          obtain ⟨rfl, rfl⟩ := hxy
          exact matches_applyCommit hof operation force _ _

theorem matches_transactCommit (hof : context.IsOf pluginId)
    (transaction : DynamicPropertyTransaction) (transactionId transactionId' : ByteString)
    (collections : List CollectionRef) :
    Matches service pluginId outside outside'
      (service.transactCommit transaction context transactionId collections)
      (service.transactCommit transaction context transactionId' collections)
      fun result result' => result.withoutId = result'.withoutId := by
  refine relates_call_bind (answers_commitTransact hof transaction collections)
    fun commit commit' h => ?_
  rcases h with ⟨error, hleft, hright⟩ | ⟨result, result', hleft, hright, hresult⟩
  · rw [hleft, hright]
    exact relates_bind (matches_auditEach _ _ _ _) fun _ _ _ => relates_done rfl
  · rw [hleft, hright]
    simp only [TransactionResult.withoutId, TransactionResult.mk.injEq] at hresult
    obtain ⟨hstatus, hmessage, hresults, hrolled, -⟩ := hresult
    dsimp only
    rw [hresults, hrolled]
    refine relates_bind (matches_publish _ _) fun _ _ _ => ?_
    refine relates_bind (matches_auditEach _ _ _ _) fun _ _ _ => relates_done ?_
    simp [TransactionResult.withoutId, hstatus, hmessage]

theorem matches_transactAnnounced (hof : context.IsOf pluginId)
    {transaction : DynamicPropertyTransaction}
    (h : service.validateOperations transaction.operations context = none)
    (transactionId transactionId' : ByteString) :
    Matches service pluginId outside outside'
      (service.transactAnnounced transaction context transactionId)
      (service.transactAnnounced transaction context transactionId')
      fun result result' => result.withoutId = result'.withoutId := by
  have howned : ∀ ref ∈ namedCollections transaction.operations, service.Owns pluginId ref := by
    intro ref href
    obtain ⟨operation, hop, hmem⟩ := mem_namedCollections.mp href
    exact names_of_allValidated hof h operation hop ref hmem
  refine relates_bind (matches_captures (issues_captureEach howned)) fun before before' _ => ?_
  refine relates_bind (matches_publish _ _) fun x y hxy => ?_
  obtain ⟨rfl, rfl⟩ := hxy
  exact matches_transactCommit hof transaction _ _ _

theorem transactionContext_isOf (hof : context.IsOf pluginId)
    (transaction : DynamicPropertyTransaction) :
    (DynamicPropertyService.transactionContext transaction context).IsOf pluginId := by
  unfold DynamicPropertyService.transactionContext
  split
  · exact hof
  · exact hof

/-- The last check of `transact` is the validation of its operations. -/
theorem validateOperations_of_transactError {transaction : DynamicPropertyTransaction}
    (h : service.transactError transaction context = none) :
    service.validateOperations transaction.operations
      (DynamicPropertyService.transactionContext transaction context) = none := by
  unfold DynamicPropertyService.transactError at h
  split at h
  · cases h
  split at h
  · cases h
  split at h
  · cases h
  · exact h

theorem matches_transact (hof : context.IsOf pluginId) (transaction : DynamicPropertyTransaction) :
    Matches service pluginId outside outside' (service.transact transaction context)
      (service.transact transaction context)
      fun result result' => result.withoutId = result'.withoutId := by
  refine relates_call_bind answers_makeTransactionId fun transactionId transactionId' _ => ?_
  split
  · exact relates_done rfl
  cases hchecks : service.transactError transaction context with
  | some error => exact relates_done rfl
  | none =>
      have hof' := transactionContext_isOf hof transaction
      have hops := validateOperations_of_transactError hchecks
      refine relates_bind (matches_validatePropertyLimits hof' hops _) fun error error' h => ?_
      subst h
      cases error with
      | some error => exact relates_done rfl
      | none => exact matches_transactAnnounced hof' hops _ _

theorem matches_listCollections (hof : context.IsOf pluginId) (target : DynamicPropertyTarget) :
    Matches service pluginId outside outside' (service.listCollections target context)
      (service.listCollections target context) (· = ·) := by
  unfold DynamicPropertyService.listCollections
  split
  · exact relates_done rfl
  refine relates_call_bind (answers_listCollections target) fun listing listing' h => ?_
  obtain ⟨hok, hfailed, hshown⟩ := h
  have hraw : DynamicPropertyAccessPolicy.canListRawCollections context = false := hof.2
  rw [hraw, hok, Bool.or_false, hof.1]
  cases hlisted : listing'.ok with
  | false =>
      rw [hfailed (hok.trans hlisted)]
      exact relates_done rfl
  | true =>
      simp only [Bool.not_true, Bool.false_eq_true, if_false]
      split
      · exact relates_done rfl
      · exact relates_done hshown

theorem matches_importCollection (format : NumberFormat) (hof : context.IsOf pluginId)
    (destination : CollectionRef) (document : ByteString) (policy : ImportPolicy)
    (expectedRevision : ExpectedRevision) :
    Matches service pluginId outside outside'
      (service.importCollection format destination document context policy expectedRevision)
      (service.importCollection format destination document context policy expectedRevision)
      (· = ·) := by
  unfold DynamicPropertyService.importCollection
  split
  · exact relates_done rfl
  split
  · exact relates_done rfl
  · exact matches_apply hof _ _

end Requests

/-! ## Sequences of calls -/

/-- A call a plugin makes, with its arguments. -/
inductive PluginCall where
  | capture (ref : CollectionRef) (context : AccessContext)
  | get (ref : CollectionRef) (key : ByteString) (context : AccessContext)
  | listCollections (target : DynamicPropertyTarget) (context : AccessContext)
  | apply (operation : DynamicPropertyOperation) (context : AccessContext) (force : Bool)
  | transact (transaction : DynamicPropertyTransaction) (context : AccessContext)
  | exportCollection (ref : CollectionRef) (context : AccessContext)
  | importCollection (destination : CollectionRef) (document : ByteString)
      (context : AccessContext) (policy : ImportPolicy) (expectedRevision : ExpectedRevision)
  | migrateCollection (source destination : CollectionRef) (context : AccessContext)
      (policy : ImportPolicy) (removeSource : Bool)
      (expectedSourceRevision expectedDestinationRevision : ExpectedRevision)

namespace PluginCall

def context : PluginCall → AccessContext
  | capture _ context => context
  | get _ _ context => context
  | listCollections _ context => context
  | apply _ context _ => context
  | transact _ context => context
  | exportCollection _ context => context
  | importCollection _ _ context _ _ => context
  | migrateCollection _ _ context _ _ _ _ => context

/-- The program of a call to a service. -/
def program (service : DynamicPropertyService) (format : NumberFormat) :
    PluginCall → ServiceProgram CallResult
  | capture ref context => do
      let result ← service.capture ref context
      pure (.captured result)
  | get ref key context => do
      let result ← service.get ref key context
      pure (.read result)
  | listCollections target context => do
      let result ← service.listCollections target context
      pure (.listed result)
  | apply operation context force => do
      let result ← service.apply operation context force
      pure (.operation result)
  | transact transaction context => do
      let result ← service.transact transaction context
      pure (.transaction result)
  | exportCollection ref context => do
      let result ← service.exportCollection format ref context
      pure (.exported result)
  | importCollection destination document context policy expectedRevision => do
      let result ← service.importCollection format destination document context policy
        expectedRevision
      pure (.operation result)
  | migrateCollection source destination context policy removeSource expectedSourceRevision
      expectedDestinationRevision => do
      let result ← service.migrateCollection source destination context policy removeSource
        expectedSourceRevision expectedDestinationRevision
      pure (.operation result)

end PluginCall

/-- What a call returned, but for transaction identifiers. -/
def CallResult.withoutId : CallResult → CallResult
  | .transaction result => .transaction result.withoutId
  | result => result

/-- A plugin makes calls one after the other. -/
def session (service : DynamicPropertyService) (format : NumberFormat) (calls : List PluginCall) :
    ServiceProgram (List CallResult) :=
  inTurn (calls.map (·.program service format))

section Sessions

variable {service : DynamicPropertyService} {pluginId : ByteString} {outside outside' : Contents}

/-- Every call of the plugin returns the same from worlds that look alike. -/
theorem matches_program (format : NumberFormat) {call : PluginCall}
    (hof : call.context.IsOf pluginId) :
    Matches service pluginId outside outside' (call.program service format)
      (call.program service format) fun result result' => result.withoutId = result'.withoutId := by
  have hwrap : ∀ {α : Type} {p : ServiceProgram α} {wrap : α → CallResult},
      Matches service pluginId outside outside' p p (· = ·) →
      Matches service pluginId outside outside' (p >>= fun a => Program.done (wrap a))
        (p >>= fun a => Program.done (wrap a))
        fun result result' => result.withoutId = result'.withoutId := by
    intro α p wrap hp
    refine relates_bind hp fun a b hab => relates_done ?_
    rw [hab]
  cases call with
  | capture ref context =>
      exact hwrap (matches_captures (issues_capture service (owns_of_captured hof)))
  | get ref key context =>
      exact hwrap (matches_captures (issues_get service key (owns_of_captured hof)))
  | listCollections target context => exact hwrap (matches_listCollections hof target)
  | apply operation context force => exact hwrap (matches_apply hof operation force)
  | transact transaction context =>
      refine relates_bind (matches_transact hof transaction) fun result result' h => relates_done ?_
      simp only [CallResult.withoutId, h]
  | exportCollection ref context =>
      exact hwrap (matches_captures (issues_exportCollection service format (owns_of_captured hof)))
  | importCollection destination document context policy expectedRevision =>
      exact hwrap (matches_importCollection format hof destination document policy expectedRevision)
  | migrateCollection source destination context policy removeSource expectedSourceRevision
      expectedDestinationRevision => exact hwrap (matches_apply hof _ _)

/-- Two contexts whose identifiers normalize differently share no collection. -/
theorem no_shared_collection {context context' : AccessContext} (hraw : context.rawAdmin = false)
    (hraw' : context'.rawAdmin = false)
    (hne : normalize context.pluginId ≠ normalize context'.pluginId) (ref : CollectionRef) :
    ¬ (service.accessPolicy.canAccess context ref = true ∧
      service.accessPolicy.canAccess context' ref = true) := by
  rintro ⟨hleft, hright⟩
  obtain ⟨hnonempty, hstarts⟩ := (canAccess_iff hraw).mp hleft
  obtain ⟨hnonempty', hstarts'⟩ := (canAccess_iff hraw').mp hright
  exact hne (eq_of_pluginPrefix_isPrefix hnonempty hnonempty' hstarts hstarts')

end Sessions

/-- **Plugin isolation.**  From two worlds that hold the same for the plugin's
collections, have the same targets available and no listeners, a sequence of
calls of the plugin returns the same, up to transaction identifiers; the stores
it leaves agree on the plugin's collections, and each keeps everything else.
Plugins whose identifiers normalize differently have no collection in common. -/
theorem plugin_isolation (service : DynamicPropertyService) (format : NumberFormat)
    (pluginId : ByteString) {calls : List PluginCall}
    (hcalls : ∀ call ∈ calls, call.context.pluginId = pluginId ∧ call.context.rawAdmin = false)
    {world₁ world₂ after₁ after₂ : World} {results₁ results₂ : List CallResult}
    (havailability : world₁.adapter.availability = world₂.adapter.availability)
    (hagree : ∀ ref : CollectionRef, service.accessPolicy.pluginPrefix pluginId <+: ref.collection →
      world₁.adapter.store[ref]? = world₂.adapter.store[ref]?)
    (hsilent₁ : (world₁.eventBuses service.eventBus).subscriptions = ∅)
    (hsilent₂ : (world₂.eventBuses service.eventBus).subscriptions = ∅)
    (hrun₁ : Returns (I := serviceInterface) Acts (session service format calls) world₁ results₁
      after₁)
    (hrun₂ : Returns (I := serviceInterface) Acts (session service format calls) world₂ results₂
      after₂) :
    (results₁.map (·.withoutId) = results₂.map (·.withoutId) ∧
      (∀ ref : CollectionRef, service.accessPolicy.pluginPrefix pluginId <+: ref.collection →
        after₁.adapter.store[ref]? = after₂.adapter.store[ref]?) ∧
      (∀ ref : CollectionRef, ¬ service.accessPolicy.pluginPrefix pluginId <+: ref.collection →
        after₁.adapter.store[ref]? = world₁.adapter.store[ref]?) ∧
      (∀ ref : CollectionRef, ¬ service.accessPolicy.pluginPrefix pluginId <+: ref.collection →
        after₂.adapter.store[ref]? = world₂.adapter.store[ref]?)) ∧
    ∀ context context' : AccessContext, context.rawAdmin = false → context'.rawAdmin = false →
      normalize context.pluginId ≠ normalize context'.pluginId →
      ∀ ref, ¬ (service.accessPolicy.canAccess context ref = true ∧
        service.accessPolicy.canAccess context' ref = true) := by
  refine ⟨?_, fun context context' hraw hraw' hne ref => no_shared_collection hraw hraw' hne ref⟩
  have halike : Alike service pluginId (contents world₁.adapter.store)
      (contents world₂.adapter.store) world₁ world₂ :=
    ⟨havailability, hagree, fun _ _ => rfl, fun _ _ => rfl, hsilent₁, hsilent₂⟩
  have hsession : Matches service pluginId (contents world₁.adapter.store)
      (contents world₂.adapter.store) (session service format calls) (session service format calls)
      (List.Forall₂ fun result result' => result.withoutId = result'.withoutId) := by
    refine relates_inTurn (List.forall₂_same.mpr fun p hp => ?_)
    obtain ⟨call, hcall, rfl⟩ := List.mem_map.mp hp
    exact matches_program format (hcalls call hcall)
  obtain ⟨hafter, hresults⟩ := hsession _ _ _ _ _ _ halike hrun₁ hrun₂
  refine ⟨?_, hafter.agree, hafter.kept, hafter.kept'⟩
  rw [← List.forall₂_eq_eq_eq, List.forall₂_map_left_iff, List.forall₂_map_right_iff]
  exact hresults

/-- A plugin's own pages, and those of another plugin. -/
def ownPages : CollectionRef := ⟨{}, text "endstone-plugin:notes:pages"⟩

def foreignPages : CollectionRef := ⟨{}, text "endstone-plugin:maps:pages"⟩

/-- Writing the own pages, listing, and reaching for the foreign ones. -/
def notesSession : List PluginCall :=
  [.transact
      { operations :=
          [.setProperty { ref := ownPages, key := text "title", value := .bool true }] }
      { pluginId := text "Notes" },
    .listCollections {} { pluginId := text "Notes" },
    .capture foreignPages { pluginId := text "Notes" }]

/-- A world that holds the foreign pages and has handed out transaction ids. -/
def sharedWorld : World where
  adapter := { store := (∅ : Store).insert foreignPages ∅ }
  serviceTransactionCounter := 7

/-- The theorem at a session that runs once alone and once beside another plugin. -/
theorem plugin_isolation_notes :
    (run respond (session {} silentFormat notesSession) ({} : World)).1.map (·.withoutId) =
        (run respond (session {} silentFormat notesSession) sharedWorld).1.map (·.withoutId) ∧
      (run respond (session {} silentFormat notesSession) sharedWorld).2.adapter.store[ownPages]? ≠
        none := by
  have hcalls : ∀ call ∈ notesSession,
      call.context.pluginId = text "Notes" ∧ call.context.rawAdmin = false := by
    intro call hcall
    simp only [notesSession, List.mem_cons, List.not_mem_nil, or_false] at hcall
    rcases hcall with rfl | rfl | rfl <;> exact ⟨rfl, rfl⟩
  have hagree : ∀ ref : CollectionRef,
      (({} : DynamicPropertyService).accessPolicy.pluginPrefix (text "Notes")) <+: ref.collection →
      ({} : World).adapter.store[ref]? = sharedWorld.adapter.store[ref]? := by
    intro ref hstarts
    have hne : foreignPages ≠ ref := by
      rintro rfl
      exact absurd (List.isPrefixOf_iff_prefix.mpr hstarts) (by decide)
    exact (OrderedMap.getElem?_insert_of_ne hne).symm
  have havailability : ({} : World).adapter.availability = sharedWorld.adapter.availability := rfl
  refine ⟨(plugin_isolation {} silentFormat (text "Notes") hcalls havailability hagree rfl rfl
    (returns_run acts_respond _ _) (returns_run acts_respond _ _)).1.1, ?_⟩
  decide

end DynamicProperties.Cpp
