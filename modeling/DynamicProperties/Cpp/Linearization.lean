import DynamicProperties.Library.History
import DynamicProperties.Cpp.Legality
import DynamicProperties.Cpp.OptimisticRevisions
import DynamicProperties.Cpp.TargetIdentity

/-!
# Runs of the service are linearizable

The log of a history lists the operations that commits applied, in the order of the
commits.  `runs_linearize`: in every history the store holds the replay of the log, and
each call that returned successfully took effect at one instant between its start and
its return.  What it read is what the replay of the log up to that instant holds, and
what it wrote is its own entry of the log; a call that did not succeed has no entry.

Two consequences for clients:

* `changes_authorized`: a collection changes only through an operation that names it,
  committed by a call whose context may access it;
* `stale_was_overtaken`: a commit refused because the collection revision changed was
  overtaken by somebody else's commit, so that of contending writers one always wins.
-/

namespace DynamicProperties.Cpp

open Std
open DynamicProperties.Library
open DynamicProperties.Library.Requests
open DynamicProperties.Library.Requests.Program
open DynamicProperties.Library.Pool
open DynamicProperties.Library.History

/-! ## The log -/

/-- The operations a step applied to the store. -/
def committed : ServiceStep → List DynamicPropertyOperation
  | ⟨_, .commitApply _ operation _ _, .ok result, _⟩ => if result.ok then [operation] else []
  | ⟨_, .commitTransact _ transaction _ _, commit, _⟩ =>
      match commit.outcome with
      | .ok result => if result.status = .applied then transaction.operations else []
      | .error _ => []
  | _ => []

/-- The abstract store after these operations. -/
def replay (look : Contents) (operations : List DynamicPropertyOperation) : Contents :=
  operations.foldl (fun look operation => Footprint.run (effect operation) look) look

theorem replay_append (look : Contents) (first second : List DynamicPropertyOperation) :
    replay look (first ++ second) = replay (replay look first) second :=
  List.foldl_append

theorem committed_quiet {step : ServiceStep} (h : Quiet step.request) : committed step = [] := by
  obtain ⟨world, request, response, world'⟩ := step
  cases request with
  | commitApply service operation context force => exact h.elim
  | commitTransact service transaction context collections => exact h.elim
  | _ => rfl

theorem QuietSteps.committed {steps : List ServiceStep} (h : QuietSteps steps) :
    ∀ step ∈ steps, committed step = [] :=
  fun step hstep => committed_quiet (h step hstep).1

/-- The sequential application of operations that are all applied replays them. -/
theorem contents_applyEach (force : Bool) (operations : List DynamicPropertyOperation) :
    ∀ {adapter : InMemoryAdapter}, adapter.AppliesAll operations force →
      contents (adapter.applyEach operations force).2.store =
        replay (contents adapter.store) operations := by
  induction operations with
  | nil => exact fun _ => rfl
  | cons operation rest ih =>
      intro adapter hall
      obtain ⟨hok, hrest⟩ := InMemoryAdapter.appliesAll_iff.mp hall
      rw [InMemoryAdapter.applyEach_cons_of_ok hok rest]
      have hnext := ih (InMemoryAdapter.appliesAll_iff.mpr hrest)
      rw [hnext, InMemoryAdapter.apply_store, contents_applyUnlocked_of_ok hok]
      rfl

theorem contents_quiet {step : ServiceStep} (hquiet : Quiet step.request)
    (hact : Acts step.before step.request step.response step.after) :
    contents step.after.adapter.store =
      (committed step).foldl (fun look operation => Footprint.run (effect operation) look)
        (contents step.before.adapter.store) := by
  rw [committed_quiet hquiet, acts_quiet hquiet hact]
  rfl

/-- **One step.**  It changes the store by the operations it committed. -/
theorem contents_step (step : ServiceStep)
    (hact : Acts step.before step.request step.response step.after) :
    contents step.after.adapter.store =
      (committed step).foldl (fun look operation => Footprint.run (effect operation) look)
        (contents step.before.adapter.store) := by
  obtain ⟨world, request, response, world'⟩ := step
  cases request with
  | commitApply service operation context force =>
      change contents world'.adapter.store = _
      rcases acts_commitApply hact with ⟨error, hout, -, hadapter⟩ | ⟨hout, hadapter⟩
      · change response = .error error at hout
        subst hout
        rw [hadapter]
        rfl
      · change response = .ok (world.adapter.apply operation force).1 at hout
        subst hout
        rw [hadapter]
        by_cases hok : (world.adapter.apply operation force).1.ok = true
        · rw [committed, if_pos hok]
          exact contents_applyUnlocked_of_ok hok
        · rw [committed, if_neg hok]
          exact congrArg contents (applyUnlocked_store_of_not_ok (by simpa using hok))
  | commitTransact service transaction context collections =>
      change contents world'.adapter.store = _
      rcases acts_commitTransact hact with ⟨error, hout, -, hadapter⟩ | ⟨-, hout, hadapter⟩
      · rw [hadapter]
        simp only [committed, show TransactCommit.outcome response = _ from hout]
        rfl
      · rw [hadapter]
        simp only [committed, show TransactCommit.outcome response = _ from hout]
        by_cases hall : world.adapter.AppliesAll transaction.operations transaction.force
        · obtain ⟨hstatus, -, -, hstore⟩ := InMemoryAdapter.transact_of_appliesAll hall
          rw [if_pos hstatus, hstore]
          exact contents_applyEach _ _ hall
        · obtain ⟨hstatus, -, -, hstore⟩ := InMemoryAdapter.transact_of_not_appliesAll hall
          rw [hstore, hstatus]
          rfl
  | _ => exact contents_quiet (by trivial) hact

theorem contents_interferes (world world' : World) (h : Interferes world world') :
    contents world'.adapter.store = contents world.adapter.store :=
  congrArg contents (interferes_store h)

/-! ## When a call takes effect -/

/-- The call succeeded; finding that a property does not exist is an answer. -/
def Succeeded : CallResult → Prop
  | .captured result => result.ok = true
  | .read result => result.status = .captured ∨ result.status = .notFound
  | .listed result => result.ok = true
  | .operation result => result.ok = true
  | .transaction result => result.status = .applied
  | .exported result => result.status = .captured
  | .gate _ => False
  | .observed => False

/-- The operation an import commits. -/
def importing (destination : CollectionRef) (properties : DynamicPropertyMap)
    (policy : ImportPolicy) (expectedRevision : ExpectedRevision) : DynamicPropertyOperation :=
  .importCollection
    { destination, properties, expectedDestinationRevision := expectedRevision, policy }

/-- These results show the operations one after another, from this store on. -/
def ShowInTurn : Contents → List DynamicPropertyOperation → List OperationResult → Prop
  | _, [], results => results = []
  | _, _ :: _, [] => False
  | look, operation :: rest, result :: results =>
      result.before = participantSnapshots look operation ∧
        result.after = participantSnapshots (replay look [operation]) operation ∧
        ShowInTurn (replay look [operation]) rest results

/-- What a call read and wrote in the instant in which the store held `look`. -/
inductive TookEffect (format : NumberFormat) (look : Contents) :
    ServiceCall → CallResult → List DynamicPropertyOperation → Prop
  | captured {service : DynamicPropertyService} {ref : CollectionRef} {context : AccessContext}
      {result : CaptureResult} (hsnapshot : result.snapshot = some (snapshotAt look ref)) :
      TookEffect format look (.capture service ref context) (.captured result) []
  | read {service : DynamicPropertyService} {ref : CollectionRef} {key : ByteString}
      {context : AccessContext} {result : PropertyReadResult}
      (hvalue : result.value = propertyAt ref key look)
      (hstatus : result.status = .captured ↔ (propertyAt ref key look).isSome)
      (hrevision : result.collectionRevision = revisionAt look ref) :
      TookEffect format look (.get service ref key context) (.read result) []
  | listed {service : DynamicPropertyService} {target : DynamicPropertyTarget}
      {context : AccessContext} {result : ListCollectionsResult}
      (hnames : ∀ name, name ∈ result.collections ↔ (look ⟨target, name⟩).isSome ∧
        (DynamicPropertyAccessPolicy.canListRawCollections context = true ∨
          (service.accessPolicy.pluginPrefix context.pluginId).isPrefixOf name = true)) :
      TookEffect format look (.listCollections service target context) (.listed result) []
  | exported {service : DynamicPropertyService} {ref : CollectionRef} {context : AccessContext}
      {result : ExportResult}
      (hdocument : result.document = encodeCollectionJson format ref
        ((look ref).getD ∅) (revisionAt look ref))
      (hrevision : result.revision = revisionAt look ref) :
      TookEffect format look (.exportCollection service ref context) (.exported result) []
  | flushed {service : DynamicPropertyService} {target : DynamicPropertyTarget}
      {result : OperationResult} :
      TookEffect format look (.flush service target) (.operation result) []
  | applied {service : DynamicPropertyService} {operation : DynamicPropertyOperation}
      {context : AccessContext} {force : Bool} {result : OperationResult}
      (hbefore : result.before = participantSnapshots look operation)
      (hafter : result.after = participantSnapshots (replay look [operation]) operation) :
      TookEffect format look (.apply service operation context force) (.operation result)
        [operation]
  | imported {service : DynamicPropertyService} {destination : CollectionRef}
      {document : ByteString} {context : AccessContext} {policy : ImportPolicy}
      {expectedRevision : ExpectedRevision} {properties : DynamicPropertyMap}
      {result : OperationResult} (hdecode : decodeCollectionJson format document = .ok properties)
      (hbefore : result.before = participantSnapshots look
        (importing destination properties policy expectedRevision))
      (hafter : result.after = participantSnapshots
        (replay look [importing destination properties policy expectedRevision])
        (importing destination properties policy expectedRevision)) :
      TookEffect format look
        (.importCollection service destination document context policy expectedRevision)
        (.operation result) [importing destination properties policy expectedRevision]
  | transacted {service : DynamicPropertyService} {transaction : DynamicPropertyTransaction}
      {context : AccessContext} {result : TransactionResult}
      (hresults : ShowInTurn look transaction.operations result.operationResults) :
      TookEffect format look (.transact service transaction context) (.transaction result)
        transaction.operations

/-! ## Each call takes effect in one of its steps -/

/-- One of the steps is the instant, and no other committed anything. -/
def EffectIn (format : NumberFormat) (call : ServiceCall) (result : CallResult)
    (steps : List ServiceStep) : Prop :=
  ∃ first step second, steps = first ++ step :: second ∧
    TookEffect format (contents step.before.adapter.store) call result (committed step) ∧
    (∀ other ∈ first, committed other = []) ∧ ∀ other ∈ second, committed other = []

/-- A call took effect once if it succeeded, and otherwise not. -/
def Effects (format : NumberFormat) (call : ServiceCall) (steps : List ServiceStep)
    (result : CallResult) : Prop :=
  (Succeeded result → EffectIn format call result steps) ∧
    (¬ Succeeded result → ∀ step ∈ steps, committed step = [])

theorem effects_failed {format : NumberFormat} {call : ServiceCall} {steps : List ServiceStep}
    {result : CallResult} (hresult : ¬ Succeeded result)
    (hsteps : ∀ step ∈ steps, committed step = []) : Effects format call steps result :=
  ⟨fun h => absurd h hresult, fun _ => hsteps⟩

theorem effects_none {format : NumberFormat} {call : ServiceCall} {result : CallResult}
    (hresult : ¬ Succeeded result) : Effects format call [] result :=
  effects_failed hresult fun _ h => nomatch h

theorem effects_one {format : NumberFormat} {call : ServiceCall} {step : ServiceStep}
    {result : CallResult} (hquiet : committed step = [])
    (htook : Succeeded result →
      TookEffect format (contents step.before.adapter.store) call result []) :
    Effects format call [step] result := by
  refine ⟨fun h => ⟨[], step, [], rfl, hquiet ▸ htook h, ?_, ?_⟩, fun _ other hother => ?_⟩
  · exact fun _ h => nomatch h
  · exact fun _ h => nomatch h
  · rw [List.mem_singleton.mp hother]
    exact hquiet

theorem committed_around {first second : List ServiceStep} {step : ServiceStep}
    (hfirst : ∀ other ∈ first, committed other = []) (hstep : committed step = [])
    (hsecond : ∀ other ∈ second, committed other = []) :
    ∀ other ∈ first ++ step :: second, committed other = [] := by
  intro other hother
  rcases List.mem_append.mp hother with hin | hrest
  · exact hfirst other hin
  rcases List.mem_cons.mp hrest with rfl | hin
  · exact hstep
  · exact hsecond other hin

section Reads

variable {format : NumberFormat} (service : DynamicPropertyService) (ref : CollectionRef)
  (context : AccessContext)

/-- A refused capture answers neither `captured` nor `notFound`. -/
theorem captureError_unread {error : OperationResult}
    (h : service.captureError ref context = some error) :
    error.status ≠ .captured ∧ error.status ≠ .notFound := by
  unfold DynamicPropertyService.captureError DynamicPropertyService.checkReference
    DynamicPropertyService.validateCapability DynamicPropertyService.requireCapability at h
  dsimp only at h
  split at h
  next refused hrefused =>
    split at hrefused
    · cases hrefused
      cases h
      simp [failure]
    · split at hrefused
      · cases hrefused
        cases h
        simp [failure]
      · cases hrefused
  next =>
    split at h
    · cases h
      simp [failure]
    split at h
    · cases h
      simp [failure]
    · change (if _ then none else _) = some error at h
      split at h
      · cases h
      · cases h
        simp [failure]

/-- A complete capture read the store in its only step, or failed. -/
theorem capture_effect :
    Ensures Acts (service.capture ref context) fun steps captured =>
      (captured.ok = true ∧ ∃ world, steps =
          [⟨world, .capture ref, world.adapter.capture ref, world⟩] ∧
        captured.snapshot = some (snapshotAt (contents world.adapter.store) ref)) ∨
      (captured.ok = false ∧ captured.status ≠ .notFound ∧
        ∀ step ∈ steps, committed step = []) := by
  unfold DynamicPropertyService.capture
  split
  · rename_i error herror
    obtain ⟨hcaptured, hfound⟩ := captureError_unread service ref context herror
    refine ensures_done (Or.inr ⟨?_, hfound, fun _ h => nomatch h⟩)
    simpa [CaptureResult.ok] using hcaptured
  · refine ensures_call fun before captured after hact => ensures_done ?_
    have heq : (captured, after) = (before.adapter.capture ref, before) := hact
    cases heq
    rcases capture_cases before.adapter ref with ⟨hok, hsome⟩ | ⟨hfailed, hstatus⟩
    · obtain ⟨snapshot, hsnapshot⟩ := Option.isSome_iff_exists.mp hsome
      refine Or.inl ⟨hok, before, rfl, ?_⟩
      rw [hsnapshot, capture_snapshot hsnapshot]
    · refine Or.inr ⟨hfailed, by rw [hstatus]; decide, fun step hstep => ?_⟩
      rw [List.mem_singleton.mp hstep]
      rfl

theorem get_effects (key : ByteString) :
    Ensures Acts (ServiceCall.program format (.get service ref key context)) fun steps result =>
      Effects format (.get service ref key context) steps result := by
  refine ensures_bind (Q := fun steps result =>
    Effects format (.get service ref key context) steps (.read result)) ?_
    fun first result h => ensures_done (by rwa [List.append_nil])
  unfold DynamicPropertyService.get
  dsimp only
  split
  · exact ensures_done (effects_none (by simp [Succeeded]))
  refine ensures_bind (capture_effect service ref context) fun first captured hcaptured => ?_
  rcases hcaptured with ⟨hok, world, rfl, hsnapshot⟩ | ⟨hfailed, hstatus, hquiet⟩
  · rw [hok, hsnapshot]
    dsimp only
    rw [snapshotAt_property]
    cases hproperty : propertyAt ref key (contents world.adapter.store) with
    | none =>
        exact ensures_done (effects_one rfl fun _ => .read hproperty.symm (by simp [hproperty]) rfl)
    | some value =>
        exact ensures_done (effects_one rfl fun _ => .read hproperty.symm (by simp [hproperty]) rfl)
  · rw [hfailed]
    refine ensures_done (effects_failed ?_ (by simpa using hquiet))
    rintro (hcaptured | hfound)
    · exact absurd hcaptured (by simpa [CaptureResult.ok] using hfailed)
    · exact hstatus hfound

theorem exportCollection_effects :
    Ensures Acts (ServiceCall.program format (.exportCollection service ref context))
      fun steps result => Effects format (.exportCollection service ref context) steps result := by
  refine ensures_bind (Q := fun steps result =>
    Effects format (.exportCollection service ref context) steps (.exported result)) ?_
    fun first result h => ensures_done (by rwa [List.append_nil])
  unfold DynamicPropertyService.exportCollection
  split
  · exact ensures_done (effects_none (fun h => by cases h))
  refine ensures_bind (capture_effect service ref context) fun first captured hcaptured => ?_
  rcases hcaptured with ⟨hok, world, rfl, hsnapshot⟩ | ⟨hfailed, hstatus, hquiet⟩
  · rw [hok, hsnapshot]
    exact ensures_done (effects_one rfl fun _ => .exported rfl rfl)
  · rw [hfailed]
    refine ensures_done (effects_failed (fun hcaptured => ?_) (by simpa using hquiet))
    exact absurd (show captured.status = .captured from hcaptured)
      (by simpa [CaptureResult.ok] using hfailed)

theorem capture_effects :
    Ensures Acts (ServiceCall.program format (.capture service ref context)) fun steps result =>
      Effects format (.capture service ref context) steps result := by
  refine ensures_bind (capture_effect service ref context) fun first captured hcaptured => ?_
  refine ensures_done ?_
  rw [List.append_nil]
  rcases hcaptured with ⟨hok, world, rfl, hsnapshot⟩ | ⟨hfailed, hstatus, hquiet⟩
  · exact effects_one rfl fun _ => .captured hsnapshot
  · refine effects_failed (fun hok => ?_) hquiet
    cases hfailed.symm.trans hok

/-- The listed names are those of the collections the target has. -/
theorem mem_listCollections {adapter : InMemoryAdapter} {target : DynamicPropertyTarget}
    (hok : (adapter.listCollections target).ok = true) (name : ByteString) :
    name ∈ (adapter.listCollections target).collections ↔
      (contents adapter.store ⟨target, name⟩).isSome := by
  unfold InMemoryAdapter.listCollections at hok ⊢
  split at hok
  · simp [ListCollectionsResult.ok] at hok
  · rename_i havailable
    rw [if_neg havailable]
    simp only [List.mem_filterMap, Option.ite_none_right_eq_some, Option.some.injEq, Prod.exists,
      ExtTreeMap.mem_toList_iff_getElem?_eq_some, contents, Option.isSome_iff_exists]
    constructor
    · rintro ⟨found, properties, hstored, rfl, rfl⟩
      exact ⟨properties, hstored⟩
    · rintro ⟨properties, hstored⟩
      exact ⟨⟨target, name⟩, properties, hstored, rfl, rfl⟩

theorem listCollections_effects (target : DynamicPropertyTarget) :
    Ensures Acts (ServiceCall.program format (.listCollections service target context))
      fun steps result => Effects format (.listCollections service target context) steps
        result := by
  refine ensures_bind (Q := fun steps result =>
    Effects format (.listCollections service target context) steps (.listed result)) ?_
    fun first result h => ensures_done (by rwa [List.append_nil])
  unfold DynamicPropertyService.listCollections
  split
  · rename_i error herror
    refine ensures_done (effects_none ?_)
    have hstatus : error.status ≠ .captured := by
      unfold DynamicPropertyService.validateCapability
        DynamicPropertyService.requireCapability at herror
      split at herror
      · cases herror
        simp [failure]
      · split at herror
        · cases herror
          simp [failure]
        · change (if _ then none else _) = some error at herror
          split at herror
          · cases herror
          · cases herror
            simp [failure]
    simpa [Succeeded, ListCollectionsResult.ok] using hstatus
  refine ensures_call_bind fun before result after hact => ?_
  have heq : (result, after) = (before.adapter.listCollections target, before) := hact
  cases heq
  split
  · rename_i hdone
    refine ensures_done (effects_one rfl fun hok => .listed fun name => ?_)
    have hraw : DynamicPropertyAccessPolicy.canListRawCollections context = true := by
      have hok' : (before.adapter.listCollections target).ok = true := hok
      simpa [hok'] using hdone
    rw [mem_listCollections hok, hraw]
    simp
  · rename_i hdone
    simp only [Bool.or_eq_true, Bool.not_eq_true', not_or, Bool.not_eq_false,
      Bool.not_eq_true] at hdone
    dsimp only
    split
    · refine ensures_done (effects_one rfl fun hok => ?_)
      simp [Succeeded, ListCollectionsResult.ok] at hok
    · refine ensures_done (effects_one rfl fun hok => .listed fun name => ?_)
      rw [List.mem_filter, mem_listCollections hdone.1, hdone.2]
      simp

theorem flush_effects (target : DynamicPropertyTarget) :
    Ensures Acts (ServiceCall.program format (.flush service target)) fun steps result =>
      Effects format (.flush service target) steps result := by
  refine ensures_bind (Q := fun steps result =>
    Effects format (.flush service target) steps (.operation result)) ?_
    fun first result h => ensures_done (by rwa [List.append_nil])
  unfold DynamicPropertyService.flush
  split
  · rename_i error herror
    have hreports := reports_orElse (reports_validateCapability service target)
      (reports_requireCapability service.capabilities.persistenceFlush
        "adapter does not support persistence flush") error herror
    refine ensures_done (effects_none fun hok => hreports.1 ?_)
    exact OperationResult.ok_iff.mp hok
  · exact ensures_call fun before result after _ => ensures_done (effects_one rfl fun _ => .flushed)

end Reads

section Writes

variable {format : NumberFormat} (service : DynamicPropertyService) (context : AccessContext)

/-- What a complete `apply` committed: nothing, or its operation in one of its steps. -/
theorem apply_effect (operation : DynamicPropertyOperation) (force : Bool) :
    Ensures Acts (service.apply operation context force) fun steps result =>
      (result.ok = true ∧ ∃ first step second, steps = first ++ step :: second ∧
          committed step = [operation] ∧
          result.before = participantSnapshots (contents step.before.adapter.store) operation ∧
          result.after = participantSnapshots
            (replay (contents step.before.adapter.store) [operation]) operation ∧
          (∀ other ∈ first, committed other = []) ∧ ∀ other ∈ second, committed other = []) ∨
        (result.ok = false ∧ ∀ step ∈ steps, committed step = []) := by
  refine ensures_mono (apply_trace service operation context force) fun steps result htrace => ?_
  have hnot (h : result.status ≠ .applied) : result.ok = false := by
    simpa [OperationResult.ok] using h
  rcases htrace.commits with ⟨hquiet, hstatus⟩ |
    ⟨earlier, world, outcome, world', later, rfl, hearlier, hlater, hact, hresult⟩
  · exact Or.inr ⟨hnot hstatus, hquiet.committed⟩
  have hothers (h : committed ⟨world, .commitApply service operation context force, outcome,
      world'⟩ = []) := committed_around hearlier.committed h hlater.committed
  rcases acts_commitApply hact with ⟨error, rfl, herror, -⟩ | ⟨rfl, -⟩
  · have hsame : error = result := by
      rcases hresult with h | h
      · exact Except.error.inj h
      · cases h
    exact Or.inr ⟨hnot (hsame ▸ herror.1), hothers rfl⟩
  · have hsame : (world.adapter.apply operation force).1 = result := by
      rcases hresult with h | h
      · cases h
      · exact Except.ok.inj h
    subst hsame
    by_cases hok : (world.adapter.apply operation force).1.ok = true
    · have haccepted := applyUnlocked_of_accepts (applyUnlocked_ok_iff.mp hok)
      refine Or.inl ⟨hok, earlier, _, later, rfl, if_pos hok, ?_, ?_, hearlier.committed,
        hlater.committed⟩
      · rw [InMemoryAdapter.apply_result, haccepted]
      · rw [InMemoryAdapter.apply_result, haccepted]
        change participantSnapshots _ operation = _
        rw [contents_mutate_eq_run]
        rfl
    · exact Or.inr ⟨by simpa using hok, hothers (if_neg hok)⟩

theorem apply_effects (operation : DynamicPropertyOperation) (force : Bool) :
    Ensures Acts (ServiceCall.program format (.apply service operation context force))
      fun steps result => Effects format (.apply service operation context force) steps
        result := by
  refine ensures_bind (apply_effect service context operation force) fun first result h => ?_
  refine ensures_done ?_
  rw [List.append_nil]
  rcases h with ⟨hok, earlier, step, later, rfl, hcommitted, hbefore, hafter, hquiet⟩ |
    ⟨hfailed, hquiet⟩
  · refine ⟨fun _ => ⟨earlier, step, later, rfl, ?_, hquiet⟩, fun hnot => absurd hok hnot⟩
    rw [hcommitted]
    exact .applied hbefore hafter
  · refine effects_failed (fun hok => ?_) hquiet
    cases hfailed.symm.trans hok

theorem importCollection_effects (destination : CollectionRef) (document : ByteString)
    (policy : ImportPolicy) (expectedRevision : ExpectedRevision) :
    Ensures Acts (ServiceCall.program format
        (.importCollection service destination document context policy expectedRevision))
      fun steps result => Effects format
        (.importCollection service destination document context policy expectedRevision) steps
        result := by
  refine ensures_bind (Q := fun steps result => Effects format
    (.importCollection service destination document context policy expectedRevision) steps
    (.operation result)) ?_ fun first result h => ensures_done (by rwa [List.append_nil])
  unfold DynamicPropertyService.importCollection
  split
  · exact ensures_done (effects_none (by simp [Succeeded, OperationResult.ok, failure]))
  split
  · exact ensures_done (effects_none (by simp [Succeeded, OperationResult.ok, failure]))
  · rename_i properties hdecode
    refine ensures_mono (apply_effect service context
      (importing destination properties policy expectedRevision) false) fun steps result h => ?_
    rcases h with ⟨hok, earlier, step, later, rfl, hcommitted, hbefore, hafter, hquiet⟩ |
      ⟨hfailed, hquiet⟩
    · refine ⟨fun _ => ⟨earlier, step, later, rfl, ?_, hquiet⟩, fun hnot => absurd hok hnot⟩
      rw [hcommitted]
      exact .imported hdecode hbefore hafter
    · refine effects_failed (fun hok => ?_) hquiet
      cases hfailed.symm.trans hok

/-- The sequential application shows its operations in turn. -/
theorem showInTurn_applyEach (force : Bool) (operations : List DynamicPropertyOperation) :
    ∀ {adapter : InMemoryAdapter}, adapter.AppliesAll operations force →
      ShowInTurn (contents adapter.store) operations (adapter.applyEach operations force).1 := by
  induction operations with
  | nil => exact fun _ => rfl
  | cons operation rest ih =>
      intro adapter hall
      obtain ⟨hok, hrest⟩ := InMemoryAdapter.appliesAll_iff.mp hall
      have haccepted := applyUnlocked_of_accepts (applyUnlocked_ok_iff.mp hok)
      have hnext := ih (InMemoryAdapter.appliesAll_iff.mpr hrest)
      rw [InMemoryAdapter.apply_store, contents_applyUnlocked_of_ok hok] at hnext
      rw [InMemoryAdapter.applyEach_cons_of_ok hok rest]
      refine ⟨?_, ?_, hnext⟩
      · rw [InMemoryAdapter.apply_result, haccepted]
      · rw [InMemoryAdapter.apply_result, haccepted]
        change participantSnapshots _ operation = _
        rw [contents_mutate_eq_run]
        rfl

/-- An empty transaction has no results. -/
theorem transact_empty {transaction : DynamicPropertyTransaction}
    (hempty : transaction.operations = []) :
    Ensures Acts (service.transact transaction context) fun _ result =>
      result.operationResults = [] := by
  refine ensures_call_bind fun world transactionId world' _ => ?_
  rw [hempty]
  exact ensures_done rfl

theorem transact_effects (transaction : DynamicPropertyTransaction) :
    Ensures Acts (ServiceCall.program format (.transact service transaction context))
      fun steps result => Effects format (.transact service transaction context) steps
        result := by
  refine ensures_bind (Q := fun steps result => Effects format
    (.transact service transaction context) steps (.transaction result)) ?_
    fun first result h => ensures_done (by rwa [List.append_nil])
  intro steps result hexec
  cases transact_trace service transaction context steps result hexec with
  | empty hid hempty hstatus =>
      have hresults := transact_empty service context hempty _ _ hexec
      refine effects_one rfl fun _ => ?_
      have htook (look : Contents) : TookEffect format look (.transact service transaction context)
          (.transaction result) transaction.operations :=
        .transacted (by rw [hempty]; exact hresults)
      rw [hempty] at htook
      exact htook _
  | rejected hid hchecks hstatus =>
      refine effects_failed hstatus.1 fun step hstep => ?_
      rcases List.mem_cons.mp hstep with rfl | hcheck
      · rfl
      · exact hchecks.quiet.committed step hcheck
  | @announced world world' transactionId checks announcement answer final failures result hid
      hchecks hannouncement hanswer =>
      have hbefore : QuietSteps (⟨world, .makeTransactionId, transactionId, world'⟩ ::
          (checks ++ announcement)) :=
        quietSteps_cons (by trivial) hid (quietSteps_append hchecks.quiet hannouncement.quiet)
      rw [← List.append_assoc, ← List.cons_append]
      cases hanswer with
      | cancelled hcancels hstatus hresult hrecords =>
          exact effects_failed (fun h => absurd (hstatus.symm.trans h) (by decide))
            (quietSteps_append hbefore hrecords.quiet).committed
      | refused hgoes hact hout hstatus hrecords =>
          rcases acts_commitTransact hact with ⟨error, hout', herror, -⟩ | ⟨-, hout', -⟩
          · cases Except.error.inj (hout.symm.trans hout')
            refine effects_failed (fun h => herror.1 (hstatus.symm.trans h)) ?_
            refine committed_around hbefore.committed ?_ hrecords.quiet.committed
            simp only [committed, hout]
          · cases hout.symm.trans hout'
      | @committed found _ commit answered _ _ _ _ hgoes hact hout hpublication hrecords =>
          have hlater := (quietSteps_append hpublication.quiet hrecords.quiet).committed
          rcases acts_commitTransact hact with ⟨error, hout', -, -⟩ | ⟨-, hout', -⟩
          · cases hout.symm.trans hout'
          have hanswer := Except.ok.inj (hout.symm.trans hout')
          by_cases hall : found.adapter.AppliesAll transaction.operations transaction.force
          · obtain ⟨hstatus, -, hresults, -⟩ := InMemoryAdapter.transact_of_appliesAll hall
            rw [← hanswer] at hstatus hresults
            refine ⟨fun _ => ⟨_, _, _, rfl, ?_, hbefore.committed, hlater⟩,
              fun h => absurd hstatus h⟩
            simp only [committed, hout, if_pos hstatus]
            refine .transacted ?_
            change ShowInTurn _ _ answered.operationResults
            rw [hresults]
            exact showInTurn_applyEach _ _ hall
          · obtain ⟨hstatus, -, -, -⟩ := InMemoryAdapter.transact_of_not_appliesAll hall
            rw [← hanswer] at hstatus
            refine effects_failed (fun h => absurd (hstatus.symm.trans h) (by decide)) ?_
            refine committed_around hbefore.committed ?_ hlater
            simp only [committed, hout, hstatus]
            rfl

/-- The calls around foreign mutations commit nothing themselves. -/
theorem gate_effects (operation : DynamicPropertyOperation) (cancellable : Bool) :
    Ensures Acts (ServiceCall.program format
        (.beforeExternalMutation service operation context cancellable)) fun steps result =>
      Effects format (.beforeExternalMutation service operation context cancellable) steps
        result := by
  refine ensures_bind (Q := fun steps _ => ∀ step ∈ steps, Quiet step.request)
    (ensures_issues (issues_beforeExternalMutation service (fun _ h => h.quiet) operation context
      cancellable)) fun first result h => ensures_done ?_
  rw [List.append_nil]
  exact effects_failed id fun step hstep => committed_quiet (h step hstep)

theorem afterExternalMutation_effects (operation : DynamicPropertyOperation)
    (result : OperationResult) (transactionId : ByteString) :
    Ensures Acts (ServiceCall.program format
        (.afterExternalMutation service operation result context transactionId))
      fun steps answer => Effects format
        (.afterExternalMutation service operation result context transactionId) steps answer := by
  refine ensures_bind (Q := fun steps _ => ∀ step ∈ steps, Quiet step.request)
    (ensures_issues (issues_afterExternalMutation service (fun _ h => h) operation result context
      transactionId)) fun first _ h => ensures_done ?_
  rw [List.append_nil]
  exact effects_failed id fun step hstep => committed_quiet (h step hstep)

end Writes

/-- **Every complete call takes effect once, or not at all.** -/
theorem call_effects (format : NumberFormat) (call : ServiceCall) :
    Ensures Acts (call.program format) fun steps result => Effects format call steps result := by
  cases call with
  | capture service ref context => exact capture_effects service ref context
  | get service ref key context => exact get_effects service ref context key
  | listCollections service target context => exact listCollections_effects service context target
  | apply service operation context force => exact apply_effects service context operation force
  | transact service transaction context => exact transact_effects service context transaction
  | flush service target => exact flush_effects service target
  | exportCollection service ref context => exact exportCollection_effects service ref context
  | importCollection service destination document context policy expectedRevision =>
      exact importCollection_effects service context destination document policy expectedRevision
  | beforeExternalMutation service operation context cancellable =>
      exact gate_effects service context operation cancellable
  | afterExternalMutation service operation result context transactionId =>
      exact afterExternalMutation_effects service context operation result transactionId

/-! ## Histories -/

section Histories

variable {format : NumberFormat} {init : World}
  {events : List (Event serviceInterface World)}
  {state : State serviceInterface World ServiceCall CallResult}

theorem contents_chronicle (h : Chronicle (serviceSystem format) init events state) :
    contents state.world.adapter.store =
      replay (contents init.adapter.store) (log committed events) :=
  h.replay (fun world => contents world.adapter.store) contents_step contents_interferes

/-- **Runs are linearizable.** -/
theorem runs_linearize (h : Chronicle (serviceSystem format) init events state) :
    contents state.world.adapter.store =
        replay (contents init.adapter.store) (log committed events) ∧
      ∀ i c result, state.calls[i]? = some c → c.Returned result →
        (Succeeded result → ∃ before step after, events = before ++ .stepped i step :: after ∧
          .started i ∈ before ∧ c.steps.flatMap committed = committed step ∧
          TookEffect format (replay (contents init.adapter.store) (log committed before)) c.job
            result (committed step)) ∧
        (¬ Succeeded result → c.steps.flatMap committed = []) := by
  refine ⟨contents_chronicle h, fun i c result hc hreturned => ?_⟩
  have hexec := h.run.executes c (List.mem_of_getElem? hc)
  rw [show c.rest = .done result from hreturned] at hexec
  obtain ⟨htook, hfailed⟩ := call_effects format c.job _ _ hexec
  refine ⟨fun hsucceeded => ?_, fun hnot => List.flatMap_eq_nil_iff.mpr (hfailed hnot)⟩
  obtain ⟨first, step, second, hsteps, heffect, hfirst, hsecond⟩ := htook hsucceeded
  obtain ⟨before, after, hevents, hstarted, hworld⟩ :=
    h.step_at (fun world => contents world.adapter.store) contents_step contents_interferes hc
      hsteps
  refine ⟨before, step, after, hevents, hstarted, ?_, ?_⟩
  · rw [hsteps, List.flatMap_append, List.flatMap_cons, List.flatMap_eq_nil_iff.mpr hfirst,
      List.flatMap_eq_nil_iff.mpr hsecond, List.nil_append, List.append_nil]
  · rw [show replay _ _ = contents step.before.adapter.store from hworld.symm]
    exact heffect

/-- The theorem at a write that is run alone from the empty world. -/
theorem runs_linearize_writeTitle :
    ∃ events, replay (contents ∅) (log committed events) =
      contents (run respond (writeTitle.program silentFormat) ({} : World)).2.adapter.store := by
  have hrun : Run (serviceSystem silentFormat) ({} : World) _ :=
    Run.alone acts_respond .nil writeTitle
  obtain ⟨events, h⟩ := exists_chronicle hrun
  exact ⟨events, (runs_linearize h).1.symm⟩

/-! ## Who changes a collection -/

/-- The service's policy lets the caller of a committing call access a collection. -/
def ServiceCall.mayWrite : ServiceCall → CollectionRef → Bool
  | .apply service _ context _, ref => service.accessPolicy.canAccess context ref
  | .transact service _ context, ref => service.accessPolicy.canAccess context ref
  | .importCollection service _ _ context _ _, ref => service.accessPolicy.canAccess context ref
  | _, _ => false

theorem canAccess_of_commitError {service : DynamicPropertyService} {adapter : InMemoryAdapter}
    {operations : List DynamicPropertyOperation} {context : AccessContext}
    (h : service.commitError adapter operations context = none)
    {operation : DynamicPropertyOperation} (hoperation : operation ∈ operations)
    {ref : CollectionRef} (href : ref ∈ operationCollections operation) :
    service.accessPolicy.canAccess context ref = true := by
  have hvalid := List.findSome?_eq_none_iff.mp (orElse_eq_none.mp h).1 operation hoperation
  exact ((validateOperation_none hvalid).references ref href).2

theorem apply_authorized (service : DynamicPropertyService) (context : AccessContext)
    (operation : DynamicPropertyOperation) (force : Bool) :
    Ensures Acts (service.apply operation context force) fun steps _ =>
      ∀ step ∈ steps, ∀ done ∈ committed step, done = operation ∧
        ∀ ref ∈ operationCollections operation,
          service.accessPolicy.canAccess context ref = true := by
  refine ensures_mono (apply_trace service operation context force) fun steps result htrace => ?_
  intro step hstep done hdone
  rcases htrace.commits with ⟨hquiet, -⟩ |
    ⟨earlier, world, outcome, world', later, rfl, hearlier, hlater, hact, -⟩
  · rw [hquiet.committed step hstep] at hdone
    cases hdone
  rcases List.mem_append.mp hstep with hin | hrest
  · rw [hearlier.committed step hin] at hdone
    cases hdone
  rcases List.mem_cons.mp hrest with rfl | hin
  · have houtcome : outcome = (service.commitApply world.adapter operation context force).1 :=
      congrArg Prod.fst (show (outcome, world') = respond world _ from hact)
    unfold DynamicPropertyService.commitApply at houtcome
    cases herror : service.commitError world.adapter [operation] context with
    | some error =>
        rw [herror] at houtcome
        rw [houtcome] at hdone
        cases hdone
    | none =>
        rw [herror] at houtcome
        rw [houtcome, committed] at hdone
        split at hdone
        · refine ⟨List.mem_singleton.mp hdone, fun ref href => ?_⟩
          exact canAccess_of_commitError herror List.mem_cons_self href
        · cases hdone
  · rw [hlater.committed step hin] at hdone
    cases hdone

theorem transact_authorized (service : DynamicPropertyService) (context : AccessContext)
    (transaction : DynamicPropertyTransaction) :
    Ensures Acts (service.transact transaction context) fun steps _ =>
      ∀ step ∈ steps, ∀ done ∈ committed step, done ∈ transaction.operations ∧
        ∀ ref ∈ operationCollections done,
          service.accessPolicy.canAccess context ref = true := by
  refine ensures_mono (transact_trace service transaction context) fun steps result htrace => ?_
  intro step hstep done hdone
  rcases htrace.commits with hquiet |
    ⟨earlier, world, commit, world', later, rfl, hearlier, hlater, hact⟩
  · rw [hquiet.committed step hstep] at hdone
    cases hdone
  rcases List.mem_append.mp hstep with hin | hrest
  · rw [hearlier.committed step hin] at hdone
    cases hdone
  rcases List.mem_cons.mp hrest with rfl | hin
  · rcases acts_commitTransact hact with ⟨error, hout, -, -⟩ | ⟨herror, hout, -⟩
    · simp only [committed, hout] at hdone
      cases hdone
    · simp only [committed, hout] at hdone
      split at hdone
      · refine ⟨hdone, fun ref href => ?_⟩
        have haccess := canAccess_of_commitError herror hdone href
        unfold DynamicPropertyService.transactionContext at haccess
        split at haccess <;> exact haccess
      · cases hdone
  · rw [hlater.committed step hin] at hdone
    cases hdone

theorem committed_permitted {service : DynamicPropertyService}
    {operations : List DynamicPropertyOperation} {step : ServiceStep}
    (h : Permits service operations step.request) : ∀ done ∈ committed step, done ∈ operations := by
  obtain ⟨world, request, response, world'⟩ := step
  intro done hdone
  cases request with
  | commitApply committing operation context force =>
      cases response with
      | error error => cases hdone
      | ok result =>
          rw [committed] at hdone
          split at hdone
          · exact List.mem_singleton.mp hdone ▸ h.2
          · cases hdone
  | commitTransact committing transaction context collections =>
      simp only [committed] at hdone
      split at hdone
      · split at hdone
        · exact h.2 done hdone
        · cases hdone
      · cases hdone
  | _ => cases hdone

/-- **A call commits its own operations only, where its caller may write.** -/
theorem call_authorized (format : NumberFormat) (call : ServiceCall) :
    Ensures Acts (call.program format) fun steps _ =>
      ∀ step ∈ steps, ∀ done ∈ committed step, done ∈ call.operations format ∧
        ∀ ref ∈ operationCollections done, call.mayWrite ref = true := by
  have hown : Ensures Acts (call.program format) fun steps _ =>
      ∀ step ∈ steps, ∀ done ∈ committed step, done ∈ call.operations format :=
    ensures_mono (ensures_issues (issues_program format call)) fun steps _ h step hstep =>
      committed_permitted (h step hstep)
  have hnone : call.operations format = [] → Ensures Acts (call.program format) fun steps _ =>
      ∀ step ∈ steps, ∀ done ∈ committed step, ∀ ref ∈ operationCollections done,
        call.mayWrite ref = true := by
    intro hempty steps result hexec step hstep done hdone
    have hmem := hown steps result hexec step hstep done hdone
    rw [hempty] at hmem
    cases hmem
  have hrefs : Ensures Acts (call.program format) fun steps _ =>
      ∀ step ∈ steps, ∀ done ∈ committed step, ∀ ref ∈ operationCollections done,
        call.mayWrite ref = true := by
    cases call with
    | apply service operation context force =>
        refine ensures_wrap (ensures_mono (apply_authorized service context operation force)
          fun steps _ h step hstep done hdone ref href => ?_)
        obtain ⟨rfl, haccess⟩ := h step hstep done hdone
        exact haccess ref href
    | transact service transaction context =>
        exact ensures_wrap (ensures_mono (transact_authorized service context transaction)
          fun steps _ h step hstep done hdone => (h step hstep done hdone).2)
    | importCollection service destination document context policy expectedRevision =>
        refine ensures_wrap ?_
        unfold DynamicPropertyService.importCollection
        split
        · exact ensures_done fun _ h => nomatch h
        split
        · exact ensures_done fun _ h => nomatch h
        · refine ensures_mono (apply_authorized service context _ false)
            fun steps _ h step hstep done hdone ref href => ?_
          obtain ⟨rfl, haccess⟩ := h step hstep done hdone
          exact haccess ref href
    | _ => exact hnone rfl
  intro steps result hexec step hstep done hdone
  exact ⟨hown steps result hexec step hstep done hdone,
    hrefs steps result hexec step hstep done hdone⟩

/-- What differs after a stretch of history was named by a commit of that stretch. -/
theorem exists_committed {look : Contents} {stretch : List (Event serviceInterface World)}
    {ref : CollectionRef} (h : replay look (log committed stretch) ref ≠ look ref) :
    ∃ earlier i step later, stretch = earlier ++ .stepped i step :: later ∧
      ∃ operation ∈ committed step, ref ∈ operationCollections operation := by
  obtain ⟨first, operation, second, hlog, hdiffers⟩ :=
    exists_change (fun look : Contents => look ref) _ _ h
  have href : ref ∈ operationCollections operation := by
    by_contra hout
    exact hdiffers ((effect_footprint operation).run_frame _ hout)
  have hmem : operation ∈ log committed stretch := by
    rw [hlog]
    simp
  obtain ⟨earlier, i, step, later, hstretch, hstep⟩ := mem_log hmem
  exact ⟨earlier, i, step, later, hstretch, operation, hstep, href⟩

/-- **Changes are authorized.**  If a collection differs between two times of a run, then in
between a call committed one of its own operations, which names the collection, and the
call's caller may access it. -/
theorem changes_authorized {before middle after : List (Event serviceInterface World)}
    {ref : CollectionRef} (h : Chronicle (serviceSystem format) init events state)
    (hevents : events = before ++ middle ++ after)
    (hchanged : replay (contents init.adapter.store) (log committed (before ++ middle)) ref ≠
      replay (contents init.adapter.store) (log committed before) ref) :
    ∃ earlier i step later c, middle = earlier ++ .stepped i step :: later ∧
      state.calls[i]? = some c ∧ ∃ operation ∈ committed step,
        operation ∈ c.job.operations format ∧ ref ∈ operationCollections operation ∧
          c.job.mayWrite ref = true := by
  rw [log_append, replay_append] at hchanged
  obtain ⟨earlier, i, step, later, rfl, operation, hstep, href⟩ := exists_committed hchanged
  have hcalled : step ∈ stepsOf i events := by
    subst hevents
    simp [stepsOf, Event.stepOf]
  obtain ⟨c, hc⟩ : ∃ c, state.calls[i]? = some c := by
    cases hcall : state.calls[i]? with
    | some c => exact ⟨c, rfl⟩
    | none =>
        rw [h.stepsOf_fresh i (List.getElem?_eq_none_iff.mp hcall)] at hcalled
        cases hcalled
  rw [h.steps hc] at hcalled
  -- what is left of the call can be run to its end, so the facts about complete calls apply
  have hexec := (h.run.executes c (List.mem_of_getElem? hc)).completes acts_respond init
  have hown := call_authorized format c.job _ _ hexec step (List.mem_append_left _ hcalled)
    operation hstep
  exact ⟨earlier, i, step, later, c, rfl, hc, operation, hstep, hown.1, href, hown.2 ref href⟩

/-- The theorem at a write that is run alone from the empty world. -/
theorem changes_authorized_writeTitle :
    ∃ events : List (Event serviceInterface World), ∃ earlier i step later,
      events = earlier ++ .stepped i step :: later ∧
      ∃ operation ∈ committed step, ⟨{}, text "notes"⟩ ∈ operationCollections operation := by
  have hrun : Run (serviceSystem silentFormat) ({} : World) _ :=
    Run.alone acts_respond .nil writeTitle
  obtain ⟨events, h⟩ := exists_chronicle hrun
  have hchanged : replay (contents ({} : World).adapter.store) (log committed ([] ++ events))
      ⟨{}, text "notes"⟩ ≠ replay (contents ({} : World).adapter.store) (log committed [])
      ⟨{}, text "notes"⟩ := by
    rw [List.nil_append, ← contents_chronicle h]
    have hwritten : (contents (run respond (writeTitle.program silentFormat)
        ({} : World)).2.adapter.store ⟨{}, text "notes"⟩).isSome = true := by decide +kernel
    intro hsame
    change contents (run respond (writeTitle.program silentFormat) ({} : World)).2.adapter.store
      ⟨{}, text "notes"⟩ = contents ∅ ⟨{}, text "notes"⟩ at hsame
    rw [hsame, contents_empty] at hwritten
    cases hwritten
  obtain ⟨earlier, i, step, later, c, hevents, -, operation, hdone, -, href, -⟩ :=
    changes_authorized h (List.append_nil _).symm hchanged
  exact ⟨events, earlier, i, step, later, hevents, operation, hdone, href⟩

/-! ## Stale commits -/

/-- The adapter refused an operation because an expected revision was out of date. -/
def IsStale (result : OperationResult) : Prop :=
  result.status = .conflict ∧ result.message = text "collection revision changed"

instance (result : OperationResult) : Decidable (IsStale result) :=
  inferInstanceAs (Decidable (_ ∧ _))

/-- No operation refuses with that message on its own account. -/
theorem effect_message {operation : DynamicPropertyOperation} {look : Contents}
    {failed : MutationFailure} (h : effect operation look = .error failed) :
    failed.message ≠ text "collection revision changed" := by
  have harrival : ∀ {existing values policy failed},
      arrival existing values policy = .error failed →
      failed.message ≠ text "collection revision changed" := by
    intro existing values policy failed h
    unfold arrival at h
    split at h
    · cases h
      exact fun heq => absurd (text_injective heq) (by decide)
    · cases h
    · cases h
  have hcarry : ∀ {source destination policy removeSource},
      carry look source destination policy removeSource = .error failed →
        failed.message ≠ text "collection revision changed" := by
    intro source destination policy removeSource h
    unfold carry at h
    split at h
    · cases h
      exact fun heq => absurd (text_injective heq) (by decide)
    · split at h
      · rename_i harrive
        cases h
        exact harrival harrive
      · cases h
  cases operation with
  | setProperty entry => cases h
  | setMany entry => cases h
  | removeProperty entry =>
      simp only [effect] at h
      repeat' split at h
      all_goals cases h
      all_goals exact fun heq => absurd (text_injective heq) (by decide)
  | removeMany entry =>
      simp only [effect] at h
      repeat' split at h
      all_goals cases h
      all_goals exact fun heq => absurd (text_injective heq) (by decide)
  | clearCollection entry => cases h
  | renameCollection entry => exact hcarry h
  | transferProperty entry =>
      simp only [effect] at h
      split at h
      · cases h
        exact fun heq => absurd (text_injective heq) (by decide)
      · split at h
        · cases h
          exact fun heq => absurd (text_injective heq) (by decide)
        · cases h
  | transferCollection entry => exact hcarry h
  | importCollection entry =>
      simp only [effect] at h
      split at h
      · rename_i harrive
        cases h
        exact harrival harrive
      · cases h

theorem checkParticipants_stale {availability : Availability} {store : Store}
    {operation : DynamicPropertyOperation} {force : Bool} {refs : List CollectionRef} :
    ∀ {before : List CollectionSnapshot} {result : OperationResult},
      checkParticipants availability store operation force refs before = .error result →
      IsStale result → ∃ ref expected, expectedRevision operation ref = some expected ∧
        expected ≠ revisionAt (contents store) ref := by
  induction refs with
  | nil => exact fun h => nomatch h
  | cons ref rest ih =>
      intro before result h hstale
      rw [checkParticipants] at h
      cases havailable : targetAvailable availability ref.target with
      | false =>
          rw [captureUnlocked_unavailable havailable] at h
          cases h
          cases hstale.1
      | true =>
          simp only [captureUnlocked_available havailable] at h
          split at h
          · rename_i hstop
            obtain ⟨-, expected, hexpected, hne⟩ := hstop
            exact ⟨ref, expected, hexpected, hne⟩
          · exact ih h hstale

/-- A stale refusal found another revision than the operation expected. -/
theorem applyUnlocked_stale {availability : Availability} {store : Store}
    {operation : DynamicPropertyOperation} {force : Bool}
    (hstale : IsStale (applyUnlocked availability store operation force).1) :
    ∃ ref expected, expectedRevision operation ref = some expected ∧
      expected ≠ revisionAt (contents store) ref := by
  unfold applyUnlocked at hstale
  split at hstale
  · cases hstale.1
  split at hstale
  · rename_i result hrefused
    exact checkParticipants_stale hrefused hstale
  · split at hstale
    · rename_i before _ store' failed hmutate
      have hspec := mutate_spec store operation
      rw [hmutate] at hspec
      cases hplan : effect operation (contents store) with
      | ok plan =>
          rw [hplan] at hspec
          cases hspec.1
      | error refusal =>
          rw [hplan] at hspec
          cases hspec
          exact absurd hstale.2 (effect_message hplan)
    · cases hstale.1

/-- **A stale commit was overtaken.**  If a write that expects a revision captured before is
refused as stale, then between the capture and the refusal a commit applied an operation
that names the collection. -/
theorem stale_was_overtaken {before between after : List (Event serviceInterface World)}
    {i j : Nat} {found found' world world' : World} {ref : CollectionRef} {taken : CaptureResult}
    {snapshot : CollectionSnapshot} {service : DynamicPropertyService}
    {operation : DynamicPropertyOperation} {context : AccessContext} {result : OperationResult}
    (h : Chronicle (serviceSystem format) init events state)
    (hevents : events = before ++ .stepped i ⟨found, .capture ref, taken, found'⟩ ::
      (between ++ .stepped j ⟨world, .commitApply service operation context false, .ok result,
        world'⟩ :: after))
    (htaken : taken.snapshot = some snapshot)
    (hexpects : suppliedExpectations operation = [(ref, some snapshot.revision)])
    (hstale : IsStale result) :
    ∃ earlier k step later, between = earlier ++ .stepped k step :: later ∧
      ∃ overtaking ∈ committed step, ref ∈ operationCollections overtaking := by
  obtain ⟨_, hcapture, hfound, -, htook⟩ := h.at_event hevents
  have hsplit : events = (before ++ .stepped i ⟨found, .capture ref, taken, found'⟩ :: between) ++
      .stepped j ⟨world, .commitApply service operation context false, .ok result, world'⟩ ::
        after := by
    simp [hevents]
  obtain ⟨_, hcommit, hworld, -, hrefused⟩ := h.at_event hsplit
  have hfirst := contents_chronicle hcapture
  have hsecond := contents_chronicle hcommit
  rw [hfound] at hfirst
  rw [hworld, log_append, replay_append, ← hfirst] at hsecond
  -- the revision that was captured, and the one the commit found
  have hseen : snapshot.revision = revisionAt (contents found.adapter.store) ref := by
    have hanswer : taken = found.adapter.capture ref :=
      congrArg Prod.fst (show (taken, found') = respond found (.capture ref) from htook)
    rw [hanswer] at htaken
    rw [capture_snapshot htaken, revisionAt]
  have hfell : revisionAt (contents world.adapter.store) ref ≠ snapshot.revision := by
    rcases acts_commitApply hrefused with ⟨error, hout, -⟩ | ⟨hout, -⟩
    · cases hout
    · obtain rfl : result = (world.adapter.apply operation false).1 := Except.ok.inj hout
      obtain ⟨stale, expected, hexpected, hne⟩ := applyUnlocked_stale hstale
      have hsupplied := expectedRevision_supplied hexpected
      rw [hexpects, List.mem_singleton] at hsupplied
      cases hsupplied
      exact hne.symm
  have hlog : log committed (.stepped i ⟨found, .capture ref, taken, found'⟩ :: between) =
      log committed between := rfl
  rw [hlog] at hsecond
  have hchanged : contents world.adapter.store ref ≠ contents found.adapter.store ref := by
    intro hsame
    apply hfell
    rw [hseen, revisionAt, revisionAt, snapshotAt, snapshotAt, hsame]
  rw [hsecond] at hchanged
  exact exists_committed hchanged

/-- A capture of the collection that `writeTitle` writes. -/
def captureNotes : ServiceCall := .capture {} ⟨{}, text "notes"⟩ { rawAdmin := true }

/-- A write that expects the collection as it was when it did not exist. -/
def writeStale : ServiceCall :=
  .apply {}
    (.setProperty { ref := ⟨{}, text "notes"⟩, key := text "title", value := .bool false
                    expectedRevision := some (revisionAt (contents ∅) ⟨{}, text "notes"⟩) })
    { rawAdmin := true } false

/-- The step is the refusal of a stale write of `notes`. -/
def refusesStale : ServiceStep → Bool
  | ⟨_, .commitApply _ operation _ false, .ok result, _⟩ =>
      suppliedExpectations operation =
          [(⟨{}, text "notes"⟩, some (revisionAt (contents ∅) ⟨{}, text "notes"⟩))] ∧
        IsStale result
  | _ => false

theorem refusesStale_spec {step : ServiceStep} (h : refusesStale step = true) :
    ∃ world service operation context result world',
      step = ⟨world, .commitApply service operation context false, .ok result, world'⟩ ∧
        suppliedExpectations operation =
          [(⟨{}, text "notes"⟩, some (revisionAt (contents ∅) ⟨{}, text "notes"⟩))] ∧
        IsStale result := by
  unfold refusesStale at h
  split at h
  · exact ⟨_, _, _, _, _, _, rfl, of_decide_eq_true h⟩
  · cases h

/-- The theorem at a write of a captured revision that another write has overtaken. -/
theorem stale_was_overtaken_writeStale :
    ∃ between earlier : List (Event serviceInterface World), ∃ k step later,
      between = earlier ++ .stepped k step :: later ∧
        ∃ overtaking ∈ committed step, ⟨{}, text "notes"⟩ ∈ operationCollections overtaking := by
  have hfirst : Chronicle (serviceSystem silentFormat) ({} : World) _ _ :=
    Chronicle.alone acts_respond .nil captureNotes
  have hcaptured : Chronicle (serviceSystem silentFormat) ({} : World)
      [.started 0, .stepped 0 ⟨{}, .capture ⟨{}, text "notes"⟩,
        ({} : InMemoryAdapter).capture ⟨{}, text "notes"⟩, {}⟩] _ := hfirst
  have hwritten : Chronicle (serviceSystem silentFormat) ({} : World)
      (_ ++ [.started 1] ++
        (runSteps respond (writeTitle.program silentFormat) {}).map (.stepped 1)) _ :=
    hcaptured.alone acts_respond writeTitle
  have hrefused : Chronicle (serviceSystem silentFormat) ({} : World)
      (_ ++ [.started 2] ++ (runSteps respond (writeStale.program silentFormat)
        (run respond (writeTitle.program silentFormat) ({} : World)).2).map (.stepped 2)) _ :=
    hwritten.alone acts_respond writeStale
  have hsteps : (runSteps respond (writeStale.program silentFormat)
      (run respond (writeTitle.program silentFormat) ({} : World)).2).any refusesStale = true := by
    decide +kernel
  obtain ⟨step, hmem, hstep⟩ := List.any_eq_true.mp hsteps
  obtain ⟨world, service, operation, context, result, world', rfl, hexpects, hstale⟩ :=
    refusesStale_spec hstep
  obtain ⟨first, second, hsplit⟩ := List.append_of_mem hmem
  have hshape : ∀ (opened taken begun refused : Event serviceInterface World)
      (wrote : List (Event serviceInterface World)) (step : ServiceStep),
      [opened, taken] ++ [begun] ++ wrote ++ [refused] ++
          (first ++ step :: second).map (.stepped 2) =
        [opened] ++ taken :: ((begun :: wrote ++ refused :: first.map (.stepped 2)) ++
          .stepped 2 step :: second.map (.stepped 2)) := by
    intro opened taken begun refused wrote step
    simp
  rw [hsplit, hshape] at hrefused
  have hnone : (({} : InMemoryAdapter).capture ⟨{}, text "notes"⟩).snapshot =
      some (snapshotAt (contents ∅) ⟨{}, text "notes"⟩) :=
    captureUnlocked_available (by decide +kernel)
  obtain ⟨earlier, k, step, later, hbetween, overtaking, hdone, href⟩ :=
    stale_was_overtaken hrefused rfl hnone hexpects hstale
  exact ⟨_, earlier, k, step, later, hbetween, overtaking, hdone, href⟩

end Histories

end DynamicProperties.Cpp
