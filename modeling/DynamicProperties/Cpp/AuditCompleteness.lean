import DynamicProperties.Cpp.AuditTruth

/-!
# When every operation of a transaction is recorded

A transaction that announces itself records its operations under its identifier, in
order.  Where it is cancelled or refused there is one record for each operation.
Where it reaches the adapter there is one for each result the adapter gives, and the
adapter gives none after the first failure: the records are complete exactly when no
operation but the last fails there.
-/

namespace DynamicProperties.Cpp

open DynamicProperties.Library
open DynamicProperties.Library.Requests
open DynamicProperties.Library.Requests.Program

/-- The kind of the event a step publishes. -/
def publishedKind : ServiceStep → Option DynamicPropertyEventKind
  | ⟨_, .matchListeners _ event, _, _⟩ => some event.kind
  | _ => none

/-- Everything these steps left in a sink. -/
def recordsIn (sink : Nat) (steps : List ServiceStep) : List DynamicPropertyAuditRecord :=
  steps.filterMap (writtenTo sink)

/-- A record of an operation, with any result. -/
def IsRecordOf (context : AccessContext) (transactionId : ByteString)
    (operation : DynamicPropertyOperation) (entry : DynamicPropertyAuditRecord) : Prop :=
  ∃ result rolledBack,
    entry = auditRecord operation context result transactionId false rolledBack

/-- One record for each operation of the transaction, in order, under one
identifier. -/
def FullyRecorded (service : DynamicPropertyService) (transaction : DynamicPropertyTransaction)
    (context : AccessContext) (transactionId : ByteString) (steps : List ServiceStep) : Prop :=
  List.Forall₂ (IsRecordOf context transactionId) transaction.operations
    (recordsIn service.auditSink steps)

/-- A commit that passes its revalidation and of which some operation but the last
fails in the adapter. -/
def StopsShort : ServiceStep → Prop
  | ⟨world, .commitTransact service transaction context _, _, _⟩ =>
      service.commitError world.adapter transaction.operations context = none ∧
        ¬ world.adapter.AppliesAll transaction.operations.dropLast transaction.force
  | _ => False

/-! ## Records -/

section Records

variable {sink : Nat} {first second steps : List ServiceStep}

theorem recordsIn_append :
    recordsIn sink (first ++ second) = recordsIn sink first ++ recordsIn sink second :=
  List.filterMap_append

theorem Observing.recordsIn (h : Observing steps) : recordsIn sink steps = [] := by
  apply h.filterMap
  rintro ⟨world, request, response, world'⟩ hobserves
  cases request with
  | record offered entry => exact hobserves.elim
  | _ => rfl

/-- A sink that does not throw keeps what it is offered. -/
theorem Recorded.recordsIn {entries : List DynamicPropertyAuditRecord}
    (h : Recorded sink entries steps) (hkeeps : ∀ step ∈ steps, sinkThrows step = false) :
    recordsIn sink steps = entries := by
  induction h with
  | nil => rfl
  | @cons entry entries steps world world' threw hact _ ih =>
      have hkept : threw = false := hkeeps _ List.mem_cons_self
      have hwritten : writtenTo sink ⟨world, .record sink entry, threw, world'⟩ = some entry :=
        if_pos ⟨rfl, hkept⟩
      rw [Cpp.recordsIn, List.filterMap_cons, hwritten]
      exact congrArg (entry :: ·) (ih fun step hstep => hkeeps step (List.mem_cons_of_mem _ hstep))

/-- The records of a transaction are complete where there are enough results. -/
theorem transactionRecords_complete_iff (transaction : DynamicPropertyTransaction)
    (context : AccessContext) (transactionId : ByteString) (rolledBack : Bool)
    (results : List OperationResult) :
    List.Forall₂ (IsRecordOf context transactionId) transaction.operations
        (transactionRecords transaction context transactionId rolledBack results) ↔
      transaction.operations.length ≤ results.length := by
  constructor
  · intro h
    have hlength := h.length_eq
    rw [transactionRecords, List.length_map, List.length_zip] at hlength
    omega
  · unfold transactionRecords
    generalize transaction.operations = operations
    intro hlength
    induction operations generalizing results with
    | nil => exact .nil
    | cons operation rest ih =>
        cases results with
        | nil => simp at hlength
        | cons result results =>
            exact .cons ⟨result, rolledBack, rfl⟩ (ih results (by simpa using hlength))

/-- They are where every operation is given the same result. -/
theorem transactionRecords_replicate (transaction : DynamicPropertyTransaction)
    (context : AccessContext) (transactionId : ByteString) (rolledBack : Bool)
    (result : OperationResult) :
    List.Forall₂ (IsRecordOf context transactionId) transaction.operations
      (transactionRecords transaction context transactionId rolledBack
        (List.replicate transaction.operations.length result)) :=
  (transactionRecords_complete_iff transaction context transactionId rolledBack _).mpr
    (Nat.le_of_eq List.length_replicate.symm)

end Records

/-! ## How a commit ends -/

/-- The adapter answers with the results of the operations it tried. -/
theorem InMemoryAdapter.transact_results (adapter : InMemoryAdapter)
    (transaction : DynamicPropertyTransaction) :
    (adapter.transact transaction).1.operationResults =
      (adapter.applyEach transaction.operations transaction.force).1 := by
  by_cases h : adapter.AppliesAll transaction.operations transaction.force
  · exact (transact_of_appliesAll h).2.2.1
  · exact (transact_of_not_appliesAll h).2.2.1

/-- It tries them all exactly when none but the last fails. -/
theorem InMemoryAdapter.transact_tries_all_iff (adapter : InMemoryAdapter)
    (transaction : DynamicPropertyTransaction) :
    transaction.operations.length ≤ (adapter.transact transaction).1.operationResults.length ↔
      adapter.AppliesAll transaction.operations.dropLast transaction.force := by
  rw [transact_results, appliesAll_iff, ← Sequence.length_eq_iff]
  have hle : (adapter.applyEach transaction.operations transaction.force).1.length ≤
      transaction.operations.length := Sequence.length_le _ _
  exact ⟨fun h => Nat.le_antisymm hle h, fun h => Nat.le_of_eq h.symm⟩

section Transact

variable (service : DynamicPropertyService) (transaction : DynamicPropertyTransaction)
  (context : AccessContext)

/-- A transaction returns the identifier it draws first. -/
theorem transact_identifier :
    Ensures Acts (service.transact transaction context) fun steps result =>
      ∃ world world' rest,
        steps = ⟨world, .makeTransactionId, result.transactionId, world'⟩ :: rest := by
  have hany : ∀ {α : Type} {p : ServiceProgram α}, Ensures Acts p fun _ _ => True :=
    fun _ _ _ => trivial
  refine ensures_call_bind fun world transactionId world' hid => ?_
  have hreturns : ∀ {p : ServiceProgram TransactionResult},
      Ensures Acts p (fun _ result => result.transactionId = transactionId) →
        Ensures Acts p fun steps result => ∃ before after rest,
          (⟨world, .makeTransactionId, transactionId, world'⟩ : ServiceStep) :: steps =
            ⟨before, .makeTransactionId, result.transactionId, after⟩ :: rest :=
    fun hp => ensures_mono hp fun steps result hsame => ⟨world, world', steps, by rw [hsame]⟩
  refine hreturns ?_
  split
  · exact ensures_done rfl
  split
  · exact ensures_done rfl
  refine ensures_bind hany fun _ outcome _ => ?_
  cases outcome with
  | some error => exact ensures_done rfl
  | none =>
      refine ensures_bind hany fun _ snapshots _ => ?_
      refine ensures_bind hany fun _ out _ => ?_
      dsimp only
      split
      · exact ensures_bind hany fun _ _ _ => ensures_done rfl
      refine ensures_bind hany fun _ commit _ => ?_
      cases commit.outcome with
      | error error => exact ensures_bind hany fun _ _ _ => ensures_done rfl
      | ok result =>
          refine ensures_bind hany fun _ _ _ => ?_
          exact ensures_bind hany fun _ _ _ => ensures_done rfl

variable {service transaction context}

theorem not_stopsShort_of_quiet {step : ServiceStep} (h : Quiet step.request) :
    ¬ StopsShort step := by
  obtain ⟨world, request, response, world'⟩ := step
  cases request with
  | commitTransact service transaction context collections => exact h.elim
  | _ => exact id

/-- Among quiet steps, a commit is the only one that may stop short. -/
theorem forall_not_stopsShort_iff {earlier later : List ServiceStep} {commit : ServiceStep}
    (hearlier : QuietSteps earlier) (hlater : QuietSteps later) :
    (∀ step ∈ earlier ++ commit :: later, ¬ StopsShort step) ↔ ¬ StopsShort commit := by
  constructor
  · exact fun h => h commit (List.mem_append_right _ List.mem_cons_self)
  · intro h step hstep
    rcases List.mem_append.mp hstep with hstep | hstep
    · exact not_stopsShort_of_quiet (hearlier step hstep).1
    rcases List.mem_cons.mp hstep with rfl | hstep
    · exact h
    · exact not_stopsShort_of_quiet (hlater step hstep).1

/-- A commit that answers with an error did not pass its revalidation. -/
theorem commitError_of_refused {world world' : World} {collections : List CollectionRef}
    {commit : TransactCommit} {error : OperationResult}
    (hact : Acts world (.commitTransact service transaction context collections) commit world')
    (hout : commit.outcome = .error error) :
    service.commitError world.adapter transaction.operations context ≠ none := by
  intro hnone
  have hanswer : (commit, world') =
      respond world (.commitTransact service transaction context collections) := hact
  have hcommit : commit =
      (service.commitTransact world.adapter transaction context collections).1 :=
    congrArg Prod.fst hanswer
  rw [DynamicPropertyService.commitTransact, hnone] at hcommit
  rw [hcommit] at hout
  cases hout

/-- The records of a transaction under the identifier it drew, if it announced
itself. -/
theorem TransactTrace.recorded_iff {steps : List ServiceStep} {result : TransactionResult}
    (h : TransactTrace service transaction context steps result)
    (hid : ∃ world world' rest,
      steps = ⟨world, .makeTransactionId, result.transactionId, world'⟩ :: rest)
    (hannounces : ∃ step ∈ steps, publishedKind step = some .beforeTransaction)
    (hkeeps : ∀ step ∈ steps, sinkThrows step = false) :
    FullyRecorded service transaction
        (DynamicPropertyService.transactionContext transaction context) result.transactionId steps ↔
      ∀ step ∈ steps, ¬ StopsShort step := by
  cases h with
  | empty _ hempty hstatus =>
      obtain ⟨step, hstep, hpublished⟩ := hannounces
      rw [List.mem_singleton.mp hstep] at hpublished
      cases hpublished
  | rejected _ hchecks hstatus =>
      obtain ⟨step, hstep, hpublished⟩ := hannounces
      rcases List.mem_cons.mp hstep with rfl | hstep
      · cases hpublished
      · obtain ⟨world, ref, rfl⟩ := hchecks step hstep
        cases hpublished
  | @announced world world' transactionId checks announcement answer final failures result
      hdrawn hchecks hannouncement hanswer =>
      obtain ⟨_, _, _, hfirst⟩ := hid
      have hsame : result.transactionId = transactionId := by
        injection hfirst with hstep
        injection hstep with _ _ hresponse
        exact hresponse.symm
      rw [hsame, ← List.append_assoc checks, ← List.cons_append]
      rw [← List.append_assoc checks, ← List.cons_append] at hkeeps
      have hquiet : QuietSteps
          (⟨world, .makeTransactionId, transactionId, world'⟩ :: (checks ++ announcement)) :=
        quietSteps_cons (by trivial) hdrawn (quietSteps_append hchecks.quiet hannouncement.quiet)
      have hfront : ∀ rest : List ServiceStep, recordsIn service.auditSink
          ((⟨world, .makeTransactionId, transactionId, world'⟩ :: (checks ++ announcement)) ++
            rest) = recordsIn service.auditSink rest := by
        intro rest
        have hsilent : recordsIn service.auditSink (checks ++ announcement) = [] :=
          (observing_append hchecks.observing hannouncement.observing).recordsIn
        rw [recordsIn_append, recordsIn, List.filterMap_cons]
        show recordsIn service.auditSink (checks ++ announcement) ++ _ = _
        rw [hsilent, List.nil_append]
      unfold FullyRecorded
      rw [hfront]
      cases hanswer with
      | cancelled hcancels hstatus hresult hrecords =>
          rw [hrecords.recordsIn fun step hstep => hkeeps step (List.mem_append_right _ hstep)]
          exact ⟨fun _ step hstep =>
            not_stopsShort_of_quiet (quietSteps_append hquiet hrecords.quiet step hstep).1,
            fun _ => transactionRecords_replicate _ _ _ _ _⟩
      | @refused before after commit error records result hgoes hact hout hstatus hrecords =>
          have hwritten := hrecords.recordsIn fun step hstep =>
            hkeeps step (List.mem_append_right _ (List.mem_cons_of_mem _ hstep))
          rw [forall_not_stopsShort_iff hquiet hrecords.quiet, recordsIn, List.filterMap_cons]
          show List.Forall₂ _ _ (recordsIn service.auditSink records) ↔ _
          rw [hwritten]
          exact ⟨fun _ hshort => commitError_of_refused hact hout hshort.1,
            fun _ => transactionRecords_replicate _ _ _ _ _⟩
      | @committed before after commit result final' failures' publication records hgoes hact hout
          hpublication hrecords =>
          have hwritten := hrecords.recordsIn fun step hstep =>
            hkeeps step (List.mem_append_right _ (List.mem_cons_of_mem _
              (List.mem_append_right _ hstep)))
          rw [forall_not_stopsShort_iff hquiet
            (quietSteps_append hpublication.quiet hrecords.quiet), recordsIn, List.filterMap_cons]
          show List.Forall₂ _ _ (recordsIn service.auditSink (publication ++ records)) ↔ _
          rw [recordsIn_append, hpublication.observing.recordsIn, List.nil_append, hwritten,
            transactionRecords_complete_iff]
          rcases acts_commitTransact hact with ⟨error, herror, -, -⟩ | ⟨hvalid, hresult, -⟩
          · rw [hout] at herror
            cases herror
          · rw [hout] at hresult
            rw [Except.ok.inj hresult, InMemoryAdapter.transact_tries_all_iff]
            exact ⟨fun hall hshort => hshort.2 hall,
              fun hnot => Classical.byContradiction fun hsome => hnot ⟨hvalid, hsome⟩⟩

/-- **When a transaction is recorded completely.** -/
theorem fully_recorded_iff (service : DynamicPropertyService)
    (transaction : DynamicPropertyTransaction) (context : AccessContext) :
    Ensures Acts (service.transact transaction context) fun steps result =>
      (∃ step ∈ steps, publishedKind step = some .beforeTransaction) →
      (∀ step ∈ steps, sinkThrows step = false) →
        (FullyRecorded service transaction
            (DynamicPropertyService.transactionContext transaction context) result.transactionId
            steps ↔
          ∀ step ∈ steps, ¬ StopsShort step) :=
  fun steps result hexec hannounces hkeeps =>
    (transact_trace service transaction context steps result hexec).recorded_iff
      (transact_identifier service transaction context steps result hexec) hannounces hkeeps

end Transact

/-! ### A removal that fails before a write -/

def haltedTransaction : DynamicPropertyTransaction := { operations := [missingRemoval, firstWrite] }

/-- The transaction in an empty world. -/
def halted : ServiceProgram TransactionResult :=
  ({} : DynamicPropertyService).transact haltedTransaction { rawAdmin := true }

def haltedSteps : List ServiceStep := runSteps respond halted ({} : World)

def haltedResult : TransactionResult := (run respond halted ({} : World)).1

/-- It announces itself, the sink keeps what it is offered, and two operations leave
one record. -/
theorem halted_not_fully_recorded :
    Executes Acts halted haltedSteps (done haltedResult) ∧
      (∃ step ∈ haltedSteps, publishedKind step = some .beforeTransaction) ∧
      (∀ step ∈ haltedSteps, sinkThrows step = false) ∧
      haltedTransaction.operations.length = 2 ∧ (recordsIn 0 haltedSteps).length = 1 ∧
      ¬ FullyRecorded {} haltedTransaction
        (DynamicPropertyService.transactionContext haltedTransaction { rawAdmin := true })
        haltedResult.transactionId haltedSteps := by
  have hone : (recordsIn 0 haltedSteps).length = 1 := by decide
  refine ⟨executes_run acts_respond halted {}, by decide, by decide, rfl, hone,
    fun hfull => ?_⟩
  have hlength : 2 = (recordsIn 0 haltedSteps).length := hfull.length_eq
  omega

end DynamicProperties.Cpp
