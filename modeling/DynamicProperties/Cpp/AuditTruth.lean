import Mathlib.Data.Multiset.Bind
import DynamicProperties.Cpp.Traces

/-!
# What the audit log says about commits

A record that is not external, has status `Applied` and is not marked as rolled
back reports that an operation was committed.  A call writes all its records
after its commit, so what it has written by any time can be compared with what
it has published by then: the reports are the published operations, in order, as
far as the call has come, and all of them once it has returned.

One kind of commit breaks this.  A transaction with `rollback_on_failure = false`
that fails after some operation was applied to the candidate store publishes
nothing, but the record of that operation reports it as committed.
-/

namespace DynamicProperties.Cpp

open DynamicProperties.Library
open DynamicProperties.Library.Requests
open DynamicProperties.Library.Requests.Program
open DynamicProperties.Library.Pool

/-! ## Reports and publications -/

/-- The record says that an operation was committed. -/
def reportsCommit (entry : DynamicPropertyAuditRecord) : Bool :=
  !entry.external && entry.status = .applied && !entry.rolledBack

/-- The report that a step offers to a sink. -/
def reportTo (sink : Nat) : ServiceStep → Option DynamicPropertyAuditRecord
  | ⟨_, .record offered entry, _, _⟩ =>
      if offered = sink ∧ reportsCommit entry then some entry else none
  | _ => none

/-- All reports that these steps offer to a sink, in order. -/
def reportsTo (sink : Nat) (steps : List ServiceStep) : List DynamicPropertyAuditRecord :=
  steps.filterMap (reportTo sink)

/-- The operations a step published to the store, with their results. -/
def publishedBy : ServiceStep → List (DynamicPropertyOperation × OperationResult)
  | ⟨_, .commitApply _ operation _ _, .ok result, _⟩ =>
      if result.ok then [(operation, result)] else []
  | ⟨_, .commitTransact _ transaction _ _, commit, _⟩ =>
      match commit.outcome with
      | .ok result =>
          if result.ok then transaction.operations.zip result.operationResults else []
      | .error _ => []
  | _ => []

/-- All operations these steps published, in order. -/
def publishedIn (steps : List ServiceStep) :
    List (DynamicPropertyOperation × OperationResult) :=
  steps.flatMap publishedBy

/-- The reports due for what these steps published, under their identifier. -/
def dueReports (service : DynamicPropertyService) (context : AccessContext) (sink : Nat)
    (steps : List ServiceStep) : List DynamicPropertyAuditRecord :=
  if service.auditSink = sink then
    (issuedIds steps).flatMap fun transactionId =>
      (publishedIn steps).map fun entry =>
        auditRecord entry.1 context entry.2 transactionId false false
  else []

/-- A transaction that asks for no rollback and fails after its first operation
was applied. -/
def PartlyApplies (adapter : InMemoryAdapter) (transaction : DynamicPropertyTransaction) : Prop :=
  transaction.rollbackOnFailure = false ∧
    ¬ adapter.AppliesAll transaction.operations transaction.force ∧
    ∃ operation ∈ transaction.operations.head?,
      (adapter.apply operation transaction.force).1.status = .applied

instance (adapter : InMemoryAdapter) (transaction : DynamicPropertyTransaction) :
    Decidable (PartlyApplies adapter transaction) :=
  inferInstanceAs (Decidable (_ ∧ _))

/-- A commit of such a transaction that passes its revalidation. -/
def CommitsPartly : ServiceStep → Prop
  | ⟨world, .commitTransact service transaction context _, _, _⟩ =>
      service.commitError world.adapter transaction.operations context = none ∧
        PartlyApplies world.adapter transaction
  | _ => False

instance : (step : ServiceStep) → Decidable (CommitsPartly step)
  | ⟨_, .commitTransact _ _ _ _, _, _⟩ => inferInstanceAs (Decidable (_ ∧ _))
  | ⟨_, .capture _, _, _⟩ | ⟨_, .listCollections _, _, _⟩ | ⟨_, .makeTransactionId, _, _⟩
  | ⟨_, .matchListeners _ _, _, _⟩ | ⟨_, .invoke _ _ _ _, _, _⟩
  | ⟨_, .commitApply _ _ _ _, _, _⟩ | ⟨_, .revalidate _ _ _, _, _⟩ | ⟨_, .flush _, _, _⟩
  | ⟨_, .record _ _, _, _⟩ => isFalse id

/-- The sink threw and did not keep the record. -/
def sinkThrows : ServiceStep → Bool
  | ⟨_, .record _ _, threw, _⟩ => threw
  | _ => false

/-- The record that a step leaves in a sink. -/
def writtenTo (sink : Nat) : ServiceStep → Option DynamicPropertyAuditRecord
  | ⟨_, .record offered entry, threw, _⟩ =>
      if offered = sink ∧ threw = false then some entry else none
  | _ => none

section Reading

variable {first second steps : List ServiceStep} {sink : Nat}

theorem reportsTo_append : reportsTo sink (first ++ second) =
    reportsTo sink first ++ reportsTo sink second :=
  List.filterMap_append

theorem publishedIn_append : publishedIn (first ++ second) =
    publishedIn first ++ publishedIn second :=
  List.flatMap_append

theorem issuedIds_append : issuedIds (first ++ second) = issuedIds first ++ issuedIds second :=
  List.filterMap_append

theorem publishedBy_quiet {step : ServiceStep}
    (h : Quiet step.request) : publishedBy step = [] := by
  obtain ⟨world, request, response, world'⟩ := step
  cases request with
  | commitApply service operation context force => exact h.elim
  | commitTransact service transaction context collections => exact h.elim
  | _ => rfl

theorem not_commitsPartly_of_quiet {step : ServiceStep} (h : Quiet step.request) :
    ¬ CommitsPartly step := by
  obtain ⟨world, request, response, world'⟩ := step
  cases request with
  | commitTransact service transaction context collections => exact h.elim
  | _ => exact id

theorem publishedIn_quiet (h : ∀ step ∈ steps, Quiet step.request) : publishedIn steps = [] :=
  List.flatMap_eq_nil_iff.mpr fun step hstep => publishedBy_quiet (h step hstep)

theorem QuietSteps.publishedIn (h : QuietSteps steps) : publishedIn steps = [] :=
  publishedIn_quiet fun step hstep => (h step hstep).1

theorem Observing.reportsTo (h : Observing steps) : reportsTo sink steps = [] := by
  apply h.filterMap
  rintro ⟨world, request, response, world'⟩ hobserves
  cases request with
  | record offered entry => exact hobserves.elim
  | _ => rfl

/-- The reports among the records of a call. -/
theorem Recorded.reportsTo {offered : Nat} {entries : List DynamicPropertyAuditRecord}
    (h : Recorded offered entries steps) :
    reportsTo sink steps = if offered = sink then entries.filter reportsCommit else [] := by
  induction h with
  | nil => simp [Cpp.reportsTo]
  | @cons entry entries steps world world' threw hact _ ih =>
      have hstep : reportTo sink ⟨world, .record offered entry, threw, world'⟩ =
          if offered = sink ∧ reportsCommit entry then some entry else none := rfl
      rw [Cpp.reportsTo, List.filterMap_cons, hstep]
      rw [Cpp.reportsTo] at ih
      by_cases hsink : offered = sink
      · by_cases hreports : reportsCommit entry = true
        · rw [if_pos ⟨hsink, hreports⟩, ih, if_pos hsink, if_pos hsink,
            List.filter_cons_of_pos hreports]
        · rw [if_neg fun h => hreports h.2, ih, if_pos hsink, if_pos hsink,
            List.filter_cons_of_neg hreports]
      · rw [if_neg fun h => hsink h.1, ih, if_neg hsink, if_neg hsink]

end Reading

/-! ## What a step publishes is what it does to the store -/

section Publications

/-- Operations that all take effect, one after another. -/
theorem runUntil_effectStep {operations : List DynamicPropertyOperation} {look : Contents}
    (h : Sequence.Succeeds effectStep id operations look) :
    (Sequence.runUntil effectStep id operations look).2 =
      operations.foldl (fun look operation => Footprint.run (effect operation) look) look := by
  induction operations generalizing look with
  | nil => rfl
  | cons operation rest ih =>
      rw [Sequence.runUntil_cons_of_ok h.1, ih h.2, List.foldl_cons]
      unfold effectStep Footprint.run
      cases effect operation look <;> rfl

/-- **A step changes the store by the operations it published.** -/
theorem contents_publishedBy {world world' : World} {r : Request} {response : Response r}
    (hact : Acts world r response world') :
    contents world'.adapter.store =
      (publishedBy ⟨world, r, response, world'⟩).foldl
        (fun look entry => Footprint.run (effect entry.1) look) (contents world.adapter.store) := by
  cases r with
  | commitApply service operation context force =>
      rcases acts_commitApply hact with ⟨error, rfl, -, hadapter⟩ | ⟨rfl, hadapter⟩
      · rw [hadapter]
        rfl
      · rw [hadapter, InMemoryAdapter.apply_store]
        by_cases hok : (world.adapter.apply operation force).1.ok = true
        · rw [contents_applyUnlocked_of_ok hok]
          simp only [publishedBy, hok, if_true, List.foldl_cons, List.foldl_nil]
        · have hfalse : (world.adapter.apply operation force).1.ok = false := by simpa using hok
          rw [applyUnlocked_store_of_not_ok hfalse]
          simp only [publishedBy, hok]
          rfl
  | commitTransact service transaction context collections =>
      rcases acts_commitTransact hact with ⟨error, hout, -, hadapter⟩ | ⟨-, hout, hadapter⟩
      · rw [hadapter]
        simp only [publishedBy, hout, List.foldl_nil]
      · rw [hadapter]
        by_cases happlies : world.adapter.AppliesAll transaction.operations transaction.force
        · obtain ⟨hstatus, -, hresults, hstore⟩ := InMemoryAdapter.transact_of_appliesAll happlies
          obtain ⟨hall, hfinal⟩ := happlies.follows
          have hok : (world.adapter.transact transaction).1.ok = true := by
            simp [TransactionResult.ok, hstatus]
          have hlength : transaction.operations.length ≤
              (world.adapter.transact transaction).1.operationResults.length := by
            rw [hresults]
            exact (Sequence.length_of_succeeds (InMemoryAdapter.appliesAll_iff.mp happlies)).ge
          rw [hstore, hfinal, runUntil_effectStep hall]
          simp only [publishedBy, hout, hok, if_true]
          rw [← List.foldl_map (f := Prod.fst) (g := fun look operation =>
            Footprint.run (effect operation) look), List.map_fst_zip hlength]
        · obtain ⟨hstatus, -, -, hstore⟩ := InMemoryAdapter.transact_of_not_appliesAll happlies
          have hok : (world.adapter.transact transaction).1.ok = false := by
            simp [TransactionResult.ok, hstatus]
          rw [hstore]
          simp only [publishedBy, hout, hok, Bool.false_eq_true, if_false, List.foldl_nil]
  | capture ref | listCollections target | makeTransactionId | matchListeners bus event
  | invoke listener published position current | revalidate service operation context
  | flush target | record sink entry =>
      rw [acts_quiet (by trivial) hact, publishedBy_quiet (by trivial)]
      rfl

end Publications

/-! ## One call -/

/-- A call that reports only at its end: up to some step it reports nothing, from
there on it neither commits nor draws an identifier, and its reports are those
that were due. -/
def Audited (service : DynamicPropertyService) (context : AccessContext)
    (steps : List ServiceStep) : Prop :=
  ∃ earlier later, steps = earlier ++ later ∧ (∀ sink, reportsTo sink earlier = []) ∧
    (∀ step ∈ later, Quiet step.request) ∧ issuedIds later = [] ∧
    ((∀ step ∈ earlier, ¬ CommitsPartly step) →
      ∀ sink, reportsTo sink later = dueReports service context sink earlier)

section Calls

variable {service : DynamicPropertyService} {context : AccessContext} {steps : List ServiceStep}

theorem dueReports_append_quiet {first second : List ServiceStep}
    (hquiet : ∀ step ∈ second, Quiet step.request) (hids : issuedIds second = []) (sink : Nat) :
    dueReports service context sink (first ++ second) =
      dueReports service context sink first := by
  rw [dueReports, issuedIds_append, publishedIn_append, hids, publishedIn_quiet hquiet,
    List.append_nil, List.append_nil, dueReports]

theorem dueReports_of_unpublished (h : publishedIn steps = []) (sink : Nat) :
    dueReports service context sink steps = [] := by
  rw [dueReports, h]
  simp

/-- Any part of an audited call has reported a prefix of what was due by then,
and the whole call all of it. -/
theorem Audited.reports {rest : List ServiceStep} (h : Audited service context (steps ++ rest))
    (hwhole : ∀ step ∈ steps, ¬ CommitsPartly step) (sink : Nat) :
    reportsTo sink steps <+: dueReports service context sink steps ∧
      (rest = [] → reportsTo sink steps = dueReports service context sink steps) := by
  obtain ⟨earlier, later, hsplit, hsilent, hquiet, hids, hdue⟩ := h
  rcases List.append_eq_append_iff.mp hsplit with ⟨middle, rfl, rfl⟩ | ⟨middle, rfl, rfl⟩
  · -- the part ends before the first report
    have hnone : reportsTo sink steps = [] := by
      have hall := hsilent sink
      rw [reportsTo_append] at hall
      exact (List.append_eq_nil_iff.mp hall).1
    refine ⟨hnone ▸ List.nil_prefix, fun hrest => ?_⟩
    obtain ⟨rfl, rfl⟩ := List.append_eq_nil_iff.mp hrest
    rw [List.append_nil] at hdue
    exact hnone.trans (hdue hwhole sink)
  · -- the part holds the commit and some of the reports
    have hmiddle : ∀ step ∈ middle, Quiet step.request := fun step hstep =>
      hquiet step (List.mem_append_left _ hstep)
    have hmiddleIds : issuedIds middle = [] := by
      rw [issuedIds_append] at hids
      exact (List.append_eq_nil_iff.mp hids).1
    have hreports := hdue (fun step hstep => hwhole step (List.mem_append_left _ hstep)) sink
    rw [reportsTo_append] at hreports
    rw [dueReports_append_quiet hmiddle hmiddleIds, reportsTo_append, hsilent sink,
      List.nil_append, ← hreports]
    refine ⟨List.prefix_append _ _, ?_⟩
    rintro rfl
    rw [show reportsTo sink [] = [] from rfl, List.append_nil]

/-- A call that neither commits nor records is audited. -/
theorem audited_of_silent (h : ∀ step ∈ steps, Silent step.request) :
    Audited service context steps := by
  have hreports : ∀ sink, reportsTo sink steps = [] := by
    intro sink
    apply List.filterMap_eq_nil_iff.mpr
    intro step hstep
    have hsilent := h step hstep
    obtain ⟨world, request, response, world'⟩ := step
    cases request with
    | record offered entry => exact hsilent.elim
    | _ => rfl
  have hquiet : ∀ step ∈ steps, Quiet step.request := fun step hstep => (h step hstep).quiet
  refine ⟨steps, [], by simp, hreports, by simp, rfl, fun _ sink => ?_⟩
  rw [dueReports_of_unpublished (publishedIn_quiet hquiet)]
  rfl

/-- A call that ends with records, of which none is a report, after steps that
publish nothing. -/
theorem audited_of_unpublished {earlier records : List ServiceStep}
    {entries : List DynamicPropertyAuditRecord} (hearlier : ∀ sink, reportsTo sink earlier = [])
    (hpublished : publishedIn earlier = []) (hrecords : Recorded service.auditSink entries records)
    (hentries : (∀ step ∈ earlier, ¬ CommitsPartly step) →
      ∀ entry ∈ entries, reportsCommit entry = false) :
    Audited service context (earlier ++ records) := by
  refine ⟨earlier, records, rfl, hearlier, fun step hstep => (hrecords.quiet step hstep).1,
    hrecords.issuedIds, fun hwhole sink => ?_⟩
  have hnone : entries.filter reportsCommit = [] :=
    List.filter_eq_nil_iff.mpr fun entry hentry => by
      rw [hentries hwhole entry hentry]
      exact Bool.false_ne_true
  rw [dueReports_of_unpublished hpublished, hrecords.reportsTo, hnone, ite_self]

/-- A record of an error is no report. -/
theorem reportsCommit_auditRecord (operation : DynamicPropertyOperation)
    (result : OperationResult) (transactionId : ByteString) (external rolledBack : Bool) :
    reportsCommit (auditRecord operation context result transactionId external rolledBack) =
      (!external && result.ok && !rolledBack) := rfl

theorem OperationResult.not_ok {result : OperationResult} (h : result.status ≠ .applied) :
    result.ok = false := by
  simp [OperationResult.ok, h]

theorem Observes.silent {r : Request} (h : Observes r) : Silent r := by
  cases r with
  | capture ref | matchListeners bus event | invoke listener published position current => trivial
  | _ => exact h.elim

/-- The steps before a commit: they publish and report nothing, and draw one
identifier. -/
structure Prepares (transactionId : ByteString) (steps : List ServiceStep) : Prop where
  reports : ∀ sink, reportsTo sink steps = []
  publishes : publishedIn steps = []
  issues : issuedIds steps = [transactionId]
  whole : ∀ step ∈ steps, ¬ CommitsPartly step

theorem prepares_of_observing {earlier later : List ServiceStep} (hearlier : Observing earlier)
    (hlater : Observing later) (world : World) (transactionId : ByteString) (world' : World) :
    Prepares transactionId (earlier ++ ⟨world, .makeTransactionId, transactionId, world'⟩ :: later)
    where
  reports sink := by
    have hlater' : reportsTo sink (⟨world, .makeTransactionId, transactionId, world'⟩ :: later) =
        reportsTo sink later := rfl
    rw [reportsTo_append, hearlier.reportsTo, hlater', hlater.reportsTo]
    rfl
  publishes := by
    apply publishedIn_quiet
    intro step hstep
    rcases List.mem_append.mp hstep with h | h
    · exact (hearlier step h).silent.quiet
    rcases List.mem_cons.mp h with rfl | h
    · trivial
    · exact (hlater step h).silent.quiet
  issues := by
    have hlater' : issuedIds (⟨world, .makeTransactionId, transactionId, world'⟩ :: later) =
        transactionId :: issuedIds later := rfl
    rw [issuedIds_append, hearlier.issuedIds, hlater', hlater.issuedIds]
    rfl
  whole := by
    intro step hstep
    rcases List.mem_append.mp hstep with h | h
    · exact not_commitsPartly_of_quiet (hearlier step h).silent.quiet
    rcases List.mem_cons.mp h with rfl | h
    · exact id
    · exact not_commitsPartly_of_quiet (hlater step h).silent.quiet

variable {operation : DynamicPropertyOperation} {force : Bool} {result : OperationResult}

theorem ApplyTrace.audited (h : ApplyTrace service operation context force steps result) :
    Audited service context steps := by
  cases h with
  | rejected hchecks hstatus =>
      exact audited_of_silent fun step hstep => (hchecks.observing step hstep).silent
  | @announced checks announcement answer world world' transactionId final failures result
      hchecks hid hannouncement hanswer =>
      have hfront := prepares_of_observing hchecks.observing hannouncement.observing world
        transactionId world'
      rw [← List.cons_append, ← List.append_assoc]
      cases hanswer with
      | cancelled hcancels hstatus hrecords =>
          refine audited_of_unpublished hfront.reports hfront.publishes hrecords ?_
          intro _ entry hentry
          rw [List.mem_singleton.mp hentry, reportsCommit_auditRecord,
            OperationResult.not_ok (by rw [hstatus]; decide)]
          rfl
      | @refused before after _ records hgoes hact hrecords =>
          let commit : ServiceStep :=
            ⟨before, .commitApply service operation context force, .error result, after⟩
          have herror : result.status ≠ .applied := by
            rcases acts_commitApply hact with ⟨error', hout, hstatus, -⟩ | ⟨hout, -⟩
            · cases hout
              exact hstatus.1
            · cases hout
          rw [show ∀ front : List ServiceStep, front ++ commit :: records =
            (front ++ [commit]) ++ records by simp]
          refine audited_of_unpublished (fun sink => ?_) ?_ hrecords ?_
          · rw [reportsTo_append, hfront.reports]
            rfl
          · rw [publishedIn_append, hfront.publishes]
            rfl
          · intro _ entry hentry
            rw [List.mem_singleton.mp hentry, reportsCommit_auditRecord,
              OperationResult.not_ok herror]
            rfl
      | @committed before after result publications records hgoes hact hpublications hrecords =>
          let commit : ServiceStep :=
            ⟨before, .commitApply service operation context force, .ok result, after⟩
          rw [show ∀ front : List ServiceStep, front ++ commit :: (publications ++ records) =
            (front ++ commit :: publications) ++ records by simp]
          refine ⟨_, records, rfl, fun sink => ?_, fun step hstep => (hrecords.quiet step hstep).1,
            hrecords.issuedIds, fun _ sink => ?_⟩
          · have hcommit : reportsTo sink (commit :: publications) =
                reportsTo sink publications := rfl
            rw [reportsTo_append, hfront.reports, hcommit, hpublications.observing.reportsTo]
            rfl
          · have hpublished : publishedIn (commit :: publications) =
                publishedBy commit ++ publishedIn publications := rfl
            have hissued : issuedIds (commit :: publications) = issuedIds publications := rfl
            rw [hrecords.reportsTo, dueReports, issuedIds_append, publishedIn_append,
              hfront.publishes, hfront.issues, hissued, hpublications.observing.issuedIds,
              hpublished, hpublications.quiet.publishedIn]
            simp only [commit, publishedBy, List.nil_append, List.append_nil, List.flatMap_cons,
              List.flatMap_nil]
            cases hok : result.ok with
            | true => simp [reportsCommit_auditRecord, hok]
            | false => simp [reportsCommit_auditRecord, hok]

/-- The reports among the records of a transaction that was committed are those
of its published operations. -/
theorem reports_of_committed {world world' : World} {transaction : DynamicPropertyTransaction}
    {collections : List CollectionRef} {commit : TransactCommit} {result : TransactionResult}
    (hact : Acts world (.commitTransact service transaction context collections) commit world')
    (hout : commit.outcome = .ok result)
    (hwhole : ¬ CommitsPartly
      ⟨world, .commitTransact service transaction context collections, commit, world'⟩)
    (transactionId : ByteString) :
    (transactionRecords transaction context transactionId result.rolledBack
        result.operationResults).filter reportsCommit =
      (publishedBy ⟨world, .commitTransact service transaction context collections, commit,
          world'⟩).map fun entry =>
        auditRecord entry.1 context entry.2 transactionId false false := by
  rcases acts_commitTransact hact with ⟨error, herror, -, -⟩ | ⟨hvalid, hresult, -⟩
  · rw [hout] at herror
    cases herror
  rw [hout] at hresult
  have hsame := Except.ok.inj hresult
  by_cases happlies : world.adapter.AppliesAll transaction.operations transaction.force
  · obtain ⟨hstatus, hrolled, hresults, -⟩ := InMemoryAdapter.transact_of_appliesAll happlies
    rw [← hsame] at hstatus hrolled hresults
    have hok : result.ok = true := by simp [TransactionResult.ok, hstatus]
    simp only [publishedBy, hout, hok, if_true, transactionRecords, hrolled]
    apply List.filter_eq_self.mpr
    intro record hrecord
    obtain ⟨entry, hentry, rfl⟩ := List.mem_map.mp hrecord
    have happlied : entry.2.status = .applied := by
      apply happlies
      rw [← hresults]
      exact (List.of_mem_zip hentry).2
    rw [reportsCommit_auditRecord, OperationResult.ok_iff.mpr happlied]
    rfl
  · obtain ⟨hstatus, hrolled, hresults, -⟩ := InMemoryAdapter.transact_of_not_appliesAll happlies
    rw [← hsame] at hstatus hrolled hresults
    have hok : result.ok = false := by simp [TransactionResult.ok, hstatus]
    simp only [publishedBy, hout, hok, Bool.false_eq_true, if_false, List.map_nil]
    apply List.filter_eq_nil_iff.mpr
    intro record hrecord
    obtain ⟨entry, hentry, rfl⟩ := List.mem_map.mp hrecord
    rw [reportsCommit_auditRecord, hrolled]
    cases hrollback : transaction.rollbackOnFailure with
    | true => simp
    | false =>
        -- the first operation failed, so it is the only one with a result
        have hfirst : entry.2.status ≠ .applied := by
          intro happlied
          apply hwhole
          refine ⟨hvalid, hrollback, happlies, ?_⟩
          cases hoperations : transaction.operations with
          | nil =>
              rw [hoperations] at hentry
              cases hentry
          | cons operation rest =>
              refine ⟨operation, rfl, ?_⟩
              by_contra hrefused
              have hnot : (world.adapter.apply operation transaction.force).1.ok = false :=
                OperationResult.not_ok hrefused
              rw [hresults, hoperations, InMemoryAdapter.applyEach_cons_of_not_ok hnot] at hentry
              rw [List.zip_cons_cons, List.zip_nil_right, List.mem_singleton] at hentry
              rw [hentry] at happlied
              exact hrefused happlied
        rw [OperationResult.not_ok hfirst]
        simp

theorem TransactTrace.audited {transaction : DynamicPropertyTransaction}
    {result : TransactionResult} (h : TransactTrace service transaction context steps result) :
    Audited service (DynamicPropertyService.transactionContext transaction context) steps := by
  have hreplicate : ∀ (error : OperationResult) (transactionId : ByteString),
      error.status ≠ .applied → ∀ entry ∈ transactionRecords transaction
        (DynamicPropertyService.transactionContext transaction context) transactionId false
        (List.replicate transaction.operations.length error), reportsCommit entry = false := by
    intro error transactionId herror record hrecord
    obtain ⟨entry, hentry, rfl⟩ := List.mem_map.mp hrecord
    have hsame : entry.2 = error := List.eq_of_mem_replicate (List.of_mem_zip hentry).2
    rw [reportsCommit_auditRecord, hsame, OperationResult.not_ok herror]
    rfl
  cases h with
  | empty hid hempty hstatus =>
      refine audited_of_silent fun step hstep => ?_
      rw [List.mem_singleton.mp hstep]
      trivial
  | rejected hid hchecks hstatus =>
      refine audited_of_silent fun step hstep => ?_
      rcases List.mem_cons.mp hstep with rfl | htail
      · trivial
      · exact (hchecks.observing step htail).silent
  | @announced world world' transactionId checks announcement answer final failures result
      hid hchecks hannouncement hanswer =>
      have hfront := prepares_of_observing observing_nil
        (observing_append hchecks.observing hannouncement.observing) world transactionId world'
      rw [List.nil_append] at hfront
      rw [← List.append_assoc checks, ← List.cons_append]
      cases hanswer with
      | cancelled hcancels hstatus hresult hrecords =>
          exact audited_of_unpublished hfront.reports hfront.publishes hrecords
            fun _ => hreplicate _ _ (by rw [hresult]; decide)
      | @refused before after commit error records result hgoes hact hout hstatus hrecords =>
          have herror : error.status ≠ .applied := by
            rcases acts_commitTransact hact with ⟨error', hout', hstatus', -⟩ | ⟨-, hout', -⟩
            · rw [hout] at hout'
              cases hout'
              exact hstatus'.1
            · rw [hout] at hout'
              cases hout'
          let step : ServiceStep :=
            ⟨before, .commitTransact service transaction
              (DynamicPropertyService.transactionContext transaction context)
              (namedCollections transaction.operations), commit, after⟩
          rw [show ∀ front : List ServiceStep, front ++ step :: records =
            (front ++ [step]) ++ records by simp]
          refine audited_of_unpublished (fun sink => ?_) ?_ hrecords fun _ => hreplicate _ _ herror
          · rw [reportsTo_append, hfront.reports]
            rfl
          · rw [publishedIn_append, hfront.publishes]
            show publishedBy step ++ [] = []
            simp only [step, publishedBy, hout, List.append_nil]
      | @committed before after commit result final' failures' publication records hgoes hact hout
          hpublication hrecords =>
          let step : ServiceStep :=
            ⟨before, .commitTransact service transaction
              (DynamicPropertyService.transactionContext transaction context)
              (namedCollections transaction.operations), commit, after⟩
          rw [show ∀ front : List ServiceStep, front ++ step :: (publication ++ records) =
            (front ++ step :: publication) ++ records by simp]
          refine ⟨_, records, rfl, fun sink => ?_, fun step hstep => (hrecords.quiet step hstep).1,
            hrecords.issuedIds, fun hwhole sink => ?_⟩
          · have hstep : reportsTo sink (step :: publication) = reportsTo sink publication := rfl
            rw [reportsTo_append, hfront.reports, hstep, hpublication.observing.reportsTo]
            rfl
          · have hpublished : publishedIn (step :: publication) =
                publishedBy step ++ publishedIn publication := rfl
            have hissued : issuedIds (step :: publication) = issuedIds publication := rfl
            rw [hrecords.reportsTo, dueReports, issuedIds_append, publishedIn_append,
              hfront.publishes, hfront.issues, hissued, hpublication.observing.issuedIds,
              hpublished, hpublication.quiet.publishedIn, reports_of_committed hact hout
                (hwhole step (List.mem_append_right _ List.mem_cons_self)) transactionId]
            simp only [step, List.nil_append, List.append_nil, List.flatMap_cons, List.flatMap_nil]

theorem ExternalTrace.audited {given : ByteString}
    (h : ExternalTrace service operation result context given steps) (caller : AccessContext) :
    Audited service caller steps := by
  have hobserved : ∀ (front : List ServiceStep) {observed : List ServiceStep}
      {transactionId : ByteString}, (∀ sink, reportsTo sink front = []) → publishedIn front = [] →
      ObservationTrace service operation result context transactionId observed →
      Audited service caller (front ++ observed) := by
    intro front observed transactionId hreports hpublishes hobservation
    cases hobservation with
    | mk hpublications hrecords =>
        rw [← List.append_assoc]
        refine audited_of_unpublished (fun sink => ?_) ?_ hrecords fun _ entry hentry => ?_
        · rw [reportsTo_append, hreports, hpublications.observing.reportsTo]
          rfl
        · rw [publishedIn_append, hpublishes, hpublications.quiet.publishedIn]
          rfl
        · -- an external record is no report
          rw [List.mem_singleton.mp hentry, reportsCommit_auditRecord]
          rfl
  cases h with
  | given hgiven hobservation => exact hobserved [] (fun _ => rfl) rfl hobservation
  | @issued observed world world' fresh hnone hid hobservation =>
      exact hobserved [⟨world, .makeTransactionId, fresh, world'⟩] (fun _ => rfl) rfl hobservation

/-- The context a call's records carry. -/
def ServiceCall.auditContext : ServiceCall → AccessContext
  | apply _ _ context _ => context
  | transact _ transaction context =>
      DynamicPropertyService.transactionContext transaction context
  | importCollection _ _ _ context _ _ => context
  | _ => {}

theorem audited_of_issues {p : ServiceProgram CallResult}
    (h : Issues (I := serviceInterface) Silent p) :
    Ensures Acts p fun steps _ => Audited service context steps :=
  fun _ _ hexec => audited_of_silent fun step hstep => ((hexec.issues h).1 step hstep).1

/-- **Every complete call is audited.** -/
theorem audited_program (format : NumberFormat) (call : ServiceCall) :
    Ensures Acts (call.program format) fun steps _ =>
      Audited call.service call.auditContext steps := by
  have hsilent : ∀ r, Silent r → Silent r := fun _ h => h
  cases call with
  | capture service ref context =>
      exact audited_of_issues (issues_bind (issues_capture service fun _ => hsilent _ trivial)
        fun _ => trivial)
  | get service ref key context =>
      exact audited_of_issues (issues_bind (issues_get service key fun _ => hsilent _ trivial)
        fun _ => trivial)
  | listCollections service target context =>
      exact audited_of_issues (issues_bind (issues_listCollections service hsilent target context)
        fun _ => trivial)
  | apply service operation context force =>
      exact ensures_wrap (ensures_mono (apply_trace service operation context force)
        fun steps result h => h.audited)
  | transact service transaction context =>
      exact ensures_wrap (ensures_mono (transact_trace service transaction context)
        fun steps result h => h.audited)
  | flush service target =>
      exact audited_of_issues (issues_bind (issues_flush service hsilent target) fun _ => trivial)
  | exportCollection service ref context =>
      exact audited_of_issues (issues_bind
        (issues_exportCollection service format fun _ => hsilent _ trivial) fun _ => trivial)
  | importCollection service destination document context policy expectedRevision =>
      refine ensures_wrap ?_
      unfold DynamicPropertyService.importCollection
      split
      · exact ensures_done (audited_of_silent fun step hstep => by cases hstep)
      split
      · exact ensures_done (audited_of_silent fun step hstep => by cases hstep)
      · exact ensures_mono (apply_trace service _ context false) fun steps result h => h.audited
  | beforeExternalMutation service operation context cancellable =>
      exact audited_of_issues (issues_bind
        (issues_beforeExternalMutation service hsilent operation context cancellable)
        fun _ => trivial)
  | afterExternalMutation service operation result context transactionId =>
      exact ensures_wrap (ensures_mono
        (afterExternalMutation_trace service operation result context transactionId)
        fun steps _ h => h.audited _)

/-- A sink grows by what the steps leave in it. -/
theorem acts_written {world world' : World} {r : Request} {response : Response r}
    (hact : Acts world r response world') (sink : Nat) :
    world'.auditSinks sink =
      world.auditSinks sink ++ (writtenTo sink ⟨world, r, response, world'⟩).toList := by
  cases r with
  | record offered entry =>
      rcases hact with ⟨hthrew, hworld⟩ | hkept
      · have hthrown : response = true := hthrew
        rw [hworld, hthrown]
        simp [writtenTo]
      · have hanswer : response = false := congrArg Prod.fst hkept
        have hworld : world'.auditSinks = Function.update world.auditSinks offered
            (world.auditSinks offered ++ [entry]) := congrArg (fun pair => pair.2.auditSinks) hkept
        rw [hworld, hanswer]
        by_cases hsink : offered = sink
        · subst hsink
          simp [writtenTo]
        · rw [Function.update_of_ne (Ne.symm hsink)]
          simp [writtenTo, hsink]
  | invoke listener published position current =>
      have hworld : world' = world := hact
      rw [hworld]
      simp [writtenTo]
  | commitApply service operation context force | commitTransact service transaction context refs
  | capture ref | listCollections target | makeTransactionId | matchListeners bus event
  | revalidate service operation context | flush target =>
      have hworld : world' = (respond world _).2 := congrArg Prod.snd hact
      rw [hworld]
      simp [writtenTo, respond]

/-- What a step adds to a sink that does not throw. -/
theorem acts_reports {world world' : World} {r : Request} {response : Response r}
    (hact : Acts world r response world')
    (hkeeps : sinkThrows ⟨world, r, response, world'⟩ = false) (sink : Nat) :
    (world'.auditSinks sink).filter reportsCommit =
      (world.auditSinks sink).filter reportsCommit ++
        (reportTo sink ⟨world, r, response, world'⟩).toList := by
  have hreport : (writtenTo sink ⟨world, r, response, world'⟩).toList.filter reportsCommit =
      (reportTo sink ⟨world, r, response, world'⟩).toList := by
    cases r with
    | record offered entry =>
        have hkept : response = false := hkeeps
        by_cases hsink : offered = sink
        · cases hreports : reportsCommit entry <;>
            simp [writtenTo, reportTo, hkept, hsink, hreports]
        · simp [writtenTo, reportTo, hsink]
    | _ => rfl
  rw [acts_written hact sink, List.filter_append, hreport]

end Calls

/-! ## Runs -/

/-- Every sum over the steps of a call counts its reports. -/
theorem sum_reportTo (sink : Nat) (steps : List ServiceStep) :
    (steps.map fun step => ((reportTo sink step).toList : Multiset DynamicPropertyAuditRecord)).sum
      = (reportsTo sink steps : Multiset DynamicPropertyAuditRecord) := by
  induction steps with
  | nil => rfl
  | cons step rest ih =>
      rw [List.map_cons, List.sum_cons, ih, Multiset.coe_add, reportsTo, reportsTo,
        List.filterMap_cons]
      cases reportTo sink step with
      | none => rfl
      | some entry => rfl

/-- **The audit log tells the truth about commits.**  In every run whose sinks
never throw and none of whose commits is a partial one: each step changes the
store by the operations it published; each report in a sink is about an
operation that a call of that sink's service published under that identifier;
and the reports in a sink are those of the calls, each of which has reported a
prefix of what it published, and once it returned, all of it. -/
theorem audit_tells_truth (format : NumberFormat) {init : World}
    {state : State serviceInterface World ServiceCall CallResult}
    (hinit : ∀ sink, init.auditSinks sink = [])
    (hrun : Pool.Run (serviceSystem format) init state)
    (hkeeps : ∀ c ∈ state.calls, ∀ step ∈ c.steps, sinkThrows step = false)
    (hwhole : ∀ c ∈ state.calls, ∀ step ∈ c.steps, ¬ CommitsPartly step) :
    (∀ c ∈ state.calls, ∀ step ∈ c.steps,
      contents step.after.adapter.store = (publishedBy step).foldl
        (fun look entry => Footprint.run (effect entry.1) look)
        (contents step.before.adapter.store)) ∧
    (∀ sink, ∀ entry ∈ state.world.auditSinks sink, reportsCommit entry = true →
      ∃ c ∈ state.calls, c.job.service.auditSink = sink ∧
        ∃ transactionId ∈ issuedIds c.steps, ∃ published ∈ publishedIn c.steps,
          entry = auditRecord published.1 c.job.auditContext published.2 transactionId
            false false) ∧
    (∀ sink,
      (((state.world.auditSinks sink).filter reportsCommit : List _) :
          Multiset DynamicPropertyAuditRecord) =
        (state.calls.map fun c => (reportsTo sink c.steps : Multiset _)).sum ∧
      ∀ c ∈ state.calls,
        reportsTo sink c.steps <+: dueReports c.job.service c.job.auditContext sink c.steps ∧
        ∀ result, c.Returned result →
          reportsTo sink c.steps =
            dueReports c.job.service c.job.auditContext sink c.steps) := by
  have hreports : ∀ sink, ∀ c ∈ state.calls,
      reportsTo sink c.steps <+: dueReports c.job.service c.job.auditContext sink c.steps ∧
        ∀ result, c.Returned result → reportsTo sink c.steps =
          dueReports c.job.service c.job.auditContext sink c.steps := by
    intro sink c hc
    have hexec := hrun.executes c hc
    have hcomplete := hexec.completes acts_respond state.world
    have haudited := audited_program format c.job _ _ hcomplete
    obtain ⟨hstarts, hall⟩ := haudited.reports (hwhole c hc) sink
    refine ⟨hstarts, fun result hreturned => hall ?_⟩
    have hdone : c.rest = done result := hreturned
    rw [hdone]
    rfl
  have hledger : ∀ sink, (((state.world.auditSinks sink).filter reportsCommit : List _) :
      Multiset DynamicPropertyAuditRecord) =
        (state.calls.map fun c => (reportsTo sink c.steps : Multiset _)).sum := by
    intro sink
    have h := hrun.ledger
      (fun world => (((world.auditSinks sink).filter reportsCommit : List _) : Multiset _))
      (fun step => ((reportTo sink step).toList : Multiset DynamicPropertyAuditRecord)) ?_ ?_
    · rw [h, hinit, totalWeight]
      simp only [sum_reportTo, List.filter_nil, Multiset.coe_nil, zero_add]
    · intro c hc step hstep
      have hact := (hrun.executes c hc).acts step hstep
      rw [acts_reports hact (hkeeps c hc step hstep) sink, Multiset.coe_add]
    · intro world world' hinterferes
      cases hinterferes <;> rfl
  refine ⟨fun c hc step hstep => contents_publishedBy ((hrun.executes c hc).acts step hstep), ?_,
    fun sink => ⟨hledger sink, hreports sink⟩⟩
  intro sink entry hentry hreport
  have hlogged : entry ∈ (((state.world.auditSinks sink).filter reportsCommit : List _) :
      Multiset DynamicPropertyAuditRecord) :=
    Multiset.mem_coe.mpr (List.mem_filter.mpr ⟨hentry, hreport⟩)
  rw [hledger sink, ← Multiset.sum_coe] at hlogged
  obtain ⟨reports, hsome, hmember⟩ := Multiset.mem_join.mp hlogged
  obtain ⟨c, hc, rfl⟩ := List.mem_map.mp (Multiset.mem_coe.mp hsome)
  have hcall := Multiset.mem_coe.mp hmember
  have hdue := (hreports sink c hc).1.subset hcall
  unfold dueReports at hdue
  split at hdue
  · rename_i hsink
    obtain ⟨transactionId, hid, hmapped⟩ := List.mem_flatMap.mp hdue
    obtain ⟨published, hpublished, rfl⟩ := List.mem_map.mp hmapped
    exact ⟨c, hc, hsink, transactionId, hid, published, hpublished, rfl⟩
  · cases hdue

/-! ### A transaction of two writes, and one that fails in between -/

/-- A write that applies to every store. -/
def firstWrite : DynamicPropertyOperation :=
  .setProperty { ref := ⟨{}, text "notes"⟩, key := text "title", value := .bool true }

/-- A removal that fails on a store without the property. -/
def missingRemoval : DynamicPropertyOperation :=
  .removeProperty { ref := ⟨{}, text "notes"⟩, key := text "body", requireExisting := true }

def unrolled (operations : List DynamicPropertyOperation) : ServiceCall :=
  .transact {} { operations, rollbackOnFailure := false } { rawAdmin := true }

/-- The pool after such a transaction has run alone from the empty world. -/
def unrolledState (operations : List DynamicPropertyOperation) :
    State serviceInterface World ServiceCall CallResult :=
  (State.mk ({} : World) []).alone (serviceSystem silentFormat) respond (unrolled operations)

/-- The theorem at a transaction of two writes: both are reported, and both were
published. -/
theorem audit_tells_truth_unrolled :
    (∀ entry ∈ (unrolledState [firstWrite, firstWrite]).world.auditSinks 0,
      reportsCommit entry = true →
      ∃ c ∈ (unrolledState [firstWrite, firstWrite]).calls, c.job.service.auditSink = 0 ∧
        ∃ transactionId ∈ issuedIds c.steps, ∃ published ∈ publishedIn c.steps,
          entry = auditRecord published.1 c.job.auditContext published.2 transactionId
            false false) ∧
      ((unrolledState [firstWrite, firstWrite]).world.auditSinks 0).length = 2 := by
  have hrun : Pool.Run (serviceSystem silentFormat) ({} : World)
      (unrolledState [firstWrite, firstWrite]) := Run.alone acts_respond .nil _
  have htruth := audit_tells_truth silentFormat (fun _ => rfl) hrun
    (fun c hc => by rw [List.mem_singleton.mp hc]; decide)
    (fun c hc => by rw [List.mem_singleton.mp hc]; decide)
  exact ⟨htruth.2.1 0, by decide⟩

/-- The write of a transaction that fails after it is reported as committed,
although nothing was published. -/
theorem unrolled_reports_unpublished :
    (∃ entry ∈ (unrolledState [firstWrite, missingRemoval]).world.auditSinks 0,
      reportsCommit entry = true ∧ entry.operationName = operationName firstWrite) ∧
    (∀ c ∈ (unrolledState [firstWrite, missingRemoval]).calls, publishedIn c.steps = []) ∧
    (unrolledState [firstWrite, missingRemoval]).world.adapter.store.isEmpty = true := by
  decide

end DynamicProperties.Cpp
