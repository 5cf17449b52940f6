import DynamicProperties.Cpp.Application
import DynamicProperties.Cpp.Conduct

/-!
# Transactions are all or nothing

For the adapter, `transact` is sequential application when that succeeds and
nothing otherwise.  For the service, the only request of a `transact` call that
can change the store is its commit, and the status it returns from there on is
the adapter's.
-/

namespace DynamicProperties.Cpp

open DynamicProperties.Library
open DynamicProperties.Library.Requests
open DynamicProperties.Library.Requests.Program

/-- None of these steps changed the store. -/
def StoreKept (steps : List ServiceStep) : Prop :=
  ∀ step ∈ steps, step.after.adapter.store = step.before.adapter.store

theorem storeKept_nil : StoreKept [] := by
  intro step hstep
  cases hstep

theorem storeKept_cons {step : ServiceStep} {steps : List ServiceStep}
    (hstep : step.after.adapter.store = step.before.adapter.store) (hsteps : StoreKept steps) :
    StoreKept (step :: steps) := by
  intro s hs
  rcases List.mem_cons.mp hs with rfl | htail
  · exact hstep
  · exact hsteps s htail

theorem storeKept_append {first second : List ServiceStep} (hfirst : StoreKept first)
    (hsecond : StoreKept second) : StoreKept (first ++ second) := by
  intro s hs
  rcases List.mem_append.mp hs with h | h
  · exact hfirst s h
  · exact hsecond s h

/-- A program of quiet requests keeps the store. -/
theorem Quiet.keeps {α : Type} {p q : ServiceProgram α} {steps : List ServiceStep}
    (hquiet : Issues (I := serviceInterface) Quiet p) (h : Executes Acts p steps q) :
    StoreKept steps := by
  intro step hstep
  have hissued := (h.issues hquiet).1 step hstep
  rw [acts_quiet hissued.1 hissued.2]

theorem Quiet.ensures {α : Type} {p : ServiceProgram α}
    (hquiet : Issues (I := serviceInterface) Quiet p) :
    Ensures Acts p fun steps _ => StoreKept steps :=
  fun _ _ h => Quiet.keeps hquiet h

/-- What the critical section of `transact` answers: the error of its revalidation and
the adapter as it was, or what the adapter answers. -/
theorem acts_commitTransact_cases {world world' : World} {service : DynamicPropertyService}
    {transaction : DynamicPropertyTransaction} {context : AccessContext}
    {collections : List CollectionRef} {commit : TransactCommit}
    (h : Acts world (.commitTransact service transaction context collections) commit world') :
    (∃ error, service.commitError world.adapter transaction.operations context = some error ∧
        commit.outcome = .error error ∧ world'.adapter = world.adapter) ∨
      (service.commitError world.adapter transaction.operations context = none ∧
        commit.outcome = .ok (world.adapter.transact transaction).1 ∧
        world'.adapter = (world.adapter.transact transaction).2) := by
  have hact : (commit, world') =
    respond world (.commitTransact service transaction context collections) := h
  have hfirst : commit =
      (service.commitTransact world.adapter transaction context collections).1 :=
    congrArg Prod.fst hact
  have hsecond : world'.adapter =
      (service.commitTransact world.adapter transaction context collections).2 :=
    congrArg (fun pair => pair.2.adapter) hact
  unfold DynamicPropertyService.commitTransact at hfirst hsecond
  cases herror : service.commitError world.adapter transaction.operations context with
  | some error =>
      rw [herror] at hfirst hsecond
      exact Or.inl ⟨error, rfl, by rw [hfirst], hsecond⟩
  | none =>
      rw [herror] at hfirst hsecond
      exact Or.inr ⟨rfl, by rw [hfirst], hsecond⟩

theorem transact_store_of_not_applied {adapter : InMemoryAdapter}
    {transaction : DynamicPropertyTransaction}
    (h : (adapter.transact transaction).1.status ≠ .applied) :
    (adapter.transact transaction).2.store = adapter.store := by
  by_cases happlies : adapter.AppliesAll transaction.operations transaction.force
  · exact absurd (InMemoryAdapter.transact_of_appliesAll happlies).1 h
  · exact (InMemoryAdapter.transact_of_not_appliesAll happlies).2.2.2

section Service

variable (service : DynamicPropertyService) (transaction : DynamicPropertyTransaction)
  (context : AccessContext)

/-- From the commit on, a `transact` call that does not return `Applied` keeps
the store. -/
private theorem transactCommit_keeps (transactionId : ByteString)
    (collections : List CollectionRef) :
    Ensures Acts (service.transactCommit transaction context transactionId collections)
      fun steps result => result.status ≠ .applied → StoreKept steps := by
  refine ensures_call_bind fun before commit after hact => ?_
  rcases acts_commitTransact_cases hact with ⟨error, -, hout, hadapter⟩ | ⟨-, hout, hadapter⟩
  · rw [hout]
    refine ensures_mono (Quiet.ensures ?_) fun steps result hsteps _ =>
      storeKept_cons (by rw [hadapter]) hsteps
    exact issues_bind (issues_auditEach service (fun _ h => h) _ _ _ _) fun _ => trivial
  · rw [hout]
    refine ensures_bind (Quiet.ensures (issues_publish (fun _ h => h.quiet) _ _))
      fun first _ hfirst => ?_
    refine ensures_bind (Quiet.ensures (issues_auditEach service (fun _ h => h) _ _ _ _))
      fun second _ hsecond => ?_
    refine ensures_done fun hstatus => ?_
    refine storeKept_cons ?_ (storeKept_append hfirst (storeKept_append hsecond storeKept_nil))
    rw [hadapter]
    exact transact_store_of_not_applied hstatus

/-- A `transact` call that does not return `Applied` keeps the store, on every
exit. -/
theorem transact_keeps :
    Ensures Acts (service.transact transaction context)
      fun steps result => result.status ≠ .applied → StoreKept steps := by
  refine ensures_call_bind fun before transactionId after hact => ?_
  have hfirst : after.adapter.store = before.adapter.store := by
    rw [acts_quiet (by trivial) hact]
  split
  · exact ensures_done fun hstatus => absurd rfl hstatus
  split
  · exact ensures_done fun _ => storeKept_cons hfirst storeKept_nil
  refine ensures_bind (Quiet.ensures (issues_validatePropertyLimits _ fun _ _ => trivial))
    fun preflight error hpreflight => ?_
  cases error with
  | some error =>
      exact ensures_done fun _ =>
        storeKept_cons hfirst (storeKept_append hpreflight storeKept_nil)
  | none =>
      refine ensures_bind (Quiet.ensures (issues_captureEach fun _ _ => trivial))
        fun captures _ hcaptures => ?_
      refine ensures_bind (Quiet.ensures (issues_publish (fun _ h => h.quiet) _ _))
        fun publication answer hpublication => ?_
      dsimp only
      split
      · refine ensures_mono (Quiet.ensures ?_) fun steps result hsteps _ => ?_
        · exact issues_bind (issues_auditEach service (fun _ h => h) _ _ _ _) fun _ => trivial
        · exact storeKept_cons hfirst (storeKept_append hpreflight
            (storeKept_append hcaptures (storeKept_append hpublication hsteps)))
      · refine ensures_mono (transactCommit_keeps service transaction _ transactionId _)
          fun steps result hsteps hstatus => ?_
        exact storeKept_cons hfirst (storeKept_append hpreflight
          (storeKept_append hcaptures (storeKept_append hpublication (hsteps hstatus))))

/-- **All or nothing.**  The adapter publishes what sequential application
yields when every operation applies; otherwise it publishes nothing and returns
the results up to and including the first failure.  A `transact` call of a
service that returns anything but `Applied` keeps the store in all its steps. -/
theorem transact_all_or_nothing (adapter : InMemoryAdapter) :
    (adapter.AppliesAll transaction.operations transaction.force →
      (adapter.transact transaction).1.status = .applied ∧
      (adapter.transact transaction).1.operationResults =
        (adapter.applyEach transaction.operations transaction.force).1 ∧
      (adapter.transact transaction).2.store =
        (adapter.applyEach transaction.operations transaction.force).2.store) ∧
    (¬ adapter.AppliesAll transaction.operations transaction.force →
      (adapter.transact transaction).1.status = .transactionFailed ∧
      (adapter.transact transaction).2.store = adapter.store ∧
      ∃ applied failing rest, transaction.operations = applied ++ failing :: rest ∧
        adapter.AppliesAll applied transaction.force ∧
        ((adapter.applyEach applied transaction.force).2.apply failing
          transaction.force).1.status ≠ .applied ∧
        (adapter.transact transaction).1.operationResults =
          (adapter.applyEach applied transaction.force).1 ++
            [((adapter.applyEach applied transaction.force).2.apply failing
              transaction.force).1]) ∧
    ∀ steps result, Executes Acts (service.transact transaction context) steps (done result) →
      result.status ≠ .applied →
        ∀ step ∈ steps, step.after.adapter.store = step.before.adapter.store := by
  refine ⟨fun happlies => ?_, fun hfails => ?_, transact_keeps service transaction context⟩
  · have htransact := InMemoryAdapter.transact_of_appliesAll happlies
    exact ⟨htransact.1, htransact.2.2.1, htransact.2.2.2⟩
  · have htransact := InMemoryAdapter.transact_of_not_appliesAll hfails
    rw [InMemoryAdapter.appliesAll_iff] at hfails
    obtain ⟨applied, failing, rest, hsplit, happlied, hfailing, hresults⟩ :=
      Sequence.runUntil_of_not_succeeds hfails
    refine ⟨htransact.1, htransact.2.2.2, applied, failing, rest, hsplit,
      InMemoryAdapter.appliesAll_iff.mpr happlied, ?_, ?_⟩
    · intro hstatus
      rw [OperationResult.ok, decide_eq_false_iff_not] at hfailing
      exact hfailing hstatus
    · rw [htransact.2.2.1]
      exact hresults

end Service

end DynamicProperties.Cpp
