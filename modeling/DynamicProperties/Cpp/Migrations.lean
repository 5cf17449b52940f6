import DynamicProperties.Cpp.AuditCompleteness

/-!
# Which committed moves are announced

A move is a collection transfer that removes its source.  `apply` publishes one
`CollectionMigrated` event for each move it commits.  A transaction announces itself
with `BeforeTransaction` and `AfterTransaction` and publishes nothing about its
operations, so over a run the events count the moves that went through `apply`, and
all committed moves exactly when no transaction committed one.
-/

namespace DynamicProperties.Cpp

open DynamicProperties.Library
open DynamicProperties.Library.Requests
open DynamicProperties.Library.Requests.Program
open DynamicProperties.Library.Pool

/-- The `CollectionMigrated` events these steps publish. -/
def migrationsPublished (steps : List ServiceStep) : Nat :=
  (steps.filterMap publishedKind).count .collectionMigrated

/-- The moves these steps committed. -/
def movesCommitted (steps : List ServiceStep) : Nat :=
  (publishedIn steps).countP fun entry => isMigration entry.1

/-- The step commits through `apply`. -/
def throughApply : ServiceStep → Bool
  | ⟨_, .commitApply _ _ _ _, _, _⟩ => true
  | _ => false

/-- The moves these steps committed through `apply`. -/
def movesThroughApply (steps : List ServiceStep) : Nat :=
  movesCommitted (steps.filter throughApply)

/-- A transaction that takes effect and contains a move. -/
def CommitsMove : ServiceStep → Prop
  | ⟨world, .commitTransact service transaction context _, _, _⟩ =>
      service.commitError world.adapter transaction.operations context = none ∧
        world.adapter.AppliesAll transaction.operations transaction.force ∧
        ∃ operation ∈ transaction.operations, isMigration operation = true
  | _ => False

/-! ## The kinds of the events of a call -/

section Kinds

variable {steps : List ServiceStep}

theorem AllCaptures.kinds (h : AllCaptures steps) : steps.filterMap publishedKind = [] := by
  apply List.filterMap_eq_nil_iff.mpr
  intro step hstep
  obtain ⟨world, ref, rfl⟩ := h step hstep
  rfl

theorem Recorded.kinds {sink : Nat} {entries : List DynamicPropertyAuditRecord}
    (h : Recorded sink entries steps) : steps.filterMap publishedKind = [] :=
  h.filterMap fun _ _ _ _ => rfl

theorem Deliveries.kinds {published current final : DynamicPropertyEvent} {position : Nat}
    {listeners failures : List UInt64}
    (h : Deliveries published position listeners current steps final failures) :
    steps.filterMap publishedKind = [] := by
  induction h with
  | nil position current => rfl
  | cons world answer _ ih => exact ih

theorem Publication.kinds {bus : Nat} {event final : DynamicPropertyEvent}
    {failures : List UInt64} (h : Publication bus event steps final failures) :
    steps.filterMap publishedKind = [event.kind] := by
  cases h with
  | mk world hdeliveries => exact congrArg (event.kind :: ·) hdeliveries.kinds

theorem Announcement.kinds {bus : Nat} {event final : DynamicPropertyEvent}
    {failures : List UInt64} (h : Announcement bus event steps final failures) :
    steps.filterMap publishedKind = [event.kind] := by
  cases h with
  | mk snapshots hcaptures hpublication =>
      rw [List.filterMap_append, hcaptures.kinds, hpublication.kinds]
      rfl

theorem AfterPublications.kinds {service : DynamicPropertyService}
    {kind : DynamicPropertyEventKind} {operation : DynamicPropertyOperation}
    {context : AccessContext} {result : OperationResult} {transactionId : ByteString}
    (h : AfterPublications service kind operation context result transactionId steps) :
    steps.filterMap publishedKind =
      kind :: if result.ok && isMigration operation then [.collectionMigrated] else [] := by
  cases h with
  | single hplain hevent =>
      rw [hevent.kinds, hplain]
      rfl
  | migration hmigration hevent hsecond =>
      rw [List.filterMap_append, hevent.kinds, hsecond.kinds, hmigration]
      rfl

end Kinds

/-! ## One call -/

section Calls

variable {service : DynamicPropertyService} {operation : DynamicPropertyOperation}
  {context : AccessContext} {steps : List ServiceStep}

theorem movesCommitted_of_quiet {earlier later : List ServiceStep} {commit : ServiceStep}
    (hearlier : QuietSteps earlier) (hlater : QuietSteps later) :
    movesCommitted (earlier ++ commit :: later) =
      (publishedBy commit).countP fun entry => isMigration entry.1 := by
  have hpublished : publishedIn (commit :: later) = publishedBy commit ++ publishedIn later := rfl
  rw [movesCommitted, publishedIn_append, hearlier.publishedIn, hpublished, hlater.publishedIn,
    List.nil_append, List.append_nil]

/-- `apply` announces the moves it commits. -/
theorem ApplyTrace.migrations {force : Bool} {result : OperationResult}
    (h : ApplyTrace service operation context force steps result) :
    migrationsPublished steps = movesCommitted steps := by
  unfold migrationsPublished
  cases h with
  | rejected hchecks hstatus =>
      rw [hchecks.kinds, movesCommitted, hchecks.quiet.publishedIn]
      rfl
  | @announced checks announcement answer world world' transactionId final failures result
      hchecks hid hannouncement hanswer =>
      have hquiet : QuietSteps (checks ++
          ⟨world, .makeTransactionId, transactionId, world'⟩ :: announcement) :=
        quietSteps_append hchecks.quiet (quietSteps_cons (by trivial) hid hannouncement.quiet)
      have hkinds : (checks ++ ⟨world, .makeTransactionId, transactionId, world'⟩ ::
          announcement).filterMap publishedKind = [.beforeMutation] := by
        rw [List.filterMap_append, hchecks.kinds]
        exact hannouncement.kinds
      rw [← List.cons_append, ← List.append_assoc, List.filterMap_append, hkinds]
      cases hanswer with
      | cancelled hcancels hstatus hrecords =>
          rw [hrecords.kinds, movesCommitted,
            (quietSteps_append hquiet hrecords.quiet).publishedIn]
          rfl
      | @refused before after error records hgoes hact hrecords =>
          rw [movesCommitted_of_quiet hquiet hrecords.quiet]
          show List.count _ (_ :: records.filterMap publishedKind) = 0
          rw [hrecords.kinds]
          rfl
      | @committed before after result publications records hgoes hact hpublications hrecords =>
          rw [movesCommitted_of_quiet hquiet
            (quietSteps_append hpublications.quiet hrecords.quiet)]
          show List.count _ (_ :: (publications ++ records).filterMap publishedKind) =
            (if result.ok then [(operation, result)] else []).countP _
          rw [List.filterMap_append, hpublications.kinds, hrecords.kinds]
          cases result.ok <;> cases hmove : isMigration operation <;> simp [hmove]

variable {transaction : DynamicPropertyTransaction}

/-- `transact` announces no moves. -/
theorem TransactTrace.migrations {result : TransactionResult}
    (h : TransactTrace service transaction context steps result) :
    migrationsPublished steps = 0 := by
  unfold migrationsPublished
  cases h with
  | empty hid hempty hstatus => rfl
  | rejected hid hchecks hstatus =>
      show List.count _ (List.filterMap publishedKind _) = 0
      rw [List.filterMap_cons, hchecks.kinds]
      rfl
  | @announced world world' transactionId checks announcement answer final failures result
      hid hchecks hannouncement hanswer =>
      have hkinds : ∀ rest : List ServiceStep,
          (⟨world, .makeTransactionId, transactionId, world'⟩ ::
            (checks ++ (announcement ++ rest))).filterMap publishedKind =
              .beforeTransaction :: rest.filterMap publishedKind := by
        intro rest
        show (checks ++ (announcement ++ rest)).filterMap publishedKind = _
        rw [List.filterMap_append, List.filterMap_append, hchecks.kinds, hannouncement.kinds]
        rfl
      rw [hkinds]
      cases hanswer with
      | cancelled hcancels hstatus hresult hrecords =>
          rw [hrecords.kinds]
          rfl
      | @refused before after commit error records result hgoes hact hout hstatus hrecords =>
          show List.count _ (_ :: records.filterMap publishedKind) = 0
          rw [hrecords.kinds]
          rfl
      | @committed before after commit result final' failures' publication records hgoes hact hout
          hpublication hrecords =>
          show List.count _ (_ :: (publication ++ records).filterMap publishedKind) = 0
          rw [List.filterMap_append, hpublication.kinds, hrecords.kinds]
          rfl

theorem not_commitsMove_of_quiet {step : ServiceStep} (h : Quiet step.request) :
    ¬ CommitsMove step := by
  obtain ⟨world, request, response, world'⟩ := step
  cases request with
  | commitTransact service transaction context collections => exact h.elim
  | _ => exact id

theorem QuietSteps.throughApply (h : QuietSteps steps) : steps.filter throughApply = [] := by
  apply List.filter_eq_nil_iff.mpr
  intro step hstep
  have hquiet := (h step hstep).1
  obtain ⟨world, request, response, world'⟩ := step
  cases request with
  | commitApply service operation context force => exact hquiet.elim
  | _ => exact Bool.false_ne_true

/-- What a finished call says about moves. -/
structure CountsMoves (steps : List ServiceStep) : Prop where
  /-- It announced the moves it committed through `apply`. -/
  announced : migrationsPublished steps = movesThroughApply steps
  bounded : movesThroughApply steps ≤ movesCommitted steps
  /-- They are all the moves it committed, unless a transaction committed one. -/
  complete : movesThroughApply steps = movesCommitted steps ↔ ∀ step ∈ steps, ¬ CommitsMove step

theorem ApplyTrace.countsMoves {force : Bool} {result : OperationResult}
    (h : ApplyTrace service operation context force steps result) : CountsMoves steps := by
  have hall : movesThroughApply steps = movesCommitted steps ∧
      ∀ step ∈ steps, ¬ CommitsMove step := by
    rcases h.commits with ⟨hquiet, -⟩ | ⟨earlier, world, outcome, world', later, rfl, hearlier,
      hlater, -, -⟩
    · rw [movesThroughApply, hquiet.throughApply, movesCommitted, movesCommitted,
        hquiet.publishedIn]
      exact ⟨rfl, fun step hstep => not_commitsMove_of_quiet (hquiet step hstep).1⟩
    · constructor
      · rw [movesThroughApply, List.filter_append, hearlier.throughApply,
          List.filter_cons_of_pos rfl, hlater.throughApply,
          movesCommitted_of_quiet quietSteps_nil quietSteps_nil,
          movesCommitted_of_quiet hearlier hlater]
      · intro step hstep
        rcases List.mem_append.mp hstep with hstep | hstep
        · exact not_commitsMove_of_quiet (hearlier step hstep).1
        rcases List.mem_cons.mp hstep with rfl | hstep
        · exact id
        · exact not_commitsMove_of_quiet (hlater step hstep).1
  exact ⟨h.migrations.trans hall.1.symm, Nat.le_of_eq hall.1, fun _ => hall.2, fun _ => hall.1⟩

/-- The moves of a committed transaction. -/
theorem moves_of_commit {world world' : World} {collections : List CollectionRef}
    {commit : TransactCommit}
    (hact : Acts world (.commitTransact service transaction context collections) commit world') :
    (publishedBy ⟨world, .commitTransact service transaction context collections, commit,
        world'⟩).countP (fun entry => isMigration entry.1) = 0 ↔
      ¬ CommitsMove ⟨world, .commitTransact service transaction context collections, commit,
        world'⟩ := by
  rcases acts_commitTransact hact with ⟨error, hout, -, -⟩ | ⟨hvalid, hout, -⟩
  · have hnone := commitError_of_refused hact hout
    simp only [publishedBy, hout, List.countP_nil, true_iff]
    exact fun hmove => hnone hmove.1
  by_cases happlies : world.adapter.AppliesAll transaction.operations transaction.force
  · obtain ⟨hstatus, -, hresults, -⟩ := InMemoryAdapter.transact_of_appliesAll happlies
    have hok : (world.adapter.transact transaction).1.ok = true := by
      simp [TransactionResult.ok, hstatus]
    have hlength : transaction.operations.length ≤
        (world.adapter.transact transaction).1.operationResults.length := by
      rw [hresults]
      exact (Sequence.length_of_succeeds (InMemoryAdapter.appliesAll_iff.mp happlies)).ge
    have hmoves : (publishedBy ⟨world, .commitTransact service transaction context collections,
        commit, world'⟩).map Prod.fst = transaction.operations := by
      simp only [publishedBy, hout, hok, if_true]
      exact List.map_fst_zip hlength
    have hcount : (publishedBy ⟨world, .commitTransact service transaction context collections,
        commit, world'⟩).countP (fun entry => isMigration entry.1) =
          transaction.operations.countP isMigration := by
      conv_rhs => rw [← hmoves, List.countP_map]
      rfl
    rw [hcount, List.countP_eq_zero]
    constructor
    · rintro hnone ⟨-, -, operation, hoperation, hmove⟩
      exact hnone operation hoperation hmove
    · exact fun hnot operation hoperation hmove =>
        hnot ⟨hvalid, happlies, operation, hoperation, hmove⟩
  · obtain ⟨hstatus, -, -, -⟩ := InMemoryAdapter.transact_of_not_appliesAll happlies
    have hok : (world.adapter.transact transaction).1.ok = false := by
      simp [TransactionResult.ok, hstatus]
    simp only [publishedBy, hout, hok, Bool.false_eq_true, if_false, List.countP_nil, true_iff]
    exact fun hmove => happlies hmove.2.1

theorem TransactTrace.countsMoves {result : TransactionResult}
    (h : TransactTrace service transaction context steps result) : CountsMoves steps := by
  have hall : movesThroughApply steps = 0 ∧
      (movesCommitted steps = 0 ↔ ∀ step ∈ steps, ¬ CommitsMove step) := by
    rcases h.commits with hquiet | ⟨earlier, world, commit, world', later, rfl, hearlier, hlater,
      hact⟩
    · rw [movesThroughApply, hquiet.throughApply, movesCommitted, movesCommitted,
        hquiet.publishedIn]
      exact ⟨rfl, fun _ step hstep => not_commitsMove_of_quiet (hquiet step hstep).1, fun _ => rfl⟩
    · constructor
      · rw [movesThroughApply, List.filter_append, hearlier.throughApply,
          List.filter_cons_of_neg Bool.false_ne_true, hlater.throughApply]
        rfl
      · rw [movesCommitted_of_quiet hearlier hlater, moves_of_commit hact]
        constructor
        · intro hnot step hstep
          rcases List.mem_append.mp hstep with hstep | hstep
          · exact not_commitsMove_of_quiet (hearlier step hstep).1
          rcases List.mem_cons.mp hstep with rfl | hstep
          · exact hnot
          · exact not_commitsMove_of_quiet (hlater step hstep).1
        · exact fun hnone => hnone _ (List.mem_append_right _ List.mem_cons_self)
  refine ⟨h.migrations.trans hall.1.symm, by omega, ?_⟩
  rw [hall.1, ← hall.2]
  exact eq_comm

end Calls

/-! ## Runs -/

/-- A call of `apply` or `transact`. -/
def IsMutation : ServiceCall → Prop
  | .apply _ _ _ _ => True
  | .transact _ _ _ => True
  | _ => False

theorem countsMoves_program (format : NumberFormat) {job : ServiceCall} (h : IsMutation job) :
    Ensures Acts (job.program format) fun steps _ => CountsMoves steps := by
  cases job with
  | apply service operation context force =>
      exact ensures_wrap (ensures_mono (apply_trace service operation context force)
        fun steps result htrace => htrace.countsMoves)
  | transact service transaction context =>
      exact ensures_wrap (ensures_mono (transact_trace service transaction context)
        fun steps result htrace => htrace.countsMoves)
  | _ => exact h.elim

/-- A count over the steps of several calls. -/
def totalOver (count : List ServiceStep → Nat)
    (calls : List (Call serviceInterface World ServiceCall CallResult)) : Nat :=
  (calls.map fun c => count c.steps).sum

theorem totalOver_counts {calls : List (Call serviceInterface World ServiceCall CallResult)}
    (h : ∀ c ∈ calls, CountsMoves c.steps) :
    totalOver migrationsPublished calls = totalOver movesThroughApply calls ∧
      totalOver movesThroughApply calls ≤ totalOver movesCommitted calls ∧
      (totalOver movesThroughApply calls = totalOver movesCommitted calls ↔
        ∀ c ∈ calls, ∀ step ∈ c.steps, ¬ CommitsMove step) := by
  induction calls with
  | nil => simp [totalOver]
  | cons c rest ih =>
      obtain ⟨hpublished, hbounded, hcomplete⟩ := ih fun d hd => h d (List.mem_cons_of_mem _ hd)
      have hc := h c List.mem_cons_self
      have hhead := hc.announced
      have hle := hc.bounded
      unfold totalOver at hpublished hbounded hcomplete ⊢
      simp only [List.map_cons, List.sum_cons, List.forall_mem_cons, ← hc.complete, ← hcomplete]
      omega

/-- **Which moves are announced.**  In every run of `apply` and `transact` calls, with
any listeners, the calls that have returned published one `CollectionMigrated` event
for each move they committed through `apply`; these are all the moves they committed
exactly when no transaction committed one. -/
theorem migrations_announced (format : NumberFormat) {init : World}
    {state : State serviceInterface World ServiceCall CallResult}
    (hrun : Pool.Run (serviceSystem format) init state)
    (hcalls : ∀ c ∈ state.calls, IsMutation c.job) :
    totalOver migrationsPublished state.finished = totalOver movesThroughApply state.finished ∧
      (totalOver migrationsPublished state.finished = totalOver movesCommitted state.finished ↔
        ∀ c ∈ state.finished, ∀ step ∈ c.steps, ¬ CommitsMove step) := by
  have hcounts : ∀ c ∈ state.finished, CountsMoves c.steps := by
    intro c hc
    obtain ⟨hmember, result, hreturned⟩ := State.mem_finished.mp hc
    have hexec := hrun.executes c hmember
    rw [show c.rest = done result from hreturned] at hexec
    exact countsMoves_program format (hcalls c hmember) _ _ hexec
  obtain ⟨hpublished, -, hcomplete⟩ := totalOver_counts hcounts
  exact ⟨hpublished, hpublished ▸ hcomplete⟩

/-! ### One move through `apply`, and one in a transaction -/

def oldPack : World :=
  { adapter :=
      { store := (∅ : Store).insert ⟨{}, text "old"⟩
          ((∅ : DynamicPropertyMap).insert (text "on") (.bool true)) } }

/-- Move the collection. -/
def movePack : DynamicPropertyOperation :=
  .transferCollection
    { source := ⟨{}, text "old"⟩, destination := ⟨{}, text "new"⟩, removeSource := true }

/-- The pool after one call has run alone. -/
def afterMove (job : ServiceCall) : State serviceInterface World ServiceCall CallResult :=
  (State.mk oldPack []).alone (serviceSystem silentFormat) respond job

def moveDirectly : ServiceCall := .apply {} movePack { rawAdmin := true } false

def moveInTransaction : ServiceCall :=
  .transact {} { operations := [movePack] } { rawAdmin := true }

/-- The theorem at the move through `apply`. -/
theorem migrations_announced_moveDirectly :
    totalOver migrationsPublished (afterMove moveDirectly).finished = 1 ∧
      (totalOver migrationsPublished (afterMove moveDirectly).finished =
          totalOver movesCommitted (afterMove moveDirectly).finished ↔
        ∀ c ∈ (afterMove moveDirectly).finished, ∀ step ∈ c.steps, ¬ CommitsMove step) := by
  have hrun : Pool.Run (serviceSystem silentFormat) oldPack (afterMove moveDirectly) :=
    Run.alone acts_respond .nil moveDirectly
  have hall := migrations_announced silentFormat hrun fun c hc => by
    rw [List.mem_singleton.mp hc]
    trivial
  exact ⟨by decide, hall.2⟩

/-- A transaction commits a move that nothing announces. -/
theorem moveInTransaction_unannounced :
    Pool.Run (serviceSystem silentFormat) oldPack (afterMove moveInTransaction) ∧
      (∀ c ∈ (afterMove moveInTransaction).calls, IsMutation c.job) ∧
      totalOver migrationsPublished (afterMove moveInTransaction).finished = 0 ∧
      totalOver movesCommitted (afterMove moveInTransaction).finished = 1 :=
  ⟨Run.alone acts_respond .nil moveInTransaction,
    fun c hc => by
      rw [List.mem_singleton.mp hc]
      trivial,
    by decide, by decide⟩

end DynamicProperties.Cpp
