import DynamicProperties.Library.Sequence
import DynamicProperties.Cpp.Effects

/-!
# Applying operations to a store

`applyUnlocked` decides in three stages: the guard on contradictory
expectations, the captures with their revision checks, and the visitor.
`Accepts` says when all three let an operation through, and the theorems below
say what the function returns in either case, so that no later proof unfolds it:

* `applyUnlocked_of_accepts` and `applyUnlocked_of_refuses` give the result;
* `applyUnlocked_ok_iff` and `contents_applyUnlocked` give status and store.

The second half is `transact` of the adapter: its accumulating loop returns what
applying the operations one after another returns.
-/

namespace DynamicProperties.Cpp

open Std
open DynamicProperties.Library.Footprint
open DynamicProperties.Library

/-! ## Captures -/

/-- The snapshot of a reference in an abstract store. -/
def snapshotAt (look : Contents) (ref : CollectionRef) : CollectionSnapshot :=
  makeSnapshot ref ((look ref).getD ∅) (look ref).isSome

/-- The revision a capture of a reference reports. -/
def revisionAt (look : Contents) (ref : CollectionRef) : UInt64 := (snapshotAt look ref).revision

theorem captureUnlocked_available {availability : Availability} {store : Store}
    {ref : CollectionRef} (h : targetAvailable availability ref.target = true) :
    (captureUnlocked availability store ref).snapshot = some (snapshotAt (contents store) ref) := by
  unfold captureUnlocked snapshotAt contents
  rw [h]
  cases store[ref]? <;> rfl

theorem captureUnlocked_ok {availability : Availability} {store : Store} {ref : CollectionRef}
    (h : targetAvailable availability ref.target = true) :
    (captureUnlocked availability store ref).ok = true := by
  unfold captureUnlocked
  rw [h]
  cases store[ref]? <;> rfl

theorem captureUnlocked_unavailable {availability : Availability} {store : Store}
    {ref : CollectionRef} (h : targetAvailable availability ref.target = false) :
    captureUnlocked availability store ref =
      { status := .targetUnavailable, message := text "target is unavailable" } := by
  simp [captureUnlocked, h]

/-- A capture reads nothing but the collection it names. -/
theorem captureUnlocked_congr {availability : Availability} {store store' : Store}
    {ref : CollectionRef} (h : contents store ref = contents store' ref) :
    captureUnlocked availability store ref = captureUnlocked availability store' ref := by
  unfold captureUnlocked
  rw [show store[ref]? = store'[ref]? from h]

/-! ## Participants -/

theorem mem_firstMentions {ref : CollectionRef} {refs : List CollectionRef} :
    ∀ {seen : List CollectionRef}, ref ∈ firstMentions seen refs ↔ ref ∈ refs ∧ ref ∉ seen := by
  induction refs with
  | nil => simp [firstMentions]
  | cons head rest ih =>
      intro seen
      by_cases hseen : head ∈ seen
      · rw [firstMentions, if_pos hseen, ih, List.mem_cons]
        constructor
        · rintro ⟨hrest, hnot⟩
          exact ⟨Or.inr hrest, hnot⟩
        · rintro ⟨rfl | hrest, hnot⟩
          · exact absurd hseen hnot
          · exact ⟨hrest, hnot⟩
      · rw [firstMentions, if_neg hseen, List.mem_cons, ih, List.mem_cons, List.mem_cons]
        constructor
        · rintro (rfl | ⟨hrest, hnot⟩)
          · exact ⟨Or.inl rfl, hseen⟩
          · exact ⟨Or.inr hrest, fun h => hnot (Or.inr h)⟩
        · rintro ⟨rfl | hrest, hnot⟩
          · exact Or.inl rfl
          · by_cases heq : ref = head
            · exact Or.inl heq
            · exact Or.inr ⟨hrest, by rintro (h | h) <;> contradiction⟩

@[simp] theorem mem_participants {operation : DynamicPropertyOperation} {ref : CollectionRef} :
    ref ∈ participants operation ↔ ref ∈ operationCollections operation := by
  simp [participants, mem_firstMentions]

/-! ## Expectations -/

/-- The expectations a caller may supply, each with the collection it is about. -/
def suppliedExpectations :
    DynamicPropertyOperation → List (CollectionRef × ExpectedRevision)
  | .setProperty entry => [(entry.ref, entry.expectedRevision)]
  | .setMany entry => [(entry.ref, entry.expectedRevision)]
  | .removeProperty entry => [(entry.ref, entry.expectedRevision)]
  | .removeMany entry => [(entry.ref, entry.expectedRevision)]
  | .clearCollection entry => [(entry.ref, entry.expectedRevision)]
  | .renameCollection entry =>
      [(entry.sourceRef, entry.expectedSourceRevision),
        (entry.destinationRef, entry.expectedDestinationRevision)]
  | .transferProperty entry =>
      [(entry.source, entry.expectedSourceRevision),
        (entry.destination, entry.expectedDestinationRevision)]
  | .transferCollection entry =>
      [(entry.source, entry.expectedSourceRevision),
        (entry.destination, entry.expectedDestinationRevision)]
  | .importCollection entry => [(entry.destination, entry.expectedDestinationRevision)]

/-- The lookup of `applyUnlocked` only finds supplied expectations. -/
theorem expectedRevision_supplied {operation : DynamicPropertyOperation} {ref : CollectionRef}
    {expected : UInt64} (h : expectedRevision operation ref = some expected) :
    (ref, some expected) ∈ suppliedExpectations operation := by
  cases operation with
  | setProperty entry | setMany entry | removeProperty entry | removeMany entry
  | clearCollection entry | importCollection entry =>
      simp only [expectedRevision] at h
      split at h
      · rename_i href
        simp [suppliedExpectations, ← href, h]
      · cases h
  | renameCollection entry | transferCollection entry =>
      simp only [expectedRevision] at h
      split at h
      · rename_i href
        simp [suppliedExpectations, ← href, h]
      split at h
      · rename_i href
        simp [suppliedExpectations, ← href, h]
      · cases h
  | transferProperty entry =>
      simp only [expectedRevision] at h
      split at h
      · rename_i href
        split at h
        · simp [suppliedExpectations, ← href.1, h]
        · simp [suppliedExpectations, ← href.2, h]
      split at h
      · rename_i href
        simp [suppliedExpectations, ← href, h]
      split at h
      · rename_i href
        simp [suppliedExpectations, ← href, h]
      · cases h

/-- The operation carries no expected revision. -/
def CarriesNoExpectation (operation : DynamicPropertyOperation) : Prop :=
  ∀ entry ∈ suppliedExpectations operation, entry.2 = none

instance (operation : DynamicPropertyOperation) : Decidable (CarriesNoExpectation operation) :=
  inferInstanceAs (Decidable (∀ entry ∈ suppliedExpectations operation, entry.2 = none))

theorem CarriesNoExpectation.expectedRevision {operation : DynamicPropertyOperation}
    (h : CarriesNoExpectation operation) (ref : CollectionRef) :
    expectedRevision operation ref = none := by
  cases hexpected : Cpp.expectedRevision operation ref with
  | none => rfl
  | some expected => exact absurd (h _ (expectedRevision_supplied hexpected)) (by simp)

theorem CarriesNoExpectation.consistent {operation : DynamicPropertyOperation}
    (h : CarriesNoExpectation operation) : conflictingExpectations operation = false := by
  cases operation with
  | transferProperty entry =>
      have hs : entry.expectedSourceRevision = none :=
        h (entry.source, entry.expectedSourceRevision) (by simp [suppliedExpectations])
      simp [conflictingExpectations, hs]
  | _ => rfl

/-! ## The three stages of `applyUnlocked` -/

/-- The revision expected of a collection, if any, is its current one. -/
def MeetsExpectation (operation : DynamicPropertyOperation) (look : Contents)
    (ref : CollectionRef) : Prop :=
  ∀ expected ∈ expectedRevision operation ref, expected = revisionAt look ref

instance (operation : DynamicPropertyOperation) (look : Contents) (ref : CollectionRef) :
    Decidable (MeetsExpectation operation look ref) :=
  inferInstanceAs (Decidable (∀ expected ∈ expectedRevision operation ref, _))

/-- Every stage of `applyUnlocked` lets the operation through. -/
structure Accepts (availability : Availability) (look : Contents)
    (operation : DynamicPropertyOperation) (force : Bool) : Prop where
  consistent : conflictingExpectations operation = false
  available : ∀ ref ∈ operationCollections operation, targetAvailable availability ref.target = true
  current : force = false → ∀ ref ∈ operationCollections operation,
    MeetsExpectation operation look ref
  planned : ∃ plan, effect operation look = .ok plan

/-- The statuses a refused operation may carry. -/
def IsRefusal (status : DynamicPropertyStatus) : Prop :=
  status = .invalidValue ∨ status = .targetUnavailable ∨ status = .conflict ∨ status = .notFound

theorem IsRefusal.ne_applied {status : DynamicPropertyStatus} (h : IsRefusal status) :
    status ≠ .applied := by
  rcases h with rfl | rfl | rfl | rfl <;> decide

section Stages

variable (availability : Availability) (store : Store) (operation : DynamicPropertyOperation)
  (force : Bool)

/-- The capture loop succeeds with all snapshots, or refuses. -/
theorem checkParticipants_cases (refs : List CollectionRef) :
    ∀ before : List CollectionSnapshot,
      ((∀ ref ∈ refs, targetAvailable availability ref.target = true ∧
          (force = false → MeetsExpectation operation (contents store) ref)) ∧
        checkParticipants availability store operation force refs before =
          .ok (before ++ refs.map (snapshotAt (contents store)))) ∨
      ((∃ ref ∈ refs, ¬ (targetAvailable availability ref.target = true ∧
          (force = false → MeetsExpectation operation (contents store) ref))) ∧
        ∃ result, IsRefusal result.status ∧
          checkParticipants availability store operation force refs before = .error result) := by
  induction refs with
  | nil => exact fun before => Or.inl ⟨by simp, by simp [checkParticipants]⟩
  | cons ref rest ih =>
      intro before
      by_cases havail : targetAvailable availability ref.target = true
      · by_cases hmeets : force = false → MeetsExpectation operation (contents store) ref
        · have hskip : ¬ (!force ∧ ∃ expected ∈ expectedRevision operation ref,
              expected ≠ (snapshotAt (contents store) ref).revision) := by
            rintro ⟨hforce, expected, hmem, hne⟩
            exact hne (hmeets (by simpa using hforce) expected hmem)
          have hstep : checkParticipants availability store operation force (ref :: rest) before =
              checkParticipants availability store operation force rest
                (before ++ [snapshotAt (contents store) ref]) := by
            simp only [checkParticipants, captureUnlocked_available havail]
            rw [if_neg hskip]
          rcases ih (before ++ [snapshotAt (contents store) ref]) with ⟨hall, hok⟩ | ⟨hbad, herr⟩
          · refine Or.inl ⟨?_, ?_⟩
            · intro r hr
              rcases List.mem_cons.mp hr with rfl | htail
              · exact ⟨havail, hmeets⟩
              · exact hall r htail
            · rw [hstep, hok, List.append_assoc]
              rfl
          · obtain ⟨r, hr, hnot⟩ := hbad
            exact Or.inr ⟨⟨r, List.mem_cons_of_mem _ hr, hnot⟩, by rw [hstep]; exact herr⟩
        · refine Or.inr ⟨⟨ref, List.mem_cons_self, fun h => hmeets h.2⟩, ?_⟩
          have hstop : !force ∧ ∃ expected ∈ expectedRevision operation ref,
              expected ≠ (snapshotAt (contents store) ref).revision := by
            simp only [Classical.not_imp, MeetsExpectation, not_forall] at hmeets
            obtain ⟨hforce, expected, hmem, hne⟩ := hmeets
            exact ⟨by simp [hforce], expected, hmem, hne⟩
          refine ⟨failure .conflict (text "collection revision changed")
            (before ++ [snapshotAt (contents store) ref]), Or.inr (Or.inr (Or.inl rfl)), ?_⟩
          simp only [checkParticipants, captureUnlocked_available havail]
          rw [if_pos hstop]
      · refine Or.inr ⟨⟨ref, List.mem_cons_self, fun h => havail h.1⟩, ?_⟩
        have hun : targetAvailable availability ref.target = false := by simpa using havail
        refine ⟨failure .targetUnavailable (text "target is unavailable") before,
          Or.inr (Or.inl rfl), ?_⟩
        simp only [checkParticipants, captureUnlocked_unavailable hun]

/-- The snapshots of the participants in an abstract store. -/
def participantSnapshots (look : Contents) (operation : DynamicPropertyOperation) :
    List CollectionSnapshot :=
  (participants operation).map (snapshotAt look)

variable {availability store operation force}

/-- What an accepted operation returns. -/
theorem applyUnlocked_of_accepts
    (h : Accepts availability (contents store) operation force) :
    applyUnlocked availability store operation force =
      ({ status := .applied, message := text "applied"
         before := participantSnapshots (contents store) operation
         after := participantSnapshots (contents (mutate store operation).1) operation
         resultingRevision :=
           ((participantSnapshots (contents (mutate store operation).1) operation).getLast?.map
             (·.revision)).getD 0 },
        (mutate store operation).1) := by
  unfold applyUnlocked
  rw [h.consistent]
  rcases checkParticipants_cases availability store operation force (participants operation) [] with
    ⟨-, hok⟩ | ⟨⟨ref, href, hnot⟩, -⟩
  · rw [hok]
    have hplanned := (mutate_failure_iff store operation).mpr h.planned
    have hafter : ∀ look : Store, (participants operation).filterMap
        (fun ref => (captureUnlocked availability look ref).snapshot) =
          participantSnapshots (contents look) operation := by
      intro look
      rw [participantSnapshots, ← List.filterMap_eq_map]
      apply List.filterMap_congr
      intro ref href
      exact captureUnlocked_available (h.available ref (mem_participants.mp href))
    cases hmutate : mutate store operation with
    | mk store' failed =>
        rw [hmutate] at hplanned
        cases hplanned
        simp only [Bool.false_eq_true, if_false, hafter, List.nil_append]
        rfl
  · exact absurd ⟨h.available ref (mem_participants.mp href),
      fun hforce => h.current hforce ref (mem_participants.mp href)⟩ hnot

/-- What a refused operation returns: a refusal, and the store untouched. -/
theorem applyUnlocked_of_refuses
    (h : ¬ Accepts availability (contents store) operation force) :
    IsRefusal (applyUnlocked availability store operation force).1.status ∧
      (applyUnlocked availability store operation force).2 = store := by
  unfold applyUnlocked
  split
  · exact ⟨Or.inl rfl, rfl⟩
  rename_i hconsistent
  rcases checkParticipants_cases availability store operation force (participants operation) [] with
    ⟨hall, hok⟩ | ⟨-, result, hstatus, herr⟩
  · rw [hok]
    dsimp only
    have hplanned : ¬ ∃ plan, effect operation (contents store) = .ok plan := by
      intro hplan
      exact h ⟨by simpa using hconsistent,
        fun ref href => (hall ref (mem_participants.mpr href)).1,
        fun hforce ref href => (hall ref (mem_participants.mpr href)).2 hforce, hplan⟩
    rw [← mutate_failure_iff] at hplanned
    obtain ⟨failed, hfailed⟩ := Option.ne_none_iff_exists'.mp hplanned
    have hstatus := effect_refusal (effect_of_failure hfailed)
    rw [mutate_of_failure hfailed]
    exact ⟨Or.inr (Or.inr hstatus), rfl⟩
  · rw [herr]
    exact ⟨hstatus, rfl⟩

theorem applyUnlocked_ok_iff :
    (applyUnlocked availability store operation force).1.ok = true ↔
      Accepts availability (contents store) operation force := by
  by_cases h : Accepts availability (contents store) operation force
  · rw [applyUnlocked_of_accepts h]
    exact ⟨fun _ => h, fun _ => rfl⟩
  · have hstatus := (applyUnlocked_of_refuses h).1.ne_applied
    simp [OperationResult.ok, hstatus, h]

theorem applyUnlocked_store_of_not_ok
    (h : (applyUnlocked availability store operation force).1.ok = false) :
    (applyUnlocked availability store operation force).2 = store := by
  apply (applyUnlocked_of_refuses _).2
  rw [← applyUnlocked_ok_iff, h]
  exact Bool.false_ne_true

/-- An accepted operation takes its abstract step; a refused one takes none. -/
theorem contents_applyUnlocked_of_ok
    (h : (applyUnlocked availability store operation force).1.ok = true) :
    contents (applyUnlocked availability store operation force).2 =
      run (effect operation) (contents store) := by
  rw [applyUnlocked_of_accepts (applyUnlocked_ok_iff.mp h)]
  exact contents_mutate_eq_run store operation

/-- Collections an operation does not name keep their contents. -/
theorem contents_applyUnlocked_frame {ref : CollectionRef}
    (href : ref ∉ operationCollections operation) :
    contents (applyUnlocked availability store operation force).2 ref = contents store ref := by
  by_cases h : (applyUnlocked availability store operation force).1.ok = true
  · rw [contents_applyUnlocked_of_ok h]
    exact (effect_footprint operation).run_frame (contents store) href
  · rw [applyUnlocked_store_of_not_ok (by simpa using h)]

end Stages

/-! ## Transactions of the adapter -/

namespace InMemoryAdapter

open Sequence

/-- One operation of a sequence: `apply` on the adapter. -/
abbrev applyStep (force : Bool) (operation : DynamicPropertyOperation)
    (adapter : InMemoryAdapter) : OperationResult × InMemoryAdapter :=
  adapter.apply operation force

/-- Apply operations one after another, up to and including the first that is
not applied. -/
def applyEach (adapter : InMemoryAdapter) (operations : List DynamicPropertyOperation)
    (force : Bool) : List OperationResult × InMemoryAdapter :=
  runUntil (applyStep force) OperationResult.ok operations adapter

/-- Every operation of the list is applied. -/
def AppliesAll (adapter : InMemoryAdapter) (operations : List DynamicPropertyOperation)
    (force : Bool) : Prop :=
  ∀ result ∈ (adapter.applyEach operations force).1, result.status = .applied

instance (adapter : InMemoryAdapter) (operations : List DynamicPropertyOperation) (force : Bool) :
    Decidable (adapter.AppliesAll operations force) :=
  inferInstanceAs (Decidable (∀ result ∈ (adapter.applyEach operations force).1, _))

section ApplyEach

variable {adapter : InMemoryAdapter} {operation : DynamicPropertyOperation} {force : Bool}

theorem applyEach_cons_of_ok (h : (adapter.apply operation force).1.ok = true)
    (rest : List DynamicPropertyOperation) :
    adapter.applyEach (operation :: rest) force =
      ((adapter.apply operation force).1 ::
          ((adapter.apply operation force).2.applyEach rest force).1,
        ((adapter.apply operation force).2.applyEach rest force).2) := by
  have hstep : OperationResult.ok (applyStep force operation adapter).1 = true := h
  exact runUntil_cons_of_ok hstep rest

theorem applyEach_cons_of_not_ok (h : (adapter.apply operation force).1.ok = false)
    (rest : List DynamicPropertyOperation) :
    adapter.applyEach (operation :: rest) force =
      ([(adapter.apply operation force).1], (adapter.apply operation force).2) := by
  have hstep : OperationResult.ok (applyStep force operation adapter).1 = false := h
  exact runUntil_cons_of_not_ok hstep rest

end ApplyEach

theorem appliesAll_iff {adapter : InMemoryAdapter} {operations : List DynamicPropertyOperation}
    {force : Bool} :
    adapter.AppliesAll operations force ↔
      Succeeds (applyStep force) OperationResult.ok operations adapter := by
  rw [succeeds_iff]
  simp [AppliesAll, applyEach, OperationResult.ok]

@[simp] theorem apply_store (adapter : InMemoryAdapter) (operation : DynamicPropertyOperation)
    (force : Bool) :
    (adapter.apply operation force).2.store =
      (applyUnlocked adapter.availability adapter.store operation force).2 := rfl

@[simp] theorem apply_availability (adapter : InMemoryAdapter)
    (operation : DynamicPropertyOperation) (force : Bool) :
    (adapter.apply operation force).2.availability = adapter.availability := rfl

@[simp] theorem apply_result (adapter : InMemoryAdapter) (operation : DynamicPropertyOperation)
    (force : Bool) :
    (adapter.apply operation force).1 =
      (applyUnlocked adapter.availability adapter.store operation force).1 := rfl

/-- The accumulating loop of `transact` against the sequential application: its
candidate store and results are those of `applyEach`, on top of what was
accumulated before. -/
private theorem transactLoop_spec (force rollbackOnFailure : Bool)
    (operations : List DynamicPropertyOperation) :
    ∀ (adapter : InMemoryAdapter) (out : TransactionResult),
      (adapter.AppliesAll operations force ∧
        transactLoop adapter.availability force rollbackOnFailure operations adapter.store out =
          ({ out with
              status := .applied, message := text "transaction applied atomically"
              operationResults := out.operationResults ++ (adapter.applyEach operations force).1 },
            some (adapter.applyEach operations force).2.store)) ∨
      (¬ adapter.AppliesAll operations force ∧ ∃ message,
        transactLoop adapter.availability force rollbackOnFailure operations adapter.store out =
          ({ out with
              status := .transactionFailed, message, rolledBack := rollbackOnFailure
              operationResults := out.operationResults ++ (adapter.applyEach operations force).1 },
            none)) := by
  induction operations with
  | nil =>
      intro adapter out
      refine Or.inl ⟨fun result h => by simp [applyEach] at h, ?_⟩
      simp [transactLoop, applyEach]
  | cons operation rest ih =>
      intro adapter out
      by_cases hok : (adapter.apply operation force).1.ok = true
      · have heach := applyEach_cons_of_ok hok rest
        have hall : adapter.AppliesAll (operation :: rest) force ↔
            (adapter.apply operation force).2.AppliesAll rest force := by
          rw [appliesAll_iff, appliesAll_iff]
          exact ⟨fun h => h.2, fun h => ⟨hok, h⟩⟩
        have hstep : transactLoop adapter.availability force rollbackOnFailure (operation :: rest)
            adapter.store out =
              transactLoop adapter.availability force rollbackOnFailure rest
                (adapter.apply operation force).2.store
                { out with operationResults :=
                    out.operationResults ++ [(adapter.apply operation force).1] } := by
          rw [apply_result] at hok
          simp [transactLoop, hok]
        rw [hall, heach, hstep]
        rcases ih (adapter.apply operation force).2
            { out with operationResults :=
                out.operationResults ++ [(adapter.apply operation force).1] } with
          ⟨happlied, hloop⟩ | ⟨hfailed, message, hloop⟩
        · refine Or.inl ⟨happlied, ?_⟩
          rw [apply_availability] at hloop
          rw [hloop]
          simp
        · refine Or.inr ⟨hfailed, message, ?_⟩
          rw [apply_availability] at hloop
          rw [hloop]
          simp
      · have hbad : (adapter.apply operation force).1.ok = false := by simpa using hok
        have heach := applyEach_cons_of_not_ok hbad rest
        refine Or.inr ⟨fun hall => hok ?_, (adapter.apply operation force).1.message, ?_⟩
        · exact (appliesAll_iff.mp hall).1
        · rw [heach]
          rw [apply_result] at hbad ⊢
          simp [transactLoop, hbad]

/-- When every operation applies, `transact` publishes the sequential result. -/
theorem transact_of_appliesAll {adapter : InMemoryAdapter}
    {transaction : DynamicPropertyTransaction}
    (h : adapter.AppliesAll transaction.operations transaction.force) :
    (adapter.transact transaction).1.status = .applied ∧
      (adapter.transact transaction).1.rolledBack = false ∧
      (adapter.transact transaction).1.operationResults =
        (adapter.applyEach transaction.operations transaction.force).1 ∧
      (adapter.transact transaction).2.store =
        (adapter.applyEach transaction.operations transaction.force).2.store := by
  rcases transactLoop_spec transaction.force transaction.rollbackOnFailure transaction.operations
      adapter { transactionId := text "memtx-" ++ decimal adapter.transactionCounter } with
    ⟨-, hloop⟩ | ⟨hfailed, -⟩
  · simp [transact, hloop]
  · exact absurd h hfailed

/-- When some operation does not apply, `transact` publishes nothing. -/
theorem transact_of_not_appliesAll {adapter : InMemoryAdapter}
    {transaction : DynamicPropertyTransaction}
    (h : ¬ adapter.AppliesAll transaction.operations transaction.force) :
    (adapter.transact transaction).1.status = .transactionFailed ∧
      (adapter.transact transaction).1.rolledBack = transaction.rollbackOnFailure ∧
      (adapter.transact transaction).1.operationResults =
        (adapter.applyEach transaction.operations transaction.force).1 ∧
      (adapter.transact transaction).2.store = adapter.store := by
  rcases transactLoop_spec transaction.force transaction.rollbackOnFailure transaction.operations
      adapter { transactionId := text "memtx-" ++ decimal adapter.transactionCounter } with
    ⟨happlied, -⟩ | ⟨-, message, hloop⟩
  · exact absurd happlied h
  · simp [transact, hloop]

@[simp] theorem transact_availability (adapter : InMemoryAdapter)
    (transaction : DynamicPropertyTransaction) :
    (adapter.transact transaction).2.availability = adapter.availability := by
  unfold transact
  dsimp only
  split <;> rfl

end InMemoryAdapter

end DynamicProperties.Cpp
