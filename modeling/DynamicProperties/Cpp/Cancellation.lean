import DynamicProperties.Cpp.Traces

/-!
# Which cancellations hold

Every listener of a before event may object to it: leave it cancelled, or throw.
An objection that is heeded is final, on every path: the call returns
`Cancelled` and none of its steps asks for a commit.  But listeners share one
event, and the service looks at it only after the last of them.  A throw is
remembered, a cancellation is not: a later listener that clears the flag takes
it back.  So the objections are heeded exactly when one of the listeners threw or
the last one left the event cancelled.
-/

namespace DynamicProperties.Cpp

open DynamicProperties.Library.Requests
open DynamicProperties.Library.Requests.Program

/-! ## What the listeners of a kind of event answered -/

/-- The answer of a listener that was handed an event announced with this kind:
the event as it left it, and whether it threw. -/
def answerTo (kind : DynamicPropertyEventKind) :
    ServiceStep → Option (DynamicPropertyEvent × Bool)
  | ⟨_, .invoke _ published _ _, answer, _⟩ =>
      if published.kind = kind then some answer else none
  | _ => none

/-- All answers of a call's listeners to events of a kind, in order. -/
def answers (kind : DynamicPropertyEventKind) (steps : List ServiceStep) :
    List (DynamicPropertyEvent × Bool) :=
  steps.filterMap (answerTo kind)

/-- Leave the event cancelled, or throw. -/
def Objects (answer : DynamicPropertyEvent × Bool) : Prop :=
  answer.1.cancelled = true ∨ answer.2 = true

instance (answer : DynamicPropertyEvent × Bool) : Decidable (Objects answer) :=
  inferInstanceAs (Decidable (_ ∨ _))

/-- Some listener threw, or the last one left the event cancelled. -/
def Heeded (given : List (DynamicPropertyEvent × Bool)) : Prop :=
  (∃ answer ∈ given, answer.2 = true) ∨ ∃ last ∈ given.getLast?, last.1.cancelled = true

section Answers

variable {kind : DynamicPropertyEventKind}

@[simp] theorem answers_nil : answers kind [] = [] := rfl

theorem answers_append (first second : List ServiceStep) :
    answers kind (first ++ second) = answers kind first ++ answers kind second :=
  List.filterMap_append

theorem answers_cons_of_none {step : ServiceStep} (h : answerTo kind step = none)
    (steps : List ServiceStep) : answers kind (step :: steps) = answers kind steps := by
  rw [answers, List.filterMap_cons, h]
  rfl

theorem AllCaptures.answers {steps : List ServiceStep} (h : AllCaptures steps) :
    answers kind steps = [] := by
  apply List.filterMap_eq_nil_iff.mpr
  intro step hstep
  obtain ⟨world, ref, rfl⟩ := h step hstep
  rfl

theorem Recorded.answers {sink : Nat} {entries : List DynamicPropertyAuditRecord}
    {steps : List ServiceStep} (h : Recorded sink entries steps) : answers kind steps = [] := by
  induction h with
  | nil => rfl
  | cons hact _ ih => exact (answers_cons_of_none rfl _).trans ih

/-- The answers decide about the final event and the failures. -/
theorem Deliveries.heeded {published current final : DynamicPropertyEvent} {position : Nat}
    {listeners failures : List UInt64} {steps : List ServiceStep}
    (h : Deliveries published position listeners current steps final failures)
    (hkind : published.kind = kind) :
    (failures ≠ [] ↔ ∃ answer ∈ answers kind steps, answer.2 = true) ∧
      final = ((answers kind steps).getLast?.map Prod.fst).getD current := by
  induction h with
  | nil position current => simp
  | @cons position listener rest current world answer steps final failures _ ih =>
      have hanswer : answers kind (⟨world, .invoke listener published position current, answer,
          world⟩ :: steps) = answer :: answers kind steps := by
        rw [answers, List.filterMap_cons]
        simp only [answerTo, hkind, if_true]
        rfl
      rw [hanswer]
      constructor
      · rw [List.exists_mem_cons_iff, ← ih.1]
        cases answer.2 <;> simp
      · rw [ih.2]
        cases hlast : (answers kind steps).getLast? with
        | none => simp [List.getLast?_cons, hlast]
        | some last => simp [List.getLast?_cons, hlast]

theorem Deliveries.answers_of_ne {published current final : DynamicPropertyEvent}
    {position : Nat} {listeners failures : List UInt64} {steps : List ServiceStep}
    (h : Deliveries published position listeners current steps final failures)
    (hkind : published.kind ≠ kind) : answers kind steps = [] := by
  induction h with
  | nil position current => rfl
  | cons world answer _ ih =>
      rw [answers_cons_of_none]
      · exact ih
      · exact if_neg hkind

theorem Publication.answers_of_ne {bus : Nat} {event final : DynamicPropertyEvent}
    {failures : List UInt64} {steps : List ServiceStep}
    (h : Publication bus event steps final failures) (hkind : event.kind ≠ kind) :
    answers kind steps = [] := by
  cases h with
  | mk world hdeliveries =>
      exact (answers_cons_of_none rfl _).trans (hdeliveries.answers_of_ne hkind)

/-- An announcement of an event that is not cancelled yet: it is stopped exactly
when its listeners' objections are heeded. -/
theorem Announcement.cancels_iff {bus : Nat} {event final : DynamicPropertyEvent}
    {failures : List UInt64} {steps : List ServiceStep}
    (h : Announcement bus event steps final failures) (hkind : event.kind = kind)
    (hopen : event.cancelled = false) :
    Cancels final failures ↔ Heeded (answers kind steps) := by
  cases h with
  | mk snapshots hcaptures hpublication =>
      cases hpublication with
      | @mk world publication final failures hdeliveries =>
          obtain ⟨hfailures, hfinal⟩ := hdeliveries.heeded hkind
          rw [answers_append, hcaptures.answers, List.nil_append, answers_cons_of_none rfl]
          rw [Cancels, Heeded, hfailures, hfinal]
          cases hlast : (answers kind publication).getLast? with
          | none => simp [hopen]
          | some last => simp

theorem AfterPublications.answers_before {service : DynamicPropertyService}
    {operation : DynamicPropertyOperation} {context : AccessContext} {result : OperationResult}
    {transactionId : ByteString} {steps : List ServiceStep}
    (h : AfterPublications service .afterMutation operation context result transactionId steps) :
    answers .beforeMutation steps = [] := by
  have hkind : (DynamicPropertyEventKind.afterMutation) ≠ .beforeMutation := by decide
  have hmigrated : (DynamicPropertyEventKind.collectionMigrated) ≠ .beforeMutation := by decide
  cases h with
  | single hplain hevent => exact hevent.answers_of_ne hkind
  | migration hmigration hevent hsecond =>
      rw [answers_append, hevent.answers_of_ne hkind, hsecond.answers_of_ne hmigrated]
      rfl

end Answers

/-! ## Cancelled or committed -/

/-- The call returned `Cancelled`, never asked for a commit and kept the store. -/
def FailsClosed (status : DynamicPropertyStatus) (steps : List ServiceStep) : Prop :=
  status = .cancelled ∧ QuietSteps steps

/-- Nobody was asked, or the objections were heeded and the call failed closed,
or they were not and it asked for a commit. -/
def Decided (kind : DynamicPropertyEventKind) (status : DynamicPropertyStatus)
    (steps : List ServiceStep) : Prop :=
  answers kind steps = [] ∨ (Heeded (answers kind steps) ∧ FailsClosed status steps) ∨
    (¬ Heeded (answers kind steps) ∧ ∃ step ∈ steps, ¬ Quiet step.request)

/-- A call fails closed on every objection exactly when the objections, if any,
are heeded. -/
theorem Decided.heeded_iff {kind : DynamicPropertyEventKind}
    {status : DynamicPropertyStatus} {steps : List ServiceStep} (h : Decided kind status steps) :
    ((∃ answer ∈ answers kind steps, Objects answer) → FailsClosed status steps) ↔
      ((∃ answer ∈ answers kind steps, Objects answer) → Heeded (answers kind steps)) := by
  rcases h with hnone | ⟨hheeded, hclosed⟩ | ⟨hnot, step, hstep, hcommit⟩
  · rw [hnone]
    simp
  · exact ⟨fun _ _ => hheeded, fun _ _ => hclosed⟩
  · have hopen : ¬ FailsClosed status steps := fun hclosed => hcommit (hclosed.2 step hstep).1
    constructor
    · exact fun h hobjects => absurd (h hobjects) hopen
    · exact fun h hobjects => absurd (h hobjects) hnot

theorem ApplyTrace.decided {service : DynamicPropertyService}
    {operation : DynamicPropertyOperation} {context : AccessContext} {force : Bool}
    {steps : List ServiceStep} {result : OperationResult}
    (h : ApplyTrace service operation context force steps result) :
    Decided .beforeMutation result.status steps := by
  cases h with
  | rejected hchecks hstatus => exact Or.inl hchecks.answers
  | @announced checks announcement answer world world' transactionId final failures result
      hchecks hid hannouncement hanswer =>
      have hcancels : Cancels final failures ↔ Heeded (answers .beforeMutation announcement) :=
        hannouncement.cancels_iff rfl rfl
      have hanswers : ∀ later, answers .beforeMutation later = [] →
          answers .beforeMutation (checks ++ ⟨world, .makeTransactionId, transactionId, world'⟩ ::
            (announcement ++ later)) = answers .beforeMutation announcement := by
        intro later hlater
        rw [answers_append, hchecks.answers, List.nil_append, answers_cons_of_none rfl,
          answers_append, hlater, List.append_nil]
      have hquiet : ∀ later, QuietSteps later → QuietSteps (checks ++
          ⟨world, .makeTransactionId, transactionId, world'⟩ :: (announcement ++ later)) :=
        fun later hlater => quietSteps_append hchecks.quiet
          (quietSteps_cons (by trivial) hid (quietSteps_append hannouncement.quiet hlater))
      cases hanswer with
      | cancelled hheeded hstatus hrecords =>
          refine Or.inr (Or.inl ⟨?_, hstatus, hquiet _ hrecords.quiet⟩)
          rw [hanswers _ hrecords.answers]
          exact hcancels.mp hheeded
      | refused hgoes hact hrecords =>
          refine Or.inr (Or.inr ⟨?_, _, List.mem_append_right _ (List.mem_cons_of_mem _
            (List.mem_append_right _ List.mem_cons_self)), fun h => h⟩)
          rw [hanswers _ ((answers_cons_of_none rfl _).trans hrecords.answers)]
          exact fun h => hgoes (hcancels.mpr h)
      | committed hgoes hact hpublications hrecords =>
          refine Or.inr (Or.inr ⟨?_, _, List.mem_append_right _ (List.mem_cons_of_mem _
            (List.mem_append_right _ List.mem_cons_self)), fun h => h⟩)
          rw [hanswers _ ((answers_cons_of_none rfl _).trans (by
            rw [answers_append, hpublications.answers_before, hrecords.answers]; rfl))]
          exact fun h => hgoes (hcancels.mpr h)

theorem TransactTrace.decided {service : DynamicPropertyService}
    {transaction : DynamicPropertyTransaction} {context : AccessContext}
    {steps : List ServiceStep} {result : TransactionResult}
    (h : TransactTrace service transaction context steps result) :
    Decided .beforeTransaction result.status steps := by
  cases h with
  | empty hid hempty hstatus => exact Or.inl (answers_cons_of_none rfl _)
  | rejected hid hchecks hstatus =>
      exact Or.inl ((answers_cons_of_none rfl _).trans hchecks.answers)
  | @announced world world' transactionId checks announcement answer final failures result
      hid hchecks hannouncement hanswer =>
      have hcancels : Cancels final failures ↔ Heeded (answers .beforeTransaction announcement) :=
        hannouncement.cancels_iff rfl rfl
      have hanswers : ∀ later, answers .beforeTransaction later = [] →
          answers .beforeTransaction (⟨world, .makeTransactionId, transactionId, world'⟩ ::
            (checks ++ (announcement ++ later))) = answers .beforeTransaction announcement := by
        intro later hlater
        rw [answers_cons_of_none rfl, answers_append, hchecks.answers, List.nil_append,
          answers_append, hlater, List.append_nil]
      have hquiet : ∀ later, QuietSteps later → QuietSteps
          (⟨world, .makeTransactionId, transactionId, world'⟩ ::
            (checks ++ (announcement ++ later))) :=
        fun later hlater => quietSteps_cons (by trivial) hid
          (quietSteps_append hchecks.quiet (quietSteps_append hannouncement.quiet hlater))
      cases hanswer with
      | cancelled hheeded hstatus hresult hrecords =>
          refine Or.inr (Or.inl ⟨?_, hstatus, hquiet _ hrecords.quiet⟩)
          rw [hanswers _ hrecords.answers]
          exact hcancels.mp hheeded
      | refused hgoes hact hout hstatus hrecords =>
          refine Or.inr (Or.inr ⟨?_, _, List.mem_cons_of_mem _ (List.mem_append_right _
            (List.mem_append_right _ List.mem_cons_self)), fun h => h⟩)
          rw [hanswers _ ((answers_cons_of_none rfl _).trans hrecords.answers)]
          exact fun h => hgoes (hcancels.mpr h)
      | committed hgoes hact hout hpublication hrecords =>
          have hkind : (DynamicPropertyEventKind.afterTransaction) ≠ .beforeTransaction := by decide
          refine Or.inr (Or.inr ⟨?_, _, List.mem_cons_of_mem _ (List.mem_append_right _
            (List.mem_append_right _ List.mem_cons_self)), fun h => h⟩)
          rw [hanswers _ ((answers_cons_of_none rfl _).trans (by
            rw [answers_append, hpublication.answers_of_ne hkind, hrecords.answers]; rfl))]
          exact fun h => hgoes (hcancels.mpr h)

/-- **Objections that are heeded.**  A complete `apply` or `transact` fails closed
on every objection of a listener exactly when, if anybody objects, one of the
listeners threw or the last one left the event cancelled. -/
theorem failsClosed_iff (service : DynamicPropertyService) (context : AccessContext)
    (steps : List ServiceStep) :
    (∀ operation force result,
      Executes Acts (service.apply operation context force) steps (done result) →
      (((∃ answer ∈ answers .beforeMutation steps, Objects answer) →
          FailsClosed result.status steps) ↔
        ((∃ answer ∈ answers .beforeMutation steps, Objects answer) →
          Heeded (answers .beforeMutation steps)))) ∧
    (∀ transaction result,
      Executes Acts (service.transact transaction context) steps (done result) →
      (((∃ answer ∈ answers .beforeTransaction steps, Objects answer) →
          FailsClosed result.status steps) ↔
        ((∃ answer ∈ answers .beforeTransaction steps, Objects answer) →
          Heeded (answers .beforeTransaction steps)))) :=
  ⟨fun operation force result h =>
      (apply_trace service operation context force steps result h).decided.heeded_iff,
    fun transaction result h =>
      (transact_trace service transaction context steps result h).decided.heeded_iff⟩

/-! ### A cancellation taken back -/

/-- The idle answers, except that listeners follow a script. -/
def respondWith (script : UInt64 → DynamicPropertyEvent → DynamicPropertyEvent × Bool)
    (world : World) : (r : Request) → Response r × World
  | .invoke listener _ _ current => (script listener current, world)
  | r => respond world r

theorem acts_respondWith
    (script : UInt64 → DynamicPropertyEvent → DynamicPropertyEvent × Bool) (world : World)
    (r : Request) : Acts world r (respondWith script world r).1 (respondWith script world r).2 := by
  cases r with
  | invoke listener published position current => rfl
  | record sink entry => exact Or.inr rfl
  | _ => rfl

/-- The first listener cancels, the others clear the flag. -/
def cancelThenClear (listener : UInt64) (current : DynamicPropertyEvent) :
    DynamicPropertyEvent × Bool :=
  ({ current with cancelled := listener = 1 }, false)

/-- A world with two listeners for every event. -/
def twoListeners : World :=
  (({} : World).updateBus 0 fun bus => (bus.subscribe {}).2).updateBus 0
    fun bus => (bus.subscribe {}).2

/-- A write of one property. -/
def titleWrite : ServiceProgram OperationResult :=
  ({} : DynamicPropertyService).apply
    (.setProperty { ref := ⟨{}, text "notes"⟩, key := text "title", value := .bool true })
    { rawAdmin := true }

/-- Its steps and its result when the second listener clears the flag. -/
def clearedSteps : List ServiceStep :=
  runSteps (respondWith cancelThenClear) titleWrite twoListeners

def clearedResult : OperationResult :=
  (run (respondWith cancelThenClear) titleWrite twoListeners).1

/-- The equivalence at that write. -/
theorem failsClosed_iff_cleared :
    ((∃ answer ∈ answers .beforeMutation clearedSteps, Objects answer) →
        FailsClosed clearedResult.status clearedSteps) ↔
      ((∃ answer ∈ answers .beforeMutation clearedSteps, Objects answer) →
        Heeded (answers .beforeMutation clearedSteps)) :=
  (failsClosed_iff {} { rawAdmin := true } clearedSteps).1 _ false clearedResult
    (executes_run (acts_respondWith cancelThenClear) titleWrite twoListeners)

/-- A listener cancelled it, and it was applied all the same. -/
theorem cleared_not_failsClosed :
    Executes Acts titleWrite clearedSteps (done clearedResult) ∧
      (∃ answer ∈ answers .beforeMutation clearedSteps, Objects answer) ∧
      clearedResult.status = .applied ∧ ¬ FailsClosed clearedResult.status clearedSteps := by
  have happlied : clearedResult.status = .applied := by decide
  refine ⟨executes_run (acts_respondWith cancelThenClear) titleWrite twoListeners,
    by decide, happlied, fun hclosed => ?_⟩
  rw [happlied] at hclosed
  exact absurd hclosed.1 (by decide)

end DynamicProperties.Cpp
