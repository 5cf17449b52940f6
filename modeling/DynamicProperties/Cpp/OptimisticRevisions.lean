import Mathlib.Algebra.BigOperators.Ring.Finset
import DynamicProperties.Cpp.Traces

/-!
# Optimistic revisions lose no update

A write on one collection that carries a revision and is applied was committed
on that revision, whatever other calls did between its checks and its commit.

From this follows the pattern the revisions are for.  Clients that capture a
counter and write its successor under the captured revision never overwrite each
other: when distinct contents have distinct revisions, an applied write found
the captured contents again, so it counted one step from them.  Summed over all
steps of a run, the counter has moved by the number of applied writes.

What a counter value is stays open: `count` reads a value as a number and `next`
computes the value after it.
-/

namespace DynamicProperties.Cpp

open Std
open DynamicProperties.Library
open DynamicProperties.Library.Requests
open DynamicProperties.Library.Requests.Program
open DynamicProperties.Library.Pool

/-! ## One write under an expected revision -/

/-- These steps hold exactly one commit: of this operation, applied with this
result, on a store where the collection had this revision. -/
def CommittedAt (service : DynamicPropertyService) (operation : DynamicPropertyOperation)
    (context : AccessContext) (result : OperationResult) (ref : CollectionRef)
    (revision : UInt64) (steps : List ServiceStep) : Prop :=
  ∃ earlier world world' later,
    steps = earlier ++
      ⟨world, .commitApply service operation context false, .ok result, world'⟩ :: later ∧
    QuietSteps earlier ∧ QuietSteps later ∧
    revisionAt (contents world.adapter.store) ref = revision ∧
    contents world'.adapter.store = Footprint.run (effect operation) (contents world.adapter.store)

theorem QuietSteps.storeKept {steps : List ServiceStep} (h : QuietSteps steps) :
    StoreKept steps :=
  fun step hstep => (h step hstep).2

/-- The lookup finds the only expectation of a write on one collection. -/
theorem expectedRevision_of_single {operation : DynamicPropertyOperation} {ref : CollectionRef}
    {revision : UInt64} (h : suppliedExpectations operation = [(ref, some revision)]) :
    expectedRevision operation ref = some revision ∧ ref ∈ operationCollections operation := by
  cases operation with
  | setProperty entry | setMany entry | removeProperty entry | removeMany entry
  | clearCollection entry | importCollection entry =>
      simp only [suppliedExpectations, List.cons.injEq, Prod.mk.injEq, and_true] at h
      obtain ⟨rfl, hexpected⟩ := h
      simp [expectedRevision, operationCollections, hexpected]
  | renameCollection entry | transferProperty entry | transferCollection entry =>
      simp [suppliedExpectations] at h

/-- A complete `apply` under an expected revision is not applied and keeps the
store, or was committed on that revision. -/
theorem apply_committedAt (service : DynamicPropertyService)
    {operation : DynamicPropertyOperation} (context : AccessContext) {ref : CollectionRef}
    {revision : UInt64} (hexpects : suppliedExpectations operation = [(ref, some revision)]) :
    Ensures Acts (service.apply operation context false) fun steps result =>
      (StoreKept steps ∧ result.status ≠ .applied) ∨
        (CommittedAt service operation context result ref revision steps ∧
          result.status = .applied) := by
  refine ensures_mono (apply_trace service operation context false) fun steps result htrace => ?_
  rcases htrace.commits with ⟨hquiet, hstatus⟩ |
    ⟨earlier, world, outcome, world', later, rfl, hearlier, hlater, hact, hresult⟩
  · exact Or.inl ⟨hquiet.storeKept, hstatus⟩
  have hkept (h : world'.adapter.store = world.adapter.store) : StoreKept (earlier ++
      ⟨world, .commitApply service operation context false, outcome, world'⟩ :: later) :=
    storeKept_append hearlier.storeKept (storeKept_cons h hlater.storeKept)
  rcases acts_commitApply hact with ⟨error, rfl, herror, hadapter⟩ | ⟨rfl, hadapter⟩
  · have hsame : error = result := by
      rcases hresult with h | h
      · exact Except.error.inj h
      · cases h
    exact Or.inl ⟨hkept (by rw [hadapter]), hsame ▸ herror.1⟩
  · have hsame : (world.adapter.apply operation false).1 = result := by
      rcases hresult with h | h
      · cases h
      · exact Except.ok.inj h
    subst hsame
    by_cases hok : (world.adapter.apply operation false).1.ok = true
    · have haccepts := applyUnlocked_ok_iff.mp hok
      obtain ⟨hfound, hnamed⟩ := expectedRevision_of_single hexpects
      have hcurrent := haccepts.current rfl ref hnamed revision hfound
      have hstore := contents_applyUnlocked_of_ok hok
      refine Or.inr ⟨⟨earlier, world, world', later, rfl, hearlier, hlater, hcurrent.symm, ?_⟩,
        OperationResult.ok_iff.mp hok⟩
      rw [hadapter]
      exact hstore
    · have hfalse : (world.adapter.apply operation false).1.ok = false := by simpa using hok
      have hstore := applyUnlocked_store_of_not_ok hfalse
      refine Or.inl ⟨hkept (by rw [hadapter]; exact hstore), fun hstatus => hok ?_⟩
      exact OperationResult.ok_iff.mpr hstatus

/-! ## Counters -/

section Counters

variable (ref : CollectionRef) (key : ByteString)

/-- The value a store holds under a property. -/
def propertyAt (look : Contents) : Option DynamicPropertyValue :=
  (look ref).bind (·[key]?)

/-- A client that counts: how often it tries, and when it goes on. -/
structure CounterWriter where
  service : DynamicPropertyService
  context : AccessContext
  rounds : Nat
  again : Option OperationResult → Bool

variable (next : DynamicPropertyValue → Option DynamicPropertyValue)

/-- One round: capture, then write the next value under the captured revision. -/
def CounterWriter.round (writer : CounterWriter) : ServiceProgram (Option OperationResult) := do
  let captured ← writer.service.capture ref writer.context
  match captured.snapshot with
  | none => pure none
  | some snapshot =>
      match (snapshot.properties[key]?).bind next with
      | none => pure none
      | some value => do
          let result ← writer.service.set ref key value writer.context (some snapshot.revision)
          pure (some result)

/-- The results of the writes of up to `rounds` rounds. -/
def CounterWriter.loop (writer : CounterWriter) : Nat → ServiceProgram (List OperationResult)
  | 0 => pure []
  | rounds + 1 => do
      let result ← writer.round ref key next
      if writer.again result then
        let results ← writer.loop rounds
        pure (result.toList ++ results)
      else pure result.toList

variable (count : DynamicPropertyValue → Option Int)

/-- The number a store's counter stands at; zero where there is no counter. -/
def countAt (look : Contents) : Int :=
  ((propertyAt ref key look).bind count).getD 0

/-- `next` computes the value of the number after. -/
def CountsUp : Prop :=
  ∀ value value', next value = some value' → ∃ n, count value = some n ∧ count value' = some (n + 1)

/-- How far a step moved the counter. -/
def moved (step : ServiceStep) : Int :=
  countAt ref key count (contents step.after.adapter.store)
    - countAt ref key count (contents step.before.adapter.store)

/-- Contents of the collection that these steps found and that have the same
revision are the same. -/
def DistinctRevisions (steps : List ServiceStep) : Prop :=
  ∀ step ∈ steps, ∀ step' ∈ steps,
    revisionAt (contents step.before.adapter.store) ref =
      revisionAt (contents step'.before.adapter.store) ref →
    contents step.before.adapter.store ref = contents step'.before.adapter.store ref

variable {ref key next count}

theorem DistinctRevisions.mono {steps steps' : List ServiceStep}
    (h : DistinctRevisions ref steps') (hsub : ∀ step ∈ steps, step ∈ steps') :
    DistinctRevisions ref steps :=
  fun step hstep step' hstep' => h step (hsub step hstep) step' (hsub step' hstep')

theorem moved_of_storeKept {steps : List ServiceStep} (h : StoreKept steps) :
    (steps.map (moved ref key count)).sum = 0 := by
  apply List.sum_eq_zero
  intro n hn
  obtain ⟨step, hstep, rfl⟩ := List.mem_map.mp hn
  rw [moved, h step hstep, sub_self]

/-- An applied write of the next value, expecting the revision of contents seen
before, moves the counter by one. -/
theorem moved_of_committedAt {service : DynamicPropertyService} {context : AccessContext}
    {value : DynamicPropertyValue} {result : OperationResult} {seen : World}
    {steps : List ServiceStep}
    (hnext : CountsUp next count)
    (hcommitted : CommittedAt service
      (.setProperty { ref, key, value
                      expectedRevision := some (revisionAt (contents seen.adapter.store) ref) })
      context result ref (revisionAt (contents seen.adapter.store) ref) steps)
    (hvalue : (propertyAt ref key (contents seen.adapter.store)).bind next = some value)
    (hdistinct : ∀ step ∈ steps,
      revisionAt (contents step.before.adapter.store) ref =
        revisionAt (contents seen.adapter.store) ref →
      contents step.before.adapter.store ref = contents seen.adapter.store ref) :
    (steps.map (moved ref key count)).sum = 1 := by
  obtain ⟨earlier, world, world', later, rfl, hearlier, hlater, hrevision, hstore⟩ := hcommitted
  have hsame : contents world.adapter.store ref = contents seen.adapter.store ref :=
    hdistinct _ (List.mem_append_right _ List.mem_cons_self) hrevision
  obtain ⟨found, hfound, hstep⟩ := Option.bind_eq_some_iff.mp hvalue
  obtain ⟨n, hn, hn'⟩ := hnext found value hstep
  have hbefore : countAt ref key count (contents world.adapter.store) = n := by
    rw [countAt, propertyAt, hsame]
    rw [propertyAt] at hfound
    rw [hfound, Option.bind_some, hn]
    rfl
  have hafter : countAt ref key count (contents world'.adapter.store) = n + 1 := by
    have hwritten : propertyAt ref key (contents world'.adapter.store) = some value := by
      rw [hstore]
      simp [Footprint.run, effect, propertyAt]
    rw [countAt, hwritten, Option.bind_some, hn']
    rfl
  rw [List.map_append, List.map_cons, List.sum_append, List.sum_cons,
    moved_of_storeKept hearlier.storeKept, moved_of_storeKept hlater.storeKept]
  show 0 + (countAt ref key count (contents world'.adapter.store)
    - countAt ref key count (contents world.adapter.store) + 0) = 1
  rw [hbefore, hafter]
  omega

theorem capture_trace (service : DynamicPropertyService) (context : AccessContext) :
    Ensures Acts (service.capture ref context) fun steps captured =>
      (steps = [] ∧ captured.snapshot = none) ∨
        ∃ world, steps = [⟨world, .capture ref, world.adapter.capture ref, world⟩] ∧
          captured = world.adapter.capture ref := by
  unfold DynamicPropertyService.capture
  split
  · exact ensures_done (Or.inl ⟨rfl, rfl⟩)
  · refine ensures_call fun before captured after hact => ensures_done ?_
    have heq : (captured, after) = (before.adapter.capture ref, before) := hact
    cases heq
    exact Or.inr ⟨before, rfl, rfl⟩

theorem capture_snapshot {adapter : InMemoryAdapter} {snapshot : CollectionSnapshot}
    (h : (adapter.capture ref).snapshot = some snapshot) :
    snapshot = snapshotAt (contents adapter.store) ref := by
  cases havail : targetAvailable adapter.availability ref.target with
  | true =>
      rw [InMemoryAdapter.capture, captureUnlocked_available havail] at h
      exact (Option.some.inj h).symm
  | false =>
      rw [InMemoryAdapter.capture, captureUnlocked_unavailable havail] at h
      cases h

theorem snapshotAt_property (look : Contents) :
    (snapshotAt look ref).properties[key]? = propertyAt ref key look := by
  rw [snapshotAt, makeSnapshot_properties, propertyAt]
  cases look ref with
  | none => simp
  | some properties => rfl

/-- The writes among some results that were applied. -/
def appliedCount (results : List OperationResult) : Nat :=
  results.countP OperationResult.ok

/-- One round moves the counter by one if its write was applied, and otherwise
not at all. -/
theorem round_moves (writer : CounterWriter)
    (hnext : CountsUp next count) :
    Ensures Acts (writer.round ref key next) fun steps result =>
      DistinctRevisions ref steps →
        (steps.map (moved ref key count)).sum = appliedCount result.toList := by
  refine ensures_bind (capture_trace writer.service writer.context)
    fun first captured hcapture => ?_
  have hfirst : StoreKept first := by
    rcases hcapture with ⟨rfl, -⟩ | ⟨world, rfl, -⟩
    · exact storeKept_nil
    · exact storeKept_cons rfl storeKept_nil
  have hnothing : Ensures (I := serviceInterface) Acts
      (done none : ServiceProgram (Option OperationResult)) fun second result =>
        DistinctRevisions ref (first ++ second) →
          ((first ++ second).map (moved ref key count)).sum = appliedCount result.toList := by
    refine ensures_done fun _ => ?_
    rw [List.append_nil, moved_of_storeKept hfirst]
    rfl
  cases hsnapshot : captured.snapshot with
  | none => exact hnothing
  | some snapshot =>
      cases hvalue : (snapshot.properties[key]?).bind next with
      | none =>
          simp only [hvalue]
          exact hnothing
      | some value =>
          simp only [hvalue]
          rcases hcapture with ⟨-, hnone⟩ | ⟨seen, rfl, rfl⟩
          · rw [hnone] at hsnapshot
            cases hsnapshot
          have hseen := capture_snapshot hsnapshot
          have hrevision : snapshot.revision = revisionAt (contents seen.adapter.store) ref := by
            rw [hseen]
            rfl
          rw [hseen, snapshotAt_property] at hvalue
          rw [hrevision]
          refine ensures_bind (apply_committedAt writer.service writer.context rfl)
            fun second result hset => ?_
          refine ensures_done fun hdistinct => ?_
          rw [List.append_nil] at hdistinct ⊢
          rw [List.map_append, List.sum_append, moved_of_storeKept hfirst, zero_add]
          rcases hset with ⟨hkept, hstatus⟩ | ⟨hcommitted, hstatus⟩
          · rw [moved_of_storeKept hkept]
            simp [appliedCount, OperationResult.ok, hstatus]
          · have hagain : ∀ step ∈ second,
                revisionAt (contents step.before.adapter.store) ref =
                  revisionAt (contents seen.adapter.store) ref →
                contents step.before.adapter.store ref = contents seen.adapter.store ref :=
              fun step hstep => hdistinct step (List.mem_append_right _ hstep)
                ⟨seen, .capture ref, seen.adapter.capture ref, seen⟩
                (List.mem_append_left _ List.mem_cons_self)
            rw [moved_of_committedAt hnext hcommitted hvalue hagain]
            simp [appliedCount, OperationResult.ok, hstatus]

/-- All rounds together move the counter by the number of applied writes. -/
theorem loop_moves (writer : CounterWriter)
    (hnext : CountsUp next count) (rounds : Nat) :
    Ensures Acts (writer.loop ref key next rounds) fun steps results =>
      DistinctRevisions ref steps →
        (steps.map (moved ref key count)).sum = appliedCount results := by
  induction rounds with
  | zero => exact ensures_done fun _ => rfl
  | succ rounds ih =>
      refine ensures_bind (round_moves writer hnext) fun first result hfirst => ?_
      split
      · refine ensures_bind ih fun second results hsecond => ensures_done fun hdistinct => ?_
        rw [List.append_nil] at hdistinct ⊢
        have hone := hfirst (hdistinct.mono fun step => List.mem_append_left _)
        have hrest := hsecond (hdistinct.mono fun step => List.mem_append_right _)
        rw [List.map_append, List.sum_append, hone, hrest, appliedCount, appliedCount,
          appliedCount, List.countP_append]
        push_cast
        rfl
      · refine ensures_done fun hdistinct => ?_
        rw [List.append_nil] at hdistinct ⊢
        exact hfirst hdistinct

variable (ref key) in
/-- Whatever a store holds, the operation leaves the property as it is. -/
def KeepsProperty (operation : DynamicPropertyOperation) : Prop :=
  ∀ look : Contents,
    propertyAt ref key (Footprint.run (effect operation) look) = propertyAt ref key look

theorem effectStep_run (operation : DynamicPropertyOperation) (look : Contents) :
    (effectStep operation look).2 = Footprint.run (effect operation) look := by
  unfold effectStep Footprint.run
  cases effect operation look <;> rfl

/-- Calls whose operations keep the property keep it with every request. -/
theorem acts_keepsProperty {service : DynamicPropertyService}
    {operations : List DynamicPropertyOperation}
    (hkeeps : ∀ operation ∈ operations, KeepsProperty ref key operation)
    {world world' : World} {r : Request} {response : Response r}
    (hpermits : Permits service operations r) (hact : Acts world r response world') :
    propertyAt ref key (contents world'.adapter.store) =
      propertyAt ref key (contents world.adapter.store) := by
  cases r with
  | commitApply committing operation context force =>
      rcases acts_commitApply hact with ⟨error, -, -, hadapter⟩ | ⟨-, hadapter⟩
      · rw [hadapter]
      · rw [hadapter]
        by_cases hok : (world.adapter.apply operation force).1.ok = true
        · rw [InMemoryAdapter.apply_store, contents_applyUnlocked_of_ok hok]
          exact hkeeps operation hpermits.2 _
        · have hfalse : (world.adapter.apply operation force).1.ok = false := by simpa using hok
          rw [InMemoryAdapter.apply_store, applyUnlocked_store_of_not_ok hfalse]
  | commitTransact committing transaction context collections =>
      rcases acts_commitTransact hact with ⟨error, -, -, hadapter⟩ | ⟨-, -, hadapter⟩
      · rw [hadapter]
      · rw [hadapter]
        by_cases happlies : world.adapter.AppliesAll transaction.operations transaction.force
        · obtain ⟨hall, hfinal⟩ := happlies.follows
          rw [(InMemoryAdapter.transact_of_appliesAll happlies).2.2.2, hfinal]
          refine Sequence.invariant (I := fun look =>
            propertyAt ref key look = propertyAt ref key (contents world.adapter.store)) ?_ hall rfl
          intro operation hop look hlook _
          rw [effectStep_run, hkeeps operation (hpermits.2 operation hop), hlook]
        · rw [(InMemoryAdapter.transact_of_not_appliesAll happlies).2.2.2]
  | capture ref | listCollections target | makeTransactionId | matchListeners bus event
  | invoke listener published position current | revalidate committing operation context
  | flush target | record sink entry =>
      rw [acts_quiet (by trivial) hact]

end Counters

/-! ## Runs -/

/-- A client: an arbitrary service call, or a counter. -/
inductive Client where
  | call (c : ServiceCall)
  | counter (writer : CounterWriter)

inductive ClientResult where
  | returned (result : CallResult)
  | counted (results : List OperationResult)

/-- The non-forced write of a call, with its service and context. -/
def ServiceCall.unforcedWrite (format : NumberFormat) :
    ServiceCall → Option (DynamicPropertyService × DynamicPropertyOperation × AccessContext)
  | apply service operation context false => some (service, operation, context)
  | importCollection service destination document context policy expectedRevision =>
      match decodeCollectionJson format document with
      | .ok properties =>
          some (service,
            .importCollection
              { destination, properties, expectedDestinationRevision := expectedRevision, policy },
            context)
      | .error _ => none
  | _ => none

section Clients

variable (format : NumberFormat) (ref : CollectionRef) (key : ByteString)
  (next : DynamicPropertyValue → Option DynamicPropertyValue)

def Client.program : Client → ServiceProgram ClientResult
  | .call c => do
      let result ← c.program format
      pure (.returned result)
  | .counter writer => do
      let results ← writer.loop ref key next writer.rounds
      pure (.counted results)

/-- Any number of calls and counters over one world. -/
def clientSystem : System serviceInterface World Client ClientResult where
  program := Client.program format ref key next
  act := Acts
  interferes := Interferes

/-- All steps of a pool. -/
def allSteps (calls : List (Call serviceInterface World Client ClientResult)) :
    List ServiceStep :=
  calls.flatMap (·.steps)

/-- The applied writes that the counters of a pool got back. -/
def appliedWrites (calls : List (Call serviceInterface World Client ClientResult)) : Nat :=
  (calls.map fun c =>
    match c.job, c.rest with
    | .counter _, .done (.counted results) => appliedCount results
    | _, _ => 0).sum

/-- What an `apply` client that runs alone returns. -/
theorem run_applyClient (service : DynamicPropertyService) (operation : DynamicPropertyOperation)
    (context : AccessContext) (force : Bool) (world : World) :
    (run respond ((Client.call (.apply service operation context force)).program format ref key
        next) world).1 =
      .returned (.operation (run respond (service.apply operation context force) world).1) := by
  have hcall := run_wrap (I := serviceInterface) respond
    ((ServiceCall.apply service operation context force).program format) ClientResult.returned world
  have happly := run_wrap (I := serviceInterface) respond
    (service.apply operation context force) CallResult.operation world
  show (run respond ((ServiceCall.apply service operation context force).program format >>= fun a =>
    done (ClientResult.returned a)) world).1 = _
  rw [hcall]
  show ClientResult.returned (run respond (service.apply operation context force >>= fun a =>
    done (CallResult.operation a)) world).1 = _
  rw [happly]

variable {format ref key next}

/-- A returned write that carries a revision and was applied was committed on
that revision. -/
theorem call_committedAt {call : ServiceCall} {service : DynamicPropertyService}
    {operation : DynamicPropertyOperation} {context : AccessContext} {r : CollectionRef}
    {revision : UInt64} {steps : List ServiceStep} {result : OperationResult}
    (hexec : Executes Acts (call.program format) steps (done (.operation result)))
    (hwrite : call.unforcedWrite format = some (service, operation, context))
    (hexpects : suppliedExpectations operation = [(r, some revision)])
    (hstatus : result.status = .applied) :
    CommittedAt service operation context result r revision steps := by
  have happly : ∀ steps, Executes Acts
      (service.apply operation context false >>= fun result => pure (CallResult.operation result))
      steps (done (.operation result)) →
      CommittedAt service operation context result r revision steps := by
    intro steps h
    obtain ⟨out, first, second, rfl, hfirst, hsecond⟩ := completes_bind h
    obtain ⟨rfl, hout⟩ := executes_done hsecond
    cases hout
    rw [List.append_nil]
    rcases apply_committedAt service context hexpects first result hfirst with
      ⟨-, hnot⟩ | ⟨hcommitted, -⟩
    · exact absurd hstatus hnot
    · exact hcommitted
  cases call with
  | apply service' operation' context' force =>
      cases force with
      | true => cases hwrite
      | false =>
          cases hwrite
          exact happly steps hexec
  | importCollection service' destination document context' policy expectedRevision =>
      cases hdecode : decodeCollectionJson format document with
      | error error => simp [ServiceCall.unforcedWrite, hdecode] at hwrite
      | ok properties =>
          simp only [ServiceCall.unforcedWrite, hdecode, Option.some.injEq, Prod.mk.injEq] at hwrite
          obtain ⟨rfl, rfl, rfl⟩ := hwrite
          simp only [ServiceCall.program, DynamicPropertyService.importCollection, hdecode] at hexec
          split at hexec
          · -- an oversized document is rejected without a commit
            obtain ⟨out, first, second, rfl, hfirst, hsecond⟩ := completes_bind hexec
            obtain ⟨-, hout⟩ := executes_done hsecond
            obtain ⟨-, hrejected⟩ := executes_done hfirst
            cases hout
            cases hrejected
            cases hstatus
          · exact happly steps hexec
  | _ => cases hwrite

/-- A finished counter moved the number by its applied writes. -/
theorem counter_moves {count : DynamicPropertyValue → Option Int} (hnext : CountsUp next count)
    {writer : CounterWriter} {steps : List ServiceStep} {results : List OperationResult}
    (hexec : Executes Acts ((Client.counter writer).program format ref key next) steps
      (done (.counted results)))
    (hdistinct : DistinctRevisions ref steps) :
    (steps.map (moved ref key count)).sum = appliedCount results := by
  obtain ⟨out, first, second, rfl, hfirst, hsecond⟩ := completes_bind hexec
  obtain ⟨rfl, hout⟩ := executes_done hsecond
  cases hout
  rw [List.append_nil] at hdistinct ⊢
  exact loop_moves writer hnext writer.rounds first results hfirst hdistinct

/-- Another call, finished or not, did not move it. -/
theorem call_moves {count : DynamicPropertyValue → Option Int} {call : ServiceCall}
    {steps : List ServiceStep} {rest : ServiceProgram ClientResult}
    (hexec : Executes Acts ((Client.call call).program format ref key next) steps rest)
    (hkeeps : ∀ operation ∈ call.operations format, KeepsProperty ref key operation) :
    (steps.map (moved ref key count)).sum = 0 := by
  have hissues : Issues (I := serviceInterface) (Permits call.service (call.operations format))
      ((Client.call call).program format ref key next) :=
    issues_bind (issues_program format call) fun _ => trivial
  apply List.sum_eq_zero
  intro n hn
  obtain ⟨step, hstep, rfl⟩ := List.mem_map.mp hn
  obtain ⟨hpermits, hact⟩ := (hexec.issues hissues).1 step hstep
  rw [moved, countAt, countAt, acts_keepsProperty hkeeps hpermits hact, sub_self]

/-- **No lost update.**  In any run, an applied non-forced write on one
collection that carries a revision was committed on that revision.  When the
contents the run found are told apart by their revisions, nobody but the
counters touches the counted property, and all counters have finished, the
number has moved by the applied writes. -/
theorem no_lost_update {count : DynamicPropertyValue → Option Int}
    (hnext : CountsUp next count) {init : World}
    {state : State serviceInterface World Client ClientResult}
    (hrun : Pool.Run (clientSystem format ref key next) init state) :
    (∀ c ∈ state.calls, ∀ call service operation context r revision result,
      c.job = .call call → call.unforcedWrite format = some (service, operation, context) →
      suppliedExpectations operation = [(r, some revision)] →
      c.Returned (.returned (.operation result)) → result.status = .applied →
      CommittedAt service operation context result r revision c.steps) ∧
    (DistinctRevisions ref (allSteps state.calls) →
      (∀ c ∈ state.calls, ∀ call, c.job = .call call →
        ∀ operation ∈ call.operations format, KeepsProperty ref key operation) →
      (∀ c ∈ state.calls, ∀ writer, c.job = .counter writer →
        ∃ results, c.Returned (.counted results)) →
      countAt ref key count (contents state.world.adapter.store) =
        countAt ref key count (contents init.adapter.store) + appliedWrites state.calls) := by
  constructor
  · intro c hc call service operation context r revision result hjob hwrite hexpects hreturned
      hstatus
    have hexec := hrun.executes c hc
    rw [hjob, hreturned] at hexec
    obtain ⟨out, first, second, hsteps, hfirst, hsecond⟩ := completes_bind hexec
    obtain ⟨rfl, hout⟩ := executes_done hsecond
    cases hout
    rw [hsteps, List.append_nil]
    exact call_committedAt hfirst hwrite hexpects hstatus
  · intro hdistinct hothers hfinished
    have hledger := hrun.ledger (fun world => countAt ref key count (contents world.adapter.store))
      (moved ref key count) (fun c _ step _ => by simp only [moved]; omega)
      (fun world world' h => by rw [interferes_store h])
    have hcalls : ∀ c ∈ state.calls, (c.steps.map (moved ref key count)).sum =
        ((match c.job, c.rest with
          | .counter _, .done (.counted results) => appliedCount results
          | _, _ => 0 : Nat) : Int) := by
      intro c hc
      have hexec := hrun.executes c hc
      cases hjob : c.job with
      | call call =>
          have hcall : Executes Acts ((Client.call call).program format ref key next) c.steps
              c.rest := hjob ▸ hexec
          exact call_moves hcall (hothers c hc call hjob)
      | counter writer =>
          obtain ⟨results, hreturned⟩ := hfinished c hc writer hjob
          have hrest : c.rest = done (.counted results) := hreturned
          have hcounter : Executes Acts ((Client.counter writer).program format ref key next)
              c.steps (done (.counted results)) := hjob ▸ hrest ▸ hexec
          rw [hrest]
          exact counter_moves hnext hcounter
            (hdistinct.mono fun step hstep => List.mem_flatMap.mpr ⟨c, hc, hstep⟩)
    rw [hledger, totalWeight, List.map_congr_left hcalls, appliedWrites, Nat.cast_list_sum,
      List.map_map]
    rfl

end Clients

/-! ### A counter and a note -/

/-- The numbers 0 and 1. -/
def tallyZero : DynamicPropertyValue := .number ⟨0⟩

def tallyOne : DynamicPropertyValue := .number ⟨0x3FF0000000000000⟩

def tallyNext (value : DynamicPropertyValue) : Option DynamicPropertyValue :=
  if value = tallyZero then some tallyOne else none

def tallyCount (value : DynamicPropertyValue) : Option Int :=
  if value = tallyZero then some 0 else if value = tallyOne then some 1 else none

def tally : CollectionRef := ⟨{}, text "tally"⟩

def note : CollectionRef := ⟨{}, text "note"⟩

/-- A world where the tally is at zero. -/
def tallyWorld : World :=
  { adapter :=
      { store := (∅ : Store).insert tally ((∅ : DynamicPropertyMap).insert (text "n") tallyZero) } }

def tallyWriter : Client :=
  .counter { service := {}, context := { rawAdmin := true }, rounds := 2, again := Option.isSome }

/-- The note is written only if it does not exist yet. -/
def noteWrite : DynamicPropertyOperation :=
  .setProperty { ref := note, key := text "n", value := .bool true
                 expectedRevision := some (makeSnapshot note ∅ false).revision }

def noteWriterCall : ServiceCall := .apply {} noteWrite { rawAdmin := true } false

def noteWriter : Client := .call noteWriterCall

def tallySystem : System serviceInterface World Client ClientResult :=
  clientSystem silentFormat tally (text "n") tallyNext

/-- The pool after the counter has run alone. -/
def tallyCounted : State serviceInterface World Client ClientResult :=
  (State.mk tallyWorld []).alone tallySystem respond tallyWriter

/-- The pool after both have run, one after the other. -/
def tallyState : State serviceInterface World Client ClientResult :=
  tallyCounted.alone tallySystem respond noteWriter

/-- The theorem at that pool: the note was written on the revision it expected,
and the tally counted its one applied write. -/
theorem no_lost_update_tally :
    (∃ result, ∃ c ∈ tallyState.calls,
      CommittedAt {} noteWrite { rawAdmin := true } result note
        (makeSnapshot note ∅ false).revision c.steps) ∧
    countAt tally (text "n") tallyCount (contents tallyState.world.adapter.store) =
      0 + appliedWrites tallyState.calls ∧ appliedWrites tallyState.calls = 1 := by
  have hnext : CountsUp tallyNext tallyCount := by
    intro value value' h
    simp only [tallyNext] at h
    split at h
    · rename_i hzero
      cases h
      subst hzero
      exact ⟨0, by decide, by decide⟩
    · cases h
  have hrun : Pool.Run (clientSystem silentFormat tally (text "n") tallyNext) tallyWorld
      tallyState := (Run.alone acts_respond .nil tallyWriter).alone acts_respond noteWriter
  have hdistinct : DistinctRevisions tally (allSteps tallyState.calls) := by
    unfold DistinctRevisions
    decide +kernel
  have hkeeps : KeepsProperty tally (text "n") noteWrite := by
    intro look
    have hne : tally ≠ note := by decide
    simp [propertyAt, Footprint.run, effect, noteWrite, hne]
  have hfinished : ∀ c ∈ tallyState.calls, ∀ writer, c.job = .counter writer →
      ∃ results, c.Returned (.counted results) := by
    intro c hc writer hjob
    rcases List.mem_append.mp hc with hfirst | hsecond
    · have hresult := congrArg Prod.fst (run_wrap (I := serviceInterface) respond
        (CounterWriter.loop tally (text "n") tallyNext
          { service := {}, context := { rawAdmin := true }, rounds := 2, again := Option.isSome } 2)
        ClientResult.counted tallyWorld)
      rw [List.mem_singleton.mp hfirst]
      exact ⟨_, congrArg done hresult⟩
    · rw [List.mem_singleton.mp hsecond] at hjob
      cases hjob
  have hothers : ∀ c ∈ tallyState.calls, ∀ call, c.job = .call call →
      ∀ operation ∈ call.operations silentFormat, KeepsProperty tally (text "n") operation := by
    intro c hc call hjob operation hop
    rcases List.mem_append.mp hc with hfirst | hsecond
    · rw [List.mem_singleton.mp hfirst] at hjob
      cases hjob
    · rw [List.mem_singleton.mp hsecond] at hjob
      cases hjob
      rw [List.mem_singleton.mp hop]
      exact hkeeps
  obtain ⟨hcommitted, hcounted⟩ := no_lost_update hnext hrun
  constructor
  · have hmem := List.mem_append_right tallyCounted.calls (List.mem_singleton.mpr
      (Eq.refl (Call.mk noteWriter (runSteps respond (tallySystem.program noteWriter)
        tallyCounted.world) (done (run respond (tallySystem.program noteWriter)
          tallyCounted.world).1))))
    have hreturned := run_applyClient silentFormat tally (text "n") tallyNext {} noteWrite
      { rawAdmin := true } false tallyCounted.world
    exact ⟨_, _, hmem, hcommitted _ hmem noteWriterCall {} noteWrite { rawAdmin := true } note _ _
      rfl rfl rfl (congrArg done hreturned) (by decide +kernel)⟩
  constructor
  · rw [hcounted hdistinct hothers hfinished]
    decide +kernel
  · decide +kernel

end DynamicProperties.Cpp
