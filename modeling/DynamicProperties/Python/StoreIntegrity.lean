import DynamicProperties.Python.Legality

/-!
# A run of the Python service keeps its store intact

Both commits keep a legal store legal, so every run does: `stores_only_legal_data`.
A call that commits one operation returns what its commit answered, so a call that
does not return `Applied` left the store as it was.

The proviso is that no operation supplies a value that poisons.  One that does is
written before its snapshot fails: the call raises, the value stays, and the
collection cannot be captured again.
-/

namespace DynamicProperties.Python

open Std
open DynamicProperties.Library.Fallible
open DynamicProperties.Library.Collections
open DynamicProperties.Library.Requests
open DynamicProperties.Library.Raising
open DynamicProperties.Library.Pool

/-- No value the operation supplies poisons. -/
def Clean (operation : Operation) : Prop := ∀ value ∈ suppliedValues operation, ¬ Poisons value

/-- The operation passed `_validate_operation` and supplies no poison. -/
def Harmless (service : DynamicPropertyService) (operation : Operation) : Prop :=
  Clean operation ∧ ∃ context, service.validateOperation operation context = .ok none

/-! ## The commits -/

section Commits

variable {digest : Canonical → UInt64} {service : DynamicPropertyService}
  {adapter : InMemoryAdapter} {operation : Operation}

variable (digest) in
theorem apply_cases (hlegal : LegalStore service.limits adapter.store)
    (hop : Harmless service operation) (force : Bool) :
    (∃ result written, adapter.apply digest operation force =
        (.ok result, { adapter with store := written }) ∧ result.ok = true ∧
        LegalStore service.limits written) ∨
    ((adapter.apply digest operation force).2.store = adapter.store ∧
      ∀ result, (adapter.apply digest operation force).1 = .ok result → result.ok = false) := by
  obtain ⟨hclean, context, hvalid⟩ := hop
  have hcases := applyIn_cases digest adapter.availability force hlegal
    (accepted_of_validateOperation hvalid).moves
    (supplies_of_validateOperation hvalid hclean)
  rcases hcases with ⟨result, written, happly, hok, hwritten⟩ | ⟨hsame, hfailed⟩
  · refine Or.inl ⟨result, written, ?_, hok, hwritten⟩
    rw [InMemoryAdapter.apply, happly]
  · exact Or.inr ⟨hsame, hfailed⟩

/-- What `apply` returns for the answer of its commit. -/
def answerOf (committed : Except PyError (Except OperationResult OperationResult)) :
    Except PyError OperationResult :=
  committed.map fun
    | .error error => error
    | .ok result => result

variable (digest) in
/-- The commit of `apply` keeps a legal store legal, and keeps the store itself unless
it reports `Applied`. -/
theorem commitApply_spec (hlegal : LegalStore service.limits adapter.store)
    (hop : Harmless service operation) (force : Bool) :
    LegalStore service.limits (service.commitApply digest adapter operation force).2.store ∧
      (returnsApplied (answerOf (service.commitApply digest adapter operation force).1) = false →
        (service.commitApply digest adapter operation force).2.store = adapter.store) := by
  unfold DynamicPropertyService.commitApply
  split
  · exact ⟨hlegal, fun _ => rfl⟩
  · exact ⟨hlegal, fun _ => rfl⟩
  · rcases apply_cases digest hlegal hop force with
      ⟨result, written, happly, hok, hwritten⟩ | ⟨hsame, -⟩
    · rw [happly]
      refine ⟨hwritten, fun hfailed => ?_⟩
      have happlied : returnsApplied (.ok result) = true := hok
      exact absurd (happlied.symm.trans hfailed) (by decide)
    · have hkept : (adapter.apply digest operation force).2.store = adapter.store := hsame
      refine ⟨?_, fun _ => hkept⟩
      show LegalStore service.limits (adapter.apply digest operation force).2.store
      rw [hkept]
      exact hlegal

/-- The loop of `transact` over a legal copy of the store leaves a legal copy. -/
theorem transactLoop_legal {availability : Availability} {force rollbackOnFailure : Bool}
    {operations : List Operation} (hops : ∀ operation ∈ operations, Harmless service operation)
    {candidate written : Store} (hlegal : LegalStore service.limits candidate)
    {results : List OperationResult} {result : TransactionResult}
    (h : InMemoryAdapter.transactLoop digest availability force rollbackOnFailure operations
      candidate results = .ok (result, some written)) : LegalStore service.limits written := by
  induction operations generalizing candidate results with
  | nil =>
      have hwritten : candidate = written :=
        Option.some.inj (congrArg Prod.snd (Except.ok.inj h))
      rw [← hwritten]
      exact hlegal
  | cons operation rest ih =>
      obtain ⟨hclean, context, hvalid⟩ := hops operation List.mem_cons_self
      have hcases := applyIn_cases digest availability force hlegal
        (accepted_of_validateOperation hvalid).moves
        (supplies_of_validateOperation hvalid hclean)
      rw [InMemoryAdapter.transactLoop] at h
      rcases hcases with ⟨answer, next, happly, hok, hnext⟩ | ⟨-, hfailed⟩
      · rw [happly] at h
        simp only [hok, Bool.not_true, Bool.false_eq_true, if_false] at h
        exact ih (fun op hop => hops op (List.mem_cons_of_mem _ hop)) hnext h
      · -- the loop stops at a failure, and leaves no copy
        split at h
        · cases h
        next answer next happly =>
          have hnot : answer.ok = false := hfailed answer (congrArg Prod.fst happly)
          simp only [hnot, Bool.not_false, if_true] at h
          cases h

theorem commitTransact_legal (hlegal : LegalStore service.limits adapter.store)
    {transaction : Transaction}
    (hops : ∀ operation ∈ transaction.operations, Harmless service operation)
    (refs : List CollectionRef) (ids : Nat) :
    LegalStore service.limits
      (service.commitTransact digest adapter transaction refs ids).2.1.store := by
  have hcommitted : LegalStore service.limits
      (adapter.transact digest transaction ids).2.1.store := by
    unfold InMemoryAdapter.transact
    split
    · exact hlegal
    next result candidate hloop =>
      cases candidate with
      | none => exact hlegal
      | some written => exact transactLoop_legal hops hlegal hloop
  unfold DynamicPropertyService.commitTransact
  split
  · exact hlegal
  · exact hlegal
  · split
    · next raised committed htransact =>
      rw [htransact] at hcommitted
      exact hcommitted
    · next result committed htransact =>
      rw [htransact] at hcommitted
      exact hcommitted

/-- **A commit keeps the store legal.** -/
theorem acts_legal {world world' : World} {r : Request} {response : Response r}
    (hcommits : CommitsOnly service Clean r) (h : Acts digest world r response world')
    (hlegal : LegalStore service.limits world.adapter.store) :
    LegalStore service.limits world'.adapter.store := by
  cases r with
  | commitApply by_ operation force =>
      obtain ⟨rfl, hop⟩ := hcommits
      have hworld : world' = (respond digest world (.commitApply by_ operation force)).2 :=
        congrArg Prod.snd h
      rw [hworld]
      exact (commitApply_spec digest hlegal hop force).1
  | commitTransact by_ transaction refs =>
      obtain ⟨rfl, hops⟩ := hcommits
      have hworld : world' = (respond digest world (.commitTransact by_ transaction refs)).2 :=
        congrArg Prod.snd h
      rw [hworld]
      exact commitTransact_legal hlegal hops refs _
  | capture ref | newTransactionId | matchListeners bus event
  | invoke listener published position current | record sink entry =>
      have hsame : world'.adapter = world.adapter := acts_quiet (by trivial) h
      rw [hsame]
      exact hlegal

end Commits

/-! ## What a call returns -/

/-- The step is no commit, or its answer is what the call returned. -/
def Answered : ServiceStep → Except PyError OperationResult → Prop
  | ⟨_, .commitApply _ _ _, response, _⟩, outcome => outcome = answerOf response
  | ⟨_, .commitTransact _ _ _, _, _⟩, _ => False
  | _, _ => True

theorem answered_of_quiet {step : ServiceStep} (h : Quiet step.request)
    (outcome : Except PyError OperationResult) : Answered step outcome := by
  obtain ⟨before, r, response, after⟩ := step
  cases r with
  | commitApply service operation force => exact h.elim
  | commitTransact service transaction refs => exact h.elim
  | capture ref | newTransactionId | matchListeners bus event
  | invoke listener published position current | record sink entry => trivial

section Answers

variable {digest : Canonical → UInt64} {service : DynamicPropertyService} {operation : Operation}
  {context : AccessContext} {force : Bool}

/-- The steps a call takes before its commit, and the rest of it. -/
private theorem answers_then {α : Type} {p : RaisingCall α} {f : α → RaisingCall OperationResult}
    (hp : Issues (I := serviceInterface) Quiet p.run)
    (hf : ∀ a, Ensures (Acts digest) (f a).run fun steps outcome =>
      ∀ step ∈ steps, Answered step outcome) :
    Ensures (Acts digest) (p >>= f).run fun steps outcome =>
      ∀ step ∈ steps, Answered step outcome := by
  refine ensures_then (ensures_issues hp) (fun steps error hsteps step hstep => ?_)
    fun first a hfirst => ?_
  · exact answered_of_quiet (hsteps step hstep) _
  · refine ensures_mono (hf a) fun second outcome hsecond step hstep => ?_
    rcases List.mem_append.mp hstep with hin | hin
    · exact answered_of_quiet (hfirst step hin) outcome
    · exact hsecond step hin

private theorem answers_pure (result : OperationResult) :
    Ensures (Acts digest) (pure result : RaisingCall OperationResult).run fun steps outcome =>
      ∀ step ∈ steps, Answered step outcome :=
  ensures_done fun _ hmem => absurd hmem List.not_mem_nil

/-- What follows a commit only announces and records it. -/
private theorem quiet_then_pure {p : ServiceProgram Unit}
    (hp : Issues (I := serviceInterface) Quiet p) (result : OperationResult) :
    Ensures (Acts digest) (lift p >>= fun _ => pure result : RaisingCall OperationResult).run
      fun steps outcome => (∀ step ∈ steps, Quiet step.request) ∧ outcome = .ok result := by
  refine ensures_lift_bind (ensures_issues hp) fun first _ hfirst => ensures_done ?_
  rw [List.append_nil]
  exact ⟨hfirst, rfl⟩

private theorem answered_cons {before after : World}
    {response : Except PyError (Except OperationResult OperationResult)}
    {steps : List ServiceStep} {outcome : Except PyError OperationResult}
    (houtcome : outcome = answerOf response) (hsteps : ∀ step ∈ steps, Quiet step.request) :
    ∀ step ∈ (⟨before, .commitApply service operation force, response, after⟩ : ServiceStep) ::
      steps, Answered step outcome :=
  List.forall_mem_cons.mpr ⟨houtcome, fun step hstep => answered_of_quiet (hsteps step hstep) _⟩

private theorem applyCommit_answers (transactionId : Str) :
    Ensures (Acts digest) (service.applyCommit operation context force transactionId).run
      fun steps outcome => ∀ step ∈ steps, Answered step outcome := by
  have hquiet : ∀ r, Quiet r → Quiet r := fun _ h => h
  refine ensures_attempt_bind (fun before response after error _ hraised => ?_)
    fun before response after committed _ hanswer => ?_
  · have hresponse : response = .error error := hraised
    refine answered_cons ?_ (fun _ hmem => absurd hmem List.not_mem_nil)
    rw [hresponse]
    rfl
  · have hresponse : response = .ok committed := hanswer
    cases committed with
    | error error =>
        have haudit := issues_audit (fun _ _ => hquiet _ trivial) service operation context error
          transactionId false false
        refine ensures_mono (quiet_then_pure haudit error) fun steps outcome hrest => ?_
        refine answered_cons ?_ hrest.1
        rw [hrest.2, hresponse]
        rfl
    | ok result =>
        refine ensures_lift_bind (ensures_issues (issues_after hquiet service .afterMutation
          operation context result transactionId)) fun first _ hfirst => ?_
        have haudit := issues_audit (fun _ _ => hquiet _ trivial) service operation context result
          transactionId false false
        refine ensures_mono (quiet_then_pure haudit result) fun steps outcome hrest => ?_
        refine answered_cons ?_ fun step hstep => ?_
        · rw [hrest.2, hresponse]
          rfl
        · exact (List.mem_append.mp hstep).elim (hfirst step) (hrest.1 step)

/-- **`apply` returns what its commit answered.** -/
theorem apply_answers :
    Ensures (Acts digest) (service.apply operation context force).run fun steps outcome =>
      ∀ step ∈ steps, Answered step outcome := by
  have hquiet : ∀ r, Quiet r → Quiet r := fun _ h => h
  unfold DynamicPropertyService.apply
  split
  · exact answers_pure _
  refine answers_then (issues_outcome _) fun verdict => ?_
  cases verdict with
  | some error => exact answers_pure _
  | none =>
      refine answers_then (issues_validatePropertyLimits (fun _ => hquiet _ trivial) _ _)
        fun error => ?_
      cases error with
      | some error => exact answers_pure _
      | none =>
          refine answers_then (issues_attempt (I := serviceInterface) _ trivial)
            fun transactionId => ?_
          refine answers_then (issues_before hquiet service _ _ _ _ _) fun event => ?_
          dsimp only
          split
          · exact answers_then (issues_lift_audit hquiet service _ _ _ _ _ _) fun _ =>
              answers_pure _
          · exact applyCommit_answers transactionId

theorem importCollection_answers {interp : Interpreter} {destination : CollectionRef}
    {document : Str} {policy : ImportPolicy} {expectedRevision : ExpectedRevision} :
    Ensures (Acts digest) (service.importCollection interp destination document context policy
      expectedRevision).run fun steps outcome => ∀ step ∈ steps, Answered step outcome := by
  unfold DynamicPropertyService.importCollection
  split
  · exact answers_pure _
  · exact answers_pure _
  · exact apply_answers

end Answers

/-! ## Imported values -/

section Imports

variable {interp : Interpreter}

private theorem allFinite_floats {x y z : Cpp.Double} :
    ∀ c ∈ [PyObject.float x, .float y, .float z], checkJson c = .ok () := by
  intro c hc
  simp only [List.mem_cons, List.not_mem_nil, or_false] at hc
  rcases hc with rfl | rfl | rfl <;> rfl

/-- `_decoded_value` returns no poison. -/
theorem clean_of_decodedValue {data : PyJson} {value : PyObject}
    (h : interp.decodedValue data = .ok value) : ¬ Poisons value := by
  have hinvalid : ∀ {type : PyJson} {value : PyObject}, interp.invalidValue type ≠ .ok value :=
    fun h => by cases h
  unfold Interpreter.decodedValue at h
  split at h
  swap
  · cases h
  split at h
  swap
  · cases h
  unfold Interpreter.decodedTyped at h
  split at h
  swap
  · exact absurd h hinvalid
  split at h
  · split at h
    · obtain rfl := Except.ok.inj h
      exact id
    · exact absurd h hinvalid
  split at h
  · unfold Interpreter.decodedNumber at h
    split at h
    · obtain ⟨number, -, h⟩ := bind_eq_ok.mp h
      split at h
      · obtain rfl := Except.ok.inj h
        exact id
      · cases h
    · exact absurd h hinvalid
  split at h
  · split at h
    · obtain rfl := Except.ok.inj h
      exact id
    · exact absurd h hinvalid
  split at h
  · unfold Interpreter.decodedVector at h
    split at h
    · split at h
      · obtain ⟨x, -, h⟩ := bind_eq_ok.mp h
        obtain ⟨y, -, h⟩ := bind_eq_ok.mp h
        obtain ⟨z, -, h⟩ := bind_eq_ok.mp h
        split at h
        · obtain rfl := Except.ok.inj h
          rintro ⟨-, c, hc, hbad⟩
          exact hbad (allFinite_floats c hc)
        · cases h
      · cases h
    · exact absurd h hinvalid
  · exact absurd h hinvalid

/-- What a mapping holds after one more item was set. -/
theorem PropertyMapping.value_of_set {mapping : PropertyMapping} {key : Str} {value v : PyObject}
    (h : v ∈ (mapping.set key value).items.map Prod.snd) :
    v = value ∨ v ∈ mapping.items.map Prod.snd := by
  obtain ⟨entry, hentry, rfl⟩ := List.mem_map.mp h
  unfold PropertyMapping.set at hentry
  split at hentry
  · obtain ⟨old, hold, hnew⟩ := List.mem_map.mp hentry
    split at hnew
    · exact Or.inl (congrArg Prod.snd hnew).symm
    · exact Or.inr (hnew ▸ List.mem_map_of_mem hold)
  · rcases List.mem_append.mp hentry with hold | hnew
    · exact Or.inr (List.mem_map_of_mem hold)
    · exact Or.inl (congrArg Prod.snd (List.mem_singleton.mp hnew))

theorem clean_of_decodedProperties {items : List (Str × PyJson)}
    {mapping properties : PropertyMapping}
    (hmapping : ∀ value ∈ mapping.items.map Prod.snd, ¬ Poisons value)
    (h : interp.decodedProperties items mapping = .ok properties) :
    ∀ value ∈ properties.items.map Prod.snd, ¬ Poisons value := by
  induction items generalizing mapping with
  | nil =>
      obtain rfl := Except.ok.inj h
      exact hmapping
  | cons item rest ih =>
      obtain ⟨value, hvalue, hrest⟩ := bind_eq_ok.mp h
      refine ih (fun v hv => ?_) hrest
      rcases PropertyMapping.value_of_set hv with rfl | hold
      · exact clean_of_decodedValue hvalue
      · exact hmapping v hold

/-- An import supplies no poison. -/
theorem clean_of_decodeDocument {limits : ValidationLimits} {document : Str}
    {properties : PropertyMapping}
    (h : interp.decodeDocument limits document = .ok (some properties)) :
    ∀ value ∈ properties.items.map Prod.snd, ¬ Poisons value := by
  obtain ⟨encoded, -, h⟩ := bind_eq_ok.mp h
  split at h
  · cases h
  · obtain ⟨root, -, h⟩ := bind_eq_ok.mp h
    obtain ⟨items, -, h⟩ := bind_eq_ok.mp h
    obtain ⟨decoded, hdecoded, h⟩ := bind_eq_ok.mp h
    obtain rfl := Option.some.inj (Except.ok.inj h)
    exact clean_of_decodedProperties (fun _ hmem => absurd hmem List.not_mem_nil) hdecoded

end Imports

/-! ## Runs -/

/-- The operations a caller hands to a call. -/
def ServiceCall.operations : ServiceCall → List Operation
  | .apply _ operation _ _ => [operation]
  | .transact _ transaction _ => transaction.operations
  | _ => []

theorem clean_of_supplies {interp : Interpreter} {call : ServiceCall}
    (h : ∀ operation ∈ call.operations, Clean operation) :
    ∀ operation, call.Supplies interp operation → Clean operation := by
  intro operation hsupplied
  cases call with
  | apply service op context force =>
      have heq : operation = op := hsupplied
      exact h operation (List.mem_singleton.mpr heq)
  | transact service transaction context => exact h operation hsupplied
  | importCollection service destination document context policy expectedRevision =>
      obtain ⟨properties, hdecode, rfl⟩ := hsupplied
      exact clean_of_decodeDocument hdecode
  | capture service ref context | beforeExternalMutation service op context cancellable
  | afterExternalMutation service op result context transactionId => exact hsupplied.elim

/-- The call commits one operation, if any. -/
def ServiceCall.Single : ServiceCall → Prop
  | .apply _ _ _ _ => True
  | .importCollection _ _ _ _ _ _ => True
  | _ => False

/-- The call returned, and its result reports success. -/
def ReturnsApplied (outcome : Except PyError CallResult) : Prop :=
  ∃ result, outcome = .ok (.operation result) ∧ result.ok = true

section Runs

variable {digest : Canonical → UInt64} {interp : Interpreter} {service : DynamicPropertyService}
  {init : World} {state : Library.Pool.State serviceInterface World ServiceCall
    (Except PyError CallResult)}

/-- What a call of `apply` or `import_collection` did to the store, when it did not
return `Applied`. -/
theorem unchanged_of_not_applied {call : ServiceCall} (hsingle : call.Single)
    {steps : List ServiceStep} {outcome : Except PyError CallResult}
    (hexec : Executes (Acts digest) (call.program interp).run steps (.done outcome))
    (hlegal : ∀ step ∈ steps, LegalStore call.service.limits step.before.adapter.store)
    (hcommits : ∀ step ∈ steps, CommitsOnly call.service Clean step.request ∧
      Acts digest step.before step.request step.response step.after)
    (hfailed : ¬ ReturnsApplied outcome) :
    ∀ step ∈ steps, step.after.adapter.store = step.before.adapter.store := by
  have hanswers : ∃ answer : Except PyError OperationResult,
      outcome = answer.map .operation ∧ ∀ step ∈ steps, Answered step answer := by
    have hwrap : ∀ {p : RaisingCall OperationResult},
        (Ensures (Acts digest) p.run fun steps outcome =>
          ∀ step ∈ steps, Answered step outcome) →
        Executes (Acts digest) (p >>= fun result => pure (CallResult.operation result)).run steps
          (.done outcome) →
        ∃ answer : Except PyError OperationResult,
          outcome = answer.map .operation ∧ ∀ step ∈ steps, Answered step answer := by
      intro p hp hexec
      have hall : Ensures (Acts digest)
          (p >>= fun result => pure (CallResult.operation result)).run fun steps outcome =>
          ∃ answer : Except PyError OperationResult,
            outcome = answer.map .operation ∧ ∀ step ∈ steps, Answered step answer := by
        refine ensures_then hp (fun steps error hsteps => ⟨.error error, rfl, hsteps⟩) ?_
        intro first result hfirst
        refine ensures_done ⟨.ok result, rfl, ?_⟩
        rw [List.append_nil]
        exact hfirst
      exact hall steps outcome hexec
    cases call with
    | apply service operation context force => exact hwrap apply_answers hexec
    | importCollection service destination document context policy expectedRevision =>
        exact hwrap importCollection_answers hexec
    | capture service ref context | transact service transaction context
    | beforeExternalMutation service op context cancellable
    | afterExternalMutation service op result context transactionId => exact hsingle.elim
  obtain ⟨answer, houtcome, hanswered⟩ := hanswers
  have hnot : returnsApplied answer = false := by
    cases answer with
    | error error => rfl
    | ok result =>
        rw [← Bool.not_eq_true]
        exact fun hok => hfailed ⟨result, houtcome, hok⟩
  intro step hstep
  obtain ⟨before, r, response, after⟩ := step
  obtain ⟨hcommit, hact⟩ := hcommits _ hstep
  have hanswer := hanswered _ hstep
  cases r with
  | commitApply by_ operation force =>
      obtain ⟨rfl, hop⟩ := hcommit
      have hpair : (response, after) = respond digest before (.commitApply _ operation force) :=
        hact
      have hresponse : response =
          (call.service.commitApply digest before.adapter operation force).1 :=
        congrArg Prod.fst hpair
      have hafter : after.adapter =
          (call.service.commitApply digest before.adapter operation force).2 :=
        congrArg World.adapter (congrArg Prod.snd hpair)
      have hspec := (commitApply_spec digest (hlegal _ hstep) hop force).2
      show after.adapter.store = before.adapter.store
      rw [hafter]
      apply hspec
      rw [← hresponse, ← (show answer = answerOf response from hanswer)]
      exact hnot
  | commitTransact by_ transaction refs => exact hanswer.elim
  | capture ref | newTransactionId | matchListeners bus event
  | invoke listener published position current | record sink entry =>
      have hsame : after.adapter = before.adapter := acts_quiet (by trivial) hact
      show after.adapter.store = before.adapter.store
      rw [hsame]

/-- **Every run stores legal data only, and a failing call leaves the store.** -/
theorem stores_only_legal_data (hrun : Run (serviceSystem digest interp) init state)
    (hempty : init.adapter.store = ∅) (hservice : ∀ c ∈ state.calls, c.job.service = service)
    (hclean : ∀ c ∈ state.calls, ∀ operation ∈ c.job.operations,
      ∀ value ∈ suppliedValues operation, ¬ Poisons value) :
    (∀ ref properties, contents state.world.adapter.store ref = some properties →
      ∀ (key : Str) value, properties[key]? = some value → LegalValue service.limits value) ∧
    (∀ ref, targetAvailable state.world.adapter.availability ref.target = true →
      (contents state.world.adapter.store ref).isSome ∨ Describable ref.target →
      ∃ captured, state.world.adapter.capture digest ref = .ok captured ∧ captured.ok = true) ∧
    (∀ c ∈ state.calls, c.job.Single → ∀ outcome, c.Returned outcome → ¬ ReturnsApplied outcome →
      ∀ step ∈ c.steps, step.after.adapter.store = step.before.adapter.store) := by
  have hissues : ∀ c ∈ state.calls,
      Issues (CommitsOnly service Clean) (c.job.program interp).run := by
    intro c hc
    rw [← hservice c hc]
    exact issues_program interp c.job (clean_of_supplies (hclean c hc))
  obtain ⟨hworld, hsteps⟩ := hrun.invariant
    (K := fun world => LegalStore service.limits world.adapter.store) hissues
    (fun world r response world' hcommits h hlegal => acts_legal hcommits h hlegal)
    (fun world world' h hlegal => by rw [interferes_store h]; exact hlegal)
    (by rw [hempty]; exact legalStore_empty service.limits)
  refine ⟨fun ref properties hlook key value hentry => ?_, fun ref havail href => ?_, ?_⟩
  · exact (hworld.entries ref properties hlook key value hentry).2.toLegalValue
  · have hdescribable : Describable ref.target := by
      rcases href with hsome | hdescribable
      · obtain ⟨properties, hlook⟩ := Option.isSome_iff_exists.mp hsome
        exact hworld.describable ref properties hlook
      · exact hdescribable
    obtain ⟨captured, snapshot, hcapture, hok, -⟩ :=
      (hworld.readable hdescribable).capture digest havail
    exact ⟨captured, hcapture, hok⟩
  · intro c hc hsingle outcome hreturned hfailed
    have hexec := hrun.executes c hc
    rw [show c.rest = .done outcome from hreturned] at hexec
    have hcommits := (hexec.issues (hissues c hc)).1
    rw [← hservice c hc] at hcommits
    refine unchanged_of_not_applied hsingle hexec (fun step hstep => ?_) hcommits hfailed
    rw [hservice c hc]
    exact (hsteps c hc step hstep).1

end Runs

/-! ## One write, with and without poison -/

/-- An interpreter for documents without numbers. -/
def plainInterpreter : Interpreter where
  float _ := ⟨0⟩
  ofInt _ := ⟨0⟩
  repr _ := str "object"
  describe _ := str "error"
  complaint _ := str "invalid document"

/-- A collection of the default world. -/
def notes : CollectionRef := ⟨{}, str "app:notes"⟩

/-- `service.set(notes, "draft", value, admin)`. -/
def setDraft (value : PyObject) : ServiceCall :=
  .apply {} (.setProperty { ref := notes, key := str "draft", value }) { rawAdmin := true } false

/-- An empty world after that call ran alone. -/
noncomputable def drafted (value : PyObject) :
    Library.Pool.State serviceInterface World ServiceCall (Except PyError CallResult) :=
  (⟨{}, []⟩ : Library.Pool.State serviceInterface World ServiceCall _).alone
    (serviceSystem (fun _ => 0) plainInterpreter) (respond fun _ => 0) (setDraft value)

theorem run_drafted (value : PyObject) :
    Run (serviceSystem (fun _ => 0) plainInterpreter) {} (drafted value) :=
  Run.nil.alone (acts_respond fun _ => 0) (setDraft value)

/-- The theorem at a run that stores a flag. -/
theorem stores_only_legal_data_flag :
    (contents (drafted (.bool true)).world.adapter.store notes).isSome = true ∧
      ∃ captured, (drafted (.bool true)).world.adapter.capture (fun _ => 0) notes = .ok captured ∧
        captured.ok = true := by
  have hwritten : (contents (drafted (.bool true)).world.adapter.store notes).isSome = true := rfl
  have hservice : ∀ c ∈ (drafted (.bool true)).calls, c.job.service = {} := by
    intro c hc
    rw [List.mem_singleton.mp hc]
    rfl
  refine ⟨hwritten, (stores_only_legal_data (run_drafted (.bool true)) rfl hservice
    fun c hc operation hop value hvalue => ?_).2.1 notes rfl (.inl hwritten)⟩
  rw [List.mem_singleton.mp hc] at hop
  rw [List.mem_singleton.mp hop] at hvalue
  rw [List.mem_singleton.mp hvalue]
  exact id

/-- `None` is no value `_value_type` knows.  A call that writes it raises after the
write, and then the collection cannot be captured. -/
theorem stores_poison :
    Run (serviceSystem (fun _ => 0) plainInterpreter) {} (drafted .none) ∧
    (∃ c ∈ (drafted .none).calls, c.job = setDraft .none ∧
      c.Returned (.error (.typeError (str "unsupported dynamic-property type: NoneType")))) ∧
    contents ({} : World).adapter.store notes = none ∧
    (contents (drafted .none).world.adapter.store notes).bind (·[str "draft"]?) = some .none ∧
    ¬ LegalValue {} .none ∧
    targetAvailable (drafted .none).world.adapter.availability notes.target = true ∧
    (drafted .none).world.adapter.capture (fun _ => 0) notes =
      .error (.typeError (str "unsupported dynamic-property type: NoneType")) := by
  refine ⟨run_drafted .none, ⟨_, List.mem_singleton_self _, rfl, ?_⟩, rfl, rfl, fun h => ?_, rfl,
    rfl⟩
  · show Program.done _ = Program.done _
    rfl
  · obtain ⟨type, htype⟩ := h.typed
    cases htype

end DynamicProperties.Python
