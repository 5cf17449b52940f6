import DynamicProperties.Cpp.Legality

/-!
# The gate for external mutations

`beforeExternalMutation` asks twice: before its listeners run, and again under the
commit lock afterwards.  The second answer is the one the decision rests on, so what
the listeners did in between does not matter.
-/

namespace DynamicProperties.Cpp

open DynamicProperties.Library.OrderedMap
open DynamicProperties.Library.Requests
open DynamicProperties.Library.Requests.Program

/-- In this world the operation passes validation and the limit check, and applying it
leaves no participating collection over the limit. -/
structure Admits (service : DynamicPropertyService) (operation : DynamicPropertyOperation)
    (context : AccessContext) (world : World) : Prop where
  valid : service.validateOperation operation
    (DynamicPropertyService.externalContext context) = none
  within : limitError world.adapter service.limits [operation] = none
  keeps : ∀ force, (world.adapter.apply operation force).1.ok = true →
    ∀ ref ∈ operationCollections operation,
      sizeAt (contents (world.adapter.apply operation force).2.store) ref ≤
        service.limits.maxPropertiesPerCollection

section Gate

variable {service : DynamicPropertyService} {operation : DynamicPropertyOperation}
  {context : AccessContext} {cancellable : Bool}

/-- What the revalidation under the lock lets through is admissible there. -/
theorem admits_of_commitError {world : World}
    (h : service.commitError world.adapter [operation]
      (DynamicPropertyService.externalContext context) = none) :
    Admits service operation context world := by
  obtain ⟨hvalidate, hlimit⟩ := orElse_eq_none.mp h
  have hmem : operation ∈ [operation] := List.mem_singleton_self operation
  have hvalid := List.findSome?_eq_none_iff.mp hvalidate operation hmem
  refine ⟨hvalid, hlimit, fun force happlied ref href => ?_⟩
  have happlies : world.adapter.AppliesAll [operation] force :=
    InMemoryAdapter.appliesAll_iff.mpr ⟨happlied, trivial⟩
  have hwithin := happlies.within
    (fun op hop => List.mem_singleton.mp hop ▸ (validateOperation_none hvalid).movesElsewhere)
    hlimit (mem_namedCollections.mpr ⟨operation, hmem, href⟩)
  rwa [InMemoryAdapter.applyEach_cons_of_ok happlied] at hwithin

/-- What the answer of the gate means. -/
structure Decision (service : DynamicPropertyService) (operation : DynamicPropertyOperation)
    (context : AccessContext) (cancellable : Bool) (steps : List (Step serviceInterface World))
    (result : ExternalMutationGateResult) : Prop where
  cancels : result.decision = .cancel →
    cancellable = true ∧ service.capabilities.externalChangeCancellation = true
  admits : result.decision = .allow →
    ∃ last, steps.getLast? = some last ∧ Admits service operation context last.after

/-- An answer other than `Allow` only has to be cancellable. -/
private theorem decision_of_ne_allow {steps : List (Step serviceInterface World)}
    {result : ExternalMutationGateResult} (hallow : result.decision ≠ .allow)
    (hcancel : result.decision = .cancel →
      cancellable = true ∧ service.capabilities.externalChangeCancellation = true) :
    Decision service operation context cancellable steps result :=
  ⟨hcancel, fun h => absurd h hallow⟩

/-- A before event stops a cancellable call only. -/
theorem publishBefore_cancels (kind : DynamicPropertyEventKind) (transactionId : ByteString) :
    Ensures Acts (service.publishBefore kind operation context transactionId cancellable)
      fun _ out => out.1 = true → cancellable = true := by
  have hany : ∀ {α : Type} {p : ServiceProgram α}, Ensures Acts p fun _ _ => True :=
    fun _ _ _ => trivial
  refine ensures_bind hany fun _ snapshots _ => ?_
  refine ensures_bind hany fun _ out _ => ensures_done fun hcancelled => ?_
  exact (Bool.and_eq_true_iff.mp hcancelled).2

/-- **Every complete execution of the gate.** -/
theorem gate_decision :
    Ensures Acts (service.beforeExternalMutation operation context cancellable)
      fun steps result => Decision service operation context cancellable steps result := by
  unfold DynamicPropertyService.beforeExternalMutation
  refine ensures_call_bind fun before transactionId after _ => ?_
  have hrefused : ∀ (error : OperationResult) (steps : List (Step serviceInterface World)),
      Decision service operation context cancellable steps
        { decision := if cancellable && service.capabilities.externalChangeCancellation then
            .cancel else .observeOnly
          status := error.status, message := error.message, transactionId } := by
    intro error steps
    cases hcan : cancellable && service.capabilities.externalChangeCancellation with
    | false => exact decision_of_ne_allow nofun nofun
    | true => exact decision_of_ne_allow nofun fun _ => Bool.and_eq_true_iff.mp hcan
  dsimp only
  split
  · exact ensures_done (decision_of_ne_allow nofun nofun)
  cases service.validateOperation operation (DynamicPropertyService.externalContext context) with
  | some error => exact ensures_done (hrefused error _)
  | none =>
      refine ensures_bind (Q := fun _ _ => True) (fun _ _ _ => trivial) fun first error _ => ?_
      cases error with
      | some error => exact ensures_done (hrefused error _)
      | none =>
          refine ensures_bind (publishBefore_cancels _ transactionId) fun second out hcancels => ?_
          split
          · next hcancelled =>
            exact ensures_done (decision_of_ne_allow nofun fun _ =>
              Bool.and_eq_true_iff.mp (hcancels hcancelled))
          refine ensures_call_bind fun world verdict world' hact => ?_
          have hanswer : (verdict, world') =
            (service.commitError world.adapter [operation]
              (DynamicPropertyService.externalContext context), world) := hact
          obtain ⟨hverdict, rfl⟩ := Prod.mk.inj hanswer
          cases verdict with
          | some error => exact ensures_done (hrefused error _)
          | none =>
              dsimp only
              split
              · exact ensures_done (decision_of_ne_allow nofun nofun)
              · -- the revalidation is the last step the gate takes
                have hlast : ((⟨before, .makeTransactionId, transactionId, after⟩ ::
                    (first ++ (second ++ [⟨world', .revalidate service operation
                      (DynamicPropertyService.externalContext context), none, world'⟩])) :
                    List (Step serviceInterface World))).getLast? = some ⟨world',
                      .revalidate service operation
                        (DynamicPropertyService.externalContext context), none, world'⟩ := by
                  rw [← List.append_assoc, ← List.cons_append]
                  exact List.getLast?_concat
                exact ensures_done
                  ⟨nofun, fun _ => ⟨_, hlast, admits_of_commitError hverdict.symm⟩⟩

end Gate

end DynamicProperties.Cpp
