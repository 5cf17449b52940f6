import DynamicProperties.Python.Legality

/-!
# The gate for external mutations in Python

`before_external_mutation` validates and simulates the operation first and lets its
listeners run afterwards.  So the state in which it decides is one it has not looked
at.  What it allows is admissible there (`Admits`) as long as that state still shows
the keys the gate captured (`gate_decision`).
-/

namespace DynamicProperties.Python

open Std
open DynamicProperties.Library.OrderedMap
open DynamicProperties.Library.Fallible
open DynamicProperties.Library.Collections
open DynamicProperties.Library.Requests
open DynamicProperties.Library.Raising

/-! ## What a passed limit check says -/

section Limits

variable {digest : Canonical → UInt64} {adapter : InMemoryAdapter} {operation : Operation}
  {force : Bool}

/-- What the adapter reports as applied took effect. -/
theorem act_of_applied (hmoves : MovesElsewhere operation)
    (h : returnsApplied (adapter.apply digest operation force).1 = true) :
    act operation.action (contents adapter.store) =
      some (contents (adapter.apply digest operation force).2.store) := by
  have happlied : returnsApplied
      (applyIn digest adapter.availability adapter.store operation force).1 = true := h
  show _ = some (contents (applyIn digest adapter.availability adapter.store operation force).2)
  cases hcheck : checkParticipants digest adapter.availability adapter.store operation force
      (operationRefs operation).eraseDups [] with
  | error raised =>
      simp only [applyIn, hcheck] at happlied
      cases happlied
  | ok outcome =>
      cases outcome with
      | error result =>
          simp only [applyIn, hcheck] at happlied
          have hnot : returnsApplied (.ok result) = false := checkParticipants_refused hcheck
          exact absurd (happlied.symm.trans hnot) (by decide)
      | ok before =>
          have hspec := mutate_spec hmoves adapter.store
          rcases hmutate : mutate adapter.store operation with ⟨written, _ | failed⟩
          · rw [hmutate] at hspec
            simp only [applyIn, hcheck, hmutate]
            exact hspec
          · rw [hmutate] at hspec
            simp only [applyIn, hcheck, hmutate] at happlied
            exact absurd (of_decide_eq_true happlied) hspec.2.1

/-- **What passes the check and is then applied keeps within the limit.** -/
theorem applied_within {limits : ValidationLimits} (hmoves : MovesElsewhere operation)
    (hlimits : validatePropertyLimits digest adapter limits [operation] = .ok none)
    (happlied : returnsApplied (adapter.apply digest operation force).1 = true) :
    ∀ ref ∈ operationRefs operation,
      sizeAt (contents (adapter.apply digest operation force).2.store) ref ≤
        limits.maxPropertiesPerCollection := by
  intro ref href
  obtain ⟨shadow, hcaptured, hover⟩ := validatePropertyLimits_none hlimits
  have htracks := captureShadow_tracks hcaptured (tracks_empty adapter)
  have hnamed : ∀ r ∈ operationRefs operation, False ∨ r ∈ namedRefs [operation] := fun r hr =>
    .inr (mem_namedRefs.mpr ⟨operation, List.mem_singleton_self _, hr⟩)
  obtain ⟨after, hstep, hafter⟩ := htracks.step hnamed (act_of_applied hmoves happlied)
  have hwithin : after.exceeds limits.maxPropertiesPerCollection = false := by
    rw [Shadow.overflows, hstep] at hover
    cases hexceeds : after.exceeds limits.maxPropertiesPerCollection with
    | false => rfl
    | true =>
        simp only [hexceeds, if_true] at hover
        cases hover
  have hnot := (hafter.exceeds_iff limits.maxPropertiesPerCollection).not.mp
    (Bool.eq_false_iff.mp hwithin)
  by_contra hlarge
  exact hnot ⟨ref, hnamed ref href, by omega⟩

end Limits

/-! ## The decision -/

/-- In this world the operation passes validation and the limit check, and so applying
it leaves no participating collection over the limit. -/
structure Admits (digest : Canonical → UInt64) (service : DynamicPropertyService)
    (operation : Operation) (context : AccessContext) (world : World) : Prop where
  valid : service.validateOperation operation
    (DynamicPropertyService.externalContext context) = .ok none
  within : validatePropertyLimits digest world.adapter service.limits [operation] = .ok none
  keeps : ∀ force, returnsApplied (world.adapter.apply digest operation force).1 = true →
    ∀ ref ∈ operationRefs operation,
      sizeAt (contents (world.adapter.apply digest operation force).2.store) ref ≤
        service.limits.maxPropertiesPerCollection

/-- A capture in this world shows the keys of the snapshot, and whether the collection
exists. -/
def Shows (digest : Canonical → UInt64) (world : World) (ref : CollectionRef)
    (snapshot : CollectionSnapshot) : Prop :=
  ∃ captured shown, world.adapter.capture digest ref = .ok captured ∧
    captured.snapshot = some shown ∧ keySet shown.properties = keySet snapshot.properties ∧
    shown.exists_ = snapshot.exists_

/-- What the step captured, if it is a capture, this world still shows. -/
def StillShown (digest : Canonical → UInt64) (world : World) : ServiceStep → Prop
  | ⟨_, .capture ref, .ok captured, _⟩ =>
      ∀ snapshot ∈ captured.snapshot, Shows digest world ref snapshot
  | _ => True

section Gate

variable {digest : Canonical → UInt64} {world : World}

/-- A shadow records the keys of a snapshot and whether it exists. -/
theorem Shadow.record_congr (shadow : Shadow) (ref : CollectionRef)
    {first second : CollectionSnapshot} (hkeys : keySet first.properties = keySet second.properties)
    (hexists : first.exists_ = second.exists_) :
    shadow.record ref first = shadow.record ref second := by
  rw [Shadow.record, Shadow.record, hkeys, hexists]

/-- The captures of a call record what the world still shows. -/
theorem captureShadow_stillShown (world : World) (refs : List CollectionRef) :
    ∀ shadow, Ensures (Acts digest) (captureShadowOver Ask.capture refs shadow).run
      fun steps outcome => (∀ step ∈ steps, StillShown digest world step) →
        ∀ captured, outcome = .ok (.ok captured) →
          captureShadow digest world.adapter refs shadow = .ok (.ok captured) := by
  induction refs with
  | nil =>
      intro shadow
      refine ensures_done fun _ captured houtcome => ?_
      obtain rfl := Except.ok.inj (Except.ok.inj houtcome)
      rfl
  | cons ref rest ih =>
      intro shadow
      refine ensures_attempt_bind (fun _ _ _ _ _ _ _ captured h => by cases h)
        fun before response after result _ hanswer => ?_
      have hresponse : response = .ok result := hanswer
      subst hresponse
      cases hsnapshot : result.snapshot with
      | none => exact ensures_done fun _ captured h => by cases h
      | some snapshot =>
          refine ensures_mono (ih (shadow.record ref snapshot))
            fun steps outcome hrest hshown captured houtcome => ?_
          obtain ⟨hfirst, hothers⟩ := List.forall_mem_cons.mp hshown
          obtain ⟨now, shown, hnow, hnowSnapshot, hkeys, hexists⟩ := hfirst snapshot hsnapshot
          have hcaptured := hrest hothers captured houtcome
          rw [← shadow.record_congr ref hkeys hexists] at hcaptured
          refine bind_eq_ok.mpr ⟨now, hnow, ?_⟩
          rw [hnowSnapshot]
          exact hcaptured

/-- A check that passed passes wherever its captures are still shown. -/
theorem limits_stillShown (world : World) (limits : ValidationLimits)
    (operations : List Operation) :
    Ensures (Acts digest) (validatePropertyLimitsOver Ask.capture limits operations).run
      fun steps outcome => (∀ step ∈ steps, StillShown digest world step) →
        outcome = .ok none →
          validatePropertyLimits digest world.adapter limits operations = .ok none := by
  refine ensures_then (captureShadow_stillShown world _ {}) (fun steps error _ _ h => by cases h)
    fun first outcome hfirst => ?_
  cases outcome with
  | error error => exact ensures_done fun _ h => by cases h
  | ok shadow =>
      dsimp only
      split
      · exact ensures_done fun _ h => by cases h
      · next hover =>
        refine ensures_done fun hshown _ => ?_
        rw [List.append_nil] at hshown
        refine bind_eq_ok.mpr ⟨.ok shadow, hfirst hshown shadow rfl, ?_⟩
        exact if_neg hover

variable {service : DynamicPropertyService} {operation : Operation} {context : AccessContext}
  {cancellable : Bool}

/-- What the answer of the gate means. -/
structure Decision (digest : Canonical → UInt64) (service : DynamicPropertyService)
    (operation : Operation) (context : AccessContext) (cancellable : Bool)
    (steps : List ServiceStep) (result : ExternalMutationGateResult) : Prop where
  cancels : result.decision = .cancel →
    cancellable = true ∧ service.capabilities.externalChangeCancellation = true
  valid : result.decision = .allow →
    service.validateOperation operation (DynamicPropertyService.externalContext context) = .ok none
  within : result.decision = .allow → ∀ world, (∀ step ∈ steps, StillShown digest world step) →
    validatePropertyLimits digest world.adapter service.limits [operation] = .ok none

/-- An answer other than `Allow` only has to be cancellable. -/
private theorem decision_of_ne_allow {steps : List ServiceStep}
    {result : ExternalMutationGateResult} (hallow : result.decision ≠ .allow)
    (hcancel : result.decision = .cancel →
      cancellable = true ∧ service.capabilities.externalChangeCancellation = true) :
    Decision digest service operation context cancellable steps result :=
  ⟨hcancel, fun h => absurd h hallow, fun h => absurd h hallow⟩

/-- Every complete execution of the gate. -/
theorem gate_decision :
    Ensures (Acts digest) (service.beforeExternalMutation operation context cancellable).run
      fun steps outcome => steps ≠ [] ∧ ∀ result, outcome = .ok result →
        Decision digest service operation context cancellable steps result := by
  unfold DynamicPropertyService.beforeExternalMutation
  refine ensures_ask_bind fun before transactionId after _ => ?_
  have hrefused : ∀ (error : OperationResult) (steps : List ServiceStep),
      Decision digest service operation context cancellable steps
        { decision := if cancellable && service.capabilities.externalChangeCancellation then
            .cancel else .observeOnly
          status := error.status, message := error.message, transactionId } := by
    intro error steps
    cases hcan : cancellable && service.capabilities.externalChangeCancellation with
    | false => exact decision_of_ne_allow nofun nofun
    | true => exact decision_of_ne_allow nofun fun _ => Bool.and_eq_true_iff.mp hcan
  have hdone : ∀ {result : ExternalMutationGateResult},
      (∀ steps, Decision digest service operation context cancellable steps result) →
      Ensures (Acts digest) (pure result : RaisingCall ExternalMutationGateResult).run
        fun steps outcome =>
          (⟨before, .newTransactionId, transactionId, after⟩ : ServiceStep) :: steps ≠ [] ∧
          ∀ result, outcome = .ok result → Decision digest service operation context cancellable
            (⟨before, .newTransactionId, transactionId, after⟩ :: steps) result := by
    intro result h
    refine ensures_done ⟨List.cons_ne_nil _ _, fun result' heq => ?_⟩
    obtain rfl := Except.ok.inj heq
    exact h _
  dsimp only
  split
  · exact hdone fun steps => decision_of_ne_allow nofun nofun
  refine ensures_outcome_bind (fun _ _ => ⟨List.cons_ne_nil _ _, nofun⟩) fun verdict hverdict => ?_
  cases verdict with
  | some error => exact hdone (hrefused error)
  | none =>
      -- the limit check, and what it says wherever its captures are still shown
      have hlimits : Ensures (Acts digest)
          (validatePropertyLimitsOver Ask.capture service.limits [operation]).run
          fun steps outcome => ∀ world, (∀ step ∈ steps, StillShown digest world step) →
            outcome = .ok none →
              validatePropertyLimits digest world.adapter service.limits [operation] = .ok none :=
        fun steps outcome hexec world => limits_stillShown world service.limits [operation] steps
          outcome hexec
      refine ensures_then hlimits (fun _ _ _ => ⟨List.cons_ne_nil _ _, nofun⟩)
        fun first error hfirst => ?_
      cases error with
      | some error =>
          refine ensures_done ⟨List.cons_ne_nil _ _, fun result heq => ?_⟩
          obtain rfl := Except.ok.inj heq
          exact hrefused error _
      | none =>
          have hwithin : ∀ (steps : List ServiceStep) (world : World),
              (∀ step ∈ (⟨before, .newTransactionId, transactionId, after⟩ : ServiceStep) ::
                (first ++ steps), StillShown digest world step) →
              validatePropertyLimits digest world.adapter service.limits [operation] = .ok none :=
            fun steps world hshown => hfirst world (fun step hstep =>
              hshown step (List.mem_cons_of_mem _ (List.mem_append_left _ hstep))) rfl
          refine ensures_then (Q := fun _ _ => True) (fun _ _ _ => trivial)
            (fun _ _ _ => ⟨List.cons_ne_nil _ _, nofun⟩) fun second event _ => ?_
          split
          · next hcancelled =>
            refine ensures_done ⟨List.cons_ne_nil _ _, fun result heq => ?_⟩
            obtain rfl := Except.ok.inj heq
            have hcan := (Bool.and_eq_true_iff.mp hcancelled).2
            exact decision_of_ne_allow nofun fun _ => Bool.and_eq_true_iff.mp hcan
          · split
            · refine ensures_done ⟨List.cons_ne_nil _ _, fun result heq => ?_⟩
              obtain rfl := Except.ok.inj heq
              exact decision_of_ne_allow nofun nofun
            · refine ensures_done ⟨List.cons_ne_nil _ _, fun result heq => ?_⟩
              obtain rfl := Except.ok.inj heq
              exact ⟨nofun, fun _ => hverdict, fun _ world hshown => hwithin _ world hshown⟩

end Gate

end DynamicProperties.Python
