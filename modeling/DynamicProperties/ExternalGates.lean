import DynamicProperties.Cpp.Gate
import DynamicProperties.Python.Gate
import DynamicProperties.Python.StoreIntegrity

/-!
# The gates for external mutations on both sides

Both gates answer `Cancel` only where they may cancel.  What the C++ gate allows is
admissible in the state in which it decides.  The Python gate does not look again
after its listeners ran: what it allows is admissible if that state still shows what
the gate captured, and need not be otherwise.
-/

namespace DynamicProperties

open DynamicProperties.Library.OrderedMap
open DynamicProperties.Library.Pool
open DynamicProperties.Library.Requests
open DynamicProperties.Library.Raising

/-- **What both gates let through.** -/
theorem gates_admit (digest : Python.Canonical → UInt64) :
    (∀ (service : Cpp.DynamicPropertyService) operation context cancellable,
      Ensures Cpp.Acts (service.beforeExternalMutation operation context cancellable)
        fun steps result =>
          (result.decision = .cancel →
            cancellable = true ∧ service.capabilities.externalChangeCancellation = true) ∧
          (result.decision = .allow → ∃ last, steps.getLast? = some last ∧
            Cpp.Admits service operation context last.after)) ∧
    (∀ (service : Python.DynamicPropertyService) operation context cancellable,
      Ensures (Python.Acts digest)
        (service.beforeExternalMutation operation context cancellable).run fun steps outcome =>
          ∀ result, outcome = .ok result →
            (result.decision = .cancel →
              cancellable = true ∧ service.capabilities.externalChangeCancellation = true) ∧
            (result.decision = .allow → ∃ last, steps.getLast? = some last ∧
              ((∀ step ∈ steps, Python.StillShown digest last.after step) →
                Python.Admits digest service operation context last.after))) := by
  constructor
  · intro service operation context cancellable steps result hexec
    have hdecision := Cpp.gate_decision steps result hexec
    exact ⟨hdecision.cancels, hdecision.admits⟩
  · intro service operation context cancellable steps outcome hexec result hresult
    obtain ⟨hsteps, hall⟩ := Python.gate_decision steps outcome hexec
    have hdecision := hall result hresult
    refine ⟨hdecision.cancels, fun hallow => ⟨steps.getLast hsteps,
      List.getLast?_eq_some_getLast hsteps,
      fun hshown => ?_⟩⟩
    have hvalid := hdecision.valid hallow
    have hwithin := hdecision.within hallow (steps.getLast hsteps).after hshown
    have hmoves := (Python.accepted_of_validateOperation hvalid).moves
    exact ⟨hvalid, hwithin, fun force happlied => Python.applied_within hmoves hwithin happlied⟩

/-! ## A listener that fills the collection -/

namespace Python

/-- A service that allows one property in a collection. -/
def narrowService : DynamicPropertyService := { limits := { maxPropertiesPerCollection := 1 } }

/-- `SetPropertyOperation(notes, key, True)`. -/
def flag (key : String) : Operation :=
  .setProperty { ref := notes, key := str key, value := .bool true }

/-- The gate is asked about one property. -/
def askGate : ServiceCall :=
  .beforeExternalMutation narrowService (flag "draft") { rawAdmin := true } true

/-- The gate run alone in an empty world. -/
def quietGate : RaisingCall ExternalMutationGateResult :=
  narrowService.beforeExternalMutation (flag "draft") { rawAdmin := true } true

/-- The world it leaves: nobody writes, so every capture is still shown. -/
def quietWorld : World := (respond (fun _ => 0) {} .newTransactionId).2

theorem quietGate_stillShown : ∀ step ∈ runSteps (respond fun _ => 0) quietGate.run {},
    StillShown (fun _ => 0) quietWorld step := by
  have hcapture : StillShown (fun _ => 0) quietWorld ⟨quietWorld, .capture notes,
      (respond (fun _ => 0) quietWorld (.capture notes)).1, quietWorld⟩ := by
    intro snapshot hsnapshot
    exact ⟨_, snapshot, rfl, hsnapshot, rfl, rfl⟩
  exact List.forall_mem_cons.mpr ⟨trivial, List.forall_mem_cons.mpr ⟨hcapture,
    List.forall_mem_cons.mpr ⟨hcapture, List.forall_mem_singleton.mpr trivial⟩⟩⟩

/-- What it allows there is admissible. -/
theorem gates_admit_quietGate :
    (run (respond fun _ => 0) quietGate.run {}).1.map (·.decision) = .ok .allow ∧
      Admits (fun _ => 0) narrowService (flag "draft") { rawAdmin := true } quietWorld := by
  have hexec := executes_run (acts_respond fun _ => 0) quietGate.run ({} : World)
  have hboth := gates_admit fun _ => 0
  obtain ⟨-, hallow⟩ := hboth.2 narrowService (flag "draft") { rawAdmin := true }
    true _ _ hexec _ rfl
  obtain ⟨last, hlast, hadmits⟩ := hallow rfl
  obtain rfl := Option.some.inj hlast
  exact ⟨rfl, hadmits quietGate_stillShown⟩

/-- Its listener writes another. -/
def fillNotes : ServiceCall := .apply narrowService (flag "title") { rawAdmin := true } false

/-- A world with one listener for the events of the gate. -/
def listening : World :=
  ({} : World).updateBus 0 fun events =>
    (events.subscribe { kind := some .beforeExternalMutation }).2

/-- The gate is asked, and its listener, the next to answer after four steps, writes. -/
noncomputable def filled :
    Library.Pool.State serviceInterface World ServiceCall (Except PyError CallResult) :=
  (⟨listening, []⟩ : Library.Pool.State serviceInterface World ServiceCall _).nested
    (serviceSystem (fun _ => 0) plainInterpreter) (respond fun _ => 0) askGate fillNotes 4

theorem run_filled : Run (serviceSystem (fun _ => 0) plainInterpreter) {} filled :=
  have hlistening : Interferes {} listening := .subscribe 0 { kind := some .beforeExternalMutation }
  (Run.move .nil (.interfere [] hlistening)).nested (acts_respond fun _ => 0) askGate fillNotes 4

/-- The gate allows the write in a state in which the limit check refuses it and in
which, applied, it leaves two properties. -/
theorem gate_admits_overfull :
    Run (serviceSystem (fun _ => 0) plainInterpreter) {} filled ∧
    ∃ c ∈ filled.calls, c.job = askGate ∧
      (∃ result, c.Returned (.ok (.gate result)) ∧ result.decision = .allow) ∧
      ∃ last, c.steps.getLast? = some last ∧
        validatePropertyLimits (fun _ => 0) last.after.adapter narrowService.limits
          [flag "draft"] = .ok (some propertyCountError) ∧
        returnsApplied (last.after.adapter.apply (fun _ => 0) (flag "draft") false).1 = true ∧
        narrowService.limits.maxPropertiesPerCollection <
          sizeAt (contents (last.after.adapter.apply (fun _ => 0) (flag "draft") false).2.store)
            notes := by
  refine ⟨run_filled, _, List.mem_cons_self, rfl, ⟨_, rfl, rfl⟩, _, rfl, ?_, ?_, ?_⟩
  · rfl
  · rfl
  · show (1 : Int) < 2
    decide

end Python

end DynamicProperties
