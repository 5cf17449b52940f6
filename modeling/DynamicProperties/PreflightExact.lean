import DynamicProperties.Cpp.Legality
import DynamicProperties.Python.Accepted

/-!
# The preflight is exact, in both implementations

For operations the service accepts, without expected revisions and on available
targets, the preflight reports the property-count error exactly where the adapter,
applying the operations one after another, gets past the limit.  The C++ side needs
no more; in Python captures must return, and the values written must be ones a
capture can show again.
-/

namespace DynamicProperties

namespace Cpp

/-- Some prefix of the operations is applied and leaves a named collection over
the limit. -/
def ExceedsLimit (adapter : InMemoryAdapter) (operations : List DynamicPropertyOperation)
    (force : Bool) (limit : Nat) : Prop :=
  ∃ n, 1 ≤ n ∧ n ≤ operations.length ∧ adapter.AppliesAll (operations.take n) force ∧
    ∃ operation ∈ operations, ∃ ref ∈ operationCollections operation,
      limit < sizeAt (contents (adapter.applyEach (operations.take n) force).2.store) ref

/-- An operation the service may hand to the preflight: accepted, without expected
revisions, on available targets. -/
structure Admissible (service : DynamicPropertyService) (adapter : InMemoryAdapter)
    (operation : DynamicPropertyOperation) : Prop where
  valid : ∃ context, service.validateOperation operation context = none
  unconditional : CarriesNoExpectation operation
  available : ∀ ref ∈ operationCollections operation,
    targetAvailable adapter.availability ref.target = true

/-- The planners overflow where the adapter does. -/
private theorem overflows_iff_exceedsLimit {adapter : InMemoryAdapter}
    {operations : List DynamicPropertyOperation}
    (hnone : ∀ operation ∈ operations, CarriesNoExpectation operation)
    (havail : ∀ operation ∈ operations, ∀ ref ∈ operationCollections operation,
      targetAvailable adapter.availability ref.target = true) (force : Bool) (limit : Nat) :
    Overflows (· ∈ namedCollections operations) limit operations (contents adapter.store) ↔
      ExceedsLimit adapter operations force limit := by
  refine exists_congr fun n => and_congr_right fun _ => and_congr_right fun _ => ?_
  constructor
  · rintro ⟨hall, ref, href, hlt⟩
    have happlies : adapter.AppliesAll (operations.take n) force :=
      appliesAll_of_succeeds (fun operation hmem => hnone operation (List.mem_of_mem_take hmem))
        (fun operation hmem => havail operation (List.mem_of_mem_take hmem)) hall
    obtain ⟨operation, hmem, href⟩ := mem_namedCollections.mp href
    exact ⟨happlies, operation, hmem, ref, href, by rwa [happlies.follows.2]⟩
  · rintro ⟨happlies, operation, hmem, ref, href, hlt⟩
    obtain ⟨hall, hstore⟩ := happlies.follows
    rw [hstore] at hlt
    exact ⟨hall, ref, mem_namedCollections.mpr ⟨operation, hmem, href⟩, hlt⟩

/-- What the preflight reports. -/
theorem limitError_of_admissible {service : DynamicPropertyService} {adapter : InMemoryAdapter}
    {operations : List DynamicPropertyOperation}
    (h : ∀ operation ∈ operations, Admissible service adapter operation) (force : Bool) :
    (limitError adapter service.limits operations = some propertyCountError ∧
      ExceedsLimit adapter operations force service.limits.maxPropertiesPerCollection) ∨
    (limitError adapter service.limits operations = none ∧
      ¬ ExceedsLimit adapter operations force service.limits.maxPropertiesPerCollection) := by
  have hmoves : ∀ operation ∈ operations, MovesElsewhere operation := by
    intro operation hmem
    obtain ⟨context, hvalid⟩ := (h operation hmem).valid
    exact (validateOperation_none hvalid).movesElsewhere
  have hiff := overflows_iff_exceedsLimit (fun operation hmem => (h operation hmem).unconditional)
    (fun operation hmem => (h operation hmem).available) force
    service.limits.maxPropertiesPerCollection
  rcases limitError_cases adapter service.limits operations hmoves with
    ⟨⟨ref, href, hunavailable⟩, -⟩ | ⟨-, hover, herror⟩ | ⟨-, hover, herror⟩
  · obtain ⟨operation, hmem, href⟩ := mem_namedCollections.mp href
    rw [(h operation hmem).available ref href] at hunavailable
    cases hunavailable
  · exact Or.inl ⟨herror, hiff.mp hover⟩
  · exact Or.inr ⟨herror, fun hprefix => hover (hiff.mpr hprefix)⟩

end Cpp

/-- **The preflight simulation is exact.** -/
theorem preflight_exact :
    (∀ (service : Cpp.DynamicPropertyService) (adapter : Cpp.InMemoryAdapter)
        (operations : List Cpp.DynamicPropertyOperation) (force : Bool),
      (∀ operation ∈ operations, Cpp.Admissible service adapter operation) →
      (Cpp.limitError adapter service.limits operations = some Cpp.propertyCountError ↔
        Cpp.ExceedsLimit adapter operations force service.limits.maxPropertiesPerCollection) ∧
      (¬ Cpp.ExceedsLimit adapter operations force service.limits.maxPropertiesPerCollection →
        Cpp.limitError adapter service.limits operations = none)) ∧
    (∀ (digest : Python.Canonical → UInt64) (service : Python.DynamicPropertyService)
        (adapter : Python.InMemoryAdapter) (operations : List Python.Operation) (force : Bool),
      (∀ operation ∈ operations, Python.Admissible digest service adapter operation) →
      (Python.validatePropertyLimits digest adapter service.limits operations =
          .ok (some Python.propertyCountError) ↔
        Python.ExceedsLimit digest adapter operations force
          service.limits.maxPropertiesPerCollection) ∧
      (¬ Python.ExceedsLimit digest adapter operations force
          service.limits.maxPropertiesPerCollection →
        Python.validatePropertyLimits digest adapter service.limits operations = .ok none)) := by
  constructor
  · intro service adapter operations force h
    rcases Cpp.limitError_of_admissible h force with ⟨herror, hover⟩ | ⟨herror, hover⟩
    · exact ⟨iff_of_true herror hover, fun hnot => absurd hover hnot⟩
    · exact ⟨iff_of_false (by simp [herror]) hover, fun _ => herror⟩
  · intro digest service adapter operations force h
    rcases Python.validatePropertyLimits_cases h force with ⟨herror, hover⟩ | ⟨herror, hover⟩
    · exact ⟨iff_of_true herror hover, fun hnot => absurd hover hnot⟩
    · exact ⟨iff_of_false (by simp [herror]) hover, fun _ => herror⟩

namespace Cpp

def switches : CollectionRef := ⟨{}, text "switches"⟩

def serviceOfOne : DynamicPropertyService := { limits := { maxPropertiesPerCollection := 1 } }

def administrator : AccessContext := { rawAdmin := true }

def switchOn (key : String) : DynamicPropertyOperation :=
  .setProperty { ref := switches, key := text key, value := .bool true }

private theorem admissible_switchOn {key : String}
    (hvalid : serviceOfOne.validateOperation (switchOn key) administrator = none) :
    Admissible serviceOfOne {} (switchOn key) where
  valid := ⟨administrator, hvalid⟩
  unconditional := by simp [CarriesNoExpectation, suppliedExpectations, switchOn]
  available := by simp [operationCollections, switchOn, targetAvailable]

end Cpp

namespace Python

def switches : CollectionRef := ⟨{}, str "switches"⟩

def serviceOfOne : DynamicPropertyService := { limits := { maxPropertiesPerCollection := 1 } }

def administrator : AccessContext := { rawAdmin := true }

/-- An adapter with one switch. -/
def adapterHolding (value : PyObject) : InMemoryAdapter where
  store := (∅ : Store).insert switches ((∅ : DynamicPropertyMap).insert (str "lamp") value)

def setSwitch (key : String) (value : PyObject) : Operation :=
  .setProperty { ref := switches, key := str key, value }

private theorem admissible_setSwitch {key : String} {value : Bool}
    (hvalid : serviceOfOne.validateOperation (setSwitch key (.bool value)) administrator =
      .ok none) :
    Admissible (fun _ => 0) serviceOfOne {} (setSwitch key (.bool value)) where
  valid := ⟨administrator, hvalid⟩
  unconditional := by simp [CarriesNoExpectation, suppliedExpectations, setSwitch]
  available := by simp [operationRefs, setSwitch, targetAvailable]
  captures := by
    intro ref href
    obtain rfl := List.mem_singleton.mp href
    exact ⟨_, rfl⟩
  values := by simp [suppliedValues, setSwitch, Recordable]

end Python

/-- Two switches in a collection that may hold one. -/
theorem preflight_exact_secondSwitch :
    Cpp.ExceedsLimit {} [Cpp.switchOn "lamp", Cpp.switchOn "fan"] false 1 ∧
      Python.ExceedsLimit (fun _ => 0) {} [Python.setSwitch "lamp" (.bool true),
        Python.setSwitch "fan" (.bool false)] false 1 := by
  constructor
  · refine (preflight_exact.1 Cpp.serviceOfOne {} _ false ?_).1.mp (by decide)
    simp only [List.forall_mem_cons, List.not_mem_nil, false_implies, implies_true, and_true]
    exact ⟨Cpp.admissible_switchOn (by decide), Cpp.admissible_switchOn (by decide)⟩
  · refine (preflight_exact.2 (fun _ => 0) Python.serviceOfOne {} _ false ?_).1.mp
      (by decide)
    simp only [List.forall_mem_cons, List.not_mem_nil, false_implies, implies_true, and_true]
    exact ⟨Python.admissible_setSwitch (by decide),
      Python.admissible_setSwitch (by decide)⟩

open Python in
/-- A write of `None` passes validation, and the simulation counts it; the adapter
raises on it, so no prefix is applied.  A lone surrogate in the store makes the first
capture of the simulation raise, whatever the operation writes. -/
theorem preflight_of_unwritable_values :
    (serviceOfOne.validateOperation (setSwitch "fan" .none) administrator = .ok none ∧
      CarriesNoExpectation (setSwitch "fan" .none) ∧
      targetAvailable (adapterHolding (.bool true)).availability switches.target = true ∧
      validatePropertyLimits (fun _ => 0) (adapterHolding (.bool true)) serviceOfOne.limits
          [setSwitch "fan" .none] = .ok (some propertyCountError) ∧
      ¬ ExceedsLimit (fun _ => 0) (adapterHolding (.bool true)) [setSwitch "fan" .none] false 1) ∧
    (serviceOfOne.validateOperation (setSwitch "fan" (.bool true)) administrator = .ok none ∧
      CarriesNoExpectation (setSwitch "fan" (.bool true)) ∧
      targetAvailable (adapterHolding (.str [0xD800])).availability switches.target = true ∧
      validatePropertyLimits (fun _ => 0) (adapterHolding (.str [0xD800])) serviceOfOne.limits
          [setSwitch "fan" (.bool true)] = .error .unicodeEncodeError) := by
  refine ⟨⟨by decide, by decide, by decide, by decide, ?_⟩,
    by decide, by decide, by decide, by decide⟩
  rintro ⟨n, hpos, hlen, happlies, -⟩
  obtain rfl : n = 1 := Nat.le_antisymm hlen hpos
  exact absurd happlies (by decide)

end DynamicProperties
