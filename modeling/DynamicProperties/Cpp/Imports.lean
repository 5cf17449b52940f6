import DynamicProperties.Cpp.Traces
import DynamicProperties.Cpp.Undisturbed

/-!
# Imports that replace their destination

`importCollection` with policy `Replace`, undisturbed: it applies where the document
decodes to properties that pass validation, and then the destination holds them
(`returns_importCollection`).
-/

namespace DynamicProperties.Cpp

open Std
open DynamicProperties.Library
open DynamicProperties.Library.Footprint
open DynamicProperties.Library.Requests
open DynamicProperties.Library.Sequence
open DynamicProperties.Library.TwoRuns

/-! ## When an import is accepted -/

section Import

variable {service : DynamicPropertyService} {context : AccessContext}

theorem checkReference_eq_none {ref : CollectionRef} {denied : ByteString}
    (hcapability : targetCapability service.capabilities ref.target.kind = true)
    (hlegal : LegalReference service.limits ref)
    (haccess : service.accessPolicy.canAccess context ref = true) :
    service.checkReference context ref denied = none := by
  unfold DynamicPropertyService.checkReference DynamicPropertyService.validateCapability
  rw [hlegal.1]
  simp only [hcapability, hlegal.2, haccess, Bool.not_true, Bool.false_eq_true, if_false]

theorem validateEntry_eq_none {key : ByteString} {value : DynamicPropertyValue}
    (hkey : LegalKey service.limits key) (hvalue : LegalValue service.limits value) :
    service.validateEntry key (some value) = none := by
  unfold LegalKey at hkey
  unfold LegalValue at hvalue
  unfold DynamicPropertyService.validateEntry
  simp only [hkey, hvalue, Bool.not_true, Bool.false_eq_true, if_false]

/-- The entries of a map, each with a legal key and a legal value. -/
theorem validateEntries_eq_none_iff {values : DynamicPropertyMap} :
    service.validateEntries values = none ↔
      ∀ key value, values[key]? = some value →
        LegalKey service.limits key ∧ LegalValue service.limits value := by
  refine ⟨validateEntries_none, fun h => List.findSome?_eq_none_iff.mpr fun entry hentry => ?_⟩
  have hlegal := h entry.1 entry.2 (ExtTreeMap.mem_toList_iff_getElem?_eq_some.mp hentry)
  exact validateEntry_eq_none hlegal.1 hlegal.2

/-- The operation `importCollection` applies when it replaces its destination. -/
def replacement (destination : CollectionRef) (properties : DynamicPropertyMap) :
    DynamicPropertyOperation :=
  .importCollection
    { destination, properties, expectedDestinationRevision := none, policy := .replace }

/-- What `validateOperation` asks of a replacement. -/
theorem validateOperation_replacement_iff {destination : CollectionRef}
    {properties : DynamicPropertyMap} :
    service.validateOperation (replacement destination properties) context = none ↔
      service.validateReference context destination = none ∧
        service.capabilities.exportImport = true ∧
        properties.size ≤ service.limits.maxPropertiesPerCollection ∧
        ∀ key value, properties[key]? = some value →
          LegalKey service.limits key ∧ LegalValue service.limits value := by
  have hrefs : (operationCollections (replacement destination properties)).findSome?
      (service.validateReference context) = service.validateReference context destination :=
    List.findSome?_singleton
  have hcount : service.requireCount properties.size "import exceeds property-count limit" = none ↔
      properties.size ≤ service.limits.maxPropertiesPerCollection := by
    unfold DynamicPropertyService.requireCount
    split
    next hover => exact iff_of_false nofun (Nat.not_le.mpr hover)
    next hover => exact iff_of_true rfl (Nat.not_lt.mp hover)
  have hcapability : DynamicPropertyService.requireCapability service.capabilities.exportImport
      "adapter does not support import" = none ↔ service.capabilities.exportImport = true := by
    unfold DynamicPropertyService.requireCapability
    cases service.capabilities.exportImport <;> decide
  calc service.validateOperation (replacement destination properties) context = none
    _ ↔ service.validateReference context destination = none ∧
          service.validateShape (replacement destination properties) = none := by
        rw [DynamicPropertyService.validateOperation, hrefs, orElse_eq_none]
    _ ↔ _ := by
        refine and_congr_right fun _ => ?_
        show (_ <|> (_ <|> service.validateEntries properties)) = none ↔ _
        rw [orElse_eq_none, orElse_eq_none, hcapability, hcount, validateEntries_eq_none_iff]

/-- The planner of a replacement. -/
theorem effect_replacement (destination : CollectionRef) (properties : DynamicPropertyMap)
    (look : Contents) :
    effect (replacement destination properties) look = .ok [(destination, some properties)] := by
  have harrival : arrival (look destination) properties .replace = .ok properties := by
    cases look destination <;> rfl
  rw [replacement, effect, harrival]

/-- A replacement leaves what it brings, and nothing else moves. -/
theorem effectStep_replacement (destination : CollectionRef) (properties : DynamicPropertyMap)
    (look : Contents) :
    effectStep (replacement destination properties) look =
      (true, Function.update look destination (some properties)) := by
  rw [effectStep_ok (effect_replacement destination properties look)]
  rfl

variable {adapter : InMemoryAdapter} {destination : CollectionRef}
  {properties : DynamicPropertyMap}

theorem limitError_replacement
    (havailable : targetAvailable adapter.availability destination.target = true)
    {limits : ValidationLimits} (hcount : properties.size ≤ limits.maxPropertiesPerCollection) :
    limitError adapter limits [replacement destination properties] = none := by
  have hnamed : ∀ ref, ref ∈ namedCollections [replacement destination properties] →
      ref = destination := by
    intro ref href
    obtain ⟨operation, hoperation, hmem⟩ := mem_namedCollections.mp href
    rw [List.mem_singleton.mp hoperation] at hmem
    exact List.mem_singleton.mp hmem
  rcases limitError_cases adapter limits [replacement destination properties]
      (fun operation hoperation => List.mem_singleton.mp hoperation ▸ trivial) with
    ⟨⟨ref, href, hunavailable⟩, -⟩ | ⟨-, ⟨n, hone, hlength, -, ref, href, hover⟩, -⟩ | ⟨-, -, h⟩
  · rw [hnamed ref href, havailable] at hunavailable
    cases hunavailable
  · obtain rfl : n = 1 := Nat.le_antisymm hlength hone
    have hstep := effectStep_replacement destination properties (contents adapter.store)
    have hok : id (effectStep (replacement destination properties)
        (contents adapter.store)).1 = true := by
      rw [hstep]
      rfl
    rw [hnamed ref href, List.take_one, List.head?_cons, Option.toList_some,
      runUntil_cons_of_ok hok, hstep] at hover
    have hsize : sizeAt (Function.update (contents adapter.store) destination (some properties))
        destination = properties.size := by
      unfold sizeAt
      rw [Function.update_self]
      rfl
    exact absurd (hsize ▸ hover) (Nat.not_lt.mpr hcount)
  · exact h

theorem accepts_replacement
    (havailable : targetAvailable adapter.availability destination.target = true) :
    Accepts adapter.availability (contents adapter.store) (replacement destination properties)
      false where
  consistent := rfl
  available ref href := by
    rw [List.mem_singleton.mp href]
    exact havailable
  current _ ref _ := by
    intro expected hexpected
    have hnone : expectedRevision (replacement destination properties) ref = none := by
      show (if destination = ref then none else none) = (none : ExpectedRevision)
      split <;> rfl
    rw [hnone] at hexpected
    cases hexpected
  planned := ⟨_, effect_replacement destination properties _⟩

/-- A valid replacement of an available target is applied. -/
theorem commitApply_replacement
    (havailable : targetAvailable adapter.availability destination.target = true)
    (hvalid : service.validateOperation (replacement destination properties) context = none) :
    (commitResult
        (service.commitApply adapter (replacement destination properties) context false).1).status =
        .applied ∧
      contents (service.commitApply adapter (replacement destination properties) context
        false).2.store = Function.update (contents adapter.store) destination
          (some properties) := by
  have hcount := (validateOperation_replacement_iff.mp hvalid).2.2.1
  have hcommit : service.commitError adapter [replacement destination properties] context =
      none := by
    unfold DynamicPropertyService.commitError DynamicPropertyService.validateOperations
    rw [List.findSome?_singleton, hvalid, limitError_replacement havailable hcount]
    rfl
  have happly : service.commitApply adapter (replacement destination properties) context false =
      (.ok (adapter.apply (replacement destination properties) false).1,
        (adapter.apply (replacement destination properties) false).2) := by
    unfold DynamicPropertyService.commitApply
    rw [hcommit]
  have hok : (applyUnlocked adapter.availability adapter.store
      (replacement destination properties) false).1.ok = true :=
    applyUnlocked_ok_iff.mpr (accepts_replacement havailable)
  rw [happly]
  refine ⟨decide_eq_true_eq.mp hok, ?_⟩
  show contents (adapter.apply (replacement destination properties) false).2.store = _
  rw [InMemoryAdapter.apply_store, contents_applyUnlocked_of_ok hok, Footprint.run,
    effect_replacement destination properties]
  rfl

end Import

/-! ## The call -/

/-- The document decodes to properties that pass validation. -/
structure Importable (format : NumberFormat) (limits : ValidationLimits) (document : ByteString)
    (properties : DynamicPropertyMap) : Prop where
  decoded : decodeCollectionJson format document = .ok properties
  count : properties.size ≤ limits.maxPropertiesPerCollection
  legal : ∀ key value, properties[key]? = some value → LegalKey limits key ∧ LegalValue limits value

section Call

variable {format : NumberFormat} {service : DynamicPropertyService} {context : AccessContext}
  {destination : CollectionRef} {document : ByteString} {world world' : World}
  {result : OperationResult}

/-- A replacement is refused where it is not valid. -/
theorem commitApply_refused {adapter : InMemoryAdapter} {operation : DynamicPropertyOperation}
    {error : OperationResult} (h : service.validateOperation operation context = some error) :
    commitResult (service.commitApply adapter operation context false).1 = error := by
  unfold DynamicPropertyService.commitApply DynamicPropertyService.commitError
    DynamicPropertyService.validateOperations
  rw [List.findSome?_singleton, h]
  rfl

/-- What is applied goes to an available target. -/
theorem available_of_applied {adapter : InMemoryAdapter} {properties : DynamicPropertyMap}
    (h : (commitResult (service.commitApply adapter (replacement destination properties) context
      false).1).status = .applied) :
    targetAvailable adapter.availability destination.target = true := by
  unfold DynamicPropertyService.commitApply at h
  split at h
  next error herror =>
    exact absurd h (reports_commitError service context adapter _ error herror).1
  next =>
    have hok : (applyUnlocked adapter.availability adapter.store
        (replacement destination properties) false).1.ok = true := decide_eq_true h
    exact (applyUnlocked_ok_iff.mp hok).available destination (List.mem_singleton_self destination)

/-- **What an undisturbed import that replaces its destination does.** -/
theorem returns_importCollection (hunheard : Unheard world service.eventBus)
    (hreference : service.validateReference context destination = none)
    (hcapable : service.capabilities.exportImport = true)
    (hsize : document.length ≤ service.limits.maxImportBytes)
    (h : Returns (I := serviceInterface) Acts
      (service.importCollection format destination document context .replace) world result world') :
    (result.status = .applied ↔
      targetAvailable world.adapter.availability destination.target = true ∧
        ∃ properties, Importable format service.limits document properties) ∧
    (targetAvailable world.adapter.availability destination.target = true →
      ∀ properties, Importable format service.limits document properties →
        contents world'.adapter.store =
          Function.update (contents world.adapter.store) destination (some properties)) := by
  unfold DynamicPropertyService.importCollection at h
  rw [if_neg (Nat.not_lt.mpr hsize)] at h
  split at h
  next error hdecode =>
    obtain ⟨rfl, -⟩ := returns_done h
    refine ⟨iff_of_false nofun ?_, fun _ properties himport => ?_⟩
    · rintro ⟨-, properties, himport⟩
      cases hdecode.symm.trans himport.decoded
    · cases hdecode.symm.trans himport.decoded
  next properties hdecode =>
    obtain ⟨rfl, hadapter⟩ := returns_apply hunheard h
    have hvalid : service.validateOperation (replacement destination properties) context = none ↔
        Importable format service.limits document properties := by
      rw [validateOperation_replacement_iff]
      exact ⟨fun hall => ⟨hdecode, hall.2.2.1, hall.2.2.2⟩,
        fun himport => ⟨hreference, hcapable, himport.count, himport.legal⟩⟩
    have hsame : ∀ {mapping}, Importable format service.limits document mapping →
        mapping = properties := fun himport =>
      Except.ok.inj (himport.decoded.symm.trans hdecode)
    constructor
    · cases hverdict : service.validateOperation (replacement destination properties) context with
      | none =>
          constructor
          · exact fun happlied => ⟨available_of_applied happlied, properties, hvalid.mp hverdict⟩
          · exact fun h => (commitApply_replacement h.1 hverdict).1
      | some error =>
          have hrefused : commitResult (service.commitApply world.adapter
              (replacement destination properties) context false).1 = error :=
            commitApply_refused hverdict
          refine iff_of_false (fun happlied => ?_) fun ⟨_, mapping, himport⟩ => ?_
          · exact (reports_validateOperation service context _ error hverdict).1
              (hrefused ▸ happlied)
          · have hnone := hvalid.mpr (hsame himport ▸ himport)
            cases hverdict.symm.trans hnone
    · intro havailable mapping himport
      obtain rfl := hsame himport
      rw [hadapter]
      exact (commitApply_replacement havailable (hvalid.mpr himport)).2

end Call

end DynamicProperties.Cpp
