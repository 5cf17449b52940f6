import DynamicProperties.Python.LimitSimulation

/-!
# The preflight on accepted operations

What `_validate_operation` guarantees (`Accepted`), and from it the result of
`_validate_property_limits`: the property-count error where a prefix of the
operations overflows, and nothing elsewhere.  Validation looks at no value that is
`None`, and at a vector coordinate only through `math.isfinite`; that a value can be
written down in a snapshot is therefore asked for separately (`Recordable`).
-/

namespace DynamicProperties.Python

open Std
open DynamicProperties.Library.OrderedMap
open DynamicProperties.Library.Fallible
open DynamicProperties.Library.Collections

/-- The values an operation writes. -/
def suppliedValues : Operation → List PyObject
  | .setProperty entry => [entry.value]
  | .setMany entry => entry.values.items.map Prod.snd
  | .importCollection entry => entry.properties.items.map Prod.snd
  | _ => []

/-- The keys an operation writes. -/
def suppliedKeys : Operation → List Str
  | .setProperty entry => [entry.key]
  | .setMany entry => entry.values.items.map Prod.fst
  | .transferProperty entry => [entry.destinationKey]
  | .importCollection entry => entry.properties.items.map Prod.fst
  | _ => []

private theorem supplied_of_toDict {mapping : PropertyMapping} {key : Str} {value : PyObject}
    (h : mapping.toDict[key]? = some value) :
    key ∈ mapping.items.map Prod.fst ∧ value ∈ mapping.items.map Prod.snd := by
  rcases entry_of_insertEntries h with hempty | hmem
  · simp at hempty
  · exact ⟨List.mem_map_of_mem hmem, List.mem_map_of_mem hmem⟩

/-- What an operation brings is what it supplies. -/
theorem supplies_action {P : Str → Prop} {Q : PyObject → Prop} {operation : Operation}
    (hkeys : ∀ key ∈ suppliedKeys operation, P key)
    (hvalues : ∀ value ∈ suppliedValues operation, Q value) :
    operation.action.Supplies P Q := by
  cases operation with
  | setProperty entry =>
      intro written hmem
      obtain rfl := List.mem_singleton.mp hmem
      exact ⟨hkeys _ List.mem_cons_self, hvalues _ List.mem_cons_self⟩
  | setMany entry =>
      intro written hmem
      have hentry := supplied_of_toDict (ExtTreeMap.mem_toList_iff_getElem?_eq_some.mp hmem)
      exact ⟨hkeys _ hentry.1, hvalues _ hentry.2⟩
  | transferProperty entry => exact hkeys _ List.mem_cons_self
  | importCollection entry =>
      intro key value hentry
      exact ⟨hkeys _ (supplied_of_toDict hentry).1, hvalues _ (supplied_of_toDict hentry).2⟩
  | removeProperty entry | removeMany entry | clearCollection entry | renameCollection entry
  | transferCollection entry => trivial

section Validation

variable {service : DynamicPropertyService} {operation : Operation} {context : AccessContext}

private theorem encodable_of_validateKey {key : Str} {limits : ValidationLimits}
    (h : validateKey key limits = none) : Encodable key := by
  rw [← returns_encodeUtf8]
  unfold validateKey validateName at h
  split at h
  · cases h
  split at h
  · cases h
  split at h
  · cases h
  · exact ⟨_, ‹_›⟩

private theorem validateEntryKey_passes {key : Str} :
    service.validateEntryKey key = .ok () → Encodable key := fun h =>
  encodable_of_validateKey (requireNone_passes.mp h)

private theorem validateEntry_passes {key : Str} {value : PyObject}
    (h : service.validateEntry key value = .ok ()) : Encodable key :=
  validateEntryKey_passes (bind_passes.mp h).1

private theorem validateEntries_pass {mapping : PropertyMapping}
    (h : service.validateEntries mapping = .ok ()) :
    ∀ key ∈ mapping.items.map Prod.fst, Encodable key := by
  intro key hmem
  obtain ⟨entry, hentry, rfl⟩ := List.mem_map.mp hmem
  exact validateEntry_passes (forM_eq_ok.mp h entry hentry)

/-- What `_validate_operation` guarantees of an operation it returns `None` for. -/
structure Accepted (operation : Operation) : Prop where
  keys : ∀ key ∈ suppliedKeys operation, Encodable key
  moves : MovesElsewhere operation

theorem accepted_of_validateOperation
    (h : service.validateOperation operation context = .ok none) : Accepted operation := by
  have hshape : service.validateShape operation = .ok () :=
    (bind_passes.mp (report_none.mp h)).2
  cases operation with
  | setProperty entry =>
      refine ⟨fun key hmem => ?_, trivial⟩
      obtain rfl := List.mem_singleton.mp hmem
      exact validateEntry_passes (bind_passes.mp hshape).2
  | setMany entry | importCollection entry =>
      exact ⟨validateEntries_pass (bind_passes.mp (bind_passes.mp hshape).2).2, trivial⟩
  | transferProperty entry =>
      refine ⟨fun key hmem => ?_, trivial⟩
      obtain rfl := List.mem_singleton.mp hmem
      exact validateEntryKey_passes (bind_passes.mp (bind_passes.mp (bind_passes.mp hshape).2).2).1
  | transferCollection entry =>
      refine ⟨by simp [suppliedKeys], fun hremove hsame => ?_⟩
      exact require_passes.mp (bind_passes.mp hshape).2 ⟨hremove, hsame⟩
  | removeProperty entry | removeMany entry | clearCollection entry | renameCollection entry =>
      exact ⟨by simp [suppliedKeys], trivial⟩

end Validation

/-- An operation the service may hand to the preflight: accepted, without expected
revisions, on available targets, where captures return and every value it writes can
be captured again. -/
structure Admissible (digest : Canonical → UInt64) (service : DynamicPropertyService)
    (adapter : InMemoryAdapter) (operation : Operation) : Prop where
  valid : ∃ context, service.validateOperation operation context = .ok none
  unconditional : CarriesNoExpectation operation
  available : ∀ ref ∈ operationRefs operation,
    targetAvailable adapter.availability ref.target = true
  captures : ∀ ref ∈ operationRefs operation, Returns (adapter.capture digest ref)
  values : ∀ value ∈ suppliedValues operation, Recordable value

/-- **What the preflight reports.** -/
theorem validatePropertyLimits_cases {digest : Canonical → UInt64}
    {service : DynamicPropertyService} {adapter : InMemoryAdapter} {operations : List Operation}
    (h : ∀ operation ∈ operations, Admissible digest service adapter operation) (force : Bool) :
    (validatePropertyLimits digest adapter service.limits operations =
        .ok (some propertyCountError) ∧
      ExceedsLimit digest adapter operations force service.limits.maxPropertiesPerCollection) ∨
    (validatePropertyLimits digest adapter service.limits operations = .ok none ∧
      ¬ ExceedsLimit digest adapter operations force
        service.limits.maxPropertiesPerCollection) := by
  have havail : ∀ ref ∈ namedRefs operations,
      targetAvailable adapter.availability ref.target = true := by
    intro ref href
    obtain ⟨operation, hmem, href⟩ := mem_namedRefs.mp href
    exact (h operation hmem).available ref href
  have hread : ∀ ref ∈ namedRefs operations, Readable (contents adapter.store) ref := by
    intro ref href
    obtain ⟨operation, hmem, href'⟩ := mem_namedRefs.mp href
    exact readable_of_returns (havail ref href) ((h operation hmem).captures ref href')
  have hresponsive : Responsive (· ∈ namedRefs operations) adapter := by
    refine ⟨havail, fun ref href => (hread ref href).describable, fun ref values hlook => ?_⟩
    by_cases href : ref ∈ namedRefs operations
    · rw [restrict_of_named href] at hlook
      exact (hread ref href).entries values hlook
    · rw [restrict_of_not_named href] at hlook
      cases hlook
  have hsimulable : ∀ operation ∈ operations, Simulable (· ∈ namedRefs operations) operation := by
    intro operation hmem
    obtain ⟨context, hvalid⟩ := (h operation hmem).valid
    have haccepted := accepted_of_validateOperation hvalid
    exact ⟨fun ref href => mem_namedRefs.mpr ⟨operation, hmem, href⟩, haccepted.moves,
      (h operation hmem).unconditional, supplies_action haccepted.keys (h operation hmem).values⟩
  obtain ⟨shadow, hcaptured⟩ : ∃ shadow,
      captureShadow digest adapter (namedRefs operations) {} = .ok (.ok shadow) :=
    captureShadow_ok havail hread {}
  have hnamed : Tracks (· ∈ namedRefs operations) shadow adapter := by
    simpa only [false_or] using captureShadow_tracks hcaptured (tracks_empty adapter)
  have hiff := overflows_iff digest force service.limits.maxPropertiesPerCollection hnamed
    hresponsive hsimulable
  have hresult : validatePropertyLimits digest adapter service.limits operations =
      .ok (if shadow.overflows service.limits.maxPropertiesPerCollection operations then
        some propertyCountError else none) := by
    have hunfolded : captureShadowOver (adapter.capture digest) (namedRefs operations) {} =
        .ok (.ok shadow) := hcaptured
    rw [validatePropertyLimits, validatePropertyLimitsOver, hunfolded]
    simp only [bind, Except.bind]
    split <;> rfl
  by_cases hover : shadow.overflows service.limits.maxPropertiesPerCollection operations = true
  · rw [if_pos hover] at hresult
    exact Or.inl ⟨hresult, hiff.mp hover⟩
  · rw [if_neg hover] at hresult
    exact Or.inr ⟨hresult, fun hprefix => hover (hiff.mpr hprefix)⟩

end DynamicProperties.Python
