import DynamicProperties.Python.Accepted
import DynamicProperties.Python.Conduct

/-!
# What the Python service stores

`_validate_value` decides what may be stored and `_snapshot` what can be captured.
They agree on every value but two kinds (`Poisons`): `None`, which `validate_entry`
takes for the absence of a value, and a vector whose coordinates are finite to
`math.isfinite` though `json.dumps` cannot write one of them.  Without such a value
each write keeps the store legal: its values pass validation and its collections
can be captured (`LegalStore`).
-/

namespace DynamicProperties.Python

open Std
open DynamicProperties.Library.Fallible
open DynamicProperties.Library.Collections
open DynamicProperties.Library.Requests

/-! ## Values -/

/-- `_value_type` knows the value and `_validate_value` has no objection. -/
structure LegalValue (limits : ValidationLimits) (value : PyObject) : Prop where
  typed : Returns (valueType value)
  approved : validateValue value limits = .ok none

/-- Validation lets the value through, and a snapshot cannot be taken of it. -/
def Poisons : PyObject → Prop
  | .none => True
  | .vector3 x y z => allFinite [x, y, z] = .ok true ∧ ∃ c ∈ [x, y, z], checkJson c ≠ .ok ()
  | _ => False

/-- A legal value a snapshot can be taken of. -/
structure Storable (limits : ValidationLimits) (value : PyObject) : Prop
    extends LegalValue limits value where
  recordable : Recordable value

section Values

variable {limits : ValidationLimits}

/-- A value of no known type is reported. -/
theorem typed_of_approved {value : PyObject} (h : validateValue value limits = .ok none) :
    Returns (valueType value) := by
  unfold validateValue at h
  split at h
  · cases h
  · cases h
  all_goals exact ⟨_, ‹_›⟩

theorem recordable_of_approved {value : PyObject} (h : validateValue value limits = .ok none)
    (hclean : ¬ Poisons value) : Recordable value := by
  cases value with
  | none => exact absurd trivial hclean
  | bool value => trivial
  | float value => trivial
  | int value => cases h
  | other typeName asFloat serializable => cases h
  | str text =>
      show Encodable text
      rw [← returns_encodeUtf8]
      simp only [validateValue, valueType] at h
      cases hencoded : encodeUtf8 text with
      | ok octets => exact ⟨octets, rfl⟩
      | error raised =>
          rw [hencoded] at h
          cases h
  | vector3 x y z =>
      simp only [validateValue, valueType] at h
      obtain ⟨finite, hall, hverdict⟩ := bind_eq_ok.mp h
      have hfinite : allFinite [x, y, z] = .ok true := by
        cases finite with
        | true => exact hall
        | false => cases hverdict
      intro c hc
      by_contra hbad
      exact hclean ⟨hfinite, c, hc, hbad⟩

/-- A value that is approved and does not poison can be stored. -/
theorem storable_of_approved {value : PyObject} (h : validateValue value limits = .ok none)
    (hclean : ¬ Poisons value) : Storable limits value :=
  ⟨⟨typed_of_approved h, h⟩, recordable_of_approved h hclean⟩

end Values

/-! ## What validation establishes -/

section Validated

variable {service : DynamicPropertyService} {operation : Operation} {context : AccessContext}

/-- A value that is there is looked at. -/
theorem validateEntry_of_ne {key : Str} {value : PyObject} (hvalue : value ≠ .none) :
    service.validateEntry key value = service.validateEntryKey key >>= fun _ =>
      match validateValue value service.limits with
      | .error raised => .error (.raised raised)
      | .ok verdict => requireNone .invalidValue verdict := by
  cases value with
  | none => exact absurd rfl hvalue
  | bool value | int value | float value | str text | vector3 x y z
  | other typeName asFloat serializable => rfl

private theorem validateEntry_storable {key : Str} {value : PyObject}
    (h : service.validateEntry key value = .ok ()) (hclean : ¬ Poisons value) :
    Storable service.limits value := by
  have hpresent : value ≠ .none := fun heq => hclean (heq ▸ trivial)
  rw [validateEntry_of_ne hpresent] at h
  have hvalue := (bind_passes.mp h).2
  cases hverdict : validateValue value service.limits with
  | error raised =>
      rw [hverdict] at hvalue
      cases hvalue
  | ok verdict =>
      rw [hverdict] at hvalue
      rw [requireNone_passes.mp hvalue] at hverdict
      exact storable_of_approved hverdict hclean

private theorem validateEntries_storable {mapping : PropertyMapping}
    (h : service.validateEntries mapping = .ok ())
    (hclean : ∀ value ∈ mapping.items.map Prod.snd, ¬ Poisons value) :
    ∀ value ∈ mapping.items.map Prod.snd, Storable service.limits value := by
  intro value hmem
  obtain ⟨entry, hentry, rfl⟩ := List.mem_map.mp hmem
  exact validateEntry_storable (forM_eq_ok.mp h entry hentry) (hclean _ hmem)

/-- What an operation that passed validation writes, if nothing it supplies poisons. -/
theorem supplies_of_validateOperation
    (h : service.validateOperation operation context = .ok none)
    (hclean : ∀ value ∈ suppliedValues operation, ¬ Poisons value) :
    operation.action.Supplies Encodable (Storable service.limits) := by
  have hshape : service.validateShape operation = .ok () :=
    (bind_passes.mp (report_none.mp h)).2
  refine supplies_action (accepted_of_validateOperation h).keys ?_
  cases operation with
  | setProperty entry =>
      intro value hmem
      obtain rfl := List.mem_singleton.mp hmem
      exact validateEntry_storable (bind_passes.mp hshape).2 (hclean _ hmem)
  | setMany entry | importCollection entry =>
      exact validateEntries_storable (bind_passes.mp (bind_passes.mp hshape).2).2 hclean
  | removeProperty entry | removeMany entry | clearCollection entry | renameCollection entry
  | transferProperty entry | transferCollection entry =>
      exact fun _ hmem => absurd hmem List.not_mem_nil

end Validated

/-! ## Legal stores -/

/-- Every collection can be captured, and every value passes validation. -/
structure LegalStore (limits : ValidationLimits) (store : Store) : Prop where
  describable : ∀ ref values, contents store ref = some values → Describable ref.target
  entries : Everywhere Encodable (Storable limits) (contents store)

theorem legalStore_empty (limits : ValidationLimits) : LegalStore limits ∅ := by
  have hnone : ∀ ref, contents ∅ ref = none := fun ref => Finmap.lookup_empty ref
  constructor
  · intro ref values h
    rw [hnone] at h
    cases h
  · intro ref values h
    rw [hnone] at h
    cases h

theorem LegalStore.readable {limits : ValidationLimits} {store : Store}
    (h : LegalStore limits store) {ref : CollectionRef} (href : Describable ref.target) :
    Readable (contents store) ref :=
  ⟨href, fun values hlook key value hentry =>
    ⟨(h.entries ref values hlook key value hentry).1,
      (h.entries ref values hlook key value hentry).2.recordable⟩⟩

/-! ## The checks in front of a mutation -/

section Participants

variable {digest : Canonical → UInt64} {availability : Availability} {store : Store}
  {operation : Operation} {force : Bool}

/-- The first loop refuses with a failure. -/
theorem checkParticipants_refused {refs : List CollectionRef}
    {before : List CollectionSnapshot} {result : OperationResult}
    (h : checkParticipants digest availability store operation force refs before =
      .ok (.error result)) : result.ok = false := by
  induction refs generalizing before with
  | nil => cases h
  | cons ref rest ih =>
      rw [checkParticipants] at h
      obtain ⟨captured, hcapture, h⟩ := bind_eq_ok.mp h
      split at h
      · split at h
        · obtain rfl := Except.error.inj (Except.ok.inj h)
          rfl
        · exact ih h
      · next hnot =>
        obtain rfl := Except.error.inj (Except.ok.inj h)
        show decide (captured.status = .applied) = false
        rw [decide_eq_false_iff_not]
        intro happlied
        -- a capture has no such status
        unfold captureIn at hcapture
        split at hcapture
        · obtain rfl := Except.ok.inj hcapture
          cases happlied
        · split at hcapture
          all_goals
            obtain ⟨snapshot, -, hsnapshot⟩ := bind_eq_ok.mp hcapture
            obtain rfl := Except.ok.inj hsnapshot
            cases happlied

/-- The first loop passes only participants that were captured. -/
private theorem checkParticipants_passed {refs : List CollectionRef}
    {before taken : List CollectionSnapshot}
    (h : checkParticipants digest availability store operation force refs before =
      .ok (.ok taken)) :
    ∀ ref ∈ refs, targetAvailable availability ref.target = true ∧ Describable ref.target := by
  induction refs generalizing before with
  | nil => exact fun _ hmem => absurd hmem List.not_mem_nil
  | cons ref rest ih =>
      rw [checkParticipants] at h
      obtain ⟨captured, hcapture, h⟩ := bind_eq_ok.mp h
      split at h
      · next snapshot hok hsnapshot =>
        split at h
        · cases h
        · have havail := available_of_snapshot hcapture hsnapshot
          have hread := readable_of_returns havail ⟨captured, hcapture⟩
          exact List.forall_mem_cons.mpr ⟨⟨havail, hread.describable⟩, ih h⟩
      · cases h

variable {limits : ValidationLimits}

variable (digest availability force) in
/-- **What `_apply` does to a legal store.**  It applies the operation, and the store
it leaves is legal; or it leaves the store, and does not return `Applied`. -/
theorem applyIn_cases (hlegal : LegalStore limits store) (hmoves : MovesElsewhere operation)
    (hsupplies : operation.action.Supplies Encodable (Storable limits)) :
    (∃ result written, applyIn digest availability store operation force = (.ok result, written) ∧
      result.ok = true ∧ LegalStore limits written) ∨
    ((applyIn digest availability store operation force).2 = store ∧
      ∀ result, (applyIn digest availability store operation force).1 = .ok result →
        result.ok = false) := by
  cases hcheck : checkParticipants digest availability store operation force
      (operationRefs operation).eraseDups [] with
  | error raised =>
      refine Or.inr ⟨?_, fun result h => ?_⟩
      · simp only [applyIn, hcheck]
      · simp only [applyIn, hcheck] at h
        cases h
  | ok outcome =>
      cases outcome with
      | error result =>
          refine Or.inr ⟨?_, fun result' h => ?_⟩
          · simp only [applyIn, hcheck]
          · simp only [applyIn, hcheck] at h
            obtain rfl := Except.ok.inj h
            exact checkParticipants_refused hcheck
      | ok before =>
          have hpassed : ∀ ref ∈ operationRefs operation,
              targetAvailable availability ref.target = true ∧ Describable ref.target :=
            fun ref href => checkParticipants_passed hcheck ref (List.mem_eraseDups.mpr href)
          have hspec := mutate_spec hmoves store
          rcases hmutate : mutate store operation with ⟨written, _ | failed⟩
          · rw [hmutate] at hspec
            have hact : act operation.action (contents store) = some (contents written) := hspec
            have hwritten : LegalStore limits written := by
              refine ⟨fun ref values hlook => ?_, hlegal.entries.act hsupplies hact⟩
              by_cases href : ref ∈ operation.action.refs
              · exact (hpassed ref (action_refs operation ▸ href)).2
              · rw [act_frame hact href] at hlook
                exact hlegal.describable ref values hlook
            obtain ⟨captures, hcaptures⟩ : Returns ((operationRefs operation).eraseDups.mapM
                fun ref => captureIn digest availability written ref) := by
              refine returns_mapM.mpr fun ref href => ?_
              obtain ⟨havail, hdescribable⟩ := hpassed ref (List.mem_eraseDups.mp href)
              obtain ⟨captured, snapshot, hcapture, -⟩ :=
                (hwritten.readable hdescribable).capture digest havail
              exact ⟨captured, hcapture⟩
            have hresult : applyIn digest availability store operation force =
                (.ok { status := .applied, message := str "applied", before
                       after := captures.filterMap (·.snapshot)
                       resultingRevision := ((captures.filterMap (·.snapshot)).getLast?.map
                         (·.revision)).getD 0 }, written) := by
              simp only [applyIn, hcheck, hmutate, hcaptures]
              rfl
            exact Or.inl ⟨_, written, hresult, rfl, hwritten⟩
          · rw [hmutate] at hspec
            obtain ⟨-, hstatus, hsame⟩ := hspec
            refine Or.inr ⟨?_, fun result h => ?_⟩
            · simp only [applyIn, hcheck, hmutate]
              exact hsame
            · simp only [applyIn, hcheck, hmutate] at h
              obtain rfl := Except.ok.inj h
              exact decide_eq_false hstatus

end Participants

end DynamicProperties.Python
