import DynamicProperties.Library.Collections
import DynamicProperties.Library.FiniteMap
import DynamicProperties.Python.Adapter

/-!
# The operations as actions on named collections

What `mutate` does to a store, said once (`mutate_spec`): the action of the
operation, or a failure that leaves the store alone.  A collection transfer onto
itself that removes its source is the one operation that is no action;
`_validate_operation` refuses it (`MovesElsewhere`).
-/

namespace DynamicProperties.Python

open Std
open DynamicProperties.Library.OrderedMap
open DynamicProperties.Library.FiniteMap
open DynamicProperties.Library.Collections

/-- A store as a lookup function. -/
abbrev Contents := Look CollectionRef Str PyObject

def contents (store : Store) : Contents := fun ref => store.lookup ref

@[simp] theorem contents_insert (store : Store) (ref : CollectionRef)
    (values : DynamicPropertyMap) :
    contents (store.insert ref values) = Function.update (contents store) ref (some values) :=
  lookup_insert_eq_update store ref values

@[simp] theorem contents_erase (store : Store) (ref : CollectionRef) :
    contents (store.erase ref) = Function.update (contents store) ref none :=
  lookup_erase_eq_update store ref

theorem lookup_eq_contents (store : Store) (ref : CollectionRef) :
    store.lookup ref = contents store ref := rfl

/-- A collection transfer that removes its source goes somewhere else. -/
def MovesElsewhere : Operation → Prop
  | .transferCollection entry => entry.removeSource = true → entry.source ≠ entry.destination
  | _ => True

def policyOf : ImportPolicy → Policy
  | .failIfDestinationExists => .failIfExists
  | .merge => .merge
  | .replace => .replace

/-- An operation as an action. -/
def Operation.action : Operation → Action CollectionRef Str PyObject
  | .setProperty entry => .put entry.ref [(entry.key, entry.value)]
  | .setMany entry => .put entry.ref entry.values.toDict.toList
  | .removeProperty entry => .remove entry.ref [entry.key] entry.requireExisting
  | .removeMany entry => .remove entry.ref entry.keys entry.requireAllExisting
  | .clearCollection entry => .clear entry.ref entry.removeCollection
  | .renameCollection entry =>
      .carry entry.sourceRef entry.destinationRef (policyOf entry.destinationPolicy) true
  | .transferProperty entry =>
      .transfer entry.source entry.sourceKey entry.destination entry.destinationKey
        entry.overwrite entry.removeSource
  | .transferCollection entry =>
      .carry entry.source entry.destination (policyOf entry.destinationPolicy) entry.removeSource
  | .importCollection entry =>
      .bring entry.destination entry.properties.toDict (policyOf entry.policy)

/-- The collections an operation names are those of its action. -/
theorem action_refs (operation : Operation) : operation.action.refs = operationRefs operation := by
  cases operation <;> rfl

/-! ## What `mutate` does -/

/-- Either the action took effect, or it is refused, with a status other than
`Applied` and the store as it was. -/
def Performs (action : Action CollectionRef Str PyObject) (store : Store) :
    Store × Option MutationFailure → Prop
  | (written, none) => act action (contents store) = some (contents written)
  | (written, some failed) =>
      act action (contents store) = none ∧ failed.status ≠ .applied ∧ written = store

/-- Values arrive at a destination. -/
private theorem writeDestination_spec (store : Store) (destination : CollectionRef)
    (values : DynamicPropertyMap) (policy : ImportPolicy) :
    match writeDestination store destination values policy with
    | (written, none) => ∃ arrived,
        arrive (policyOf policy) (contents store destination) values = some arrived ∧
          written = store.insert destination arrived
    | (written, some failed) =>
        arrive (policyOf policy) (contents store destination) values = none ∧
          failed.status ≠ .applied ∧ written = store := by
  unfold writeDestination
  rw [lookup_eq_contents]
  cases policy <;> cases contents store destination <;>
    simp [policyOf, arrive, conflict]

section Branches

variable (store : Store)

private theorem setDefault_spec (ref : CollectionRef) :
    (setDefault store ref).1 = (contents store ref).getD ∅ ∧
      ∀ values, contents ((setDefault store ref).2.insert ref values) =
        Function.update (contents store) ref (some values) := by
  unfold setDefault
  rw [lookup_eq_contents]
  cases contents store ref <;> simp

private theorem performs_put (ref : CollectionRef) (entries : List (Str × PyObject)) :
    Performs (.put ref entries) store
      ((setDefault store ref).2.insert ref (insertEntries (setDefault store ref).1 entries),
        none) := by
  obtain ⟨hvalues, hwritten⟩ := setDefault_spec store ref
  show act _ _ = _
  rw [hwritten, hvalues, act]

private theorem performs_removeProperty (entry : RemovePropertyOperation) :
    Performs (.remove entry.ref [entry.key] entry.requireExisting) store
      (mutate store (.removeProperty entry)) := by
  simp only [mutate, lookup_eq_contents]
  cases hlook : contents store entry.ref with
  | none =>
      have hsame : Function.update (contents store) entry.ref none = contents store := by
        rw [← hlook, Function.update_eq_self]
      cases entry.requireExisting <;> simp [Performs, act, hlook, hsame, notFound]
  | some values =>
      by_cases hmem : entry.key ∈ values
      · have hcontains : values.contains entry.key = true := ExtTreeMap.contains_iff_mem.mpr hmem
        simp [Performs, act, hlook, hcontains, hmem, eraseAll]
      · have hcontains : values.contains entry.key = false :=
          Bool.eq_false_iff.mpr fun hc => hmem (ExtTreeMap.contains_iff_mem.mp hc)
        have hsame : Function.update (contents store) entry.ref (some values) = contents store := by
          rw [← hlook, Function.update_eq_self]
        cases entry.requireExisting <;>
          simp [Performs, act, hlook, hcontains, hmem, eraseAll, erase_of_notMem hmem, hsame,
            notFound]

private theorem performs_removeMany (entry : RemoveManyOperation) :
    Performs (.remove entry.ref entry.keys entry.requireAllExisting) store
      (mutate store (.removeMany entry)) := by
  simp only [mutate]
  cases hlookup : store.lookup entry.ref with
  | none =>
      have hlook : contents store entry.ref = none := hlookup
      have hsame : Function.update (contents store) entry.ref none = contents store := by
        rw [← hlook, Function.update_eq_self]
      cases entry.requireAllExisting with
      | false => simp [Performs, act, hlook, hsame]
      | true => cases entry.keys <;> simp [Performs, act, hlook, hsame, notFound]
  | some values =>
      have hlook : contents store entry.ref = some values := hlookup
      have hmissing : (entry.requireAllExisting &&
            entry.keys.any fun key => (some values).all (!·.contains key)) = true ↔
          entry.requireAllExisting = true ∧ ∃ key ∈ entry.keys, key ∉ values := by
        simp [← ExtTreeMap.contains_iff_mem]
      by_cases hrefused : entry.requireAllExisting = true ∧ ∃ key ∈ entry.keys, key ∉ values
      · rw [if_pos (hmissing.mpr hrefused)]
        refine ⟨?_, by simp [notFound], rfl⟩
        rw [act, hlook, Option.getD_some, if_pos hrefused]
      · rw [if_neg (hmissing.not.mpr hrefused)]
        show act _ _ = _
        rw [act, hlook, Option.getD_some, if_neg hrefused]
        simp

private theorem performs_carry (source destination : CollectionRef) (policy : ImportPolicy)
    (drop : Bool) (values : DynamicPropertyMap) (hsource : contents store source = some values) :
    Performs (.carry source destination (policyOf policy) drop) store
      (match writeDestination store destination values policy with
        | (written, some failed) => (written, some failed)
        | (written, none) => if drop then (written.erase source, none) else (written, none)) := by
  have hspec := writeDestination_spec store destination values policy
  rcases hwrite : writeDestination store destination values policy with ⟨written, _ | failed⟩
  · rw [hwrite] at hspec
    obtain ⟨arrived, harrive, rfl⟩ := hspec
    cases drop <;> simp [Performs, act, hsource, harrive]
  · rw [hwrite] at hspec
    obtain ⟨harrive, hstatus, rfl⟩ := hspec
    exact ⟨by simp [act, hsource, harrive], hstatus, rfl⟩

private theorem performs_transferProperty (entry : TransferPropertyOperation) :
    Performs (.transfer entry.source entry.sourceKey entry.destination entry.destinationKey
      entry.overwrite entry.removeSource) store (mutate store (.transferProperty entry)) := by
  simp only [mutate, lookup_eq_contents]
  cases hvalue : (contents store entry.source).bind (·[entry.sourceKey]?) with
  | none => exact ⟨by simp only [act, hvalue, Option.bind_none], by simp [notFound], rfl⟩
  | some value =>
      obtain ⟨held, hsource, -⟩ := Option.bind_eq_some_iff.mp hvalue
      obtain ⟨hdefault, hwritten⟩ := setDefault_spec store entry.destination
      have hblocked : (((contents store entry.destination).getD ∅).contains entry.destinationKey &&
            !entry.overwrite) = true ↔
          entry.destinationKey ∈ (contents store entry.destination).getD ∅ ∧
            (!entry.overwrite) = true := by
        rw [Bool.and_eq_true, ExtTreeMap.contains_iff_mem]
      dsimp only
      rw [hdefault]
      by_cases hblock : entry.destinationKey ∈ (contents store entry.destination).getD ∅ ∧
          (!entry.overwrite) = true
      · rw [if_pos (hblocked.mpr hblock)]
        refine ⟨?_, by simp [conflict], ?_⟩
        · rw [act, hvalue, Option.bind_some, if_pos hblock]
        · -- a collection that holds the key was there before
          unfold setDefault
          rw [lookup_eq_contents]
          cases hdest : contents store entry.destination with
          | none => simp [hdest] at hblock
          | some values => rfl
      · rw [if_neg (hblocked.not.mpr hblock)]
        generalize hw : (setDefault store entry.destination).2.insert entry.destination
          (((contents store entry.destination).getD ∅).insert entry.destinationKey value) = written
        have hcontents : contents written = Function.update (contents store) entry.destination
            (some (((contents store entry.destination).getD ∅).insert
              entry.destinationKey value)) := by
          rw [← hw, hwritten]
        have hact : act (.transfer entry.source entry.sourceKey entry.destination
            entry.destinationKey entry.overwrite entry.removeSource) (contents store) =
            some (if entry.removeSource then
              Function.update (contents written) entry.source
                ((contents written entry.source).map (·.erase entry.sourceKey))
            else contents written) := by
          rw [act, hvalue, Option.bind_some, if_neg hblock, hcontents]
        cases hremove : entry.removeSource with
        | false =>
            rw [hremove] at hact
            exact hact
        | true =>
            rw [hremove, if_pos rfl] at hact
            rw [if_pos rfl]
            cases hread : contents written entry.source with
            | none =>
                show act _ _ = _
                rw [hact, hread, Option.map_none, ← hread, Function.update_eq_self]
            | some sourceValues =>
                show act _ _ = _
                rw [hact, hread, contents_insert]
                rfl

end Branches

/-- **What an operation does to a store.** -/
theorem mutate_spec {operation : Operation} (hmoves : MovesElsewhere operation) (store : Store) :
    Performs operation.action store (mutate store operation) := by
  cases operation with
  | setProperty entry => exact performs_put store entry.ref [(entry.key, entry.value)]
  | setMany entry => exact performs_put store entry.ref entry.values.toDict.toList
  | removeProperty entry => exact performs_removeProperty store entry
  | removeMany entry => exact performs_removeMany store entry
  | clearCollection entry =>
      simp only [mutate]
      cases hremove : entry.removeCollection <;>
        simp [Performs, Operation.action, act, hremove]
  | renameCollection entry =>
      simp only [mutate, lookup_eq_contents]
      cases hsource : contents store entry.sourceRef with
      | none => exact ⟨by simp [Operation.action, act, hsource], by simp [notFound], rfl⟩
      | some values => exact performs_carry store _ _ _ true values hsource
  | transferProperty entry => exact performs_transferProperty store entry
  | transferCollection entry =>
      have hremove : (entry.removeSource && entry.source != entry.destination) =
          entry.removeSource := by
        cases hr : entry.removeSource with
        | false => rfl
        | true => simpa using hmoves hr
      simp only [mutate, lookup_eq_contents, hremove]
      cases hsource : contents store entry.source with
      | none => exact ⟨by simp [Operation.action, act, hsource], by simp [notFound], rfl⟩
      | some values => exact performs_carry store _ _ _ entry.removeSource values hsource
  | importCollection entry =>
      have hspec :=
        writeDestination_spec store entry.destination entry.properties.toDict entry.policy
      simp only [mutate]
      rcases hwrite : writeDestination store entry.destination entry.properties.toDict
          entry.policy with ⟨written, _ | failed⟩
      · rw [hwrite] at hspec
        obtain ⟨arrived, harrive, rfl⟩ := hspec
        simp [Performs, Operation.action, act, harrive]
      · rw [hwrite] at hspec
        obtain ⟨harrive, hstatus, rfl⟩ := hspec
        exact ⟨by simp [Operation.action, act, harrive], hstatus, rfl⟩

end DynamicProperties.Python
