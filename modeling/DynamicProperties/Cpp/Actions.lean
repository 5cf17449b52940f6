import DynamicProperties.Library.Collections
import DynamicProperties.Library.Sequence
import DynamicProperties.Cpp.Effects

/-!
# The operations as actions on named collections

The planners of the effects module, read as steps that succeed or leave the store
alone (`effectStep`), are the actions of the collections library
(`effectStep_action`): what the library says about key sets holds of them.  A
collection transfer onto itself that removes its source is the one operation that
is no action; `validateOperation` refuses it (`MovesElsewhere`).
-/

namespace DynamicProperties.Cpp

open Std
open DynamicProperties.Library.OrderedMap
open DynamicProperties.Library.Footprint
open DynamicProperties.Library.Sequence
open DynamicProperties.Library.Collections

/-- The planner of an operation as a step that succeeds, or leaves the store. -/
def effectStep (operation : DynamicPropertyOperation) (look : Contents) : Bool × Contents :=
  match effect operation look with
  | .ok plan => (true, write look plan)
  | .error _ => (false, look)

theorem effectStep_ok {operation : DynamicPropertyOperation} {look : Contents}
    {plan : Plan CollectionRef (Option DynamicPropertyMap)}
    (h : effect operation look = .ok plan) :
    effectStep operation look = (true, write look plan) := by
  simp only [effectStep, h]

theorem effectStep_error {operation : DynamicPropertyOperation} {look : Contents}
    {failed : MutationFailure} (h : effect operation look = .error failed) :
    effectStep operation look = (false, look) := by
  simp only [effectStep, h]

/-- A collection transfer that removes its source goes somewhere else: the check
of `validateOperation` that the simulation relies on. -/
def MovesElsewhere : DynamicPropertyOperation → Prop
  | .transferCollection entry => entry.removeSource = true → entry.source ≠ entry.destination
  | _ => True

def ImportPolicy.policy : ImportPolicy → Policy
  | .failIfDestinationExists => .failIfExists
  | .merge => .merge
  | .replace => .replace

/-- An operation as an action. -/
def DynamicPropertyOperation.action :
    DynamicPropertyOperation → Action CollectionRef ByteString DynamicPropertyValue
  | .setProperty entry => .put entry.ref [(entry.key, entry.value)]
  | .setMany entry => .put entry.ref entry.values.toList
  | .removeProperty entry => .remove entry.ref [entry.key] entry.requireExisting
  | .removeMany entry => .remove entry.ref entry.keys entry.requireAllExisting
  | .clearCollection entry => .clear entry.ref entry.removeCollection
  | .renameCollection entry =>
      .carry entry.sourceRef entry.destinationRef entry.destinationPolicy.policy true
  | .transferProperty entry =>
      .transfer entry.source entry.sourceKey entry.destination entry.destinationKey
        entry.overwrite entry.removeSource
  | .transferCollection entry =>
      .carry entry.source entry.destination entry.destinationPolicy.policy entry.removeSource
  | .importCollection entry => .bring entry.destination entry.properties entry.policy.policy

/-- The collections an operation names are those of its action. -/
theorem action_refs (operation : DynamicPropertyOperation) :
    operation.action.refs = operationCollections operation := by
  cases operation <;> rfl

/-- Success and store of a planner's step. -/
def outcome (look : Contents)
    (planned : Except MutationFailure (Plan CollectionRef (Option DynamicPropertyMap))) :
    Option Contents :=
  match planned with
  | .ok plan => some (write look plan)
  | .error _ => none

theorem whenOk_effectStep (operation : DynamicPropertyOperation) (look : Contents) :
    whenOk effectStep id operation look = outcome look (effect operation look) := by
  cases hplan : effect operation look with
  | ok plan => simp [whenOk, effectStep_ok hplan, outcome]
  | error failed => simp [whenOk, effectStep_error hplan, outcome]

private theorem outcome_arrival (look : Contents) (destination : CollectionRef)
    (values : DynamicPropertyMap) (policy : ImportPolicy) :
    arrive policy.policy (look destination) values =
      (arrival (look destination) values policy).toOption := by
  cases policy <;> cases look destination <;> rfl

private theorem outcome_carry (look : Contents) (source destination : CollectionRef)
    (policy : ImportPolicy) (removeSource : Bool) :
    outcome look (carry look source destination policy removeSource) =
      act (.carry source destination policy.policy removeSource) look := by
  simp only [act, outcome_arrival, carry]
  cases look source with
  | none => rfl
  | some values =>
      simp only [Option.bind_some]
      cases arrival (look destination) values policy with
      | error failed => rfl
      | ok arrived => cases removeSource <;> rfl

private theorem outcome_removeProperty (look : Contents) (entry : RemovePropertyOperation) :
    outcome look (effect (.removeProperty entry) look) =
      act (.remove entry.ref [entry.key] entry.requireExisting) look := by
  simp only [effect, act]
  cases hlook : look entry.ref with
  | none =>
      have hsame : Function.update look entry.ref none = look := by
        rw [← hlook, Function.update_eq_self]
      cases entry.requireExisting <;> simp [outcome, hsame]
  | some properties =>
      by_cases hmem : entry.key ∈ properties
      · have hcontains : properties.contains entry.key = true :=
          ExtTreeMap.contains_iff_mem.mpr hmem
        simp [outcome, hcontains, hmem, eraseAll]
      · have hcontains : properties.contains entry.key = false :=
          Bool.eq_false_iff.mpr fun hc => hmem (ExtTreeMap.contains_iff_mem.mp hc)
        have hsame : Function.update look entry.ref (some properties) = look := by
          rw [← hlook, Function.update_eq_self]
        cases entry.requireExisting <;>
          simp [outcome, hcontains, hmem, eraseAll, erase_of_notMem hmem, hsame]

private theorem outcome_removeMany (look : Contents) (entry : RemoveManyOperation) :
    outcome look (effect (.removeMany entry) look) =
      act (.remove entry.ref entry.keys entry.requireAllExisting) look := by
  simp only [effect, act]
  cases hlook : look entry.ref with
  | none =>
      have hsame : Function.update look entry.ref none = look := by
        rw [← hlook, Function.update_eq_self]
      cases entry.requireAllExisting with
      | false => simp [outcome, hsame]
      | true => cases entry.keys <;> simp [outcome, hsame]
  | some properties =>
      have hmissing : (entry.requireAllExisting &&
            entry.keys.any fun key => !properties.contains key) = true ↔
          entry.requireAllExisting = true ∧ ∃ key ∈ entry.keys, key ∉ properties := by
        simp [← ExtTreeMap.contains_iff_mem]
      by_cases hrefused : entry.requireAllExisting = true ∧ ∃ key ∈ entry.keys, key ∉ properties
      · rw [Option.getD_some, if_pos hrefused]
        simp [outcome, hmissing.mpr hrefused]
      · rw [Option.getD_some, if_neg hrefused]
        simp [outcome, Bool.eq_false_iff.mpr (hmissing.not.mpr hrefused)]

private theorem outcome_transferProperty (look : Contents) (entry : TransferPropertyOperation) :
    outcome look (effect (.transferProperty entry) look) =
      act (.transfer entry.source entry.sourceKey entry.destination entry.destinationKey
        entry.overwrite entry.removeSource) look := by
  simp only [effect, act]
  cases hvalue : (look entry.source).bind (·[entry.sourceKey]?) with
  | none => rfl
  | some value =>
      obtain ⟨held, hsource, -⟩ := Option.bind_eq_some_iff.mp hvalue
      have hblocked : (!entry.overwrite &&
            ((look entry.destination).getD ∅).contains entry.destinationKey) = true ↔
          entry.destinationKey ∈ (look entry.destination).getD ∅ ∧ (!entry.overwrite) = true := by
        rw [Bool.and_eq_true, ExtTreeMap.contains_iff_mem, and_comm]
      simp only [Option.bind_some]
      by_cases hblock : entry.destinationKey ∈ (look entry.destination).getD ∅ ∧
          (!entry.overwrite) = true
      · rw [if_pos hblock, if_pos (hblocked.mpr hblock)]
        rfl
      · rw [if_neg hblock, if_neg (hblocked.not.mpr hblock)]
        cases entry.removeSource with
        | false => rfl
        | true =>
            by_cases hsame : entry.source = entry.destination
            · simp [outcome, hsame]
            · simp [outcome, hsame, hsource]

/-- **The planners are the actions.** -/
theorem effectStep_action {operation : DynamicPropertyOperation} (hmoves : MovesElsewhere operation)
    (look : Contents) : whenOk effectStep id operation look = act operation.action look := by
  rw [whenOk_effectStep]
  cases operation with
  | setProperty entry => rfl
  | setMany entry => rfl
  | removeProperty entry => exact outcome_removeProperty look entry
  | removeMany entry => exact outcome_removeMany look entry
  | clearCollection entry => rfl
  | renameCollection entry => exact outcome_carry _ _ _ _ _
  | transferProperty entry => exact outcome_transferProperty look entry
  | transferCollection entry =>
      have hremove : (entry.removeSource && entry.source != entry.destination) =
          entry.removeSource := by
        cases hr : entry.removeSource with
        | false => rfl
        | true => simpa using hmoves hr
      simp only [effect, hremove]
      exact outcome_carry _ _ _ _ _
  | importCollection entry =>
      simp only [effect, act, DynamicPropertyOperation.action, outcome_arrival]
      cases arrival (look entry.destination) entry.properties entry.policy <;> rfl

end DynamicProperties.Cpp
