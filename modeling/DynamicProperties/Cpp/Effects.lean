import DynamicProperties.Library.Footprint
import DynamicProperties.Cpp.Adapter

/-!
# What each operation does, as pointwise writes

The abstract model of the store is the function from references to contents
(`none` for a collection that does not exist).  `effect` states the purpose of
each of the nine operations there, as a planner: the collections it replaces
and by what, or the reason it refuses.

`mutate_spec` connects it with the visitor of the adapter, once for all nine
branches; every later module argues from `effect` alone.  Its two consequences
used most are `mutate_of_failure` (a failing branch leaves the store it was
given, although the source creates map entries before some of its checks) and
`effect_footprint` (an operation reads and writes only the collections it
names).
-/

namespace DynamicProperties.Cpp

open Std
open DynamicProperties.Library.OrderedMap
open DynamicProperties.Library.Footprint

/-- A store as a function: what each reference holds. -/
abbrev Contents := CollectionRef → Option DynamicPropertyMap

def contents (store : Store) : Contents := fun ref => store[ref]?

theorem contents_injective : Function.Injective contents := by
  intro store store' h
  apply ExtTreeMap.ext_getElem?
  intro ref
  exact congrFun h ref

@[simp] theorem contents_insert (store : Store) (ref : CollectionRef)
    (properties : DynamicPropertyMap) :
    contents (store.insert ref properties) =
      Function.update (contents store) ref (some properties) :=
  getElem?_insert_eq_update store ref properties

@[simp] theorem contents_erase (store : Store) (ref : CollectionRef) :
    contents (store.erase ref) = Function.update (contents store) ref none :=
  getElem?_erase_eq_update store ref

@[simp] theorem contents_empty (ref : CollectionRef) : contents ∅ ref = none := by
  simp [contents]

/-! ## The planners -/

/-- What a destination holds after values arrive under an import policy. -/
def arrival (existing : Option DynamicPropertyMap) (values : DynamicPropertyMap)
    (policy : ImportPolicy) : Except MutationFailure DynamicPropertyMap :=
  match policy, existing with
  | .failIfDestinationExists, some _ => .error (conflict "destination collection already exists")
  | .merge, some existing => .ok (overlay existing values)
  | _, _ => .ok values

/-- Carry a whole collection to a destination, removing the source if asked. -/
def carry (look : Contents) (source destination : CollectionRef) (policy : ImportPolicy)
    (removeSource : Bool) :
    Except MutationFailure (Plan CollectionRef (Option DynamicPropertyMap)) :=
  match look source with
  | none => .error (notFound "source collection does not exist")
  | some values =>
      match arrival (look destination) values policy with
      | .error failed => .error failed
      | .ok arrived =>
          .ok ((destination, some arrived) :: if removeSource then [(source, none)] else [])

/-- The nine operations, on the abstract store. -/
def effect : DynamicPropertyOperation →
    Planner CollectionRef (Option DynamicPropertyMap) MutationFailure
  | .setProperty entry, look =>
      .ok [(entry.ref, some (((look entry.ref).getD ∅).insert entry.key entry.value))]
  | .setMany entry, look =>
      .ok [(entry.ref, some (overlay ((look entry.ref).getD ∅) entry.values))]
  | .removeProperty entry, look =>
      match look entry.ref with
      | none =>
          if entry.requireExisting then .error (notFound "property does not exist") else .ok []
      | some properties =>
          if properties.contains entry.key then .ok [(entry.ref, some (properties.erase entry.key))]
          else if entry.requireExisting then .error (notFound "property does not exist")
          else .ok []
  | .removeMany entry, look =>
      match look entry.ref with
      | none =>
          if entry.requireAllExisting && !entry.keys.isEmpty then
            .error (notFound "one or more properties do not exist")
          else .ok []
      | some properties =>
          if entry.requireAllExisting && entry.keys.any (fun key => !properties.contains key) then
            .error (notFound "one or more properties do not exist")
          else .ok [(entry.ref, some (eraseAll properties entry.keys))]
  | .clearCollection entry, _ =>
      .ok [(entry.ref, if entry.removeCollection then none else some ∅)]
  | .renameCollection entry, look =>
      carry look entry.sourceRef entry.destinationRef entry.destinationPolicy true
  | .transferProperty entry, look =>
      match (look entry.source).bind (·[entry.sourceKey]?) with
      | none => .error (notFound "source property does not exist")
      | some value =>
          let destination := (look entry.destination).getD ∅
          if !entry.overwrite && destination.contains entry.destinationKey then
            .error (conflict "destination property already exists")
          else
            let written := destination.insert entry.destinationKey value
            let source :=
              if entry.source = entry.destination then written
              else (look entry.source).getD ∅
            .ok ((entry.destination, some written) ::
              if entry.removeSource then [(entry.source, some (source.erase entry.sourceKey))]
              else [])
  | .transferCollection entry, look =>
      carry look entry.source entry.destination entry.destinationPolicy
        (entry.removeSource && entry.source != entry.destination)
  | .importCollection entry, look =>
      match arrival (look entry.destination) entry.properties entry.policy with
      | .error failed => .error failed
      | .ok arrived => .ok [(entry.destination, some arrived)]

/-! ## The visitor computes the planners -/

/-- A mutation realizes a plan, or refuses and returns the store it was given. -/
def Realizes (planned : Except MutationFailure (Plan CollectionRef (Option DynamicPropertyMap)))
    (store : Store) (mutated : Store × Option MutationFailure) : Prop :=
  match planned with
  | .ok plan => mutated.2 = none ∧ contents mutated.1 = write (contents store) plan
  | .error failed => mutated = (store, some failed)

/-- Writing back what a collection already holds changes nothing. -/
theorem insert_eq_self {store : Store} {ref : CollectionRef} {properties : DynamicPropertyMap}
    (h : contents store ref = some properties) : store.insert ref properties = store := by
  apply contents_injective
  rw [contents_insert, ← h, Function.update_eq_self]

theorem collectionOrNew_eq (store : Store) (ref : CollectionRef) :
    collectionOrNew store ref = (contents store ref).getD ∅ := rfl

theorem writeDestination_spec (store : Store) (destination : CollectionRef)
    (values : DynamicPropertyMap) (policy : ImportPolicy) :
    writeDestination store destination values policy =
      match arrival (contents store destination) values policy with
      | .error failed => (store, some failed)
      | .ok arrived => (store.insert destination arrived, none) := by
  unfold writeDestination arrival contents
  cases policy <;> cases store[destination]? <;> rfl

private theorem carry_spec (store : Store) (source destination : CollectionRef)
    (policy : ImportPolicy) (removeSource : Bool) :
    Realizes (carry (contents store) source destination policy removeSource) store
      (match store[source]? with
        | none => (store, some (notFound "source collection does not exist"))
        | some sourceValues =>
            match writeDestination store destination sourceValues policy with
            | (store, some failed) => (store, some failed)
            | (store, none) =>
                if removeSource then (store.erase source, none) else (store, none)) := by
  unfold carry
  change Realizes _ store (match contents store source with | none => _ | some _ => _)
  cases hsource : contents store source with
  | none => rfl
  | some values =>
      simp only [writeDestination_spec]
      cases arrival (contents store destination) values policy with
      | error failed => rfl
      | ok arrived =>
          cases removeSource
          · simp [Realizes]
          · simp [Realizes]

/-- Writing a destination twice keeps the second value. -/
theorem insert_insert (store : Store) (ref : CollectionRef) (first second : DynamicPropertyMap) :
    (store.insert ref first).insert ref second = store.insert ref second := by
  apply contents_injective
  rw [contents_insert, contents_insert, contents_insert, Function.update_idem]

/-- The source of a property transfer as the source code finds it again after
the destination was written. -/
theorem source_after_write (store : Store) (source destination : CollectionRef)
    (written : DynamicPropertyMap) :
    (store.insert destination written)[source]? =
      if source = destination then some written else contents store source := by
  by_cases h : source = destination
  · subst h
    rw [if_pos rfl, ExtTreeMap.getElem?_insert_self]
  · rw [if_neg h, getElem?_insert_of_ne (Ne.symm h)]
    rfl

private theorem transferProperty_spec (store : Store) (entry : TransferPropertyOperation) :
    Realizes (effect (.transferProperty entry) (contents store)) store
      (mutate store (.transferProperty entry)) := by
  simp only [effect, mutate, insert_insert, source_after_write, collectionOrNew_eq]
  change Realizes _ store
    (match (contents store entry.source).bind (·[entry.sourceKey]?) with
      | none => _ | some _ => _)
  cases hvalue : (contents store entry.source).bind (·[entry.sourceKey]?) with
  | none => rfl
  | some value =>
      obtain ⟨held, hsource, _⟩ := Option.bind_eq_some_iff.mp hvalue
      dsimp only
      split
      · -- the destination holds the key, so creating it changed nothing
        rename_i hblocked
        cases hdest : contents store entry.destination with
        | none => simp [hdest] at hblocked
        | some destination => simp [Realizes, insert_eq_self hdest]
      · cases entry.removeSource with
        | false => simp [Realizes]
        | true =>
            by_cases hsame : entry.source = entry.destination
            · simp [Realizes, hsame]
            · simp [Realizes, hsame, hsource]

/-- **The visitor of `applyUnlocked` realizes `effect`.** -/
theorem mutate_spec (store : Store) (operation : DynamicPropertyOperation) :
    Realizes (effect operation (contents store)) store (mutate store operation) := by
  cases operation with
  | setProperty entry => exact ⟨rfl, contents_insert _ _ _⟩
  | setMany entry => exact ⟨rfl, contents_insert _ _ _⟩
  | removeProperty entry =>
      simp only [effect, mutate]
      change Realizes _ store (match contents store entry.ref with | none => _ | some _ => _)
      cases contents store entry.ref with
      | none => cases entry.requireExisting <;> simp [Realizes]
      | some properties =>
          dsimp only
          split
          · simp [Realizes]
          · cases entry.requireExisting <;> simp [Realizes]
  | removeMany entry =>
      simp only [effect, mutate]
      change Realizes _ store (match contents store entry.ref with | none => _ | some _ => _)
      cases contents store entry.ref with
      | none => dsimp only; split <;> simp [Realizes]
      | some properties => dsimp only; split <;> simp [Realizes]
  | clearCollection entry =>
      simp only [effect, mutate]
      cases entry.removeCollection <;> simp [Realizes]
  | renameCollection entry =>
      exact carry_spec store entry.sourceRef entry.destinationRef entry.destinationPolicy true
  | transferProperty entry => exact transferProperty_spec store entry
  | transferCollection entry =>
      exact carry_spec store entry.source entry.destination entry.destinationPolicy _
  | importCollection entry =>
      simp only [effect, mutate, writeDestination_spec]
      cases arrival (contents store entry.destination) entry.properties entry.policy with
      | error failed => rfl
      | ok arrived => simp [Realizes]

/-- A branch that fails leaves the store it was given, although the source
creates map entries before some of its checks. -/
theorem mutate_of_failure {store : Store} {operation : DynamicPropertyOperation}
    {failed : MutationFailure} (h : (mutate store operation).2 = some failed) :
    mutate store operation = (store, some failed) := by
  have hspec := mutate_spec store operation
  unfold Realizes at hspec
  split at hspec
  · rw [hspec.1] at h
    cases h
  · rw [hspec] at h ⊢
    cases h
    rfl

/-- The visitor fails only where the planner refuses, for the same reason. -/
theorem effect_of_failure {store : Store} {operation : DynamicPropertyOperation}
    {failed : MutationFailure} (h : (mutate store operation).2 = some failed) :
    effect operation (contents store) = .error failed := by
  have hspec := mutate_spec store operation
  unfold Realizes at hspec
  split at hspec
  · rw [hspec.1] at h
    cases h
  · rename_i failed' hplan
    rw [hspec] at h
    cases h
    exact hplan

/-- The visitor succeeds exactly where the planner does. -/
theorem mutate_failure_iff (store : Store) (operation : DynamicPropertyOperation) :
    (mutate store operation).2 = none ↔ ∃ plan, effect operation (contents store) = .ok plan := by
  have hspec := mutate_spec store operation
  unfold Realizes at hspec
  split at hspec
  · rename_i plan hplan
    exact ⟨fun _ => ⟨plan, hplan⟩, fun _ => hspec.1⟩
  · rename_i failed hfailed
    rw [hspec, hfailed]
    simp

/-- Refusals included, the visitor takes the abstract step. -/
theorem contents_mutate_eq_run (store : Store) (operation : DynamicPropertyOperation) :
    contents (mutate store operation).1 = run (effect operation) (contents store) := by
  have hspec := mutate_spec store operation
  unfold Realizes at hspec
  unfold run
  cases hplan : effect operation (contents store) with
  | ok plan =>
      rw [hplan] at hspec
      exact hspec.2
  | error failed =>
      rw [hplan] at hspec
      rw [show mutate store operation = (store, some failed) from hspec]

theorem mutate_failed_congr {store store' : Store} {operation : DynamicPropertyOperation}
    (h : effect operation (contents store) = effect operation (contents store')) :
    (mutate store operation).2 = (mutate store' operation).2 := by
  have hspec := mutate_spec store operation
  have hspec' := mutate_spec store' operation
  rw [h] at hspec
  unfold Realizes at hspec hspec'
  cases hplan : effect operation (contents store') with
  | ok plan =>
      rw [hplan] at hspec hspec'
      rw [hspec.1, hspec'.1]
  | error failed =>
      rw [hplan] at hspec hspec'
      rw [show mutate store operation = (store, some failed) from hspec,
        show mutate store' operation = (store', some failed) from hspec']

/-- The planners refuse for two reasons only. -/
theorem effect_refusal {operation : DynamicPropertyOperation} {look : Contents}
    {failed : MutationFailure} (h : effect operation look = .error failed) :
    failed.status = .conflict ∨ failed.status = .notFound := by
  have harrival : ∀ {existing values policy failed},
      arrival existing values policy = .error failed →
      failed.status = .conflict ∨ failed.status = .notFound := by
    intro existing values policy failed h
    unfold arrival at h
    split at h
    · cases h
      exact Or.inl rfl
    · cases h
    · cases h
  have hcarry : ∀ {source destination policy removeSource},
      carry look source destination policy removeSource = .error failed →
        failed.status = .conflict ∨ failed.status = .notFound := by
    intro source destination policy removeSource h
    unfold carry at h
    split at h
    · cases h
      exact Or.inr rfl
    · split at h
      · rename_i harrive
        cases h
        exact harrival harrive
      · cases h
  cases operation with
  | setProperty entry => cases h
  | setMany entry => cases h
  | removeProperty entry =>
      simp only [effect] at h
      repeat' split at h
      all_goals cases h
      all_goals exact Or.inr rfl
  | removeMany entry =>
      simp only [effect] at h
      repeat' split at h
      all_goals cases h
      all_goals exact Or.inr rfl
  | clearCollection entry => cases h
  | renameCollection entry => exact hcarry h
  | transferProperty entry =>
      simp only [effect] at h
      split at h
      · cases h
        exact Or.inr rfl
      · split at h
        · cases h
          exact Or.inl rfl
        · cases h
  | transferCollection entry => exact hcarry h
  | importCollection entry =>
      simp only [effect] at h
      split at h
      · rename_i harrive
        cases h
        exact harrival harrive
      · cases h

/-! ## Footprints -/

private theorem carry_footprint {S : CollectionRef → Prop} (source destination : CollectionRef)
    (policy : ImportPolicy) (removeSource : Bool) (hs : S source) (hd : S destination) :
    HasFootprint (fun look => carry look source destination policy removeSource) S where
  writes look plan h entry hentry := by
    simp only [carry] at h
    cases hsource : look source with
    | none => simp [hsource] at h
    | some values =>
        cases harrive : arrival (look destination) values policy with
        | error failed => simp [hsource, harrive] at h
        | ok arrived =>
            simp only [hsource, harrive, Except.ok.injEq] at h
            subst h
            rcases List.mem_cons.mp hentry with rfl | htail
            · exact hd
            · cases removeSource with
              | false => simp at htail
              | true =>
                  simp only [if_true, List.mem_singleton] at htail
                  exact htail ▸ hs
  reads look look' h := by
    simp only [carry, h source hs, h destination hd]

/-- An operation reads and writes only the collections it names. -/
theorem effect_footprint (operation : DynamicPropertyOperation) :
    HasFootprint (effect operation) (· ∈ operationCollections operation) := by
  cases operation with
  | setProperty entry =>
      refine ⟨fun look plan h e he => ?_, fun look look' h => ?_⟩
      · cases h
        simp_all [operationCollections]
      · simp only [effect, h entry.ref (by simp [operationCollections])]
  | setMany entry =>
      refine ⟨fun look plan h e he => ?_, fun look look' h => ?_⟩
      · cases h
        simp_all [operationCollections]
      · simp only [effect, h entry.ref (by simp [operationCollections])]
  | removeProperty entry =>
      refine ⟨fun look plan h e he => ?_, fun look look' h => ?_⟩
      · simp only [effect] at h
        repeat' split at h
        all_goals cases h
        all_goals simp_all [operationCollections]
      · simp only [effect, h entry.ref (by simp [operationCollections])]
  | removeMany entry =>
      refine ⟨fun look plan h e he => ?_, fun look look' h => ?_⟩
      · simp only [effect] at h
        repeat' split at h
        all_goals cases h
        all_goals simp_all [operationCollections]
      · simp only [effect, h entry.ref (by simp [operationCollections])]
  | clearCollection entry =>
      refine ⟨fun look plan h e he => ?_, fun look look' h => rfl⟩
      cases h
      simp_all [operationCollections]
  | renameCollection entry =>
      exact carry_footprint _ _ _ _ (by simp [operationCollections])
        (by simp [operationCollections])
  | transferProperty entry =>
      have hs : entry.source ∈ operationCollections (.transferProperty entry) := by
        simp [operationCollections]
      have hd : entry.destination ∈ operationCollections (.transferProperty entry) := by
        simp [operationCollections]
      refine ⟨fun look plan h e he => ?_, fun look look' h => ?_⟩
      · simp only [effect] at h
        cases hvalue : (look entry.source).bind (·[entry.sourceKey]?) with
        | none => simp [hvalue] at h
        | some value =>
            simp only [hvalue] at h
            split at h
            · cases h
            · cases h
              rcases List.mem_cons.mp he with rfl | htail
              · exact hd
              · cases hremove : entry.removeSource with
                | false => simp [hremove] at htail
                | true =>
                    simp only [hremove, if_true, List.mem_singleton] at htail
                    exact htail ▸ hs
      · simp only [effect, h entry.source hs, h entry.destination hd]
  | transferCollection entry =>
      exact carry_footprint _ _ _ _ (by simp [operationCollections])
        (by simp [operationCollections])
  | importCollection entry =>
      have hd : entry.destination ∈ operationCollections (.importCollection entry) := by
        simp [operationCollections]
      refine ⟨fun look plan h e he => ?_, fun look look' h => ?_⟩
      · simp only [effect] at h
        split at h
        · cases h
        · cases h
          simp_all
      · simp only [effect, h entry.destination hd]

end DynamicProperties.Cpp
