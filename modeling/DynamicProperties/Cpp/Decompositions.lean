import DynamicProperties.Cpp.Locality
import DynamicProperties.Cpp.Movements

/-!
# Composite operations and their parts

Several branches of `applyUnlocked` do the same work under different names.  Where no
revision is expected and the targets are available, status and store are those of the
planner (`applyUnlocked_unexpecting`), so the branches are compared there: a bulk write
with its single writes, a bulk removal with its single removals, a merging import with
a bulk write, a rename with a moving transfer, a copying transfer with an import.
-/

namespace DynamicProperties.Cpp

open Std
open DynamicProperties.Library
open DynamicProperties.Library.OrderedMap
open DynamicProperties.Library.Footprint

/-- The status with which a plan is carried out or refused. -/
def plannedStatus {ρ β : Type} : Except MutationFailure (Plan ρ β) → DynamicPropertyStatus
  | .ok _ => .applied
  | .error failed => failed.status

/-- Status and store, the part of an answer that is not about the participants. -/
def statusAndStore (answer : OperationResult × Store) : DynamicPropertyStatus × Store :=
  (answer.1.status, answer.2)

/-- Every collection the operation names lies on an available target. -/
def Reachable (availability : Availability) (operation : DynamicPropertyOperation) : Prop :=
  ∀ ref ∈ operationCollections operation, targetAvailable availability ref.target = true

section Unexpecting

variable {availability : Availability} {operation : DynamicPropertyOperation}

/-- Where nothing is expected and the targets are available, only the visitor
decides. -/
theorem applyUnlocked_unexpecting (hreachable : Reachable availability operation)
    (hnothing : CarriesNoExpectation operation) (store : Store) (force : Bool) :
    statusAndStore (applyUnlocked availability store operation force) =
      (plannedStatus (effect operation (contents store)), (mutate store operation).1) := by
  have hspec := mutate_spec store operation
  unfold applyUnlocked
  rw [hnothing.consistent]
  rcases checkParticipants_cases availability store operation force (participants operation) [] with
    ⟨-, hok⟩ | ⟨⟨ref, href, hnot⟩, -⟩
  · rw [hok]
    cases hplanned : effect operation (contents store) with
    | error failed =>
        rw [hplanned] at hspec
        rw [show mutate store operation = _ from hspec]
        rfl
    | ok plan =>
        rw [hplanned] at hspec
        cases hmutate : mutate store operation with
        | mk after failed =>
            have hnone : failed = none := by
              rw [hmutate] at hspec
              exact hspec.1
            subst hnone
            rfl
  · refine absurd ⟨hreachable ref (mem_participants.mp href), fun _ expected hexpected => ?_⟩ hnot
    rw [hnothing.expectedRevision] at hexpected
    cases hexpected

/-- Operations with the same plan have the same outcome. -/
theorem statusAndStore_congr {other : DynamicPropertyOperation} {store : Store}
    (hreachable : Reachable availability operation) (hnothing : CarriesNoExpectation operation)
    (hreachable' : Reachable availability other) (hnothing' : CarriesNoExpectation other)
    (hplan : effect operation (contents store) = effect other (contents store)) (force : Bool) :
    statusAndStore (applyUnlocked availability store operation force) =
      statusAndStore (applyUnlocked availability store other force) := by
  rw [applyUnlocked_unexpecting hreachable hnothing,
    applyUnlocked_unexpecting hreachable' hnothing',
    hplan]
  have hstores : (mutate store operation).1 = (mutate store other).1 := by
    apply contents_injective
    rw [contents_mutate_eq_run, contents_mutate_eq_run, Footprint.run, Footprint.run, hplan]
  rw [hstores]

end Unexpecting

/-! ## Bulk writes and removals -/

section Bulk

variable {availability : Availability} {ref : CollectionRef}

/-- Apply one operation after another, all with one `force` flag. -/
def applyInTurn (availability : Availability) (force : Bool)
    (operations : List DynamicPropertyOperation) (store : Store) : Store :=
  (serialize availability (operations.map (·, force)) store).2

@[simp] theorem applyInTurn_nil (force : Bool) (store : Store) :
    applyInTurn availability force [] store = store := rfl

@[simp] theorem applyInTurn_cons (force : Bool) (operation : DynamicPropertyOperation)
    (rest : List DynamicPropertyOperation) (store : Store) :
    applyInTurn availability force (operation :: rest) store =
      applyInTurn availability force rest
        (applyUnlocked availability store operation force).2 := rfl

/-- `SetPropertyOperation` with defaults. -/
def setOne (ref : CollectionRef) (entry : ByteString × DynamicPropertyValue) :
    DynamicPropertyOperation :=
  .setProperty { ref, key := entry.1, value := entry.2 }

/-- `RemovePropertyOperation` with defaults. -/
def removeOne (ref : CollectionRef) (key : ByteString) : DynamicPropertyOperation :=
  .removeProperty { ref, key }

theorem setOne_store (havailable : targetAvailable availability ref.target = true) (store : Store)
    (entry : ByteString × DynamicPropertyValue) (force : Bool) :
    (applyUnlocked availability store (setOne ref entry) force).2 =
      store.insert ref ((collectionOrNew store ref).insert entry.1 entry.2) := by
  have hreachable : Reachable availability (setOne ref entry) := by
    simpa [Reachable, setOne, operationCollections] using havailable
  have hnothing : CarriesNoExpectation (setOne ref entry) := by
    simp [CarriesNoExpectation, setOne, suppliedExpectations]
  exact congrArg Prod.snd (applyUnlocked_unexpecting hreachable hnothing store force)

/-- Single writes add up to one write of all the entries. -/
theorem applyInTurn_setOne (havailable : targetAvailable availability ref.target = true)
    (force : Bool) (entries : List (ByteString × DynamicPropertyValue)) :
    ∀ store : Store, entries ≠ [] →
      applyInTurn availability force (entries.map (setOne ref)) store =
        store.insert ref (insertEntries (collectionOrNew store ref) entries) := by
  induction entries with
  | nil => exact fun _ h => absurd rfl h
  | cons entry rest ih =>
      intro store _
      rw [List.map_cons, applyInTurn_cons, setOne_store havailable]
      cases rest with
      | nil => rfl
      | cons next rest =>
          rw [ih _ (List.cons_ne_nil next rest), insert_insert]
          have hwritten : collectionOrNew
              (store.insert ref ((collectionOrNew store ref).insert entry.1 entry.2)) ref =
                (collectionOrNew store ref).insert entry.1 entry.2 := by
            rw [collectionOrNew, ExtTreeMap.getElem?_insert_self]
            rfl
          rw [hwritten]
          rfl

theorem removeOne_store (havailable : targetAvailable availability ref.target = true)
    (store : Store) (key : ByteString) (force : Bool) :
    (applyUnlocked availability store (removeOne ref key) force).2 =
      match store[ref]? with
      | none => store
      | some properties => store.insert ref (properties.erase key) := by
  have hreachable : Reachable availability (removeOne ref key) := by
    simpa [Reachable, removeOne, operationCollections] using havailable
  have hnothing : CarriesNoExpectation (removeOne ref key) := by
    simp [CarriesNoExpectation, removeOne, suppliedExpectations]
  refine (congrArg Prod.snd (applyUnlocked_unexpecting hreachable hnothing store force)).trans ?_
  show (mutate store (removeOne ref key)).1 = _
  simp only [removeOne, mutate]
  cases hread : store[ref]? with
  | none => rfl
  | some properties =>
      by_cases hkey : properties.contains key = true
      · simp [hkey]
      · -- nothing is erased, and writing the collection back changes nothing
        have herase : properties.erase key = properties :=
          erase_of_notMem (by simpa using hkey)
        simp [hkey, herase, insert_eq_self (show contents store ref = some properties from hread)]

/-- Single removals add up to one removal of all the keys. -/
theorem applyInTurn_removeOne (havailable : targetAvailable availability ref.target = true)
    (force : Bool) (keys : List ByteString) :
    ∀ store : Store,
      applyInTurn availability force (keys.map (removeOne ref)) store =
        match store[ref]? with
        | none => store
        | some properties => store.insert ref (eraseAll properties keys) := by
  induction keys with
  | nil =>
      intro store
      cases hread : store[ref]? with
      | none => rfl
      | some properties =>
          exact (insert_eq_self (show contents store ref = some properties from hread)).symm
  | cons key rest ih =>
      intro store
      rw [List.map_cons, applyInTurn_cons, removeOne_store havailable, ih]
      cases hread : store[ref]? with
      | none => simp only [hread]
      | some properties =>
          dsimp only
          rw [ExtTreeMap.getElem?_insert_self]
          dsimp only
          rw [insert_insert]
          rfl

/-- A bulk write is its single writes in any order. -/
theorem setMany_store {values : DynamicPropertyMap}
    {entries : List (ByteString × DynamicPropertyValue)}
    (havailable : targetAvailable availability ref.target = true) (hne : values ≠ ∅)
    (hperm : entries.Perm values.toList) (store : Store) (force : Bool) :
    (applyUnlocked availability store (.setMany { ref, values }) force).2 =
      applyInTurn availability force (entries.map (setOne ref)) store := by
  have hreachable : Reachable availability (.setMany { ref, values }) := by
    simpa [Reachable, operationCollections] using havailable
  have hnothing : CarriesNoExpectation (.setMany { ref, values }) := by
    simp [CarriesNoExpectation, suppliedExpectations]
  have hentries : entries ≠ [] := by
    rintro rfl
    exact hne (ExtTreeMap.toList_eq_nil_iff.mp hperm.nil_eq.symm)
  have hdistinct : (values.toList.map Prod.fst).Nodup :=
    nodup_of_sorted ExtTreeMap.ordered_keys_toList
  rw [applyInTurn_setOne havailable force entries store hentries,
    insertEntries_perm hperm ((hperm.map Prod.fst).nodup_iff.mpr hdistinct)]
  exact congrArg Prod.snd (applyUnlocked_unexpecting hreachable hnothing store force)

/-- A bulk removal is its single removals in any order. -/
theorem removeMany_store {keys keys' : List ByteString}
    (havailable : targetAvailable availability ref.target = true)
    (hsame : ∀ key, key ∈ keys' ↔ key ∈ keys) (store : Store) (force : Bool) :
    (applyUnlocked availability store (.removeMany { ref, keys }) force).2 =
      applyInTurn availability force (keys'.map (removeOne ref)) store := by
  have hreachable : Reachable availability (.removeMany { ref, keys }) := by
    simpa [Reachable, operationCollections] using havailable
  have hnothing : CarriesNoExpectation (.removeMany { ref, keys }) := by
    simp [CarriesNoExpectation, suppliedExpectations]
  refine (congrArg Prod.snd (applyUnlocked_unexpecting hreachable hnothing store force)).trans ?_
  rw [applyInTurn_removeOne havailable]
  show (mutate store (.removeMany { ref, keys })).1 = _
  simp only [mutate]
  cases store[ref]? with
  | none => rfl
  | some properties => simp [eraseAll_congr hsame]

end Bulk

/-! ## Two branches, one plan -/

section Branches

variable {availability : Availability}

/-- A merging import is a bulk write. -/
theorem import_as_setMany {destination : CollectionRef} {properties : DynamicPropertyMap}
    (havailable : targetAvailable availability destination.target = true) (store : Store)
    (force : Bool) :
    statusAndStore (applyUnlocked availability store
        (.importCollection { destination, properties, policy := .merge }) force) =
      statusAndStore (applyUnlocked availability store
        (.setMany { ref := destination, values := properties }) force) := by
  have hreachable : Reachable availability
      (.importCollection { destination, properties, policy := .merge }) := by
    simpa [Reachable, operationCollections] using havailable
  have hreachable' : Reachable availability
      (.setMany { ref := destination, values := properties }) := hreachable
  refine statusAndStore_congr hreachable (by simp [CarriesNoExpectation, suppliedExpectations])
    hreachable' (by simp [CarriesNoExpectation, suppliedExpectations]) ?_ force
  simp only [effect, arrival]
  cases contents store destination with
  | none => simp [overlay_empty]
  | some existing => rfl

/-- A rename is a transfer that removes its source. -/
theorem rename_as_transfer {target : DynamicPropertyTarget} {source destination : ByteString}
    {policy : ImportPolicy} (havailable : targetAvailable availability target = true)
    (hne : source ≠ destination) (store : Store) (force : Bool) :
    statusAndStore (applyUnlocked availability store
        (.renameCollection { target, source, destination, destinationPolicy := policy }) force) =
      statusAndStore (applyUnlocked availability store
        (.transferCollection
          { source := ⟨target, source⟩, destination := ⟨target, destination⟩
            destinationPolicy := policy, removeSource := true }) force) := by
  have hreachable : Reachable availability
      (.renameCollection { target, source, destination, destinationPolicy := policy }) := by
    intro ref href
    simp only [operationCollections, RenameCollectionOperation.sourceRef,
      RenameCollectionOperation.destinationRef, List.mem_cons, List.not_mem_nil, or_false] at href
    rcases href with rfl | rfl <;> exact havailable
  have hreachable' : Reachable availability (.transferCollection
      { source := ⟨target, source⟩, destination := ⟨target, destination⟩
        destinationPolicy := policy, removeSource := true }) := hreachable
  have hrefs : (⟨target, source⟩ : CollectionRef) ≠ ⟨target, destination⟩ := fun h =>
    hne (congrArg CollectionRef.collection h)
  refine statusAndStore_congr hreachable (by simp [CarriesNoExpectation, suppliedExpectations])
    hreachable' (by simp [CarriesNoExpectation, suppliedExpectations]) ?_ force
  rw [effect_relocation rfl fun _ => hrefs, effect_relocation rfl fun _ => hrefs]
  rfl

/-- A copying transfer of an existing collection is an import of what was captured. -/
theorem transfer_as_import {source destination : CollectionRef} {policy : ImportPolicy}
    {snapshot : CollectionSnapshot} {store : Store}
    (hsource : targetAvailable availability source.target = true)
    (hdestination : targetAvailable availability destination.target = true)
    (hcapture : (captureUnlocked availability store source).snapshot = some snapshot)
    (hexists : snapshot.exists_ = true) (force : Bool) :
    statusAndStore (applyUnlocked availability store
        (.transferCollection { source, destination, destinationPolicy := policy }) force) =
      statusAndStore (applyUnlocked availability store
        (.importCollection { destination, properties := snapshot.properties, policy }) force) := by
  have hreachable : Reachable availability
      (.transferCollection { source, destination, destinationPolicy := policy }) := by
    intro ref href
    simp only [operationCollections, List.mem_cons, List.not_mem_nil, or_false] at href
    rcases href with rfl | rfl
    · exact hsource
    · exact hdestination
  have hreachable' : Reachable availability
      (.importCollection { destination, properties := snapshot.properties, policy }) := by
    simpa [Reachable, operationCollections] using hdestination
  rw [captureUnlocked_available hsource] at hcapture
  obtain rfl := Option.some.inj hcapture
  obtain ⟨values, hvalues⟩ := Option.isSome_iff_exists.mp hexists
  refine statusAndStore_congr hreachable (by simp [CarriesNoExpectation, suppliedExpectations])
    hreachable' (by simp [CarriesNoExpectation, suppliedExpectations]) ?_ force
  simp only [effect, carry, snapshotAt, makeSnapshot_properties, hvalues, Option.getD_some,
    Bool.false_and, Bool.false_eq_true, if_false]

end Branches

/-- **Composite operations agree with their decompositions.** -/
theorem decompositions_agree (availability : Availability) (store : Store) (force : Bool) :
    (∀ (ref : CollectionRef) (values : DynamicPropertyMap)
        (entries : List (ByteString × DynamicPropertyValue)),
      targetAvailable availability ref.target = true → values ≠ ∅ → entries.Perm values.toList →
        (applyUnlocked availability store (.setMany { ref, values }) force).2 =
          applyInTurn availability force (entries.map (setOne ref)) store) ∧
    (∀ (ref : CollectionRef) (keys keys' : List ByteString),
      targetAvailable availability ref.target = true → (∀ key, key ∈ keys' ↔ key ∈ keys) →
        (applyUnlocked availability store (.removeMany { ref, keys }) force).2 =
          applyInTurn availability force (keys'.map (removeOne ref)) store) ∧
    (∀ (destination : CollectionRef) (properties : DynamicPropertyMap),
      targetAvailable availability destination.target = true →
      statusAndStore (applyUnlocked availability store
          (.importCollection { destination, properties, policy := .merge }) force) =
        statusAndStore (applyUnlocked availability store
          (.setMany { ref := destination, values := properties }) force)) ∧
    (∀ (target : DynamicPropertyTarget) (source destination : ByteString) (policy : ImportPolicy),
      targetAvailable availability target = true → source ≠ destination →
        statusAndStore (applyUnlocked availability store
            (.renameCollection { target, source, destination, destinationPolicy := policy })
            force) =
          statusAndStore (applyUnlocked availability store
            (.transferCollection
              { source := ⟨target, source⟩, destination := ⟨target, destination⟩
                destinationPolicy := policy, removeSource := true }) force)) ∧
    (∀ (source destination : CollectionRef) (policy : ImportPolicy) (snapshot : CollectionSnapshot),
      targetAvailable availability source.target = true →
      targetAvailable availability destination.target = true →
      (captureUnlocked availability store source).snapshot = some snapshot →
      snapshot.exists_ = true →
        statusAndStore (applyUnlocked availability store
            (.transferCollection { source, destination, destinationPolicy := policy }) force) =
          statusAndStore (applyUnlocked availability store
            (.importCollection { destination, properties := snapshot.properties, policy })
            force)) :=
  ⟨fun _ _ _ havailable hne hperm => setMany_store havailable hne hperm store force,
    fun _ _ _ havailable hsame => removeMany_store havailable hsame store force,
    fun _ _ havailable => import_as_setMany havailable store force,
    fun _ _ _ _ havailable hne => rename_as_transfer havailable hne store force,
    fun _ _ _ _ hsource hdestination hcapture hexists =>
      transfer_as_import hsource hdestination hcapture hexists force⟩

end DynamicProperties.Cpp
