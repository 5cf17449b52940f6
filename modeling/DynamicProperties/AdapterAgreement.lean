import DynamicProperties.Correspondence
import DynamicProperties.Cpp.Application
import DynamicProperties.Python.Captures

/-!
# The two adapters keep the same store

An operation of one implementation and its counterpart in the other, on
corresponding stores: both adapters give it the same status, take corresponding
snapshots and leave corresponding stores (`apply_alike`).  By induction over the
loop that holds of transactions, and of any sequence of calls.
-/

namespace DynamicProperties

open Std
open DynamicProperties.Library.Mirror
open DynamicProperties.Library.Fallible

/-! ## Operations -/

/-- The same operation on both sides, with no revision expected. -/
inductive OperationAlike : Python.Operation → Cpp.DynamicPropertyOperation → Prop
  | setProperty {ref : Python.CollectionRef} {ref' : Cpp.CollectionRef} {key : Python.Str}
      {key' : Cpp.ByteString} {value : Python.PyObject} {value' : Cpp.DynamicPropertyValue}
      (href : RefAlike ref ref') (hkey : TextAlike key key') (hvalue : ValueAlike value value') :
      OperationAlike (.setProperty { ref, key, value })
        (.setProperty { ref := ref', key := key', value := value' })
  | setMany {ref : Python.CollectionRef} {ref' : Cpp.CollectionRef}
      {values : Python.PropertyMapping} {values' : Cpp.DynamicPropertyMap}
      (href : RefAlike ref ref') (hvalues : MapAlike values.toDict values') :
      OperationAlike (.setMany { ref, values }) (.setMany { ref := ref', values := values' })
  | removeProperty {ref : Python.CollectionRef} {ref' : Cpp.CollectionRef} {key : Python.Str}
      {key' : Cpp.ByteString} (requireExisting : Bool) (href : RefAlike ref ref')
      (hkey : TextAlike key key') :
      OperationAlike (.removeProperty { ref, key, requireExisting })
        (.removeProperty { ref := ref', key := key', requireExisting })
  | removeMany {ref : Python.CollectionRef} {ref' : Cpp.CollectionRef} {keys : List Python.Str}
      {keys' : List Cpp.ByteString} (requireAllExisting : Bool) (href : RefAlike ref ref')
      (hkeys : List.Forall₂ TextAlike keys keys') :
      OperationAlike (.removeMany { ref, keys, requireAllExisting })
        (.removeMany { ref := ref', keys := keys', requireAllExisting })
  | clearCollection {ref : Python.CollectionRef} {ref' : Cpp.CollectionRef}
      (removeCollection : Bool) (href : RefAlike ref ref') :
      OperationAlike (.clearCollection { ref, removeCollection })
        (.clearCollection { ref := ref', removeCollection })
  | renameCollection {target : Python.DynamicPropertyTarget} {target' : Cpp.DynamicPropertyTarget}
      {source destination : Python.Str} {source' destination' : Cpp.ByteString}
      (destinationPolicy : Cpp.ImportPolicy) (htarget : TargetAlike target target')
      (hsource : TextAlike source source') (hdestination : TextAlike destination destination') :
      OperationAlike (.renameCollection { target, source, destination, destinationPolicy })
        (.renameCollection
          { target := target', source := source', destination := destination'
            destinationPolicy })
  | transferProperty {source destination : Python.CollectionRef}
      {source' destination' : Cpp.CollectionRef} {sourceKey destinationKey : Python.Str}
      {sourceKey' destinationKey' : Cpp.ByteString} (removeSource overwrite : Bool)
      (hsource : RefAlike source source') (hsourceKey : TextAlike sourceKey sourceKey')
      (hdestination : RefAlike destination destination')
      (hdestinationKey : TextAlike destinationKey destinationKey') :
      OperationAlike
        (.transferProperty
          { source, sourceKey, destination, destinationKey, removeSource, overwrite })
        (.transferProperty
          { source := source', sourceKey := sourceKey', destination := destination'
            destinationKey := destinationKey', removeSource, overwrite })
  | transferCollection {source destination : Python.CollectionRef}
      {source' destination' : Cpp.CollectionRef} (destinationPolicy : Cpp.ImportPolicy)
      (removeSource : Bool) (hsource : RefAlike source source')
      (hdestination : RefAlike destination destination') :
      OperationAlike
        (.transferCollection { source, destination, destinationPolicy, removeSource })
        (.transferCollection
          { source := source', destination := destination', destinationPolicy, removeSource })
  | importCollection {destination : Python.CollectionRef} {destination' : Cpp.CollectionRef}
      {properties : Python.PropertyMapping} {properties' : Cpp.DynamicPropertyMap}
      (policy : Cpp.ImportPolicy) (hdestination : RefAlike destination destination')
      (hproperties : MapAlike properties.toDict properties') :
      OperationAlike (.importCollection { destination, properties, policy })
        (.importCollection { destination := destination', properties := properties', policy })

section Operations

variable {operation : Python.Operation} {operation' : Cpp.DynamicPropertyOperation}

theorem OperationAlike.noExpectation (h : OperationAlike operation operation') :
    Python.CarriesNoExpectation operation := by
  cases h <;> simp [Python.CarriesNoExpectation, Python.suppliedExpectations]

theorem OperationAlike.noExpectation' (h : OperationAlike operation operation')
    (ref' : Cpp.CollectionRef) : Cpp.expectedRevision operation' ref' = none := by
  cases h <;> simp [Cpp.expectedRevision]

end Operations

/-! ## What an operation does to the store -/

structure FailureAlike (failed : Python.MutationFailure)
    (failed' : Cpp.MutationFailure) : Prop where
  status : failed.status = failed'.status
  message : TextAlike failed.message failed'.message

theorem notFound_alike (message : String) :
    FailureAlike (Python.notFound message) (Cpp.notFound message) :=
  ⟨rfl, textAlike_str message⟩

theorem conflict_alike (message : String) :
    FailureAlike (Python.conflict message) (Cpp.conflict message) :=
  ⟨rfl, textAlike_str message⟩

/-- The same failure, or none, and corresponding stores left behind. -/
structure MutationAlike (out : Python.Store × Option Python.MutationFailure)
    (out' : Cpp.Store × Option Cpp.MutationFailure) : Prop where
  store : StoreAlike out.1 out'.1
  failed : Option.Rel FailureAlike out.2 out'.2

section Mutation

variable {store : Python.Store} {store' : Cpp.Store} {ref : Python.CollectionRef}
  {ref' : Cpp.CollectionRef}

/-- A branch that requires something to exist, where it does not. -/
private theorem refused_alike (h : StoreAlike store store') (required : Bool) (message : String) :
    MutationAlike (store, if required then some (Python.notFound message) else none)
      (store', if required then some (Cpp.notFound message) else none) := by
  cases required with
  | false => exact ⟨h, .none⟩
  | true => exact ⟨h, .some (notFound_alike message)⟩

/-- The collection to write to, found or created. -/
private theorem setDefault_alike (h : StoreAlike store store') (href : RefAlike ref ref') :
    MapAlike (Python.setDefault store ref).1 (Cpp.collectionOrNew store' ref') ∧
      StoreAlike (Python.setDefault store ref).2
        (store'.insert ref' (Cpp.collectionOrNew store' ref')) := by
  have hread := h.read href
  unfold Python.setDefault Cpp.collectionOrNew
  cases hlook : store.lookup ref with
  | none =>
      rw [hlook] at hread
      generalize store'[ref']? = y at hread ⊢
      cases hread
      exact ⟨mapAlike_empty, h.insert href mapAlike_empty⟩
  | some values =>
      rw [hlook] at hread
      have hsame : ∀ values', store'[ref']? = some values' →
          store'.insert ref' values' = store' := by
        intro values' hlook'
        apply ExtTreeMap.ext_getElem?
        intro other
        by_cases heq : ref' = other
        · subst heq
          rw [ExtTreeMap.getElem?_insert_self, hlook']
        · exact Library.OrderedMap.getElem?_insert_of_ne heq
      generalize hlook' : store'[ref']? = y at hread
      cases hread with
      | some hvalues =>
          rw [Option.getD_some, hsame _ hlook']
          exact ⟨hvalues, h⟩

private theorem setDefault_insert_alike (h : StoreAlike store store') (href : RefAlike ref ref')
    {values : Python.DynamicPropertyMap} {values' : Cpp.DynamicPropertyMap}
    (hvalues : MapAlike values values') :
    StoreAlike ((Python.setDefault store ref).2.insert ref values)
      (store'.insert ref' values') := by
  have hsame : Python.contents ((Python.setDefault store ref).2.insert ref values) =
      Python.contents (store.insert ref values) := by
    unfold Python.setDefault
    cases store.lookup ref <;> simp
  unfold StoreAlike
  rw [hsame]
  exact h.insert href hvalues

private theorem writeDestination_alike (h : StoreAlike store store') (href : RefAlike ref ref')
    {values : Python.DynamicPropertyMap} {values' : Cpp.DynamicPropertyMap}
    (hvalues : MapAlike values values') (policy : Cpp.ImportPolicy) :
    MutationAlike (Python.writeDestination store ref values policy)
      (Cpp.writeDestination store' ref' values' policy) := by
  have hread := h.read href
  unfold Python.writeDestination Cpp.writeDestination
  generalize store.lookup ref = x at hread ⊢
  generalize store'[ref']? = y at hread ⊢
  have hwritten := h.insert href hvalues
  cases hread with
  | none => cases policy <;> exact ⟨hwritten, .none⟩
  | some hexisting =>
      cases policy with
      | failIfDestinationExists => exact ⟨h, .some (conflict_alike _)⟩
      | merge => exact ⟨h.insert href (hexisting.overlay hvalues), .none⟩
      | replace => exact ⟨hwritten, .none⟩

private theorem removeProperty_alike (h : StoreAlike store store') (href : RefAlike ref ref')
    {key : Python.Str} {key' : Cpp.ByteString} (hkey : TextAlike key key')
    (requireExisting : Bool) :
    MutationAlike (Python.mutate store (.removeProperty { ref, key, requireExisting }))
      (Cpp.mutate store' (.removeProperty { ref := ref', key := key', requireExisting })) := by
  have hread := h.read href
  simp only [Python.mutate, Cpp.mutate]
  generalize store.lookup ref = x at hread ⊢
  generalize store'[ref']? = y at hread ⊢
  cases hread with
  | none => exact refused_alike h requireExisting _
  | @some values values' hvalues =>
      show MutationAlike (if values.contains key then _ else _)
        (if values'.contains key' then _ else _)
      rw [hvalues.contains hkey]
      cases values'.contains key' with
      | true => exact ⟨h.insert href (hvalues.erase hkey), .none⟩
      | false => exact refused_alike h requireExisting _

/-- A key is missing on both sides, or on neither. -/
private theorem any_missing_alike {values : Python.DynamicPropertyMap}
    {values' : Cpp.DynamicPropertyMap} (hvalues : MapAlike values values')
    {keys : List Python.Str} {keys' : List Cpp.ByteString}
    (hkeys : List.Forall₂ TextAlike keys keys') :
    keys.any (fun key => !values.contains key) = keys'.any fun key' => !values'.contains key' := by
  induction hkeys with
  | nil => rfl
  | cons hkey _ ih => rw [List.any_cons, List.any_cons, ih, hvalues.contains hkey]

private theorem removeMany_alike (h : StoreAlike store store') (href : RefAlike ref ref')
    {keys : List Python.Str} {keys' : List Cpp.ByteString}
    (hkeys : List.Forall₂ TextAlike keys keys') (requireAllExisting : Bool) :
    MutationAlike (Python.mutate store (.removeMany { ref, keys, requireAllExisting }))
      (Cpp.mutate store' (.removeMany { ref := ref', keys := keys', requireAllExisting })) := by
  have hread := h.read href
  simp only [Python.mutate, Cpp.mutate]
  generalize store.lookup ref = x at hread ⊢
  generalize store'[ref']? = y at hread ⊢
  cases hread with
  | none =>
      have hany : (keys.any fun key => (none : Option Python.DynamicPropertyMap).all
          (!·.contains key)) = !keys'.isEmpty := by
        cases hkeys <;> rfl
      rw [hany]
      cases requireAllExisting && !keys'.isEmpty with
      | false => exact ⟨h, .none⟩
      | true => exact ⟨h, .some (notFound_alike _)⟩
  | @some values values' hvalues =>
      have hany : (keys.any fun key => (some values).all (!·.contains key)) =
          keys'.any fun key' => !values'.contains key' :=
        any_missing_alike hvalues hkeys
      rw [hany]
      dsimp only
      cases requireAllExisting && keys'.any fun key' => !values'.contains key' with
      | true => exact ⟨h, .some (notFound_alike _)⟩
      | false => exact ⟨h.insert href (hvalues.eraseAll hkeys), .none⟩

section Carry

variable {source destination : Python.CollectionRef} {source' destination' : Cpp.CollectionRef}

/-- A source that was written to its destination is dropped where it has to go. -/
private theorem drop_alike {out : Python.Store × Option Python.MutationFailure}
    {out' : Cpp.Store × Option Cpp.MutationFailure} (hsource : RefAlike source source')
    (drop : Bool) : MutationAlike out out' → MutationAlike
      (match out with
        | (store, some failed) => (store, some failed)
        | (store, none) => if drop then (store.erase source, none) else (store, none))
      (match out' with
        | (store, some failed) => (store, some failed)
        | (store, none) => if drop then (store.erase source', none) else (store, none)) := by
  intro h
  obtain ⟨store, failed⟩ := out
  obtain ⟨store', failed'⟩ := out'
  obtain ⟨hstore, hfailed⟩ := h
  dsimp only at hstore hfailed
  cases hfailed with
  | some hboth => exact ⟨hstore, .some hboth⟩
  | none =>
      cases drop with
      | true => exact ⟨hstore.erase hsource, .none⟩
      | false => exact ⟨hstore, .none⟩

/-- A whole collection is copied or moved. -/
private theorem carry_alike (h : StoreAlike store store') (hsource : RefAlike source source')
    (hdestination : RefAlike destination destination') (policy : Cpp.ImportPolicy) (drop : Bool) :
    MutationAlike
      (match store.lookup source with
        | none => (store, some (Python.notFound "source collection does not exist"))
        | some values =>
            match Python.writeDestination store destination values policy with
            | (store, some failed) => (store, some failed)
            | (store, none) => if drop then (store.erase source, none) else (store, none))
      (match store'[source']? with
        | none => (store', some (Cpp.notFound "source collection does not exist"))
        | some values =>
            match Cpp.writeDestination store' destination' values policy with
            | (store, some failed) => (store, some failed)
            | (store, none) => if drop then (store.erase source', none) else (store, none)) := by
  have hread := h.read hsource
  generalize store.lookup source = x at hread ⊢
  generalize store'[source']? = y at hread ⊢
  cases hread with
  | none => exact ⟨h, .some (notFound_alike _)⟩
  | some hvalues =>
      exact drop_alike hsource drop (writeDestination_alike h hdestination hvalues policy)

/-- Both sides agree on whether a transfer stays in its collection. -/
private theorem bne_alike (hsource : RefAlike source source')
    (hdestination : RefAlike destination destination') :
    (source != destination) = (source' != destination') := by
  have hsame : source = destination ↔ source' = destination' := by
    constructor
    · rintro rfl
      exact biUnique_refAlike.2 hsource hdestination
    · rintro rfl
      exact biUnique_refAlike.1 hsource hdestination
  rw [bne, bne, beq_eq_decide, beq_eq_decide, decide_eq_decide.mpr hsame]

end Carry

/-- The last step of a property transfer that removes its source. -/
private theorem dropKey_alike (h : StoreAlike store store') (href : RefAlike ref ref')
    {key : Python.Str} {key' : Cpp.ByteString} (hkey : TextAlike key key') :
    MutationAlike
      (match store.lookup ref with
        | none => (store, none)
        | some values => (store.insert ref (values.erase key), none))
      (match store'[ref']? with
        | none => (store', none)
        | some values => (store'.insert ref' (values.erase key'), none)) := by
  have hread := h.read href
  generalize store.lookup ref = x at hread ⊢
  generalize store'[ref']? = y at hread ⊢
  cases hread with
  | none => exact ⟨h, .none⟩
  | some hvalues => exact ⟨h.insert href (hvalues.erase hkey), .none⟩

/-- The property a transfer starts from. -/
private theorem property_alike (h : StoreAlike store store') (href : RefAlike ref ref')
    {key : Python.Str} {key' : Cpp.ByteString} (hkey : TextAlike key key') :
    Option.Rel ValueAlike ((store.lookup ref).bind (·[key]?))
      ((store'[ref']?).bind (·[key']?)) := by
  have hread := h.read href
  generalize store.lookup ref = x at hread ⊢
  generalize store'[ref']? = y at hread ⊢
  cases hread with
  | none => exact .none
  | some hvalues => exact hvalues.related _ _ hkey

private theorem transferProperty_alike (h : StoreAlike store store')
    {source destination : Python.CollectionRef} {source' destination' : Cpp.CollectionRef}
    {sourceKey destinationKey : Python.Str} {sourceKey' destinationKey' : Cpp.ByteString}
    (hsource : RefAlike source source') (hsourceKey : TextAlike sourceKey sourceKey')
    (hdestination : RefAlike destination destination')
    (hdestinationKey : TextAlike destinationKey destinationKey') (removeSource overwrite : Bool) :
    MutationAlike
      (Python.mutate store (.transferProperty
        { source, sourceKey, destination, destinationKey, removeSource, overwrite }))
      (Cpp.mutate store' (.transferProperty
        { source := source', sourceKey := sourceKey', destination := destination'
          destinationKey := destinationKey', removeSource, overwrite })) := by
  have hvalue := property_alike h hsource hsourceKey
  simp only [Python.mutate, Cpp.mutate]
  generalize (store.lookup source).bind (·[sourceKey]?) = x at hvalue ⊢
  generalize (store'[source']?).bind (·[sourceKey']?) = y at hvalue ⊢
  cases hvalue with
  | none => exact ⟨h, .some (notFound_alike _)⟩
  | some hvalue =>
      obtain ⟨hfound, hcreated⟩ := setDefault_alike h hdestination
      rw [hfound.contains hdestinationKey, Bool.and_comm]
      cases hblocked : !overwrite && (Cpp.collectionOrNew store' destination').contains
          destinationKey' with
      | true => exact ⟨hcreated, .some (conflict_alike _)⟩
      | false =>
          have hwritten := hcreated.insert hdestination (hfound.insert hdestinationKey hvalue)
          cases removeSource with
          | false => exact ⟨hwritten, .none⟩
          | true => exact dropKey_alike hwritten hsource hsourceKey

end Mutation

section Mutate

variable {store : Python.Store} {store' : Cpp.Store} {operation : Python.Operation}
  {operation' : Cpp.DynamicPropertyOperation}

/-- **Step lemma of the store**: one operation. -/
theorem mutate_alike (hop : OperationAlike operation operation') (h : StoreAlike store store') :
    MutationAlike (Python.mutate store operation) (Cpp.mutate store' operation') := by
  cases hop with
  | setProperty href hkey hvalue =>
      have hfound := (setDefault_alike h href).1
      exact ⟨setDefault_insert_alike h href (hfound.insert hkey hvalue), .none⟩
  | setMany href hvalues =>
      have hfound := (setDefault_alike h href).1
      exact ⟨setDefault_insert_alike h href (hfound.overlay hvalues), .none⟩
  | removeProperty requireExisting href hkey => exact removeProperty_alike h href hkey _
  | removeMany requireAllExisting href hkeys => exact removeMany_alike h href hkeys _
  | clearCollection removeCollection href =>
      cases removeCollection with
      | true => exact ⟨h.erase href, .none⟩
      | false => exact ⟨h.insert href mapAlike_empty, .none⟩
  | renameCollection policy htarget hsource hdestination =>
      exact carry_alike h ⟨htarget, hsource⟩ ⟨htarget, hdestination⟩ policy true
  | transferProperty removeSource overwrite hsource hsourceKey hdestination hdestinationKey =>
      exact transferProperty_alike h hsource hsourceKey hdestination hdestinationKey _ _
  | transferCollection policy removeSource hsource hdestination =>
      simp only [Python.mutate, Cpp.mutate, bne_alike hsource hdestination]
      exact carry_alike h hsource hdestination policy _
  | importCollection policy hdestination hproperties =>
      exact writeDestination_alike h hdestination hproperties policy

end Mutate

/-! ## Snapshots -/

/-- Snapshots of the same collection.  Revisions are hashes of different texts and
not compared.  The byte count of C++ is a word of 64 bits. -/
structure SnapshotAlike (snapshot : Python.CollectionSnapshot)
    (snapshot' : Cpp.CollectionSnapshot) :
    Prop where
  ref : RefAlike snapshot.ref snapshot'.ref
  properties : MapAlike snapshot.properties snapshot'.properties
  byteCount : snapshot'.byteCount = UInt64.ofNat snapshot.byteCount
  exists_ : snapshot.exists_ = snapshot'.exists_
  loaded : snapshot.loaded = snapshot'.loaded
  persistent : snapshot.persistent = snapshot'.persistent
  writable : snapshot.writable = snapshot'.writable

structure CaptureAlike (captured : Python.CaptureResult)
    (captured' : Cpp.CaptureResult) : Prop where
  status : captured.status = captured'.status
  message : TextAlike captured.message captured'.message
  snapshot : Option.Rel SnapshotAlike captured.snapshot captured'.snapshot

/-- The estimates of one property. -/
theorem estimate_alike {key : Python.Str} {key' : Cpp.ByteString} (hkey : TextAlike key key')
    {value : Python.PyObject} {value' : Cpp.DynamicPropertyValue}
    (hvalue : ValueAlike value value') :
    ∃ size, Python.estimateBytes key value = .ok size ∧
      Cpp.estimateStoredBytes key' value' = UInt64.ofNat size := by
  have hoctets : Python.encodeUtf8 key = .ok key' := hkey
  unfold Python.estimateBytes Cpp.estimateStoredBytes
  rw [hoctets]
  cases hvalue with
  | bool value => exact ⟨key'.length + 8 + 1, rfl, by simp [UInt64.ofNat_add]⟩
  | number value => exact ⟨key'.length + 8 + 8, rfl, by simp [UInt64.ofNat_add]⟩
  | @string value octets htext =>
      have hvalueOctets : Python.encodeUtf8 value = .ok octets := htext
      refine ⟨key'.length + 8 + octets.length, ?_, by simp [UInt64.ofNat_add]⟩
      simp only [bind, Except.bind, hvalueOctets]
      rfl
  | vector3 x y z => exact ⟨key'.length + 8 + 24, rfl, by simp [UInt64.ofNat_add]⟩

/-- `sum(…)` on one side, the counting loop on the other. -/
private theorem sum_alike {items : List (Python.Str × Python.PyObject)}
    {items' : List (Cpp.ByteString × Cpp.DynamicPropertyValue)}
    (h : List.Forall₂ (EntriesRelated TextAlike ValueAlike) items items') (total : Nat) :
    ∃ size, items.foldlM Python.addEstimate total = .ok size ∧
      items'.foldl (fun count entry => count + Cpp.estimateStoredBytes entry.1 entry.2)
        (UInt64.ofNat total) = UInt64.ofNat size := by
  induction h generalizing total with
  | nil => exact ⟨total, rfl, rfl⟩
  | @cons item item' rest rest' hitem _ ih =>
      obtain ⟨size, hsize, hsize'⟩ := estimate_alike hitem.1 hitem.2
      obtain ⟨sum, hsum, hsum'⟩ := ih (total + size)
      have hstep : Python.addEstimate total item = .ok (total + size) := by
        rw [Python.addEstimate, hsize]
        rfl
      refine ⟨sum, ?_, ?_⟩
      · rw [List.foldlM_cons, hstep]
        exact hsum
      · rw [List.foldl_cons, hsize', ← UInt64.ofNat_add]
        exact hsum'

/-- The sizes of corresponding collections. -/
theorem byteCount_alike {properties : Python.DynamicPropertyMap}
    {properties' : Cpp.DynamicPropertyMap} (h : MapAlike properties properties') :
    ∃ size, properties.toList.foldlM Python.addEstimate 0 = .ok size ∧
      properties'.toList.foldl (fun count entry =>
        count + Cpp.estimateStoredBytes entry.1 entry.2) 0 =
        UInt64.ofNat size := by
  obtain ⟨reordered, hentries, hperm⟩ := h.entries biUnique_textAlike
    (fun _ _ => ExtTreeMap.mem_toList_iff_getElem?_eq_some)
    (Library.OrderedMap.nodup_of_sorted ExtTreeMap.ordered_keys_toList)
    (fun _ _ => ExtTreeMap.mem_toList_iff_getElem?_eq_some) Library.OrderedMap.nodup_toList
  obtain ⟨size, hsize, hsize'⟩ := sum_alike hentries 0
  -- each side counts in its own order of keys
  have hcomm : RightCommutative fun (count : UInt64)
      (entry : Cpp.ByteString × Cpp.DynamicPropertyValue) =>
        count + Cpp.estimateStoredBytes entry.1 entry.2 :=
    ⟨fun count first second => by rw [UInt64.add_assoc, UInt64.add_comm
      (Cpp.estimateStoredBytes first.1 first.2), ← UInt64.add_assoc]⟩
  refine ⟨size, hsize, ?_⟩
  rw [← hsize', ← hperm.foldl_eq]
  rfl

/-- A number of 32 bits is short enough to print. -/
private theorem returns_intText (value : Int32) : Returns (Python.intText value.toInt) := by
  have hlow := value.le_toInt
  have hhigh := value.toInt_lt
  have hsmall : value.toInt.natAbs < 10 ^ 10 := by omega
  have hshort : ∀ digits, 10 ≤ digits → ¬ 10 ^ digits ≤ value.toInt.natAbs := by
    intro digits hdigits
    exact Nat.not_le_of_lt (Nat.lt_of_lt_of_le hsmall (Nat.pow_le_pow_right (by decide) hdigits))
  rw [Python.intText, if_neg (hshort 4300 (by decide))]
  exact returns_ok _

theorem describable_alike {target : Python.DynamicPropertyTarget}
    {target' : Cpp.DynamicPropertyTarget} (h : TargetAlike target target') :
    Python.Describable target := by
  have hblock : Returns (Python.describeBlock target.block) := by
    have hrel := h.block
    generalize target.block = x at hrel
    generalize target'.block = y at hrel
    cases hrel with
    | none => exact returns_ok _
    | @some block block' hblock =>
        obtain ⟨x, hx⟩ := returns_intText block'.x
        obtain ⟨y, hy⟩ := returns_intText block'.y
        obtain ⟨z, hz⟩ := returns_intText block'.z
        rw [Python.describeBlock, hblock.x, hblock.y, hblock.z, hx, hy, hz]
        exact returns_ok _
  have hslot : Returns (Python.describeSlot target.slot) := by
    rw [Python.describeSlot, h.slot]
    obtain ⟨slot, hslot⟩ := returns_intText target'.slot
    rw [hslot]
    split <;> exact returns_ok _
  obtain ⟨block, hblock⟩ := hblock
  obtain ⟨slot, hslot⟩ := hslot
  rw [Python.Describable, Python.describeTarget, hblock, hslot]
  exact returns_ok _

theorem recordable_alike {value : Python.PyObject} {value' : Cpp.DynamicPropertyValue}
    (h : ValueAlike value value') : Python.Recordable value := by
  cases h with
  | bool | number => trivial
  | string htext => exact Python.returns_encodeUtf8.mp ⟨_, htext⟩
  | vector3 x y z =>
      intro coordinate hmem
      simp only [List.mem_cons, List.not_mem_nil, or_false] at hmem
      rcases hmem with rfl | rfl | rfl <;> rfl

section Captures

variable (digest : Python.Canonical → UInt64) {ref : Python.CollectionRef}
  {ref' : Cpp.CollectionRef}

theorem snapshot_alike (href : RefAlike ref ref') {properties : Python.DynamicPropertyMap}
    {properties' : Cpp.DynamicPropertyMap} (h : MapAlike properties properties') (exists_ : Bool) :
    ∃ snapshot, Python.snapshotOf digest ref properties exists_ = .ok snapshot ∧
      SnapshotAlike snapshot (Cpp.makeSnapshot ref' properties' exists_) := by
  have hentries : Library.Collections.Holds Python.Encodable Python.Recordable properties := by
    intro key value hread
    obtain ⟨key', hkey⟩ := h.left key (by rw [hread]; rfl)
    have hrelated := h.related key key' hkey
    rw [hread] at hrelated
    generalize properties'[key']? = y at hrelated
    cases hrelated with
    | some hvalue => exact ⟨Python.returns_encodeUtf8.mp ⟨_, hkey⟩, recordable_alike hvalue⟩
  obtain ⟨snapshot, hsnapshot⟩ := (Python.returns_snapshotOf digest ref properties exists_).mpr
    ⟨describable_alike href.target, hentries⟩
  obtain ⟨byteCount, revision, hcount, rfl⟩ := Python.snapshotOf_eq hsnapshot
  obtain ⟨size, hsize, hsize'⟩ := byteCount_alike h
  obtain rfl : size = byteCount := Except.ok.inj (hsize.symm.trans hcount)
  exact ⟨_, hsnapshot, href, h, hsize', rfl, rfl, rfl, rfl⟩

variable {availability : Python.Availability} {availability' : Cpp.Availability}
  {store : Python.Store} {store' : Cpp.Store}

/-- **Captures agree.** -/
theorem capture_alike (havail : AvailabilityAlike availability availability')
    (h : StoreAlike store store') (href : RefAlike ref ref') :
    ∃ captured, Python.captureIn digest availability store ref = .ok captured ∧
      CaptureAlike captured (Cpp.captureUnlocked availability' store' ref') := by
  have htarget := targetAvailable_alike havail href.target
  unfold Python.captureIn Cpp.captureUnlocked
  rw [htarget]
  cases Cpp.targetAvailable availability' ref'.target with
  | false => exact ⟨_, rfl, rfl, textAlike_str _, .none⟩
  | true =>
      have hread := h.read href
      generalize store.lookup ref = x at hread ⊢
      generalize store'[ref']? = y at hread ⊢
      cases hread with
      | none =>
          obtain ⟨snapshot, hsnapshot, halike⟩ := snapshot_alike digest href mapAlike_empty false
          simp only [hsnapshot]
          exact ⟨_, rfl, rfl, textAlike_str _, .some halike⟩
      | some hvalues =>
          obtain ⟨snapshot, hsnapshot, halike⟩ := snapshot_alike digest href hvalues true
          simp only [hsnapshot]
          exact ⟨_, rfl, rfl, textAlike_str _, .some halike⟩

end Captures

/-! ## Applying an operation -/

structure ResultAlike (result : Python.OperationResult) (result' : Cpp.OperationResult) : Prop where
  status : result.status = result'.status
  message : TextAlike result.message result'.message
  before : List.Forall₂ SnapshotAlike result.before result'.before
  after : List.Forall₂ SnapshotAlike result.after result'.after

theorem ResultAlike.ok {result : Python.OperationResult} {result' : Cpp.OperationResult}
    (h : ResultAlike result result') : result.ok = result'.ok := by
  rw [Python.OperationResult.ok, Cpp.OperationResult.ok, h.status]

/-- What the first loop passes on, or why it stops. -/
def CheckAlike : Except Python.OperationResult (List Python.CollectionSnapshot) →
    Except Cpp.OperationResult (List Cpp.CollectionSnapshot) → Prop
  | .ok before, .ok before' => List.Forall₂ SnapshotAlike before before'
  | .error result, .error result' => ResultAlike result result'
  | _, _ => False

section Apply

variable (digest : Python.Canonical → UInt64) {availability : Python.Availability}
  {availability' : Cpp.Availability} {store : Python.Store} {store' : Cpp.Store}
  {operation : Python.Operation} {operation' : Cpp.DynamicPropertyOperation}

private theorem firstMentions_one {ref : Python.CollectionRef} {ref' : Cpp.CollectionRef}
    (href : RefAlike ref ref') :
    List.Forall₂ RefAlike [ref].eraseDups (Cpp.firstMentions [] [ref']) := by
  simpa [Cpp.firstMentions, List.eraseDups_cons] using href

/-- Both sides drop a second mention of a collection. -/
private theorem firstMentions_two {source destination : Python.CollectionRef}
    {source' destination' : Cpp.CollectionRef} (hsource : RefAlike source source')
    (hdestination : RefAlike destination destination') :
    List.Forall₂ RefAlike [source, destination].eraseDups
      (Cpp.firstMentions [] [source', destination']) := by
  have hsame := bne_alike hsource hdestination
  by_cases heq : source = destination
  · subst heq
    obtain rfl := biUnique_refAlike.2 hsource hdestination
    simpa [Cpp.firstMentions, List.eraseDups_cons] using hsource
  · have heq' : source' ≠ destination' := by
      rw [← bne_iff_ne, ← hsame]
      exact bne_iff_ne.mpr heq
    simpa [Cpp.firstMentions, List.eraseDups_cons, Ne.symm heq, Ne.symm heq'] using
      And.intro hsource hdestination

private theorem participants_alike (hop : OperationAlike operation operation') :
    List.Forall₂ RefAlike (Python.operationRefs operation).eraseDups
      (Cpp.participants operation') := by
  cases hop with
  | setProperty href | setMany href | removeProperty _ href | removeMany _ href
  | clearCollection _ href => exact firstMentions_one href
  | importCollection _ hdestination => exact firstMentions_one hdestination
  | renameCollection _ htarget hsource hdestination =>
      exact firstMentions_two ⟨htarget, hsource⟩ ⟨htarget, hdestination⟩
  | transferProperty _ _ hsource _ hdestination | transferCollection _ _ hsource hdestination =>
      exact firstMentions_two hsource hdestination

/-- The first loop, on participants that correspond. -/
private theorem checkParticipants_alike (force : Bool) (hop : OperationAlike operation operation')
    (havail : AvailabilityAlike availability availability') (h : StoreAlike store store')
    {refs : List Python.CollectionRef} {refs' : List Cpp.CollectionRef}
    (hrefs : List.Forall₂ RefAlike refs refs') {before : List Python.CollectionSnapshot}
    {before' : List Cpp.CollectionSnapshot} (hbefore : List.Forall₂ SnapshotAlike before before') :
    ∃ checked, Python.checkParticipants digest availability store operation force refs before =
        .ok checked ∧
      CheckAlike checked
        (Cpp.checkParticipants availability' store' operation' force refs' before') := by
  induction hrefs generalizing before before' with
  | nil => exact ⟨_, rfl, hbefore⟩
  | @cons ref ref' rest rest' href _ ih =>
      obtain ⟨captured, hcaptured, halike⟩ := capture_alike digest havail h href
      simp only [Python.checkParticipants, Cpp.checkParticipants, hcaptured, bind, Except.bind,
        hop.noExpectation.expectedRevision, hop.noExpectation']
      cases htarget : Cpp.targetAvailable availability' ref'.target with
      | false =>
          rw [Cpp.captureUnlocked_unavailable htarget] at halike ⊢
          obtain ⟨status, message, snapshot⟩ := captured
          obtain ⟨hstatus, hmessage, hsnapshot⟩ := halike
          cases hsnapshot
          have hok : Python.CaptureResult.ok ⟨status, message, none⟩ = false := by
            dsimp only at hstatus
            rw [Python.CaptureResult.ok, hstatus]
            rfl
          simp only [hok]
          exact ⟨_, rfl, hstatus, hmessage, hbefore, .nil⟩
      | true =>
          have hok' : (Cpp.captureUnlocked availability' store' ref').ok = true :=
            Cpp.captureUnlocked_ok htarget
          have hsnapshot' : (Cpp.captureUnlocked availability' store' ref').snapshot = some _ :=
            Cpp.captureUnlocked_available htarget
          generalize Cpp.captureUnlocked availability' store' ref' = captured' at *
          obtain ⟨status, message, snapshot⟩ := captured
          obtain ⟨hstatus, hmessage, hsnapshot⟩ := halike
          have hok : Python.CaptureResult.ok ⟨status, message, snapshot⟩ = true := by
            dsimp only at hstatus
            rwa [Python.CaptureResult.ok, hstatus]
          dsimp only at hsnapshot
          rw [hsnapshot'] at hsnapshot ⊢
          cases hsnapshot with
          | some hboth =>
              simp only [hok]
              have hlonger := List.rel_append hbefore (List.Forall₂.cons hboth .nil)
              obtain ⟨checked, hchecked, hrest⟩ := ih hlonger
              exact ⟨checked, by simpa using hchecked, by simpa using hrest⟩

/-- The captures after the mutation. -/
private theorem captures_alike (havail : AvailabilityAlike availability availability')
    (h : StoreAlike store store') {refs : List Python.CollectionRef}
    {refs' : List Cpp.CollectionRef} (hrefs : List.Forall₂ RefAlike refs refs') :
    ∃ captures, refs.mapM (fun ref => Python.captureIn digest availability store ref) =
        .ok captures ∧
      List.Forall₂ SnapshotAlike (captures.filterMap (·.snapshot))
        (refs'.filterMap fun ref' => (Cpp.captureUnlocked availability' store' ref').snapshot) := by
  induction hrefs with
  | nil => exact ⟨[], rfl, .nil⟩
  | @cons ref ref' rest rest' href _ ih =>
      obtain ⟨captured, hcaptured, halike⟩ := capture_alike digest havail h href
      obtain ⟨captures, hcaptures, hsnapshots⟩ := ih
      refine ⟨captured :: captures, ?_, ?_⟩
      · rw [List.mapM_cons, hcaptured, hcaptures]
        rfl
      · have hsnapshot := halike.snapshot
        rw [List.filterMap_cons, List.filterMap_cons]
        generalize captured.snapshot = x at hsnapshot ⊢
        generalize (Cpp.captureUnlocked availability' store' ref').snapshot = y at hsnapshot ⊢
        cases hsnapshot with
        | none => exact hsnapshots
        | some hboth => exact .cons hboth hsnapshots

/-- **Step lemma of `_apply`.**  It returns, with the result of `applyUnlocked`, and
leaves the same store. -/
theorem apply_alike (force : Bool) (hop : OperationAlike operation operation')
    (havail : AvailabilityAlike availability availability') (h : StoreAlike store store') :
    ∃ result, (Python.applyIn digest availability store operation force).1 = .ok result ∧
      ResultAlike result (Cpp.applyUnlocked availability' store' operation' force).1 ∧
      StoreAlike (Python.applyIn digest availability store operation force).2
        (Cpp.applyUnlocked availability' store' operation' force).2 := by
  have hrefs := participants_alike hop
  obtain ⟨checked, hchecked, hcheck⟩ := checkParticipants_alike digest force hop havail h hrefs
    (List.Forall₂.nil (R := SnapshotAlike))
  have hconsistent : Cpp.conflictingExpectations operation' = false := by
    cases hop <;> simp [Cpp.conflictingExpectations]
  simp only [Python.applyIn, Cpp.applyUnlocked, hchecked, hconsistent, Bool.false_eq_true, if_false]
  generalize Cpp.checkParticipants availability' store' operation' force
    (Cpp.participants operation') [] = checked' at hcheck ⊢
  cases checked with
  | error result =>
      cases checked' with
      | error result' => exact ⟨result, rfl, hcheck, h⟩
      | ok before' => exact hcheck.elim
  | ok before =>
      cases checked' with
      | error result' => exact hcheck.elim
      | ok before' =>
          have hmutation := mutate_alike hop h
          generalize Python.mutate store operation = out at hmutation ⊢
          generalize Cpp.mutate store' operation' = out' at hmutation ⊢
          obtain ⟨written, failed⟩ := out
          obtain ⟨written', failed'⟩ := out'
          obtain ⟨hwritten, hfailed⟩ := hmutation
          dsimp only at hwritten hfailed
          cases hfailed with
          | some hboth => exact ⟨_, rfl, ⟨hboth.status, hboth.message, hcheck, .nil⟩, hwritten⟩
          | none =>
              obtain ⟨captures, hcaptures, hafter⟩ := captures_alike digest havail hwritten hrefs
              simp only [hcaptures, bind, Except.bind]
              exact ⟨_, rfl, ⟨rfl, textAlike_str _, hcheck, hafter⟩, hwritten⟩

end Apply

/-! ## Transactions -/

/-- The same transaction on both sides, as far as an adapter reads it. -/
structure TransactionAlike (transaction : Python.Transaction)
    (transaction' : Cpp.DynamicPropertyTransaction) : Prop where
  operations : List.Forall₂ OperationAlike transaction.operations transaction'.operations
  force : transaction.force = transaction'.force
  rollbackOnFailure : transaction.rollbackOnFailure = transaction'.rollbackOnFailure

/-- The same outcome of a transaction; each process numbers its own. -/
structure OutcomeAlike (result : Python.TransactionResult) (result' : Cpp.TransactionResult) :
    Prop where
  status : result.status = result'.status
  message : TextAlike result.message result'.message
  operationResults : List.Forall₂ ResultAlike result.operationResults result'.operationResults
  rolledBack : result.rolledBack = result'.rolledBack

/-- Adapters with the same collections and the same available targets. -/
structure AdapterAlike (adapter : Python.InMemoryAdapter) (adapter' : Cpp.InMemoryAdapter) :
    Prop where
  store : StoreAlike adapter.store adapter'.store
  availability : AvailabilityAlike adapter.availability adapter'.availability

section Transact

variable (digest : Python.Canonical → UInt64)

/-- **Run lemma of `transact`**: the loops over the operations. -/
private theorem transactLoop_alike {availability : Python.Availability}
    {availability' : Cpp.Availability} (havail : AvailabilityAlike availability availability')
    (force rollbackOnFailure : Bool) {operations : List Python.Operation}
    {operations' : List Cpp.DynamicPropertyOperation}
    (hops : List.Forall₂ OperationAlike operations operations') {store : Python.Store}
    {store' : Cpp.Store} (h : StoreAlike store store') {results : List Python.OperationResult}
    (out : Cpp.TransactionResult) (hresults : List.Forall₂ ResultAlike results out.operationResults)
    (hout : out.rolledBack = false) :
    ∃ result candidate, Python.InMemoryAdapter.transactLoop digest availability force
        rollbackOnFailure operations store results = .ok (result, candidate) ∧
      OutcomeAlike result (Cpp.InMemoryAdapter.transactLoop availability' force rollbackOnFailure
        operations' store' out).1 ∧
      Option.Rel StoreAlike candidate (Cpp.InMemoryAdapter.transactLoop availability' force
        rollbackOnFailure operations' store' out).2 := by
  induction hops generalizing store store' results out with
  | nil => exact ⟨_, _, rfl, ⟨rfl, textAlike_str _, hresults, hout.symm⟩, .some h⟩
  | @cons operation operation' rest rest' hop _ ih =>
      obtain ⟨result, hresult, hsame, hstore⟩ := apply_alike digest force hop havail h
      have hlonger := List.rel_append hresults (List.Forall₂.cons hsame .nil)
      simp only [Python.InMemoryAdapter.transactLoop, Cpp.InMemoryAdapter.transactLoop]
      generalize Python.applyIn digest availability store operation force = applied at *
      generalize Cpp.applyUnlocked availability' store' operation' force = applied' at *
      obtain ⟨returned, written⟩ := applied
      obtain ⟨result', written'⟩ := applied'
      dsimp only at hresult hsame hstore hlonger ⊢
      subst hresult
      simp only [hsame.ok]
      cases result'.ok with
      | true => exact ih hstore _ hlonger hout
      | false => exact ⟨_, _, rfl, ⟨rfl, hsame.message, hlonger, rfl⟩, .none⟩

/-- **Transactions agree.** -/
theorem transact_alike {adapter : Python.InMemoryAdapter} {adapter' : Cpp.InMemoryAdapter}
    (h : AdapterAlike adapter adapter') {transaction : Python.Transaction}
    {transaction' : Cpp.DynamicPropertyTransaction}
    (htx : TransactionAlike transaction transaction')
    (ids : Nat) :
    ∃ result, (adapter.transact digest transaction ids).1 = .ok result ∧
      OutcomeAlike result (adapter'.transact transaction').1 ∧
      AdapterAlike (adapter.transact digest transaction ids).2.1
        (adapter'.transact transaction').2 := by
  obtain ⟨result, candidate, hloop, houtcome, hcandidate⟩ := transactLoop_alike digest
    h.availability transaction'.force transaction'.rollbackOnFailure htx.operations h.store
    { transactionId := Cpp.text "memtx-" ++ Cpp.decimal adapter'.transactionCounter } .nil rfl
  unfold Python.InMemoryAdapter.transact Cpp.InMemoryAdapter.transact
  rw [htx.force, htx.rollbackOnFailure, hloop]
  dsimp only
  generalize Cpp.InMemoryAdapter.transactLoop _ _ _ _ _ _ = looped' at houtcome hcandidate ⊢
  obtain ⟨result', candidate'⟩ := looped'
  obtain ⟨hstatus, hmessage, hresults, hrolledBack⟩ := houtcome
  dsimp only at hcandidate
  cases hcandidate with
  | none => exact ⟨_, rfl, ⟨hstatus, hmessage, hresults, hrolledBack⟩, h.store, h.availability⟩
  | some hstore => exact ⟨_, rfl, ⟨hstatus, hmessage, hresults, hrolledBack⟩, hstore,
    h.availability⟩

end Transact

/-! ## Sequences of calls -/

/-- A call of an adapter, over its references, operations and transactions. -/
inductive AdapterCall (ρ ο τ : Type) where
  | capture (ref : ρ)
  | apply (operation : ο) (force : Bool)
  | transact (transaction : τ)

/-- What a call of an adapter comes to. -/
inductive AdapterAnswer (ρ ο τ : Type) where
  | captured (result : ρ)
  | applied (result : ο)
  | transacted (result : τ)

abbrev Python.Call := AdapterCall Python.CollectionRef Python.Operation Python.Transaction

abbrev Cpp.Call :=
  AdapterCall Cpp.CollectionRef Cpp.DynamicPropertyOperation Cpp.DynamicPropertyTransaction

/-- A call of the Python adapter, with the counter of transaction ids. -/
def Python.answer (digest : Python.Canonical → UInt64) (call : Python.Call)
    (state : Python.InMemoryAdapter × Nat) :
    AdapterAnswer (Except PyError CaptureResult) (Except PyError OperationResult)
      (Except PyError TransactionResult) × Python.InMemoryAdapter × Nat :=
  let (adapter, ids) := state
  match call with
  | .capture ref => (.captured (adapter.capture digest ref), adapter, ids)
  | .apply operation force =>
      let (result, adapter) := adapter.apply digest operation force
      (.applied result, adapter, ids)
  | .transact transaction =>
      let (result, adapter, ids) := adapter.transact digest transaction ids
      (.transacted result, adapter, ids)

def Cpp.answer (call : Cpp.Call) (adapter : Cpp.InMemoryAdapter) :
    AdapterAnswer CaptureResult OperationResult TransactionResult × Cpp.InMemoryAdapter :=
  match call with
  | .capture ref => (.captured (adapter.capture ref), adapter)
  | .apply operation force =>
      let (result, adapter) := adapter.apply operation force
      (.applied result, adapter)
  | .transact transaction =>
      let (result, adapter) := adapter.transact transaction
      (.transacted result, adapter)

/-- The same call on both sides. -/
inductive CallAlike : Python.Call → Cpp.Call → Prop
  | capture {ref : Python.CollectionRef} {ref' : Cpp.CollectionRef} (href : RefAlike ref ref') :
      CallAlike (.capture ref) (.capture ref')
  | apply {operation : Python.Operation} {operation' : Cpp.DynamicPropertyOperation} (force : Bool)
      (hop : OperationAlike operation operation') :
      CallAlike (.apply operation force) (.apply operation' force)
  | transact {transaction : Python.Transaction} {transaction' : Cpp.DynamicPropertyTransaction}
      (htx : TransactionAlike transaction transaction') :
      CallAlike (.transact transaction) (.transact transaction')

/-- The Python call returned, and what it returned corresponds. -/
inductive AnswerAlike :
    AdapterAnswer (Except Python.PyError Python.CaptureResult)
      (Except Python.PyError Python.OperationResult)
      (Except Python.PyError Python.TransactionResult) →
    AdapterAnswer Cpp.CaptureResult Cpp.OperationResult Cpp.TransactionResult → Prop
  | captured {result : Python.CaptureResult} {result' : Cpp.CaptureResult}
      (h : CaptureAlike result result') : AnswerAlike (.captured (.ok result)) (.captured result')
  | applied {result : Python.OperationResult} {result' : Cpp.OperationResult}
      (h : ResultAlike result result') : AnswerAlike (.applied (.ok result)) (.applied result')
  | transacted {result : Python.TransactionResult} {result' : Cpp.TransactionResult}
      (h : OutcomeAlike result result') :
      AnswerAlike (.transacted (.ok result)) (.transacted result')

section Calls

variable (digest : Python.Canonical → UInt64)

private theorem answer_alike {call : Python.Call} {call' : Cpp.Call} (hcall : CallAlike call call')
    {state : Python.InMemoryAdapter × Nat} {adapter' : Cpp.InMemoryAdapter}
    (h : AdapterAlike state.1 adapter') :
    AnswerAlike (Python.answer digest call state).1 (Cpp.answer call' adapter').1 ∧
      AdapterAlike (Python.answer digest call state).2.1 (Cpp.answer call' adapter').2 := by
  obtain ⟨adapter, ids⟩ := state
  cases hcall with
  | capture href =>
      obtain ⟨captured, hcaptured, halike⟩ := capture_alike digest h.availability h.store href
      simp only [Python.answer, Cpp.answer, Python.InMemoryAdapter.capture, hcaptured]
      exact ⟨.captured halike, h⟩
  | apply force hop =>
      obtain ⟨result, hresult, halike, hstore⟩ :=
        apply_alike digest force hop h.availability h.store
      simp only [Python.answer, Cpp.answer, Python.InMemoryAdapter.apply, hresult]
      exact ⟨.applied halike, hstore, h.availability⟩
  | transact htx =>
      obtain ⟨result, hresult, halike, hadapter⟩ := transact_alike digest h htx ids
      simp only [Python.answer, Cpp.answer, hresult]
      exact ⟨.transacted halike, hadapter⟩

/-- **Both adapters keep the same store.**  Corresponding calls on corresponding
adapters, one after another, get corresponding answers; afterwards the collections
are the same and every capture agrees. -/
theorem adapters_agree {adapter : Python.InMemoryAdapter} {adapter' : Cpp.InMemoryAdapter}
    (h : AdapterAlike adapter adapter') {calls : List Python.Call} {calls' : List Cpp.Call}
    (hcalls : List.Forall₂ CallAlike calls calls') (ids : Nat) :
    let outcome := Library.Sequence.runEach (Python.answer digest) calls (adapter, ids)
    let outcome' := Library.Sequence.runEach Cpp.answer calls' adapter'
    List.Forall₂ AnswerAlike outcome.1 outcome'.1 ∧
      AdapterAlike outcome.2.1 outcome'.2 ∧
      ∀ ref ref', RefAlike ref ref' → ∃ captured,
        outcome.2.1.capture digest ref = .ok captured ∧
          CaptureAlike captured (outcome'.2.capture ref') := by
  intro outcome outcome'
  have hstep : ∀ (call : Python.Call) (call' : Cpp.Call) (state : Python.InMemoryAdapter × Nat)
      (adapter' : Cpp.InMemoryAdapter), CallAlike call call' → AdapterAlike state.1 adapter' →
      AnswerAlike (Python.answer digest call state).1 (Cpp.answer call' adapter').1 ∧
        AdapterAlike (Python.answer digest call state).2.1 (Cpp.answer call' adapter').2 :=
    fun _ _ _ _ hcall hstate => answer_alike digest hcall hstate
  have hinit : AdapterAlike (adapter, ids).1 adapter' := h
  have hrun := Library.Sequence.runEach_rel hstep hcalls hinit
  obtain ⟨hanswers, hfinal⟩ := hrun
  exact ⟨hanswers, hfinal,
    fun ref ref' href => capture_alike digest hfinal.availability hfinal.store href⟩

end Calls

/-! A player's notes are written, and moved together with one that is not there: the
second operation fails and takes the first one with it. -/

def notesCalls : List Python.Call :=
  [.apply (.setProperty
      { ref := ⟨{}, Python.str "notes"⟩, key := Python.str "open", value := .bool true }) false,
    .transact
      { operations :=
          [.renameCollection
              { target := {}, source := Python.str "notes", destination := Python.str "archive" },
            .renameCollection
              { target := {}, source := Python.str "drafts", destination := Python.str "old" }] },
    .capture ⟨{}, Python.str "notes"⟩]

def notesCalls' : List Cpp.Call :=
  [.apply (.setProperty
      { ref := ⟨{}, Cpp.text "notes"⟩, key := Cpp.text "open", value := .bool true }) false,
    .transact
      { operations :=
          [.renameCollection
              { target := {}, source := Cpp.text "notes", destination := Cpp.text "archive" },
            .renameCollection
              { target := {}, source := Cpp.text "drafts", destination := Cpp.text "old" }] },
    .capture ⟨{}, Cpp.text "notes"⟩]

theorem notesCalls_alike : List.Forall₂ CallAlike notesCalls notesCalls' := by
  have href : RefAlike ⟨{}, Python.str "notes"⟩ ⟨{}, Cpp.text "notes"⟩ :=
    ⟨targetAlike_default, textAlike_str _⟩
  have hset := OperationAlike.setProperty href (textAlike_str "open") (.bool true)
  have hrename : ∀ source destination : String, OperationAlike
      (.renameCollection
        { target := {}, source := Python.str source, destination := Python.str destination })
      (.renameCollection
        { target := {}, source := Cpp.text source, destination := Cpp.text destination }) :=
    fun source destination =>
      .renameCollection .failIfDestinationExists targetAlike_default (textAlike_str source)
        (textAlike_str destination)
  have hboth := List.Forall₂.cons (hrename "notes" "archive") (.cons (hrename "drafts" "old") .nil)
  exact .cons (.apply false hset) (.cons (.transact ⟨hboth, rfl, rfl⟩) (.cons (.capture href) .nil))

theorem adapters_agree_notes :
    let outcome := Library.Sequence.runEach (Python.answer fun _ => 0) notesCalls ({}, 1)
    let outcome' := Library.Sequence.runEach Cpp.answer notesCalls' {}
    List.Forall₂ AnswerAlike outcome.1 outcome'.1 ∧
      AdapterAlike outcome.2.1 outcome'.2 ∧
      ∀ ref ref', RefAlike ref ref' → ∃ captured,
        outcome.2.1.capture (fun _ => 0) ref = .ok captured ∧
          CaptureAlike captured (outcome'.2.capture ref') :=
  adapters_agree (fun _ => 0) ⟨storeAlike_empty, availabilityAlike_empty⟩ notesCalls_alike 1

end DynamicProperties
