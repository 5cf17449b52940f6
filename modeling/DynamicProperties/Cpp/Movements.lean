import DynamicProperties.Cpp.Expectations

/-!
# What moves and copies do to the data

Two pointwise writes describe a property transfer (`putValue`, then `dropValue` when
the source is removed), and two a rename or a collection transfer.  `PropertyMoved`
and `CollectionMoved` say in lookups what these leave behind, and
`moves_conserve_data` says that the adapter does just that with every operation the
service accepts; a rename to a free name and back is the identity.
-/

namespace DynamicProperties.Cpp

open Std
open DynamicProperties.Library.OrderedMap
open DynamicProperties.Library.Footprint

/-! ## One property of one collection -/

def valueAt (look : Contents) (ref : CollectionRef) (key : ByteString) :
    Option DynamicPropertyValue :=
  (look ref).bind (·[key]?)

/-- The entry of a store. -/
def entryAt (store : Store) (ref : CollectionRef) (key : ByteString) :
    Option DynamicPropertyValue :=
  (store[ref]?).bind (·[key]?)

theorem entryAt_eq (store : Store) : entryAt store = valueAt (contents store) := rfl

def putValue (look : Contents) (ref : CollectionRef) (key : ByteString)
    (value : DynamicPropertyValue) : Contents :=
  Function.update look ref (some (((look ref).getD ∅).insert key value))

def dropValue (look : Contents) (ref : CollectionRef) (key : ByteString) : Contents :=
  Function.update look ref (some (((look ref).getD ∅).erase key))

theorem valueAt_putValue (look : Contents) (ref r : CollectionRef) (key k : ByteString)
    (value : DynamicPropertyValue) :
    valueAt (putValue look ref key value) r k =
      if r = ref ∧ k = key then some value else valueAt look r k := by
  unfold putValue valueAt
  by_cases href : r = ref
  · subst href
    rw [Function.update_self, Option.bind_some]
    by_cases hkey : k = key
    · subst hkey
      rw [if_pos ⟨rfl, rfl⟩, ExtTreeMap.getElem?_insert_self]
    · rw [if_neg fun h => hkey h.2, getElem?_insert_of_ne (Ne.symm hkey)]
      cases look r <;> simp
  · rw [if_neg fun h => href h.1, Function.update_of_ne href]

theorem valueAt_dropValue (look : Contents) (ref r : CollectionRef) (key k : ByteString) :
    valueAt (dropValue look ref key) r k =
      if r = ref ∧ k = key then none else valueAt look r k := by
  unfold dropValue valueAt
  by_cases href : r = ref
  · subst href
    rw [Function.update_self, Option.bind_some]
    by_cases hkey : k = key
    · subst hkey
      rw [if_pos ⟨rfl, rfl⟩, ExtTreeMap.getElem?_erase_self]
    · rw [if_neg fun h => hkey h.2, getElem?_erase_of_ne (Ne.symm hkey)]
      cases look r <;> simp
  · rw [if_neg fun h => href h.1, Function.update_of_ne href]

/-- A property transfer puts the value at the destination and then, if asked, drops
it at the source, in the collection the write left behind. -/
theorem transferProperty_writes {entry : TransferPropertyOperation} {look : Contents}
    {plan : Plan CollectionRef (Option DynamicPropertyMap)}
    (h : effect (.transferProperty entry) look = .ok plan) :
    ∃ value, valueAt look entry.source entry.sourceKey = some value ∧
      write look plan =
        let written := putValue look entry.destination entry.destinationKey value
        if entry.removeSource then dropValue written entry.source entry.sourceKey
        else written := by
  simp only [effect] at h
  cases hvalue : (look entry.source).bind (·[entry.sourceKey]?) with
  | none =>
      rw [hvalue] at h
      cases h
  | some value =>
      refine ⟨value, hvalue, ?_⟩
      rw [hvalue] at h
      dsimp only at h
      split at h
      · cases h
      · cases h
        cases entry.removeSource with
        | false => rfl
        | true =>
            rw [write_cons, if_pos rfl, write_cons, write_nil]
            unfold dropValue putValue
            by_cases hsame : entry.source = entry.destination
            · simp [hsame]
            · simp [hsame]

/-- What a property transfer leaves behind. -/
structure PropertyMoved (entry : TransferPropertyOperation) (store after : Store) : Prop where
  /-- The destination holds the old value of the source. -/
  delivered : ∃ value, entryAt store entry.source entry.sourceKey = some value ∧
    entryAt after entry.destination entry.destinationKey = some value
  /-- The source entry is gone exactly when it was to be removed. -/
  source : entryAt after entry.source entry.sourceKey = none ↔ entry.removeSource = true
  /-- Every entry but the two is as it was, the source too unless it is removed. -/
  others : ∀ ref key, (ref, key) ≠ (entry.destination, entry.destinationKey) →
    (entry.removeSource = true → (ref, key) ≠ (entry.source, entry.sourceKey)) →
      entryAt after ref key = entryAt store ref key
  /-- No collection appears or vanishes, but the destination may be new. -/
  collections : ∀ ref, ref ≠ entry.destination → (after[ref]?).isSome = (store[ref]?).isSome

theorem propertyMoved {entry : TransferPropertyOperation} {store after : Store}
    {plan : Plan CollectionRef (Option DynamicPropertyMap)}
    (hplan : effect (.transferProperty entry) (contents store) = .ok plan)
    (hafter : contents after = write (contents store) plan)
    (hdistinct : entry.removeSource = true →
      (entry.source, entry.sourceKey) ≠ (entry.destination, entry.destinationKey)) :
    PropertyMoved entry store after := by
  obtain ⟨value, hvalue, hwrite⟩ := transferProperty_writes hplan
  rw [hwrite] at hafter
  have hput := valueAt_putValue (contents store) entry.destination
  cases hremove : entry.removeSource with
  | false =>
      simp only [hremove, Bool.false_eq_true, if_false] at hafter
      constructor
      · refine ⟨value, hvalue, ?_⟩
        rw [entryAt_eq, hafter, hput, if_pos ⟨rfl, rfl⟩]
      · rw [entryAt_eq, hafter, hput, hremove, hvalue]
        split <;> simp
      · intro ref key hother _
        rw [entryAt_eq, entryAt_eq, hafter, hput, if_neg fun h => hother (Prod.ext h.1 h.2)]
      · intro ref href
        show (contents after ref).isSome = (contents store ref).isSome
        rw [hafter, putValue, Function.update_of_ne href]
  | true =>
      simp only [hremove, if_true] at hafter
      have hne := hdistinct hremove
      constructor
      · refine ⟨value, hvalue, ?_⟩
        rw [entryAt_eq, hafter, valueAt_dropValue, if_neg fun h => hne (Prod.ext h.1.symm h.2.symm),
          hput, if_pos ⟨rfl, rfl⟩]
      · rw [entryAt_eq, hafter, valueAt_dropValue, if_pos ⟨rfl, rfl⟩, hremove]
        simp
      · intro ref key hother hsource
        rw [entryAt_eq, entryAt_eq, hafter, valueAt_dropValue,
          if_neg fun h => hsource hremove (Prod.ext h.1 h.2), hput,
          if_neg fun h => hother (Prod.ext h.1 h.2)]
      · intro ref href
        show (contents after ref).isSome = (contents store ref).isSome
        rw [hafter, dropValue]
        by_cases hsource : ref = entry.source
        · subst hsource
          obtain ⟨held, hheld, -⟩ := Option.bind_eq_some_iff.mp hvalue
          rw [Function.update_self, hheld]
          rfl
        · rw [Function.update_of_ne hsource, putValue, Function.update_of_ne href]

/-! ## Whole collections -/

/-- What a rename and a collection transfer have in common. -/
structure Relocation where
  source : CollectionRef
  destination : CollectionRef
  policy : ImportPolicy
  removesSource : Bool

/-- A rename always removes its source, a collection transfer if it is asked to. -/
def relocation : DynamicPropertyOperation → Option Relocation
  | .renameCollection entry =>
      some ⟨entry.sourceRef, entry.destinationRef, entry.destinationPolicy, true⟩
  | .transferCollection entry =>
      some ⟨entry.source, entry.destination, entry.destinationPolicy, entry.removeSource⟩
  | _ => none

/-- What a destination holds once values were delivered: over the existing ones under
`Merge`, and else instead of them. -/
def delivery (policy : ImportPolicy) (existing : Option DynamicPropertyMap)
    (values : DynamicPropertyMap) : DynamicPropertyMap :=
  match policy, existing with
  | .merge, some existing => overlay existing values
  | _, _ => values

theorem arrival_ok {existing : Option DynamicPropertyMap} {values arrived : DynamicPropertyMap}
    {policy : ImportPolicy} (h : arrival existing values policy = .ok arrived) :
    arrived = delivery policy existing values ∧
      (policy = .failIfDestinationExists → existing = none) := by
  cases policy <;> cases existing <;> cases h <;> simp [delivery]

theorem carry_writes {look : Contents} {source destination : CollectionRef} {policy : ImportPolicy}
    {removeSource : Bool} {plan : Plan CollectionRef (Option DynamicPropertyMap)}
    (h : carry look source destination policy removeSource = .ok plan) :
    ∃ values, look source = some values ∧
      (policy = .failIfDestinationExists → look destination = none) ∧
      write look plan =
        let arrived := Function.update look destination
          (some (delivery policy (look destination) values))
        if removeSource then Function.update arrived source none else arrived := by
  unfold carry at h
  cases hsource : look source with
  | none =>
      rw [hsource] at h
      cases h
  | some values =>
      rw [hsource] at h
      dsimp only at h
      cases harrive : arrival (look destination) values policy with
      | error failed =>
          rw [harrive] at h
          cases h
      | ok arrived =>
          rw [harrive] at h
          obtain ⟨rfl, hfresh⟩ := arrival_ok harrive
          cases h
          refine ⟨values, rfl, hfresh, ?_⟩
          cases removeSource <;> rfl

/-- What a rename or a collection transfer leaves behind. -/
structure CollectionMoved (move : Relocation) (store after : Store) : Prop where
  /-- The destination holds the old source, over what it held itself under `Merge`. -/
  delivered : ∃ values, store[move.source]? = some values ∧
    after[move.destination]? = some (delivery move.policy store[move.destination]? values)
  /-- The source is gone exactly when it was to be removed. -/
  source : after[move.source]? = none ↔ move.removesSource = true
  fresh : move.policy = .failIfDestinationExists → store[move.destination]? = none
  /-- Every other collection is as it was, the source too unless it is removed. -/
  others : ∀ ref, ref ≠ move.destination → (move.removesSource = true → ref ≠ move.source) →
    after[ref]? = store[ref]?

theorem collectionMoved {move : Relocation} {store after : Store}
    {plan : Plan CollectionRef (Option DynamicPropertyMap)}
    (hplan : carry (contents store) move.source move.destination move.policy
      move.removesSource = .ok plan)
    (hafter : contents after = write (contents store) plan)
    (hdistinct : move.removesSource = true → move.source ≠ move.destination) :
    CollectionMoved move store after := by
  obtain ⟨values, hvalues, hfresh, hwrite⟩ := carry_writes hplan
  rw [hwrite] at hafter
  have hread : ∀ ref, after[ref]? = contents after ref := fun _ => rfl
  cases hremove : move.removesSource with
  | false =>
      simp only [hremove, Bool.false_eq_true, if_false] at hafter
      constructor
      · refine ⟨values, hvalues, ?_⟩
        rw [hread, hafter, Function.update_self]
        rfl
      · rw [hread, hafter, hremove]
        by_cases hsame : move.source = move.destination
        · rw [hsame, Function.update_self]
          simp
        · rw [Function.update_of_ne hsame, hvalues]
          simp
      · exact hfresh
      · intro ref href _
        rw [hread, hafter, Function.update_of_ne href]
        rfl
  | true =>
      simp only [hremove, if_true] at hafter
      have hne := hdistinct hremove
      constructor
      · refine ⟨values, hvalues, ?_⟩
        rw [hread, hafter, Function.update_of_ne hne.symm, Function.update_self]
        rfl
      · rw [hread, hafter, Function.update_self, hremove]
        simp
      · exact hfresh
      · intro ref href hsource
        rw [hread, hafter, Function.update_of_ne (hsource hremove), Function.update_of_ne href]
        rfl

/-! ## What the adapter does -/

section Applied

variable {availability : Availability} {store : Store} {operation : DynamicPropertyOperation}
  {force : Bool}

/-- An applied operation writes its plan. -/
theorem applied_writes
    (h : (applyUnlocked availability store operation force).1.status = .applied) :
    ∃ plan, effect operation (contents store) = .ok plan ∧
      contents (applyUnlocked availability store operation force).2 =
        write (contents store) plan := by
  have hok := OperationResult.ok_iff.mpr h
  obtain ⟨plan, hplan⟩ := (applyUnlocked_ok_iff.mp hok).planned
  refine ⟨plan, hplan, ?_⟩
  rw [contents_applyUnlocked_of_ok hok, run, hplan]

variable {service : DynamicPropertyService} {context : AccessContext}

/-- The service lets no property move onto itself. -/
theorem transferProperty_distinct {entry : TransferPropertyOperation}
    (h : service.validateOperation (.transferProperty entry) context = none)
    (hremove : entry.removeSource = true) :
    (entry.source, entry.sourceKey) ≠ (entry.destination, entry.destinationKey) := by
  intro hsame
  obtain ⟨hsource, hkey⟩ := Prod.mk.inj hsame
  have hshape := (orElse_eq_none.mp h).2
  have hmove := (orElse_eq_none.mp (orElse_eq_none.mp (orElse_eq_none.mp hshape).2).2).2
  split at hmove
  · cases hmove
  · rw [if_pos ⟨hremove, hsource, hkey⟩] at hmove
    cases hmove

/-- Nor a collection. -/
theorem relocation_distinct {move : Relocation} (hmove : relocation operation = some move)
    (h : service.validateOperation operation context = none) (hremove : move.removesSource = true) :
    move.source ≠ move.destination := by
  cases operation with
  | renameCollection entry =>
      cases hmove
      have hrenames : entry.source ≠ entry.destination := renamesElsewhere_of_validated h
      exact fun hsame => hrenames (congrArg CollectionRef.collection hsame)
  | transferCollection entry =>
      cases hmove
      exact (validateOperation_none h).movesElsewhere hremove
  | setProperty entry | setMany entry | removeProperty entry | removeMany entry
  | clearCollection entry | transferProperty entry | importCollection entry => cases hmove

/-- Where no move is onto itself, both operations are carried out as they say. -/
theorem effect_relocation {move : Relocation} (hmove : relocation operation = some move)
    (hdistinct : move.removesSource = true → move.source ≠ move.destination) (look : Contents) :
    effect operation look =
      carry look move.source move.destination move.policy move.removesSource := by
  cases operation with
  | renameCollection entry =>
      cases hmove
      rfl
  | transferCollection entry =>
      cases hmove
      show carry look entry.source entry.destination entry.destinationPolicy
        (entry.removeSource && entry.source != entry.destination) = _
      cases hremove : entry.removeSource with
      | false => rfl
      | true =>
          have hne : (entry.source != entry.destination) = true :=
            bne_iff_ne.mpr (hdistinct hremove)
          rw [hne, Bool.and_self]
  | setProperty entry | setMany entry | removeProperty entry | removeMany entry
  | clearCollection entry | transferProperty entry | importCollection entry => cases hmove

/-- The rename that undoes another. -/
def IsReturn (entry back : RenameCollectionOperation) : Prop :=
  back.target = entry.target ∧ back.source = entry.destination ∧ back.destination = entry.source

/-- Renaming to a free name and back is the identity on stores, and the way back is
open to a rename that is forced or expects nothing. -/
theorem rename_back {entry back : RenameCollectionOperation} {forceBack : Bool}
    (hreturn : IsReturn entry back) (hdistinct : entry.sourceRef ≠ entry.destinationRef)
    (hfree : store[entry.destinationRef]? = none)
    (happlied :
      (applyUnlocked availability store (.renameCollection entry) force).1.status = .applied) :
    let renamed := (applyUnlocked availability store (.renameCollection entry) force).2
    let returned := applyUnlocked availability renamed (.renameCollection back) forceBack
    ((forceBack = true ∨ CarriesNoExpectation (.renameCollection back)) →
      returned.1.status = .applied) ∧
    (returned.1.status = .applied → returned.2 = store) := by
  intro renamed returned
  have hsourceBack : back.sourceRef = entry.destinationRef := by
    unfold RenameCollectionOperation.sourceRef RenameCollectionOperation.destinationRef
    rw [hreturn.1, hreturn.2.1]
  have hdestinationBack : back.destinationRef = entry.sourceRef := by
    unfold RenameCollectionOperation.sourceRef RenameCollectionOperation.destinationRef
    rw [hreturn.1, hreturn.2.2]
  obtain ⟨plan, hplan, hrenamed⟩ := applied_writes happlied
  obtain ⟨values, hvalues, -, hwrite⟩ := carry_writes hplan
  have hnone : contents store entry.destinationRef = none := hfree
  have hdelivered : delivery entry.destinationPolicy none values = values := by
    cases entry.destinationPolicy <;> rfl
  rw [hwrite, hnone, hdelivered, if_pos rfl] at hrenamed
  have hthere : contents renamed entry.destinationRef = some values := by
    rw [hrenamed, Function.update_of_ne hdistinct.symm, Function.update_self]
  have hgone : contents renamed entry.sourceRef = none := by
    rw [hrenamed, Function.update_self]
  have hbackPlan : effect (.renameCollection back) (contents renamed) =
      .ok [(entry.sourceRef, some values), (entry.destinationRef, none)] := by
    simp only [effect, carry, hsourceBack, hdestinationBack, hthere, hgone]
    cases back.destinationPolicy <;> rfl
  constructor
  · intro hunexpecting
    have haccepts := applyUnlocked_ok_iff.mp (OperationResult.ok_iff.mpr happlied)
    refine OperationResult.ok_iff.mp (applyUnlocked_ok_iff.mpr ⟨rfl, ?_, ?_, _, hbackPlan⟩)
    · intro ref href
      refine haccepts.available ref ?_
      simp only [operationCollections, hsourceBack, hdestinationBack, List.mem_cons,
        List.not_mem_nil, or_false] at href ⊢
      exact href.symm
    · intro hforce ref _ expected hexpected
      rcases hunexpecting with hforced | hnothing
      · rw [hforced] at hforce
        cases hforce
      · rw [hnothing.expectedRevision] at hexpected
        cases hexpected
  · intro hreturned
    obtain ⟨planBack, hplanBack, hstore⟩ := applied_writes hreturned
    rw [hbackPlan] at hplanBack
    cases hplanBack
    apply contents_injective
    show contents returned.2 = contents store
    rw [hstore, write_cons, write_cons, write_nil, hrenamed]
    funext ref
    by_cases hdestination : ref = entry.destinationRef
    · rw [hdestination, Function.update_self, hnone]
    rw [Function.update_of_ne hdestination]
    by_cases hsource : ref = entry.sourceRef
    · rw [hsource, Function.update_self, hvalues]
    · rw [Function.update_of_ne hsource, Function.update_of_ne hsource,
        Function.update_of_ne hdestination]

/-- **Moves and copies conserve data.** -/
theorem moves_conserve_data (availability : Availability) (store : Store)
    (operation : DynamicPropertyOperation) (force : Bool) (service : DynamicPropertyService)
    (context : AccessContext) (hvalid : service.validateOperation operation context = none)
    (happlied : (applyUnlocked availability store operation force).1.status = .applied) :
    (∀ entry, operation = .transferProperty entry →
      PropertyMoved entry store (applyUnlocked availability store operation force).2) ∧
    (∀ move, relocation operation = some move →
      CollectionMoved move store (applyUnlocked availability store operation force).2) ∧
    (∀ entry back forceBack, operation = .renameCollection entry → IsReturn entry back →
      store[entry.destinationRef]? = none →
        let renamed := (applyUnlocked availability store operation force).2
        let returned := applyUnlocked availability renamed (.renameCollection back) forceBack
        ((forceBack = true ∨ CarriesNoExpectation (.renameCollection back)) →
          returned.1.status = .applied) ∧
        (returned.1.status = .applied → returned.2 = store)) := by
  obtain ⟨plan, hplan, hafter⟩ := applied_writes happlied
  refine ⟨?_, ?_, ?_⟩
  · rintro entry rfl
    exact propertyMoved hplan hafter (transferProperty_distinct hvalid)
  · intro move hmove
    have hdistinct := relocation_distinct hmove hvalid
    rw [effect_relocation hmove hdistinct] at hplan
    exact collectionMoved hplan hafter hdistinct
  · rintro entry back forceBack rfl hreturn hfree
    exact rename_back hreturn (relocation_distinct rfl hvalid rfl) hfree happlied

end Applied

/-- Rename the flagged collection. -/
def renameFlagged : RenameCollectionOperation :=
  { target := flagged.target, source := flagged.collection, destination := text "archive" }

/-- A rename that the service accepts and the adapter applies moves the collection. -/
theorem moves_conserve_data_renameFlagged :
    CollectionMoved ⟨renameFlagged.sourceRef, renameFlagged.destinationRef,
        .failIfDestinationExists, true⟩ flaggedAdapter.store
      (applyUnlocked ∅ flaggedAdapter.store (.renameCollection renameFlagged) false).2 :=
  (moves_conserve_data ∅ flaggedAdapter.store (.renameCollection renameFlagged) false {}
    { rawAdmin := true } (by decide) (by decide)).2.1 _ rfl

end DynamicProperties.Cpp
