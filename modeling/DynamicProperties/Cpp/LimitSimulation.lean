import DynamicProperties.Cpp.Actions
import DynamicProperties.Cpp.Application
import DynamicProperties.Cpp.Preflight

/-!
# The limit simulation is exact

A shadow shows, of the collections it knows, whether they exist and which keys
they have: its `view` is a shape of the collections library, and a step of the
simulation is the action of the operation on that shape (`view_step`).  A shadow
`Tracks` a store when its view is the shape of the store, cut down to the named
collections.  The library's commuting square keeps that true from step to step,
so the simulation overflows exactly when some prefix of the operations takes
effect and leaves a named collection over the limit (`overflows_iff`).

The abstract run used here is `effectStep`, the planner as a step that succeeds
or not; `applyEach` of the adapter follows it (`AppliesAll.follows`), and equals
it when nothing but the planners can refuse (`appliesAll_of_succeeds`).
-/

namespace DynamicProperties.Cpp

open Std
open DynamicProperties.Library
open DynamicProperties.Library.OrderedMap
open DynamicProperties.Library.Footprint
open DynamicProperties.Library.Sequence
open DynamicProperties.Library.Collections

/-! ## Lookups in a shadow -/

namespace Shadow

variable (shadow : Shadow) (ref r : CollectionRef)

@[simp] theorem keysOf_setKeys (keys : Finset ByteString) :
    (shadow.setKeys ref keys).keysOf r = if r = ref then keys else shadow.keysOf r := by
  unfold keysOf setKeys
  by_cases h : r = ref
  · subst h
    simp
  · rw [if_neg h, getElem?_insert_of_ne (Ne.symm h)]

@[simp] theorem existsOf_setKeys (keys : Finset ByteString) :
    (shadow.setKeys ref keys).existsOf r = shadow.existsOf r := rfl

@[simp] theorem keysOf_setExists (value : Bool) :
    (shadow.setExists ref value).keysOf r = shadow.keysOf r := rfl

@[simp] theorem existsOf_setExists (value : Bool) :
    (shadow.setExists ref value).existsOf r = if r = ref then value else shadow.existsOf r := by
  unfold existsOf setExists
  by_cases h : r = ref
  · subst h
    simp
  · rw [if_neg h, getElem?_insert_of_ne (Ne.symm h)]

@[simp] theorem keysOf_empty : ({} : Shadow).keysOf r = ∅ := by
  simp [keysOf]

@[simp] theorem existsOf_empty : ({} : Shadow).existsOf r = false := by
  simp [existsOf]

/-- A count over the limit is found exactly where a mentioned collection is over
the limit. -/
theorem exceeds_iff (limit : Nat) :
    shadow.exceeds limit = true ↔ ∃ ref, limit < (shadow.keysOf ref).card := by
  unfold exceeds keysOf
  rw [List.any_eq_true]
  constructor
  · rintro ⟨⟨ref, keys⟩, hmem, hlt⟩
    refine ⟨ref, ?_⟩
    rw [ExtTreeMap.mem_toList_iff_getElem?_eq_some.mp hmem]
    simpa using hlt
  · rintro ⟨ref, hlt⟩
    cases hkeys : shadow.keys[ref]? with
    | none => simp [hkeys] at hlt
    | some keys =>
        refine ⟨(ref, keys), ExtTreeMap.mem_toList_iff_getElem?_eq_some.mpr hkeys, ?_⟩
        simpa [hkeys] using hlt

end Shadow

/-! ## A step is an action on the view -/

namespace Shadow

/-- What a shadow shows. -/
def view (shadow : Shadow) : Shape CollectionRef ByteString :=
  ⟨shadow.keysOf, shadow.existsOf⟩

variable (shadow : Shadow) (ref : CollectionRef) (keys : Finset ByteString)

theorem view_set (present : Bool) :
    ((shadow.setKeys ref keys).setExists ref present).view =
      shadow.view.write ref keys present := by
  ext1
  · funext r
    by_cases h : r = ref <;> simp [view, Shape.write, h]
  · funext r
    by_cases h : r = ref <;> simp [view, Shape.write, h]

theorem view_setKeys :
    (shadow.setKeys ref keys).view = shadow.view.write ref keys (shadow.view.present ref) := by
  ext1
  · funext r
    by_cases h : r = ref <;> simp [view, Shape.write, h]
  · funext r
    by_cases h : r = ref <;> simp [view, Shape.write, h]

@[simp] theorem view_keys : shadow.view.keys ref = shadow.keysOf ref := rfl

@[simp] theorem view_present : shadow.view.present ref = shadow.existsOf ref := rfl

theorem view_vacate : (shadow.vacate ref).view = shadow.view.write ref ∅ false :=
  view_set shadow ref ∅ false

/-- Import policies mean the same on both sides. -/
theorem view_arrive (policy : ImportPolicy) :
    (shadow.arrive policy ref keys).map view = shadow.view.arrive policy.policy ref keys := by
  cases policy <;> cases hexists : shadow.existsOf ref <;>
    simp [arrive, Shape.arrive, destinationKeys, ImportPolicy.policy, hexists, view_set]

theorem view_carry (source destination : CollectionRef) (policy : ImportPolicy)
    (removeSource : Bool) :
    (if !shadow.existsOf source then none
      else (shadow.arrive policy destination (shadow.keysOf source)).map fun shadow =>
        if removeSource then shadow.vacate source else shadow).map view =
      shadow.view.act (.carry source destination policy.policy removeSource :
        Action CollectionRef ByteString DynamicPropertyValue) := by
  cases hexists : shadow.existsOf source with
  | false => simp [Shape.act, hexists]
  | true =>
      simp only [Shape.act, view_present, view_keys, hexists, Bool.not_true, Bool.false_eq_true,
        if_false, ← view_arrive, Option.map_map]
      congr 1
      funext arrived
      cases removeSource with
      | false => rfl
      | true => simp [view_vacate]

/-- **A step of the simulation is the action of the operation.** -/
theorem view_step (operation : DynamicPropertyOperation) :
    (shadow.step operation).map view = shadow.view.act operation.action := by
  cases operation with
  | setProperty entry =>
      simp [step, Shape.act, DynamicPropertyOperation.action, view_set]
  | setMany entry =>
      simp [step, Shape.act, DynamicPropertyOperation.action, view_set, keySet,
        ExtTreeMap.map_fst_toList_eq_keys]
  | removeProperty entry =>
      simp only [step, Shape.act, DynamicPropertyOperation.action, List.mem_singleton,
        exists_eq_left, view_keys]
      split
      · rfl
      · simp [view_setKeys, Finset.sdiff_singleton_eq_erase]
  | removeMany entry =>
      simp only [step, Shape.act, DynamicPropertyOperation.action]
      by_cases hmissing : entry.requireAllExisting = true ∧
          ∃ key ∈ entry.keys, key ∉ shadow.keysOf entry.ref
      · rw [if_pos hmissing]
        exact (if_pos hmissing).symm
      · rw [if_neg hmissing]
        refine Eq.trans ?_ (if_neg hmissing).symm
        simp [view_setKeys]
  | clearCollection entry =>
      simp [step, Shape.act, DynamicPropertyOperation.action, view_set]
  | renameCollection entry =>
      exact view_carry shadow entry.sourceRef entry.destinationRef entry.destinationPolicy true
  | transferProperty entry =>
      simp only [step, Shape.act, DynamicPropertyOperation.action]
      by_cases hmissing : entry.sourceKey ∉ shadow.keysOf entry.source
      · rw [if_pos hmissing]
        exact (if_pos hmissing).symm
      rw [if_neg hmissing]
      refine Eq.trans ?_ (if_neg hmissing).symm
      by_cases hblocked : entry.destinationKey ∈ shadow.keysOf entry.destination ∧
          (!entry.overwrite) = true
      · rw [if_pos hblocked]
        exact (if_pos hblocked).symm
      rw [if_neg hblocked]
      refine Eq.trans ?_ (if_neg hblocked).symm
      rw [← view_set]
      cases entry.removeSource with
      | false => rfl
      | true => simp only [if_true, Option.map_some, view_setKeys, view_keys]
  | transferCollection entry =>
      exact view_carry shadow entry.source entry.destination entry.destinationPolicy
        entry.removeSource
  | importCollection entry => exact view_arrive shadow entry.destination _ entry.policy

end Shadow

/-! ## Shadows that track a store -/

/-- The number of properties a reference holds. -/
def sizeAt (look : Contents) (ref : CollectionRef) : Nat := ((look ref).getD ∅).size

/-- The shadow shows the store, as far as the named collections go. -/
def Tracks (named : CollectionRef → Prop) (shadow : Shadow) (look : Contents) : Prop :=
  shadow.view = shapeOf (restrict named look)

section Step

variable {named : CollectionRef → Prop} {shadow : Shadow} {look : Contents}

theorem Tracks.keysOf (h : Tracks named shadow look) (ref : CollectionRef) :
    shadow.keysOf ref = keySet ((restrict named look ref).getD ∅) :=
  congrFun (congrArg Shape.keys h) ref

/-- A tracking shadow exceeds the limit exactly when a named collection does. -/
theorem Tracks.exceeds_iff (h : Tracks named shadow look) (limit : Nat) :
    shadow.exceeds limit = true ↔ ∃ ref, named ref ∧ limit < sizeAt look ref := by
  have hcard : ∀ ref, limit < (shadow.keysOf ref).card ↔ named ref ∧ limit < sizeAt look ref := by
    intro ref
    rw [h.keysOf ref, card_keySet]
    by_cases hnamed : named ref
    · rw [restrict_of_named hnamed]
      exact (and_iff_right hnamed).symm
    · rw [restrict_of_not_named hnamed]
      simp [hnamed]
  rw [Shadow.exceeds_iff]
  exact exists_congr hcard

/-- **One step of the simulation follows the planner.** -/
theorem tracks_step (h : Tracks named shadow look) {operation : DynamicPropertyOperation}
    (hnamed : ∀ ref ∈ operationCollections operation, named ref)
    (hmoves : MovesElsewhere operation) :
    Option.Rel (Tracks named) (shadow.step operation) (whenOk effectStep id operation look) := by
  have hrefs : ∀ ref ∈ operation.action.refs, named ref := by rwa [action_refs]
  have hsame : (shadow.step operation).map Shadow.view =
      (whenOk effectStep id operation look).map fun l => shapeOf (restrict named l) := by
    calc (shadow.step operation).map Shadow.view
      _ = shadow.view.act operation.action := shadow.view_step operation
      _ = (shapeOf (restrict named look)).act operation.action := by
        rw [show shadow.view = _ from h]
      _ = (act operation.action (restrict named look)).map shapeOf := shapeOf_act _ _
      _ = (act operation.action look).map fun l => shapeOf (restrict named l) := by
          rw [act_restrict hrefs, Option.map_map]
          rfl
      _ = (whenOk effectStep id operation look).map fun l => shapeOf (restrict named l) := by
          rw [effectStep_action hmoves]
  exact rel_of_map_eq hsame

end Step

/-! ## Runs of the planners -/

/-- Some prefix of the operations takes effect and leaves a named collection
over the limit. -/
def Overflows (named : CollectionRef → Prop) (limit : Nat)
    (operations : List DynamicPropertyOperation) (look : Contents) : Prop :=
  ∃ n, 1 ≤ n ∧ n ≤ operations.length ∧ Succeeds effectStep id (operations.take n) look ∧
    ∃ ref, named ref ∧ limit < sizeAt (runUntil effectStep id (operations.take n) look).2 ref

/-- The second loop of the preflight is a search. -/
theorem overflows_eq_search (limit : Nat) (operations : List DynamicPropertyOperation) :
    ∀ shadow : Shadow, shadow.overflows limit operations =
      search (fun operation shadow => shadow.step operation)
        (·.exceeds limit) operations shadow := by
  induction operations with
  | nil => exact fun shadow => rfl
  | cons operation rest ih =>
      intro shadow
      simp only [Shadow.overflows, search]
      cases shadow.step operation with
      | none => rfl
      | some next => simp only [ih]

/-- **The simulation overflows exactly when the operations do.** -/
theorem overflows_iff {named : CollectionRef → Prop} (limit : Nat)
    {operations : List DynamicPropertyOperation} {shadow : Shadow} {look : Contents}
    (htracks : Tracks named shadow look)
    (hnamed : ∀ operation ∈ operations, ∀ ref ∈ operationCollections operation, named ref)
    (hmoves : ∀ operation ∈ operations, MovesElsewhere operation) :
    shadow.overflows limit operations = true ↔ Overflows named limit operations look := by
  have hsteps : ∀ operation ∈ operations, ∀ s l, Tracks named s l →
      Option.Rel (Tracks named) (s.step operation) (whenOk effectStep id operation l) :=
    fun operation hop s l hsl => tracks_step hsl (hnamed operation hop) (hmoves operation hop)
  rw [overflows_eq_search, search_iff_of_rel hsteps (fun s l hsl => hsl.exceeds_iff limit) htracks]
  refine exists_congr fun n => and_congr_right fun _ => and_congr_right fun _ => ?_
  constructor
  · rintro ⟨after, hafter, hover⟩
    obtain ⟨hall, rfl⟩ := runAll_whenOk.mp hafter
    exact ⟨hall, hover⟩
  · rintro ⟨hall, hover⟩
    exact ⟨_, runAll_whenOk.mpr ⟨hall, rfl⟩, hover⟩

/-! ## The captures at the start of the simulation -/

section Captures

variable {named : CollectionRef → Prop} {shadow : Shadow} {look : Contents}

/-- Recording a capture extends what is tracked. -/
theorem Tracks.record (h : Tracks named shadow look) (ref : CollectionRef) :
    Tracks (fun r => named r ∨ r = ref) (shadow.record ref (snapshotAt look ref)) look := by
  have hprops : (snapshotAt look ref).properties = (look ref).getD ∅ := rfl
  have hflag : (snapshotAt look ref).exists_ = (look ref).isSome := rfl
  unfold Tracks
  rw [restrict_or_eq, shapeOf_update, ← show shadow.view = _ from h]
  unfold Shadow.record
  dsimp only
  rw [hprops, hflag]
  by_cases hempty : ((look ref).getD ∅).isEmpty = true
  · -- an empty collection is not recorded: nothing was known of its keys before
    rw [if_pos hempty]
    have hnone : keySet ((look ref).getD ∅) = ∅ := by
      rw [← Finset.card_eq_zero, card_keySet, ← beq_iff_eq, ← ExtTreeMap.isEmpty_eq_size_beq_zero]
      exact hempty
    have hkeys : shadow.keysOf ref = ∅ := by
      rw [h.keysOf ref]
      by_cases hnamed : named ref
      · rw [restrict_of_named hnamed, hnone]
      · rw [restrict_of_not_named hnamed]
        simp
    have hsame : (shadow.setExists ref (look ref).isSome).view =
        ((shadow.setKeys ref (shadow.keysOf ref)).setExists ref (look ref).isSome).view := by
      ext1
      · funext r
        by_cases heq : r = ref
        · simp [Shadow.view, heq]
        · simp [Shadow.view, heq]
      · rfl
    rw [hsame, Shadow.view_set, hkeys, hnone]
  · rw [if_neg hempty]
    exact Shadow.view_set shadow ref _ _

theorem tracks_empty (look : Contents) : Tracks (fun _ => False) {} look := by
  unfold Tracks
  ext1
  · funext r
    rw [shapeOf_keys, restrict_of_not_named id]
    simp [Shadow.view]
  · funext r
    rw [shapeOf_present, restrict_of_not_named id]
    simp [Shadow.view]

theorem Tracks.congr {named' : CollectionRef → Prop} (h : Tracks named shadow look)
    (hsame : ∀ r, named r ↔ named' r) : Tracks named' shadow look :=
  (funext fun r => propext (hsame r) : named = named') ▸ h

/-- The status of a refusing capture loop is the capture's. -/
theorem captureShadow_cases (adapter : InMemoryAdapter) (refs : List CollectionRef) :
    ∀ {named : CollectionRef → Prop} {shadow : Shadow},
      Tracks named shadow (contents adapter.store) →
      ((∀ ref ∈ refs, targetAvailable adapter.availability ref.target = true) ∧
        ∃ shadow', Id.run (captureShadow (fun ref => pure (adapter.capture ref)) refs shadow) =
            .ok shadow' ∧
          Tracks (fun r => named r ∨ r ∈ refs) shadow' (contents adapter.store)) ∨
      ((∃ ref ∈ refs, targetAvailable adapter.availability ref.target = false) ∧
        ∃ message, Id.run (captureShadow (fun ref => pure (adapter.capture ref)) refs shadow) =
          .error (failure .targetUnavailable message)) := by
  induction refs with
  | nil =>
      intro named shadow h
      exact Or.inl ⟨by simp, shadow, rfl, h.congr (by simp)⟩
  | cons ref rest ih =>
      intro named shadow h
      cases havail : targetAvailable adapter.availability ref.target with
      | false =>
          refine Or.inr ⟨⟨ref, List.mem_cons_self, havail⟩, text "target is unavailable", ?_⟩
          simp only [captureShadow, Id.run, InMemoryAdapter.capture,
            captureUnlocked_unavailable havail]
          rfl
      | true =>
          have hstep : Id.run (captureShadow (fun ref => pure (adapter.capture ref)) (ref :: rest)
              shadow) = Id.run (captureShadow (fun ref => pure (adapter.capture ref)) rest
                (shadow.record ref (snapshotAt (contents adapter.store) ref))) := by
            have hok : (captureUnlocked adapter.availability adapter.store ref).ok = true :=
              captureUnlocked_ok havail
            have hsnap : (captureUnlocked adapter.availability adapter.store ref).snapshot =
                some (snapshotAt (contents adapter.store) ref) := captureUnlocked_available havail
            simp only [captureShadow, InMemoryAdapter.capture, pure_bind]
            rw [hok, hsnap]
          rw [hstep]
          rcases ih (h.record ref) with ⟨hall, shadow', hok, htracks⟩ | ⟨hbad, herr⟩
          · refine Or.inl ⟨fun r hr => ?_, shadow', hok, htracks.congr fun r => ?_⟩
            · rcases List.mem_cons.mp hr with rfl | htail
              · exact havail
              · exact hall r htail
            · rw [List.mem_cons, or_assoc]
          · obtain ⟨r, hr, hun⟩ := hbad
            exact Or.inr ⟨⟨r, List.mem_cons_of_mem _ hr, hun⟩, herr⟩

end Captures

/-! ## `validatePropertyLimits` on one adapter -/

theorem mem_refSet {refs : List CollectionRef} {ref : CollectionRef} :
    ref ∈ refSet refs ↔ ref ∈ refs := by
  have hfold : ∀ (refs : List CollectionRef) (set : ExtTreeSet CollectionRef compare),
      ref ∈ refs.foldl (fun set ref => set.insert ref) set ↔ ref ∈ set ∨ ref ∈ refs := by
    intro refs
    induction refs with
    | nil => simp
    | cons head rest ih =>
        intro set
        rw [List.foldl_cons, ih, ExtTreeSet.mem_insert, LawfulEqCmp.compare_eq_iff_eq,
          List.mem_cons, eq_comm (a := head)]
        tauto
  rw [refSet, ExtTreeSet.mem_toList, hfold]
  simp

theorem mem_namedCollections {operations : List DynamicPropertyOperation} {ref : CollectionRef} :
    ref ∈ namedCollections operations ↔
      ∃ operation ∈ operations, ref ∈ operationCollections operation := by
  rw [namedCollections, mem_refSet, List.mem_flatMap]

/-- The error of a transaction that would leave a collection over the limit. -/
def propertyCountError : OperationResult :=
  failure .invalidValue (text "resulting collection exceeds property-count limit")

/-- What the preflight reports: an unavailable target, an overflow, or nothing. -/
theorem limitError_cases (adapter : InMemoryAdapter) (limits : ValidationLimits)
    (operations : List DynamicPropertyOperation)
    (hmoves : ∀ operation ∈ operations, MovesElsewhere operation) :
    ((∃ ref ∈ namedCollections operations,
        targetAvailable adapter.availability ref.target = false) ∧
      ∃ message, limitError adapter limits operations = some (failure .targetUnavailable message)) ∨
    ((∀ ref ∈ namedCollections operations,
        targetAvailable adapter.availability ref.target = true) ∧
      Overflows (· ∈ namedCollections operations) limits.maxPropertiesPerCollection operations
        (contents adapter.store) ∧
      limitError adapter limits operations = some propertyCountError) ∨
    ((∀ ref ∈ namedCollections operations,
        targetAvailable adapter.availability ref.target = true) ∧
      ¬ Overflows (· ∈ namedCollections operations) limits.maxPropertiesPerCollection operations
        (contents adapter.store) ∧
      limitError adapter limits operations = none) := by
  have herror : ∀ error, Id.run (captureShadow (fun ref => pure (adapter.capture ref))
      (namedCollections operations) {}) = .error error →
      limitError adapter limits operations = some error := by
    intro error hcaptured
    simp only [limitError, validatePropertyLimits, Id.run_bind, hcaptured]
    rfl
  have hshadow : ∀ shadow, Id.run (captureShadow (fun ref => pure (adapter.capture ref))
      (namedCollections operations) {}) = .ok shadow →
      limitError adapter limits operations =
        if shadow.overflows limits.maxPropertiesPerCollection operations then
          some propertyCountError
        else none := by
    intro shadow hcaptured
    simp only [limitError, validatePropertyLimits, Id.run_bind, hcaptured]
    split <;> rfl
  rcases captureShadow_cases adapter (namedCollections operations)
      (tracks_empty (contents adapter.store)) with
    ⟨hall, shadow, hok, htracks⟩ | ⟨hbad, message, herr⟩
  · have hnamed : Tracks (· ∈ namedCollections operations) shadow (contents adapter.store) :=
      htracks.congr (by simp)
    have hiff := overflows_iff limits.maxPropertiesPerCollection hnamed
      (fun operation ho ref href => mem_namedCollections.mpr ⟨operation, ho, href⟩) hmoves
    rw [hshadow _ hok]
    by_cases hover : shadow.overflows limits.maxPropertiesPerCollection operations = true
    · exact Or.inr (Or.inl ⟨hall, hiff.mp hover, if_pos hover⟩)
    · exact Or.inr (Or.inr ⟨hall, fun h => hover (hiff.mpr h), if_neg hover⟩)
  · exact Or.inl ⟨hbad, message, herror _ herr⟩

/-! ## The adapter follows the planners -/

section Follows

variable {force : Bool} {operations : List DynamicPropertyOperation}

/-- What the adapter applies one after another takes effect one after another. -/
theorem InMemoryAdapter.AppliesAll.follows :
    ∀ {adapter : InMemoryAdapter}, adapter.AppliesAll operations force →
      Succeeds effectStep id operations (contents adapter.store) ∧
        contents (adapter.applyEach operations force).2.store =
          (runUntil effectStep id operations (contents adapter.store)).2 := by
  induction operations with
  | nil => exact fun _ => ⟨trivial, rfl⟩
  | cons operation rest ih =>
      intro adapter h
      have hall := InMemoryAdapter.appliesAll_iff.mp h
      have hok : (adapter.apply operation force).1.ok = true := hall.1
      obtain ⟨plan, hplan⟩ := (applyUnlocked_ok_iff.mp hok).planned
      have hstep : id (effectStep operation (contents adapter.store)).1 = true := by
        rw [effectStep_ok hplan]
        rfl
      have hnext : (effectStep operation (contents adapter.store)).2 =
          contents (adapter.apply operation force).2.store := by
        rw [InMemoryAdapter.apply_store, contents_applyUnlocked_of_ok hok, effectStep_ok hplan,
          run, hplan]
      have hrest := ih (InMemoryAdapter.appliesAll_iff.mpr hall.2)
      rw [InMemoryAdapter.applyEach_cons_of_ok hok, runUntil_cons_of_ok hstep, Succeeds, hnext]
      exact ⟨⟨hstep, hrest.1⟩, hrest.2⟩

/-- What passes the preflight and is then applied keeps within the limit. -/
theorem InMemoryAdapter.AppliesAll.within {adapter : InMemoryAdapter} {limits : ValidationLimits}
    (happlies : adapter.AppliesAll operations force)
    (hmoves : ∀ operation ∈ operations, MovesElsewhere operation)
    (hlimit : limitError adapter limits operations = none) {ref : CollectionRef}
    (hnamed : ref ∈ namedCollections operations) :
    sizeAt (contents (adapter.applyEach operations force).2.store) ref ≤
      limits.maxPropertiesPerCollection := by
  obtain ⟨hall, hfinal⟩ := happlies.follows
  rcases limitError_cases adapter limits operations hmoves with
    ⟨-, message, herr⟩ | ⟨-, -, herr⟩ | ⟨-, hwithin, -⟩
  · rw [herr] at hlimit
    cases hlimit
  · rw [herr] at hlimit
    cases hlimit
  · -- the whole list is one of the prefixes the simulation looked at
    by_contra hover
    apply hwithin
    have hne : operations ≠ [] := by
      rintro rfl
      simp [mem_namedCollections] at hnamed
    refine ⟨operations.length, List.length_pos_iff.mpr hne, Nat.le_refl _, ?_, ref, hnamed, ?_⟩
    · rwa [List.take_length]
    · rw [List.take_length, ← hfinal]
      omega

/-- With no expectation and available targets only the planners refuse. -/
theorem appliesAll_of_succeeds {operations : List DynamicPropertyOperation} :
    ∀ {adapter : InMemoryAdapter},
      (∀ operation ∈ operations, CarriesNoExpectation operation) →
      (∀ operation ∈ operations, ∀ ref ∈ operationCollections operation,
        targetAvailable adapter.availability ref.target = true) →
      Succeeds effectStep id operations (contents adapter.store) →
      adapter.AppliesAll operations force := by
  induction operations with
  | nil => exact fun _ _ _ => InMemoryAdapter.appliesAll_iff.mpr trivial
  | cons operation rest ih =>
      intro adapter hnone havail hall
      have hfree := hnone operation List.mem_cons_self
      have hplanned : ∃ plan, effect operation (contents adapter.store) = .ok plan := by
        cases hplan : effect operation (contents adapter.store) with
        | ok plan => exact ⟨plan, rfl⟩
        | error failed =>
            have hok := hall.1
            rw [effectStep_error hplan] at hok
            cases hok
      have haccepts : Accepts adapter.availability (contents adapter.store) operation force :=
        { consistent := hfree.consistent
          available := havail operation List.mem_cons_self
          current := fun _ ref _ expected hexpected => by
            rw [hfree.expectedRevision ref] at hexpected
            cases hexpected
          planned := hplanned }
      have hok : (adapter.apply operation force).1.ok = true := applyUnlocked_ok_iff.mpr haccepts
      obtain ⟨plan, hplan⟩ := hplanned
      have hnext : (effectStep operation (contents adapter.store)).2 =
          contents (adapter.apply operation force).2.store := by
        rw [InMemoryAdapter.apply_store, contents_applyUnlocked_of_ok hok, effectStep_ok hplan,
          run, hplan]
      have hrest := hall.2
      rw [hnext] at hrest
      refine InMemoryAdapter.appliesAll_iff.mpr ⟨hok, InMemoryAdapter.appliesAll_iff.mp ?_⟩
      exact ih (fun o ho => hnone o (List.mem_cons_of_mem _ ho))
        (fun o ho => havail o (List.mem_cons_of_mem _ ho)) hrest

end Follows

end DynamicProperties.Cpp
