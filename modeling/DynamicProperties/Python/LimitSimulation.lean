import DynamicProperties.Python.Captures
import DynamicProperties.Python.Preflight

/-!
# The limit simulation of the Python service is exact

The argument of the C++ side over again, with two differences.  A dictionary has a
domain, and the check `exceeds` looks at that domain only, so a shadow must hold
exactly the named references; with a limit below zero an empty collection counts.
And a capture may raise: what `Tracks` says of the adapter also keeps every named
collection readable.
-/

namespace DynamicProperties.Python

open Std
open DynamicProperties.Library.OrderedMap
open DynamicProperties.Library.FiniteMap
open DynamicProperties.Library.Fallible
open DynamicProperties.Library.Sequence
open DynamicProperties.Library.Collections

/-! ## A step is an action on the view -/

namespace Shadow

variable (shadow : Shadow) (ref r : CollectionRef)

@[simp] theorem keysOf_setKeys (keys : Finset Str) :
    (shadow.setKeys ref keys).keysOf r = if r = ref then keys else shadow.keysOf r := by
  unfold keysOf setKeys
  by_cases h : r = ref
  · subst h
    simp
  · rw [if_neg h, Finmap.lookup_insert_of_ne _ h]

@[simp] theorem existsOf_setExists (value : Bool) :
    (shadow.setExists ref value).existsOf r = if r = ref then value else shadow.existsOf r := by
  unfold existsOf setExists
  by_cases h : r = ref
  · subst h
    simp
  · rw [if_neg h, Finmap.lookup_insert_of_ne _ h]

@[simp] theorem existsOf_setKeys (keys : Finset Str) :
    (shadow.setKeys ref keys).existsOf r = shadow.existsOf r := rfl

@[simp] theorem keysOf_setExists (value : Bool) :
    (shadow.setExists ref value).keysOf r = shadow.keysOf r := rfl

/-- What a shadow shows. -/
def view (shadow : Shadow) : Shape CollectionRef Str :=
  ⟨shadow.keysOf, shadow.existsOf⟩

@[simp] theorem view_keys : shadow.view.keys ref = shadow.keysOf ref := rfl

@[simp] theorem view_present : shadow.view.present ref = shadow.existsOf ref := rfl

variable (keys : Finset Str)

theorem view_set (present : Bool) :
    ((shadow.setKeys ref keys).setExists ref present).view =
      shadow.view.write ref keys present := by
  ext1
  · funext r
    by_cases h : r = ref <;> simp [view, Shape.write, h]
  · funext r
    by_cases h : r = ref <;> simp [view, Shape.write, h]

theorem view_setKeys :
    (shadow.setKeys ref keys).view = shadow.view.write ref keys (shadow.view.present ref) := by
  ext1
  · funext r
    by_cases h : r = ref <;> simp [view, Shape.write, h]
  · funext r
    by_cases h : r = ref <;> simp [view, Shape.write, h]

theorem view_vacate : (shadow.vacate ref).view = shadow.view.write ref ∅ false :=
  view_set shadow ref ∅ false

/-- Import policies mean the same on both sides. -/
theorem view_arrive (policy : ImportPolicy) :
    (shadow.arrive policy ref keys).map view = shadow.view.arrive (policyOf policy) ref keys := by
  cases policy <;> cases hexists : shadow.existsOf ref <;>
    simp [arrive, Shape.arrive, policyOf, hexists, view_set]

theorem view_carry (source destination : CollectionRef) (policy : ImportPolicy)
    (removeSource : Bool) :
    (if !shadow.existsOf source then none
      else (shadow.arrive policy destination (shadow.keysOf source)).map fun shadow =>
        if removeSource then shadow.vacate source else shadow).map view =
      shadow.view.act (.carry source destination (policyOf policy) removeSource :
        Action CollectionRef Str PyObject) := by
  cases hexists : shadow.existsOf source with
  | false => simp [Shape.act, hexists]
  | true =>
      simp only [Shape.act, view_present, view_keys, hexists, Bool.not_true, Bool.false_eq_true,
        if_false, ← view_arrive, Option.map_map]
      congr 1
      funext arrived
      cases removeSource with
      | false => rfl
      | true => simp [view_vacate]

private theorem keySet_toDict (mapping : PropertyMapping) :
    keySet mapping.toDict = (mapping.items.map Prod.fst).toFinset := by
  rw [PropertyMapping.toDict, keySet_insertEntries, keySet_empty, Finset.empty_union]

/-- **A step of the simulation is the action of the operation.** -/
theorem view_step (operation : Operation) :
    (shadow.step operation).map view = shadow.view.act operation.action := by
  cases operation with
  | setProperty entry =>
      simp [step, Shape.act, Operation.action, view_set]
  | setMany entry =>
      have hkeys : (entry.values.toDict.toList.map Prod.fst).toFinset =
          (entry.values.items.map Prod.fst).toFinset := by
        rw [← keySet_toDict, keySet, ExtTreeMap.map_fst_toList_eq_keys]
      simp only [step, Shape.act, Operation.action, Option.map_some, view_set, view_keys, hkeys]
  | removeProperty entry =>
      simp only [step, Shape.act, Operation.action, List.mem_singleton, exists_eq_left, view_keys]
      split
      · rfl
      · simp [view_setKeys, Finset.sdiff_singleton_eq_erase]
  | removeMany entry =>
      have hsubset : ¬ entry.keys.toFinset ⊆ shadow.keysOf entry.ref ↔
          ∃ key ∈ entry.keys, key ∉ shadow.keysOf entry.ref := by
        simp [Finset.subset_iff]
      simp only [step, Shape.act, Operation.action]
      by_cases hmissing : entry.requireAllExisting = true ∧
          ∃ key ∈ entry.keys, key ∉ shadow.keysOf entry.ref
      · rw [if_pos ⟨hmissing.1, hsubset.mpr hmissing.2⟩]
        exact (if_pos hmissing).symm
      · rw [if_neg fun h => hmissing ⟨h.1, hsubset.mp h.2⟩]
        refine Eq.trans ?_ (if_neg hmissing).symm
        simp [view_setKeys]
  | clearCollection entry =>
      simp [step, Shape.act, Operation.action, view_set]
  | renameCollection entry =>
      exact view_carry shadow entry.sourceRef entry.destinationRef entry.destinationPolicy true
  | transferProperty entry =>
      simp only [step, Shape.act, Operation.action]
      by_cases hmissing : entry.sourceKey ∉ shadow.keysOf entry.source
      · rw [if_pos hmissing]
        exact (if_pos hmissing).symm
      rw [if_neg hmissing]
      refine Eq.trans ?_ (if_neg hmissing).symm
      by_cases hblocked : entry.destinationKey ∈ shadow.keysOf entry.destination ∧
          (!entry.overwrite) = true
      · rw [if_pos hblocked]
        exact (if_pos hblocked).symm
      rw [if_neg hblocked]
      refine Eq.trans ?_ (if_neg hblocked).symm
      rw [← view_set]
      cases entry.removeSource with
      | false => rfl
      | true => simp only [if_true, Option.map_some, view_setKeys, view_keys]
  | transferCollection entry =>
      exact view_carry shadow entry.source entry.destination entry.destinationPolicy
        entry.removeSource
  | importCollection entry =>
      simp only [step, Shape.act, Operation.action, keySet_toDict]
      exact view_arrive shadow entry.destination _ entry.policy

/-! ## The domain of the dictionaries -/

theorem mem_setKeys {shadow : Shadow} {ref r : CollectionRef} {keys : Finset Str} :
    r ∈ (shadow.setKeys ref keys).keys ↔ r = ref ∨ r ∈ shadow.keys :=
  Finmap.mem_insert

/-- Both dictionaries hold the same references before and after. -/
def SameDomain (shadow after : Shadow) : Prop := ∀ r, r ∈ after.keys ↔ r ∈ shadow.keys

theorem SameDomain.trans {first second third : Shadow} (h : SameDomain first second)
    (h' : SameDomain second third) : SameDomain first third :=
  fun r => (h' r).trans (h r)

/-- Writing at a reference of the domain keeps the domain. -/
theorem sameDomain_setKeys {shadow : Shadow} {ref : CollectionRef} (h : ref ∈ shadow.keys)
    (keys : Finset Str) : SameDomain shadow (shadow.setKeys ref keys) := by
  intro r
  rw [mem_setKeys]
  exact ⟨fun hr => hr.elim (fun heq => heq ▸ h) id, Or.inr⟩

theorem sameDomain_set {shadow : Shadow} {ref : CollectionRef} (h : ref ∈ shadow.keys)
    (keys : Finset Str) (present : Bool) :
    SameDomain shadow ((shadow.setKeys ref keys).setExists ref present) :=
  sameDomain_setKeys h keys

private theorem sameDomain_arrive {shadow after : Shadow} {policy : ImportPolicy}
    {ref : CollectionRef} {arriving : Finset Str} (href : ref ∈ shadow.keys)
    (h : shadow.arrive policy ref arriving = some after) : SameDomain shadow after := by
  unfold arrive at h
  split at h
  · cases h
  · obtain rfl := Option.some.inj h
    exact sameDomain_set href _ true

private theorem sameDomain_carry {shadow after : Shadow} {source destination : CollectionRef}
    {policy : ImportPolicy} {removeSource : Bool} (hsource : source ∈ shadow.keys)
    (hdestination : destination ∈ shadow.keys)
    (h : (if !shadow.existsOf source then none
      else (shadow.arrive policy destination (shadow.keysOf source)).map fun shadow =>
        if removeSource then shadow.vacate source else shadow) = some after) :
    SameDomain shadow after := by
  split at h
  · cases h
  · obtain ⟨arrived, harrived, hafter⟩ := Option.map_eq_some_iff.mp h
    have hdomain := sameDomain_arrive hdestination harrived
    cases removeSource with
    | false =>
        obtain rfl : arrived = after := hafter
        exact hdomain
    | true =>
        obtain rfl : arrived.vacate source = after := hafter
        exact hdomain.trans (sameDomain_set ((hdomain source).mpr hsource) ∅ false)

/-- A step writes only at the references of its operation. -/
theorem sameDomain_step {shadow after : Shadow} {operation : Operation}
    (hrefs : ∀ ref ∈ operationRefs operation, ref ∈ shadow.keys)
    (h : shadow.step operation = some after) : SameDomain shadow after := by
  cases operation with
  | setProperty entry | setMany entry | clearCollection entry =>
      obtain rfl := Option.some.inj h
      exact sameDomain_set (hrefs entry.ref List.mem_cons_self) _ _
  | removeProperty entry | removeMany entry =>
      simp only [step] at h
      split at h
      · cases h
      · obtain rfl := Option.some.inj h
        exact sameDomain_setKeys (hrefs entry.ref List.mem_cons_self) _
  | renameCollection entry =>
      have hrename : (if !shadow.existsOf entry.sourceRef then none
          else (shadow.arrive entry.destinationPolicy entry.destinationRef
            (shadow.keysOf entry.sourceRef)).map fun shadow =>
              if true then shadow.vacate entry.sourceRef else shadow) = some after := h
      exact sameDomain_carry (hrefs _ (by simp [operationRefs])) (hrefs _ (by simp [operationRefs]))
        hrename
  | transferProperty entry =>
      have hsource := hrefs entry.source (by simp [operationRefs])
      have hdestination := hrefs entry.destination (by simp [operationRefs])
      have hwritten := sameDomain_set hdestination
        (insert entry.destinationKey (shadow.keysOf entry.destination)) true
      simp only [step] at h
      split at h
      · cases h
      split at h
      · cases h
      split at h
      · obtain rfl := Option.some.inj h
        exact hwritten.trans (sameDomain_setKeys ((hwritten _).mpr hsource) _)
      · obtain rfl := Option.some.inj h
        exact hwritten
  | transferCollection entry =>
      exact sameDomain_carry (hrefs _ (by simp [operationRefs]))
        (hrefs _ (by simp [operationRefs])) h
  | importCollection entry =>
      exact sameDomain_arrive (hrefs _ (by simp [operationRefs])) h

/-- A count over the limit is found exactly where a captured collection is over
the limit. -/
theorem exceeds_iff {shadow : Shadow} {limit : Int} :
    shadow.exceeds limit = true ↔ ∃ ref ∈ shadow.keys, limit < (shadow.keysOf ref).card := by
  unfold exceeds keysOf
  rw [any_iff]
  constructor
  · rintro ⟨ref, keys, hlookup, hlt⟩
    refine ⟨ref, Finmap.mem_of_lookup_eq_some hlookup, ?_⟩
    simpa [hlookup] using hlt
  · rintro ⟨ref, hmem, hlt⟩
    obtain ⟨keys, hlookup⟩ := Finmap.mem_iff.mp hmem
    exact ⟨ref, keys, hlookup, by simpa [hlookup] using hlt⟩

end Shadow

/-! ## Shadows that track an adapter -/

/-- The number of properties a reference holds. -/
def sizeAt (look : Contents) (ref : CollectionRef) : Nat := ((look ref).getD ∅).size

/-- The shadow shows the store at the named references, and nothing else. -/
structure Tracks (named : CollectionRef → Prop) (shadow : Shadow) (adapter : InMemoryAdapter) :
    Prop where
  view : shadow.view = shapeOf (restrict named (contents adapter.store))
  domain : ∀ ref, ref ∈ shadow.keys ↔ named ref

/-- Nothing raises at the named references, and their targets are available. -/
structure Responsive (named : CollectionRef → Prop) (adapter : InMemoryAdapter) : Prop where
  available : ∀ ref, named ref → targetAvailable adapter.availability ref.target = true
  describable : ∀ ref, named ref → Describable ref.target
  entries : Everywhere Encodable Recordable (restrict named (contents adapter.store))

/-- What the simulation relies on of an operation. -/
structure Simulable (named : CollectionRef → Prop) (operation : Operation) : Prop where
  named : ∀ ref ∈ operationRefs operation, named ref
  moves : MovesElsewhere operation
  unconditional : CarriesNoExpectation operation
  supplies : operation.action.Supplies Encodable Recordable

section Step

variable {named : CollectionRef → Prop} {shadow : Shadow} {adapter : InMemoryAdapter}

theorem Responsive.readable_of_entries {look : Contents} (h : Responsive named adapter)
    (hentries : Everywhere Encodable Recordable (restrict named look)) {ref : CollectionRef}
    (href : named ref) : Readable look ref :=
  ⟨h.describable ref href,
    fun values hlook => hentries ref values ((restrict_of_named href).trans hlook)⟩

/-- A tracking shadow exceeds the limit exactly when a named collection does. -/
theorem Tracks.exceeds_iff (h : Tracks named shadow adapter) (limit : Int) :
    shadow.exceeds limit = true ↔
      ∃ ref, named ref ∧ limit < sizeAt (contents adapter.store) ref := by
  rw [Shadow.exceeds_iff]
  refine exists_congr fun ref => ?_
  rw [h.domain ref]
  refine and_congr_right fun href => ?_
  have hkeys : shadow.keysOf ref = keySet ((restrict named (contents adapter.store) ref).getD ∅) :=
    congrFun (congrArg Shape.keys h.view) ref
  rw [hkeys, card_keySet, restrict_of_named href]
  rfl

/-- The simulation follows an action that takes effect. -/
theorem Tracks.step (h : Tracks named shadow adapter) {operation : Operation}
    (hrefs : ∀ ref ∈ operationRefs operation, named ref) {written : InMemoryAdapter}
    (hact : act operation.action (contents adapter.store) = some (contents written.store)) :
    ∃ after, shadow.step operation = some after ∧ Tracks named after written := by
  have hnamed : ∀ ref ∈ operation.action.refs, named ref := by
    rw [action_refs]
    exact hrefs
  have hview : (shadow.step operation).map Shadow.view =
      some (shapeOf (restrict named (contents written.store))) := by
    calc (shadow.step operation).map Shadow.view
      _ = shadow.view.act operation.action := shadow.view_step operation
      _ = (shapeOf (restrict named (contents adapter.store))).act operation.action := by rw [h.view]
      _ = (act operation.action (restrict named (contents adapter.store))).map shapeOf :=
          shapeOf_act _ _
      _ = some (shapeOf (restrict named (contents written.store))) := by
          rw [act_restrict hnamed, hact]
          rfl
  obtain ⟨after, hstep, hafter⟩ := Option.map_eq_some_iff.mp hview
  have hdomain := Shadow.sameDomain_step
    (fun ref href => (h.domain ref).mpr (hrefs ref href)) hstep
  exact ⟨after, hstep, hafter, fun ref => (hdomain ref).trans (h.domain ref)⟩

/-- The simulation stops where an action is refused. -/
theorem Tracks.step_none (h : Tracks named shadow adapter) {operation : Operation}
    (hrefs : ∀ ref ∈ operationRefs operation, named ref)
    (hact : act operation.action (contents adapter.store) = none) :
    shadow.step operation = none := by
  have hnamed : ∀ ref ∈ operation.action.refs, named ref := by
    rw [action_refs]
    exact hrefs
  have hview : (shadow.step operation).map Shadow.view = none := by
    rw [shadow.view_step operation, h.view, shapeOf_act, act_restrict hnamed, hact]
    rfl
  exact Option.map_eq_none_iff.mp hview

/-- **One step of the simulation follows the adapter.** -/
theorem tracks_step (digest : Canonical → UInt64) (force : Bool) (h : Tracks named shadow adapter)
    (hresponsive : Responsive named adapter) {operation : Operation}
    (hoperation : Simulable named operation) :
    Option.Rel (fun shadow adapter => Tracks named shadow adapter ∧ Responsive named adapter)
      (shadow.step operation)
      (whenOk (InMemoryAdapter.applyStep digest force) returnsApplied operation adapter) := by
  have hrefs : ∀ ref ∈ operation.action.refs, named ref := by
    rw [action_refs]
    exact hoperation.named
  -- an entry of a named collection was there before, or the operation brought it
  have hentries : ∀ look, act operation.action (contents adapter.store) = some look →
      Everywhere Encodable Recordable (restrict named look) := by
    intro look hact
    refine hresponsive.entries.act hoperation.supplies ?_
    rw [act_restrict hrefs, hact]
    rfl
  have hspec := applyIn_spec digest force hoperation.moves hoperation.unconditional
    (fun ref href => hresponsive.available ref (hoperation.named ref href))
    (fun ref href => hresponsive.readable_of_entries hresponsive.entries
      (hoperation.named ref href))
    (fun look hact ref href =>
      hresponsive.readable_of_entries (hentries look hact) (hoperation.named ref href))
  by_cases hok : returnsApplied
      (applyIn digest adapter.availability adapter.store operation force).1 = true
  · rw [if_pos hok] at hspec
    obtain ⟨after, hstep, hafter⟩ := h.step hoperation.named
      (show _ = some (contents (adapter.apply digest operation force).2.store) from hspec.symm)
    have happlied : whenOk (InMemoryAdapter.applyStep digest force) returnsApplied operation
        adapter = some (adapter.apply digest operation force).2 := if_pos hok
    rw [hstep, happlied]
    exact .some ⟨hafter, hresponsive.available, hresponsive.describable, hentries _ hspec.symm⟩
  · rw [if_neg hok] at hspec
    have hfailed : whenOk (InMemoryAdapter.applyStep digest force) returnsApplied operation
        adapter = none := if_neg hok
    rw [h.step_none hoperation.named hspec.symm, hfailed]
    exact .none

end Step

/-! ## Runs of the adapter -/

/-- Some prefix of the operations is applied and leaves a named collection over
the limit. -/
def ExceedsLimit (digest : Canonical → UInt64) (adapter : InMemoryAdapter)
    (operations : List Operation) (force : Bool) (limit : Int) : Prop :=
  ∃ n, 1 ≤ n ∧ n ≤ operations.length ∧
    adapter.AppliesAll digest (operations.take n) force ∧
    ∃ operation ∈ operations, ∃ ref ∈ operationRefs operation,
      limit < sizeAt (contents (adapter.applyEach digest (operations.take n) force).2.store) ref

theorem mem_namedRefs {operations : List Operation} {ref : CollectionRef} :
    ref ∈ namedRefs operations ↔ ∃ operation ∈ operations, ref ∈ operationRefs operation := by
  rw [namedRefs, List.mem_eraseDups, List.mem_flatMap]

/-- The second loop of the preflight is a search. -/
theorem overflows_eq_search (limit : Int) (operations : List Operation) (shadow : Shadow) :
    shadow.overflows limit operations =
      search (fun operation shadow => shadow.step operation)
        (·.exceeds limit) operations shadow := by
  induction operations generalizing shadow with
  | nil => rfl
  | cons operation rest ih =>
      simp only [Shadow.overflows, search]
      cases shadow.step operation with
      | none => rfl
      | some next => simp only [ih]

/-- **The simulation overflows exactly when the operations do.** -/
theorem overflows_iff (digest : Canonical → UInt64) (force : Bool) (limit : Int)
    {operations : List Operation} {shadow : Shadow} {adapter : InMemoryAdapter}
    (htracks : Tracks (· ∈ namedRefs operations) shadow adapter)
    (hresponsive : Responsive (· ∈ namedRefs operations) adapter)
    (hoperations : ∀ operation ∈ operations, Simulable (· ∈ namedRefs operations) operation) :
    shadow.overflows limit operations = true ↔
      ExceedsLimit digest adapter operations force limit := by
  have hsteps : ∀ operation ∈ operations, ∀ (s : Shadow) (a : InMemoryAdapter),
      Tracks (· ∈ namedRefs operations) s a ∧ Responsive (· ∈ namedRefs operations) a →
      Option.Rel (fun s a =>
          Tracks (· ∈ namedRefs operations) s a ∧ Responsive (· ∈ namedRefs operations) a)
        (s.step operation)
        (whenOk (InMemoryAdapter.applyStep digest force) returnsApplied operation a) :=
    fun operation hmem s a hsa => tracks_step digest force hsa.1 hsa.2 (hoperations operation hmem)
  rw [overflows_eq_search, search_iff_of_rel hsteps (fun s a hsa => hsa.1.exceeds_iff limit)
    ⟨htracks, hresponsive⟩]
  refine exists_congr fun n => and_congr_right fun _ => and_congr_right fun _ => ?_
  have hnamed : ∀ look : Contents, (∃ ref, ref ∈ namedRefs operations ∧ limit < sizeAt look ref) ↔
      ∃ operation ∈ operations, ∃ ref ∈ operationRefs operation, limit < sizeAt look ref := by
    intro look
    constructor
    · rintro ⟨ref, href, hlt⟩
      obtain ⟨operation, hmem, href⟩ := mem_namedRefs.mp href
      exact ⟨operation, hmem, ref, href, hlt⟩
    · rintro ⟨operation, hmem, ref, href, hlt⟩
      exact ⟨ref, mem_namedRefs.mpr ⟨operation, hmem, href⟩, hlt⟩
  constructor
  · rintro ⟨after, hrun, hover⟩
    obtain ⟨hall, rfl⟩ := runAll_whenOk.mp hrun
    exact ⟨(succeeds_iff _ _).mp hall, (hnamed _).mp hover⟩
  · rintro ⟨hall, hover⟩
    exact ⟨_, runAll_whenOk.mpr ⟨(succeeds_iff _ _).mpr hall, rfl⟩, (hnamed _).mpr hover⟩

/-! ## The captures at the start of the simulation -/

section Captures

variable {named : CollectionRef → Prop} {shadow : Shadow} {adapter : InMemoryAdapter}

/-- Recording a capture extends what is tracked. -/
theorem Tracks.record (h : Tracks named shadow adapter) (ref : CollectionRef)
    {snapshot : CollectionSnapshot}
    (hproperties : snapshot.properties = (contents adapter.store ref).getD ∅)
    (hexists : snapshot.exists_ = (contents adapter.store ref).isSome) :
    Tracks (fun r => named r ∨ r = ref) (shadow.record ref snapshot) adapter := by
  constructor
  · rw [restrict_or_eq, shapeOf_update, ← h.view, ← hproperties, ← hexists]
    exact Shadow.view_set shadow ref _ _
  · intro r
    rw [show r ∈ (shadow.record ref snapshot).keys ↔ _ from Shadow.mem_setKeys, h.domain r, or_comm]

theorem tracks_empty (adapter : InMemoryAdapter) : Tracks (fun _ => False) {} adapter := by
  constructor
  · ext1
    · funext r
      rw [shapeOf_keys, restrict_of_not_named id]
      simp [Shadow.view, Shadow.keysOf]
    · funext r
      rw [shapeOf_present, restrict_of_not_named id]
      simp [Shadow.view, Shadow.existsOf]
  · intro ref
    exact iff_of_false Finmap.notMem_empty id

variable {digest : Canonical → UInt64} {refs : List CollectionRef}

/-- The first loop passes readable collections on available targets. -/
theorem captureShadow_ok
    (havail : ∀ ref ∈ refs, targetAvailable adapter.availability ref.target = true)
    (hread : ∀ ref ∈ refs, Readable (contents adapter.store) ref) (shadow : Shadow) :
    ∃ captured, captureShadow digest adapter refs shadow = .ok (.ok captured) := by
  induction refs generalizing shadow with
  | nil => exact ⟨shadow, rfl⟩
  | cons ref rest ih =>
      obtain ⟨result, snapshot, hcapture, -, hsnapshot, -⟩ :=
        (hread ref List.mem_cons_self).capture digest (havail ref List.mem_cons_self)
      obtain ⟨captured, hrest⟩ := ih (fun r hr => havail r (List.mem_cons_of_mem _ hr))
        (fun r hr => hread r (List.mem_cons_of_mem _ hr)) (shadow.record ref snapshot)
      refine ⟨captured, bind_eq_ok.mpr ⟨result, hcapture, ?_⟩⟩
      rw [hsnapshot]
      exact hrest

/-- What the first loop passes it has captured. -/
theorem captureShadow_passed {captured : Shadow}
    (h : captureShadow digest adapter refs shadow = .ok (.ok captured)) :
    ∀ ref ∈ refs, ∃ result snapshot, adapter.capture digest ref = .ok result ∧
      result.snapshot = some snapshot := by
  induction refs generalizing shadow with
  | nil => exact fun _ hmem => absurd hmem List.not_mem_nil
  | cons ref rest ih =>
      obtain ⟨result, hcapture, hrest⟩ := bind_eq_ok.mp h
      split at hrest
      · next snapshot hsnapshot =>
        exact List.forall_mem_cons.mpr ⟨⟨result, snapshot, hcapture, hsnapshot⟩, ih hrest⟩
      · cases hrest

/-- The first loop tracks the collections it captures. -/
theorem captureShadow_tracks {captured : Shadow}
    (h : captureShadow digest adapter refs shadow = .ok (.ok captured))
    (htracks : Tracks named shadow adapter) :
    Tracks (fun r => named r ∨ r ∈ refs) captured adapter := by
  induction refs generalizing named shadow with
  | nil =>
      have hsame : (fun r => named r ∨ r ∈ ([] : List CollectionRef)) = named := by
        funext r
        simp
      obtain rfl := Except.ok.inj (Except.ok.inj h)
      rw [hsame]
      exact htracks
  | cons ref rest ih =>
      obtain ⟨result, hcapture, hrest⟩ := bind_eq_ok.mp h
      have hsame : (fun r => (named r ∨ r = ref) ∨ r ∈ rest) =
          fun r => named r ∨ r ∈ ref :: rest := by
        funext r
        rw [List.mem_cons, or_assoc]
      split at hrest
      · next snapshot hsnapshot =>
        obtain ⟨-, hproperties, hexists⟩ := snapshot_of_captured hcapture hsnapshot
        rw [← hsame]
        exact ih hrest (htracks.record ref hproperties hexists)
      · cases hrest

/-- A passed check: the shadow of the captures does not overflow. -/
theorem validatePropertyLimits_none {limits : ValidationLimits} {operations : List Operation}
    (h : validatePropertyLimits digest adapter limits operations = .ok none) :
    ∃ shadow, captureShadow digest adapter (namedRefs operations) {} = .ok (.ok shadow) ∧
      shadow.overflows limits.maxPropertiesPerCollection operations = false := by
  obtain ⟨outcome, houtcome, h⟩ := bind_eq_ok.mp h
  cases outcome with
  | error error => cases h
  | ok shadow =>
      refine ⟨shadow, houtcome, ?_⟩
      cases hover : shadow.overflows limits.maxPropertiesPerCollection operations with
      | false => rfl
      | true =>
          simp only [hover, if_true] at h
          cases h

end Captures

end DynamicProperties.Python
