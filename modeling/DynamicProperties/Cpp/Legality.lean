import DynamicProperties.Cpp.Conduct
import DynamicProperties.Cpp.LimitSimulation

/-!
# Only legal collections are ever stored

A collection is legal under given limits when its reference and all its entries
pass the validators and it holds no more properties than allowed.

Entries are legal because every planner writes only entries that were stored
before or that the operation supplies (`effect_entries`), and the operation was
validated.  Counts are within the limit because the simulation under the commit
lock is exact.  Both facts are about the state in which the commit happens, so
nothing that listeners or other services do before it matters, and the pool's
invariant rule carries them through every run.
-/

namespace DynamicProperties.Cpp

open Std
open DynamicProperties.Library
open DynamicProperties.Library.Footprint
open DynamicProperties.Library.OrderedMap
open DynamicProperties.Library.Pool
open DynamicProperties.Library.Requests
open DynamicProperties.Library.Sequence

/-! ## Where stored entries come from -/

/-- The keys and values an operation brings along. -/
def Supplies (K : ByteString → Prop) (V : DynamicPropertyValue → Prop) :
    DynamicPropertyOperation → Prop
  | .setProperty entry => K entry.key ∧ V entry.value
  | .setMany entry => ∀ key value, entry.values[key]? = some value → K key ∧ V value
  | .transferProperty entry => K entry.destinationKey
  | .importCollection entry => ∀ key value, entry.properties[key]? = some value → K key ∧ V value
  | _ => True

/-- Every entry of a collection, if there is one. -/
def Entries (K : ByteString → Prop) (V : DynamicPropertyValue → Prop)
    (content : Option DynamicPropertyMap) : Prop :=
  ∀ properties, content = some properties →
    ∀ key value, properties[key]? = some value → K key ∧ V value

section Entries

variable {K : ByteString → Prop} {V : DynamicPropertyValue → Prop}

theorem entries_empty : Entries K V (some ∅) := by
  intro properties h key value hget
  cases h
  simp at hget

theorem entries_none : Entries K V none := by
  intro properties h
  cases h

theorem Entries.getD {content : Option DynamicPropertyMap} (h : Entries K V content) {key value}
    (hget : (content.getD ∅)[key]? = some value) : K key ∧ V value := by
  cases content with
  | none => simp at hget
  | some properties => exact h properties rfl key value hget

theorem entries_insert {properties : DynamicPropertyMap} (h : Entries K V (some properties))
    {key : ByteString} {value : DynamicPropertyValue} (hk : K key) (hv : V value) :
    Entries K V (some (properties.insert key value)) := by
  intro written hwritten k v hget
  cases hwritten
  by_cases heq : key = k
  · subst heq
    rw [ExtTreeMap.getElem?_insert_self, Option.some.injEq] at hget
    exact ⟨hk, hget ▸ hv⟩
  · rw [getElem?_insert_of_ne heq] at hget
    exact h properties rfl k v hget

theorem entries_overlay {destination source : DynamicPropertyMap}
    (hd : Entries K V (some destination)) (hs : Entries K V (some source)) :
    Entries K V (some (overlay destination source)) := by
  intro written hwritten k v hget
  cases hwritten
  rcases entry_of_overlay hget with h | h
  · exact hd destination rfl k v h
  · exact hs source rfl k v h

theorem entries_erase {properties : DynamicPropertyMap} (h : Entries K V (some properties))
    (key : ByteString) : Entries K V (some (properties.erase key)) := by
  intro written hwritten k v hget
  cases hwritten
  by_cases heq : key = k
  · subst heq
    simp at hget
  · rw [getElem?_erase_of_ne heq] at hget
    exact h properties rfl k v hget

theorem entries_eraseAll {properties : DynamicPropertyMap} (h : Entries K V (some properties))
    (keys : List ByteString) : Entries K V (some (eraseAll properties keys)) := by
  intro written hwritten k v hget
  cases hwritten
  exact h properties rfl k v (entry_of_eraseAll hget)

theorem entries_someGetD {content : Option DynamicPropertyMap} (h : Entries K V content) :
    Entries K V (some (content.getD ∅)) := by
  cases content with
  | none => exact entries_empty
  | some properties => exact h

private theorem entries_arrival {existing : Option DynamicPropertyMap}
    {values arrived : DynamicPropertyMap} {policy : ImportPolicy}
    (he : Entries K V existing) (hv : Entries K V (some values))
    (h : arrival existing values policy = .ok arrived) : Entries K V (some arrived) := by
  unfold arrival at h
  split at h
  · cases h
  · cases h
    exact entries_overlay he hv
  · cases h
    exact hv

private theorem entries_carry {look : Contents} (hlook : ∀ ref, Entries K V (look ref))
    {source destination : CollectionRef} {policy : ImportPolicy} {removeSource : Bool}
    {plan : Plan CollectionRef (Option DynamicPropertyMap)}
    (h : carry look source destination policy removeSource = .ok plan) :
    ∀ entry ∈ plan, Entries K V entry.2 := by
  unfold carry at h
  split at h
  · cases h
  rename_i values hsource
  split at h
  · cases h
  rename_i arrived harrive
  cases h
  intro entry hentry
  rcases List.mem_cons.mp hentry with rfl | htail
  · exact entries_arrival (hlook destination) (hsource ▸ hlook source) harrive
  · cases removeSource with
    | false => simp at htail
    | true =>
        simp only [if_true, List.mem_singleton] at htail
        rw [htail]
        exact entries_none

/-- Planners write only entries that were stored before, or that the operation
supplies. -/
theorem effect_entries {operation : DynamicPropertyOperation} {look : Contents}
    {plan : Plan CollectionRef (Option DynamicPropertyMap)}
    (hlook : ∀ ref, Entries K V (look ref)) (hop : Supplies K V operation)
    (h : effect operation look = .ok plan) : ∀ entry ∈ plan, Entries K V entry.2 := by
  cases operation with
  | setProperty entry =>
      cases h
      intro e he
      rw [List.mem_singleton.mp he]
      exact entries_insert (entries_someGetD (hlook entry.ref)) hop.1 hop.2
  | setMany entry =>
      cases h
      intro e he
      rw [List.mem_singleton.mp he]
      refine entries_overlay (entries_someGetD (hlook entry.ref)) fun properties hp => ?_
      cases hp
      exact hop
  | removeProperty entry =>
      simp only [effect] at h
      repeat' split at h
      all_goals cases h
      all_goals intro e he
      · cases he
      · rename_i properties hproperties _
        rw [List.mem_singleton.mp he]
        exact entries_erase (hproperties ▸ hlook entry.ref) _
      · cases he
  | removeMany entry =>
      simp only [effect] at h
      repeat' split at h
      all_goals cases h
      all_goals intro e he
      · cases he
      · rename_i properties hproperties _
        rw [List.mem_singleton.mp he]
        exact entries_eraseAll (hproperties ▸ hlook entry.ref) _
  | clearCollection entry =>
      cases h
      intro e he
      rw [List.mem_singleton.mp he]
      dsimp only
      split
      · exact entries_none
      · exact entries_empty
  | renameCollection entry => exact entries_carry hlook h
  | transferProperty entry =>
      simp only [effect] at h
      split at h
      · cases h
      rename_i value hvalue
      split at h
      · cases h
      cases h
      obtain ⟨held, hsource, hget⟩ := Option.bind_eq_some_iff.mp hvalue
      have hv : V value := (hlook entry.source held hsource _ _ hget).2
      have hwritten : Entries K V
          (some (((look entry.destination).getD ∅).insert entry.destinationKey value)) :=
        entries_insert (entries_someGetD (hlook entry.destination)) hop hv
      intro e he
      rcases List.mem_cons.mp he with rfl | htail
      · exact hwritten
      · cases hremove : entry.removeSource with
        | false => simp [hremove] at htail
        | true =>
            simp only [hremove, if_true, List.mem_singleton] at htail
            rw [htail]
            apply entries_erase
            split
            · exact hwritten
            · exact entries_someGetD (hlook entry.source)
  | transferCollection entry => exact entries_carry hlook h
  | importCollection entry =>
      simp only [effect] at h
      split at h
      · cases h
      rename_i arrived harrive
      cases h
      intro e he
      rw [List.mem_singleton.mp he]
      refine entries_arrival (hlook entry.destination) (fun properties hp => ?_) harrive
      cases hp
      exact hop

end Entries

/-! ## What validation establishes -/

/-- The key passes `validateKey`. -/
def LegalKey (limits : ValidationLimits) (key : ByteString) : Prop :=
  (validateKey key limits).valid = true

/-- The value passes `validateValue`. -/
def LegalValue (limits : ValidationLimits) (value : DynamicPropertyValue) : Prop :=
  (validateValue value limits).valid = true

/-- The target passes `validateTarget`, the name `validateCollectionName`. -/
def LegalReference (limits : ValidationLimits) (ref : CollectionRef) : Prop :=
  validateTarget ref.target = none ∧ (validateCollectionName ref.collection limits).valid = true

section Validated

variable {service : DynamicPropertyService} {context : AccessContext}

theorem orElse_eq_none {α : Type} {first second : Option α} :
    (first <|> second) = none ↔ first = none ∧ second = none := by
  cases first <;> simp

theorem checkReference_none {ref : CollectionRef} {denied : ByteString}
    (h : service.checkReference context ref denied = none) :
    LegalReference service.limits ref ∧ service.accessPolicy.canAccess context ref = true := by
  unfold DynamicPropertyService.checkReference at h
  split at h
  · cases h
  rename_i hcapability
  dsimp only at h
  split at h
  · cases h
  rename_i hname
  split at h
  · cases h
  rename_i haccess
  have htarget : validateTarget ref.target = none := by
    unfold DynamicPropertyService.validateCapability at hcapability
    split at hcapability
    · cases hcapability
    · assumption
  exact ⟨⟨htarget, by simpa using hname⟩, by simpa using haccess⟩

theorem validateEntry_none {key : ByteString} {value : Option DynamicPropertyValue}
    (h : service.validateEntry key value = none) :
    LegalKey service.limits key ∧ ∀ v ∈ value, LegalValue service.limits v := by
  unfold DynamicPropertyService.validateEntry at h
  dsimp only at h
  split at h
  · cases h
  rename_i hkey
  refine ⟨by simpa [LegalKey] using hkey, fun v hv => ?_⟩
  cases hv
  dsimp only at h
  split at h
  · cases h
  · rename_i hvalue
    simpa [LegalValue] using hvalue

theorem validateEntries_none {values : DynamicPropertyMap}
    (h : service.validateEntries values = none) :
    ∀ key value, values[key]? = some value →
      LegalKey service.limits key ∧ LegalValue service.limits value := by
  intro key value hget
  have hmem : (key, value) ∈ values.toList := ExtTreeMap.mem_toList_iff_getElem?_eq_some.mpr hget
  have hentry := validateEntry_none (List.findSome?_eq_none_iff.mp h (key, value) hmem)
  exact ⟨hentry.1, hentry.2 value rfl⟩

/-- What an operation that passes `validateOperation` satisfies. -/
structure Validated (service : DynamicPropertyService) (context : AccessContext)
    (operation : DynamicPropertyOperation) : Prop where
  references : ∀ ref ∈ operationCollections operation,
    LegalReference service.limits ref ∧ service.accessPolicy.canAccess context ref = true
  supplies : Supplies (LegalKey service.limits) (LegalValue service.limits) operation
  movesElsewhere : MovesElsewhere operation

theorem validateOperation_none {operation : DynamicPropertyOperation}
    (h : service.validateOperation operation context = none) :
    Validated service context operation := by
  obtain ⟨hrefs, hshape⟩ := orElse_eq_none.mp h
  refine ⟨fun ref href => checkReference_none (List.findSome?_eq_none_iff.mp hrefs ref href),
    ?_, ?_⟩
  · cases operation with
    | setProperty entry =>
        have hentry := validateEntry_none (orElse_eq_none.mp hshape).2
        exact ⟨hentry.1, hentry.2 entry.value rfl⟩
    | setMany entry =>
        exact validateEntries_none (orElse_eq_none.mp (orElse_eq_none.mp hshape).2).2
    | transferProperty entry =>
        exact (validateEntry_none
          (orElse_eq_none.mp (orElse_eq_none.mp (orElse_eq_none.mp hshape).2).2).1).1
    | importCollection entry =>
        exact validateEntries_none (orElse_eq_none.mp (orElse_eq_none.mp hshape).2).2
    | removeProperty entry | removeMany entry | clearCollection entry | renameCollection entry
    | transferCollection entry => trivial
  · cases operation with
    | transferCollection entry =>
        intro hremove hsame
        have hmove := (orElse_eq_none.mp hshape).2
        rw [if_pos ⟨hremove, hsame⟩] at hmove
        cases hmove
    | setProperty entry | setMany entry | removeProperty entry | removeMany entry
    | clearCollection entry | renameCollection entry | transferProperty entry
    | importCollection entry => trivial

end Validated

/-! ## Legal stores -/

/-- A collection within the limits. -/
structure LegalCollection (limits : ValidationLimits) (ref : CollectionRef)
    (properties : DynamicPropertyMap) : Prop where
  target : validateTarget ref.target = none
  name : (validateCollectionName ref.collection limits).valid = true
  count : properties.size ≤ limits.maxPropertiesPerCollection
  keys : ∀ (key : ByteString) value, properties[key]? = some value →
    (validateKey key limits).valid = true
  values : ∀ (key : ByteString) value, properties[key]? = some value →
    (validateValue value limits).valid = true

/-- Every stored collection is legal. -/
def LegalStore (limits : ValidationLimits) (store : Store) : Prop :=
  ∀ ref properties, store[ref]? = some properties → LegalCollection limits ref properties

/-- Legality of what one reference holds, without the count. -/
def LegalContent (limits : ValidationLimits) (ref : CollectionRef)
    (content : Option DynamicPropertyMap) : Prop :=
  (content.isSome → LegalReference limits ref) ∧
    Entries (LegalKey limits) (LegalValue limits) content

theorem legalStore_iff {limits : ValidationLimits} {store : Store} :
    LegalStore limits store ↔
      (∀ ref, LegalContent limits ref (contents store ref)) ∧
        ∀ ref, sizeAt (contents store) ref ≤ limits.maxPropertiesPerCollection := by
  constructor
  · intro h
    refine ⟨fun ref => ⟨fun hsome => ?_, fun properties hp key value hget => ?_⟩, fun ref => ?_⟩
    · obtain ⟨properties, hp⟩ := Option.isSome_iff_exists.mp hsome
      exact ⟨(h ref properties hp).target, (h ref properties hp).name⟩
    · exact ⟨(h ref properties hp).keys key value hget, (h ref properties hp).values key value hget⟩
    · cases hp : contents store ref with
      | none => simp [sizeAt, hp]
      | some properties =>
          simp only [sizeAt, hp, Option.getD_some]
          exact (h ref properties hp).count
  · rintro ⟨hcontent, hsize⟩ ref properties hp
    have hp' : contents store ref = some properties := hp
    have href := (hcontent ref).1 (by rw [hp']; rfl)
    have hentries := (hcontent ref).2 properties hp'
    have hcount := hsize ref
    simp only [sizeAt, hp', Option.getD_some] at hcount
    exact ⟨href.1, href.2, hcount, fun key value hget => (hentries key value hget).1,
      fun key value hget => (hentries key value hget).2⟩

theorem legalStore_empty (limits : ValidationLimits) : LegalStore limits ∅ := by
  intro ref properties h
  simp at h

section Commits

variable {service : DynamicPropertyService} {context : AccessContext}

/-- One planner step of a validated operation keeps references and entries
legal. -/
theorem legalContent_effectStep {operation : DynamicPropertyOperation}
    (hvalid : Validated service context operation) {look : Contents}
    (hlook : ∀ ref, LegalContent service.limits ref (look ref)) (ref : CollectionRef) :
    LegalContent service.limits ref ((effectStep operation look).2 ref) := by
  cases hplan : effect operation look with
  | error failed =>
      rw [effectStep_error hplan]
      exact hlook ref
  | ok plan =>
      rw [effectStep_ok hplan]
      have hentries := effect_entries (fun r => (hlook r).2) hvalid.supplies hplan
      refine write_forall hlook (fun entry hentry => ⟨fun _ => ?_, hentries entry hentry⟩) ref
      exact (hvalid.references entry.1
        ((effect_footprint operation).writes look plan hplan entry hentry)).1

/-- A run of planner steps leaves collections that no operation names alone. -/
theorem effectRun_frame {operations : List DynamicPropertyOperation} {ref : CollectionRef}
    (hnamed : ref ∉ namedCollections operations) {look : Contents}
    (hall : Succeeds effectStep id operations look) :
    (runUntil effectStep id operations look).2 ref = look ref := by
  refine Sequence.invariant (I := fun state => state ref = look ref) ?_ hall rfl
  intro operation hop state hstate _
  rw [← hstate]
  cases hplan : effect operation state with
  | error failed => rw [effectStep_error hplan]
  | ok plan =>
      rw [effectStep_ok hplan]
      refine write_frame (fun entry hentry heq => hnamed ?_) state
      exact mem_namedCollections.mpr ⟨operation, hop,
        heq ▸ (effect_footprint operation).writes state plan hplan entry hentry⟩

/-- What passes the revalidation under the lock and is then applied keeps the
store legal. -/
theorem legalStore_applyEach {adapter : InMemoryAdapter}
    {operations : List DynamicPropertyOperation} {force : Bool}
    (hcommit : service.commitError adapter operations context = none)
    (happlies : adapter.AppliesAll operations force)
    (hlegal : LegalStore service.limits adapter.store) :
    LegalStore service.limits (adapter.applyEach operations force).2.store := by
  obtain ⟨hvalidate, hlimit⟩ := orElse_eq_none.mp hcommit
  have hvalid : ∀ operation ∈ operations, Validated service context operation :=
    fun operation hop => validateOperation_none
      (List.findSome?_eq_none_iff.mp hvalidate operation hop)
  obtain ⟨hcontent, hsize⟩ := legalStore_iff.mp hlegal
  obtain ⟨hall, hfinal⟩ := happlies.follows
  rw [legalStore_iff, hfinal]
  constructor
  · refine Sequence.invariant (I := fun look => ∀ ref, LegalContent service.limits ref (look ref))
      ?_ hall hcontent
    exact fun operation hop look hlook _ => legalContent_effectStep (hvalid operation hop) hlook
  · intro ref
    by_cases hnamed : ref ∈ namedCollections operations
    · rw [← hfinal]
      exact happlies.within (fun operation hop => (hvalid operation hop).movesElsewhere) hlimit
        hnamed
    · have hframe := effectRun_frame hnamed hall
      unfold sizeAt at hsize ⊢
      rw [hframe]
      exact hsize ref

/-- The critical section of `apply` keeps the store legal. -/
theorem legalStore_commitApply {adapter : InMemoryAdapter} {operation : DynamicPropertyOperation}
    {force : Bool} (hlegal : LegalStore service.limits adapter.store) :
    LegalStore service.limits
      (service.commitApply adapter operation context force).2.store := by
  unfold DynamicPropertyService.commitApply
  split
  · exact hlegal
  rename_i hcommit
  by_cases hok : (adapter.apply operation force).1.ok = true
  · have happlies : adapter.AppliesAll [operation] force :=
      InMemoryAdapter.appliesAll_iff.mpr ⟨hok, trivial⟩
    have hone := legalStore_applyEach hcommit happlies hlegal
    rwa [InMemoryAdapter.applyEach_cons_of_ok hok] at hone
  · have hstore : (adapter.apply operation force).2.store = adapter.store :=
      applyUnlocked_store_of_not_ok (by simpa using hok)
    rw [show (_ : InMemoryAdapter).store = adapter.store from hstore]
    exact hlegal

/-- The critical section of `transact` keeps the store legal. -/
theorem legalStore_commitTransact {adapter : InMemoryAdapter}
    {transaction : DynamicPropertyTransaction} {collections : List CollectionRef}
    (hlegal : LegalStore service.limits adapter.store) :
    LegalStore service.limits
      (service.commitTransact adapter transaction context collections).2.store := by
  unfold DynamicPropertyService.commitTransact
  dsimp only
  split
  · exact hlegal
  rename_i hcommit
  by_cases happlies : adapter.AppliesAll transaction.operations transaction.force
  · have hstore := (InMemoryAdapter.transact_of_appliesAll happlies).2.2.2
    rw [show (_ : InMemoryAdapter).store = _ from hstore]
    exact legalStore_applyEach hcommit happlies hlegal
  · have hstore := (InMemoryAdapter.transact_of_not_appliesAll happlies).2.2.2
    rw [show (_ : InMemoryAdapter).store = _ from hstore]
    exact hlegal

end Commits

/-! ## Runs -/

/-- What every request that respects the limits preserves. -/
theorem legalStore_acts {limits : ValidationLimits} {service : DynamicPropertyService}
    {operations : List DynamicPropertyOperation} (hlimits : service.limits = limits)
    {world world' : World} {r : Request} {response : Response r}
    (hpermits : Permits service operations r) (hact : Acts world r response world')
    (hlegal : LegalStore limits world.adapter.store) :
    LegalStore limits world'.adapter.store := by
  cases r with
  | commitApply committing operation context force =>
      have hworld : world' = (respond world (.commitApply committing operation context force)).2 :=
        congrArg Prod.snd hact
      have hsame : committing = service := hpermits.1
      subst hworld hsame hlimits
      exact legalStore_commitApply hlegal
  | commitTransact committing transaction context collections =>
      have hworld : world' =
          (respond world (.commitTransact committing transaction context collections)).2 :=
        congrArg Prod.snd hact
      have hsame : committing = service := hpermits.1
      subst hworld hsame hlimits
      exact legalStore_commitTransact hlegal
  | capture ref | listCollections target | makeTransactionId | matchListeners bus event
  | invoke listener published position current | revalidate committing operation context
  | flush target | record sink entry =>
      rw [acts_quiet (by trivial) hact]
      exact hlegal

/-- Services with equal limits keep a store legal, in any interleaving. -/
theorem legalStore_run {format : NumberFormat} {limits : ValidationLimits} {init : World}
    {state : State serviceInterface World ServiceCall CallResult}
    (hinit : LegalStore limits init.adapter.store) (hrun : Run (serviceSystem format) init state)
    (hlimits : ∀ c ∈ state.calls, c.job.service.limits = limits) :
    LegalStore limits state.world.adapter.store := by
  have hissues : ∀ c ∈ state.calls,
      Issues (I := serviceInterface)
        (fun r => ∃ service operations, service.limits = limits ∧ Permits service operations r)
        ((serviceSystem format).program c.job) := by
    intro c hc
    exact issues_mono
      (fun r hr => ⟨c.job.service, c.job.operations format, hlimits c hc, hr⟩)
      (issues_program format c.job)
  refine (hrun.invariant (K := fun world => LegalStore limits world.adapter.store) hissues
    ?_ ?_ hinit).1
  · rintro world r response world' ⟨service, operations, hservice, hpermits⟩ hact hlegal
    exact legalStore_acts hservice hpermits hact hlegal
  · intro world world' hinterferes hlegal
    rw [interferes_store hinterferes]
    exact hlegal

/-- **Only legal collections are ever stored.**  Services with equal limits over
one adapter that starts empty, in any interleaving. -/
theorem run_keeps_legalStore (format : NumberFormat) (limits : ValidationLimits) {init : World}
    {state : State serviceInterface World ServiceCall CallResult}
    (hempty : init.adapter.store = ∅) (hrun : Run (serviceSystem format) init state)
    (hlimits : ∀ c ∈ state.calls, c.job.service.limits = limits) :
    LegalStore limits state.world.adapter.store := by
  have hinit : LegalStore limits init.adapter.store := by
    rw [hempty]
    exact legalStore_empty limits
  exact legalStore_run hinit hrun hlimits

/-- A call that writes one property. -/
def writeTitle : ServiceCall :=
  .apply {}
    (.setProperty { ref := ⟨{}, text "notes"⟩, key := text "title", value := .bool true })
    { rawAdmin := true } false

/-- A number format for calls that print and read no numbers. -/
def silentFormat : NumberFormat := ⟨fun _ => [], fun unread => (⟨0⟩, unread)⟩

/-- The theorem at a write that is run alone from the empty world. -/
theorem run_keeps_legalStore_writeTitle :
    LegalStore {} (run respond (writeTitle.program silentFormat) ({} : World)).2.adapter.store ∧
      (run respond (writeTitle.program silentFormat) ({} : World)).2.adapter.store.contains
        ⟨{}, text "notes"⟩ = true := by
  have hrun : Run (serviceSystem silentFormat) ({} : World) _ :=
    Run.alone acts_respond .nil writeTitle
  refine ⟨run_keeps_legalStore silentFormat {} rfl hrun fun c hc => ?_, by decide⟩
  rw [List.mem_singleton.mp hc]
  rfl

end DynamicProperties.Cpp
