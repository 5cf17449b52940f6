import DynamicProperties.Python.StoreIntegrity

/-!
# The Python service stays within its limits

Validation checks the references, keys and values of an operation before the listeners
hear of it; the preflight counts under the mutation lock.  What they make sure of holds of
every collection any run leaves behind (`stores_within_limits`), whatever values the calls
bring: also a value that cannot be written down is stored under a legal key, and counted.
-/

namespace DynamicProperties.Python

open Std
open DynamicProperties.Library.Fallible
open DynamicProperties.Library.Collections
open DynamicProperties.Library.Requests
open DynamicProperties.Library.Pool

/-! ## What validation establishes of names -/

/-- The target passes `validate_target`, the name `_validate_collection`. -/
structure LegalReference (limits : ValidationLimits) (ref : CollectionRef) : Prop where
  target : validateTarget ref.target = none
  name : validateCollection ref.collection limits = none

/-- The key passes `_validate_key`. -/
def LegalKey (limits : ValidationLimits) (key : Str) : Prop := validateKey key limits = none

/-- The value is not looked at, or passes `_validate_value`. -/
def Tolerated (limits : ValidationLimits) (value : PyObject) : Prop :=
  value = .none ∨ validateValue value limits = .ok none

section Validated

variable {service : DynamicPropertyService} {operation : Operation} {context : AccessContext}

theorem legalReference_of_validateRef {ref : CollectionRef}
    (h : service.validateRef context ref = .ok ()) : LegalReference service.limits ref := by
  obtain ⟨htarget, hrest⟩ := bind_passes.mp h
  obtain ⟨-, hrest⟩ := bind_passes.mp hrest
  exact ⟨requireNone_passes.mp htarget, requireNone_passes.mp (bind_passes.mp hrest).1⟩

theorem references_of_validateOperation
    (h : service.validateOperation operation context = .ok none) :
    ∀ ref ∈ operationRefs operation, LegalReference service.limits ref := by
  intro ref href
  have hrefs := (bind_passes.mp (report_none.mp h)).1
  exact legalReference_of_validateRef (forM_eq_ok.mp hrefs ref href)

theorem passes_of_validateEntry {key : Str} {value : PyObject}
    (h : service.validateEntry key value = .ok ()) :
    LegalKey service.limits key ∧ Tolerated service.limits value := by
  refine ⟨requireNone_passes.mp (bind_passes.mp h).1, ?_⟩
  by_cases hvalue : value = .none
  · exact .inl hvalue
  rw [validateEntry_of_ne hvalue] at h
  have hchecked := (bind_passes.mp h).2
  cases hverdict : validateValue value service.limits with
  | error raised =>
      rw [hverdict] at hchecked
      cases hchecked
  | ok verdict =>
      rw [hverdict] at hchecked
      exact .inr (hverdict.trans (congrArg Except.ok (requireNone_passes.mp hchecked)))

theorem passes_of_validateEntries {mapping : PropertyMapping}
    (h : service.validateEntries mapping = .ok ()) :
    (∀ key ∈ mapping.items.map Prod.fst, LegalKey service.limits key) ∧
      ∀ value ∈ mapping.items.map Prod.snd, Tolerated service.limits value := by
  have hentry := fun entry hmem => passes_of_validateEntry (forM_eq_ok.mp h entry hmem)
  simp only [List.forall_mem_map]
  exact ⟨fun entry hmem => (hentry entry hmem).1, fun entry hmem => (hentry entry hmem).2⟩

/-- The entries an operation that passed validation writes. -/
theorem entries_of_validateOperation
    (h : service.validateOperation operation context = .ok none) :
    (∀ key ∈ suppliedKeys operation, LegalKey service.limits key) ∧
      ∀ value ∈ suppliedValues operation, Tolerated service.limits value := by
  have hshape : service.validateShape operation = .ok () :=
    (bind_passes.mp (report_none.mp h)).2
  cases operation with
  | setProperty entry =>
      obtain ⟨hkey, hvalue⟩ := passes_of_validateEntry (bind_passes.mp hshape).2
      exact ⟨List.forall_mem_singleton.mpr hkey, List.forall_mem_singleton.mpr hvalue⟩
  | setMany entry | importCollection entry =>
      exact passes_of_validateEntries (bind_passes.mp (bind_passes.mp hshape).2).2
  | transferProperty entry =>
      have hkeys := (bind_passes.mp (bind_passes.mp hshape).2).2
      exact ⟨List.forall_mem_singleton.mpr (requireNone_passes.mp (bind_passes.mp hkeys).1), nofun⟩
  | removeProperty entry | removeMany entry | clearCollection entry | renameCollection entry
  | transferCollection entry => exact ⟨nofun, nofun⟩

end Validated

/-! ## Collections within the limits -/

/-- A stored collection within the limits. -/
structure WithinLimits (limits : ValidationLimits) (ref : CollectionRef)
    (properties : DynamicPropertyMap) : Prop where
  reference : LegalReference limits ref
  count : (properties.size : Int) ≤ limits.maxPropertiesPerCollection
  entries : Holds (LegalKey limits) (Tolerated limits) properties

/-- Every stored collection is within the limits. -/
def Limited (limits : ValidationLimits) (look : Contents) : Prop :=
  ∀ ref properties, look ref = some properties → WithinLimits limits ref properties

section Writes

variable {service : DynamicPropertyService} {operation : Operation}

/-- The operation passed `_validate_operation`. -/
def Approved (service : DynamicPropertyService) (operation : Operation) : Prop :=
  ∃ context, service.validateOperation operation context = .ok none

theorem Approved.moves (h : Approved service operation) : MovesElsewhere operation := by
  obtain ⟨context, hvalid⟩ := h
  exact (accepted_of_validateOperation hvalid).moves

/-- The action of an approved operation keeps the limits if it keeps the counts at the
references it names. -/
theorem Limited.performed {look after : Contents} (h : Limited service.limits look)
    (happroved : Approved service operation)
    (hact : act operation.action look = some after)
    (hcounts : ∀ ref ∈ operationRefs operation,
      (sizeAt after ref : Int) ≤ service.limits.maxPropertiesPerCollection) :
    Limited service.limits after := by
  obtain ⟨context, hvalid⟩ := happroved
  obtain ⟨hkeys, hvalues⟩ := entries_of_validateOperation hvalid
  have hentries : Everywhere (LegalKey service.limits) (Tolerated service.limits) after :=
    Everywhere.act (fun ref properties hlook => (h ref properties hlook).entries)
      (supplies_action hkeys hvalues) hact
  intro ref properties hlook
  by_cases href : ref ∈ operationRefs operation
  · refine ⟨references_of_validateOperation hvalid ref href, ?_, hentries ref properties hlook⟩
    have hcount := hcounts ref href
    rwa [sizeAt, hlook, Option.getD_some] at hcount
  · rw [act_frame hact (action_refs operation ▸ href)] at hlook
    exact h ref properties hlook

end Writes

/-! ## The commits -/

section Commits

variable {digest : Canonical → UInt64} {service : DynamicPropertyService}
  {adapter : InMemoryAdapter} {operation : Operation} {availability : Availability}
  {store : Store} {force : Bool}

variable (digest availability store force) in
/-- `_apply` leaves the store or writes what the operation does to it; if it returns
`Applied`, it has written. -/
theorem applyIn_writes (hmoves : MovesElsewhere operation) :
    (contents (applyIn digest availability store operation force).2 = contents store ∧
        returnsApplied (applyIn digest availability store operation force).1 = false) ∨
      act operation.action (contents store) =
        some (contents (applyIn digest availability store operation force).2) := by
  cases hcheck : checkParticipants digest availability store operation force
      (operationRefs operation).eraseDups [] with
  | error raised =>
      simp only [applyIn, hcheck]
      exact .inl ⟨trivial, rfl⟩
  | ok outcome =>
      cases outcome with
      | error result =>
          simp only [applyIn, hcheck]
          exact .inl ⟨trivial, checkParticipants_refused hcheck⟩
      | ok before =>
          have hspec := mutate_spec hmoves store
          rcases hmutate : mutate store operation with ⟨written, _ | failed⟩
          · rw [hmutate] at hspec
            simp only [applyIn, hcheck, hmutate]
            exact .inr hspec
          · rw [hmutate] at hspec
            obtain ⟨-, hstatus, hsame⟩ := hspec
            simp only [applyIn, hcheck, hmutate]
            exact .inl ⟨congrArg contents hsame, decide_eq_false hstatus⟩

variable (digest force) in
/-- What `_apply` writes behind a check that found no overflow is within the limits, and
the rest of the check goes on from there. -/
theorem Limited.applied {named : CollectionRef → Prop} {shadow : Shadow}
    (h : Limited service.limits (contents store)) (happroved : Approved service operation)
    (hnamed : ∀ ref ∈ operationRefs operation, named ref)
    (htracks : Tracks named shadow { store, availability }) {rest : List Operation}
    (hover : shadow.overflows service.limits.maxPropertiesPerCollection (operation :: rest) =
      false) :
    Limited service.limits (contents (applyIn digest availability store operation force).2) ∧
      (returnsApplied (applyIn digest availability store operation force).1 = true →
        ∃ after, Tracks named after
            { store := (applyIn digest availability store operation force).2, availability } ∧
          after.overflows service.limits.maxPropertiesPerCollection rest = false) := by
  rcases applyIn_writes digest availability store force happroved.moves with
    ⟨hsame, hfailed⟩ | hact
  · rw [hsame]
    exact ⟨h, fun happlied => absurd (hfailed.symm.trans happlied) Bool.false_ne_true⟩
  · have hwritten : act operation.action (contents store) = some (contents
        (InMemoryAdapter.mk (applyIn digest availability store operation force).2
          availability).store) := hact
    obtain ⟨after, hstep, hafter⟩ := htracks.step hnamed hwritten
    rw [Shadow.overflows, hstep] at hover
    have hexceeds : after.exceeds service.limits.maxPropertiesPerCollection = false := by
      cases hexceeds : after.exceeds service.limits.maxPropertiesPerCollection with
      | false => rfl
      | true => simp [hexceeds] at hover
    refine ⟨h.performed happroved hact fun ref href => ?_, fun _ => ⟨after, hafter, ?_⟩⟩
    · by_contra hlarge
      have hlarge := (hafter.exceeds_iff _).mpr ⟨ref, hnamed ref href, Int.not_le.mp hlarge⟩
      rw [hexceeds] at hlarge
      cases hlarge
    · simpa [hexceeds] using hover

/-- A check that passed has found no overflow in what the adapter holds. -/
theorem tracks_of_validatePropertyLimits {limits : ValidationLimits} {operations : List Operation}
    (h : validatePropertyLimits digest adapter limits operations = .ok none) :
    ∃ shadow, Tracks (· ∈ namedRefs operations) shadow adapter ∧
      shadow.overflows limits.maxPropertiesPerCollection operations = false := by
  obtain ⟨shadow, hcaptured, hover⟩ := validatePropertyLimits_none h
  have htracks := captureShadow_tracks hcaptured (tracks_empty adapter)
  have hnamed : (fun r => False ∨ r ∈ namedRefs operations) = (· ∈ namedRefs operations) := by
    funext r
    exact propext (or_iff_right id)
  rw [hnamed] at htracks
  exact ⟨shadow, htracks, hover⟩

theorem commitApply_limited (h : Limited service.limits (contents adapter.store))
    (happroved : Approved service operation) (force : Bool) :
    Limited service.limits
      (contents (service.commitApply digest adapter operation force).2.store) := by
  unfold DynamicPropertyService.commitApply
  split
  · exact h
  · exact h
  next hlimits =>
    obtain ⟨shadow, htracks, hover⟩ := tracks_of_validatePropertyLimits hlimits
    refine (h.applied digest force happroved (fun ref href => ?_) htracks hover).1
    exact mem_namedRefs.mpr ⟨operation, List.mem_singleton_self operation, href⟩

/-- The loop of `transact` keeps the copy of the store within the limits. -/
theorem transactLoop_limited {named : CollectionRef → Prop} {rollbackOnFailure : Bool}
    {operations : List Operation} (happroved : ∀ operation ∈ operations,
      Approved service operation ∧ ∀ ref ∈ operationRefs operation, named ref)
    {candidate written : Store} (h : Limited service.limits (contents candidate))
    {shadow : Shadow} (htracks : Tracks named shadow { store := candidate, availability })
    (hover : shadow.overflows service.limits.maxPropertiesPerCollection operations = false)
    {results : List OperationResult} {result : TransactionResult}
    (hloop : InMemoryAdapter.transactLoop digest availability force rollbackOnFailure operations
      candidate results = .ok (result, some written)) :
    Limited service.limits (contents written) := by
  induction operations generalizing candidate shadow results with
  | nil =>
      have hwritten : candidate = written :=
        Option.some.inj (congrArg Prod.snd (Except.ok.inj hloop))
      rw [← hwritten]
      exact h
  | cons operation rest ih =>
      obtain ⟨hoperation, hrest⟩ := List.forall_mem_cons.mp happroved
      obtain ⟨hlimited, hgoes⟩ := h.applied digest force hoperation.1
        hoperation.2 htracks hover
      rw [InMemoryAdapter.transactLoop] at hloop
      split at hloop
      · cases hloop
      next answer next happly =>
        rw [happly] at hlimited hgoes
        by_cases hok : answer.ok = true
        · rw [hok] at hloop
          obtain ⟨after, hafter, hcounts⟩ := hgoes hok
          exact ih hrest hlimited hafter hcounts hloop
        · -- the loop stops at a failure, and leaves no copy
          rw [Bool.not_eq_true] at hok
          rw [hok] at hloop
          cases hloop

theorem commitTransact_limited (h : Limited service.limits (contents adapter.store))
    {transaction : Transaction}
    (happroved : ∀ operation ∈ transaction.operations, Approved service operation)
    (refs : List CollectionRef) (ids : Nat) :
    Limited service.limits
      (contents (service.commitTransact digest adapter transaction refs ids).2.1.store) := by
  unfold DynamicPropertyService.commitTransact
  split
  · exact h
  · exact h
  next hlimits =>
    obtain ⟨shadow, htracks, hover⟩ := tracks_of_validatePropertyLimits hlimits
    have hcommitted : Limited service.limits
        (contents (adapter.transact digest transaction ids).2.1.store) := by
      unfold InMemoryAdapter.transact
      split
      · exact h
      next result candidate hloop =>
        cases candidate with
        | none => exact h
        | some written =>
            refine transactLoop_limited (fun operation hmem => ⟨happroved operation hmem,
              fun ref href => ?_⟩) h htracks hover hloop
            exact mem_namedRefs.mpr ⟨operation, hmem, href⟩
    split
    · next raised committed htransact =>
      rw [htransact] at hcommitted
      exact hcommitted
    · next result committed htransact =>
      rw [htransact] at hcommitted
      exact hcommitted

/-- **A commit keeps the store within the limits.** -/
theorem acts_limited {world world' : World} {r : Request} {response : Response r}
    {supplied : Operation → Prop} (hcommits : CommitsOnly service supplied r)
    (hact : Acts digest world r response world')
    (h : Limited service.limits (contents world.adapter.store)) :
    Limited service.limits (contents world'.adapter.store) := by
  cases r with
  | commitApply by_ operation force =>
      obtain ⟨rfl, -, happroved⟩ := hcommits
      have hworld : world' = (respond digest world (.commitApply by_ operation force)).2 :=
        congrArg Prod.snd hact
      rw [hworld]
      exact commitApply_limited h happroved force
  | commitTransact by_ transaction refs =>
      obtain ⟨rfl, happroved⟩ := hcommits
      have hworld : world' = (respond digest world (.commitTransact by_ transaction refs)).2 :=
        congrArg Prod.snd hact
      rw [hworld]
      exact commitTransact_limited h (fun operation hmem => (happroved operation hmem).2) refs _
  | capture ref | newTransactionId | matchListeners bus event
  | invoke listener published position current | record sink entry =>
      have hsame : world'.adapter = world.adapter := acts_quiet (by trivial) hact
      rw [hsame]
      exact h

end Commits

/-! ## Runs -/

section Runs

variable {digest : Canonical → UInt64} {interp : Interpreter} {limits : ValidationLimits}
  {init : World} {state : State serviceInterface World ServiceCall (Except PyError CallResult)}

/-- Services with equal limits keep them, in any interleaving. -/
theorem limited_run (hrun : Run (serviceSystem digest interp) init state)
    (hinit : Limited limits (contents init.adapter.store))
    (hlimits : ∀ c ∈ state.calls, c.job.service.limits = limits) :
    Limited limits (contents state.world.adapter.store) := by
  have hissues : ∀ c ∈ state.calls,
      Issues (fun r => ∃ service, service.limits = limits ∧
        CommitsOnly service (fun _ => True) r) (c.job.program interp).run := by
    intro c hc
    exact issues_mono (fun r hr => ⟨c.job.service, hlimits c hc, hr⟩)
      (issues_program interp c.job fun _ _ => trivial)
  refine (hrun.invariant (K := fun world => Limited limits (contents world.adapter.store))
    hissues ?_ ?_ hinit).1
  · rintro world r response world' ⟨service, rfl, hcommits⟩ hact h
    exact acts_limited hcommits hact h
  · intro world world' hinterferes h
    rw [interferes_store hinterferes]
    exact h

/-- **What any run stores is within the limits.**  Services with equal limits over one
adapter that starts empty, in any interleaving, and whatever values they write. -/
theorem stores_within_limits (hrun : Run (serviceSystem digest interp) init state)
    (hempty : init.adapter.store = ∅)
    (hlimits : ∀ c ∈ state.calls, c.job.service.limits = limits) {ref : CollectionRef}
    {properties : DynamicPropertyMap}
    (hstored : contents state.world.adapter.store ref = some properties) :
    WithinLimits limits ref properties := by
  refine limited_run hrun (fun ref properties hlook => ?_) hlimits ref properties hstored
  rw [hempty] at hlook
  cases hlook

/-- The theorem at the run that stores what cannot be captured. -/
theorem stores_within_limits_draft :
    ∃ properties, contents (drafted .none).world.adapter.store notes = some properties ∧
      WithinLimits {} notes properties := by
  have hlimits : ∀ c ∈ (drafted .none).calls, c.job.service.limits = {} := by
    intro c hc
    rw [List.mem_singleton.mp hc]
    rfl
  have hstored : contents (drafted .none).world.adapter.store notes =
      some ((∅ : DynamicPropertyMap).insert (str "draft") .none) := rfl
  exact ⟨_, hstored, stores_within_limits (run_drafted .none) rfl hlimits hstored⟩

end Runs

end DynamicProperties.Python
