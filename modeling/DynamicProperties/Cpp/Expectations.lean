import DynamicProperties.Cpp.Legality

/-!
# Which revision expectations are enforced

`applyUnlocked` looks an expectation up by collection.  The lookup finds every
supplied expectation except one: a collection transfer onto itself asks for its
source expectation first and never reaches the destination's
(`supplied_resolved`).  `enforcesExpectations_iff` draws the line exactly.
-/

namespace DynamicProperties.Cpp

open Std

/-- Every expectation the operation carries for a collection whose revision is
another keeps the operation from being applied. -/
def EnforcesExpectations (adapter : InMemoryAdapter) (operation : DynamicPropertyOperation) :
    Prop :=
  ∀ ref expected, (ref, some expected) ∈ suppliedExpectations operation →
    expected ≠ revisionAt (contents adapter.store) ref →
      (adapter.apply operation false).1.status ≠ .applied ∧
        (adapter.apply operation false).2.store = adapter.store

/-- A copy of an existing collection onto itself, under a policy that allows it,
whose source expectation is absent or current and whose destination expectation
is stale. -/
def StaleSelfCopy (adapter : InMemoryAdapter) : DynamicPropertyOperation → Prop
  | .transferCollection entry =>
      entry.source = entry.destination ∧ entry.destinationPolicy ≠ .failIfDestinationExists ∧
        adapter.store.contains entry.source = true ∧
        targetAvailable adapter.availability entry.source.target = true ∧
        (∀ expected ∈ entry.expectedSourceRevision,
          expected = revisionAt (contents adapter.store) entry.source) ∧
        ∃ expected ∈ entry.expectedDestinationRevision,
          expected ≠ revisionAt (contents adapter.store) entry.destination
  | _ => False

/-- A rename names two collections. -/
def RenamesElsewhere : DynamicPropertyOperation → Prop
  | .renameCollection entry => entry.source ≠ entry.destination
  | _ => True

theorem renamesElsewhere_of_validated {service : DynamicPropertyService} {context : AccessContext}
    {operation : DynamicPropertyOperation}
    (h : service.validateOperation operation context = none) : RenamesElsewhere operation := by
  have hshape := (orElse_eq_none.mp h).2
  cases operation with
  | renameCollection entry =>
      intro hsame
      have hrename := (orElse_eq_none.mp hshape).2
      rw [if_pos hsame] at hrename
      cases hrename
  | setProperty entry | setMany entry | removeProperty entry | removeMany entry
  | clearCollection entry | transferProperty entry | transferCollection entry
  | importCollection entry => trivial

/-- The lookup finds a supplied expectation, unless it is the destination's of a
collection transfer onto itself. -/
theorem supplied_resolved {operation : DynamicPropertyOperation} {ref : CollectionRef}
    {expected : UInt64} (hsupplied : (ref, some expected) ∈ suppliedExpectations operation)
    (hconsistent : conflictingExpectations operation = false)
    (hrenames : RenamesElsewhere operation) :
    expectedRevision operation ref = some expected ∨
      ∃ entry, operation = .transferCollection entry ∧ entry.source = entry.destination ∧
        entry.expectedDestinationRevision = some expected ∧ ref = entry.destination := by
  cases operation with
  | setProperty entry | setMany entry | removeProperty entry | removeMany entry
  | clearCollection entry | importCollection entry =>
      simp only [suppliedExpectations, List.mem_singleton, Prod.mk.injEq] at hsupplied
      obtain ⟨rfl, hexpected⟩ := hsupplied
      exact Or.inl (by simp [expectedRevision, hexpected])
  | renameCollection entry =>
      have hne : entry.sourceRef ≠ entry.destinationRef := fun h =>
        hrenames (congrArg CollectionRef.collection h)
      simp only [suppliedExpectations, List.mem_cons, List.not_mem_nil, or_false,
        Prod.mk.injEq] at hsupplied
      rcases hsupplied with ⟨rfl, hexpected⟩ | ⟨rfl, hexpected⟩
      · exact Or.inl (by simp [expectedRevision, hexpected])
      · exact Or.inl (by simp [expectedRevision, hne, hexpected])
  | transferProperty entry =>
      simp only [suppliedExpectations, List.mem_cons, List.not_mem_nil, or_false,
        Prod.mk.injEq] at hsupplied
      left
      by_cases hsame : entry.source = entry.destination
      · simp only [conflictingExpectations, hsame, true_and, decide_eq_false_iff_not,
          not_and, not_not] at hconsistent
        rcases hsupplied with ⟨rfl, hexpected⟩ | ⟨rfl, hexpected⟩
        · simp [expectedRevision, hsame, ← hexpected]
        · cases hs : entry.expectedSourceRevision with
          | none => simp [expectedRevision, hsame, hs, hexpected]
          | some first =>
              have hequal := hconsistent (by rw [hs]; rfl) (by rw [← hexpected]; rfl)
              simp [expectedRevision, hsame, hequal, ← hexpected]
      · rcases hsupplied with ⟨rfl, hexpected⟩ | ⟨rfl, hexpected⟩
        · simp [expectedRevision, Ne.symm hsame, hexpected]
        · simp [expectedRevision, hsame, hexpected]
  | transferCollection entry =>
      simp only [suppliedExpectations, List.mem_cons, List.not_mem_nil, or_false,
        Prod.mk.injEq] at hsupplied
      rcases hsupplied with ⟨rfl, hexpected⟩ | ⟨rfl, hexpected⟩
      · exact Or.inl (by simp [expectedRevision, hexpected])
      · by_cases hsame : entry.source = entry.destination
        · exact Or.inr ⟨entry, rfl, hsame, hexpected.symm, rfl⟩
        · exact Or.inl (by simp [expectedRevision, hsame, hexpected])

theorem supplied_named {operation : DynamicPropertyOperation} {ref : CollectionRef}
    {expected : ExpectedRevision} (h : (ref, expected) ∈ suppliedExpectations operation) :
    ref ∈ operationCollections operation := by
  cases operation <;> simp_all [suppliedExpectations, operationCollections] <;> tauto

/-- A stale copy of a collection onto itself is applied. -/
theorem applied_of_staleSelfCopy {adapter : InMemoryAdapter}
    {entry : TransferCollectionOperation}
    (h : StaleSelfCopy adapter (.transferCollection entry)) :
    (adapter.apply (.transferCollection entry) false).1.ok = true := by
  obtain ⟨hsame, hpolicy, hthere, havail, hsource, -⟩ := h
  have hconsistent : conflictingExpectations (.transferCollection entry) = false := rfl
  refine applyUnlocked_ok_iff.mpr ⟨hconsistent, ?_, ?_, ?_⟩
  · intro ref href
    simp only [operationCollections, List.mem_cons, List.not_mem_nil, or_false] at href
    rcases href with rfl | rfl
    · exact havail
    · exact hsame ▸ havail
  · intro _ ref href
    simp only [operationCollections, List.mem_cons, List.not_mem_nil, or_false] at href
    have hboth : ref = entry.source := by
      rcases href with rfl | rfl
      · rfl
      · exact hsame.symm
    subst hboth
    intro expected hexpected
    simp only [expectedRevision, if_true] at hexpected
    exact hsource expected hexpected
  · obtain ⟨held, hheld⟩ := Option.isSome_iff_exists.mp
      (show (contents adapter.store entry.source).isSome = true by
        rw [contents, ExtTreeMap.isSome_getElem?_eq_contains]
        exact hthere)
    have hdest : contents adapter.store entry.destination = some held := hsame ▸ hheld
    simp only [effect, carry, hheld, hdest]
    cases hp : entry.destinationPolicy with
    | failIfDestinationExists => exact absurd hp hpolicy
    | merge => exact ⟨_, rfl⟩
    | replace => exact ⟨_, rfl⟩

/-- **The expectations of a validated operation are enforced exactly when it is
not a stale copy of a collection onto itself.** -/
theorem enforcesExpectations_iff (service : DynamicPropertyService) (context : AccessContext)
    (adapter : InMemoryAdapter) (operation : DynamicPropertyOperation)
    (hvalid : service.validateOperation operation context = none) :
    EnforcesExpectations adapter operation ↔ ¬ StaleSelfCopy adapter operation := by
  constructor
  · intro henforced hstale
    cases operation with
    | transferCollection entry =>
        have happlied := applied_of_staleSelfCopy hstale
        obtain ⟨-, -, -, -, -, expected, hexpected, hne⟩ := hstale
        have hrefused := henforced entry.destination expected
          (by simp [suppliedExpectations, Option.mem_def.mp hexpected]) hne
        exact hrefused.1 (OperationResult.ok_iff.mp happlied)
    | _ => exact hstale
  · intro hnot ref expected hsupplied hstale
    by_cases haccepts : Accepts adapter.availability (contents adapter.store) operation false
    · exfalso
      rcases supplied_resolved hsupplied haccepts.consistent
          (renamesElsewhere_of_validated hvalid) with
        hfound | ⟨entry, rfl, hsame, hexpected, rfl⟩
      · exact hstale (haccepts.current rfl ref (supplied_named hsupplied) expected hfound)
      · -- accepted: so the collection is there, the policy lets it and the source agrees
        apply hnot
        have hs : entry.source ∈ operationCollections (.transferCollection entry) := by
          simp [operationCollections]
        obtain ⟨plan, hplan⟩ := haccepts.planned
        refine ⟨hsame, ?_, ?_, haccepts.available _ hs, fun e he => ?_, expected, hexpected, hstale⟩
        · intro hpolicy
          simp only [effect, carry, hpolicy, hsame] at hplan
          cases hdest : contents adapter.store entry.destination with
          | none => simp [hdest] at hplan
          | some held => simp [hdest, arrival] at hplan
        · rw [← ExtTreeMap.isSome_getElem?_eq_contains]
          change (contents adapter.store entry.source).isSome = true
          simp only [effect, carry] at hplan
          cases hsource : contents adapter.store entry.source with
          | none => simp [hsource] at hplan
          | some held => rfl
        · exact haccepts.current rfl entry.source hs e (by simpa [expectedRevision] using he)
    · have hrefused := applyUnlocked_of_refuses haccepts
      exact ⟨hrefused.1.ne_applied, hrefused.2⟩

/-- A collection with one flag. -/
def flagged : CollectionRef := ⟨{}, text "flags"⟩

/-- An adapter that holds only that collection. -/
def flaggedAdapter : InMemoryAdapter :=
  { store := (∅ : Store).insert flagged ((∅ : DynamicPropertyMap).insert (text "on") (.bool true)) }

/-- Merge the collection onto itself, expecting revision 0 of the destination. -/
def staleMerge : DynamicPropertyOperation :=
  .transferCollection
    { source := flagged, destination := flagged, destinationPolicy := .merge
      expectedDestinationRevision := some 0 }

/-- The equivalence at that merge, whose expectation is not enforced. -/
theorem enforcesExpectations_iff_staleMerge :
    EnforcesExpectations flaggedAdapter staleMerge ↔ ¬ StaleSelfCopy flaggedAdapter staleMerge :=
  enforcesExpectations_iff {} { rawAdmin := true } flaggedAdapter staleMerge (by decide)

/-- The service accepts the merge, the revision it expects is stale, and the
adapter applies it all the same. -/
theorem staleMerge_not_enforced :
    ({} : DynamicPropertyService).validateOperation staleMerge { rawAdmin := true } = none ∧
      ¬ EnforcesExpectations flaggedAdapter staleMerge := by
  refine ⟨by decide, fun henforced => ?_⟩
  have hsupplied : (flagged, some 0) ∈ suppliedExpectations staleMerge := by decide
  have hstale : 0 ≠ revisionAt (contents flaggedAdapter.store) flagged := by decide +kernel
  have happlied : (flaggedAdapter.apply staleMerge false).1.status = .applied := rfl
  exact (henforced flagged 0 hsupplied hstale).1 happlied

end DynamicProperties.Cpp
