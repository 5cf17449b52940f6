import DynamicProperties.Library.Fallible
import DynamicProperties.Python.Actions

/-!
# When a capture returns

`_snapshot` raises on a string UTF-8 cannot encode, on a value of a type it does
not know, on a vector coordinate `json.dumps` cannot write, and on a target with
an integer too long to print.  `Readable` is the complement: what a collection
must be for its capture to return.

An adapter whose participants are readable before and after an operation answers
it: `Applied` where the action of the operation takes effect, a failure elsewhere
(`apply_spec`).
-/

namespace DynamicProperties.Python

open Std
open DynamicProperties.Library.Fallible
open DynamicProperties.Library.Collections

/-! ## Snapshots -/

/-- UTF-8 has the string. -/
def Encodable (text : Str) : Prop := text.any isSurrogate = false

/-- A value the encoding of a snapshot can write. -/
def Recordable : PyObject → Prop
  | .bool _ | .float _ => True
  | .str text => Encodable text
  | .vector3 x y z => ∀ coordinate ∈ [x, y, z], checkJson coordinate = .ok ()
  | _ => False

/-- The target can be described. -/
def Describable (target : DynamicPropertyTarget) : Prop := Returns (describeTarget target)

theorem returns_encodeUtf8 {text : Str} : Returns (encodeUtf8 text) ↔ Encodable text := by
  unfold encodeUtf8 Encodable
  cases text.any isSurrogate with
  | false => simp
  | true => simp

private theorem returns_estimateBytes {key : Str} {value : PyObject} :
    Returns (estimateBytes key value) ↔
      Encodable key ∧ ∀ text, value = .str text → Encodable text := by
  rw [estimateBytes, returns_bind]
  cases value with
  | str text =>
      simp only [returns_bind_pure, returns_encodeUtf8, PyObject.str.injEq, forall_eq']
      exact ⟨fun ⟨bytes, hkey, htext⟩ => ⟨returns_encodeUtf8.mp ⟨bytes, hkey⟩, htext⟩,
        fun ⟨hkey, htext⟩ =>
          (returns_encodeUtf8.mpr hkey).imp fun bytes hbytes => ⟨hbytes, htext⟩⟩
  | _ =>
      simp only [reduceCtorEq, false_implies, implies_true, and_true, returns_pure,
        ← returns_encodeUtf8]
      rfl

/-- Encoding a value and writing what comes out. -/
private theorem encodedValue_written {value : PyObject}
    (htext : ∀ text, value = .str text → Encodable text) :
    (∃ encoded, encodedValue value = .ok encoded ∧ encoded.value.forM checkJson = .ok ()) ↔
      Recordable value := by
  cases value with
  | none | int value | other typeName asFloat serializable =>
      simp [encodedValue, valueType, Recordable]
  | bool value => exact ⟨fun _ => trivial, fun _ => ⟨_, rfl, rfl⟩⟩
  | float value => exact ⟨fun _ => trivial, fun _ => ⟨_, rfl, rfl⟩⟩
  | str text => exact ⟨fun _ => htext text rfl, fun _ => ⟨_, rfl, rfl⟩⟩
  | vector3 x y z =>
      have hencoded : encodedValue (.vector3 x y z) = .ok ⟨.vector3, [x, y, z]⟩ := rfl
      rw [hencoded]
      simp only [Except.ok.injEq, exists_eq_left', forM_eq_ok]
      rfl

private theorem Recordable.text {value : PyObject} (h : Recordable value) :
    ∀ text, value = .str text → Encodable text := by
  rintro text rfl
  exact h

/-- What is written of one entry. -/
private theorem encodedEntry_written {entry : Str × PyObject}
    (htext : ∀ text, entry.2 = .str text → Encodable text) :
    (∃ encoded, encodedEntry entry = .ok encoded ∧ encoded.2.value.forM checkJson = .ok ()) ↔
      Recordable entry.2 := by
  rw [← encodedValue_written htext]
  simp only [encodedEntry, bind_eq_ok]
  constructor
  · rintro ⟨encoded, ⟨value, hvalue, hencoded⟩, hwritten⟩
    obtain rfl := Except.ok.inj hencoded
    exact ⟨value, hvalue, hwritten⟩
  · rintro ⟨value, hvalue, hwritten⟩
    exact ⟨(entry.1, value), ⟨value, hvalue, rfl⟩, hwritten⟩

/-- **When a snapshot of a collection is taken.** -/
theorem returns_snapshotOf (digest : Canonical → UInt64) (ref : CollectionRef)
    (properties : DynamicPropertyMap) (exists_ : Bool) :
    Returns (snapshotOf digest ref properties exists_) ↔
      Describable ref.target ∧ Holds Encodable Recordable properties := by
  have hsizes : Returns (properties.toList.foldlM addEstimate 0) ↔
      ∀ entry ∈ properties.toList, Encodable entry.1 ∧
        ∀ text, entry.2 = .str text → Encodable text :=
    returns_foldlM fun total entry => by rw [addEstimate, returns_bind_pure, returns_estimateBytes]
  have hentries : Holds Encodable Recordable properties ↔
      ∀ entry ∈ properties.toList, Encodable entry.1 ∧ Recordable entry.2 := by
    constructor
    · intro h entry hmem
      exact h entry.1 entry.2 (ExtTreeMap.mem_toList_iff_getElem?_eq_some.mp hmem)
    · intro h key value hentry
      exact h (key, value) (ExtTreeMap.mem_toList_iff_getElem?_eq_some.mpr hentry)
  have hwritten : (∀ entry ∈ properties.toList, ∀ text, entry.2 = .str text → Encodable text) →
      ((∃ encoded, properties.toList.mapM encodedEntry = .ok encoded ∧
        encoded.forM (fun entry => entry.2.value.forM checkJson) = .ok ()) ↔
          ∀ entry ∈ properties.toList, Recordable entry.2) := fun htext =>
    mapM_forM_eq_ok.trans (forall₂_congr fun entry hmem => encodedEntry_written (htext entry hmem))
  rw [hentries]
  simp only [snapshotOf, returns_bind, returns_pure, and_true]
  constructor
  · rintro ⟨total, htotal, target, htarget, encoded, hencoded, u, hu⟩
    have hall := hsizes.mp ⟨total, htotal⟩
    refine ⟨⟨target, htarget⟩, fun entry hmem => ⟨(hall entry hmem).1, ?_⟩⟩
    exact (hwritten fun entry hmem => (hall entry hmem).2).mp ⟨encoded, hencoded, hu⟩ entry hmem
  · rintro ⟨⟨target, htarget⟩, hall⟩
    obtain ⟨total, htotal⟩ := hsizes.mpr fun entry hmem =>
      ⟨(hall entry hmem).1, (hall entry hmem).2.text⟩
    obtain ⟨encoded, hencoded, hu⟩ := (hwritten fun entry hmem => (hall entry hmem).2.text).mpr
      fun entry hmem => (hall entry hmem).2
    exact ⟨total, htotal, target, htarget, encoded, hencoded, (), hu⟩

/-- What a snapshot holds. -/
theorem snapshotOf_eq {digest : Canonical → UInt64} {ref : CollectionRef}
    {properties : DynamicPropertyMap} {exists_ : Bool} {snapshot : CollectionSnapshot}
    (h : snapshotOf digest ref properties exists_ = .ok snapshot) :
    ∃ byteCount revision, properties.toList.foldlM addEstimate 0 = .ok byteCount ∧
      snapshot = { ref, properties, byteCount, revision, exists_ } := by
  simp only [snapshotOf, bind_eq_ok] at h
  obtain ⟨byteCount, hcount, target, -, encoded, -, u, -, hsnapshot⟩ := h
  exact ⟨byteCount, _, hcount, (Except.ok.inj hsnapshot).symm⟩

theorem snapshotOf_fields {digest : Canonical → UInt64} {ref : CollectionRef}
    {properties : DynamicPropertyMap} {exists_ : Bool} {snapshot : CollectionSnapshot}
    (h : snapshotOf digest ref properties exists_ = .ok snapshot) :
    snapshot.properties = properties ∧ snapshot.exists_ = exists_ := by
  obtain ⟨byteCount, revision, -, rfl⟩ := snapshotOf_eq h
  exact ⟨rfl, rfl⟩

/-! ## Captures -/

/-- A snapshot of the collection can be taken. -/
structure Readable (look : Contents) (ref : CollectionRef) : Prop where
  describable : Describable ref.target
  entries : ∀ values, look ref = some values → Holds Encodable Recordable values

section Captures

variable (digest : Canonical → UInt64) {availability : Availability} {store : Store}
  {ref : CollectionRef}

theorem captureIn_available (h : targetAvailable availability ref.target = true) :
    captureIn digest availability store ref =
      snapshotOf digest ref ((contents store ref).getD ∅) (contents store ref).isSome >>=
        fun snapshot => .ok
          { status := .captured
            message := if (contents store ref).isSome then str "captured"
              else str "collection does not exist"
            snapshot := some snapshot } := by
  simp only [captureIn, h, Bool.not_true, Bool.false_eq_true, if_false]
  cases hlookup : store.lookup ref with
  | none =>
      have hlook : contents store ref = none := hlookup
      simp only [hlook]
      rfl
  | some properties =>
      have hlook : contents store ref = some properties := hlookup
      simp only [hlook]
      rfl

/-- What a capture of a readable collection returns. -/
theorem Readable.capture (havail : targetAvailable availability ref.target = true)
    (h : Readable (contents store) ref) :
    ∃ captured snapshot, captureIn digest availability store ref = .ok captured ∧
      captured.ok = true ∧ captured.snapshot = some snapshot ∧
      snapshot.properties = (contents store ref).getD ∅ ∧
      snapshot.exists_ = (contents store ref).isSome := by
  have hentries : Holds Encodable Recordable ((contents store ref).getD ∅) := by
    cases hlook : contents store ref with
    | none => exact holds_empty
    | some values => exact h.entries values hlook
  obtain ⟨snapshot, hsnapshot⟩ := (returns_snapshotOf digest ref _
    (contents store ref).isSome).mpr ⟨h.describable, hentries⟩
  obtain ⟨hproperties, hexists⟩ := snapshotOf_fields hsnapshot
  rw [captureIn_available digest havail, hsnapshot]
  exact ⟨_, snapshot, rfl, rfl, rfl, hproperties, hexists⟩

variable {digest}

/-- Where a capture on an available target returns, the collection is readable. -/
theorem readable_of_returns (havail : targetAvailable availability ref.target = true)
    (h : Returns (captureIn digest availability store ref)) : Readable (contents store) ref := by
  rw [captureIn_available digest havail, returns_bind] at h
  obtain ⟨snapshot, hsnapshot, -⟩ := h
  obtain ⟨hdescribable, hentries⟩ := (returns_snapshotOf _ _ _ _).mp ⟨snapshot, hsnapshot⟩
  refine ⟨hdescribable, fun values hlook => ?_⟩
  rwa [hlook] at hentries

/-- A capture takes a snapshot of an available target only. -/
theorem available_of_snapshot {captured : CaptureResult} {snapshot : CollectionSnapshot}
    (h : captureIn digest availability store ref = .ok captured)
    (hsnapshot : captured.snapshot = some snapshot) :
    targetAvailable availability ref.target = true := by
  by_contra hnot
  have hunavailable : targetAvailable availability ref.target = false := Bool.eq_false_iff.mpr hnot
  rw [captureIn, hunavailable] at h
  obtain rfl := Except.ok.inj h
  cases hsnapshot

/-- What a snapshot that was taken shows. -/
theorem snapshot_of_captured {captured : CaptureResult} {snapshot : CollectionSnapshot}
    (h : captureIn digest availability store ref = .ok captured)
    (hsnapshot : captured.snapshot = some snapshot) :
    Readable (contents store) ref ∧ snapshot.properties = (contents store ref).getD ∅ ∧
      snapshot.exists_ = (contents store ref).isSome := by
  have havail := available_of_snapshot h hsnapshot
  have hread := readable_of_returns havail ⟨captured, h⟩
  obtain ⟨captured', snapshot', hcapture, -, hsnapshot', hproperties, hexists⟩ :=
    hread.capture digest havail
  obtain rfl := Except.ok.inj (hcapture.symm.trans h)
  obtain rfl := Option.some.inj (hsnapshot'.symm.trans hsnapshot)
  exact ⟨hread, hproperties, hexists⟩

end Captures

/-! ## Applying an operation -/

/-- The revisions a caller may supply with an operation. -/
def suppliedExpectations : Operation → List ExpectedRevision
  | .setProperty entry => [entry.expectedRevision]
  | .setMany entry => [entry.expectedRevision]
  | .removeProperty entry => [entry.expectedRevision]
  | .removeMany entry => [entry.expectedRevision]
  | .clearCollection entry => [entry.expectedRevision]
  | .renameCollection entry => [entry.expectedSourceRevision, entry.expectedDestinationRevision]
  | .transferProperty entry => [entry.expectedSourceRevision, entry.expectedDestinationRevision]
  | .transferCollection entry => [entry.expectedSourceRevision, entry.expectedDestinationRevision]
  | .importCollection entry => [entry.expectedDestinationRevision]

/-- The operation carries no expected revision. -/
def CarriesNoExpectation (operation : Operation) : Prop :=
  ∀ expected ∈ suppliedExpectations operation, expected = none

instance (operation : Operation) : Decidable (CarriesNoExpectation operation) :=
  inferInstanceAs (Decidable (∀ expected ∈ suppliedExpectations operation, expected = none))

/-- A revision that is expected was supplied. -/
theorem expectedRevision_supplied {operation : Operation} {ref : CollectionRef} {expected : Int}
    (h : expectedRevision operation ref = some expected) :
    some expected ∈ suppliedExpectations operation := by
  cases operation <;> simp only [expectedRevision] at h <;> repeat' split at h
  all_goals first
    | cases h
    | simp [suppliedExpectations, h]

theorem CarriesNoExpectation.expectedRevision {operation : Operation}
    (h : CarriesNoExpectation operation) (ref : CollectionRef) :
    expectedRevision operation ref = none := by
  cases hexpected : Python.expectedRevision operation ref with
  | none => rfl
  | some expected => exact absurd (h _ (expectedRevision_supplied hexpected)) (by simp)

section Apply

variable (digest : Canonical → UInt64) {availability : Availability} {store : Store}
  {operation : Operation} (force : Bool)

/-- The first loop passes readable participants on available targets. -/
private theorem checkParticipants_ok (hnone : CarriesNoExpectation operation)
    {refs : List CollectionRef}
    (havail : ∀ ref ∈ refs, targetAvailable availability ref.target = true)
    (hread : ∀ ref ∈ refs, Readable (contents store) ref) (before : List CollectionSnapshot) :
    ∃ taken, checkParticipants digest availability store operation force refs before =
      .ok (.ok taken) := by
  induction refs generalizing before with
  | nil => exact ⟨before, rfl⟩
  | cons ref rest ih =>
      obtain ⟨captured, snapshot, hcapture, hok, hsnapshot, -⟩ :=
        (hread ref List.mem_cons_self).capture digest (havail ref List.mem_cons_self)
      obtain ⟨taken, htaken⟩ := ih (fun r hr => havail r (List.mem_cons_of_mem _ hr))
        (fun r hr => hread r (List.mem_cons_of_mem _ hr)) (before ++ [snapshot])
      refine ⟨taken, ?_⟩
      rw [checkParticipants, hcapture]
      simp only [bind, Except.bind, hok, hsnapshot, hnone.expectedRevision]
      simpa using htaken

/-- **What `_apply` does where nothing raises.**  It reports `Applied` exactly where
the action of the operation takes effect, and then the store is the one the action
leaves. -/
theorem applyIn_spec (hmoves : MovesElsewhere operation) (hnone : CarriesNoExpectation operation)
    (havail : ∀ ref ∈ operationRefs operation, targetAvailable availability ref.target = true)
    (hread : ∀ ref ∈ operationRefs operation, Readable (contents store) ref)
    (hafter : ∀ look, act operation.action (contents store) = some look →
      ∀ ref ∈ operationRefs operation, Readable look ref) :
    (if returnsApplied (applyIn digest availability store operation force).1 then
        some (contents (applyIn digest availability store operation force).2)
      else none) = act operation.action (contents store) := by
  obtain ⟨before, hbefore⟩ := checkParticipants_ok digest force hnone
    (fun ref href => havail ref (List.mem_eraseDups.mp href))
    (fun ref href => hread ref (List.mem_eraseDups.mp href)) []
  have hspec := mutate_spec hmoves store
  rcases hmutate : mutate store operation with ⟨written, _ | failed⟩
  · rw [hmutate] at hspec
    have hact : act operation.action (contents store) = some (contents written) := hspec
    obtain ⟨captures, hcaptures⟩ : Returns ((operationRefs operation).eraseDups.mapM fun ref =>
        captureIn digest availability written ref) := by
      refine returns_mapM.mpr fun ref href => ?_
      have href' := List.mem_eraseDups.mp href
      obtain ⟨captured, snapshot, hcapture, -⟩ :=
        (hafter _ hact ref href').capture digest (havail ref href')
      exact ⟨captured, hcapture⟩
    simp only [applyIn, hbefore, hmutate, hcaptures, hact]
    rfl
  · rw [hmutate] at hspec
    obtain ⟨hact, hstatus, -⟩ := hspec
    simp only [applyIn, hbefore, hmutate, hact]
    simp [returnsApplied, OperationResult.ok, hstatus]

end Apply

end DynamicProperties.Python
