import DynamicProperties.Cpp.Imports
import DynamicProperties.Cpp.Writer

/-!
# Backups

What the service exports it can import again.  The store is legal in every
reachable state, so the exported entries pass every check an import makes of
them, and the codec reads back what it wrote.  Two things an export contains are
never checked when a collection is stored: the text that names its target and
the length of the whole document.
-/

namespace DynamicProperties.Cpp

open Std
open DynamicProperties.Library
open DynamicProperties.Library.Footprint
open DynamicProperties.Library.Pool
open DynamicProperties.Library.Requests
open DynamicProperties.Library.Sequence
open DynamicProperties.Library.TwoRuns

/-! ## What an export contains -/

section Export

variable {service : DynamicPropertyService} {context : AccessContext} {ref : CollectionRef}

theorem captureError_status {error : OperationResult}
    (h : service.captureError ref context = some error) : error.status ≠ .captured := by
  have hreference : ∀ {denied refused}, service.checkReference context ref denied = some refused →
      refused.status ≠ .captured := by
    intro denied refused hrefused
    unfold DynamicPropertyService.checkReference DynamicPropertyService.validateCapability
      at hrefused
    split at hrefused
    next invalid hcapability =>
      cases hrefused
      split at hcapability
      · cases hcapability
        nofun
      · split at hcapability
        · cases hcapability
          nofun
        · cases hcapability
    next =>
      dsimp only at hrefused
      split at hrefused
      · cases hrefused
        nofun
      · split at hrefused
        · cases hrefused
          nofun
        · cases hrefused
  unfold DynamicPropertyService.captureError at h
  cases hcheck : service.checkReference context ref (text "collection access denied") with
  | some refused =>
      rw [hcheck] at h
      cases h
      exact hreference hcheck
  | none =>
      rw [hcheck] at h
      unfold DynamicPropertyService.requireCapability at h
      cases hread : service.capabilities.read with
      | true =>
          rw [hread] at h
          cases h
      | false =>
          rw [hread] at h
          cases h
          nofun

/-- A captured export is the document of a legal reference. -/
theorem returns_exportCollection {format : NumberFormat} {world world' : World}
    {exported : ExportResult}
    (h : Returns (I := serviceInterface) Acts (service.exportCollection format ref context) world
      exported world') (hcaptured : exported.status = .captured) :
    LegalReference service.limits ref ∧
      exported.document = encodeCollectionJson format ref
        ((contents world.adapter.store ref).getD ∅) exported.revision := by
  unfold DynamicPropertyService.exportCollection at h
  split at h
  · obtain ⟨rfl, -⟩ := returns_done h
    cases hcaptured
  obtain ⟨captured, between, hcapture, hrest⟩ := returns_bind h
  unfold DynamicPropertyService.capture at hcapture
  split at hcapture
  next error herror =>
    obtain ⟨rfl, -⟩ := returns_done hcapture
    have hstatus : exported.status = error.status := by
      split at hrest
      next snapshot hok hsnapshot => cases hsnapshot
      next =>
        obtain ⟨rfl, -⟩ := returns_done hrest
        rfl
    exact absurd (hstatus ▸ hcaptured) (captureError_status herror)
  next hlegal =>
    obtain ⟨rfl, rfl⟩ := returns_capture hcapture
    have hreference := (checkReference_none (orElse_eq_none.mp hlegal).1).1
    unfold InMemoryAdapter.capture at hrest
    cases havailable : targetAvailable between.adapter.availability ref.target with
    | false =>
        rw [captureUnlocked_unavailable havailable] at hrest
        obtain ⟨rfl, -⟩ := returns_done hrest
        cases hcaptured
    | true =>
        rw [captureUnlocked_available havailable, captureUnlocked_ok havailable] at hrest
        obtain ⟨rfl, -⟩ := returns_done hrest
        exact ⟨hreference, rfl⟩

end Export

/-! ## The way back -/

theorem encodable_of_legalValue {limits : ValidationLimits} {value : DynamicPropertyValue}
    (h : LegalValue limits value) : Encodable value := by
  unfold LegalValue validateValue at h
  cases value with
  | bool entry => trivial
  | number entry =>
      show entry.isFinite = true
      cases hfinite : entry.isFinite with
      | true => rfl
      | false => simp [hfinite] at h
  | string entry =>
      show Utf8.WellFormed entry
      rw [← isValidUtf8_iff]
      cases hvalid : isValidUtf8 entry with
      | true => rfl
      | false =>
          dsimp only at h
          split at h <;> simp [hvalid] at h
  | vector3 entry =>
      show entry.x.isFinite = true ∧ entry.y.isFinite = true ∧ entry.z.isFinite = true
      dsimp only at h
      split at h
      · cases h
      next hfinite => simpa [and_assoc] using hfinite

theorem wellFormed_of_validName {subject name : ByteString} {limit : Nat}
    (h : (validateName subject limit name).valid = true) : Utf8.WellFormed name :=
  isValidUtf8_iff.mp ((validateName_valid_iff subject limit name).mp h).2.2.2

/-- The entries of one legal collection, or of none. -/
theorem LegalStore.entry {limits : ValidationLimits} {store : Store} (h : LegalStore limits store)
    {ref : CollectionRef} {key : ByteString} {value : DynamicPropertyValue}
    (hget : ((contents store ref).getD ∅)[key]? = some value) :
    LegalKey limits key ∧ LegalValue limits value :=
  ((legalStore_iff.mp h).1 ref).2.getD hget

/-- **What the service exports it can import again.** -/
theorem exported_collection_imports {format : NumberFormat} (hlocale : CLocale format)
    {init : World} {state : State serviceInterface World ServiceCall CallResult}
    (hempty : init.adapter.store = ∅) (hrun : Run (serviceSystem format) init state)
    (hlimits : ∀ c ∈ state.calls, c.job.service.limits = {})
    {service : DynamicPropertyService} (hdefault : service.limits = {})
    (hadapter : service.capabilities = InMemoryAdapter.capabilities) {context : AccessContext}
    {ref : CollectionRef} {exported : ExportResult} {world₁ : World}
    (hexport : Returns (I := serviceInterface) Acts
      (service.exportCollection format ref context) state.world exported world₁)
    (hcaptured : exported.status = .captured)
    (htext : isValidUtf8 (describeTarget ref.target) = true)
    (hsize : exported.document.length ≤ service.limits.maxImportBytes)
    {destination : CollectionRef} {world₂ : World}
    (hunheard : Unheard world₂ service.eventBus)
    (haccess : service.accessPolicy.canAccess context destination = true)
    (hname : (validateCollectionName destination.collection service.limits).valid = true)
    (htarget : validateTarget destination.target = none)
    (havailable : targetAvailable world₂.adapter.availability destination.target = true)
    {imported : OperationResult} {world₃ : World}
    (himport : Returns (I := serviceInterface) Acts
      (service.importCollection format destination exported.document context .replace) world₂
      imported world₃) :
    imported.status = .applied ∧
      world₃.adapter.store[destination]? = some ((state.world.adapter.store[ref]?).getD ∅) := by
  have hlegal : LegalStore service.limits state.world.adapter.store := by
    rw [hdefault]
    refine legalStore_run ?_ hrun hlimits
    rw [hempty]
    exact legalStore_empty {}
  obtain ⟨hreference, hdocument⟩ := returns_exportCollection hexport hcaptured
  have hencodable : EncodableMap ((contents state.world.adapter.store ref).getD ∅) := by
    intro entry hentry
    have hentry := hlegal.entry (ExtTreeMap.mem_toList_iff_getElem?_eq_some.mp hentry)
    exact ⟨wellFormed_of_validName hentry.1, encodable_of_legalValue hentry.2⟩
  have hdecode : decodeCollectionJson format exported.document =
      .ok ((contents state.world.adapter.store ref).getD ∅) := by
    rw [hdocument]
    exact decodeCollectionJson_encode hlocale (isValidUtf8_iff.mp htext)
      (wellFormed_of_validName hreference.2) hencodable exported.revision
  unfold DynamicPropertyService.importCollection at himport
  rw [if_neg (Nat.not_lt.mpr hsize), hdecode] at himport
  have hvalid : service.validateOperation
      (replacement destination ((contents state.world.adapter.store ref).getD ∅)) context =
        none := by
    refine validateOperation_replacement_iff.mpr ⟨?_, ?_, ?_, fun key value hget => ?_⟩
    · have hkind : targetCapability service.capabilities destination.target.kind = true := by
        rw [hadapter]
        cases destination.target.kind <;> rfl
      exact checkReference_eq_none hkind ⟨htarget, hname⟩ haccess
    · rw [hadapter]
      rfl
    · exact (legalStore_iff.mp hlegal).2 ref
    · exact hlegal.entry hget
  obtain ⟨hresult, hstore⟩ := returns_apply hunheard himport
  obtain ⟨happlied, hcontents⟩ := commitApply_replacement havailable hvalid
  refine ⟨hresult ▸ happlied, ?_⟩
  have hheld := congrFun hcontents destination
  rw [Function.update_self] at hheld
  rw [hstore]
  exact hheld

/-- The theorem at a collection that was written, exported and imported under
another name. -/
theorem exported_collection_imports_notes :
    let world := (run respond (writeTitle.program bitsFormat) ({} : World)).2
    let exported := (run respond (DynamicPropertyService.exportCollection {} bitsFormat
      ⟨{}, text "notes"⟩ { rawAdmin := true }) world).1
    let imported := run respond (DynamicPropertyService.importCollection {} bitsFormat
      ⟨{}, text "copy"⟩ exported.document { rawAdmin := true } .replace) world
    world.adapter.store.contains ⟨{}, text "notes"⟩ = true ∧ imported.1.status = .applied ∧
      imported.2.adapter.store[(⟨{}, text "copy"⟩ : CollectionRef)]? =
        some ((world.adapter.store[(⟨{}, text "notes"⟩ : CollectionRef)]?).getD ∅) := by
  intro world exported imported
  have hrun : Run (serviceSystem bitsFormat) ({} : World) _ :=
    Run.alone acts_respond .nil writeTitle
  have hlimits : ∀ c ∈ (State.alone (serviceSystem bitsFormat) respond ⟨{}, []⟩ writeTitle).calls,
      c.job.service.limits = {} := by
    intro c hc
    rw [List.mem_singleton.mp hc]
    rfl
  have hexport := returns_run acts_respond (DynamicPropertyService.exportCollection {} bitsFormat
    ⟨{}, text "notes"⟩ { rawAdmin := true }) world
  have himport := returns_run acts_respond (DynamicPropertyService.importCollection {} bitsFormat
    ⟨{}, text "copy"⟩ exported.document { rawAdmin := true } .replace) world
  exact ⟨by decide +kernel, exported_collection_imports cLocale_bitsFormat rfl hrun hlimits rfl rfl
    hexport (by decide +kernel) (by decide +kernel) (by decide +kernel) (fun _ => rfl) rfl
    (by decide +kernel) rfl (by decide +kernel) himport⟩

/-- In the empty world, the export of `ref` is captured and its import into an
accessible destination is refused. -/
def ImportRefused (ref destination : CollectionRef) : Prop :=
  let admin : AccessContext := { rawAdmin := true }
  let exported := (run respond
    (DynamicPropertyService.exportCollection {} bitsFormat ref admin) ({} : World)).1
  exported.status = .captured ∧
    DynamicPropertyAccessPolicy.canAccess {} admin destination = true ∧
    validateTarget destination.target = none ∧
    (run respond (DynamicPropertyService.importCollection {} bitsFormat destination
      exported.document admin .replace) ({} : World)).1.status ≠ .applied

theorem length_le_escapeJson (value : ByteString) : value.length ≤ (escapeJson value).length := by
  have hbyte : ∀ c, 1 ≤ (escapeByte c).length := by
    intro c
    rw [Nat.succ_le_iff, List.length_pos_iff]
    unfold escapeByte
    repeat' split
    all_goals first | decide | exact List.cons_ne_nil _ _
  induction value with
  | nil => exact Nat.zero_le _
  | cons c rest ih =>
      rw [escapeJson, List.flatMap_cons, List.length_append, List.length_cons, Nat.add_comm]
      exact Nat.add_le_add (hbyte c) ih

/-- An export contains the text of its target. -/
theorem worldId_length_le (format : NumberFormat) (ref : CollectionRef)
    (properties : DynamicPropertyMap) (revision : UInt64) :
    ref.target.worldId.length ≤ (encodeCollectionJson format ref properties revision).length := by
  have htext : ref.target.worldId.length ≤ (describeTarget ref.target).length := by
    unfold describeTarget
    simp only [List.length_append]
    omega
  have hescaped := length_le_escapeJson (describeTarget ref.target)
  unfold encodeCollectionJson quoted
  simp only [List.length_append]
  omega

/-- A world whose identifier alone is longer than an import may be. -/
def vastWorld : CollectionRef := ⟨{ worldId := List.replicate (2 ^ 24 + 1) 0x61 }, text "notes"⟩

/-- An export is refused on the way back for its target's bytes, for its length,
and for a destination without a name. -/
theorem exports_refused :
    ImportRefused ⟨{ worldId := [0xFF] }, text "notes"⟩ ⟨{}, text "notes"⟩ ∧
      ImportRefused vastWorld ⟨{}, text "notes"⟩ ∧
      ImportRefused ⟨{}, text "notes"⟩ ⟨{}, []⟩ := by
  refine ⟨⟨by decide +kernel, rfl, by decide +kernel, by decide +kernel⟩, ?_,
    ⟨by decide +kernel, rfl, by decide +kernel, by decide +kernel⟩⟩
  have hcaptured : (run respond (DynamicPropertyService.exportCollection {} bitsFormat vastWorld
      { rawAdmin := true }) ({} : World)).1.status = .captured := by decide +kernel
  refine ⟨hcaptured, rfl, by decide +kernel, ?_⟩
  have hdocument := (returns_exportCollection (returns_run acts_respond _ ({} : World))
    hcaptured).2
  have hlong : ({} : ValidationLimits).maxImportBytes < (run respond
      (DynamicPropertyService.exportCollection {} bitsFormat vastWorld { rawAdmin := true })
      ({} : World)).1.document.length := by
    have hworld : vastWorld.target.worldId.length = 2 ^ 24 + 1 := List.length_replicate
    rw [hdocument]
    refine Nat.lt_of_lt_of_le ?_ (worldId_length_le bitsFormat vastWorld _ _)
    rw [hworld]
    decide
  unfold DynamicPropertyService.importCollection
  rw [if_pos hlong]
  decide

end DynamicProperties.Cpp
