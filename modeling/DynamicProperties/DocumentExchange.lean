import DynamicProperties.Cpp.Backup
import DynamicProperties.ExportedDocuments

/-!
# Exports that change hands

A collection of any state the services reach is exported, and the document is imported
undisturbed.  What Python exports, Python takes back exactly if it is short enough and
every value in it is restored (`python_exports_return_iff`); C++ takes it if the target,
too, is text (`python_exports_reach_cpp_iff`).  What C++ exports, Python takes whenever it
is short enough (`cpp_exports_reach_python_iff`).
-/

namespace DynamicProperties

open Std
open DynamicProperties.Library
open DynamicProperties.Library.Fallible
open DynamicProperties.Library.Mirror
open DynamicProperties.Library.OrderedMap
open DynamicProperties.Library.Collections (Holds holds_empty)
open DynamicProperties.Library.Pool (State Run)
open DynamicProperties.Python (Interpreter Encoder PyJson PyObject asciiUnits isSurrogate)

/-! ## What an import makes of a collection -/

section Values

variable {interp : Interpreter} {encoder : Encoder} {limits : Python.ValidationLimits}

theorem Rereads.finite (hreversible : Reversible interp encoder) {object : PyObject}
    {number : Cpp.Double} (h : Rereads interp encoder object number) : number.isFinite = true := by
  cases h with
  | float hfinite => exact hfinite
  | int hrange => exact hreversible.ofInt _ hrange
  | other _ _ hfinite => exact hfinite

/-- What is restored of a value that passed the check passes it. -/
theorem validateValue_of_restores (hreversible : Reversible interp encoder)
    {value restored : PyObject} (h : Restores interp encoder value restored)
    (htolerated : Python.Tolerated limits value) :
    Python.validateValue restored limits = .ok none := by
  cases h with
  | bool flag => rfl
  | float hfinite =>
      show Except.ok (if _ then none else _) = _
      rw [if_pos hfinite]
  | str text => exact htolerated.resolve_left nofun
  | vector3 hx hy hz =>
      simp only [Python.validateValue, Python.valueType, Python.allFinite, Python.isFinite,
        hx.finite hreversible, hy.finite hreversible, hz.finite hreversible, ok_bind, if_true]
      rfl

/-- Both hold the same keys, one what is restored of the values of the other. -/
def RestoredAs (interp : Interpreter) (encoder : Encoder)
    (properties restored : Python.DynamicPropertyMap) : Prop :=
  ∀ key : Python.Str, Option.Rel (Restores interp encoder) properties[key]? restored[key]?

theorem restoredAs_toDict {properties : Python.DynamicPropertyMap}
    {mapping : Python.PropertyMapping}
    (h : List.Forall₂ (EntriesRelated Eq (Restores interp encoder)) properties.toList
      mapping.items) : RestoredAs interp encoder properties mapping.toDict := by
  intro key
  cases hstored : properties[key]? with
  | some value =>
      obtain ⟨⟨key', restored⟩, hmem, hkey, hrestores⟩ :=
        exists_partner h (ExtTreeMap.mem_toList_iff_getElem?_eq_some.mpr hstored)
      obtain rfl : key = key' := hkey
      rw [show mapping.toDict[key]? = some restored from
        getElem?_insertEntries_of_mem mapping.distinct hmem]
      exact .some hrestores
  | none =>
      cases hheld : mapping.toDict[key]? with
      | none => exact .none
      | some restored =>
          rcases entry_of_insertEntries hheld with hempty | hmem
          · rw [ExtTreeMap.getElem?_empty] at hempty
            cases hempty
          · obtain ⟨⟨key', value⟩, hentry, hkey, -⟩ := exists_partner h.flip hmem
            obtain rfl : key' = key := hkey
            cases hstored.symm.trans (ExtTreeMap.mem_toList_iff_getElem?_eq_some.mp hentry)

/-- All entries are restored, or there is no mapping of them. -/
theorem exists_mapping_iff {properties : Python.DynamicPropertyMap} :
    (∃ mapping : Python.PropertyMapping,
      List.Forall₂ (EntriesRelated Eq (Restores interp encoder)) properties.toList mapping.items) ↔
        ∀ (key : Python.Str) value, properties[key]? = some value →
          ∃ restored, Restores interp encoder value restored := by
  constructor
  · rintro ⟨mapping, h⟩ key value hstored
    obtain ⟨entry, -, -, hrestores⟩ :=
      exists_partner h (ExtTreeMap.mem_toList_iff_getElem?_eq_some.mpr hstored)
    exact ⟨entry.2, hrestores⟩
  · intro h
    obtain ⟨items, hitems⟩ := exists_forall₂ (l := properties.toList)
      (r := EntriesRelated Eq (Restores interp encoder)) fun entry hentry => by
        obtain ⟨restored, hrestores⟩ :=
          h entry.1 entry.2 (ExtTreeMap.mem_toList_iff_getElem?_eq_some.mp hentry)
        exact ⟨(entry.1, restored), rfl, hrestores⟩
    exact ⟨⟨items, keys_eq hitems ▸ nodup_of_sorted ExtTreeMap.ordered_keys_toList⟩, hitems⟩

/-- A collection within the limits, which an export has written down. -/
structure Exported (limits : Python.ValidationLimits) (properties : Python.DynamicPropertyMap) :
    Prop where
  count : (properties.size : Int) ≤ limits.maxPropertiesPerCollection
  entries : Holds (Python.LegalKey limits) (Python.Tolerated limits) properties
  plain : Holds Python.Encodable Python.Recordable properties

/-- **Which mappings are imported from an export.** -/
theorem importable_export_iff (hreversible : Reversible interp encoder)
    {ref : Python.CollectionRef} {snapshot : Python.CollectionSnapshot} {document : Python.Str}
    (hexport : encoder.exportDocument interp ref snapshot = .ok document)
    (hexported : Exported limits snapshot.properties) {mapping : Python.PropertyMapping} :
    Python.Importable interp limits document mapping ↔
      document.length ≤ limits.maxImportBytes ∧
        List.Forall₂ (EntriesRelated Eq (Restores interp encoder)) snapshot.properties.toList
          mapping.items := by
  have hplain : ∀ entry ∈ snapshot.properties.toList, Python.Encodable entry.1 ∧
      Python.Recordable entry.2 := fun entry hentry =>
    hexported.plain entry.1 entry.2 (ExtTreeMap.mem_toList_iff_getElem?_eq_some.mp hentry)
  have hdecode := @decodeDocument_export interp encoder hreversible ref snapshot document hexport
    (fun entry hentry => (hplain entry hentry).1)
    (fun entry hentry text heq => by
      have hrecordable := (hplain entry hentry).2
      rw [heq] at hrecordable
      exact hrecordable) limits mapping
  constructor
  · exact fun h => hdecode.mp h.decoded
  · rintro ⟨hsize, hrestored⟩
    refine ⟨hdecode.mpr ⟨hsize, hrestored⟩, ?_, fun entry hentry => ?_⟩
    · rw [← hrestored.length_eq, ExtTreeMap.length_toList]
      exact hexported.count
    · obtain ⟨⟨key, value⟩, hmem, hkey, hrestores⟩ := exists_partner hrestored.flip hentry
      obtain ⟨hlegal, htolerated⟩ :=
        hexported.entries key value (ExtTreeMap.mem_toList_iff_getElem?_eq_some.mp hmem)
      obtain rfl : key = entry.1 := hkey
      exact ⟨hlegal, validateValue_of_restores hreversible hrestores htolerated⟩

end Values

/-! ## What C++ takes of an export of Python -/

section Strict

variable {interp : Interpreter} {encoder : Encoder} {format : Cpp.NumberFormat}

theorem paired_asciiUnits {text : Python.Str} :
    Json.Paired (asciiUnits text) ↔ Json.SurrogatesPaired (text.map Fin.val) :=
  Json.paired_escapedAll Python.asciiPoint (asciiUnits_bound text)

theorem paired_of_encodable {text : Python.Str} (h : Python.Encodable text) :
    Json.Paired (asciiUnits text) := by
  refine paired_asciiUnits.mpr (Json.surrogatesPaired_of_plain ?_)
  refine List.forall_mem_map.mpr fun c hc => ?_
  have hplain : isSurrogate c = false := Bool.eq_false_iff.mpr (List.any_eq_false.mp h c hc)
  simp only [isSurrogate, Bool.and_eq_false_iff, decide_eq_false_iff_not] at hplain
  simp only [Json.IsHigh, Json.IsLow]
  omega

/-- What C++ asks of a tree. -/
abbrev StrictTree (format : Cpp.NumberFormat) (tree : Python.Tree) : Prop :=
  tree.Built (fun digits => Json.NumberLiteral digits ∧ Cpp.FiniteLiteral format digits) Json.Paired

theorem strict_iff {tree : Python.Tree} : Strict format tree ↔ StrictTree format tree :=
  ⟨fun h => ⟨h.numbers, h.paired⟩, fun h => ⟨h.numbers, h.literals⟩⟩

/-- Only the text of a number is read as something that has a float. -/
theorem exists_number_of_toFloat {tree : Python.Tree} {value : PyJson} {number : Cpp.Double}
    (hread : interp.read tree = some value) (hfloat : interp.toFloat value = .ok number) :
    ∃ digits, tree = .number digits ∧ interp.readNumber digits = value := by
  cases tree with
  | null | bool | string =>
      cases hread
      cases hfloat
  | array elements =>
      obtain ⟨values, -, rfl⟩ := Option.map_eq_some_iff.mp hread
      cases hfloat
  | object members =>
      obtain ⟨items, -, hdict⟩ := Option.bind_eq_some_iff.mp hread
      split at hdict
      · obtain rfl := Option.some.inj hdict
        cases hfloat
      · cases hdict
  | number digits => exact ⟨digits, rfl, Option.some.inj hread⟩

/-- The words for what is not finite. -/
theorem readNumber_word {word : Cpp.ByteString} (h : word ∈ [Python.nanLiteral,
    Python.infinityLiteral, 0x2D :: Python.infinityLiteral]) :
    ∃ value : Cpp.Double, interp.readNumber word = .float value ∧ value.isFinite = false := by
  revert word
  simp only [List.forall_mem_cons, List.not_mem_nil, false_implies, implies_true, and_true]
  exact ⟨⟨Python.nan, rfl, rfl⟩, ⟨Python.infinity, rfl, rfl⟩, ⟨Python.negativeInfinity, rfl, rfl⟩⟩

/-- What Python reads as a finite number, C++ reads as one. -/
theorem strict_of_finite (hconvert : ConvertAlike interp format) {tree : Python.Tree}
    (htree : Exportable interp tree) {value : PyJson} {number : Cpp.Double}
    (hread : interp.read tree = some value) (hfloat : interp.toFloat value = .ok number)
    (hfinite : number.isFinite = true) : StrictTree format tree := by
  obtain ⟨digits, rfl, hvalue⟩ := exists_number_of_toFloat hread hfloat
  refine Json.built_number.mpr ?_
  rcases Json.built_number.mp htree with ⟨hliteral, -⟩ | hword
  · refine ⟨hliteral, hconvert.whole digits hliteral, ?_⟩
    rw [readNumber_literal interp hliteral] at hvalue
    cases hinteger : Python.isInteger digits with
    | true =>
        rw [if_pos hinteger] at hvalue
        obtain rfl := hvalue
        exact (hconvert.range digits hliteral hinteger).mpr (toFloat_int.mp hfloat).1
    | false =>
        rw [hinteger, if_neg Bool.false_ne_true] at hvalue
        obtain rfl := hvalue
        obtain rfl := Except.ok.inj hfloat
        rw [← hconvert.float digits hliteral hinteger]
        exact hfinite
  · obtain ⟨written, hwritten, hinfinite⟩ := readNumber_word hword
    obtain rfl := hvalue.symm.trans hwritten
    obtain rfl := Except.ok.inj hfloat
    cases hinfinite.symm.trans hfinite

theorem strict_of_rereads (hreversible : Reversible interp encoder)
    (hconvert : ConvertAlike interp format) {object : PyObject} {number : Cpp.Double}
    (h : Rereads interp encoder object number) {tree : Python.Tree}
    (htree : encoder.objectTree object = .ok tree) : StrictTree format tree := by
  obtain ⟨value, hread, hfloat, hfinite⟩ := (rereads_iff hreversible htree).mpr h
  exact strict_of_finite hconvert (exportable_objectTree hreversible htree) hread hfloat hfinite

/-- The numbers of a value that is restored are read again. -/
theorem Restores.numbers {value restored : PyObject} (h : Restores interp encoder value restored) :
    ∀ object ∈ numbersOf value, ∃ number, Rereads interp encoder object number := by
  cases h with
  | bool | str => exact fun _ hmem => absurd hmem List.not_mem_nil
  | float hfinite => exact List.forall_mem_singleton.mpr ⟨_, .float hfinite⟩
  | vector3 hx hy hz =>
      simp only [numbersOf, List.forall_mem_cons, List.not_mem_nil, false_implies, implies_true,
        and_true]
      exact ⟨⟨_, hx⟩, ⟨_, hy⟩, ⟨_, hz⟩⟩

theorem pow_le_pow_sub_pow {k low high : Nat} (hk : k < high) (hlow : low < high) :
    2 ^ k ≤ 2 ^ high - 2 ^ low := by
  obtain ⟨half, rfl⟩ : ∃ half, high = half + 1 := ⟨high - 1, by omega⟩
  have hfirst : 2 ^ k ≤ 2 ^ half := Nat.pow_le_pow_right (by decide) (by omega)
  have hsecond : 2 ^ low ≤ 2 ^ half := Nat.pow_le_pow_right (by decide) (by omega)
  rw [Nat.pow_succ]
  omega

theorem toNat_lt_integerRange (n : UInt64) : (n.toNat : Int).natAbs < integerRange :=
  Nat.lt_of_lt_of_le n.toNat_lt (pow_le_pow_sub_pow (by decide) (by decide))

/-- **Which exports of Python C++ does not object to.**  The target alone decides, where
the values are restored. -/
theorem strict_export_iff (hreversible : Reversible interp encoder)
    (hconvert : ConvertAlike interp format) {ref : Python.CollectionRef} {target : Python.Str}
    (hcollection : Python.Encodable ref.collection) {revision : UInt64}
    {revisionTree : Python.Tree}
    (hrevision : encoder.objectTree (.int revision.toNat) = .ok revisionTree)
    {entries : List (Python.Str × PyObject)} {properties : List (Python.Str × Python.Tree)}
    (hproperties : List.Forall₂ (EntriesRelated Eq encoder.Writes) entries properties)
    (hplain : ∀ entry ∈ entries, Python.Encodable entry.1 ∧ Python.Recordable entry.2)
    (hrestored : ∀ entry ∈ entries, ∃ restored, Restores interp encoder entry.2 restored) :
    Strict format (Encoder.exportTree ref target revisionTree properties) ↔
      Json.SurrogatesPaired (target.map Fin.val) := by
  have hitems : ∀ item ∈ properties,
      Json.Paired (asciiUnits item.1) ∧ StrictTree format item.2 := by
    intro item hitem
    obtain ⟨entry, hentry, hkey, hwrites⟩ := exists_partner hproperties.flip hitem
    obtain ⟨hplainKey, hrecordable⟩ := hplain entry hentry
    obtain ⟨restored, hrestores⟩ := hrestored entry hentry
    refine ⟨hkey ▸ paired_of_encodable hplainKey,
      built_of_writes (fun _ => paired_of_encodable) hwrites (fun text heq => ?_) ?_⟩
    · rw [heq] at hrecordable
      exact paired_of_encodable hrecordable
    · intro object hobject tree htree
      obtain ⟨number, hrereads⟩ := hrestores.numbers object hobject
      exact strict_of_rereads hreversible hconvert hrereads htree
  have hfinite : StrictTree format revisionTree :=
    strict_of_rereads hreversible hconvert (.int (toNat_lt_integerRange revision)) hrevision
  have hone : Json.NumberLiteral (Cpp.text "1") ∧ Cpp.FiniteLiteral format (Cpp.text "1") := by
    have hrange : (1 : Int).natAbs < integerRange := toNat_lt_integerRange 1
    exact Json.built_number.mp (strict_of_finite hconvert
      (Json.built_number.mpr (@number_int interp hreversible.intDigits 1 (by decide)))
      (read_int 1) (toFloat_int.mpr ⟨hrange, rfl⟩) (hreversible.ofInt 1 hrange))
  have hplainText : ∀ text, Python.Encodable text → Json.Paired (asciiUnits text) :=
    fun _ => paired_of_encodable
  rw [strict_iff, StrictTree, built_exportTree hplainText]
  constructor
  · exact fun h => paired_asciiUnits.mp h.2.2.2.2
  · exact fun h => ⟨paired_of_encodable hcollection, hitems, hfinite, hone, paired_asciiUnits.mpr h⟩

end Strict

/-! ## Imports that nothing disturbs -/

/-- Nobody listens, and the checks in front of the document pass. -/
structure Python.Receptive (service : Python.DynamicPropertyService)
    (context : Python.AccessContext) (destination : Python.CollectionRef)
    (world : Python.World) : Prop where
  unheard : Python.Unheard world service.eventBus
  readable : Python.Readable (Python.contents world.adapter.store) destination
  reference : service.validateRef context destination = .ok ()
  capable : service.capabilities.exportImport = true

@[inherit_doc Python.Receptive]
structure Cpp.Receptive (service : Cpp.DynamicPropertyService) (context : Cpp.AccessContext)
    (destination : Cpp.CollectionRef) (world : Cpp.World) : Prop where
  unheard : Cpp.Unheard world service.eventBus
  reference : service.validateReference context destination = none
  capable : service.capabilities.exportImport = true

/-- Every value of the collection is restored. -/
def Restorable (interp : Interpreter) (encoder : Encoder) (properties : Python.DynamicPropertyMap) :
    Prop :=
  ∀ (key : Python.Str) value, properties[key]? = some value →
    ∃ restored, Restores interp encoder value restored

theorem encodable_of_validateName {subject : String} {limit : Int} {name : Python.Str}
    (h : Python.validateName subject limit name = none) : Python.Encodable name := by
  rw [← Python.returns_encodeUtf8]
  unfold Python.validateName at h
  split at h
  · cases h
  · split at h
    · cases h
    · split at h
      next => cases h
      next encoded hencoded => exact ⟨encoded, hencoded⟩

section Python

variable {digest : Python.Canonical → UInt64} {interp : Interpreter} {encoder : Encoder}
  {init : Python.World} {limits : Python.ValidationLimits}
  {state : State Python.serviceInterface Python.World Python.ServiceCall
    (Except Python.PyError Python.CallResult)}
  {exporter service : Python.DynamicPropertyService} {context context' : Python.AccessContext}
  {ref destination : Python.CollectionRef} {exported : Python.ExportResult}
  {world₁ world₂ world₃ : Python.World} {outcome : Except Python.PyError Python.OperationResult}

/-- A captured export of a state the services reach has the collection in it, within their
limits. -/
theorem exported_of_run
    (hrun : Run (Python.serviceSystem digest interp) init state)
    (hempty : init.adapter.store = ∅)
    (hlimits : ∀ c ∈ state.calls, c.job.service.limits = limits)
    (hlimit : 0 ≤ limits.maxPropertiesPerCollection)
    (hexport : TwoRuns.Returns (I := Python.serviceInterface) (Python.Acts digest)
      (exporter.exportCollection interp encoder ref context).run state.world (.ok exported) world₁)
    (hcaptured : exported.status = .captured) :
    Python.Encodable ref.collection ∧ ∃ snapshot,
      snapshot.properties = (Python.contents state.world.adapter.store ref).getD ∅ ∧
      Exported limits snapshot.properties ∧
      (∃ revision : UInt64, snapshot.revision = (revision.toNat : Int)) ∧
      encoder.exportDocument interp ref snapshot = .ok exported.document := by
  obtain ⟨hlegal, hread, snapshot, hproperties, hrevision, hdocument⟩ :=
    Python.returns_exportCollection hexport hcaptured
  refine ⟨encodable_of_validateName hlegal.name, snapshot, hproperties, ?_, hrevision, hdocument⟩
  rw [hproperties]
  cases hstored : Python.contents state.world.adapter.store ref with
  | none => exact ⟨by simpa using hlimit, holds_empty, holds_empty⟩
  | some properties =>
      have hwithin := Python.stores_within_limits hrun hempty hlimits hstored
      exact ⟨hwithin.count, hwithin.entries, hread.entries properties hstored⟩

/-- **What an export of Python is worth to Python.**  Services with equal limits over one
adapter that starts empty, in any interleaving and whatever values they write: a captured
export is imported exactly if the target is available, the document short enough, and every
value restored; and what is imported is what is restored. -/
theorem python_exports_return_iff (hreversible : Reversible interp encoder)
    (hrun : Run (Python.serviceSystem digest interp) init state)
    (hempty : init.adapter.store = ∅)
    (hlimits : ∀ c ∈ state.calls, c.job.service.limits = service.limits)
    (hlimit : 0 ≤ service.limits.maxPropertiesPerCollection)
    (hexport : TwoRuns.Returns (I := Python.serviceInterface) (Python.Acts digest)
      (exporter.exportCollection interp encoder ref context).run state.world (.ok exported) world₁)
    (hcaptured : exported.status = .captured)
    (hreceptive : Python.Receptive service context' destination world₂)
    (himport : TwoRuns.Returns (I := Python.serviceInterface) (Python.Acts digest)
      (service.importCollection interp destination exported.document context' .replace).run world₂
      outcome world₃) :
    (Python.returnsApplied outcome = true ↔
      Python.targetAvailable world₂.adapter.availability destination.target = true ∧
        exported.document.length ≤ service.limits.maxImportBytes ∧
        Restorable interp encoder ((Python.contents state.world.adapter.store ref).getD ∅)) ∧
    (Python.returnsApplied outcome = true →
      ∃ imported, Python.contents world₃.adapter.store destination = some imported ∧
        RestoredAs interp encoder ((Python.contents state.world.adapter.store ref).getD ∅)
          imported) := by
  obtain ⟨-, snapshot, hproperties, hexported, -, hdocument⟩ :=
    exported_of_run hrun hempty hlimits hlimit hexport hcaptured
  obtain ⟨happlied, hcontents⟩ := Python.returns_importCollection hreceptive.unheard
    hreceptive.readable hreceptive.reference hreceptive.capable himport
  have himportable := fun mapping =>
    @importable_export_iff interp encoder service.limits hreversible ref snapshot exported.document
      hdocument hexported mapping
  rw [← hproperties]
  have hboth : (∃ mapping, Python.Importable interp service.limits exported.document mapping) ↔
      exported.document.length ≤ service.limits.maxImportBytes ∧
        Restorable interp encoder snapshot.properties := by
    simp only [himportable, exists_and_left, exists_mapping_iff]
    rfl
  rw [happlied, hboth]
  refine ⟨Iff.rfl, fun ⟨havailable, hdecodes⟩ => ?_⟩
  obtain ⟨mapping, hmapping⟩ := hboth.mpr hdecodes
  refine ⟨mapping.toDict, ?_, restoredAs_toDict ((himportable mapping).mp hmapping).2⟩
  rw [hcontents havailable mapping hmapping, Function.update_self]

end Python

/-! ## Exports that cross over -/

/-- The description of the target is text: its surrogates stand in pairs. -/
def TextualTarget (target : Python.DynamicPropertyTarget) : Prop :=
  ∃ description, Python.describeTarget target = .ok description ∧
    Json.SurrogatesPaired (description.map Fin.val)

section Cpp

variable {format : Cpp.NumberFormat} {service : Cpp.DynamicPropertyService}
  {context : Cpp.AccessContext} {destination : Cpp.CollectionRef} {octets : Cpp.ByteString}
  {world world' : Cpp.World} {result : Cpp.OperationResult}

/-- A document that is too long is not looked at. -/
theorem Cpp.Receptive.imports (hreceptive : Cpp.Receptive service context destination world)
    (h : TwoRuns.Returns (I := Cpp.serviceInterface) Cpp.Acts
      (service.importCollection format destination octets context .replace) world result world') :
    (result.status = .applied ↔
      Cpp.targetAvailable world.adapter.availability destination.target = true ∧
        octets.length ≤ service.limits.maxImportBytes ∧
        ∃ properties, Cpp.Importable format service.limits octets properties) ∧
    (result.status = .applied →
      ∀ properties, Cpp.Importable format service.limits octets properties →
        Cpp.contents world'.adapter.store destination = some properties) := by
  by_cases hsize : octets.length ≤ service.limits.maxImportBytes
  · obtain ⟨happlied, hcontents⟩ := Cpp.returns_importCollection hreceptive.unheard
      hreceptive.reference hreceptive.capable hsize h
    refine ⟨?_, fun happly properties himport => ?_⟩
    · rw [happlied, and_iff_right hsize]
    · rw [hcontents (happlied.mp happly).1 properties himport, Function.update_self]
  · have hrefused : result.status ≠ .applied := by
      unfold Cpp.DynamicPropertyService.importCollection at h
      rw [if_pos (Nat.not_le.mp hsize)] at h
      obtain ⟨rfl, -⟩ := TwoRuns.returns_done h
      nofun
    exact ⟨iff_of_false hrefused fun h => hsize h.2.1, fun happly => absurd happly hrefused⟩

end Cpp

section Across

variable {digest : Python.Canonical → UInt64} {interp : Interpreter} {encoder : Encoder}
  {format : Cpp.NumberFormat} {limits : Python.ValidationLimits}
  {limits' : Cpp.ValidationLimits}

/-- The schema of an export is the integer. -/
theorem schema_of_exportedRoot {ref : Python.CollectionRef} {target : Python.Str} {revision : Int}
    {items found fields : List (Python.Str × PyJson)} {schema : PyJson}
    (hroot : PyJson.dict fields = exportedRoot ref target revision items)
    (h : Python.ImportRoot fields found schema) : schema = .int 1 := by
  obtain rfl := PyJson.dict.inj hroot
  exact (Option.some.inj h.found).symm

/-- Python forgives an export it imports where the target is no text. -/
theorem forgiven_export_iff (hreversible : Reversible interp encoder)
    (hconvert : ConvertAlike interp format) {ref : Python.CollectionRef}
    {snapshot : Python.CollectionSnapshot} {document : Python.Str}
    (hexport : encoder.exportDocument interp ref snapshot = .ok document)
    (hcollection : Python.Encodable ref.collection)
    (hexported : Exported limits snapshot.properties) {revision : UInt64}
    (hrevision : snapshot.revision = (revision.toNat : Int)) {mapping : Python.PropertyMapping}
    (himport : Python.Importable interp limits document mapping) :
    Forgiven interp format limits document ↔ ¬ TextualTarget ref.target := by
  obtain ⟨hsize, hrestored⟩ := (importable_export_iff hreversible hexport hexported).mp himport
  obtain ⟨target, properties, revisionTree, htarget, hproperties, hwritten, rfl⟩ :=
    Python.exportDocument_writes hexport
  obtain ⟨htext, octets, hencode, hlength⟩ :=
    isText_export hreversible ref target hwritten hproperties
  have hplain : ∀ entry ∈ snapshot.properties.toList, Python.Encodable entry.1 ∧
      Python.Recordable entry.2 := fun entry hentry =>
    hexported.plain entry.1 entry.2 (ExtTreeMap.mem_toList_iff_getElem?_eq_some.mp hentry)
  have hvalues : ∀ entry ∈ snapshot.properties.toList,
      ∃ restored, Restores interp encoder entry.2 restored := by
    intro entry hentry
    obtain ⟨partner, -, -, hrestores⟩ := exists_partner hrestored hentry
    exact ⟨partner.2, hrestores⟩
  have hstrict : Strict format (Encoder.exportTree ref target revisionTree properties) ↔
      TextualTarget ref.target := by
    rw [hrevision] at hwritten
    rw [strict_export_iff hreversible hconvert hcollection hwritten hproperties hplain hvalues]
    constructor
    · exact fun hpaired => ⟨target, htarget, hpaired⟩
    · rintro ⟨target', htarget', hpaired⟩
      obtain rfl := Except.ok.inj (htarget.symm.trans htarget')
      exact hpaired
  obtain ⟨tree, schema, hdocument⟩ :=
    (importable_iff hencode (hlength ▸ hsize)).mp ⟨mapping, himport⟩
  rw [← hstrict]
  constructor
  · rintro ⟨tree', schema', hdocument', hforgiven⟩
    obtain ⟨fields, items, hread, hroot, -⟩ := hdocument'.root
    obtain rfl := hdocument'.text.unique (lexical_python interp) htext
    obtain ⟨hnames, hkeys⟩ := keys_written hproperties
      (nodup_of_sorted ExtTreeMap.ordered_keys_toList) fun entry hentry => (hplain entry hentry).1
    obtain ⟨values, -, hvalue⟩ := (read_exportTree ref target hwritten hkeys hnames).mp hread
    refine hforgiven.resolve_left fun htrue => ?_
    cases htrue.symm.trans (schema_of_exportedRoot hvalue hroot)
  · obtain rfl := hdocument.text.unique (lexical_python interp) htext
    exact fun hnot => ⟨_, schema, hdocument, .inr hnot⟩

/-- C++ imports an export of Python wherever Python does and its target is text. -/
theorem importable_export_cpp_iff (hreversible : Reversible interp encoder)
    (hconvert : ConvertAlike interp format) (hlimits : LimitsAlike limits limits')
    {ref : Python.CollectionRef} {snapshot : Python.CollectionSnapshot} {document : Python.Str}
    {octets : Cpp.ByteString} (hexport : encoder.exportDocument interp ref snapshot = .ok document)
    (hcollection : Python.Encodable ref.collection)
    (hexported : Exported limits snapshot.properties) {revision : UInt64}
    (hrevision : snapshot.revision = (revision.toNat : Int))
    (hencode : Python.encodeUtf8 document = .ok octets)
    (hsize : octets.length ≤ limits'.maxImportBytes) :
    (∃ properties, Cpp.Importable format limits' octets properties) ↔
      (∃ mapping, Python.Importable interp limits document mapping) ∧
        TextualTarget ref.target := by
  have hforgiven := fun mapping => @forgiven_export_iff interp encoder format limits hreversible
    hconvert ref snapshot document hexport hcollection hexported revision hrevision mapping
  have hsize' : (octets.length : Int) ≤ limits.maxImportBytes :=
    hlimits.importBytes_iff.mpr hsize
  constructor
  · rintro ⟨properties, hproperties⟩
    obtain ⟨mapping, hmapping, -, hstrict⟩ :=
      importable_of_cpp hconvert hlimits hencode hsize' hproperties
    refine ⟨⟨mapping, hmapping⟩, by_contra fun hnot => ?_⟩
    exact hstrict ((hforgiven mapping hmapping).mpr hnot)
  · rintro ⟨⟨mapping, hmapping⟩, htarget⟩
    obtain ⟨properties, hproperties, -⟩ := importable_of_python hconvert hlimits hencode hmapping
      fun hforgives => (hforgiven mapping hmapping).mp hforgives htarget
    exact ⟨properties, hproperties⟩

variable {init : Python.World}
  {state : State Python.serviceInterface Python.World Python.ServiceCall
    (Except Python.PyError Python.CallResult)}
  {exporter : Python.DynamicPropertyService} {context : Python.AccessContext}
  {ref : Python.CollectionRef} {exported : Python.ExportResult} {world₁ : Python.World}
  {service' : Cpp.DynamicPropertyService} {context' : Cpp.AccessContext}
  {destination' : Cpp.CollectionRef} {world₂ : Cpp.World}

/-- **What an export of Python is worth to C++.**  A captured export of any state the
services reach is a document in UTF-8, as many octets as it has characters; C++ imports it
exactly if its target is available, the document short enough, every value restored, and
the exported target text; and what is imported equals what is restored. -/
theorem python_exports_reach_cpp_iff (hreversible : Reversible interp encoder)
    (hconvert : ConvertAlike interp format) (halike : LimitsAlike limits service'.limits)
    (hrun : Run (Python.serviceSystem digest interp) init state)
    (hempty : init.adapter.store = ∅)
    (hlimits : ∀ c ∈ state.calls, c.job.service.limits = limits)
    (hexport : TwoRuns.Returns (I := Python.serviceInterface) (Python.Acts digest)
      (exporter.exportCollection interp encoder ref context).run state.world (.ok exported) world₁)
    (hcaptured : exported.status = .captured)
    (hreceptive : Cpp.Receptive service' context' destination' world₂) :
    ∃ octets, Python.encodeUtf8 exported.document = .ok octets ∧
      octets.length = exported.document.length ∧
      ∀ result world₃, TwoRuns.Returns (I := Cpp.serviceInterface) Cpp.Acts
        (service'.importCollection format destination' octets context' .replace) world₂ result
          world₃ →
        (result.status = .applied ↔
          Cpp.targetAvailable world₂.adapter.availability destination'.target = true ∧
            octets.length ≤ service'.limits.maxImportBytes ∧
            Restorable interp encoder ((Python.contents state.world.adapter.store ref).getD ∅) ∧
            TextualTarget ref.target) ∧
        (result.status = .applied → ∃ restored imported,
          RestoredAs interp encoder ((Python.contents state.world.adapter.store ref).getD ∅)
            restored ∧
          PropertiesEqual restored imported ∧
          Cpp.contents world₃.adapter.store destination' = some imported) := by
  have hlimit : 0 ≤ limits.maxPropertiesPerCollection := by
    rw [halike.maxPropertiesPerCollection]
    exact Int.natCast_nonneg _
  obtain ⟨hcollection, snapshot, hproperties, hexported, ⟨revision, hrevision⟩, hdocument⟩ :=
    exported_of_run hrun hempty hlimits hlimit hexport hcaptured
  obtain ⟨target, properties, revisionTree, -, hwritten, hrevisionTree, hsame⟩ :=
    Python.exportDocument_writes hdocument
  obtain ⟨-, octets, hencode, hlength⟩ :=
    isText_export hreversible ref target hrevisionTree hwritten
  rw [← hsame] at hencode hlength
  refine ⟨octets, hencode, hlength, fun result world₃ himport => ?_⟩
  obtain ⟨happlied, hcontents⟩ := hreceptive.imports himport
  have himportable := fun mapping =>
    @importable_export_iff interp encoder limits hreversible ref snapshot exported.document
      hdocument hexported mapping
  have hcpp : octets.length ≤ service'.limits.maxImportBytes →
      ((∃ properties, Cpp.Importable format service'.limits octets properties) ↔
        Restorable interp encoder snapshot.properties ∧ TextualTarget ref.target) := by
    intro hsize
    have hsize' : (exported.document.length : Int) ≤ limits.maxImportBytes := by
      rw [← hlength]
      exact halike.importBytes_iff.mpr hsize
    rw [importable_export_cpp_iff hreversible hconvert halike hdocument hcollection hexported
      hrevision hencode hsize]
    simp only [himportable, exists_mapping_iff, hsize', true_and]
    rfl
  rw [← hproperties]
  constructor
  · rw [happlied]
    exact and_congr_right fun _ => and_congr_right hcpp
  · intro happly
    obtain ⟨-, hsize, imported, himported⟩ := happlied.mp happly
    have hsize' : (octets.length : Int) ≤ limits.maxImportBytes :=
      halike.importBytes_iff.mpr hsize
    obtain ⟨mapping, hmapping, hequal, -⟩ :=
      importable_of_cpp hconvert halike hencode hsize' himported
    exact ⟨mapping.toDict, imported, restoredAs_toDict ((himportable mapping).mp hmapping).2,
      hequal.propertiesEqual, hcontents happly imported himported⟩

end Across

/-! ## What Python takes of an export of C++ -/

section Cpp

variable {format : Cpp.NumberFormat}

theorem wellFormed_quoted {value : Cpp.ByteString} (h : Utf8.WellFormed value) :
    Utf8.WellFormed (Cpp.quoted value) := by
  have hinside : Utf8.WellFormed (Cpp.escapeJson value) :=
    Cpp.spellUnits_unitsOf value ▸ Cpp.wellFormed_unitsOf h
  exact ((Cpp.wellFormed_text "\"").append hinside).append (Cpp.wellFormed_text "\"")

theorem wellFormed_field (name : String) : Utf8.WellFormed (Cpp.field name) :=
  (wellFormed_quoted (Cpp.wellFormed_text name)).append (Cpp.wellFormed_text ":")

theorem wellFormed_number {digits : Cpp.ByteString} (h : Json.NumberLiteral digits) :
    Utf8.WellFormed digits :=
  Utf8.wellFormed_ascii fun octet hoctet => UInt8.lt_iff_toNat_lt.mp (h.ascii octet hoctet)

theorem wellFormed_encodeValue (hlocale : Cpp.CLocale format) {value : Cpp.DynamicPropertyValue}
    (h : Cpp.Encodable value) : Utf8.WellFormed (Cpp.encodeValue format value) := by
  have hprint : ∀ {number : Cpp.Double}, number.isFinite = true →
      Utf8.WellFormed (format.print17 number) :=
    fun hfinite => wellFormed_number (hlocale.print _ hfinite).1
  cases value with
  | bool entry => cases entry <;> exact Cpp.wellFormed_text _
  | number entry => exact hprint h
  | string entry => exact wellFormed_quoted h
  | vector3 entry =>
      obtain ⟨hx, hy, hz⟩ : _ ∧ _ ∧ _ := h
      have hcomma := Cpp.wellFormed_text ","
      exact ((((((Cpp.wellFormed_text "[").append (hprint hx)).append hcomma).append
        (hprint hy)).append hcomma).append (hprint hz)).append (Cpp.wellFormed_text "]")

theorem wellFormed_intercalate {separator : Cpp.ByteString} {parts : List Cpp.ByteString}
    (hseparator : Utf8.WellFormed separator) (h : ∀ part ∈ parts, Utf8.WellFormed part) :
    Utf8.WellFormed (separator.intercalate parts) := by
  induction parts with
  | nil => exact .nil
  | cons part rest ih =>
      obtain ⟨hpart, hrest⟩ := List.forall_mem_cons.mp h
      cases rest with
      | nil => simpa [List.intercalate] using hpart
      | cons next rest =>
          rw [List.intercalate_cons_cons]
          exact (hpart.append hseparator).append (ih hrest)

/-- A document C++ writes of text is text. -/
theorem wellFormed_encodeCollectionJson (hlocale : Cpp.CLocale format) {ref : Cpp.CollectionRef}
    (htarget : Utf8.WellFormed (Cpp.describeTarget ref.target))
    (hcollection : Utf8.WellFormed ref.collection) {properties : Cpp.DynamicPropertyMap}
    (hproperties : Cpp.EncodableMap properties) (revision : UInt64) :
    Utf8.WellFormed (Cpp.encodeCollectionJson format ref properties revision) := by
  have hopen := Cpp.wellFormed_text "\x7b"
  have hclose := Cpp.wellFormed_text "\x7d"
  have hcomma := Cpp.wellFormed_text ","
  have hrevision : Utf8.WellFormed (Cpp.decimal revision) :=
    wellFormed_number (Cpp.numberLiteral_integer (Cpp.integer_decimal revision))
  have hentries : ∀ part ∈ properties.toList.map fun entry =>
      Cpp.encodeProperty format entry.1 entry.2, Utf8.WellFormed part := by
    refine List.forall_mem_map.mpr fun entry hentry => ?_
    obtain ⟨hkey, hvalue⟩ := hproperties entry hentry
    have htype : Utf8.WellFormed (Cpp.valueTypeName entry.2) := by
      cases entry.2 <;> exact Cpp.wellFormed_text _
    have hname : Utf8.WellFormed (Cpp.quoted entry.1 ++ Cpp.text ":\x7b") :=
      (wellFormed_quoted hkey).append (Cpp.wellFormed_text ":\x7b")
    exact (((((hname.append (wellFormed_field "type")).append (wellFormed_quoted htype)).append
      hcomma).append (wellFormed_field "value")).append
        (wellFormed_encodeValue hlocale hvalue)).append hclose
  have hschema : Utf8.WellFormed (Cpp.text "\x7b" ++ Cpp.field "schema" ++ Cpp.text "1,") :=
    (hopen.append (wellFormed_field "schema")).append (Cpp.wellFormed_text "1,")
  have hnamed := (((hschema.append (wellFormed_field "target")).append
    (wellFormed_quoted htarget)).append hcomma).append (wellFormed_field "collection")
  have hcounted := (((hnamed.append (wellFormed_quoted hcollection)).append hcomma).append
    (wellFormed_field "revision")).append hrevision
  exact ((((hcounted.append hcomma).append (wellFormed_field "properties")).append hopen).append
    (wellFormed_intercalate hcomma hentries)).append (Cpp.wellFormed_text "\x7d\x7d")

variable {init : Cpp.World}
  {state : State Cpp.serviceInterface Cpp.World Cpp.ServiceCall Cpp.CallResult}
  {limits' : Cpp.ValidationLimits} {exporter : Cpp.DynamicPropertyService}
  {context : Cpp.AccessContext} {ref : Cpp.CollectionRef} {exported : Cpp.ExportResult}
  {world₁ : Cpp.World}

/-- A captured export of a state the services reach can be imported again, and is text. -/
theorem importable_cpp_export (hlocale : Cpp.CLocale format)
    (hrun : Run (Cpp.serviceSystem format) init state) (hempty : init.adapter.store = ∅)
    (hlimits : ∀ c ∈ state.calls, c.job.service.limits = limits')
    (hexport : TwoRuns.Returns (I := Cpp.serviceInterface) Cpp.Acts
      (exporter.exportCollection format ref context) state.world exported world₁)
    (hcaptured : exported.status = .captured)
    (htext : Cpp.isValidUtf8 (Cpp.describeTarget ref.target) = true) :
    Cpp.Importable format limits' exported.document
        ((Cpp.contents state.world.adapter.store ref).getD ∅) ∧
      ∃ document, Python.encodeUtf8 document = .ok exported.document := by
  have hlegal : Cpp.LegalStore limits' state.world.adapter.store :=
    Cpp.legalStore_run (hempty ▸ Cpp.legalStore_empty limits') hrun hlimits
  obtain ⟨hreference, hdocument⟩ := Cpp.returns_exportCollection hexport hcaptured
  have hencodable : Cpp.EncodableMap ((Cpp.contents state.world.adapter.store ref).getD ∅) := by
    intro entry hentry
    obtain ⟨hkey, hvalue⟩ := hlegal.entry (ExtTreeMap.mem_toList_iff_getElem?_eq_some.mp hentry)
    exact ⟨Cpp.wellFormed_of_validName hkey, Cpp.encodable_of_legalValue hvalue⟩
  have htarget := Cpp.isValidUtf8_iff.mp htext
  have hcollection := Cpp.wellFormed_of_validName hreference.2
  rw [hdocument]
  refine ⟨⟨Cpp.decodeCollectionJson_encode hlocale htarget hcollection hencodable exported.revision,
    (Cpp.legalStore_iff.mp hlegal).2 ref, fun key value hget => hlegal.entry hget⟩, ?_⟩
  obtain ⟨chars, hchars⟩ := wellFormed_encodeCollectionJson hlocale htarget hcollection hencodable
    exported.revision
  exact ⟨Python.ofChars chars, hchars ▸ Python.encodeUtf8_ofChars chars⟩

variable {digest : Python.Canonical → UInt64} {interp : Interpreter}
  {service : Python.DynamicPropertyService} {context' : Python.AccessContext}
  {destination : Python.CollectionRef} {world₂ : Python.World}

/-- **What an export of C++ is worth to Python.**  A captured export of any state the
services reach, of a target that is text, is a document in UTF-8; Python imports it exactly
if its target is available and the document short enough, and then holds equal properties. -/
theorem cpp_exports_reach_python_iff (hlocale : Cpp.CLocale format)
    (hconvert : ConvertAlike interp format) (halike : LimitsAlike service.limits limits')
    (hrun : Run (Cpp.serviceSystem format) init state) (hempty : init.adapter.store = ∅)
    (hlimits : ∀ c ∈ state.calls, c.job.service.limits = limits')
    (hexport : TwoRuns.Returns (I := Cpp.serviceInterface) Cpp.Acts
      (exporter.exportCollection format ref context) state.world exported world₁)
    (hcaptured : exported.status = .captured)
    (htext : Cpp.isValidUtf8 (Cpp.describeTarget ref.target) = true)
    (hreceptive : Python.Receptive service context' destination world₂) :
    ∃ document, Python.encodeUtf8 document = .ok exported.document ∧
      ∀ outcome world₃, TwoRuns.Returns (I := Python.serviceInterface) (Python.Acts digest)
        (service.importCollection interp destination document context' .replace).run world₂ outcome
          world₃ →
        (Python.returnsApplied outcome = true ↔
          Python.targetAvailable world₂.adapter.availability destination.target = true ∧
            exported.document.length ≤ service.limits.maxImportBytes) ∧
        (Python.returnsApplied outcome = true → ∃ imported,
          Python.contents world₃.adapter.store destination = some imported ∧
          PropertiesEqual imported ((Cpp.contents state.world.adapter.store ref).getD ∅)) := by
  obtain ⟨himportable, document, hencode⟩ :=
    importable_cpp_export hlocale hrun hempty hlimits hexport hcaptured htext
  refine ⟨document, hencode, fun outcome world₃ himport => ?_⟩
  obtain ⟨happlied, hcontents⟩ := Python.returns_importCollection hreceptive.unheard
    hreceptive.readable hreceptive.reference hreceptive.capable himport
  have hshort : ∀ {mapping}, Python.Importable interp service.limits document mapping →
      exported.document.length ≤ service.limits.maxImportBytes := by
    intro mapping hmapping
    obtain ⟨encoded, -, -, hencoded, hsize, -⟩ := Python.decodeDocument_eq_ok.mp hmapping.decoded
    obtain rfl := Except.ok.inj (hencode.symm.trans hencoded)
    exact hsize
  have hmirrored := fun hsize : (exported.document.length : Int) ≤ service.limits.maxImportBytes =>
    importable_of_cpp hconvert halike hencode hsize himportable
  constructor
  · rw [happlied]
    constructor
    · rintro ⟨havailable, mapping, hmapping⟩
      exact ⟨havailable, hshort hmapping⟩
    · rintro ⟨havailable, hsize⟩
      obtain ⟨mapping, hmapping, -⟩ := hmirrored hsize
      exact ⟨havailable, mapping, hmapping⟩
  · intro happly
    obtain ⟨havailable, mapping, hmapping⟩ := happlied.mp happly
    obtain ⟨mapping, hmapping, hequal, -⟩ := hmirrored (hshort hmapping)
    refine ⟨mapping.toDict, ?_, hequal.propertiesEqual⟩
    rw [hcontents havailable mapping hmapping, Function.update_self]

end Cpp

/-! ## Conversions that satisfy the assumptions

Integers are converted by `roundInt`, every other number by its bits behind a decimal
point, as `bitsFormat` writes them. -/

def mixedFormat : Cpp.NumberFormat where
  print17 := Cpp.bitsFormat.print17
  strtod digits :=
    if Python.isInteger digits then (roundInt (Python.intOfLiteral digits), [])
    else Cpp.bitsFormat.strtod digits

def mixedInterpreter : Interpreter where
  float digits := (mixedFormat.strtod digits).1
  ofInt := roundInt
  repr _ := []
  describe _ := []
  complaint _ := []

def mixedEncoder : Encoder where
  floatRepr value := [0x30, 0x2E] ++ Cpp.decimal value.bits
  foreign _ _ := .null

theorem mixed_integer {digits : List UInt8} (h : Python.isInteger digits = true) :
    mixedFormat.strtod digits = (roundInt (Python.intOfLiteral digits), []) :=
  if_pos h

theorem mixed_rounds {digits : List UInt8} (h : Python.isInteger digits = true) :
    (mixedFormat.strtod digits).1 = roundInt (Python.intOfLiteral digits) := by
  rw [mixed_integer h]

theorem mixed_fraction {digits : List UInt8} (h : Python.isInteger digits = false) :
    mixedFormat.strtod digits = Cpp.bitsFormat.strtod digits :=
  if_neg (Bool.eq_false_iff.mp h)

theorem ofInt_mixed : mixedInterpreter.ofInt = roundInt := by
  simp only [mixedInterpreter]

/-- The bits behind a decimal point are a literal, and read back. -/
theorem mixed_bits (value : Cpp.Double) :
    Json.NumberLiteral ([0x30, 0x2E] ++ Cpp.decimal value.bits) ∧
      Python.isInteger ([0x30, 0x2E] ++ Cpp.decimal value.bits) = false ∧
      mixedFormat.strtod ([0x30, 0x2E] ++ Cpp.decimal value.bits) = (value, []) := by
  have hfraction : Python.isInteger ([0x30, 0x2E] ++ Cpp.decimal value.bits) = false := rfl
  refine ⟨⟨[], [0x30], 0x2E :: Cpp.decimal value.bits, [], by simp, .inl rfl, .inl rfl,
    .inr ⟨_, rfl, Cpp.digits_decimal _⟩, .inl rfl⟩, hfraction, ?_⟩
  rw [mixed_fraction hfraction]
  show ((⟨UInt64.ofNat ((Cpp.decimal value.bits).foldl
    (fun n c => 10 * n + (c.toNat - 48)) 0)⟩ : Cpp.Double), ([] : Cpp.ByteString)) = _
  rw [Cpp.foldl_decimal, UInt64.ofNat_toNat]

theorem intOfLiteral_decimal (n : UInt64) :
    Python.isInteger (Cpp.decimal n) = true ∧ Python.intOfLiteral (Cpp.decimal n) = n.toNat := by
  have hdecimal : Cpp.decimal n = Cpp.text (toString (n.toNat : Int)) :=
    (Cpp.decimal_eq_encode n).trans (text_nat n.toNat).symm
  rw [hdecimal]
  exact (intOfLiteral_text n.toNat).2

theorem cLocale_mixed : Cpp.CLocale mixedFormat where
  print value _ := by
    show Json.NumberLiteral (Cpp.bitsFormat.print17 value) ∧
      mixedFormat.strtod (Cpp.bitsFormat.print17 value) = (value, [])
    unfold Cpp.bitsFormat
    dsimp only
    by_cases hone : value = Cpp.doubleOne
    · rw [if_pos hone, hone, mixed_integer rfl]
      exact ⟨Cpp.numberLiteral_integer (Cpp.integer_decimal 1),
        congrArg (·, []) ((roundInt_one _).mpr rfl)⟩
    · rw [if_neg hone]
      exact ⟨(mixed_bits value).1, (mixed_bits value).2.2⟩
  integer n := by
    obtain ⟨hinteger, hvalue⟩ := intOfLiteral_decimal n
    have hfinite : (roundInt n.toNat).isFinite = true :=
      (roundInt_finite _).mpr (toNat_lt_integerRange n)
    refine ⟨congrArg Prod.snd (mixed_integer hinteger), ?_⟩
    rw [mixed_rounds hinteger, hvalue]
    exact hfinite
  one := by
    obtain ⟨hinteger, hvalue⟩ := intOfLiteral_decimal 1
    have hone : roundInt (1 : UInt64).toNat = Cpp.doubleOne := (roundInt_one _).mpr rfl
    rw [mixed_rounds hinteger, hvalue]
    exact hone

theorem convertAlike_mixed : ConvertAlike mixedInterpreter mixedFormat where
  whole digits _ := by
    cases hinteger : Python.isInteger digits with
    | true => rw [mixed_integer hinteger]
    | false =>
        rw [mixed_fraction hinteger]
        unfold Cpp.bitsFormat
        dsimp only
        split <;> rfl
  float _ _ _ := rfl
  range _ _ hinteger := by
    rw [mixed_rounds hinteger]
    exact roundInt_finite _
  ofInt _ _ hinteger _ := by
    rw [mixed_rounds hinteger, ofInt_mixed]
    exact .inl rfl
  one _ _ hinteger := by
    rw [mixed_rounds hinteger]
    exact roundInt_one _
  intDigits limit hlimit := by
    obtain rfl : 4300 = limit := Option.some.inj hlimit
    decide

theorem reversible_mixed : Reversible mixedInterpreter mixedEncoder where
  repr value _ := by
    obtain ⟨hliteral, hfraction, hvalue⟩ := mixed_bits value
    exact ⟨hliteral, hfraction, congrArg Prod.fst hvalue⟩
  foreign _ _ := Json.built_null
  ofInt value hrange := by
    rw [ofInt_mixed]
    exact (roundInt_finite value).mpr hrange
  intDigits limit hlimit := by
    obtain rfl : 4300 = limit := Option.some.inj hlimit
    decide

/-! ## One flag, there and back -/

/-- An empty world after a flag was set in `notes`. -/
noncomputable def flagged :
    State Python.serviceInterface Python.World Python.ServiceCall
      (Except Python.PyError Python.CallResult) :=
  State.alone (Python.serviceSystem (fun _ => 0) mixedInterpreter) (Python.respond fun _ => 0)
    ⟨{}, []⟩ (Python.setDraft (.bool true))

theorem run_flagged :
    Run (Python.serviceSystem (fun _ => 0) mixedInterpreter) {} flagged :=
  Run.alone (Python.acts_respond fun _ => 0) .nil (Python.setDraft (.bool true))

def flagDocument : String :=
  "\x7b\"collection\":\"app:notes\",\"properties\":\x7b\"draft\":\x7b\"type\":\"bool\",\"value\":true\x7d" ++
    "\x7d,\"revision\":0,\"schema\":1,\"target\":\"world:default\"\x7d"

/-- `notes` is exported as this document. -/
theorem exported_flagged : ∃ exported world₁,
    TwoRuns.Returns (I := Python.serviceInterface) (Python.Acts fun _ => 0)
      (Python.DynamicPropertyService.exportCollection {} mixedInterpreter mixedEncoder Python.notes
        administrator).run flagged.world (.ok exported) world₁ ∧
    exported.status = .captured ∧ exported.document = Python.str flagDocument ∧
    exported.document.length ≤ 200 := by
  have hexport := TwoRuns.returns_run (Python.acts_respond fun _ => 0)
    (Python.DynamicPropertyService.exportCollection {} mixedInterpreter mixedEncoder Python.notes
      administrator).run flagged.world
  have hresult : (Requests.run (Python.respond fun _ => 0)
      (Python.DynamicPropertyService.exportCollection {} mixedInterpreter mixedEncoder Python.notes
        administrator).run flagged.world).1.toOption.map (fun exported =>
          (exported.status, Python.encodeUtf8 exported.document,
            decide (exported.document.length ≤ 200))) =
              some (Cpp.DynamicPropertyStatus.captured, .ok (Cpp.text flagDocument), true) := by
    -- octets are cheaper to compare than the code points of a literal
    decide +kernel
  revert hexport hresult
  generalize (Requests.run (Python.respond fun _ => 0)
    (Python.DynamicPropertyService.exportCollection {} mixedInterpreter mixedEncoder Python.notes
      administrator).run flagged.world) = returned
  intro hexport hresult
  obtain ⟨outcome, world₁⟩ := returned
  cases outcome with
  | error raised => cases hresult
  | ok exported =>
      obtain ⟨hstatus, hrest⟩ := Prod.mk.inj (Option.some.inj hresult)
      obtain ⟨hdocument, hlength⟩ := Prod.mk.inj hrest
      exact ⟨exported, world₁, hexport, hstatus,
        Python.encodeUtf8_inj hdocument (Python.encodeUtf8_str flagDocument),
        of_decide_eq_true hlength⟩

theorem SameStart.receptive {service : Python.DynamicPropertyService}
    {service' : Cpp.DynamicPropertyService} {context : Python.AccessContext}
    {context' : Cpp.AccessContext} {destination : Python.CollectionRef}
    {destination' : Cpp.CollectionRef} {world : Python.World} {world' : Cpp.World}
    (h : SameStart service service' context context' destination destination' world world') :
    Python.Receptive service context destination world ∧
      Cpp.Receptive service' context' destination' world' := by
  refine ⟨⟨h.unheard, ⟨describable_alike h.refs.target, fun values hvalues => ?_⟩,
    Python.validateRef_passes h.admin h.capabilities h.target h.collection, ?_⟩,
    h.unheard', ?_, ?_⟩
  · rw [h.store] at hvalues
    cases hvalues
  · rw [h.capabilities]
    rfl
  · have hlegal : Cpp.LegalReference service'.limits destination' :=
      ⟨(validateTarget_alike h.refs.target).mp h.target,
        (validateName_alike h.refs.collection h.limits.maxCollectionBytes "collection name" _).mp
          h.collection⟩
    refine Cpp.checkReference_eq_none ?_ hlegal (if_pos h.admin')
    rw [h.capabilities']
    cases destination'.target.kind <;> rfl
  · rw [h.capabilities']
    rfl

theorem restorable_flagged : Restorable mixedInterpreter mixedEncoder
    ((Python.contents flagged.world.adapter.store Python.notes).getD ∅) := by
  have hstored : Python.contents flagged.world.adapter.store Python.notes =
      some ((∅ : Python.DynamicPropertyMap).insert (Python.str "draft") (.bool true)) := rfl
  rw [hstored]
  intro key value hget
  rw [Option.getD_some, ExtTreeMap.getElem?_insert] at hget
  split at hget
  · obtain rfl := Option.some.inj hget
    exact ⟨_, .bool true⟩
  · rw [ExtTreeMap.getElem?_empty] at hget
    cases hget

theorem limits_flagged : ∀ c ∈ flagged.calls, c.job.service.limits = {} := by
  intro c hc
  rw [List.mem_singleton.mp hc]
  rfl

/-- The flag is imported into an empty world. -/
theorem python_exports_return_iff_flag : ∃ outcome world₃ imported,
    TwoRuns.Returns (I := Python.serviceInterface) (Python.Acts fun _ => 0)
      (Python.DynamicPropertyService.importCollection {} mixedInterpreter recipes
        (Python.str flagDocument) administrator .replace).run {} outcome world₃ ∧
    Python.returnsApplied outcome = true ∧
    Python.contents world₃.adapter.store recipes = some imported ∧
    RestoredAs mixedInterpreter mixedEncoder
      ((Python.contents flagged.world.adapter.store Python.notes).getD ∅) imported := by
  obtain ⟨exported, world₁, hexport, hcaptured, hdocument, hlength⟩ := exported_flagged
  rw [← hdocument]
  have himport := TwoRuns.returns_run (Python.acts_respond fun _ => 0)
    (Python.DynamicPropertyService.importCollection {} mixedInterpreter recipes exported.document
      administrator .replace).run {}
  obtain ⟨happlied, hheld⟩ := python_exports_return_iff reversible_mixed run_flagged rfl
    limits_flagged (by decide) hexport hcaptured sameStart_recipes.receptive.1 himport
  have hsize : (exported.document.length : Int) ≤ ({} : Python.ValidationLimits).maxImportBytes :=
    Int.le_trans (Int.ofNat_le.mpr hlength) (by decide)
  have happly := happlied.mpr ⟨rfl, hsize, restorable_flagged⟩
  obtain ⟨imported, hcontents, hrestored⟩ := hheld happly
  exact ⟨_, _, imported, himport, happly, hcontents, hrestored⟩

theorem textual_of_encodable {target : Python.DynamicPropertyTarget} {description : Python.Str}
    (h : Python.describeTarget target = .ok description) (hplain : Python.Encodable description) :
    TextualTarget target :=
  ⟨description, h, paired_asciiUnits.mp (paired_of_encodable hplain)⟩

theorem textual_notes : TextualTarget Python.notes.target := by
  have hdescribed : Python.describeTarget Python.notes.target =
      .ok (Python.str "world:default") := rfl
  exact textual_of_encodable hdescribed (encodable_literal _)

/-- C++ imports it, too. -/
theorem python_exports_reach_cpp_iff_flag : ∃ octets result world₃ restored imported,
    Python.encodeUtf8 (Python.str flagDocument) = .ok octets ∧
    TwoRuns.Returns (I := Cpp.serviceInterface) Cpp.Acts
      (Cpp.DynamicPropertyService.importCollection {} mixedFormat recipes' octets administrator'
        .replace) {} result world₃ ∧
    result.status = .applied ∧
    RestoredAs mixedInterpreter mixedEncoder
      ((Python.contents flagged.world.adapter.store Python.notes).getD ∅) restored ∧
    PropertiesEqual restored imported ∧
    Cpp.contents world₃.adapter.store recipes' = some imported := by
  obtain ⟨exported, world₁, hexport, hcaptured, hdocument, hlength⟩ := exported_flagged
  rw [← hdocument]
  obtain ⟨octets, hencode, hsame, himports⟩ := python_exports_reach_cpp_iff reversible_mixed
    convertAlike_mixed sameStart_recipes.limits run_flagged rfl limits_flagged hexport hcaptured
    sameStart_recipes.receptive.2
  have himport := TwoRuns.returns_run Cpp.acts_respond
    (Cpp.DynamicPropertyService.importCollection {} mixedFormat recipes' octets administrator'
      .replace) {}
  obtain ⟨happlied, hheld⟩ := himports _ _ himport
  have hsize : octets.length ≤ ({} : Cpp.ValidationLimits).maxImportBytes :=
    Nat.le_trans (hsame ▸ hlength) (by decide)
  have happly := happlied.mpr ⟨rfl, hsize, restorable_flagged, textual_notes⟩
  obtain ⟨restored, imported, hrestored, hequal, hcontents⟩ := hheld happly
  exact ⟨octets, _, _, restored, imported, hencode, himport, happly, hrestored, hequal, hcontents⟩

/-- A title written in C++, exported and imported into Python. -/
theorem cpp_exports_reach_python_iff_title :
    let world := (Requests.run Cpp.respond (Cpp.writeTitle.program mixedFormat) ({} : Cpp.World)).2
    let exported := (Requests.run Cpp.respond (Cpp.DynamicPropertyService.exportCollection {}
      mixedFormat ⟨{}, Cpp.text "notes"⟩ administrator') world).1
    ∃ document outcome world₃ imported, Python.encodeUtf8 document = .ok exported.document ∧
      TwoRuns.Returns (I := Python.serviceInterface) (Python.Acts fun _ => 0)
        (Python.DynamicPropertyService.importCollection {} mixedInterpreter recipes document
          administrator .replace).run {} outcome world₃ ∧
      Python.returnsApplied outcome = true ∧
      Python.contents world₃.adapter.store recipes = some imported ∧
      PropertiesEqual imported
        ((Cpp.contents world.adapter.store ⟨{}, Cpp.text "notes"⟩).getD ∅) := by
  intro world exported
  have hrun : Run (Cpp.serviceSystem mixedFormat) ({} : Cpp.World) _ :=
    Run.alone Cpp.acts_respond .nil Cpp.writeTitle
  have hlimits : ∀ c ∈ (State.alone (Cpp.serviceSystem mixedFormat) Cpp.respond ⟨{}, []⟩
      Cpp.writeTitle).calls, c.job.service.limits = {} := by
    intro c hc
    rw [List.mem_singleton.mp hc]
    rfl
  have hexport := TwoRuns.returns_run Cpp.acts_respond
    (Cpp.DynamicPropertyService.exportCollection {} mixedFormat ⟨{}, Cpp.text "notes"⟩
      administrator') world
  have hcaptured : exported.status = .captured := by decide
  have hlength : exported.document.length ≤ 200 := by decide +kernel
  obtain ⟨document, hencode, himports⟩ := cpp_exports_reach_python_iff cLocale_mixed
    convertAlike_mixed sameStart_recipes.limits hrun rfl hlimits hexport hcaptured
    (by decide) sameStart_recipes.receptive.1
  have himport := TwoRuns.returns_run (Python.acts_respond fun _ => 0)
    (Python.DynamicPropertyService.importCollection {} mixedInterpreter recipes document
      administrator .replace).run {}
  obtain ⟨happlied, hheld⟩ := himports _ _ himport
  have hsize : (exported.document.length : Int) ≤ ({} : Python.ValidationLimits).maxImportBytes :=
    Int.le_trans (Int.ofNat_le.mpr hlength) (by decide)
  have happly := happlied.mpr ⟨rfl, hsize⟩
  obtain ⟨imported, hcontents, hequal⟩ := hheld happly
  exact ⟨document, _, _, imported, hencode, himport, happly, hcontents, hequal⟩

end DynamicProperties
