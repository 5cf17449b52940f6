import DynamicProperties.AdapterAgreement
import DynamicProperties.Cpp.Imports
import DynamicProperties.DecoderAgreement

/-!
# Both services import the same documents

The same document goes to `importCollection` and `import_collection`, each undisturbed
and into an empty store.  Behind the decoders stand the same checks of keys, values
and counts, so the services part only where the parsers do: Python takes documents
C++ refuses (`Forgiven`), and on every other document both apply it, with equal
properties, or both do not.
-/

namespace DynamicProperties

open Std
open DynamicProperties.Library
open DynamicProperties.Library.Fallible
open DynamicProperties.Library.Mirror
open DynamicProperties.Python (Interpreter PyJson)

/-! ## Validation -/

/-- The same limits; those of C++ are unsigned. -/
structure LimitsAlike (limits : Python.ValidationLimits) (limits' : Cpp.ValidationLimits) :
    Prop where
  maxCollectionBytes : limits.maxCollectionBytes = limits'.maxCollectionBytes
  maxKeyBytes : limits.maxKeyBytes = limits'.maxKeyBytes
  maxStringBytes : limits.maxStringBytes = limits'.maxStringBytes
  maxPropertiesPerCollection :
    limits.maxPropertiesPerCollection = limits'.maxPropertiesPerCollection
  maxTransactionOperations : limits.maxTransactionOperations = limits'.maxTransactionOperations
  maxImportBytes : limits.maxImportBytes = limits'.maxImportBytes

section Validation

variable {limits : Python.ValidationLimits} {limits' : Cpp.ValidationLimits}
  {name : Python.Str} {octets : Cpp.ByteString}

/-- A document of `n` octets is within one limit if it is within the other. -/
theorem LimitsAlike.importBytes_iff (h : LimitsAlike limits limits') {n : Nat} :
    (n : Int) ≤ limits.maxImportBytes ↔ n ≤ limits'.maxImportBytes := by
  rw [h.maxImportBytes]
  exact Int.ofNat_le

theorem isEmpty_alike (h : TextAlike name octets) : name.isEmpty = octets.isEmpty := by
  have hiff : name = Python.str "" ↔ octets = Cpp.text "" := textAlike_eq_iff h ""
  rw [Bool.eq_iff_iff, List.isEmpty_iff, List.isEmpty_iff]
  exact hiff

/-- NUL is the only character with a zero octet. -/
theorem contains_zero_alike (h : TextAlike name octets) : name.contains 0 = octets.contains 0 := by
  obtain ⟨chars, rfl, rfl⟩ := Python.encodeUtf8_eq_ok_iff.mp h
  rw [Bool.eq_iff_iff, List.contains_iff_mem, List.contains_iff_mem]
  unfold Python.ofChars Utf8.encode
  rw [List.mem_map, List.mem_flatMap]
  refine exists_congr fun char => and_congr_right fun _ => ?_
  by_cases hascii : char.toNat < 0x80
  · rw [Utf8.encodeChar_ascii hascii, List.mem_singleton, ← UInt8.toNat_inj, Fin.ext_iff,
      Python.codePoint_val]
    show char.toNat = 0 ↔ 0 = char.toNat % 256
    omega
  · constructor
    · intro hzero
      have hval := congrArg Fin.val hzero
      rw [Python.codePoint_val] at hval
      exact absurd (hval ▸ hascii) (by decide)
    · intro hmem
      exact absurd (Utf8.encodeChar_wide (Nat.not_lt.mp hascii) 0 hmem) (by decide)

theorem isValidUtf8_alike (h : TextAlike name octets) : Cpp.isValidUtf8 octets = true := by
  obtain ⟨chars, -, rfl⟩ := Python.encodeUtf8_eq_ok_iff.mp h
  exact Cpp.isValidUtf8_iff.mpr ⟨chars, rfl⟩

/-- The checks of names. -/
theorem validateName_alike (h : TextAlike name octets) {limit : Int} {limit' : Nat}
    (hlimit : limit = limit') (subject : String) (subject' : Cpp.ByteString) :
    Python.validateName subject limit name = none ↔
      (Cpp.validateName subject' limit' octets).valid = true := by
  have hencoded : Python.encodeUtf8 name = .ok octets := h
  unfold Python.validateName Cpp.validateName
  rw [isEmpty_alike h, contains_zero_alike h, hencoded, isValidUtf8_alike h, hlimit]
  dsimp only
  simp only [Int.ofNat_lt]
  by_cases hempty : octets.isEmpty = true
  · simp [hempty]
  by_cases hnul : 0 ∈ octets
  · by_cases hover : limit' < octets.length <;> simp [hempty, hnul, hover]
  by_cases hover : limit' < octets.length <;> simp [hempty, hnul, hover]

theorem validateKey_alike (hlimits : LimitsAlike limits limits') (h : TextAlike name octets) :
    Python.validateKey name limits = none ↔ Cpp.LegalKey limits' octets :=
  validateName_alike h hlimits.maxKeyBytes "property key" _

theorem validateValue_alike (hlimits : LimitsAlike limits limits') {value : Python.PyObject}
    {value' : Cpp.DynamicPropertyValue} (h : ValueEqual value value') :
    Python.validateValue value limits = .ok none ↔ Cpp.LegalValue limits' value' := by
  unfold Python.validateValue Cpp.LegalValue Cpp.validateValue
  cases h with
  | bool flag => exact iff_of_true rfl rfl
  | @number value value' hequal =>
      dsimp only [Python.valueType]
      rw [hequal.isFinite]
      cases value'.isFinite <;> simp [pure, Except.pure]
  | @string text octets htext =>
      have hencoded : Python.encodeUtf8 text = .ok octets := htext
      dsimp only [Python.valueType]
      rw [hencoded, hlimits.maxStringBytes, isValidUtf8_alike htext]
      by_cases hover : limits'.maxStringBytes < octets.length <;>
        simp [pure, Except.pure, hover]
  | @vector3 x y z x' y' z' hx hy hz =>
      have hfinite : Python.allFinite [.float x, .float y, .float z] =
          .ok (x'.isFinite && y'.isFinite && z'.isFinite) := by
        simp only [Python.allFinite, Python.isFinite, hx.isFinite, hy.isFinite, hz.isFinite,
          ok_bind]
        cases x'.isFinite <;> cases y'.isFinite <;> cases z'.isFinite <;> rfl
      dsimp only [Python.valueType]
      rw [hfinite]
      cases x'.isFinite <;> cases y'.isFinite <;> cases z'.isFinite <;>
        simp [pure, Except.pure, bind, Except.bind]

theorem refuse_eq_none {α : Type} {refused : Prop} [Decidable refused] {message : α}
    {rest : Option α} :
    (if refused then some message else rest) = none ↔ ¬ refused ∧ rest = none := by
  by_cases h : refused <;> simp [h]

theorem validateTarget_alike {target : Python.DynamicPropertyTarget}
    {target' : Cpp.DynamicPropertyTarget} (h : TargetAlike target target') :
    Python.validateTarget target = none ↔ Cpp.validateTarget target' = none := by
  have hblock : target.block.isNone = target'.block.isNone := by
    rw [← Option.not_isSome, ← Option.not_isSome, isSome_eq h.block]
  have hslot : target.slot < 0 ↔ target'.slot < 0 := by
    rw [h.slot, Int32.lt_iff_toInt_lt]
    rfl
  unfold Python.validateTarget Cpp.validateTarget Cpp.validatePlayerItem
  rw [refuse_eq_none, refuse_eq_none, refuse_eq_none, refuse_eq_none, refuse_eq_none,
    refuse_eq_none, refuse_eq_none, refuse_eq_none]
  rw [isEmpty_alike h.worldId, isEmpty_alike h.xuid, isEmpty_alike h.entityId,
    isEmpty_alike h.itemEntityId, h.kind, h.inventorySection, hblock, hslot]
  refine and_congr_right fun _ => ?_
  cases target'.kind with
  | world => simp [Python.itemSection]
  | onlinePlayer | offlinePlayer | loadedEntity | storedEntity | droppedItem | blockEntity =>
      simp [Python.itemSection]
  | playerInventorySlot | playerArmorSlot | playerOffhandSlot | playerEnderChestSlot
  | blockContainerSlot =>
      simp [Python.itemSection, refuse_eq_none]
      tauto

end Validation

/-! ## Documents -/

/-- The tree of a document Python imports, and its schema. -/
structure ImportDocument (interp : Interpreter) (limits : Python.ValidationLimits)
    (document : Python.Str) (tree : Python.Tree) (schema : PyJson) : Prop where
  text : Json.IsText interp.dialect tree document
  root : ∃ fields items, interp.read tree = some (.dict fields) ∧
    Python.ImportRoot fields items schema ∧
    items.length ≤ limits.maxPropertiesPerCollection ∧
    ∀ item ∈ items, Python.LegalItem interp limits item

/-- Python imports the document, and what C++ does not forgive stands in it: `true` for
the schema, or beside the properties a number that is not a finite double or an escaped
surrogate without its other half. -/
def Forgiven (interp : Interpreter) (format : Cpp.NumberFormat) (limits : Python.ValidationLimits)
    (document : Python.Str) : Prop :=
  ∃ tree schema, ImportDocument interp limits document tree schema ∧
    (schema = .bool true ∨ ¬ Strict format tree)

section Documents

variable {interp : Interpreter} {format : Cpp.NumberFormat} {limits : Python.ValidationLimits}
  {limits' : Cpp.ValidationLimits} {document : Python.Str} {octets : Cpp.ByteString}

/-- A dictionary is read from an object, and its keys are distinct. -/
theorem read_eq_dict {tree : Python.Tree} {fields : List (Python.Str × PyJson)}
    (h : interp.read tree = some (.dict fields)) :
    (fields.map Prod.fst).Nodup ∧ ∀ field ∈ fields, ∃ tree, interp.read tree = some field.2 := by
  cases tree with
  | null | bool | string => cases h
  | number digits =>
      have hnumber : interp.readNumber digits = .dict fields := Option.some.inj h
      unfold Interpreter.readNumber at hnumber
      repeat' split at hnumber
      all_goals cases hnumber
  | array elements =>
      obtain ⟨values, -, hlist⟩ := Option.map_eq_some_iff.mp h
      cases hlist
  | object members =>
      obtain ⟨items, hitems, hdict⟩ := Option.bind_eq_some_iff.mp h
      split at hdict
      next hdistinct =>
        obtain rfl : items = fields := PyJson.dict.inj (Option.some.inj hdict)
        refine ⟨hdistinct, fun field hfield => ?_⟩
        obtain ⟨member, -, hread⟩ := exists_partner (readMembers_eq_some.mp hitems).flip hfield
        exact ⟨member.2, hread.2⟩
      next => cases hdict

/-- The keys of the properties are distinct. -/
theorem distinct_of_root {tree : Python.Tree} {fields items : List (Python.Str × PyJson)}
    {schema : PyJson} (hread : interp.read tree = some (.dict fields))
    (hroot : Python.ImportRoot fields items schema) : (items.map Prod.fst).Nodup := by
  obtain ⟨tree', hread'⟩ := (read_eq_dict hread).2 _ (mem_of_lookup hroot.properties)
  exact (read_eq_dict hread').1

/-- **Which documents Python imports.** -/
theorem importable_iff (hencode : Python.encodeUtf8 document = .ok octets)
    (hsize : octets.length ≤ limits.maxImportBytes) :
    (∃ mapping, Python.Importable interp limits document mapping) ↔
      ∃ tree schema, ImportDocument interp limits document tree schema := by
  constructor
  · rintro ⟨mapping, himport⟩
    obtain ⟨encoded, root, items, -, -, hroot, hitems, hmapping⟩ :=
      Python.decodeDocument_eq_ok.mp himport.decoded
    obtain ⟨tree, htext, hread⟩ := loads_eq_ok.mp hroot
    obtain ⟨fields, schema, rfl, hfields⟩ := Python.documentItems_eq_ok.mp hitems
    have hlegal := (Python.decodesLegally_iff (distinct_of_root hread hfields)).mp
      ⟨mapping, hmapping, himport.count, himport.legal⟩
    exact ⟨tree, schema, htext, fields, items, hread, hfields, hlegal⟩
  · rintro ⟨tree, schema, htext, fields, items, hread, hfields, hlegal⟩
    obtain ⟨mapping, hmapping, hcount, hentries⟩ :=
      (Python.decodesLegally_iff (distinct_of_root hread hfields)).mpr hlegal
    refine ⟨mapping, Python.decodeDocument_eq_ok.mpr ⟨octets, .dict fields, items, hencode, hsize,
      loads_eq_ok.mpr ⟨tree, htext, hread⟩,
      Python.documentItems_eq_ok.mpr ⟨fields, schema, rfl, hfields⟩, hmapping⟩, hcount, hentries⟩

/-- The checks of counts and entries, behind the decoders. -/
theorem legal_alike (hlimits : LimitsAlike limits limits') {mapping : Python.PropertyMapping}
    {properties : Cpp.DynamicPropertyMap} (h : MappingEqual mapping properties) :
    ((mapping.items.length : Int) ≤ limits.maxPropertiesPerCollection ∧
      ∀ entry ∈ mapping.items, Python.LegalEntry limits entry) ↔
        properties.size ≤ limits'.maxPropertiesPerCollection ∧
          ∀ key value, properties[key]? = some value →
            Cpp.LegalKey limits' key ∧ Cpp.LegalValue limits' value := by
  refine and_congr ?_ (h.forall_iff fun item item' hrelated => ?_)
  · rw [h.size, hlimits.maxPropertiesPerCollection, Int.ofNat_le]
  · constructor
    · exact fun hentry => ⟨(validateKey_alike hlimits hrelated.1).mp hentry.key,
        (validateValue_alike hlimits hrelated.2).mp hentry.value⟩
    · exact fun hentry => ⟨(validateKey_alike hlimits hrelated.1).mpr hentry.1,
        (validateValue_alike hlimits hrelated.2).mpr hentry.2⟩

/-- What C++ imports is strict, and Python imports it, with equal properties. -/
theorem importable_of_cpp (hconvert : ConvertAlike interp format)
    (hlimits : LimitsAlike limits limits') (hencode : Python.encodeUtf8 document = .ok octets)
    (hsize : octets.length ≤ limits.maxImportBytes) {properties : Cpp.DynamicPropertyMap}
    (h : Cpp.Importable format limits' octets properties) :
    ∃ mapping, Python.Importable interp limits document mapping ∧
      MappingEqual mapping properties ∧ ¬ Forgiven interp format limits document := by
  obtain ⟨root, sorted, hparse, hroot, hdecode⟩ := Cpp.decodeCollectionJson_eq_ok.mp h.decoded
  obtain ⟨tree, value, htext, hstrict, hread, halike⟩ :=
    (parseJson_alike hconvert hencode).1 _ hparse
  obtain ⟨fields, rfl⟩ := halike.exists_dict
  obtain ⟨items, schema, hfields, hschema, hitems⟩ := importRoot_alike' halike hroot
  obtain ⟨mapping, hmapping, hequal⟩ := (decodedProperties_alike hitems).of_ok' hdecode
  have hlegal := (legal_alike hlimits hequal).mpr ⟨h.count, h.legal⟩
  have hdecoded : interp.decodeDocument limits document = .ok (some mapping) :=
    Python.decodeDocument_eq_ok.mpr ⟨octets, .dict fields, items, hencode, hsize,
      loads_eq_ok.mpr ⟨tree, htext, hread⟩,
      Python.documentItems_eq_ok.mpr ⟨fields, schema, rfl, hfields⟩, hmapping⟩
  refine ⟨mapping, ⟨hdecoded, hlegal.1, hlegal.2⟩, hequal, ?_⟩
  rintro ⟨tree', schema', himport, hforgiven⟩
  obtain ⟨fields', items', hread', hfields', -⟩ := himport.root
  obtain rfl := himport.text.unique (lexical_python interp) htext
  obtain rfl : fields' = fields :=
    PyJson.dict.inj (Option.some.inj (hread'.symm.trans hread))
  obtain rfl : schema' = schema := Option.some.inj (hfields'.found.symm.trans hfields.found)
  exact hforgiven.elim hschema fun hnot => hnot hstrict

/-- What Python imports without forgiving anything, C++ imports, with equal properties. -/
theorem importable_of_python (hconvert : ConvertAlike interp format)
    (hlimits : LimitsAlike limits limits') (hencode : Python.encodeUtf8 document = .ok octets)
    {mapping : Python.PropertyMapping} (h : Python.Importable interp limits document mapping)
    (hforgiven : ¬ Forgiven interp format limits document) :
    ∃ properties, Cpp.Importable format limits' octets properties ∧
      MappingEqual mapping properties := by
  obtain ⟨encoded, value, items, -, -, hvalue, hitems, hmapping⟩ :=
    Python.decodeDocument_eq_ok.mp h.decoded
  obtain ⟨tree, htext, hread⟩ := loads_eq_ok.mp hvalue
  obtain ⟨fields, schema, rfl, hfields⟩ := Python.documentItems_eq_ok.mp hitems
  have himport : ImportDocument interp limits document tree schema :=
    ⟨htext, fields, items, hread, hfields,
      (Python.decodesLegally_iff (distinct_of_root hread hfields)).mp
        ⟨mapping, hmapping, h.count, h.legal⟩⟩
  have hstrict : Strict format tree :=
    not_not.mp fun hnot => hforgiven ⟨tree, schema, himport, .inr hnot⟩
  have hschema : schema ≠ .bool true :=
    fun htrue => hforgiven ⟨tree, schema, himport, .inl htrue⟩
  obtain ⟨value', hparse, halike⟩ := (parseJson_alike hconvert hencode).2 _ _ htext hstrict hread
  obtain ⟨root, rfl⟩ := halike.exists_object
  obtain ⟨sorted, hroot, halike'⟩ := importRoot_alike halike hfields hschema
  obtain ⟨properties, hproperties, hequal⟩ := (decodedProperties_alike halike').of_ok hmapping
  have hlegal := (legal_alike hlimits hequal).mp ⟨h.count, h.legal⟩
  exact ⟨properties, ⟨Cpp.decodeCollectionJson_eq_ok.mpr ⟨root, sorted, hparse, hroot, hproperties⟩,
    hlegal.1, hlegal.2⟩, hequal⟩

end Documents

/-! ## The calls -/

/-- Where both calls start: the same limits and availability, a raw administrator, the
same valid collection of an empty store, and nobody listening. -/
structure SameStart (service : Python.DynamicPropertyService)
    (service' : Cpp.DynamicPropertyService)
    (context : Python.AccessContext) (context' : Cpp.AccessContext)
    (destination : Python.CollectionRef) (destination' : Cpp.CollectionRef)
    (world : Python.World) (world' : Cpp.World) : Prop where
  limits : LimitsAlike service.limits service'.limits
  capabilities : service.capabilities = Python.InMemoryAdapter.capabilities
  capabilities' : service'.capabilities = Cpp.InMemoryAdapter.capabilities
  admin : context.rawAdmin = true
  admin' : context'.rawAdmin = true
  refs : RefAlike destination destination'
  target : Python.validateTarget destination.target = none
  collection : Python.validateCollection destination.collection service.limits = none
  store : world.adapter.store = ∅
  store' : world'.adapter.store = ∅
  availability : AvailabilityAlike world.adapter.availability world'.adapter.availability
  unheard : Python.Unheard world service.eventBus
  unheard' : Cpp.Unheard world' service'.eventBus

/-- Both destinations hold properties, and equal ones. -/
def HoldEqual (destination : Python.CollectionRef) (destination' : Cpp.CollectionRef)
    (world : Python.World) (world' : Cpp.World) : Prop :=
  ∃ properties properties', Python.contents world.adapter.store destination = some properties ∧
    Cpp.contents world'.adapter.store destination' = some properties' ∧
    PropertiesEqual properties properties'

section Calls

variable {digest : Python.Canonical → UInt64} {interp : Interpreter} {format : Cpp.NumberFormat}
  {service : Python.DynamicPropertyService} {service' : Cpp.DynamicPropertyService}
  {context : Python.AccessContext} {context' : Cpp.AccessContext}
  {destination : Python.CollectionRef} {destination' : Cpp.CollectionRef}
  {world after : Python.World} {world' after' : Cpp.World}
  {document : Python.Str} {octets : Cpp.ByteString}
  {outcome : Except Python.PyError Python.OperationResult} {result : Cpp.OperationResult}

/-- What `import_collection` does. -/
theorem SameStart.python
    (hstart : SameStart service service' context context' destination destination' world world')
    (h : TwoRuns.Returns (I := Python.serviceInterface) (Python.Acts digest)
      (service.importCollection interp destination document context .replace).run world outcome
      after) :
    (Python.returnsApplied outcome = true ↔
      Python.targetAvailable world.adapter.availability destination.target = true ∧
        ∃ mapping, Python.Importable interp service.limits document mapping) ∧
    (Python.targetAvailable world.adapter.availability destination.target = true →
      ∀ mapping, Python.Importable interp service.limits document mapping →
        Python.contents after.adapter.store destination = some mapping.toDict) := by
  have hread : Python.Readable (Python.contents world.adapter.store) destination := by
    refine ⟨describable_alike hstart.refs.target, fun values hvalues => ?_⟩
    rw [hstart.store] at hvalues
    cases hvalues
  have hreference : service.validateRef context destination = .ok () :=
    Python.validateRef_passes hstart.admin hstart.capabilities hstart.target hstart.collection
  have hcapable : service.capabilities.exportImport = true := by
    rw [hstart.capabilities]
    rfl
  obtain ⟨happlied, hcontents⟩ :=
    Python.returns_importCollection hstart.unheard hread hreference hcapable h
  refine ⟨happlied, fun havailable mapping himport => ?_⟩
  rw [hcontents havailable mapping himport, Function.update_self]

/-- What `importCollection` does. -/
theorem SameStart.cpp
    (hstart : SameStart service service' context context' destination destination' world world')
    (hsize : octets.length ≤ service'.limits.maxImportBytes)
    (h : TwoRuns.Returns (I := Cpp.serviceInterface) Cpp.Acts
      (service'.importCollection format destination' octets context' .replace) world' result
      after') :
    (result.status = .applied ↔
      Cpp.targetAvailable world'.adapter.availability destination'.target = true ∧
        ∃ properties, Cpp.Importable format service'.limits octets properties) ∧
    (Cpp.targetAvailable world'.adapter.availability destination'.target = true →
      ∀ properties, Cpp.Importable format service'.limits octets properties →
        Cpp.contents after'.adapter.store destination' = some properties) := by
  have hlegal : Cpp.LegalReference service'.limits destination' :=
    ⟨(validateTarget_alike hstart.refs.target).mp hstart.target,
      (validateName_alike hstart.refs.collection hstart.limits.maxCollectionBytes
        "collection name" _).mp hstart.collection⟩
  have hkind : Cpp.targetCapability service'.capabilities destination'.target.kind = true := by
    rw [hstart.capabilities']
    cases destination'.target.kind <;> rfl
  have haccess : service'.accessPolicy.canAccess context' destination' = true := by
    unfold Cpp.DynamicPropertyAccessPolicy.canAccess
    rw [if_pos hstart.admin']
  have hreference : service'.validateReference context' destination' = none :=
    Cpp.checkReference_eq_none hkind hlegal haccess
  have hcapable : service'.capabilities.exportImport = true := by
    rw [hstart.capabilities']
    rfl
  obtain ⟨happlied, hcontents⟩ :=
    Cpp.returns_importCollection hstart.unheard' hreference hcapable hsize h
  refine ⟨happlied, fun havailable properties himport => ?_⟩
  rw [hcontents havailable properties himport, Function.update_self]

/-- **The services agree on a document unless Python forgives it.** -/
theorem imports_agree_iff (hconvert : ConvertAlike interp format)
    (hstart : SameStart service service' context context' destination destination' world world')
    (hencode : Python.encodeUtf8 document = .ok octets)
    (hsize : octets.length ≤ service'.limits.maxImportBytes)
    (h : TwoRuns.Returns (I := Python.serviceInterface) (Python.Acts digest)
      (service.importCollection interp destination document context .replace).run world outcome
      after)
    (h' : TwoRuns.Returns (I := Cpp.serviceInterface) Cpp.Acts
      (service'.importCollection format destination' octets context' .replace) world' result
      after') :
    ((result.status = .applied ↔ Python.returnsApplied outcome = true) ∧
      (result.status = .applied → HoldEqual destination destination' after after')) ↔
        ¬ (Python.targetAvailable world.adapter.availability destination.target = true ∧
          Forgiven interp format service.limits document) := by
  obtain ⟨hpython, hcontents⟩ := hstart.python h
  obtain ⟨hcpp, hcontents'⟩ := hstart.cpp hsize h'
  have hsize' : (octets.length : Int) ≤ service.limits.maxImportBytes :=
    hstart.limits.importBytes_iff.mpr hsize
  rw [← targetAvailable_alike hstart.availability hstart.refs.target] at hcpp hcontents'
  constructor
  · rintro ⟨hagree, -⟩ ⟨havailable, hforgiven⟩
    obtain ⟨tree, schema, himport, -⟩ := id hforgiven
    have himportable := (importable_iff hencode hsize').mpr ⟨tree, schema, himport⟩
    have happlied := hagree.mpr (hpython.mpr ⟨havailable, himportable⟩)
    obtain ⟨-, properties, hproperties⟩ := hcpp.mp happlied
    obtain ⟨mapping, -, -, hstrict⟩ :=
      importable_of_cpp hconvert hstart.limits hencode hsize' hproperties
    exact hstrict hforgiven
  · intro hnot
    have hboth : result.status = .applied → Python.returnsApplied outcome = true ∧
        HoldEqual destination destination' after after' := by
      intro happlied
      obtain ⟨havailable, properties, hproperties⟩ := hcpp.mp happlied
      obtain ⟨mapping, hmapping, hequal, -⟩ :=
        importable_of_cpp hconvert hstart.limits hencode hsize' hproperties
      exact ⟨hpython.mpr ⟨havailable, mapping, hmapping⟩, mapping.toDict, properties,
        hcontents havailable mapping hmapping, hcontents' havailable properties hproperties,
        hequal.propertiesEqual⟩
    refine ⟨⟨fun happlied => (hboth happlied).1, fun happlied => ?_⟩,
      fun happlied => (hboth happlied).2⟩
    obtain ⟨havailable, mapping, hmapping⟩ := hpython.mp happlied
    obtain ⟨properties, hproperties, -⟩ := importable_of_python hconvert hstart.limits hencode
      hmapping fun hforgiven => hnot ⟨havailable, hforgiven⟩
    exact hcpp.mpr ⟨havailable, properties, hproperties⟩

end Calls

/-! ## Documents that show it

Conversions that are exact for the integers these documents hold, and take every other
number for zero or, out of range, for infinity. -/

def roundInt (value : Int) : Cpp.Double :=
  if integerRange ≤ value.natAbs then Python.infinity
  else if value = 1 then Cpp.doubleOne else ⟨0⟩

def roundingFormat : Cpp.NumberFormat where
  print17 value := if value = Cpp.doubleOne then [0x31] else [0x30]
  strtod digits :=
    (if Python.isInteger digits then roundInt (Python.intOfLiteral digits) else ⟨0⟩, [])

def roundingInterpreter : Interpreter where
  float _ := ⟨0⟩
  ofInt := roundInt
  repr _ := []
  describe _ := []
  complaint _ := []

theorem one_lt_pow_sub_pow {low high : Nat} (hlow : 0 < low) (h : low < high) :
    1 < 2 ^ high - 2 ^ low := by
  have hstep : 2 ^ (low + 1) ≤ 2 ^ high := Nat.pow_le_pow_right (by decide) h
  have hone : 1 < 2 ^ low := Nat.one_lt_two_pow (Nat.ne_of_gt hlow)
  rw [Nat.pow_succ] at hstep
  omega

theorem one_lt_integerRange : 1 < integerRange :=
  one_lt_pow_sub_pow (by decide) (by decide)

theorem roundInt_finite (value : Int) :
    (roundInt value).isFinite = true ↔ value.natAbs < integerRange := by
  unfold roundInt
  split
  next hrange => exact iff_of_false (by decide) (Nat.not_lt.mpr hrange)
  next hrange => split <;> exact iff_of_true (by decide) (Nat.not_le.mp hrange)

theorem roundInt_one (value : Int) : roundInt value = Cpp.doubleOne ↔ value = 1 := by
  unfold roundInt
  split
  next hrange =>
    refine iff_of_false (by decide) fun hone => ?_
    rw [hone] at hrange
    exact absurd one_lt_integerRange (Nat.not_lt.mpr hrange)
  next =>
    split
    next hone => exact iff_of_true rfl hone
    next hone => exact iff_of_false (by decide) hone

theorem strtod_integer {digits : List UInt8} (h : Python.isInteger digits = true) :
    (roundingFormat.strtod digits).1 = roundInt (Python.intOfLiteral digits) :=
  if_pos h

theorem strtod_fraction {digits : List UInt8} (h : Python.isInteger digits = false) :
    (roundingFormat.strtod digits).1 = ⟨0⟩ :=
  if_neg (Bool.eq_false_iff.mp h)

theorem ofInt_rounding : roundingInterpreter.ofInt = roundInt := by
  simp only [roundingInterpreter]

theorem convertAlike_rounding : ConvertAlike roundingInterpreter roundingFormat where
  whole _ _ := rfl
  float _ _ hfraction := (strtod_fraction hfraction).symm
  range _ _ hinteger := by
    rw [strtod_integer hinteger]
    exact roundInt_finite _
  ofInt _ _ hinteger _ := by
    rw [strtod_integer hinteger, ofInt_rounding]
    exact .inl rfl
  one _ _ hinteger := by
    rw [strtod_integer hinteger]
    exact roundInt_one _
  intDigits limit hlimit := by
    obtain rfl : 4300 = limit := Option.some.inj hlimit
    decide

def administrator : Python.AccessContext := { rawAdmin := true }

def administrator' : Cpp.AccessContext := { rawAdmin := true }

def recipes : Python.CollectionRef := ⟨{}, Python.str "app:recipes"⟩

def recipes' : Cpp.CollectionRef := ⟨{}, Cpp.text "app:recipes"⟩

theorem sameStart_recipes :
    SameStart {} {} administrator administrator' recipes recipes' {} {} where
  limits := ⟨rfl, rfl, rfl, rfl, rfl, rfl⟩
  capabilities := rfl
  capabilities' := rfl
  admin := rfl
  admin' := rfl
  refs := ⟨targetAlike_default, textAlike_str "app:recipes"⟩
  target := by decide
  collection := by decide
  store := rfl
  store' := rfl
  availability := availabilityAlike_empty
  unheard _ := rfl
  unheard' _ := rfl

/-- Schema `true`, which equals 1 in Python. -/
def trueSchema : String := "\x7b\"schema\":true,\"properties\":\x7b\x7d\x7d"

def plainUnits (octets : List UInt8) : List (Json.StringUnit Python.CodePoint) :=
  octets.map fun c => .raw (Python.asciiPoint c)

theorem legal_plainUnits (interp : Interpreter) {octets : List UInt8}
    (h : (octets.all fun c => decide (0x20 ≤ c ∧ c ≠ 0x22 ∧ c ≠ 0x5C)) = true) :
    Json.LegalUnits interp.dialect (plainUnits octets) := by
  intro unit hunit
  obtain ⟨c, hc, rfl⟩ := List.mem_map.mp hunit
  intro octet hoctet
  obtain rfl : c = octet := asciiPoint_injective hoctet
  exact of_decide_eq_true (List.all_eq_true.mp h c hc)

/-- Python forgives the schema. -/
theorem forgiven_trueSchema (interp : Interpreter) (format : Cpp.NumberFormat) :
    Forgiven interp format {} (Python.str trueSchema) := by
  have hspace : Json.Space [] := fun _ h => absurd h List.not_mem_nil
  have hkey := @legal_plainUnits interp (Cpp.text "schema") rfl
  have hkey' := @legal_plainUnits interp (Cpp.text "properties") rfl
  have hmembers := Json.Spells.member hspace hkey hspace hspace (.bool true) hspace
    (.lastMember hspace hkey' hspace hspace (.emptyObject hspace) hspace)
  refine ⟨_, .bool true, ⟨⟨[], _, [], rfl, hspace, .object hmembers, hspace⟩, ?_⟩, .inl rfl⟩
  refine ⟨[(Python.str "schema", .bool true), (Python.str "properties", .dict [])], [], rfl,
    ⟨by decide, rfl, rfl, rfl⟩, by decide, fun _ h => absurd h List.not_mem_nil⟩

/-- Python imports the document, C++ does not. -/
theorem imports_differ_trueSchema :
    ConvertAlike roundingInterpreter roundingFormat ∧
    SameStart {} {} administrator administrator' recipes recipes' {} {} ∧
    Python.encodeUtf8 (Python.str trueSchema) = .ok (Cpp.text trueSchema) ∧
    (Cpp.text trueSchema).length ≤ ({} : Cpp.ValidationLimits).maxImportBytes ∧
    ∃ outcome after result after',
      TwoRuns.Returns (I := Python.serviceInterface) (Python.Acts fun _ => 0)
        (Python.DynamicPropertyService.importCollection {} roundingInterpreter recipes
          (Python.str trueSchema) administrator .replace).run {} outcome after ∧
      TwoRuns.Returns (I := Cpp.serviceInterface) Cpp.Acts
        (Cpp.DynamicPropertyService.importCollection {} roundingFormat recipes'
          (Cpp.text trueSchema) administrator' .replace) {} result after' ∧
      Python.returnsApplied outcome = true ∧ result.status ≠ .applied := by
  have hencode : Python.encodeUtf8 (Python.str trueSchema) = .ok (Cpp.text trueSchema) :=
    textAlike_str trueSchema
  have hlength : (Cpp.text trueSchema).length = 31 := by decide
  have hsize : (Cpp.text trueSchema).length ≤ ({} : Cpp.ValidationLimits).maxImportBytes := by
    rw [hlength]
    decide
  have hsize' : ((Cpp.text trueSchema).length : Int) ≤
      ({} : Python.ValidationLimits).maxImportBytes := by
    rw [hlength]
    decide
  have hforgiven := forgiven_trueSchema roundingInterpreter roundingFormat
  have hpython := TwoRuns.returns_run (Python.acts_respond fun _ => 0)
    (Python.DynamicPropertyService.importCollection {} roundingInterpreter recipes
      (Python.str trueSchema) administrator .replace).run {}
  have hcpp := TwoRuns.returns_run Cpp.acts_respond
    (Cpp.DynamicPropertyService.importCollection {} roundingFormat recipes'
      (Cpp.text trueSchema) administrator' .replace) {}
  refine ⟨convertAlike_rounding, sameStart_recipes, hencode, hsize, _, _, _, _, hpython, hcpp,
    (sameStart_recipes.python hpython).1.mpr ⟨rfl, ?_⟩, fun happlied => ?_⟩
  · obtain ⟨tree, schema, himport, -⟩ := hforgiven
    exact (importable_iff hencode hsize').mpr ⟨tree, schema, himport⟩
  · obtain ⟨-, properties, himport⟩ := (sameStart_recipes.cpp hsize hcpp).1.mp happlied
    obtain ⟨mapping, -, -, hstrict⟩ := importable_of_cpp convertAlike_rounding
      sameStart_recipes.limits hencode hsize' himport
    exact hstrict hforgiven

def oneSchema : String := "\x7b\"schema\":1,\"properties\":\x7b\x7d\x7d"

theorem imports_agree_iff_oneSchema :
    ∃ outcome after result after',
      TwoRuns.Returns (I := Python.serviceInterface) (Python.Acts fun _ => 0)
        (Python.DynamicPropertyService.importCollection {} roundingInterpreter recipes
          (Python.str oneSchema) administrator .replace).run {} outcome after ∧
      TwoRuns.Returns (I := Cpp.serviceInterface) Cpp.Acts
        (Cpp.DynamicPropertyService.importCollection {} roundingFormat recipes'
          (Cpp.text oneSchema) administrator' .replace) {} result after' ∧
      (((result.status = .applied ↔ Python.returnsApplied outcome = true) ∧
        (result.status = .applied → HoldEqual recipes recipes' after after')) ↔
          ¬ (Python.targetAvailable ∅ recipes.target = true ∧
            Forgiven roundingInterpreter roundingFormat {} (Python.str oneSchema))) := by
  have hlength : (Cpp.text oneSchema).length = 28 := by decide
  have hsize : (Cpp.text oneSchema).length ≤ ({} : Cpp.ValidationLimits).maxImportBytes := by
    rw [hlength]
    decide
  have hpython := TwoRuns.returns_run (Python.acts_respond fun _ => 0)
    (Python.DynamicPropertyService.importCollection {} roundingInterpreter recipes
      (Python.str oneSchema) administrator .replace).run {}
  have hcpp := TwoRuns.returns_run Cpp.acts_respond
    (Cpp.DynamicPropertyService.importCollection {} roundingFormat recipes'
      (Cpp.text oneSchema) administrator' .replace) {}
  exact ⟨_, _, _, _, hpython, hcpp, imports_agree_iff convertAlike_rounding sameStart_recipes
    (textAlike_str oneSchema) hsize hpython hcpp⟩

end DynamicProperties
