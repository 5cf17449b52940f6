import DynamicProperties.Library.Mirror
import DynamicProperties.Python.Undisturbed

/-!
# Imports that replace their destination

`import_collection` with policy `REPLACE`, undisturbed: it applies where the document
decodes to a mapping that passes validation, and then the destination holds that
mapping (`returns_importCollection`).
-/

namespace DynamicProperties.Python

open Std
open DynamicProperties.Library.Fallible (bind_eq_ok forM_eq_ok ok_bind)
open DynamicProperties.Library.Collections
open DynamicProperties.Library.Mirror
open DynamicProperties.Library.OrderedMap
open DynamicProperties.Library.Requests
open DynamicProperties.Library.Sequence
open DynamicProperties.Library.TwoRuns

/-! ## What a document decodes to -/

section Decoding

variable {interp : Interpreter}

theorem items_set_of_notMem {mapping : PropertyMapping} {key : Str} (value : PyObject)
    (h : key ∉ mapping.items.map Prod.fst) :
    (mapping.set key value).items = mapping.items ++ [(key, value)] := by
  unfold PropertyMapping.set
  rw [dif_neg h]

theorem PropertyMapping.ext {mapping mapping' : PropertyMapping}
    (h : mapping.items = mapping'.items) : mapping = mapping' := by
  obtain ⟨items, distinct⟩ := mapping
  obtain rfl : items = mapping'.items := h
  rfl

/-- The comprehension decodes entry by entry, in the order of the document. -/
theorem decodedProperties_eq_ok {items : List (Str × PyJson)}
    (hdistinct : (items.map Prod.fst).Nodup) {mapping result : PropertyMapping}
    (hnew : ∀ item ∈ items, item.1 ∉ mapping.items.map Prod.fst) :
    interp.decodedProperties items mapping = .ok result ↔
      ∃ decoded, List.Forall₂
        (EntriesRelated Eq fun data value => interp.decodedValue data = .ok value) items decoded ∧
          result.items = mapping.items ++ decoded := by
  induction items generalizing mapping with
  | nil =>
      simp only [Interpreter.decodedProperties, List.forall₂_nil_left_iff, exists_eq_left,
        List.append_nil, Except.ok.injEq]
      exact ⟨fun h => h ▸ rfl, fun h => (PropertyMapping.ext h).symm⟩
  | cons item rest ih =>
      obtain ⟨key, data⟩ := item
      obtain ⟨hfirst, hrest⟩ := List.nodup_cons.mp hdistinct
      have hset : ∀ value, (mapping.set key value).items = mapping.items ++ [(key, value)] :=
        fun value => items_set_of_notMem value (hnew (key, data) List.mem_cons_self)
      have hfresh : ∀ value, ∀ other ∈ rest,
          other.1 ∉ (mapping.set key value).items.map Prod.fst := by
        intro value other hother hmem
        rw [hset, List.map_append, List.mem_append] at hmem
        rcases hmem with hold | hadded
        · exact hnew other (List.mem_cons_of_mem _ hother) hold
        · have heq : other.1 = key := List.mem_singleton.mp hadded
          exact hfirst (List.mem_map.mpr ⟨other, hother, heq⟩)
      rw [Interpreter.decodedProperties, bind_eq_ok]
      constructor
      · rintro ⟨value, hvalue, hloop⟩
        rw [ih hrest (hfresh value)] at hloop
        obtain ⟨decoded, hdecoded, hitems⟩ := hloop
        refine ⟨(key, value) :: decoded, .cons ⟨rfl, hvalue⟩ hdecoded, ?_⟩
        rw [hitems, hset, List.append_assoc, List.singleton_append]
      · rintro ⟨decoded, hdecoded, hitems⟩
        obtain ⟨⟨key', value⟩, others, ⟨hkey, hvalue⟩, hothers, rfl⟩ :=
          List.forall₂_cons_left_iff.mp hdecoded
        obtain rfl : key = key' := hkey
        refine ⟨value, hvalue, (ih hrest (hfresh value)).mpr ⟨others, hothers, ?_⟩⟩
        rw [hitems, hset, List.append_assoc, List.singleton_append]

/-- A document for an import: schema 1, no field but the allowed ones, and properties. -/
structure ImportRoot (fields items : List (Str × PyJson)) (schema : PyJson) : Prop where
  allowed : ∀ field ∈ fields, field.1 ∈ allowedFields
  found : fields.lookup (str "schema") = some schema
  one : equalsOne schema = true
  properties : fields.lookup (str "properties") = some (.dict items)

theorem documentItems_eq_ok {root : PyJson} {items : List (Str × PyJson)} :
    Interpreter.documentItems root = .ok items ↔
      ∃ fields schema, root = .dict fields ∧ ImportRoot fields items schema := by
  unfold Interpreter.documentItems
  constructor
  · intro h
    split at h
    next fields =>
      split at h
      next schema found hschema hitems =>
        split at h
        next hfields =>
          cases h
          rw [Bool.and_eq_true, List.all_eq_true] at hfields
          exact ⟨fields, schema, rfl,
            fun field hfield => List.contains_iff_mem.mp (hfields.2 field hfield), hschema,
            hfields.1, hitems⟩
        next => cases h
      next => cases h
    next => cases h
  · rintro ⟨fields, schema, rfl, hroot⟩
    have hall : (fields.all fun field => allowedFields.contains field.1) = true :=
      List.all_eq_true.mpr fun field hfield => List.contains_iff_mem.mpr
        (hroot.allowed field hfield)
    dsimp only
    rw [hroot.found, hroot.properties]
    dsimp only
    rw [hroot.one, hall]
    rfl

/-- The `try` block, step by step. -/
theorem decodeDocument_eq_ok {limits : ValidationLimits} {document : Str}
    {properties : PropertyMapping} :
    interp.decodeDocument limits document = .ok (some properties) ↔
      ∃ encoded root items, encodeUtf8 document = .ok encoded ∧
        encoded.length ≤ limits.maxImportBytes ∧ interp.loads document = .ok root ∧
        Interpreter.documentItems root = .ok items ∧
        interp.decodedProperties items ⟨[], List.nodup_nil⟩ = .ok properties := by
  unfold Interpreter.decodeDocument
  constructor
  · intro h
    obtain ⟨encoded, hencoded, h⟩ := bind_eq_ok.mp h
    split at h
    next => cases h
    next hsize =>
      obtain ⟨root, hroot, h⟩ := bind_eq_ok.mp h
      obtain ⟨items, hitems, h⟩ := bind_eq_ok.mp h
      obtain ⟨result, hresult, h⟩ := bind_eq_ok.mp h
      cases h
      exact ⟨encoded, root, items, hencoded, Int.not_lt.mp hsize, hroot, hitems, hresult⟩
  · rintro ⟨encoded, root, items, hencoded, hsize, hroot, hitems, hresult⟩
    rw [hencoded, ok_bind, if_neg (Int.not_lt.mpr hsize), hroot, ok_bind, hitems, ok_bind,
      hresult]
    rfl

end Decoding

/-! ## Documents for an import -/

/-- An entry `validate_entry` has no objection to. -/
structure LegalEntry (limits : ValidationLimits) (entry : Str × PyObject) : Prop where
  key : validateKey entry.1 limits = none
  value : validateValue entry.2 limits = .ok none

/-- A number `float` makes a finite double of. -/
def Interpreter.FiniteNumber (interp : Interpreter) (value : PyJson) : Prop :=
  ∃ number, interp.toFloat value = .ok number ∧ number.isFinite = true

/-- A type and a value of that type, within the limits. -/
inductive LegalProperty (interp : Interpreter) (limits : ValidationLimits) : PyJson → PyJson → Prop
  | bool (value : Bool) : LegalProperty interp limits (.str (str "bool")) (.bool value)
  | number {value : PyJson} (h : interp.FiniteNumber value) :
      LegalProperty interp limits (.str (str "number")) value
  | string {value : Str} {encoded : List UInt8} (hencoded : encodeUtf8 value = .ok encoded)
      (h : encoded.length ≤ limits.maxStringBytes) :
      LegalProperty interp limits (.str (str "string")) (.str value)
  | vector3 {x y z : PyJson} (hx : interp.FiniteNumber x) (hy : interp.FiniteNumber y)
      (hz : interp.FiniteNumber z) :
      LegalProperty interp limits (.str (str "vector3")) (.list [x, y, z])

/-- A legal key, and an entry with a legal type and value and nothing else. -/
structure LegalItem (interp : Interpreter) (limits : ValidationLimits) (item : Str × PyJson) :
    Prop where
  key : validateKey item.1 limits = none
  entry : ∃ members type value, item.2 = .dict members ∧
    (∀ member ∈ members, member.1 = str "type" ∨ member.1 = str "value") ∧
    members.lookup (str "type") = some type ∧ members.lookup (str "value") = some value ∧
    LegalProperty interp limits type value

section Documents

variable {interp : Interpreter} {limits : ValidationLimits}

theorem isNumber_of_finiteNumber {value : PyJson} (h : interp.FiniteNumber value) :
    Interpreter.isNumber value = true := by
  obtain ⟨number, hfloat, -⟩ := h
  cases value with
  | int | float => rfl
  | none | bool | str | list | dict => cases hfloat

theorem decodedNumber_eq_ok {type value : PyJson} {decoded : PyObject} :
    interp.decodedNumber type value = .ok decoded ↔
      ∃ number, interp.toFloat value = .ok number ∧ number.isFinite = true ∧
        decoded = .float number := by
  constructor
  · intro h
    unfold Interpreter.decodedNumber at h
    split at h
    next =>
      obtain ⟨number, hnumber, h⟩ := bind_eq_ok.mp h
      split at h
      next hfinite =>
        cases h
        exact ⟨number, hnumber, hfinite, rfl⟩
      next => cases h
    next => cases h
  · rintro ⟨number, hnumber, hfinite, rfl⟩
    rw [Interpreter.decodedNumber, if_pos (isNumber_of_finiteNumber ⟨number, hnumber, hfinite⟩),
      hnumber, ok_bind, if_pos hfinite]
    rfl

theorem decodedVector_eq_ok {type value : PyJson} {decoded : PyObject} :
    interp.decodedVector type value = .ok decoded ↔
      ∃ x y z a b c, value = .list [x, y, z] ∧
        (interp.toFloat x = .ok a ∧ a.isFinite = true) ∧
        (interp.toFloat y = .ok b ∧ b.isFinite = true) ∧
        (interp.toFloat z = .ok c ∧ c.isFinite = true) ∧
        decoded = .vector3 (.float a) (.float b) (.float c) := by
  constructor
  · intro h
    unfold Interpreter.decodedVector at h
    split at h
    next x y z =>
      split at h
      next =>
        obtain ⟨a, ha, h⟩ := bind_eq_ok.mp h
        obtain ⟨b, hb, h⟩ := bind_eq_ok.mp h
        obtain ⟨c, hc, h⟩ := bind_eq_ok.mp h
        split at h
        next hfinite =>
          cases h
          rw [Bool.and_eq_true, Bool.and_eq_true] at hfinite
          exact ⟨x, y, z, a, b, c, rfl, ⟨ha, hfinite.1.1⟩, ⟨hb, hfinite.1.2⟩, ⟨hc, hfinite.2⟩, rfl⟩
        next => cases h
      next => cases h
    next => cases h
  · rintro ⟨x, y, z, a, b, c, rfl, hx, hy, hz, rfl⟩
    have hall : [x, y, z].all Interpreter.isNumber = true := by
      simp [isNumber_of_finiteNumber ⟨a, hx⟩, isNumber_of_finiteNumber ⟨b, hy⟩,
        isNumber_of_finiteNumber ⟨c, hz⟩]
    simp only [Interpreter.decodedVector, hall, hx, hy, hz, ok_bind, Bool.and_self, if_true]
    rfl

/-- The branches by the declared type, for a value that passes validation. -/
theorem legalProperty_iff {type value : PyJson} :
    (∃ decoded, interp.decodedTyped type value = .ok decoded ∧
      validateValue decoded limits = .ok none) ↔ LegalProperty interp limits type value := by
  constructor
  · rintro ⟨decoded, hdecoded, hvalid⟩
    cases type with
    | none | bool | int | float | list | dict => cases hdecoded
    | str name =>
      unfold Interpreter.decodedTyped at hdecoded
      dsimp only at hdecoded
      split at hdecoded
      next hbool =>
        split at hdecoded
        next flag => exact hbool ▸ .bool flag
        next => cases hdecoded
      next =>
        split at hdecoded
        next hnumber =>
          obtain ⟨number, hfloat, hfinite, rfl⟩ := decodedNumber_eq_ok.mp hdecoded
          exact hnumber ▸ .number ⟨number, hfloat, hfinite⟩
        next =>
          split at hdecoded
          next hstring =>
            split at hdecoded
            next text =>
              cases hdecoded
              subst hstring
              unfold validateValue at hvalid
              dsimp only [valueType] at hvalid
              split at hvalid
              next => cases hvalid
              next encoded hencoded =>
                refine .string hencoded (Int.not_lt.mp fun hover => ?_)
                rw [if_pos hover] at hvalid
                cases hvalid
            next => cases hdecoded
          next =>
            split at hdecoded
            next hvector =>
              obtain ⟨x, y, z, a, b, c, rfl, hx, hy, hz, rfl⟩ := decodedVector_eq_ok.mp hdecoded
              exact hvector ▸ .vector3 ⟨a, hx⟩ ⟨b, hy⟩ ⟨c, hz⟩
            next => cases hdecoded
  · intro h
    cases h with
    | bool flag => exact ⟨.bool flag, rfl, rfl⟩
    | number hnumber =>
        obtain ⟨number, hfloat, hfinite⟩ := hnumber
        refine ⟨.float number, decodedNumber_eq_ok.mpr ⟨number, hfloat, hfinite, rfl⟩, ?_⟩
        show Except.ok (if number.isFinite = true then none else _) = _
        rw [if_pos hfinite]
    | @string text encoded hencoded hlimit =>
        refine ⟨.str text, rfl, ?_⟩
        unfold validateValue
        dsimp only [valueType]
        rw [hencoded]
        exact congrArg Except.ok (if_neg (Int.not_lt.mpr hlimit))
    | @vector3 x y z hx hy hz =>
        obtain ⟨a, hx⟩ := hx
        obtain ⟨b, hy⟩ := hy
        obtain ⟨c, hz⟩ := hz
        have hdecoded : interp.decodedVector (.str (str "vector3")) (.list [x, y, z]) =
            .ok (.vector3 (.float a) (.float b) (.float c)) :=
          decodedVector_eq_ok.mpr ⟨x, y, z, a, b, c, rfl, hx, hy, hz, rfl⟩
        refine ⟨.vector3 (.float a) (.float b) (.float c), hdecoded, ?_⟩
        have hfinite : allFinite [.float a, .float b, .float c] = .ok true := by
          simp only [allFinite, isFinite, hx.2, hy.2, hz.2, ok_bind, if_true]
          rfl
        unfold validateValue
        dsimp only [valueType]
        rw [hfinite]
        rfl

/-- The item of a document decodes to an entry that passes validation. -/
theorem legalItem_iff {item : Str × PyJson} :
    (∃ value, interp.decodedValue item.2 = .ok value ∧ LegalEntry limits (item.1, value)) ↔
      LegalItem interp limits item := by
  constructor
  · rintro ⟨decoded, hdecoded, hlegal⟩
    refine ⟨hlegal.key, ?_⟩
    unfold Interpreter.decodedValue at hdecoded
    split at hdecoded
    next members hmembers =>
      split at hdecoded
      next type value htype =>
        unfold Interpreter.typeAndValue at htype
        split at htype
        next hall =>
          split at htype
          next hfound hfound' =>
            cases htype
            refine ⟨members, type, value, hmembers, fun member hmember => ?_, hfound, hfound',
              legalProperty_iff.mp ⟨decoded, hdecoded, hlegal.value⟩⟩
            simpa using List.all_eq_true.mp hall member hmember
          next => cases htype
        next => cases htype
      next => cases hdecoded
    next => cases hdecoded
  · rintro ⟨hkey, members, type, value, hmembers, hnames, htype, hvalue, hproperty⟩
    obtain ⟨decoded, hdecoded, hlegal⟩ := legalProperty_iff.mpr hproperty
    have hall : (members.all fun member =>
        member.1 = str "type" || member.1 = str "value") = true :=
      List.all_eq_true.mpr fun member hmember => by simpa using hnames member hmember
    have hfound : Interpreter.typeAndValue members = some (type, value) := by
      rw [Interpreter.typeAndValue, if_pos hall, htype, hvalue]
    refine ⟨decoded, ?_, hkey, hlegal⟩
    rw [hmembers]
    unfold Interpreter.decodedValue
    dsimp only
    rw [hfound]
    exact hdecoded

/-- **What `import_collection` asks of the properties of a document.** -/
theorem decodesLegally_iff {items : List (Str × PyJson)} (hdistinct : (items.map Prod.fst).Nodup) :
    (∃ mapping, interp.decodedProperties items ⟨[], List.nodup_nil⟩ = .ok mapping ∧
      mapping.items.length ≤ limits.maxPropertiesPerCollection ∧
      ∀ entry ∈ mapping.items, LegalEntry limits entry) ↔
        items.length ≤ limits.maxPropertiesPerCollection ∧
          ∀ item ∈ items, LegalItem interp limits item := by
  constructor
  · rintro ⟨mapping, hmapping, hcount, hlegal⟩
    obtain ⟨decoded, hdecoded, hitems⟩ :=
      (decodedProperties_eq_ok hdistinct fun _ _ => List.not_mem_nil).mp hmapping
    obtain rfl : mapping.items = decoded := hitems
    refine ⟨hdecoded.length_eq ▸ hcount, fun item hitem => ?_⟩
    obtain ⟨⟨key, value⟩, hentry, hkey, hvalue⟩ := exists_partner hdecoded hitem
    obtain rfl : item.1 = key := hkey
    exact legalItem_iff.mp ⟨value, hvalue, hlegal _ hentry⟩
  · rintro ⟨hcount, hlegal⟩
    obtain ⟨decoded, hboth⟩ : ∃ decoded : List (Str × PyObject),
        List.Forall₂ (fun item entry => EntriesRelated Eq
          (fun data value => interp.decodedValue data = .ok value) item entry ∧
            LegalEntry limits entry) items decoded := by
      refine exists_forall₂ fun item hitem => ?_
      obtain ⟨value, hvalue, hentry⟩ := legalItem_iff.mpr (hlegal item hitem)
      exact ⟨(item.1, value), ⟨rfl, hvalue⟩, hentry⟩
    have hdecoded := hboth.imp fun _ _ h => h.1
    have hkeys := keys_eq hdecoded
    refine ⟨⟨decoded, hkeys ▸ hdistinct⟩, (decodedProperties_eq_ok hdistinct
      fun _ _ => List.not_mem_nil).mpr ⟨decoded, hdecoded, rfl⟩, ?_, fun entry hentry => ?_⟩
    · show (decoded.length : Int) ≤ _
      rw [← hdecoded.length_eq]
      exact hcount
    · obtain ⟨item, -, h⟩ := exists_partner hboth.flip hentry
      exact h.2

end Documents

/-! ## Validation of a replacement -/

/-- The operation `import_collection` applies when it replaces its destination. -/
def replacement (destination : CollectionRef) (properties : PropertyMapping) : Operation :=
  .importCollection
    { destination, properties, expectedDestinationRevision := none, policy := .replace }

section Validation

variable {service : DynamicPropertyService} {context : AccessContext}
  {destination : CollectionRef} {properties : PropertyMapping}

theorem validateEntry_iff {key : Str} {value : PyObject} (hvalue : value ≠ .none) :
    service.validateEntry key value = .ok () ↔ LegalEntry service.limits (key, value) := by
  rw [validateEntry_of_ne hvalue, bind_passes, DynamicPropertyService.validateEntryKey,
    requireNone_passes]
  constructor
  · rintro ⟨hkey, hchecked⟩
    refine ⟨hkey, ?_⟩
    split at hchecked
    next => cases hchecked
    next verdict hverdict => rw [hverdict, requireNone_passes.mp hchecked]
  · intro h
    refine ⟨h.key, ?_⟩
    rw [h.value]
    rfl

/-- What `_validate_operation` asks of a replacement. -/
theorem validateOperation_replacement_iff
    (hclean : ∀ value ∈ properties.items.map Prod.snd, ¬ Poisons value) :
    service.validateOperation (replacement destination properties) context = .ok none ↔
      service.validateRef context destination = .ok () ∧
        service.capabilities.exportImport = true ∧
        properties.items.length ≤ service.limits.maxPropertiesPerCollection ∧
        ∀ entry ∈ properties.items, LegalEntry service.limits entry := by
  have hrefs : (operationRefs (replacement destination properties)).forM
      (service.validateRef context) = .ok () ↔ service.validateRef context destination = .ok () :=
    forM_eq_ok.trans List.forall_mem_singleton
  have hentries : service.validateEntries properties = .ok () ↔
      ∀ entry ∈ properties.items, LegalEntry service.limits entry := by
    refine forM_eq_ok.trans (forall₂_congr fun entry hentry => validateEntry_iff fun heq => ?_)
    exact hclean entry.2 (List.mem_map_of_mem hentry) (heq ▸ trivial)
  rw [DynamicPropertyService.validateOperation, report_none,
    DynamicPropertyService.checkOperation, bind_passes, hrefs]
  refine and_congr_right fun _ => ?_
  show (_ >>= fun _ => _ >>= fun _ => service.validateEntries properties) = .ok () ↔ _
  rw [bind_passes, bind_passes, hentries, require_passes, DynamicPropertyService.requireCount,
    require_passes]

/-- A capable service passes a valid reference of a raw administrator. -/
theorem validateRef_passes (hadmin : context.rawAdmin = true)
    (hcapabilities : service.capabilities = InMemoryAdapter.capabilities)
    (htarget : validateTarget destination.target = none)
    (hname : validateCollection destination.collection service.limits = none) :
    service.validateRef context destination = .ok () := by
  have hkind : service.targetCapable destination.target.kind = true := by
    unfold DynamicPropertyService.targetCapable
    rw [hcapabilities]
    cases destination.target.kind <;> rfl
  have haccess : service.accessPolicy.canAccess context destination = true := by
    unfold AccessPolicy.canAccess
    rw [if_pos hadmin]
  unfold DynamicPropertyService.validateRef
  rw [bind_passes, bind_passes, bind_passes, requireNone_passes, require_passes,
    requireNone_passes, require_passes]
  exact ⟨htarget, hkind, hname, haccess⟩

end Validation

/-! ## Rejections -/

/-- The check rejects with a failure, if at all. -/
def Rejects (check : Check) : Prop :=
  ∀ result, check = .error (.rejected result) → result.ok = false

section Rejections

variable {service : DynamicPropertyService}

theorem rejects_ok : Rejects (.ok ()) := fun _ h => by cases h

theorem rejects_reject {status : Status} (h : status ≠ .applied) (message : Str) :
    Rejects (reject status message) := by
  intro result hresult
  obtain rfl : OperationResult.mk status message [] [] 0 = result := by
    injection hresult with hstop
    injection hstop
  exact decide_eq_false h

theorem rejects_bind {first : Check} {second : Unit → Check} (hfirst : Rejects first)
    (hsecond : Rejects (second ())) : Rejects (first >>= second) := by
  intro result h
  cases first with
  | ok => exact hsecond result h
  | error stop => exact hfirst result h

theorem rejects_require {supported : Prop} [Decidable supported] {status : Status}
    (h : status ≠ .applied) (message : Str) : Rejects (require supported status message) := by
  unfold require
  split
  · exact rejects_ok
  · exact rejects_reject h message

theorem rejects_requireNone {status : Status} (h : status ≠ .applied) (error : Option Str) :
    Rejects (requireNone status error) := by
  cases error with
  | none => exact rejects_ok
  | some error => exact rejects_reject h error

theorem rejects_forM {α : Type} {check : α → Check} (h : ∀ a, Rejects (check a))
    (items : List α) : Rejects (items.forM check) := by
  induction items with
  | nil => exact rejects_ok
  | cons item rest ih => exact rejects_bind (h item) ih

theorem rejects_validateRef (context : AccessContext) (ref : CollectionRef) :
    Rejects (service.validateRef context ref) :=
  rejects_bind (rejects_requireNone (by decide) _) (rejects_bind (rejects_require (by decide) _)
    (rejects_bind (rejects_requireNone (by decide) _) (rejects_require (by decide) _)))

theorem rejects_validateEntryKey (key : Str) : Rejects (service.validateEntryKey key) :=
  rejects_requireNone (by decide) _

theorem rejects_validateEntry (key : Str) (value : PyObject) :
    Rejects (service.validateEntry key value) := by
  refine rejects_bind (rejects_validateEntryKey key) ?_
  split
  · exact rejects_ok
  · split
    · exact fun _ h => by cases h
    · exact rejects_requireNone (by decide) _

theorem rejects_validateShape (operation : Operation) :
    Rejects (service.validateShape operation) := by
  cases operation with
  | setProperty entry =>
      exact rejects_bind (rejects_require (by decide) _) (rejects_validateEntry _ _)
  | setMany entry | importCollection entry =>
      exact rejects_bind (rejects_require (by decide) _)
        (rejects_bind (rejects_require (by decide) _)
          (rejects_forM (fun _ => rejects_validateEntry _ _) _))
  | removeProperty entry =>
      exact rejects_bind (rejects_require (by decide) _) (rejects_validateEntryKey _)
  | removeMany entry =>
      exact rejects_bind (rejects_require (by decide) _)
        (rejects_bind (rejects_require (by decide) _)
          (rejects_forM rejects_validateEntryKey _))
  | clearCollection entry => exact rejects_require (by decide) _
  | renameCollection entry | transferCollection entry =>
      exact rejects_bind (rejects_require (by decide) _) (rejects_require (by decide) _)
  | transferProperty entry =>
      exact rejects_bind (rejects_require (by decide) _) (rejects_bind (rejects_validateEntryKey _)
        (rejects_bind (rejects_validateEntryKey _) (rejects_bind (rejects_require (by decide) _)
          (rejects_require (by decide) _))))

/-- Validation never reports `Applied`. -/
theorem validateOperation_rejects {operation : Operation} {context : AccessContext}
    {error : OperationResult}
    (h : service.validateOperation operation context = .ok (some error)) : error.ok = false := by
  have hrejects : Rejects (service.checkOperation operation context) :=
    rejects_bind (rejects_forM (rejects_validateRef context) _) (rejects_validateShape operation)
  unfold DynamicPropertyService.validateOperation at h
  generalize service.checkOperation operation context = check at h hrejects
  cases check with
  | ok => cases h
  | error stop =>
      cases stop with
      | raised error => cases h
      | rejected result => exact Option.some.inj (Except.ok.inj h) ▸ hrejects result rfl

end Rejections

section Commit

variable {digest : Canonical → UInt64} {service : DynamicPropertyService}
  {adapter : InMemoryAdapter} {context : AccessContext} {destination : CollectionRef}
  {properties : PropertyMapping}

theorem act_replacement (look : Contents) :
    act (replacement destination properties).action look =
      some (Function.update look destination (some properties.toDict)) := by
  rw [replacement, Operation.action, act]
  cases look destination <;> rfl

theorem size_toDict (mapping : PropertyMapping) : mapping.toDict.size = mapping.items.length :=
  size_insertEntries_empty mapping.distinct

/-- What the adapter does with a replacement whose values are legal. -/
theorem apply_replacement (digest : Canonical → UInt64)
    (havail : targetAvailable adapter.availability destination.target = true)
    (hread : Readable (contents adapter.store) destination)
    (hentries : Holds Encodable Recordable properties.toDict) :
    returnsApplied (adapter.apply digest (replacement destination properties) false).1 = true ∧
      contents (adapter.apply digest (replacement destination properties) false).2.store =
        Function.update (contents adapter.store) destination (some properties.toDict) := by
  have hmember : ∀ {P : CollectionRef → Prop}, P destination →
      ∀ ref ∈ operationRefs (replacement destination properties), P ref :=
    fun h ref href => List.mem_singleton.mp href ▸ h
  have hspec := @applyIn_spec digest adapter.availability adapter.store
    (replacement destination properties) false trivial
    (fun expected hmem => List.mem_singleton.mp hmem) (hmember havail) (hmember hread)
    fun look hlook => hmember (by
      rw [act_replacement] at hlook
      obtain rfl := Option.some.inj hlook
      refine ⟨hread.describable, fun values hvalues => ?_⟩
      rw [Function.update_self] at hvalues
      exact Option.some.inj hvalues ▸ hentries)
  rw [act_replacement] at hspec
  split at hspec
  next happlied => exact ⟨happlied, Option.some.inj hspec⟩
  next => cases hspec

/-- The limits hold where the mapping itself is within the limit. -/
theorem validatePropertyLimits_replacement
    (havail : targetAvailable adapter.availability destination.target = true)
    (hread : Readable (contents adapter.store) destination)
    (hclean : ∀ value ∈ properties.items.map Prod.snd, ¬ Poisons value)
    (hvalid : service.validateOperation (replacement destination properties) context = .ok none) :
    validatePropertyLimits digest adapter service.limits [replacement destination properties] =
      .ok none := by
  obtain ⟨-, -, hcount, hlegal⟩ := (validateOperation_replacement_iff hclean).mp hvalid
  have hrecordable : ∀ value ∈ properties.items.map Prod.snd, Recordable value := by
    intro value hmem
    obtain ⟨entry, hentry, rfl⟩ := List.mem_map.mp hmem
    exact recordable_of_approved (hlegal entry hentry).value (hclean _ hmem)
  have hadmissible : Admissible digest service adapter (replacement destination properties) := by
    refine ⟨⟨context, hvalid⟩, fun expected hmem => List.mem_singleton.mp hmem, ?_, ?_, hrecordable⟩
    · intro ref href
      rw [List.mem_singleton.mp href]
      exact havail
    · intro ref href
      obtain ⟨captured, snapshot, hcapture, -⟩ := hread.capture digest havail
      exact ⟨captured, List.mem_singleton.mp href ▸ hcapture⟩
  have hentries := supplies_of_validateOperation hvalid hclean
  have hall : ∀ operation ∈ [replacement destination properties],
      Admissible digest service adapter operation :=
    fun operation hoperation => List.mem_singleton.mp hoperation ▸ hadmissible
  rcases validatePropertyLimits_cases hall false with
    ⟨-, n, hone, hlength, -, operation, hoperation, ref, href, hover⟩ | ⟨hnone, -⟩
  · obtain rfl : n = 1 := Nat.le_antisymm hlength hone
    obtain ⟨happlied, hcontents⟩ := apply_replacement digest havail hread
      fun key value hentry => ⟨(hentries key value hentry).1,
        (hentries key value hentry).2.recordable⟩
    have hstep : returnsApplied (InMemoryAdapter.applyStep digest false
        (replacement destination properties) adapter).1 = true := happlied
    have hrun : (adapter.applyEach digest ([replacement destination properties].take 1) false).2 =
        (adapter.apply digest (replacement destination properties) false).2 := by
      rw [InMemoryAdapter.applyEach, List.take_one, List.head?_cons, Option.toList_some,
        runUntil_cons_of_ok hstep]
      rfl
    have hsize : sizeAt (Function.update (contents adapter.store) destination
        (some properties.toDict)) destination = properties.items.length := by
      rw [sizeAt, Function.update_self, Option.getD_some, size_toDict]
    rw [List.mem_singleton.mp hoperation] at href
    rw [hrun, hcontents, List.mem_singleton.mp href, hsize] at hover
    exact absurd hover (Int.not_lt.mpr hcount)
  · exact hnone

/-- A valid replacement is applied. -/
theorem commitApply_replacement
    (havail : targetAvailable adapter.availability destination.target = true)
    (hread : Readable (contents adapter.store) destination)
    (hclean : ∀ value ∈ properties.items.map Prod.snd, ¬ Poisons value)
    (hvalid : service.validateOperation (replacement destination properties) context = .ok none) :
    returnsApplied (answerOf (service.commitApply digest adapter
        (replacement destination properties) false).1) = true ∧
      contents (service.commitApply digest adapter
        (replacement destination properties) false).2.store =
          Function.update (contents adapter.store) destination (some properties.toDict) := by
  have hentries := supplies_of_validateOperation hvalid hclean
  obtain ⟨happlied, hcontents⟩ := apply_replacement digest havail hread
    fun key value hentry => ⟨(hentries key value hentry).1,
      (hentries key value hentry).2.recordable⟩
  have hcommit : service.commitApply digest adapter (replacement destination properties) false =
      ((adapter.apply digest (replacement destination properties) false).1.map .ok,
        (adapter.apply digest (replacement destination properties) false).2) := by
    unfold DynamicPropertyService.commitApply
    rw [validatePropertyLimits_replacement havail hread hclean hvalid]
  rw [hcommit]
  refine ⟨?_, hcontents⟩
  cases hresult : (adapter.apply digest (replacement destination properties) false).1 with
  | error raised =>
      rw [hresult] at happlied
      cases happlied
  | ok result =>
      rw [hresult] at happlied
      exact happlied

/-- A target that is not available takes no replacement. -/
theorem commitApply_unavailable
    (havail : targetAvailable adapter.availability destination.target = false) :
    returnsApplied (answerOf (service.commitApply digest adapter
      (replacement destination properties) false).1) = false := by
  have hcapture : adapter.capture digest destination =
      .ok { status := .targetUnavailable, message := str "target is unavailable" } := by
    unfold InMemoryAdapter.capture captureIn
    rw [havail]
    rfl
  have hlimits : validatePropertyLimits digest adapter service.limits
      [replacement destination properties] =
        .ok (some { status := .targetUnavailable, message := str "target is unavailable" }) := by
    have hrefs : namedRefs [replacement destination properties] = [destination] := by
      show [destination].eraseDups = [destination]
      rw [List.eraseDups_cons]
      rfl
    unfold validatePropertyLimits validatePropertyLimitsOver
    rw [hrefs, captureShadowOver, hcapture]
    rfl
  unfold DynamicPropertyService.commitApply
  rw [hlimits]
  rfl

theorem applyResult_replacement (hread : Readable (contents adapter.store) destination)
    (hclean : ∀ value ∈ properties.items.map Prod.snd, ¬ Poisons value) :
    returnsApplied (applyResult digest service adapter (replacement destination properties)
      context) = true ↔
        targetAvailable adapter.availability destination.target = true ∧
        service.validateOperation (replacement destination properties) context = .ok none := by
  unfold applyResult
  cases hverdict : service.validateOperation (replacement destination properties) context with
  | error raised => exact iff_of_false nofun fun h => by cases h.2
  | ok verdict =>
      cases verdict with
      | none =>
          cases havail : targetAvailable adapter.availability destination.target with
          | true =>
              exact iff_of_true (commitApply_replacement havail hread hclean hverdict).1 ⟨rfl, rfl⟩
          | false =>
              refine iff_of_false (fun happlied => ?_) fun h => Bool.false_ne_true h.1
              exact Bool.false_ne_true ((commitApply_unavailable havail).symm.trans happlied)
      | some error =>
          refine iff_of_false (fun happlied => ?_) fun h => by cases h.2
          exact Bool.false_ne_true ((validateOperation_rejects hverdict).symm.trans happlied)

end Commit

/-! ## The call -/

/-- The document decodes to a mapping that passes validation. -/
structure Importable (interp : Interpreter) (limits : ValidationLimits) (document : Str)
    (properties : PropertyMapping) : Prop where
  decoded : interp.decodeDocument limits document = .ok (some properties)
  count : properties.items.length ≤ limits.maxPropertiesPerCollection
  legal : ∀ entry ∈ properties.items, LegalEntry limits entry

section Call

variable {digest : Canonical → UInt64} {interp : Interpreter} {service : DynamicPropertyService}
  {context : AccessContext} {destination : CollectionRef} {document : Str}
  {world world' : World} {outcome : Except PyError OperationResult}

/-- **What an undisturbed import that replaces its destination does.** -/
theorem returns_importCollection (hunheard : Unheard world service.eventBus)
    (hread : Readable (contents world.adapter.store) destination)
    (hreference : service.validateRef context destination = .ok ())
    (hcapable : service.capabilities.exportImport = true)
    (h : Returns (I := serviceInterface) (Acts digest)
      (service.importCollection interp destination document context .replace).run world outcome
      world') :
    (returnsApplied outcome = true ↔
      targetAvailable world.adapter.availability destination.target = true ∧
        ∃ properties, Importable interp service.limits document properties) ∧
    (targetAvailable world.adapter.availability destination.target = true →
      ∀ properties, Importable interp service.limits document properties →
        contents world'.adapter.store =
          Function.update (contents world.adapter.store) destination (some properties.toDict)) := by
  unfold DynamicPropertyService.importCollection at h
  split at h
  next raised hdecode =>
    obtain ⟨rfl, -⟩ := returns_done h
    refine ⟨iff_of_false nofun ?_, fun _ properties himport => ?_⟩
    · rintro ⟨-, properties, himport⟩
      cases hdecode.symm.trans himport.decoded
    · cases hdecode.symm.trans himport.decoded
  next hdecode =>
    obtain ⟨rfl, -⟩ := returns_done h
    refine ⟨iff_of_false nofun ?_, fun _ properties himport => ?_⟩
    · rintro ⟨-, properties, himport⟩
      cases hdecode.symm.trans himport.decoded
    · cases hdecode.symm.trans himport.decoded
  next properties hdecode =>
    have hclean := clean_of_decodeDocument hdecode
    obtain ⟨rfl, hcommitted⟩ := returns_apply hunheard h
    have hvalid : service.validateOperation (replacement destination properties) context =
        .ok none ↔ Importable interp service.limits document properties := by
      rw [validateOperation_replacement_iff hclean]
      exact ⟨fun hall => ⟨hdecode, hall.2.2.1, hall.2.2.2⟩,
        fun himport => ⟨hreference, hcapable, himport.count, himport.legal⟩⟩
    have hexists : (∃ mapping, Importable interp service.limits document mapping) ↔
        Importable interp service.limits document properties := by
      refine ⟨fun ⟨mapping, himport⟩ => ?_, fun himport => ⟨properties, himport⟩⟩
      obtain rfl := Option.some.inj (Except.ok.inj (hdecode.symm.trans himport.decoded))
      exact himport
    rw [hexists, ← hvalid]
    refine ⟨applyResult_replacement hread hclean, fun havail mapping himport => ?_⟩
    have hvalid := hvalid.mpr (hexists.mp ⟨mapping, himport⟩)
    obtain rfl := Option.some.inj (Except.ok.inj (hdecode.symm.trans himport.decoded))
    rw [hcommitted hvalid]
    exact (commitApply_replacement havail hread hclean hvalid).2

end Call

end DynamicProperties.Python
