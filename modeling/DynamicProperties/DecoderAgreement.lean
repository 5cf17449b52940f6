import DynamicProperties.Cpp.Writer
import DynamicProperties.DocumentAgreement
import DynamicProperties.Python.Imports

/-!
# Both decoders take the same properties

From the same value `_decoded_value` and the loop of `decodeCollectionJson` take the
same properties, or both refuse it.  Numbers agree up to the sign of a zero, which an
`int` does not have.
-/

namespace DynamicProperties

open Std
open DynamicProperties.Library
open DynamicProperties.Library.Fallible
open DynamicProperties.Library.Mirror
open DynamicProperties.Library.OrderedMap
open DynamicProperties.Python (Interpreter PyJson)

/-- Both return related results, or neither returns. -/
inductive DecodeAlike {ε ε' α β : Type} (R : α → β → Prop) : Except ε α → Except ε' β → Prop
  | ok {result : α} {result' : β} (h : R result result') : DecodeAlike R (.ok result) (.ok result')
  | error (error : ε) (error' : ε') : DecodeAlike R (.error error) (.error error')

namespace DecodeAlike

variable {ε ε' α β : Type} {R : α → β → Prop} {x : Except ε α} {y : Except ε' β}

theorem of_ok (h : DecodeAlike R x y) {result : α} (hx : x = .ok result) :
    ∃ result', y = .ok result' ∧ R result result' := by
  cases h with
  | ok hrelated =>
      cases hx
      exact ⟨_, rfl, hrelated⟩
  | error => cases hx

theorem of_ok' (h : DecodeAlike R x y) {result' : β} (hy : y = .ok result') :
    ∃ result, x = .ok result ∧ R result result' := by
  cases h with
  | ok hrelated =>
      cases hy
      exact ⟨_, rfl, hrelated⟩
  | error => cases hy

/-- Each result of one side has a related one on the other. -/
theorem of_forall (hleft : ∀ result, x = .ok result → ∃ result', y = .ok result' ∧ R result result')
    (hright : ∀ result', y = .ok result' → ∃ result, x = .ok result ∧ R result result') :
    DecodeAlike R x y := by
  cases x with
  | ok result =>
      obtain ⟨result', rfl, hrelated⟩ := hleft result rfl
      exact .ok hrelated
  | error error =>
      cases y with
      | ok result' =>
          obtain ⟨result, hresult, -⟩ := hright result' rfl
          cases hresult
      | error error' => exact .error error error'

end DecodeAlike

/-- Equal values: of the same type, with equal numbers. -/
inductive ValueEqual : Python.PyObject → Cpp.DynamicPropertyValue → Prop
  | bool (value : Bool) : ValueEqual (.bool value) (.bool value)
  | number {value value' : Cpp.Double} (h : NumberEqual value value') :
      ValueEqual (.float value) (.number value')
  | string {value : Python.Str} {octets : Cpp.ByteString} (h : TextAlike value octets) :
      ValueEqual (.str value) (.string octets)
  | vector3 {x y z x' y' z' : Cpp.Double} (hx : NumberEqual x x') (hy : NumberEqual y y')
      (hz : NumberEqual z z') :
      ValueEqual (.vector3 (.float x) (.float y) (.float z)) (.vector3 ⟨x', y', z'⟩)

/-! ## Objects -/

theorem forall₂_entries {κ κ' ν ν' : Type} {R : κ → κ' → Prop} {V : ν → ν' → Prop}
    {items : List (κ × ν)} {entries : List (κ' × ν')}
    (hkeys : List.Forall₂ R (items.map Prod.fst) (entries.map Prod.fst))
    (hvalues : List.Forall₂ V (items.map Prod.snd) (entries.map Prod.snd)) :
    List.Forall₂ (EntriesRelated R V) items entries := by
  induction items generalizing entries with
  | nil =>
      rw [List.map_eq_nil_iff.mp (List.forall₂_nil_left_iff.mp hkeys)]
      exact .nil
  | cons item rest ih =>
      cases entries with
      | nil => cases hkeys
      | cons entry others =>
          obtain ⟨hkey, hkeys⟩ := List.forall₂_cons.mp hkeys
          obtain ⟨hvalue, hvalues⟩ := List.forall₂_cons.mp hvalues
          exact .cons ⟨hkey, hvalue⟩ (ih hkeys hvalues)

section Objects

variable {interp : Interpreter} {items : List (Python.Str × PyJson)}
  {sorted : List (Cpp.ByteString × Cpp.JsonValue)}

/-- The items of a dictionary and the members of its object, in the order of the
document. -/
theorem JsonAlike.entries (h : JsonAlike interp (.dict items) (.object sorted)) :
    ∃ entries, List.Forall₂ (EntriesRelated TextAlike (JsonAlike interp)) items entries ∧
      (items.map Prod.fst).Nodup ∧ (entries.map Prod.fst).Nodup ∧ sorted.Perm entries := by
  cases h with
  | @dict _ entries _ hkeys hvalues hdistinct hsorted =>
      exact ⟨entries, forall₂_entries hkeys hvalues, hdistinct,
        (List.rel_nodup biUnique_textAlike hkeys).mp hdistinct, hsorted⟩

theorem JsonAlike.exists_dict {value : PyJson} (h : JsonAlike interp value (.object sorted)) :
    ∃ items, value = .dict items := by
  cases h with
  | dict => exact ⟨_, rfl⟩

theorem JsonAlike.exists_object {value : Cpp.JsonValue} (h : JsonAlike interp (.dict items) value) :
    ∃ sorted, value = .object sorted := by
  cases h with
  | dict => exact ⟨_, rfl⟩

theorem JsonAlike.lookup (h : JsonAlike interp (.dict items) (.object sorted)) (name : String) :
    Option.Rel (JsonAlike interp) (items.lookup (Python.str name)) (Cpp.member sorted name) := by
  obtain ⟨entries, hentries, -, hdistinct, hsorted⟩ := h.entries
  rw [Cpp.member, lookup_perm hsorted ((hsorted.map Prod.fst).nodup_iff.mpr hdistinct)]
  exact lookup_related biUnique_textAlike hentries (textAlike_str name)

theorem JsonAlike.length (h : JsonAlike interp (.dict items) (.object sorted)) :
    items.length = sorted.length := by
  obtain ⟨entries, hentries, -, -, hsorted⟩ := h.entries
  exact hentries.length_eq.trans hsorted.length_eq.symm

/-- Names that occur on one side occur on the other. -/
theorem JsonAlike.names (h : JsonAlike interp (.dict items) (.object sorted))
    {names : List Python.Str} {names' : List Cpp.ByteString}
    (hnames : List.Forall₂ TextAlike names names') :
    (∀ item ∈ items, item.1 ∈ names) ↔ ∀ entry ∈ sorted, entry.1 ∈ names' := by
  obtain ⟨entries, hentries, -, -, hsorted⟩ := h.entries
  constructor
  · intro hall entry hentry
    obtain ⟨item, hitem, hrelated⟩ := exists_partner hentries.flip (hsorted.subset hentry)
    exact (List.rel_mem biUnique_textAlike hrelated.1 hnames).mp (hall item hitem)
  · intro hall item hitem
    obtain ⟨entry, hentry, hrelated⟩ := exists_partner hentries hitem
    exact (List.rel_mem biUnique_textAlike hrelated.1 hnames).mpr
      (hall entry (hsorted.symm.subset hentry))

end Objects

theorem textAlike_eq_iff {name : Python.Str} {octets : Cpp.ByteString} (h : TextAlike name octets)
    (literal : String) : name = Python.str literal ↔ octets = Cpp.text literal := by
  constructor
  · rintro rfl
    exact biUnique_textAlike.2 h (textAlike_str literal)
  · rintro rfl
    exact biUnique_textAlike.1 h (textAlike_str literal)

/-! ## Numbers -/

section Numbers

variable {interp : Interpreter} {value : PyJson} {value' : Cpp.JsonValue}

/-- `float` of a number of a document. -/
theorem toFloat_alike {number : Cpp.Double} (h : JsonAlike interp value (.number number)) :
    Interpreter.isNumber value = true ∧
      ∃ number', interp.toFloat value = .ok number' ∧ NumberEqual number' number ∧
        number'.isFinite = true := by
  cases h with
  | @int value _ hint =>
      refine ⟨rfl, interp.ofInt value, ?_, hint.equal, hint.equal.isFinite.trans hint.finite⟩
      rw [Interpreter.toFloat]
      exact if_neg (Nat.not_le.mpr hint.range)
  | float hfinite => exact ⟨rfl, number, rfl, .inl rfl, hfinite⟩

theorem isNumber_iff (h : JsonAlike interp value value') :
    Interpreter.isNumber value = true ↔ ∃ number, value' = .number number := by
  constructor
  · intro hnumber
    cases h with
    | null | bool | str | list | dict => cases hnumber
    | int => exact ⟨_, rfl⟩
    | float => exact ⟨_, rfl⟩
  · rintro ⟨number, rfl⟩
    exact (toFloat_alike h).1

end Numbers

/-! ## Property values -/

section Values

variable {interp : Interpreter} {value : PyJson} {value' : Cpp.JsonValue}

theorem decodedNumber_alike (type : PyJson) (h : JsonAlike interp value value') :
    DecodeAlike ValueEqual (interp.decodedNumber type value)
      (Cpp.decodeTyped (Cpp.text "number") value') := by
  by_cases hnumber : Interpreter.isNumber value = true
  · obtain ⟨number, rfl⟩ := (isNumber_iff h).mp hnumber
    obtain ⟨-, number', hfloat, hequal, hfinite⟩ := toFloat_alike h
    have hpython : interp.decodedNumber type value = .ok (.float number') := by
      rw [Interpreter.decodedNumber, if_pos hnumber, hfloat, ok_bind, if_pos hfinite]
      rfl
    have hcpp : Cpp.decodeTyped (Cpp.text "number") (.number number) = .ok (.number number) :=
      if_pos (hequal.isFinite.symm.trans hfinite)
    rw [hpython, hcpp]
    exact .ok (.number hequal)
  · rw [Interpreter.decodedNumber, if_neg hnumber]
    cases h with
    | null | bool | str | list | dict => exact .error _ _
    | int | float => exact absurd rfl hnumber

/-- The coordinates of a vector. -/
theorem decodedCoordinates_alike (type : PyJson) {x y z : PyJson} {x' y' z' : Cpp.JsonValue}
    (hx : JsonAlike interp x x') (hy : JsonAlike interp y y') (hz : JsonAlike interp z z') :
    DecodeAlike ValueEqual (interp.decodedVector type (.list [x, y, z]))
      (Cpp.decodeTyped (Cpp.text "vector3") (.array [x', y', z'])) := by
  have hall : [x, y, z].all Interpreter.isNumber = true ↔
      ∃ a b c, x' = .number a ∧ y' = .number b ∧ z' = .number c := by
    simp only [List.all_cons, List.all_nil, Bool.and_true, Bool.and_eq_true, isNumber_iff hx,
      isNumber_iff hy, isNumber_iff hz]
    constructor
    · rintro ⟨⟨a, ha⟩, ⟨b, hb⟩, c, hc⟩
      exact ⟨a, b, c, ha, hb, hc⟩
    · rintro ⟨a, b, c, ha, hb, hc⟩
      exact ⟨⟨a, ha⟩, ⟨b, hb⟩, c, hc⟩
  by_cases hnumbers : [x, y, z].all Interpreter.isNumber = true
  · obtain ⟨a, b, c, rfl, rfl, rfl⟩ := hall.mp hnumbers
    obtain ⟨-, a', hfloat, hxequal, hxfinite⟩ := toFloat_alike hx
    obtain ⟨-, b', hfloat', hyequal, hyfinite⟩ := toFloat_alike hy
    obtain ⟨-, c', hfloat'', hzequal, hzfinite⟩ := toFloat_alike hz
    have hpython : interp.decodedVector type (.list [x, y, z]) =
        .ok (.vector3 (.float a') (.float b') (.float c')) := by
      simp only [Interpreter.decodedVector, hnumbers, hfloat, hfloat', hfloat'', ok_bind, hxfinite,
        hyfinite, hzfinite, Bool.and_self, if_true]
      rfl
    rw [hpython]
    exact .ok (.vector3 hxequal hyequal hzequal)
  · have hpython : interp.decodedVector type (.list [x, y, z]) =
        .error (.valueError (Python.str "vector coordinates must be numbers")) :=
      if_neg hnumbers
    have hcpp : Cpp.decodeTyped (Cpp.text "vector3") (.array [x', y', z']) =
        .error (Cpp.text "vector3 coordinates must be numbers") := by
      unfold Cpp.decodeTyped
      rw [if_neg (by decide), if_neg (by decide), if_neg (by decide), if_pos rfl]
      dsimp only
      split
      next a b c => exact absurd (hall.mpr ⟨a, b, c, rfl, rfl, rfl⟩) hnumbers
      next => rfl
    rw [hpython, hcpp]
    exact .error _ _

theorem decodedVector_alike (type : PyJson) (h : JsonAlike interp value value') :
    DecodeAlike ValueEqual (interp.decodedVector type value)
      (Cpp.decodeTyped (Cpp.text "vector3") value') := by
  cases h with
  | null | bool | int | float | str | dict => exact .error _ _
  | list helements =>
      cases helements with
      | nil => exact .error _ _
      | cons hx helements =>
          cases helements with
          | nil => exact .error _ _
          | cons hy helements =>
              cases helements with
              | nil => exact .error _ _
              | cons hz helements =>
                  cases helements with
                  | nil => exact decodedCoordinates_alike type hx hy hz
                  | cons => exact .error _ _

/-- The branches by the declared type. -/
theorem decodedTyped_alike {name : Python.Str} {octets : Cpp.ByteString}
    (hname : TextAlike name octets) (h : JsonAlike interp value value') :
    DecodeAlike ValueEqual (interp.decodedTyped (.str name) value)
      (Cpp.decodeTyped octets value') := by
  have hiff := textAlike_eq_iff hname
  unfold Interpreter.decodedTyped
  dsimp only
  by_cases hbool : name = Python.str "bool"
  · rw [if_pos hbool, (hiff "bool").mp hbool]
    cases h with
    | bool flag => exact .ok (ValueEqual.bool flag)
    | null | int | float | str | list | dict => exact .error _ _
  rw [if_neg hbool]
  by_cases hnumber : name = Python.str "number"
  · rw [if_pos hnumber, (hiff "number").mp hnumber]
    exact decodedNumber_alike _ h
  rw [if_neg hnumber]
  by_cases hstring : name = Python.str "string"
  · rw [if_pos hstring, (hiff "string").mp hstring]
    cases h with
    | str htext => exact .ok (ValueEqual.string htext)
    | null | bool | int | float | list | dict => exact .error _ _
  rw [if_neg hstring]
  by_cases hvector : name = Python.str "vector3"
  · rw [if_pos hvector, (hiff "vector3").mp hvector]
    exact decodedVector_alike _ h
  unfold Cpp.decodeTyped
  rw [if_neg hvector, if_neg fun heq => hbool ((hiff "bool").mpr heq),
    if_neg fun heq => hnumber ((hiff "number").mpr heq),
    if_neg fun heq => hstring ((hiff "string").mpr heq),
    if_neg fun heq => hvector ((hiff "vector3").mpr heq)]
  exact .error _ _

end Values

/-! ## Property entries -/

section Entries

variable {interp : Interpreter} {items : List (Python.Str × PyJson)}

/-- With both names among distinct names, there are no others where there are two. -/
theorem onlyTypeAndValue_iff (hdistinct : (items.map Prod.fst).Nodup)
    (htype : Python.str "type" ∈ items.map Prod.fst)
    (hvalue : Python.str "value" ∈ items.map Prod.fst) :
    (items.all fun item => item.1 = Python.str "type" || item.1 = Python.str "value") = true ↔
      items.length = 2 := by
  have hpair : [Python.str "type", Python.str "value"].Subperm (items.map Prod.fst) := by
    refine List.Nodup.subperm (by decide) fun name hname => ?_
    simp only [List.mem_cons, List.not_mem_nil, or_false] at hname
    rcases hname with rfl | rfl
    · exact htype
    · exact hvalue
  have hall : (items.all fun item =>
      item.1 = Python.str "type" || item.1 = Python.str "value") = true ↔
        items.map Prod.fst ⊆ [Python.str "type", Python.str "value"] := by
    simp only [List.all_eq_true, Bool.or_eq_true, decide_eq_true_eq]
    constructor
    · intro h name hname
      obtain ⟨item, hitem, rfl⟩ := List.mem_map.mp hname
      simpa using h item hitem
    · intro h item hitem
      simpa using h (List.mem_map_of_mem hitem)
  rw [hall]
  constructor
  · intro hsubset
    have hlength := (hdistinct.subperm hsubset).antisymm hpair |>.length_eq
    rw [List.length_map] at hlength
    exact hlength
  · intro hlength
    have hle : (items.map Prod.fst).length ≤ [Python.str "type", Python.str "value"].length := by
      rw [List.length_map, hlength]
      exact Nat.le_refl 2
    exact (hpair.perm_of_length_le hle).symm.subset

/-- The entry of a property is a dictionary of a type and a value. -/
def IsEntry (items : List (Python.Str × PyJson)) (type value : PyJson) : Prop :=
  items.length = 2 ∧ items.lookup (Python.str "type") = some type ∧
    items.lookup (Python.str "value") = some value

theorem typeAndValue_eq_some (hdistinct : (items.map Prod.fst).Nodup) {type value : PyJson} :
    Interpreter.typeAndValue items = some (type, value) ↔ IsEntry items type value := by
  unfold Interpreter.typeAndValue
  constructor
  · intro h
    split at h
    next hall =>
      split at h
      next htype hvalue =>
        cases h
        exact ⟨(onlyTypeAndValue_iff hdistinct (List.mem_map_of_mem (mem_of_lookup htype))
          (List.mem_map_of_mem (mem_of_lookup hvalue))).mp hall,
          htype, hvalue⟩
      next => cases h
    next => cases h
  · rintro ⟨hlength, htype, hvalue⟩
    rw [if_pos ((onlyTypeAndValue_iff hdistinct (List.mem_map_of_mem (mem_of_lookup htype))
      (List.mem_map_of_mem (mem_of_lookup hvalue))).mpr hlength), htype, hvalue]

/-- An entry of C++, by its type and its value. -/
theorem decodeEntry_object {sorted : List (Cpp.ByteString × Cpp.JsonValue)}
    {type value : Cpp.JsonValue} (hlength : sorted.length = 2)
    (htype : Cpp.member sorted "type" = some type)
    (hvalue : Cpp.member sorted "value" = some value) :
    (∀ octets, type = .string octets →
      Cpp.decodeEntry (.object sorted) = Cpp.decodeTyped octets value) ∧
    ((∀ octets, type ≠ .string octets) →
      Cpp.decodeEntry (.object sorted) =
        .error (Cpp.text "property entry requires type and value")) := by
  have hmatch : Cpp.decodeEntry (.object sorted) =
      Cpp.decodeEntry (.object [(Cpp.text "type", type), (Cpp.text "value", value)]) := by
    unfold Cpp.decodeEntry
    dsimp only
    rw [hlength, htype, hvalue]
    rfl
  constructor
  · rintro octets rfl
    exact hmatch
  · intro hother
    rw [hmatch]
    cases type with
    | string octets => exact absurd rfl (hother octets)
    | null | bool | number | array | object => rfl

theorem decodeEntry_malformed {sorted : List (Cpp.ByteString × Cpp.JsonValue)}
    (h : ∀ type value, ¬ (sorted.length = 2 ∧ Cpp.member sorted "type" = some type ∧
      Cpp.member sorted "value" = some value)) :
    Cpp.decodeEntry (.object sorted) =
      .error (Cpp.text "property entry must contain only type and value") := by
  unfold Cpp.decodeEntry
  dsimp only
  split
  next type value hlength htype hvalue => exact absurd ⟨hlength, htype, hvalue⟩ (h type value)
  next => rfl

/-- The entry of an object. -/
theorem decodedEntry_alike {sorted : List (Cpp.ByteString × Cpp.JsonValue)}
    (h : JsonAlike interp (.dict items) (.object sorted)) :
    DecodeAlike ValueEqual (interp.decodedValue (.dict items))
      (Cpp.decodeEntry (.object sorted)) := by
  have htype := h.lookup "type"
  have hvalue := h.lookup "value"
  have hlength := h.length
  obtain ⟨-, -, hdistinct, -, -⟩ := h.entries
  by_cases hentry : ∃ type value, IsEntry items type value
  · obtain ⟨type, value, hentry⟩ := hentry
    have hpython : interp.decodedValue (.dict items) = interp.decodedTyped type value := by
      unfold Interpreter.decodedValue
      dsimp only
      rw [(typeAndValue_eq_some hdistinct).mpr hentry]
    obtain ⟨type', hmember, htype⟩ := exists_right (hentry.2.1 ▸ htype)
    obtain ⟨value', hmember', hvalue⟩ := exists_right (hentry.2.2 ▸ hvalue)
    have hcpp := decodeEntry_object (hlength.symm.trans hentry.1) hmember hmember'
    rw [hpython]
    cases htype with
    | str hname =>
        rw [hcpp.1 _ rfl]
        exact decodedTyped_alike hname hvalue
    | null | bool | int | float | list | dict =>
        rw [hcpp.2 fun octets heq => Cpp.JsonValue.noConfusion heq]
        exact .error _ _
  · have hpython : interp.decodedValue (.dict items) =
        .error (.valueError (Python.str "property entry must contain only type and value")) := by
      unfold Interpreter.decodedValue
      dsimp only
      cases hfound : Interpreter.typeAndValue items with
      | none => rfl
      | some found => exact absurd ⟨_, _, (typeAndValue_eq_some hdistinct).mp hfound⟩ hentry
    rw [hpython, decodeEntry_malformed]
    · exact .error _ _
    · rintro type' value' ⟨hcount, hmember, hmember'⟩
      obtain ⟨type, htype, -⟩ := exists_left (hmember ▸ htype)
      obtain ⟨value, hvalue, -⟩ := exists_left (hmember' ▸ hvalue)
      exact hentry ⟨type, value, hlength.trans hcount, htype, hvalue⟩

/-- **Both decoders take the same value from an entry, or none.** -/
theorem decodedValue_alike {data : PyJson} {data' : Cpp.JsonValue}
    (h : JsonAlike interp data data') :
    DecodeAlike ValueEqual (interp.decodedValue data) (Cpp.decodeEntry data') := by
  cases h with
  | null | bool | int | float | str | list => exact .error _ _
  | dict hkeys hvalues hdistinct hsorted =>
      exact decodedEntry_alike (.dict hkeys hvalues hdistinct hsorted)

end Entries

/-! ## Properties -/

/-- The map holds the entries of the mapping. -/
def MappingEqual (mapping : Python.PropertyMapping) (properties : Cpp.DynamicPropertyMap) : Prop :=
  ∃ entries, List.Forall₂ (EntriesRelated TextAlike ValueEqual) mapping.items entries ∧
    properties = insertEntries ∅ entries

/-- Equal properties under the same keys. -/
def PropertiesEqual (properties : Python.DynamicPropertyMap)
    (properties' : Cpp.DynamicPropertyMap) :
    Prop :=
  Mirrors TextAlike ValueEqual (fun key => properties[key]?) fun key => properties'[key]?

section Mappings

variable {mapping : Python.PropertyMapping} {properties : Cpp.DynamicPropertyMap}

theorem distinct_of_related {entries : List (Cpp.ByteString × Cpp.DynamicPropertyValue)}
    (h : List.Forall₂ (EntriesRelated TextAlike ValueEqual) mapping.items entries) :
    (entries.map Prod.fst).Nodup := by
  refine (List.rel_nodup biUnique_textAlike ?_).mp mapping.distinct
  exact List.rel_map (fun _ _ hentry => hentry.1) h

theorem MappingEqual.propertiesEqual (h : MappingEqual mapping properties) :
    PropertiesEqual mapping.toDict properties := by
  obtain ⟨entries, hentries, rfl⟩ := h
  exact (mirrors_lookup biUnique_textAlike hentries).congr
    (getElem?_insertEntries_empty mapping.distinct)
    (getElem?_insertEntries_empty (distinct_of_related hentries))

theorem MappingEqual.size (h : MappingEqual mapping properties) :
    mapping.items.length = properties.size := by
  obtain ⟨entries, hentries, rfl⟩ := h
  rw [size_insertEntries_empty (distinct_of_related hentries)]
  exact hentries.length_eq

/-- A condition on entries that both sides share holds of both or of neither. -/
theorem MappingEqual.forall_iff (h : MappingEqual mapping properties)
    {P : Python.Str × Python.PyObject → Prop} {Q : Cpp.ByteString → Cpp.DynamicPropertyValue → Prop}
    (hiff : ∀ item item', EntriesRelated TextAlike ValueEqual item item' →
      (P item ↔ Q item'.1 item'.2)) :
    (∀ item ∈ mapping.items, P item) ↔
      ∀ key value, properties[key]? = some value → Q key value := by
  obtain ⟨entries, hentries, rfl⟩ := h
  have hdistinct := distinct_of_related hentries
  constructor
  · intro hall key value hread
    rcases entry_of_insertEntries hread with hnone | hmem
    · rw [ExtTreeMap.getElem?_empty] at hnone
      cases hnone
    · obtain ⟨item, hitem, hrelated⟩ := exists_partner hentries.flip hmem
      exact (hiff item (key, value) hrelated).mp (hall item hitem)
  · intro hall item hitem
    obtain ⟨entry, hentry, hrelated⟩ := exists_partner hentries hitem
    exact (hiff item entry hrelated).mpr
      (hall entry.1 entry.2 (getElem?_insertEntries_of_mem hdistinct hentry))

end Mappings

section Decoders

variable {interp : Interpreter} {items : List (Python.Str × PyJson)}
  {sorted : List (Cpp.ByteString × Cpp.JsonValue)}

/-- **Both decoders take equal properties from corresponding objects, or none.** -/
theorem decodedProperties_alike (h : JsonAlike interp (.dict items) (.object sorted)) :
    DecodeAlike MappingEqual (interp.decodedProperties items ⟨[], List.nodup_nil⟩)
      (Cpp.decodeProperties sorted ∅) := by
  obtain ⟨entries, hentries, hdistinct, hdistinct', hsorted⟩ := h.entries
  have hdistinctSorted := (hsorted.map Prod.fst).nodup_iff.mpr hdistinct'
  refine .of_forall ?_ ?_
  · intro mapping hmapping
    obtain ⟨decoded, hdecoded, hitems⟩ :=
      (Python.decodedProperties_eq_ok hdistinct fun _ _ => List.not_mem_nil).mp hmapping
    have hstep : ∀ data data', JsonAlike interp data data' → ∀ value,
        interp.decodedValue data = .ok value →
          ∃ value', Cpp.decodeEntry data' = .ok value' ∧ ValueEqual value value' :=
      fun _ _ halike _ hvalue => (decodedValue_alike halike).of_ok hvalue
    obtain ⟨decoded', hdecoded', hequal⟩ := exists_reading hstep hentries hdecoded
    obtain ⟨reordered, hreordered, hperm⟩ := List.perm_comp_forall₂ hsorted hdecoded'
    refine ⟨insertEntries ∅ reordered, (Cpp.decodeProperties_eq_ok hdistinctSorted
      fun _ _ => ExtTreeMap.not_mem_empty).mpr ⟨reordered, hreordered, rfl⟩, decoded', ?_, ?_⟩
    · rw [hitems]
      exact hequal
    · exact insertEntries_perm hperm (keys_eq hreordered ▸ hdistinctSorted)
  · intro properties hproperties
    obtain ⟨reordered, hreordered, rfl⟩ := (Cpp.decodeProperties_eq_ok hdistinctSorted
      fun _ _ => ExtTreeMap.not_mem_empty).mp hproperties
    obtain ⟨decoded', hdecoded', hperm⟩ := List.perm_comp_forall₂ hsorted.symm hreordered
    have hstep : ∀ data' data, flip (JsonAlike interp) data' data → ∀ value',
        Cpp.decodeEntry data' = .ok value' →
          ∃ value, interp.decodedValue data = .ok value ∧ flip ValueEqual value' value :=
      fun _ _ halike _ hvalue => (decodedValue_alike halike).of_ok' hvalue
    have hflipped : List.Forall₂ (EntriesRelated (flip TextAlike) (flip (JsonAlike interp)))
        entries items := hentries.flip
    obtain ⟨decoded, hdecoded, hback⟩ := exists_reading hstep hflipped hdecoded'
    have hequal : List.Forall₂ (EntriesRelated TextAlike ValueEqual) decoded decoded' := hback.flip
    have hkeys := keys_eq hdecoded
    refine ⟨⟨decoded, hkeys ▸ hdistinct⟩, (Python.decodedProperties_eq_ok hdistinct
      fun _ _ => List.not_mem_nil).mpr ⟨decoded, hdecoded, rfl⟩, decoded', hequal, ?_⟩
    exact insertEntries_perm hperm.symm (keys_eq hreordered ▸ hdistinctSorted)

end Decoders

/-! ## Documents -/

section Documents

variable {interp : Interpreter} {format : Cpp.NumberFormat}

theorem allowedFields_alike :
    List.Forall₂ TextAlike Python.allowedFields Cpp.allowedRootFields :=
  .cons (textAlike_str "schema") <| .cons (textAlike_str "target") <|
    .cons (textAlike_str "collection") <| .cons (textAlike_str "revision") <|
      .cons (textAlike_str "properties") .nil

/-- Schema 1, which Python also takes `true` for. -/
theorem schema_alike {schema : PyJson} {schema' : Cpp.JsonValue}
    (h : JsonAlike interp schema schema') :
    schema' = .number Cpp.doubleOne ↔
      Python.equalsOne schema = true ∧ schema ≠ .bool true := by
  cases h with
  | null | str | list | dict => exact iff_of_false nofun fun h => Bool.false_ne_true h.1
  | bool flag => cases flag <;> simp [Python.equalsOne]
  | int hint => simp [Python.equalsOne, hint.one]
  | float => simp [Python.equalsOne]

theorem importRoot_alike {fields items : List (Python.Str × PyJson)} {schema : PyJson}
    {root : List (Cpp.ByteString × Cpp.JsonValue)}
    (h : JsonAlike interp (.dict fields) (.object root))
    (hroot : Python.ImportRoot fields items schema) (hschema : schema ≠ .bool true) :
    ∃ sorted, Cpp.ImportRoot root sorted ∧ JsonAlike interp (.dict items) (.object sorted) := by
  obtain ⟨schema', hmember, hrelated⟩ := exists_right (hroot.found ▸ h.lookup "schema")
  obtain ⟨properties, hmember', halike⟩ := exists_right (hroot.properties ▸ h.lookup "properties")
  have hone := (schema_alike hrelated).mpr ⟨hroot.one, hschema⟩
  have hallowed := (h.names allowedFields_alike).mp hroot.allowed
  cases halike with
  | dict hkeys hvalues hdistinct hsorted =>
      exact ⟨_, ⟨hallowed, hone ▸ hmember, hmember'⟩, .dict hkeys hvalues hdistinct hsorted⟩

theorem importRoot_alike' {fields : List (Python.Str × PyJson)}
    {root sorted : List (Cpp.ByteString × Cpp.JsonValue)}
    (h : JsonAlike interp (.dict fields) (.object root)) (hroot : Cpp.ImportRoot root sorted) :
    ∃ items schema, Python.ImportRoot fields items schema ∧ schema ≠ .bool true ∧
      JsonAlike interp (.dict items) (.object sorted) := by
  obtain ⟨schema, hfound, hrelated⟩ := exists_left (hroot.schema ▸ h.lookup "schema")
  obtain ⟨properties, hfound', halike⟩ := exists_left (hroot.properties ▸ h.lookup "properties")
  obtain ⟨hone, hschema⟩ := (schema_alike hrelated).mp rfl
  have hallowed := (h.names allowedFields_alike).mpr hroot.allowed
  cases halike with
  | dict hkeys hvalues hdistinct hsorted =>
      exact ⟨_, schema, ⟨hallowed, hfound, hone, hfound'⟩, hschema,
        .dict hkeys hvalues hdistinct hsorted⟩

/-- A document has one value. -/
theorem loads_eq_ok {document : Python.Str} {value : PyJson} :
    interp.loads document = .ok value ↔ interp.Reads document value := by
  unfold Interpreter.loads
  split
  next hreads =>
    rw [Except.ok.injEq]
    constructor
    · rintro rfl
      exact hreads.choose_spec
    · rintro ⟨tree, htext, hread⟩
      obtain ⟨tree', htext', hread'⟩ := hreads.choose_spec
      obtain rfl := htext.unique (lexical_python interp) htext'
      exact Option.some.inj (hread'.symm.trans hread)
  next hreads => exact iff_of_false nofun fun h => hreads ⟨value, h⟩

end Documents

end DynamicProperties
