import DynamicProperties.Library.Mirror
import DynamicProperties.Cpp.Adapter
import DynamicProperties.Python.Actions
import DynamicProperties.Python.Text

/-!
# The data of the two implementations, side by side

A `str` corresponds to the octets UTF-8 has for it, an `int` to the number of 32
bits with its value, a property value to the alternative of the same type.  Targets,
references and texts correspond one to one, so dictionaries and ordered maps can be
compared key by key (`Mirrors`).
-/

namespace DynamicProperties

open Std
open DynamicProperties.Library.Mirror

/-! ## Names -/

/-- A string and its octets. -/
def TextAlike (value : Python.Str) (octets : Cpp.ByteString) : Prop :=
  Python.encodeUtf8 value = .ok octets

theorem biUnique_textAlike : Relator.BiUnique TextAlike := by
  constructor
  · intro value value' octets h h'
    exact Python.encodeUtf8_inj h h'
  · intro value octets octets' h h'
    exact Except.ok.inj (h.symm.trans h')

theorem textAlike_str (literal : String) : TextAlike (Python.str literal) (Cpp.text literal) :=
  Python.encodeUtf8_str literal

structure BlockAlike (block : Python.BlockLocation) (block' : Cpp.BlockLocation) : Prop where
  dimension : TextAlike block.dimension block'.dimension
  x : block.x = block'.x.toInt
  y : block.y = block'.y.toInt
  z : block.z = block'.z.toInt

theorem biUnique_blockAlike : Relator.BiUnique BlockAlike := by
  constructor
  · rintro ⟨d, x, y, z⟩ ⟨d', x', y', z'⟩ block h h'
    obtain rfl : d = d' := biUnique_textAlike.1 h.dimension h'.dimension
    obtain rfl : x = x' := h.x.trans h'.x.symm
    obtain rfl : y = y' := h.y.trans h'.y.symm
    obtain rfl : z = z' := h.z.trans h'.z.symm
    rfl
  · rintro block ⟨d, x, y, z⟩ ⟨d', x', y', z'⟩ h h'
    obtain rfl : d = d' := biUnique_textAlike.2 h.dimension h'.dimension
    obtain rfl : x = x' := Int32.toInt_inj.mp (h.x.symm.trans h'.x)
    obtain rfl : y = y' := Int32.toInt_inj.mp (h.y.symm.trans h'.y)
    obtain rfl : z = z' := Int32.toInt_inj.mp (h.z.symm.trans h'.z)
    rfl

structure TargetAlike (target : Python.DynamicPropertyTarget)
    (target' : Cpp.DynamicPropertyTarget) : Prop where
  kind : target.kind = target'.kind
  worldId : TextAlike target.worldId target'.worldId
  xuid : TextAlike target.xuid target'.xuid
  entityId : TextAlike target.entityId target'.entityId
  block : Option.Rel BlockAlike target.block target'.block
  inventorySection : target.inventorySection = target'.inventorySection
  slot : target.slot = target'.slot.toInt
  itemEntityId : TextAlike target.itemEntityId target'.itemEntityId

theorem biUnique_targetAlike : Relator.BiUnique TargetAlike := by
  have hblock := biUnique_optionRel biUnique_blockAlike
  constructor
  · rintro ⟨k, w, x, e, b, i, s, d⟩ ⟨k', w', x', e', b', i', s', d'⟩ target h h'
    obtain rfl : k = k' := h.kind.trans h'.kind.symm
    obtain rfl : w = w' := biUnique_textAlike.1 h.worldId h'.worldId
    obtain rfl : x = x' := biUnique_textAlike.1 h.xuid h'.xuid
    obtain rfl : e = e' := biUnique_textAlike.1 h.entityId h'.entityId
    obtain rfl : b = b' := hblock.1 h.block h'.block
    obtain rfl : i = i' := h.inventorySection.trans h'.inventorySection.symm
    obtain rfl : s = s' := h.slot.trans h'.slot.symm
    obtain rfl : d = d' := biUnique_textAlike.1 h.itemEntityId h'.itemEntityId
    rfl
  · rintro target ⟨k, w, x, e, b, i, s, d⟩ ⟨k', w', x', e', b', i', s', d'⟩ h h'
    obtain rfl : k = k' := h.kind.symm.trans h'.kind
    obtain rfl : w = w' := biUnique_textAlike.2 h.worldId h'.worldId
    obtain rfl : x = x' := biUnique_textAlike.2 h.xuid h'.xuid
    obtain rfl : e = e' := biUnique_textAlike.2 h.entityId h'.entityId
    obtain rfl : b = b' := hblock.2 h.block h'.block
    obtain rfl : i = i' := h.inventorySection.symm.trans h'.inventorySection
    obtain rfl : s = s' := Int32.toInt_inj.mp (h.slot.symm.trans h'.slot)
    obtain rfl : d = d' := biUnique_textAlike.2 h.itemEntityId h'.itemEntityId
    rfl

structure RefAlike (ref : Python.CollectionRef) (ref' : Cpp.CollectionRef) : Prop where
  target : TargetAlike ref.target ref'.target
  collection : TextAlike ref.collection ref'.collection

theorem biUnique_refAlike : Relator.BiUnique RefAlike := by
  constructor
  · rintro ⟨t, c⟩ ⟨t', c'⟩ ref h h'
    obtain rfl : t = t' := biUnique_targetAlike.1 h.target h'.target
    obtain rfl : c = c' := biUnique_textAlike.1 h.collection h'.collection
    rfl
  · rintro ref ⟨t, c⟩ ⟨t', c'⟩ h h'
    obtain rfl : t = t' := biUnique_targetAlike.2 h.target h'.target
    obtain rfl : c = c' := biUnique_textAlike.2 h.collection h'.collection
    rfl

/-- The default targets of both sides. -/
theorem targetAlike_default : TargetAlike {} {} where
  kind := rfl
  worldId := textAlike_str "default"
  xuid := textAlike_str ""
  entityId := textAlike_str ""
  block := .none
  inventorySection := rfl
  slot := rfl
  itemEntityId := textAlike_str ""

/-! ## Values, collections and stores -/

/-- Values of the same type and content.  Python's floats are the doubles of C++. -/
inductive ValueAlike : Python.PyObject → Cpp.DynamicPropertyValue → Prop
  | bool (value : Bool) : ValueAlike (.bool value) (.bool value)
  | number (value : Cpp.Double) : ValueAlike (.float value) (.number value)
  | string {value : Python.Str} {octets : Cpp.ByteString} (h : TextAlike value octets) :
      ValueAlike (.str value) (.string octets)
  | vector3 (x y z : Cpp.Double) :
      ValueAlike (.vector3 (.float x) (.float y) (.float z)) (.vector3 ⟨x, y, z⟩)

/-- The same properties under the same keys. -/
def MapAlike (properties : Python.DynamicPropertyMap) (properties' : Cpp.DynamicPropertyMap) :
    Prop :=
  Mirrors TextAlike ValueAlike (fun key => properties[key]?) fun key => properties'[key]?

/-- The same collections with the same properties. -/
def StoreAlike (store : Python.Store) (store' : Cpp.Store) : Prop :=
  Mirrors RefAlike MapAlike (Python.contents store) fun ref => store'[ref]?

def AvailabilityAlike (availability : Python.Availability) (availability' : Cpp.Availability) :
    Prop :=
  Mirrors TargetAlike Eq (fun target => availability.lookup target) fun target =>
    availability'[target]?

theorem targetAvailable_alike {availability : Python.Availability}
    {availability' : Cpp.Availability} (h : AvailabilityAlike availability availability')
    {target : Python.DynamicPropertyTarget} {target' : Cpp.DynamicPropertyTarget}
    (htarget : TargetAlike target target') :
    Python.targetAvailable availability target = Cpp.targetAvailable availability' target' := by
  have hread := h.related target target' htarget
  unfold Python.targetAvailable Cpp.targetAvailable
  generalize availability.lookup target = x at hread ⊢
  generalize availability'[target']? = y at hread ⊢
  cases hread with
  | none => rfl
  | some heq => exact heq

/-! ## Writing to corresponding maps -/

section Maps

variable {properties source : Python.DynamicPropertyMap}
  {properties' source' : Cpp.DynamicPropertyMap}

theorem mapAlike_empty : MapAlike ∅ ∅ :=
  mirrors_none.congr (fun _ => ExtTreeMap.getElem?_empty) fun _ => ExtTreeMap.getElem?_empty

theorem MapAlike.insert (h : MapAlike properties properties') {key : Python.Str}
    {key' : Cpp.ByteString} (hkey : TextAlike key key') {value : Python.PyObject}
    {value' : Cpp.DynamicPropertyValue} (hvalue : ValueAlike value value') :
    MapAlike (properties.insert key value) (properties'.insert key' value') := by
  unfold MapAlike
  rw [Library.OrderedMap.getElem?_insert_eq_update, Library.OrderedMap.getElem?_insert_eq_update]
  exact Mirrors.update biUnique_textAlike h hkey (.some hvalue)

theorem MapAlike.erase (h : MapAlike properties properties') {key : Python.Str}
    {key' : Cpp.ByteString} (hkey : TextAlike key key') :
    MapAlike (properties.erase key) (properties'.erase key') := by
  unfold MapAlike
  rw [Library.OrderedMap.getElem?_erase_eq_update, Library.OrderedMap.getElem?_erase_eq_update]
  exact Mirrors.update biUnique_textAlike h hkey .none

theorem MapAlike.overlay (h : MapAlike properties properties') (hsource : MapAlike source source') :
    MapAlike (Library.OrderedMap.overlay properties source)
      (Library.OrderedMap.overlay properties' source') :=
  (Mirrors.or hsource h).congr (Library.OrderedMap.getElem?_overlay properties source)
    (Library.OrderedMap.getElem?_overlay properties' source')

theorem MapAlike.eraseAll (h : MapAlike properties properties') {keys : List Python.Str}
    {keys' : List Cpp.ByteString} (hkeys : List.Forall₂ TextAlike keys keys') :
    MapAlike (Library.OrderedMap.eraseAll properties keys)
      (Library.OrderedMap.eraseAll properties' keys') := by
  refine (Mirrors.without biUnique_textAlike h hkeys).congr ?_ ?_
  · intro key
    split
    · next hmem => exact Library.OrderedMap.getElem?_eraseAll_of_mem hmem
    · next hmem => exact Library.OrderedMap.getElem?_eraseAll_of_notMem hmem
  · intro key
    split
    · next hmem => exact Library.OrderedMap.getElem?_eraseAll_of_mem hmem
    · next hmem => exact Library.OrderedMap.getElem?_eraseAll_of_notMem hmem

theorem MapAlike.contains (h : MapAlike properties properties') {key : Python.Str}
    {key' : Cpp.ByteString} (hkey : TextAlike key key') :
    properties.contains key = properties'.contains key' := by
  rw [ExtTreeMap.contains_eq_isSome_getElem?, ExtTreeMap.contains_eq_isSome_getElem?]
  exact isSome_eq (h.related key key' hkey)

end Maps

theorem storeAlike_empty : StoreAlike ∅ ∅ :=
  mirrors_none.congr (fun _ => Finmap.lookup_empty _) fun _ => ExtTreeMap.getElem?_empty

theorem availabilityAlike_empty : AvailabilityAlike ∅ ∅ :=
  mirrors_none.congr (fun _ => Finmap.lookup_empty _) fun _ => ExtTreeMap.getElem?_empty

section Stores

variable {store : Python.Store} {store' : Cpp.Store} {ref : Python.CollectionRef}
  {ref' : Cpp.CollectionRef}

theorem StoreAlike.read (h : StoreAlike store store') (href : RefAlike ref ref') :
    Option.Rel MapAlike (store.lookup ref) store'[ref']? :=
  h.related ref ref' href

theorem StoreAlike.insert (h : StoreAlike store store') (href : RefAlike ref ref')
    {values : Python.DynamicPropertyMap} {values' : Cpp.DynamicPropertyMap}
    (hvalues : MapAlike values values') :
    StoreAlike (store.insert ref values) (store'.insert ref' values') := by
  unfold StoreAlike
  rw [Python.contents_insert, Library.OrderedMap.getElem?_insert_eq_update]
  exact Mirrors.update biUnique_refAlike h href (.some hvalues)

theorem StoreAlike.erase (h : StoreAlike store store') (href : RefAlike ref ref') :
    StoreAlike (store.erase ref) (store'.erase ref') := by
  unfold StoreAlike
  rw [Python.contents_erase, Library.OrderedMap.getElem?_erase_eq_update]
  exact Mirrors.update biUnique_refAlike h href .none

end Stores

end DynamicProperties
