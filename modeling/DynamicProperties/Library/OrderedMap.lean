import Mathlib.Data.Finset.Card
import Mathlib.Data.List.Dedup
import Std.Data.ExtTreeMap

/-!
# Ordered maps: overlays, bulk erasure and key sets

Three notions on top of `Std.ExtTreeMap` that a program over nested ordered
maps keeps using:

* `overlay destination source` writes every entry of `source` over
  `destination`;
* `eraseAll m keys` removes a list of keys;
* `keySet m` is the finite set of keys of `m`, and its cardinality is the size
  of the map.

Each comes with its lookup equation and with its effect on the key set, so that
a count over keys can be followed through any sequence of writes.
-/

namespace DynamicProperties.Library.OrderedMap

open Std

variable {α β : Type} [Ord α] [TransOrd α] [LawfulEqOrd α] [DecidableEq α]

/-- Write the entries of a list over a map, in order. -/
def insertEntries (m : ExtTreeMap α β compare) (entries : List (α × β)) :
    ExtTreeMap α β compare :=
  entries.foldl (fun m entry => m.insert entry.1 entry.2) m

/-- Write every entry of `source` over `destination`. -/
def overlay (destination source : ExtTreeMap α β compare) : ExtTreeMap α β compare :=
  insertEntries destination source.toList

/-- Remove every key of a list. -/
def eraseAll (m : ExtTreeMap α β compare) (keys : List α) : ExtTreeMap α β compare :=
  keys.foldl (fun m key => m.erase key) m

/-- The keys of a map, as a finite set. -/
def keySet (m : ExtTreeMap α β compare) : Finset α :=
  m.keys.toFinset

omit [DecidableEq α] in
theorem getElem?_insert_of_ne {m : ExtTreeMap α β compare} {k a : α} {v : β} (h : k ≠ a) :
    (m.insert k v)[a]? = m[a]? := by
  rw [ExtTreeMap.getElem?_insert, if_neg]
  simpa [LawfulEqCmp.compare_eq_iff_eq] using h

omit [DecidableEq α] in
theorem getElem?_erase_of_ne {m : ExtTreeMap α β compare} {k a : α} (h : k ≠ a) :
    (m.erase k)[a]? = m[a]? := by
  rw [ExtTreeMap.getElem?_erase, if_neg]
  simpa [LawfulEqCmp.compare_eq_iff_eq] using h

omit [DecidableEq α] in
/-- Removing a key that is not there changes nothing. -/
theorem erase_of_notMem {m : ExtTreeMap α β compare} {k : α} (h : k ∉ m) : m.erase k = m := by
  apply ExtTreeMap.ext_getElem?
  intro a
  by_cases heq : k = a
  · subst heq
    rw [ExtTreeMap.getElem?_erase_self, ExtTreeMap.getElem?_eq_none h]
  · exact getElem?_erase_of_ne heq

/-- Inserting is a pointwise update of the lookup function. -/
theorem getElem?_insert_eq_update (m : ExtTreeMap α β compare) (k : α) (v : β) :
    (fun a => (m.insert k v)[a]?) = Function.update (fun a => m[a]?) k (some v) := by
  funext a
  by_cases h : a = k
  · subst h
    simp
  · rw [Function.update_of_ne h, getElem?_insert_of_ne (Ne.symm h)]

/-- Erasing is a pointwise update of the lookup function. -/
theorem getElem?_erase_eq_update (m : ExtTreeMap α β compare) (k : α) :
    (fun a => (m.erase k)[a]?) = Function.update (fun a => m[a]?) k none := by
  funext a
  by_cases h : a = k
  · subst h
    simp
  · rw [Function.update_of_ne h, getElem?_erase_of_ne (Ne.symm h)]

omit [DecidableEq α] in
/-- Two maps that agree on some keys list the same entries for these keys. -/
theorem toList_filter_congr {m m' : ExtTreeMap α β compare} {P : α → Bool}
    (h : ∀ k, P k = true → m[k]? = m'[k]?) :
    (m.toList.filter fun entry => P entry.1) = m'.toList.filter fun entry => P entry.1 := by
  have hfilter : (m.filter fun k _ => P k) = m'.filter fun k _ => P k := by
    apply ExtTreeMap.ext_getElem?
    intro k
    rw [ExtTreeMap.getElem?_filter', ExtTreeMap.getElem?_filter']
    by_cases hk : P k = true
    · rw [h k hk]
    · simp [hk]
  rw [← ExtTreeMap.toList_filter (f := fun k _ => P k),
    ← ExtTreeMap.toList_filter (f := fun k _ => P k), hfilter]

/-! ## Entries in order -/

section Entries

omit [DecidableEq α]

variable {m : ExtTreeMap α β compare} {k : α} {v : β}

omit [LawfulEqOrd α] in
theorem nodup_toList : m.toList.Nodup :=
  ExtTreeMap.ordered_keys_toList.imp fun {a b} h hab => by
    rw [hab, ReflOrd.compare_self] at h
    cases h

omit [LawfulEqOrd α] in
/-- A sorted list of the entries of a map is the list the map gives. -/
theorem eq_toList_of_sorted {entries : List (α × β)}
    (hsorted : entries.Pairwise fun a b => compare a.1 b.1 = .lt)
    (hperm : entries.Perm m.toList) : entries = m.toList := by
  refine hperm.eq_of_pairwise (fun a b _ _ hab hba => ?_) hsorted ExtTreeMap.ordered_keys_toList
  exact absurd hba (OrientedCmp.not_lt_of_lt hab)

/-- A new key adds one entry. -/
theorem toList_insert_perm (h : k ∉ m) : (m.insert k v).toList.Perm ((k, v) :: m.toList) := by
  have hnew : (k, v) ∉ m.toList := fun hmem =>
    h (ExtTreeMap.mem_iff_isSome_getElem?.mpr
      (by rw [ExtTreeMap.mem_toList_iff_getElem?_eq_some.mp hmem]; rfl))
  refine (List.perm_ext_iff_of_nodup nodup_toList
    (List.nodup_cons.mpr ⟨hnew, nodup_toList⟩)).mpr fun ⟨a, b⟩ => ?_
  rw [List.mem_cons, ExtTreeMap.mem_toList_iff_getElem?_eq_some,
    ExtTreeMap.mem_toList_iff_getElem?_eq_some]
  by_cases hak : k = a
  · subst hak
    rw [ExtTreeMap.getElem?_insert_self, ExtTreeMap.getElem?_eq_none h]
    simp [eq_comm]
  · rw [getElem?_insert_of_ne hak]
    simp [Ne.symm hak]

/-- New keys add their entries. -/
theorem toList_insertEntries_perm {entries : List (α × β)}
    (hdistinct : (entries.map Prod.fst).Nodup)
    (hnew : ∀ entry ∈ entries, entry.1 ∉ m) :
    (insertEntries m entries).toList.Perm (m.toList ++ entries) := by
  induction entries generalizing m with
  | nil => rw [List.append_nil]; exact .refl _
  | cons entry rest ih =>
      obtain ⟨hfirst, hrest⟩ := List.nodup_cons.mp hdistinct
      have hstep := ih (m := m.insert entry.1 entry.2) hrest fun other hother hmem => by
        rcases ExtTreeMap.mem_insert.mp hmem with heq | hold
        · rw [LawfulEqCmp.eq_of_compare heq] at hfirst
          exact hfirst (List.mem_map_of_mem hother)
        · exact hnew other (List.mem_cons_of_mem _ hother) hold
      have hhead := toList_insert_perm (v := entry.2) (hnew entry List.mem_cons_self)
      exact hstep.trans ((hhead.append_right rest).trans List.perm_middle.symm)

/-- A map made of entries with distinct keys has as many. -/
theorem size_insertEntries_empty {entries : List (α × β)}
    (hdistinct : (entries.map Prod.fst).Nodup) :
    (insertEntries (∅ : ExtTreeMap α β compare) entries).size = entries.length := by
  have hperm := toList_insertEntries_perm (m := (∅ : ExtTreeMap α β compare)) hdistinct
    fun _ _ => ExtTreeMap.not_mem_empty
  rw [← ExtTreeMap.length_toList]
  exact hperm.length_eq

omit [LawfulEqOrd α] in
/-- The keys of a sorted list are distinct. -/
theorem nodup_of_sorted {entries : List (α × β)}
    (hsorted : entries.Pairwise fun a b => compare a.1 b.1 = .lt) :
    (entries.map Prod.fst).Nodup :=
  List.pairwise_map.mpr <| hsorted.imp fun {a b} hlt heq => by
    rw [heq, ReflOrd.compare_self] at hlt
    cases hlt

/-- A map made of some entries lists them in order. -/
theorem toList_insertEntries_empty {entries sorted : List (α × β)} (hperm : sorted.Perm entries)
    (hsorted : sorted.Pairwise fun a b => compare a.1 b.1 = .lt) :
    (insertEntries (∅ : ExtTreeMap α β compare) entries).toList = sorted := by
  have hdistinct : (entries.map Prod.fst).Nodup :=
    (hperm.map Prod.fst).nodup_iff.mp (nodup_of_sorted hsorted)
  have hall := toList_insertEntries_perm (m := (∅ : ExtTreeMap α β compare)) hdistinct
    fun entry _ => ExtTreeMap.not_mem_empty
  exact (eq_toList_of_sorted hsorted (hperm.trans hall.symm)).symm

/-- Writing the entries of a map into the empty one gives it back. -/
theorem insertEntries_toList : insertEntries ∅ m.toList = m :=
  ExtTreeMap.ext_toList
    (.of_eq (toList_insertEntries_empty (.refl _) ExtTreeMap.ordered_keys_toList))

end Entries

/-! ## Key sets -/

section KeySet

variable (m : ExtTreeMap α β compare)

@[simp] theorem mem_keySet {k : α} : k ∈ keySet m ↔ k ∈ m := by
  simp [keySet]

@[simp] theorem keySet_empty : keySet (∅ : ExtTreeMap α β compare) = ∅ := by
  ext k
  simp

omit [LawfulEqOrd α] in
/-- The size of a map is the number of its keys. -/
theorem card_keySet : (keySet m).card = m.size := by
  have hnodup : m.keys.Nodup := ExtTreeMap.nodup_keys
  rw [keySet, List.toFinset_card_of_nodup hnodup, ExtTreeMap.length_keys]

@[simp] theorem keySet_insert (k : α) (v : β) :
    keySet (m.insert k v) = insert k (keySet m) := by
  ext a
  rw [mem_keySet, ExtTreeMap.mem_insert, LawfulEqCmp.compare_eq_iff_eq, Finset.mem_insert,
    mem_keySet, eq_comm]

@[simp] theorem keySet_erase (k : α) : keySet (m.erase k) = (keySet m).erase k := by
  ext a
  rw [mem_keySet, ExtTreeMap.mem_erase, Ne, LawfulEqCmp.compare_eq_iff_eq, Finset.mem_erase,
    mem_keySet, Ne, eq_comm]

theorem keySet_insertEntries (entries : List (α × β)) :
    keySet (insertEntries m entries) = keySet m ∪ (entries.map Prod.fst).toFinset := by
  induction entries generalizing m with
  | nil => simp [insertEntries]
  | cons entry rest ih =>
      have hstep : insertEntries m (entry :: rest) =
          insertEntries (m.insert entry.1 entry.2) rest := rfl
      rw [hstep, ih, keySet_insert]
      ext a
      simp only [Finset.mem_union, Finset.mem_insert, List.map_cons, List.toFinset_cons]
      tauto

@[simp] theorem keySet_overlay (source : ExtTreeMap α β compare) :
    keySet (overlay m source) = keySet m ∪ keySet source := by
  rw [overlay, keySet_insertEntries, ExtTreeMap.map_fst_toList_eq_keys]
  rfl

@[simp] theorem keySet_eraseAll (keys : List α) :
    keySet (eraseAll m keys) = keySet m \ keys.toFinset := by
  induction keys generalizing m with
  | nil => simp [eraseAll]
  | cons key rest ih =>
      have hstep : eraseAll m (key :: rest) = eraseAll (m.erase key) rest := rfl
      rw [hstep, ih, keySet_erase]
      ext a
      simp only [Finset.mem_sdiff, Finset.mem_erase, List.toFinset_cons, Finset.mem_insert]
      tauto

end KeySet

/-! ## Entries -/

omit [DecidableEq α] in
/-- Every entry of an overwritten map comes from one of the two sides. -/
theorem entry_of_insertEntries {m : ExtTreeMap α β compare} {entries : List (α × β)} {k : α}
    {v : β} (h : (insertEntries m entries)[k]? = some v) : m[k]? = some v ∨ (k, v) ∈ entries := by
  induction entries generalizing m with
  | nil => exact Or.inl h
  | cons entry rest ih =>
      rcases ih h with hm | hmem
      · by_cases heq : entry.1 = k
        · subst heq
          rw [ExtTreeMap.getElem?_insert_self, Option.some.injEq] at hm
          exact Or.inr (by simp [← hm])
        · rw [getElem?_insert_of_ne heq] at hm
          exact Or.inl hm
      · exact Or.inr (List.mem_cons_of_mem _ hmem)

omit [DecidableEq α] in
theorem entry_of_overlay {destination source : ExtTreeMap α β compare} {k : α} {v : β}
    (h : (overlay destination source)[k]? = some v) :
    destination[k]? = some v ∨ source[k]? = some v :=
  (entry_of_insertEntries h).imp_right ExtTreeMap.mem_toList_iff_getElem?_eq_some.mp

omit [DecidableEq α] in
theorem entry_of_eraseAll {m : ExtTreeMap α β compare} {keys : List α} {k : α} {v : β}
    (h : (eraseAll m keys)[k]? = some v) : m[k]? = some v := by
  induction keys generalizing m with
  | nil => exact h
  | cons key rest ih =>
      have hm : (m.erase key)[k]? = some v := ih h
      by_cases heq : key = k
      · subst heq
        simp at hm
      · rwa [getElem?_erase_of_ne heq] at hm

/-! ## Lookups -/

section Lookups

omit [DecidableEq α]

variable {m : ExtTreeMap α β compare} {k : α}

theorem getElem?_insertEntries_of_notMem {entries : List (α × β)}
    (h : k ∉ entries.map Prod.fst) : (insertEntries m entries)[k]? = m[k]? := by
  induction entries generalizing m with
  | nil => rfl
  | cons entry rest ih =>
      rw [List.map_cons, List.mem_cons, not_or] at h
      have hstep : insertEntries m (entry :: rest) =
          insertEntries (m.insert entry.1 entry.2) rest := rfl
      rw [hstep, ih h.2, getElem?_insert_of_ne (Ne.symm h.1)]

theorem getElem?_insertEntries_of_mem {entries : List (α × β)}
    (hdistinct : (entries.map Prod.fst).Nodup) {v : β} (h : (k, v) ∈ entries) :
    (insertEntries m entries)[k]? = some v := by
  induction entries generalizing m with
  | nil => cases h
  | cons entry rest ih =>
      obtain ⟨hfresh, hrest⟩ := List.nodup_cons.mp hdistinct
      have hstep : insertEntries m (entry :: rest) =
          insertEntries (m.insert entry.1 entry.2) rest := rfl
      rw [hstep]
      rcases List.mem_cons.mp h with rfl | htail
      · rw [getElem?_insertEntries_of_notMem hfresh, ExtTreeMap.getElem?_insert_self]
      · exact ih hrest htail

theorem getElem?_insertEntries_empty {entries : List (α × β)} [BEq α] [LawfulBEq α]
    (hdistinct : (entries.map Prod.fst).Nodup) (k : α) :
    (insertEntries (∅ : ExtTreeMap α β compare) entries)[k]? = entries.lookup k := by
  cases hread : entries.lookup k with
  | some v =>
      obtain ⟨before, after, rfl, -⟩ := List.lookup_eq_some_iff.mp hread
      exact getElem?_insertEntries_of_mem hdistinct (by simp)
  | none =>
      have hfresh : k ∉ entries.map Prod.fst := by
        intro hmem
        obtain ⟨entry, hentry, rfl⟩ := List.mem_map.mp hmem
        simpa using List.lookup_eq_none_iff.mp hread entry hentry
      rw [getElem?_insertEntries_of_notMem hfresh, ExtTreeMap.getElem?_empty]

/-- The source of an overlay hides the destination. -/
theorem getElem?_overlay (destination source : ExtTreeMap α β compare) (k : α) :
    (overlay destination source)[k]? = (source[k]?).or destination[k]? := by
  have hdistinct : (source.toList.map Prod.fst).Nodup :=
    nodup_of_sorted ExtTreeMap.ordered_keys_toList
  cases hread : source[k]? with
  | some v =>
      exact getElem?_insertEntries_of_mem hdistinct
        (ExtTreeMap.mem_toList_iff_getElem?_eq_some.mpr hread)
  | none =>
      refine getElem?_insertEntries_of_notMem fun hmem => ?_
      obtain ⟨entry, hentry, rfl⟩ := List.mem_map.mp hmem
      rw [ExtTreeMap.mem_toList_iff_getElem?_eq_some.mp hentry] at hread
      cases hread

theorem getElem?_eraseAll_of_mem {keys : List α} (h : k ∈ keys) : (eraseAll m keys)[k]? = none := by
  induction keys generalizing m with
  | nil => cases h
  | cons key rest ih =>
      by_cases htail : k ∈ rest
      · exact ih htail
      · rcases List.mem_cons.mp h with rfl | hmem
        · refine Option.eq_none_iff_forall_ne_some.mpr fun v hv => ?_
          have hkept : (m.erase k)[k]? = some v := entry_of_eraseAll hv
          rw [ExtTreeMap.getElem?_erase_self] at hkept
          cases hkept
        · exact absurd hmem htail

theorem getElem?_eraseAll_of_notMem {keys : List α} (h : k ∉ keys) :
    (eraseAll m keys)[k]? = m[k]? := by
  induction keys generalizing m with
  | nil => rfl
  | cons key rest ih =>
      rw [List.mem_cons, not_or] at h
      have hstep : eraseAll m (key :: rest) = eraseAll (m.erase key) rest := rfl
      rw [hstep, ih h.2, getElem?_erase_of_ne (Ne.symm h.1)]

/-- The order in which distinct keys are written does not matter. -/
theorem insertEntries_perm {entries entries' : List (α × β)} (hperm : entries.Perm entries')
    (hdistinct : (entries.map Prod.fst).Nodup) :
    insertEntries m entries = insertEntries m entries' := by
  have hdistinct' := (hperm.map Prod.fst).nodup_iff.mp hdistinct
  apply ExtTreeMap.ext_getElem?
  intro k
  by_cases hk : k ∈ entries.map Prod.fst
  · obtain ⟨⟨_, v⟩, hentry, rfl⟩ := List.mem_map.mp hk
    rw [getElem?_insertEntries_of_mem hdistinct hentry,
      getElem?_insertEntries_of_mem hdistinct' (hperm.mem_iff.mp hentry)]
  · rw [getElem?_insertEntries_of_notMem hk,
      getElem?_insertEntries_of_notMem fun hk' => hk ((hperm.map Prod.fst).mem_iff.mpr hk')]

/-- Nor does the order, or the number of times, in which keys are removed. -/
theorem eraseAll_congr {keys keys' : List α} (h : ∀ k, k ∈ keys ↔ k ∈ keys') :
    eraseAll m keys = eraseAll m keys' := by
  apply ExtTreeMap.ext_getElem?
  intro k
  by_cases hk : k ∈ keys
  · rw [getElem?_eraseAll_of_mem hk, getElem?_eraseAll_of_mem ((h k).mp hk)]
  · rw [getElem?_eraseAll_of_notMem hk, getElem?_eraseAll_of_notMem fun hk' => hk ((h k).mpr hk')]

/-- Overlaid on nothing, a map stays what it is. -/
theorem overlay_empty (source : ExtTreeMap α β compare) : overlay ∅ source = source :=
  insertEntries_toList

end Lookups

end DynamicProperties.Library.OrderedMap
