import Mathlib.Data.List.Nodup
import Mathlib.Data.List.Perm.Basic
import Mathlib.Logic.Function.Basic

/-!
# Lookup functions that mirror each other

Two maps with different keys and values, seen as lookup functions, under a relation
that pairs keys one to one and a relation on values.  They mirror each other when
paired keys hold related values, or both hold none, and neither map has a key the
other side cannot name.  Updating both at paired keys keeps that, so two programs
that write alike stay alike.
-/

namespace DynamicProperties.Library.Mirror

variable {κ κ' ν ν' : Type} {R : κ → κ' → Prop} {V : ν → ν' → Prop}

structure Mirrors (R : κ → κ' → Prop) (V : ν → ν' → Prop) (f : κ → Option ν)
    (g : κ' → Option ν') : Prop where
  related : ∀ k k', R k k' → Option.Rel V (f k) (g k')
  left : ∀ k, (f k).isSome = true → ∃ k', R k k'
  right : ∀ k', (g k').isSome = true → ∃ k, R k k'

theorem mirrors_none : Mirrors R V (fun _ => none) fun _ => none where
  related _ _ _ := .none
  left _ h := by cases h
  right _ h := by cases h

/-- Entries with paired keys and related values. -/
def EntriesRelated (R : κ → κ' → Prop) (V : ν → ν' → Prop) (item : κ × ν) (item' : κ' × ν') :
    Prop :=
  R item.1 item'.1 ∧ V item.2 item'.2

theorem exists_partner {α β : Type} {r : α → β → Prop} {l : List α} {l' : List β}
    (h : List.Forall₂ r l l') {a : α} (ha : a ∈ l) : ∃ b ∈ l', r a b := by
  induction h with
  | nil => cases ha
  | cons hhead _ ih =>
      rcases List.mem_cons.mp ha with rfl | htail
      · exact ⟨_, List.mem_cons_self, hhead⟩
      · obtain ⟨b, hb, hr⟩ := ih htail
        exact ⟨b, List.mem_cons_of_mem _ hb, hr⟩

theorem exists_forall₂ {α β : Type} {r : α → β → Prop} {l : List α} (h : ∀ a ∈ l, ∃ b, r a b) :
    ∃ l', List.Forall₂ r l l' := by
  induction l with
  | nil => exact ⟨[], .nil⟩
  | cons a rest ih =>
      obtain ⟨b, hb⟩ := h a List.mem_cons_self
      obtain ⟨rest', hrest⟩ := ih fun a' ha => h a' (List.mem_cons_of_mem _ ha)
      exact ⟨b :: rest', .cons hb hrest⟩

/-- Reordering entries with distinct keys changes no lookup. -/
theorem lookup_perm {α β : Type} [BEq α] [LawfulBEq α] {l l' : List (α × β)} (h : l.Perm l')
    (hdistinct : (l.map Prod.fst).Nodup) (a : α) : l.lookup a = l'.lookup a := by
  induction h with
  | nil => rfl
  | cons entry _ ih =>
      obtain ⟨k, v⟩ := entry
      rw [List.lookup_cons, List.lookup_cons, ih (List.nodup_cons.mp hdistinct).2]
  | swap first second rest =>
      obtain ⟨k, v⟩ := first
      obtain ⟨k', v'⟩ := second
      rw [List.lookup_cons, List.lookup_cons, List.lookup_cons, List.lookup_cons]
      by_cases ha : a = k'
      · have hne : k' ≠ k := fun heq => (List.nodup_cons.mp hdistinct).1 (by simp [heq])
        subst ha
        rw [beq_self_eq_true, beq_eq_false_iff_ne.mpr hne]
      · rw [beq_eq_false_iff_ne.mpr ha]
  | trans hfirst _ ih ih' =>
      rw [ih hdistinct, ih' ((hfirst.map Prod.fst).nodup_iff.mp hdistinct)]

theorem mem_of_lookup {α β : Type} [BEq α] [LawfulBEq α] {l : List (α × β)} {a : α} {b : β}
    (h : l.lookup a = some b) : (a, b) ∈ l := by
  obtain ⟨before, after, rfl, -⟩ := List.lookup_eq_some_iff.mp h
  simp

/-- Lookups in related lists of entries. -/
theorem lookup_related [BEq κ] [LawfulBEq κ] [BEq κ'] [LawfulBEq κ'] (hR : Relator.BiUnique R)
    {items : List (κ × ν)} {items' : List (κ' × ν')}
    (h : List.Forall₂ (EntriesRelated R V) items items') {k : κ} {k' : κ'} (hk : R k k') :
    Option.Rel V (items.lookup k) (items'.lookup k') := by
  induction h with
  | nil => exact .none
  | @cons item item' rest rest' hhead _ ih =>
      obtain ⟨a, v⟩ := item
      obtain ⟨a', v'⟩ := item'
      rw [List.lookup_cons, List.lookup_cons]
      by_cases heq : k = a
      · obtain rfl : k' = a' := hR.2 hk (heq ▸ hhead.1)
        rw [heq, beq_self_eq_true, beq_self_eq_true]
        exact .some hhead.2
      · have hne : k' ≠ a' := fun heq' => heq (hR.1 hk (heq' ▸ hhead.1))
        rw [beq_eq_false_iff_ne.mpr heq, beq_eq_false_iff_ne.mpr hne]
        exact ih

theorem isSome_eq {x : Option ν} {y : Option ν'} (h : Option.Rel V x y) : x.isSome = y.isSome := by
  cases h <;> rfl

theorem exists_right {x : ν} {y : Option ν'} (h : Option.Rel V (some x) y) :
    ∃ y', y = some y' ∧ V x y' := by
  cases h with
  | some hv => exact ⟨_, rfl, hv⟩

theorem exists_left {x : Option ν} {y : ν'} (h : Option.Rel V x (some y)) :
    ∃ x', x = some x' ∧ V x' y := by
  cases h with
  | some hv => exact ⟨_, rfl, hv⟩

theorem biUnique_optionRel (h : Relator.BiUnique V) : Relator.BiUnique (Option.Rel V) := by
  constructor
  · intro x y z hx hy
    cases hx with
    | none => cases hy; rfl
    | some hx => cases hy with
      | some hy => rw [h.1 hx hy]
  · intro x y z hx hy
    cases hx with
    | none => cases hy; rfl
    | some hx => cases hy with
      | some hy => rw [h.2 hx hy]

/-- Entries under the same keys. -/
theorem keys_eq {items : List (κ × ν)} {items' : List (κ × ν')}
    (h : List.Forall₂ (EntriesRelated Eq V) items items') :
    items.map Prod.fst = items'.map Prod.fst :=
  List.forall₂_eq_eq_eq ▸ List.rel_map (fun _ _ hentry => hentry.1) h

/-- Related entries are read entry by entry: what one side reads, the other reads. -/
theorem exists_reading {α α' : Type} {A : α → α' → Prop} {reads : α → ν → Prop}
    {reads' : α' → ν' → Prop}
    (hreads : ∀ a a', A a a' → ∀ v, reads a v → ∃ v', reads' a' v' ∧ V v v')
    {items : List (κ × α)} {items' : List (κ' × α')}
    (h : List.Forall₂ (EntriesRelated R A) items items') {values : List (κ × ν)}
    (hvalues : List.Forall₂ (EntriesRelated Eq reads) items values) :
    ∃ values', List.Forall₂ (EntriesRelated Eq reads') items' values' ∧
      List.Forall₂ (EntriesRelated R V) values values' := by
  induction h generalizing values with
  | nil =>
      obtain rfl := List.forall₂_nil_left_iff.mp hvalues
      exact ⟨[], .nil, .nil⟩
  | @cons item item' rest rest' hitem _ ih =>
      obtain ⟨⟨key, value⟩, others, ⟨hkey, hvalue⟩, hothers, rfl⟩ :=
        List.forall₂_cons_left_iff.mp hvalues
      obtain rfl : item.1 = key := hkey
      obtain ⟨value', hvalue', hrelated⟩ := hreads item.2 item'.2 hitem.2 value hvalue
      obtain ⟨values', hvalues', hrest⟩ := ih hothers
      exact ⟨(item'.1, value') :: values', .cons ⟨rfl, hvalue'⟩ hvalues',
        .cons ⟨hitem.1, hrelated⟩ hrest⟩

/-- Lists of related entries are maps that mirror each other. -/
theorem mirrors_lookup [BEq κ] [LawfulBEq κ] [BEq κ'] [LawfulBEq κ'] (hR : Relator.BiUnique R)
    {items : List (κ × ν)} {items' : List (κ' × ν')}
    (h : List.Forall₂ (EntriesRelated R V) items items') :
    Mirrors R V (fun k => items.lookup k) fun k' => items'.lookup k' where
  related _ _ hk := lookup_related hR h hk
  left k hk := by
    obtain ⟨v, hv⟩ := Option.isSome_iff_exists.mp hk
    obtain ⟨item', -, hrelated⟩ := exists_partner h (mem_of_lookup hv)
    exact ⟨item'.1, hrelated.1⟩
  right k' hk := by
    obtain ⟨v, hv⟩ := Option.isSome_iff_exists.mp hk
    obtain ⟨item, -, hrelated⟩ := exists_partner h.flip (mem_of_lookup hv)
    exact ⟨item.1, hrelated.1⟩

namespace Mirrors

variable {f f₁ f₂ : κ → Option ν} {g g₁ g₂ : κ' → Option ν'}

/-- Writing related values, or nothing, under paired keys. -/
theorem update [DecidableEq κ] [DecidableEq κ'] (hR : Relator.BiUnique R) (h : Mirrors R V f g)
    {k : κ} {k' : κ'} (hk : R k k') {x : Option ν} {y : Option ν'} (hxy : Option.Rel V x y) :
    Mirrors R V (Function.update f k x) (Function.update g k' y) where
  related a a' ha := by
    by_cases heq : a = k
    · subst heq
      obtain rfl : a' = k' := hR.2 ha hk
      rw [Function.update_self, Function.update_self]
      exact hxy
    · have hne : a' ≠ k' := fun heq' => heq (hR.1 ha (heq' ▸ hk))
      rw [Function.update_of_ne heq, Function.update_of_ne hne]
      exact h.related a a' ha
  left a ha := by
    by_cases heq : a = k
    · exact ⟨k', heq ▸ hk⟩
    · rw [Function.update_of_ne heq] at ha
      exact h.left a ha
  right a' ha := by
    by_cases heq : a' = k'
    · exact ⟨k, heq ▸ hk⟩
    · rw [Function.update_of_ne heq] at ha
      exact h.right a' ha

/-- One map over another. -/
theorem or (h₁ : Mirrors R V f₁ g₁) (h₂ : Mirrors R V f₂ g₂) :
    Mirrors R V (fun k => (f₁ k).or (f₂ k)) fun k' => (g₁ k').or (g₂ k') where
  related k k' hk := by
    have hfirst := h₁.related k k' hk
    generalize f₁ k = x at hfirst ⊢
    generalize g₁ k' = y at hfirst ⊢
    cases hfirst with
    | none => exact h₂.related k k' hk
    | some hv => exact .some hv
  left k hk := by
    rw [Option.isSome_or, Bool.or_eq_true] at hk
    exact hk.elim (h₁.left k) (h₂.left k)
  right k' hk := by
    rw [Option.isSome_or, Bool.or_eq_true] at hk
    exact hk.elim (h₁.right k') (h₂.right k')

/-- Maps that read like mirroring ones. -/
theorem congr (h : Mirrors R V f₁ g₁) (hf : ∀ k, f₂ k = f₁ k) (hg : ∀ k', g₂ k' = g₁ k') :
    Mirrors R V f₂ g₂ := by
  rwa [funext hf, funext hg]

/-- Forgetting paired keys. -/
theorem without [DecidableEq κ] [DecidableEq κ'] (hR : Relator.BiUnique R) (h : Mirrors R V f g)
    {keys : List κ} {keys' : List κ'} (hkeys : List.Forall₂ R keys keys') :
    Mirrors R V (fun k => if k ∈ keys then none else f k)
      fun k' => if k' ∈ keys' then none else g k' where
  related k k' hk := by
    have hmem : k ∈ keys ↔ k' ∈ keys' := List.rel_mem hR hk hkeys
    by_cases hin : k ∈ keys
    · rw [if_pos hin, if_pos (hmem.mp hin)]
      exact .none
    · rw [if_neg hin, if_neg fun hin' => hin (hmem.mpr hin')]
      exact h.related k k' hk
  left k hk := by
    split at hk
    · cases hk
    · exact h.left k hk
  right k' hk := by
    split at hk
    · cases hk
    · exact h.right k' hk

/-- Lists of the entries of mirroring maps are related entry by entry, after
reordering one of them. -/
theorem entries (hR : Relator.BiUnique R) (h : Mirrors R V f g) {items : List (κ × ν)}
    {items' : List (κ' × ν')} (hitems : ∀ k v, (k, v) ∈ items ↔ f k = some v)
    (hdistinct : (items.map Prod.fst).Nodup) (hitems' : ∀ k v, (k, v) ∈ items' ↔ g k = some v)
    (hdistinct' : items'.Nodup) :
    ∃ reordered, List.Forall₂ (EntriesRelated R V) items reordered ∧ reordered.Perm items' := by
  have hpartner : ∀ item ∈ items, ∃ item' : κ' × ν', EntriesRelated R V item item' ∧
      g item'.1 = some item'.2 := by
    rintro ⟨k, v⟩ hmem
    have hread := (hitems k v).mp hmem
    obtain ⟨k', hk⟩ := h.left k (by rw [hread]; rfl)
    have hrelated := h.related k k' hk
    rw [hread] at hrelated
    generalize hread' : g k' = y at hrelated
    cases hrelated with
    | some hv => exact ⟨(k', _), ⟨hk, hv⟩, hread'⟩
  obtain ⟨reordered, hboth⟩ := exists_forall₂ hpartner
  have hforall : List.Forall₂ (EntriesRelated R V) items reordered :=
    hboth.imp fun _ _ hpair => hpair.1
  have hread : ∀ item ∈ reordered, g item.1 = some item.2 := by
    intro item hitem
    obtain ⟨source, -, hpair⟩ := exists_partner hboth.flip hitem
    exact hpair.2
  refine ⟨reordered, hforall, (List.perm_ext_iff_of_nodup ?_ hdistinct').mpr ?_⟩
  · have hkeys : List.Forall₂ R (items.map Prod.fst) (reordered.map Prod.fst) := by
      rw [List.forall₂_map_left_iff, List.forall₂_map_right_iff]
      exact hforall.imp fun _ _ hboth => hboth.1
    exact .of_map _ ((List.rel_nodup hR hkeys).mp hdistinct)
  · rintro ⟨k', v'⟩
    constructor
    · exact fun hmem => (hitems' k' v').mpr (hread _ hmem)
    · intro hmem
      have hread' := (hitems' k' v').mp hmem
      obtain ⟨k, hk⟩ := h.right k' (by rw [hread']; rfl)
      have hrelated := h.related k k' hk
      rw [hread'] at hrelated
      generalize hsource : f k = x at hrelated
      cases hrelated with
      | some hv =>
          obtain ⟨item', hin, hpaired⟩ := exists_partner hforall ((hitems k _).mpr hsource)
          obtain rfl : item'.1 = k' := hR.2 hpaired.1 hk
          have hsame := hread item' hin
          rw [hread', Option.some.injEq] at hsame
          rwa [hsame]

end Mirrors

end DynamicProperties.Library.Mirror
