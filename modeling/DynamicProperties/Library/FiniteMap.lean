import Mathlib.Data.Finmap

/-!
# Finite maps without an order

Mathlib's `Finmap`, for a dictionary whose order nothing observes.  Writing to it
is an update of its lookup function, and `any` asks for one entry.
-/

namespace DynamicProperties.Library.FiniteMap

variable {α β : Type} [DecidableEq α]

/-- Inserting is a pointwise update of the lookup function. -/
theorem lookup_insert_eq_update (m : Finmap fun _ : α => β) (k : α) (v : β) :
    (fun a => (m.insert k v).lookup a) = Function.update (fun a => m.lookup a) k (some v) := by
  funext a
  by_cases h : a = k
  · subst h
    rw [Finmap.lookup_insert, Function.update_self]
  · rw [Finmap.lookup_insert_of_ne m h, Function.update_of_ne h]

/-- Erasing is a pointwise update of the lookup function. -/
theorem lookup_erase_eq_update (m : Finmap fun _ : α => β) (k : α) :
    (fun a => (m.erase k).lookup a) = Function.update (fun a => m.lookup a) k none := by
  funext a
  by_cases h : a = k
  · subst h
    rw [Finmap.lookup_erase, Function.update_self]
  · rw [Finmap.lookup_erase_ne h, Function.update_of_ne h]

private theorem foldl_or_iff {ι : Type} (f : ι → Bool) (entries : List ι) (found : Bool) :
    entries.foldl (fun found entry => found || f entry) found = true ↔
      found = true ∨ ∃ entry ∈ entries, f entry = true := by
  induction entries generalizing found with
  | nil => simp
  | cons entry rest ih =>
      rw [List.foldl_cons, ih, Bool.or_eq_true, or_assoc, List.exists_mem_cons_iff]

/-- `any` finds an entry exactly when there is one. -/
theorem any_iff {m : Finmap fun _ : α => β} {f : α → β → Bool} :
    m.any f = true ↔ ∃ k v, m.lookup k = some v ∧ f k v = true := by
  refine Finmap.induction_on m fun l => ?_
  have hfold : l.toFinmap.any f = true ↔ ∃ entry ∈ l.entries, f entry.1 entry.2 = true := by
    refine Iff.trans ?_ ((foldl_or_iff (fun entry => f entry.1 entry.2) l.entries false).trans ?_)
    · rfl
    · simp only [Bool.false_eq_true, false_or]
  rw [hfold]
  constructor
  · rintro ⟨⟨k, v⟩, hmem, h⟩
    exact ⟨k, v, AList.mem_lookup_iff.mpr hmem, h⟩
  · rintro ⟨k, v, hlookup, h⟩
    exact ⟨⟨k, v⟩, AList.mem_lookup_iff.mp hlookup, h⟩

end DynamicProperties.Library.FiniteMap
