import Mathlib.Data.List.Basic

/-!
# Computations that may raise

`Except ε` as the meaning of code that may raise: when a sequence, a loop or a
traversal returns, in terms of its parts.
-/

namespace DynamicProperties.Library.Fallible

variable {ε α β : Type}

/-- The computation returns a value. -/
def Returns (x : Except ε α) : Prop := ∃ value, x = .ok value

theorem returns_iff_isOk {x : Except ε α} : Returns x ↔ x.isOk = true := by
  cases x with
  | error error => exact iff_of_false (fun ⟨value, h⟩ => by cases h) Bool.false_ne_true
  | ok value => exact iff_of_true ⟨value, rfl⟩ rfl

instance (x : Except ε α) : Decidable (Returns x) := decidable_of_iff _ returns_iff_isOk.symm

@[simp] theorem returns_ok (value : α) : Returns (.ok value : Except ε α) := ⟨value, rfl⟩

@[simp] theorem returns_pure (value : α) : Returns (pure value : Except ε α) := ⟨value, rfl⟩

@[simp] theorem not_returns_error (error : ε) : ¬ Returns (.error error : Except ε α) := by
  rintro ⟨value, h⟩
  cases h

@[simp] theorem ok_bind (value : α) (f : α → Except ε β) : (.ok value >>= f) = f value := rfl

theorem bind_eq_ok {x : Except ε α} {f : α → Except ε β} {result : β} :
    (x >>= f) = .ok result ↔ ∃ value, x = .ok value ∧ f value = .ok result := by
  cases x with
  | error error => simp [bind, Except.bind]
  | ok value => simp [bind, Except.bind]

theorem returns_bind {x : Except ε α} {f : α → Except ε β} :
    Returns (x >>= f) ↔ ∃ value, x = .ok value ∧ Returns (f value) := by
  simp only [Returns, bind_eq_ok]
  exact ⟨fun ⟨result, value, h⟩ => ⟨value, h.1, result, h.2⟩,
    fun ⟨value, hvalue, result, h⟩ => ⟨result, value, hvalue, h⟩⟩

/-- A last step that cannot raise changes nothing. -/
theorem returns_bind_pure {x : Except ε α} {f : α → β} :
    Returns (x >>= fun value => pure (f value)) ↔ Returns x := by
  rw [returns_bind]
  exact exists_congr fun value => and_iff_left (returns_pure (f value))

/-- A fold returns when each of its steps does, whatever was accumulated. -/
theorem returns_foldlM {f : β → α → Except ε β} {P : α → Prop}
    (h : ∀ total item, Returns (f total item) ↔ P item) {items : List α} {total : β} :
    Returns (items.foldlM f total) ↔ ∀ item ∈ items, P item := by
  induction items generalizing total with
  | nil => simp
  | cons item rest ih =>
      rw [List.foldlM_cons, returns_bind, List.forall_mem_cons, ← h total item]
      constructor
      · rintro ⟨next, hnext, hrest⟩
        exact ⟨⟨next, hnext⟩, ih.mp hrest⟩
      · rintro ⟨⟨next, hnext⟩, hrest⟩
        exact ⟨next, hnext, ih.mpr hrest⟩

/-- A loop passes when each of its rounds does. -/
theorem forM_eq_ok {check : α → Except ε Unit} {items : List α} :
    items.forM check = .ok () ↔ ∀ item ∈ items, check item = .ok () := by
  induction items with
  | nil => exact ⟨fun _ _ h => absurd h List.not_mem_nil, fun _ => rfl⟩
  | cons item rest ih =>
      have hunfold : (item :: rest).forM check = (check item >>= fun _ => rest.forM check) := rfl
      rw [hunfold, bind_eq_ok, List.forall_mem_cons, ← ih]
      exact ⟨fun ⟨_, h⟩ => h, fun h => ⟨(), h⟩⟩

/-- A traversal returns when each of its steps does. -/
theorem returns_mapM {f : α → Except ε β} {items : List α} :
    Returns (items.mapM f) ↔ ∀ item ∈ items, Returns (f item) := by
  induction items with
  | nil => exact ⟨fun _ _ h => absurd h List.not_mem_nil, fun _ => ⟨[], rfl⟩⟩
  | cons item rest ih =>
      simp only [List.mapM_cons, returns_bind, List.forall_mem_cons, ← ih]
      constructor
      · rintro ⟨first, hfirst, others, hothers, -⟩
        exact ⟨⟨first, hfirst⟩, others, hothers⟩
      · rintro ⟨⟨first, hfirst⟩, others, hothers⟩
        exact ⟨first, hfirst, others, hothers, returns_pure _⟩

/-- What a traversal returns. -/
theorem mapM_eq_ok {f : α → Except ε β} {items : List α} {results : List β}
    (h : List.Forall₂ (fun item result => f item = .ok result) items results) :
    items.mapM f = .ok results := by
  induction h with
  | nil => rfl
  | cons hfirst _ ih => rw [List.mapM_cons, hfirst, ih]; rfl

theorem forall₂_of_mapM {f : α → Except ε β} {items : List α} {results : List β}
    (h : items.mapM f = .ok results) :
    List.Forall₂ (fun item result => f item = .ok result) items results := by
  induction items generalizing results with
  | nil =>
      obtain rfl := Except.ok.inj h
      exact .nil
  | cons item rest ih =>
      rw [List.mapM_cons] at h
      obtain ⟨first, hfirst, h⟩ := bind_eq_ok.mp h
      obtain ⟨others, hothers, h⟩ := bind_eq_ok.mp h
      obtain rfl := Except.ok.inj h
      exact .cons hfirst (ih hothers)

/-- A traversal, and then a loop over its results. -/
theorem mapM_forM_eq_ok {f : α → Except ε β} {check : β → Except ε Unit} {items : List α} :
    (∃ results, items.mapM f = .ok results ∧ results.forM check = .ok ()) ↔
      ∀ item ∈ items, ∃ result, f item = .ok result ∧ check result = .ok () := by
  induction items with
  | nil => exact ⟨fun _ _ h => absurd h List.not_mem_nil, fun _ => ⟨[], rfl, rfl⟩⟩
  | cons item rest ih =>
      simp only [List.mapM_cons, bind_eq_ok, List.forall_mem_cons, ← ih]
      constructor
      · rintro ⟨results, ⟨first, hfirst, others, hothers, hresults⟩, hchecks⟩
        obtain rfl := Except.ok.inj hresults
        have hall := forM_eq_ok.mp hchecks
        exact ⟨⟨first, hfirst, hall first List.mem_cons_self⟩, others, hothers,
          forM_eq_ok.mpr fun result hmem => hall result (List.mem_cons_of_mem _ hmem)⟩
      · rintro ⟨⟨first, hfirst, hcheck⟩, others, hothers, hchecks⟩
        refine ⟨first :: others, ⟨first, hfirst, others, hothers, rfl⟩, forM_eq_ok.mpr ?_⟩
        exact List.forall_mem_cons.mpr ⟨hcheck, forM_eq_ok.mp hchecks⟩

end DynamicProperties.Library.Fallible
