/-!
# Objects shared by key through weak references

A registry finds an object by its key and keeps none of them alive: an object lives as
long as somebody holds it.  Holders of one key share an object, and holders of different
keys do not, as long as the registry names what is held, names no object twice, and
takes a new object for every new entry (`Shares`).
-/

namespace DynamicProperties.Library.WeakRegistry

variable {κ μ σ : Type} {entries entries' : κ → Option μ} {held held' : σ → Option (κ × μ)}
  {made : μ → Prop}

structure Shares (entries : κ → Option μ) (held : σ → Option (κ × μ)) (made : μ → Prop) :
    Prop where
  registered : ∀ s k m, held s = some (k, m) → entries k = some m
  injective : ∀ k k' m, entries k = some m → entries k' = some m → k = k'
  made : ∀ k m, entries k = some m → made m

/-- Nobody holds the object. -/
def Expired (held : σ → Option (κ × μ)) (m : μ) : Prop := ∀ s k, held s ≠ some (k, m)

theorem shares_none : Shares (fun _ : κ => none) (fun _ : σ => none) made where
  registered _ _ _ h := by cases h
  injective _ _ _ h := by cases h
  made _ _ h := by cases h

/-- **Two holders share an object exactly when they share a key.** -/
theorem Shares.same_iff (h : Shares entries held made) {s s' : σ} {k k' : κ} {m m' : μ}
    (hs : held s = some (k, m)) (hs' : held s' = some (k', m')) : m = m' ↔ k = k' := by
  have hentry := h.registered s k m hs
  have hentry' := h.registered s' k' m' hs'
  constructor
  · intro hsame
    exact h.injective k k' m hentry (hsame ▸ hentry')
  · intro hsame
    rw [← hsame, hentry] at hentry'
    exact Option.some.inj hentry'

/-- Holders may go. -/
theorem Shares.drop (h : Shares entries held made)
    (hheld : ∀ s k m, held' s = some (k, m) → held s = some (k, m)) :
    Shares entries held' made where
  registered s k m hs := h.registered s k m (hheld s k m hs)
  injective := h.injective
  made := h.made

/-- Entries may go, if nobody holds what they name. -/
theorem Shares.purge (h : Shares entries held made)
    (hentries : ∀ k m, entries' k = some m → entries k = some m)
    (hkept : ∀ s k m, held s = some (k, m) → entries' k = some m) :
    Shares entries' held made where
  registered := hkept
  injective k k' m hk hk' := h.injective k k' m (hentries k m hk) (hentries k' m hk')
  made k m hk := h.made k m (hentries k m hk)

/-- A new holder may take what its key names. -/
theorem Shares.join (h : Shares entries held made) {k : κ} {m : μ} (hentry : entries k = some m)
    (hheld : ∀ s' k' m', held' s' = some (k', m') → held s' = some (k', m') ∨ k' = k ∧ m' = m) :
    Shares entries held' made where
  registered s' k' m' hs := by
    rcases hheld s' k' m' hs with hold | ⟨rfl, rfl⟩
    · exact h.registered s' k' m' hold
    · exact hentry
  injective := h.injective
  made := h.made

/-- What a key names and nobody holds is not held under the key. -/
theorem Shares.not_held (h : Shares entries held made) {k : κ}
    (hexpired : ∀ m, entries k = some m → Expired held m) (s : σ) (m : μ) :
    held s ≠ some (k, m) := by
  intro hs
  exact hexpired m (h.registered s k m hs) s k hs

/-- A new holder may take a new object, if its key names none that is held. -/
theorem Shares.make [DecidableEq κ] {made' : μ → Prop} (h : Shares entries held made)
    {k : κ} {m : μ}
    (hexpired : ∀ m, entries k = some m → Expired held m) (hnew : ¬ made m)
    (hmade : ∀ m', made m' ∨ m' = m → made' m')
    (hentries : ∀ k', entries' k' = if k' = k then some m else entries k')
    (hheld : ∀ s' k' m', held' s' = some (k', m') → held s' = some (k', m') ∨ k' = k ∧ m' = m) :
    Shares entries' held' made' where
  registered s' k' m' hs := by
    rw [hentries]
    rcases hheld s' k' m' hs with hold | ⟨rfl, rfl⟩
    · have hne : k' ≠ k := fun hsame => h.not_held hexpired s' m' (hsame ▸ hold)
      rw [if_neg hne]
      exact h.registered s' k' m' hold
    · exact if_pos rfl
  injective k₁ k₂ m' h₁ h₂ := by
    rw [hentries] at h₁ h₂
    have hold : ∀ k', entries k' ≠ some m := fun k' hk' => hnew (h.made k' m hk')
    split at h₁ <;> split at h₂
    · next hk₁ hk₂ => rw [hk₁, hk₂]
    · obtain rfl := Option.some.inj h₁
      exact absurd h₂ (hold k₂)
    · obtain rfl := Option.some.inj h₂
      exact absurd h₁ (hold k₁)
    · exact h.injective k₁ k₂ m' h₁ h₂
  made k' m' hk' := by
    rw [hentries] at hk'
    split at hk'
    · exact hmade m' (.inr (Option.some.inj hk').symm)
    · exact hmade m' (.inl (h.made k' m' hk'))

end DynamicProperties.Library.WeakRegistry
