import Mathlib.Data.List.Basic

/-!
# Spelling tagged words without separators

An entry is a word with a tag.  A list of entries is spelled by writing every
word and its tag, one after another, with nothing in between.  Tags have a fixed
positive length, words do not.

Two different lists may then be spelled alike, but only in one way
(`spell_eq_iff`): at the first entry where they differ, the word of one list is
the word of the other, continued over its tag and perhaps further.  In
particular the longer word goes on with the first letter of the shorter one's
tag (`Continues.overlaps`), so lists in which no word does that are told apart.
-/

namespace DynamicProperties.Library.Spelling

variable {α : Type}

/-- A word and its tag. -/
abbrev Entry (α : Type) := List α × List α

/-- Every word and its tag, one after another. -/
def spell (entries : List (Entry α)) : List α :=
  entries.flatMap fun entry => entry.1 ++ entry.2

@[simp] theorem spell_nil : spell ([] : List (Entry α)) = [] := rfl

@[simp] theorem spell_cons (entry : Entry α) (rest : List (Entry α)) :
    spell (entry :: rest) = entry.1 ++ (entry.2 ++ spell rest) := by
  simp [spell]

theorem spell_append (first second : List (Entry α)) :
    spell (first ++ second) = spell first ++ spell second := by
  simp [spell]

/-- All tags have length `n`. -/
def TagLength (n : Nat) (entries : List (Entry α)) : Prop :=
  ∀ entry ∈ entries, entry.2.length = n

/-- At the first entry where the lists differ, the word of the second is that of
the first continued by `extra`, which is spelled over what the first list has
there: the tag and what follows it. -/
def Continues (first second : List (Entry α)) : Prop :=
  ∃ common word tag rest extra tag' rest',
    first = common ++ (word, tag) :: rest ∧
    second = common ++ (word ++ extra, tag') :: rest' ∧
    extra ≠ [] ∧ tag ++ spell rest = extra ++ (tag' ++ spell rest')

section Spellings

variable {n : Nat} {first second : List (Entry α)}

theorem Continues.cons (h : Continues first second) (entry : Entry α) :
    Continues (entry :: first) (entry :: second) := by
  obtain ⟨common, word, tag, rest, extra, tag', rest', rfl, rfl, hne, hspell⟩ := h
  exact ⟨entry :: common, word, tag, rest, extra, tag', rest', rfl, rfl, hne, hspell⟩

theorem Continues.spell_eq (h : Continues first second) : spell first = spell second := by
  obtain ⟨common, word, tag, rest, extra, tag', rest', rfl, rfl, -, hspell⟩ := h
  rw [spell_append, spell_append, spell_cons, spell_cons, List.append_assoc word, hspell]

theorem Continues.ne (h : Continues first second) : first ≠ second := by
  obtain ⟨common, word, tag, rest, extra, tag', rest', rfl, rfl, hne, -⟩ := h
  intro heq
  have hhead := (List.cons.inj (List.append_cancel_left heq)).1
  have hword : word = word ++ extra := congrArg Prod.fst hhead
  exact hne (List.self_eq_append_right.mp hword)

/-- The longer word goes on with the first letter of the shorter one's tag. -/
theorem Continues.overlaps (hn : 0 < n) (htags : TagLength n first)
    (h : Continues first second) :
    ∃ entry ∈ first, ∃ entry' ∈ second, ∃ letter,
      entry.2.head? = some letter ∧ entry.1 ++ [letter] <+: entry'.1 := by
  obtain ⟨common, word, tag, rest, extra, tag', rest', rfl, rfl, hne, hspell⟩ := h
  have hlength : tag.length = n :=
    htags (word, tag) (List.mem_append_right _ List.mem_cons_self)
  cases tag with
  | nil =>
      simp only [List.length_nil] at hlength
      omega
  | cons letter tail =>
      cases extra with
      | nil => exact absurd rfl hne
      | cons letter' extra =>
          rw [List.cons_append, List.cons_append, List.cons.injEq] at hspell
          refine ⟨_, List.mem_append_right _ List.mem_cons_self, _,
            List.mem_append_right _ List.mem_cons_self, letter, rfl, extra, ?_⟩
          rw [List.append_assoc, hspell.1]
          rfl

private theorem spell_ne_nil (hn : 0 < n) {entry : Entry α} {rest : List (Entry α)}
    (htags : TagLength n (entry :: rest)) : spell (entry :: rest) ≠ [] := by
  intro h
  have hlength := htags entry List.mem_cons_self
  have htag : entry.2.length = 0 := by
    rw [spell_cons] at h
    rw [(List.append_eq_nil_iff.mp (List.append_eq_nil_iff.mp h).2).1]
    rfl
  omega

/-- Two heads that differ, although one word starts the other and the rest is
spelled alike. -/
private theorem continues_of_starts {entry entry' : Entry α} {rest rest' : List (Entry α)}
    {extra : List α} (hne : entry ≠ entry') (hlength : entry.2.length = entry'.2.length)
    (hword : entry'.1 = entry.1 ++ extra)
    (htags : entry.2 ++ spell rest = extra ++ (entry'.2 ++ spell rest')) :
    Continues (entry :: rest) (entry' :: rest') := by
  refine ⟨[], entry.1, entry.2, rest, extra, entry'.2, rest', rfl, ?_, ?_, htags⟩
  · rw [← hword]
    rfl
  · rintro rfl
    rw [List.append_nil] at hword
    rw [List.nil_append] at htags
    exact hne (Prod.ext hword.symm (List.append_inj htags hlength).1)

/-- **Different lists are spelled alike exactly when one continues the other.** -/
theorem spell_eq_iff (hn : 0 < n) (hfirst : TagLength n first) (hsecond : TagLength n second)
    (hne : first ≠ second) :
    spell first = spell second ↔ Continues first second ∨ Continues second first := by
  constructor
  · intro h
    induction first generalizing second with
    | nil =>
        cases second with
        | nil => exact absurd rfl hne
        | cons entry rest => exact absurd h.symm (spell_ne_nil hn hsecond)
    | cons entry first ih =>
        cases second with
        | nil => exact absurd h (spell_ne_nil hn hfirst)
        | cons entry' second =>
            by_cases hsame : entry = entry'
            · subst hsame
              have hrest : spell first = spell second := by
                rw [spell_cons, spell_cons] at h
                exact List.append_cancel_left (List.append_cancel_left h)
              have htail : first ≠ second := fun heq => hne (by rw [heq])
              rcases ih (fun e he => hfirst e (List.mem_cons_of_mem _ he))
                (fun e he => hsecond e (List.mem_cons_of_mem _ he)) htail hrest with hc | hc
              · exact Or.inl (hc.cons entry)
              · exact Or.inr (hc.cons entry)
            · -- the first difference: one word is a prefix of the other
              have hlength : entry.2.length = entry'.2.length :=
                (hfirst entry List.mem_cons_self).trans (hsecond entry' List.mem_cons_self).symm
              rw [spell_cons, spell_cons] at h
              rcases List.append_eq_append_iff.mp h with ⟨extra, hword, htags⟩ |
                ⟨extra, hword, htags⟩
              · exact Or.inl (continues_of_starts hsame hlength hword htags)
              · exact Or.inr (continues_of_starts (Ne.symm hsame) hlength.symm hword htags)
  · rintro (h | h)
    · exact h.spell_eq
    · exact h.spell_eq.symm

end Spellings

/-! ## Words closed by a separator -/

/-- Two words without a separator, each closed by it, that start the same list are
equal. -/
theorem eq_of_closed_isPrefix {separator : α} {a b name : List α}
    (ha : separator ∉ a) (hb : separator ∉ b)
    (hpa : a ++ [separator] <+: name) (hpb : b ++ [separator] <+: name) : a = b := by
  induction a generalizing b name with
  | nil =>
      cases b with
      | nil => rfl
      | cons y ys =>
          obtain ⟨s, hs⟩ := hpa
          obtain ⟨t, ht⟩ := hpb
          have hhead : separator = y := by
            have := hs.trans ht.symm
            simpa using congrArg List.head? this
          exact absurd (hhead ▸ List.mem_cons_self) hb
  | cons x xs ih =>
      cases b with
      | nil =>
          obtain ⟨s, hs⟩ := hpa
          obtain ⟨t, ht⟩ := hpb
          have hhead : x = separator := by
            have := hs.trans ht.symm
            simpa using congrArg List.head? this
          exact absurd (hhead ▸ List.mem_cons_self) ha
      | cons y ys =>
          obtain ⟨s, hs⟩ := hpa
          obtain ⟨t, ht⟩ := hpb
          have heq := hs.trans ht.symm
          simp only [List.cons_append, List.cons.injEq] at heq
          obtain ⟨hxy, hrest⟩ := heq
          have htail : xs = ys :=
            ih (fun h => ha (List.mem_cons_of_mem _ h)) (fun h => hb (List.mem_cons_of_mem _ h))
              (List.prefix_append _ _) (hrest ▸ List.prefix_append (ys ++ [separator]) t)
          rw [hxy, htail]

end DynamicProperties.Library.Spelling
