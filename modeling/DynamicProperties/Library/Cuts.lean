import Mathlib.Data.List.Basic

/-!
# Two ways of cutting a text

Two lists of as many parts, joined without separators.  They join to one text only if
they are the same parts, or at the first parts that differ one goes on over what follows
the other (`flatten_eq_iff`).  A cut that is marked by a letter is found again from the
side on which the letter does not occur.
-/

namespace DynamicProperties.Library.Cuts

variable {α : Type}

/-- At the first part where the lists differ, the part of the second is that of the first
continued by `extra`, which the first list spells with what follows there. -/
def RunsOn (first second : List (List α)) : Prop :=
  ∃ common part rest extra rest',
    first = common ++ part :: rest ∧ second = common ++ (part ++ extra) :: rest' ∧
    extra ≠ [] ∧ rest.flatten = extra ++ rest'.flatten

theorem RunsOn.flatten_eq {first second : List (List α)} (h : RunsOn first second) :
    first.flatten = second.flatten := by
  obtain ⟨common, part, rest, extra, rest', rfl, rfl, -, hrest⟩ := h
  rw [List.flatten_append, List.flatten_append, List.flatten_cons, List.flatten_cons, hrest,
    List.append_assoc part]

theorem RunsOn.cons {first second : List (List α)} (h : RunsOn first second) (part : List α) :
    RunsOn (part :: first) (part :: second) := by
  obtain ⟨common, other, rest, extra, rest', rfl, rfl, hne, hrest⟩ := h
  exact ⟨part :: common, other, rest, extra, rest', rfl, rfl, hne, hrest⟩

/-- **When two lists of parts join to one text.** -/
theorem flatten_eq_iff {first second : List (List α)} (hlength : first.length = second.length) :
    first.flatten = second.flatten ↔
      first = second ∨ RunsOn first second ∨ RunsOn second first := by
  constructor
  · induction first generalizing second with
    | nil =>
        intro _
        exact .inl (List.length_eq_zero_iff.mp hlength.symm).symm
    | cons part rest ih =>
        cases second with
        | nil => cases hlength
        | cons part' rest' =>
            intro heq
            rw [List.flatten_cons, List.flatten_cons] at heq
            have hrest : rest.length = rest'.length := Nat.succ.inj hlength
            rcases List.append_eq_append_iff.mp heq with
              ⟨extra, hpart, htail⟩ | ⟨extra, hpart, htail⟩
            · by_cases hextra : extra = []
              · rw [hextra, List.nil_append] at htail
                rw [hextra, List.append_nil] at hpart
                rw [hpart]
                rcases ih hrest htail with rfl | h | h
                · exact .inl rfl
                · exact .inr (.inl (h.cons part))
                · exact .inr (.inr (h.cons part))
              · rw [hpart]
                exact .inr (.inl ⟨[], part, rest, extra, rest', rfl, rfl, hextra, htail⟩)
            · by_cases hextra : extra = []
              · rw [hextra, List.nil_append] at htail
                rw [hextra, List.append_nil] at hpart
                rw [hpart]
                rcases ih hrest htail.symm with rfl | h | h
                · exact .inl rfl
                · exact .inr (.inl (h.cons part'))
                · exact .inr (.inr (h.cons part'))
              · rw [hpart]
                exact .inr (.inr ⟨[], part', rest', extra, rest, rfl, rfl, hextra, htail⟩)
  · rintro (rfl | h | h)
    · rfl
    · exact h.flatten_eq
    · exact h.flatten_eq.symm

/-- The longer part goes on with the first letter of the text that follows the shorter one. -/
theorem RunsOn.overlaps {first second : List (List α)} (h : RunsOn first second) :
    ∃ part ∈ first, ∃ part' ∈ second, ∃ later ∈ first.tail, ∃ letter,
      later.head? = some letter ∧ part ++ [letter] <+: part' := by
  obtain ⟨common, part, rest, extra, rest', rfl, rfl, hne, hrest⟩ := h
  obtain ⟨letter, others, rfl⟩ := List.exists_cons_of_ne_nil hne
  have hhead : rest.flatten.head? = some letter := by rw [hrest]; rfl
  rw [List.head?_flatten] at hhead
  obtain ⟨later, hlater, hletter⟩ := List.exists_of_findSome?_eq_some hhead
  have hbehind : later ∈ (common ++ part :: rest).tail := by
    cases common with
    | nil => exact hlater
    | cons front common =>
        exact List.mem_append_right common (List.mem_cons_of_mem part hlater)
  refine ⟨part, by simp, part ++ letter :: others, by simp, later, hbehind, letter, hletter,
    others, ?_⟩
  rw [List.append_assoc, List.singleton_append]

/-- A letter that is in neither front marks where both texts are cut. -/
theorem cut_at_first {a : α} {first first' rest rest' : List α} (h : a ∉ first) (h' : a ∉ first')
    (heq : first ++ a :: rest = first' ++ a :: rest') : first = first' ∧ rest = rest' := by
  rcases List.append_eq_append_iff.mp heq with ⟨between, hfirst, hrest⟩ | ⟨between, hfirst, hrest⟩
  · cases between with
    | nil => exact ⟨by rw [hfirst, List.append_nil], (List.cons.inj hrest).2⟩
    | cons b between =>
        have hmem : a ∈ first' := by
          rw [hfirst, (List.cons.inj hrest).1]
          exact List.mem_append_right _ List.mem_cons_self
        exact absurd hmem h'
  · cases between with
    | nil => exact ⟨by rw [hfirst, List.append_nil], (List.cons.inj hrest).2.symm⟩
    | cons b between =>
        have hmem : a ∈ first := by
          rw [hfirst, (List.cons.inj hrest).1]
          exact List.mem_append_right _ List.mem_cons_self
        exact absurd hmem h

/-- A letter that is in neither rest marks where both texts are cut. -/
theorem cut_at_last {a : α} {first first' rest rest' : List α} (h : a ∉ rest) (h' : a ∉ rest')
    (heq : first ++ a :: rest = first' ++ a :: rest') : first = first' ∧ rest = rest' := by
  rcases List.append_eq_append_iff.mp heq with ⟨between, hfirst, hrest⟩ | ⟨between, hfirst, hrest⟩
  · cases between with
    | nil => exact ⟨by rw [hfirst, List.append_nil], (List.cons.inj hrest).2⟩
    | cons b between =>
        have hmem : a ∈ rest := by
          rw [(List.cons.inj hrest).2]
          exact List.mem_append_right _ List.mem_cons_self
        exact absurd hmem h
  · cases between with
    | nil => exact ⟨by rw [hfirst, List.append_nil], (List.cons.inj hrest).2.symm⟩
    | cons b between =>
        have hmem : a ∈ rest' := by
          rw [(List.cons.inj hrest).2]
          exact List.mem_append_right _ List.mem_cons_self
        exact absurd hmem h'

end DynamicProperties.Library.Cuts
