import Mathlib.Data.List.DropRight
import Mathlib.Data.List.Flatten

/-!
# Trimming a list

`trim p` drops what satisfies `p` from both ends.  A list splits into two ends that
satisfy `p` and its trimmed part, and the trimmed part is the only one that starts
and ends with something else (`trim_eq_of_split`).
-/

namespace DynamicProperties.Library.Trim

variable {α β : Type} {p : α → Bool}

def trim (p : α → Bool) (l : List α) : List α := (l.dropWhile p).rdropWhile p

/-- Neither the first nor the last element satisfies `p`. -/
def Trimmed (p : α → Bool) (l : List α) : Prop :=
  (∀ x ∈ l.head?, p x = false) ∧ ∀ x ∈ l.getLast?, p x = false

theorem rdropWhile_append_of_all {first second : List α} (h : ∀ x ∈ second, p x = true) :
    (first ++ second).rdropWhile p = first.rdropWhile p := by
  unfold List.rdropWhile
  rw [List.reverse_append, List.dropWhile_append_of_pos fun x hx => h x (List.mem_reverse.mp hx)]

theorem dropWhile_eq_self_of_head {l : List α} (h : ∀ x ∈ l.head?, p x = false) :
    l.dropWhile p = l := by
  cases l with
  | nil => rfl
  | cons x l => rw [List.dropWhile_cons_of_neg (by simp [h x rfl])]

theorem rdropWhile_eq_self_of_last {l : List α} (h : ∀ x ∈ l.getLast?, p x = false) :
    l.rdropWhile p = l := by
  rw [List.rdropWhile_eq_self_iff]
  intro hl
  rw [h _ (List.getLast?_eq_some_getLast hl)]
  exact Bool.false_ne_true

/-- Dropping from the back does not change how a list starts. -/
theorem trimmed_trim (p : α → Bool) (l : List α) : Trimmed p (trim p l) := by
  constructor
  · intro x hx
    have hhead : x ∈ (l.dropWhile p).head? := by
      obtain ⟨rest, hrest⟩ : trim p l <+: l.dropWhile p :=
        List.rdropWhile_prefix p (l.dropWhile p)
      rw [← hrest, List.head?_append, Option.mem_def.mp hx]
      rfl
    have hnot := List.head?_dropWhile_not p l
    rw [Option.mem_def.mp hhead] at hnot
    simpa using hnot
  · intro x hx
    have hne : trim p l ≠ [] := by
      intro hnil
      rw [hnil] at hx
      cases hx
    have hlast := List.rdropWhile_last_not p (l.dropWhile p) hne
    rw [List.getLast?_eq_some_getLast hne, Option.mem_some_iff] at hx
    rw [← hx]
    exact Bool.eq_false_iff.mpr hlast

/-- A list is its trimmed part between two ends that satisfy `p`. -/
theorem exists_split (p : α → Bool) (l : List α) : ∃ front back,
    l = front ++ trim p l ++ back ∧ (∀ x ∈ front, p x = true) ∧ ∀ x ∈ back, p x = true := by
  refine ⟨l.takeWhile p, (l.dropWhile p).rtakeWhile p, ?_, fun x hx => List.mem_takeWhile_imp hx,
    fun x hx => List.mem_rtakeWhile_imp hx⟩
  rw [List.append_assoc, trim, List.rdropWhile_append_rtakeWhile, List.takeWhile_append_dropWhile]

theorem trim_eq_of_split {front middle back : List α} (hfront : ∀ x ∈ front, p x = true)
    (hback : ∀ x ∈ back, p x = true) (hmiddle : Trimmed p middle) :
    trim p (front ++ middle ++ back) = middle := by
  unfold trim
  rw [List.append_assoc, List.dropWhile_append_of_pos hfront]
  cases middle with
  | nil =>
      have hnil : back.dropWhile p = [] := List.dropWhile_eq_nil_iff.mpr hback
      rw [List.nil_append, hnil]
      rfl
  | cons x middle =>
      rw [dropWhile_eq_self_of_head (by simpa using hmiddle.1), rdropWhile_append_of_all hback,
        rdropWhile_eq_self_of_last hmiddle.2]

theorem trim_eq_nil_iff {l : List α} : trim p l = [] ↔ ∀ x ∈ l, p x = true := by
  constructor
  · intro h x hx
    obtain ⟨front, back, hsplit, hfront, hback⟩ := exists_split p l
    rw [h, List.append_nil] at hsplit
    rw [hsplit] at hx
    rcases List.mem_append.mp hx with hx | hx
    · exact hfront x hx
    · exact hback x hx
  · intro h
    have hsplit : trim p (l ++ [] ++ []) = [] := trim_eq_of_split h nofun ⟨nofun, nofun⟩
    simpa using hsplit

theorem mem_of_mem_trim {l : List α} {x : α} (h : x ∈ trim p l) : x ∈ l := by
  obtain ⟨front, back, hsplit, -, -⟩ := exists_split p l
  rw [hsplit]
  exact List.mem_append_left _ (List.mem_append_right _ h)

/-- Trimming keeps everything that does not satisfy `p`. -/
theorem filter_trim (l : List α) : (trim p l).filter (fun x => !p x) = l.filter fun x => !p x := by
  obtain ⟨front, back, hsplit, hfront, hback⟩ := exists_split p l
  have hnone : ∀ {ends : List α}, (∀ x ∈ ends, p x = true) → ends.filter (fun x => !p x) = [] := by
    intro ends h
    rw [List.filter_eq_nil_iff]
    intro x hx
    simp [h x hx]
  conv_rhs => rw [hsplit]
  rw [List.filter_append, List.filter_append, hnone hfront, hnone hback, List.nil_append,
    List.append_nil]

theorem trim_map {q : β → Bool} {f : α → β} (h : ∀ x, q (f x) = p x) (l : List α) :
    trim q (l.map f) = (trim p l).map f := by
  have hsame : q ∘ f = p := funext h
  unfold trim
  rw [List.dropWhile_map, hsame, List.rdropWhile, ← List.map_reverse, List.dropWhile_map, hsame,
    ← List.map_reverse]
  rfl

/-! ## Concatenations -/

/-- Where the letters to drop spell words of `p` and the others spell words that
start and end with something else, a trimmed text spells a trimmed word. -/
theorem trim_flatMap {drop : α → Bool} {f : α → List β} {q : β → Bool} {l : List α}
    (hdrop : ∀ x ∈ l, drop x = true → ∀ y ∈ f x, q y = true)
    (hkeep : ∀ x ∈ l, drop x = false → f x ≠ [] ∧ Trimmed q (f x)) :
    trim q (l.flatMap f) = (trim drop l).flatMap f := by
  obtain ⟨front, back, hsplit, hfront, hback⟩ := exists_split drop l
  have hends : ∀ {ends : List α}, (∀ x ∈ ends, x ∈ l ∧ drop x = true) →
      ∀ y ∈ ends.flatMap f, q y = true := by
    intro ends h y hy
    obtain ⟨x, hx, hy⟩ := List.mem_flatMap.mp hy
    exact hdrop x (h x hx).1 (h x hx).2 y hy
  have hmiddle : Trimmed q ((trim drop l).flatMap f) := by
    have hedges := trimmed_trim drop l
    constructor
    · cases hcore : trim drop l with
      | nil => nofun
      | cons x rest =>
          obtain ⟨hne, htrimmed⟩ := hkeep x (mem_of_mem_trim (hcore ▸ List.mem_cons_self))
            (hedges.1 x (by rw [hcore]; rfl))
          rw [List.flatMap_cons, List.head?_append_of_ne_nil _ hne]
          exact htrimmed.1
    · rcases List.eq_nil_or_concat (trim drop l) with hcore | ⟨rest, x, hcore⟩
      · rw [hcore]
        nofun
      · rw [List.concat_eq_append] at hcore
        obtain ⟨hne, htrimmed⟩ := hkeep x (mem_of_mem_trim (by rw [hcore]; simp))
          (hedges.2 x (by rw [hcore]; simp))
        rw [hcore, List.flatMap_append, List.flatMap_singleton,
          List.getLast?_append_of_ne_nil _ hne]
        exact htrimmed.2
  have hspelled : l.flatMap f = front.flatMap f ++ (trim drop l).flatMap f ++ back.flatMap f := by
    conv_lhs => rw [hsplit]
    rw [List.flatMap_append, List.flatMap_append]
  rw [hspelled]
  refine trim_eq_of_split (hends fun x hx => ⟨?_, hfront x hx⟩)
    (hends fun x hx => ⟨?_, hback x hx⟩) hmiddle
  · rw [hsplit]
    exact List.mem_append_left _ (List.mem_append_left _ hx)
  · rw [hsplit]
    exact List.mem_append_right _ hx

/-- Where one family of words is pointwise no longer than another, and their
concatenations have the same length, the words have the same lengths. -/
theorem length_eq_of_flatMap {f g : α → List β} {l : List α}
    (hle : ∀ x ∈ l, (f x).length ≤ (g x).length)
    (h : (l.flatMap f).length = (l.flatMap g).length) : ∀ x ∈ l, (f x).length = (g x).length := by
  have hsum : ∀ l : List α, (∀ x ∈ l, (f x).length ≤ (g x).length) →
      (l.flatMap f).length ≤ (l.flatMap g).length := by
    intro l
    induction l with
    | nil => exact fun _ => Nat.le_refl _
    | cons x l ih =>
        intro hle
        simp only [List.flatMap_cons, List.length_append]
        exact Nat.add_le_add (hle x List.mem_cons_self)
          (ih fun y hy => hle y (List.mem_cons_of_mem _ hy))
  induction l with
  | nil => nofun
  | cons x l ih =>
      simp only [List.flatMap_cons, List.length_append] at h
      have hx := hle x List.mem_cons_self
      have hrest := hsum l fun y hy => hle y (List.mem_cons_of_mem _ hy)
      intro y hy
      rcases List.mem_cons.mp hy with rfl | htail
      · omega
      · exact ih (fun y hy => hle y (List.mem_cons_of_mem _ hy)) (by omega) y htail

end DynamicProperties.Library.Trim
