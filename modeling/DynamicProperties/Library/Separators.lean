import Mathlib.Data.List.Basic

/-!
# Texts with separators

A recognizer for runs of accepted characters that single separators join, as a scanner
with one bit of state, and the runs it recognizes (`separated_iff`).  And a text that is
cut at the first separator in it, if there is one (`cut_iff`).
-/

namespace DynamicProperties.Library.Separators

variable {α : Type} {sep : α} {ok : α → Bool}

/-! ## Runs -/

/-- One or more runs, none of them empty, joined by single separators. -/
def Separated (sep : α) (ok : α → Bool) (text : List α) : Prop :=
  ∃ runs : List (List α), runs ≠ [] ∧ (∀ run ∈ runs, run ≠ [] ∧ ∀ c ∈ run, ok c = true) ∧
    text = [sep].intercalate runs

theorem ne_of_ok {c : α} (hsep : ok sep = false) (hc : ok c = true) : c ≠ sep := by
  intro hsame
  rw [hsame, hsep] at hc
  cases hc

theorem separated_of_run {run : List α} (hne : run ≠ []) (hok : ∀ c ∈ run, ok c = true) :
    Separated sep ok run := by
  refine ⟨[run], List.cons_ne_nil _ _, ?_, List.intercalate_singleton.symm⟩
  intro other hother
  rw [List.mem_singleton.mp hother]
  exact ⟨hne, hok⟩

/-- A run in front of others. -/
theorem Separated.after {run text : List α} (h : Separated sep ok text) (hne : run ≠ [])
    (hok : ∀ c ∈ run, ok c = true) : Separated sep ok (run ++ sep :: text) := by
  obtain ⟨runs, hruns, hall, rfl⟩ := h
  refine ⟨run :: runs, List.cons_ne_nil _ _, List.forall_mem_cons.mpr ⟨⟨hne, hok⟩, hall⟩, ?_⟩
  rw [List.intercalate_cons_of_ne_nil hruns]
  simp

/-- A longer first run. -/
theorem Separated.cons {c : α} {text : List α} (h : Separated sep ok text) (hc : ok c = true) :
    Separated sep ok (c :: text) := by
  obtain ⟨runs, hruns, hall, rfl⟩ := h
  cases runs with
  | nil => exact absurd rfl hruns
  | cons run rest =>
      obtain ⟨⟨hne, hok⟩, hrest⟩ := List.forall_mem_cons.mp hall
      have hlonger : ∀ d ∈ c :: run, ok d = true := List.forall_mem_cons.mpr ⟨hc, hok⟩
      refine ⟨(c :: run) :: rest, List.cons_ne_nil _ _,
        List.forall_mem_cons.mpr ⟨⟨List.cons_ne_nil _ _, hlonger⟩, hrest⟩, ?_⟩
      cases rest with
      | nil => rw [List.intercalate_singleton, List.intercalate_singleton]
      | cons next others =>
          rw [List.intercalate_cons_cons, List.intercalate_cons_cons]
          rfl

theorem Separated.ne_nil {text : List α} (h : Separated sep ok text) : text ≠ [] := by
  obtain ⟨runs, hruns, hall, rfl⟩ := h
  cases runs with
  | nil => exact absurd rfl hruns
  | cons run rest =>
      have hne := (hall run List.mem_cons_self).1
      cases rest with
      | nil => rwa [List.intercalate_singleton]
      | cons next others =>
          rw [List.intercalate_cons_cons, List.append_assoc]
          exact List.append_ne_nil_of_left_ne_nil hne _

theorem Separated.forall_mem {text : List α} (h : Separated sep ok text) :
    ∀ c ∈ text, c = sep ∨ ok c = true := by
  obtain ⟨runs, hruns, hall, rfl⟩ := h
  induction runs with
  | nil => exact absurd rfl hruns
  | cons run rest ih =>
      obtain ⟨⟨-, hok⟩, hrest⟩ := List.forall_mem_cons.mp hall
      intro c hc
      cases rest with
      | nil =>
          rw [List.intercalate_singleton] at hc
          exact .inr (hok c hc)
      | cons next others =>
          rw [List.intercalate_cons_cons, List.append_assoc, List.mem_append,
            List.singleton_append, List.mem_cons] at hc
          rcases hc with hc | hc | hc
          · exact .inr (hok c hc)
          · exact .inl hc
          · exact ih (List.cons_ne_nil _ _) hrest c hc

/-- A text does not start with a separator. -/
theorem Separated.head?_ne {text : List α} (h : Separated sep ok text) (hsep : ok sep = false) :
    text.head? ≠ some sep := by
  obtain ⟨runs, hruns, hall, rfl⟩ := h
  cases runs with
  | nil => exact absurd rfl hruns
  | cons run rest =>
      obtain ⟨hne, hok⟩ := hall run List.mem_cons_self
      obtain ⟨c, others, rfl⟩ := List.exists_cons_of_ne_nil hne
      have hc : c ≠ sep := ne_of_ok hsep (hok c List.mem_cons_self)
      have hhead : ([sep].intercalate ((c :: others) :: rest)).head? = some c := by
        cases rest with
        | nil => rw [List.intercalate_singleton]; rfl
        | cons next more => rw [List.intercalate_cons_cons]; rfl
      rw [hhead]
      exact fun hsame => hc (Option.some.inj hsame)

/-- Nor does it end with one. -/
theorem Separated.getLast?_ne {text : List α} (h : Separated sep ok text) (hsep : ok sep = false) :
    text.getLast? ≠ some sep := by
  obtain ⟨runs, hruns, hall, rfl⟩ := h
  induction runs with
  | nil => exact absurd rfl hruns
  | cons run rest ih =>
      obtain ⟨⟨hne, hok⟩, hrest⟩ := List.forall_mem_cons.mp hall
      cases rest with
      | nil =>
          rw [List.intercalate_singleton]
          intro hlast
          exact ne_of_ok hsep (hok sep (List.mem_of_getLast? hlast)) rfl
      | cons next others =>
          have hlater : Separated sep ok ([sep].intercalate (next :: others)) :=
            ⟨next :: others, List.cons_ne_nil _ _, hrest, rfl⟩
          rw [List.intercalate_cons_cons, List.getLast?_append_of_ne_nil _ hlater.ne_nil]
          exact ih (List.cons_ne_nil _ _) hrest

/-! ## The scanner -/

variable [DecidableEq α]

/-- The scanner, and whether the character before was a separator. -/
def scan (sep : α) (ok : α → Bool) : Bool → List α → Bool
  | _, [] => true
  | afterSep, c :: rest =>
      if c = sep then !afterSep && scan sep ok true rest
      else ok c && scan sep ok false rest

theorem scan_cons (c : α) (rest : List α) (afterSep : Bool) :
    scan sep ok afterSep (c :: rest) =
      if c = sep then !afterSep && scan sep ok true rest else ok c && scan sep ok false rest := rfl

theorem scan_run {run text : List α} (hsep : ok sep = false) (hne : run ≠ [])
    (hok : ∀ c ∈ run, ok c = true) (afterSep : Bool) :
    scan sep ok afterSep (run ++ text) = scan sep ok false text := by
  induction run generalizing afterSep with
  | nil => exact absurd rfl hne
  | cons c rest ih =>
      obtain ⟨hc, hrest⟩ := List.forall_mem_cons.mp hok
      rw [List.cons_append, scan_cons, if_neg (ne_of_ok hsep hc), hc, Bool.true_and]
      cases rest with
      | nil => rfl
      | cons next others => exact ih (List.cons_ne_nil _ _) hrest false

theorem scan_of_separated {text : List α} (hsep : ok sep = false) (h : Separated sep ok text)
    (afterSep : Bool) : scan sep ok afterSep text = true := by
  obtain ⟨runs, hruns, hall, rfl⟩ := h
  induction runs generalizing afterSep with
  | nil => exact absurd rfl hruns
  | cons run rest ih =>
      obtain ⟨⟨hne, hok⟩, hrest⟩ := List.forall_mem_cons.mp hall
      cases rest with
      | nil =>
          rw [List.intercalate_singleton, ← List.append_nil run, scan_run hsep hne hok]
          rfl
      | cons next others =>
          rw [List.intercalate_cons_cons, List.append_assoc, scan_run hsep hne hok]
          show scan sep ok false (sep :: _) = true
          rw [scan_cons, if_pos rfl]
          exact ih true (List.cons_ne_nil _ _) hrest

/-- What is left of a text, where the scanner stands in it. -/
theorem separated_of_scan {text : List α} {afterSep : Bool} (hne : text ≠ [])
    (hlast : text.getLast? ≠ some sep) (hscan : scan sep ok afterSep text = true) :
    Separated sep ok text ∨
      afterSep = false ∧ ∃ rest, text = sep :: rest ∧ Separated sep ok rest := by
  induction text generalizing afterSep with
  | nil => exact absurd rfl hne
  | cons c rest ih =>
      have hrest : rest ≠ [] → rest.getLast? ≠ some sep := by
        intro hrest
        rwa [← List.singleton_append, List.getLast?_append_of_ne_nil _ hrest] at hlast
      rw [scan_cons] at hscan
      by_cases hc : c = sep
      · rw [if_pos hc, Bool.and_eq_true_iff] at hscan
        have hmore : rest ≠ [] := by
          rintro rfl
          exact hlast (by rw [hc]; rfl)
        right
        refine ⟨by simpa using hscan.1, rest, by rw [hc], ?_⟩
        rcases ih hmore (hrest hmore) hscan.2 with h | ⟨h, -⟩
        · exact h
        · cases h
      · rw [if_neg hc, Bool.and_eq_true_iff] at hscan
        left
        by_cases hmore : rest = []
        · rw [hmore]
          exact separated_of_run (List.cons_ne_nil _ _) (by simpa using hscan.1)
        · rcases ih hmore (hrest hmore) hscan.2 with h | ⟨-, later, rfl, h⟩
          · exact h.cons hscan.1
          · show Separated sep ok ([c] ++ sep :: later)
            exact h.after (List.cons_ne_nil _ _) (by simpa using hscan.1)

/-- **What the scanner accepts**, between two ends that are no separators. -/
theorem separated_iff {text : List α} (hsep : ok sep = false) :
    Separated sep ok text ↔ text ≠ [] ∧ text.head? ≠ some sep ∧ text.getLast? ≠ some sep ∧
      scan sep ok false text = true := by
  constructor
  · intro h
    exact ⟨h.ne_nil, h.head?_ne hsep, h.getLast?_ne hsep, scan_of_separated hsep h false⟩
  · rintro ⟨hne, hhead, hlast, hscan⟩
    rcases separated_of_scan hne hlast hscan with h | ⟨-, rest, rfl, -⟩
    · exact h
    · exact absurd rfl hhead

theorem scan_congr {ok' : α → Bool} {text : List α} (h : ∀ c ∈ text, ok c = ok' c)
    (afterSep : Bool) : scan sep ok afterSep text = scan sep ok' afterSep text := by
  induction text generalizing afterSep with
  | nil => rfl
  | cons c rest ih =>
      obtain ⟨hc, hrest⟩ := List.forall_mem_cons.mp h
      rw [scan_cons, scan_cons, hc, ih hrest, ih hrest]

/-! ## Cuts -/

/-- What stands before the first separator; all of the text, if there is none. -/
def upTo (text : List α) (found : Option Nat) : List α :=
  match found with
  | none => text
  | some position => text.take position

theorem findIdx?_of_not_mem {text : List α} (h : sep ∉ text) :
    text.findIdx? (· = sep) = none := by
  rw [List.findIdx?_eq_none_iff]
  intro c hc
  exact decide_eq_false fun hsame => h (hsame ▸ hc)

theorem findIdx?_cut {first : List α} (h : sep ∉ first) (rest : List α) :
    (first ++ sep :: rest).findIdx? (· = sep) = some first.length := by
  rw [List.findIdx?_append, findIdx?_of_not_mem h, List.findIdx?_cons]
  simp

/-- The first part satisfies `p` and what stands behind the separator, if there is one,
satisfies `q`. -/
theorem cut_iff {p q : List α → Prop} {text : List α} (hp : ∀ first, p first → sep ∉ first) :
    (p (upTo text (text.findIdx? (· = sep))) ∧
        ∀ position ∈ text.findIdx? (· = sep), q (text.drop (position + 1))) ↔
      ∃ first, p first ∧ (text = first ∨ ∃ rest, text = first ++ sep :: rest ∧ q rest) := by
  constructor
  · rintro ⟨hfirst, hrest⟩
    by_cases hmem : sep ∈ text
    · obtain ⟨first, rest, rfl, hnot⟩ := List.eq_append_cons_of_mem hmem
      rw [findIdx?_cut hnot] at hfirst hrest
      have hdrop := hrest _ rfl
      rw [← List.drop_drop, List.drop_left] at hdrop
      rw [upTo, List.take_left] at hfirst
      exact ⟨first, hfirst, .inr ⟨rest, rfl, hdrop⟩⟩
    · rw [findIdx?_of_not_mem hmem] at hfirst
      exact ⟨text, hfirst, .inl rfl⟩
  · rintro ⟨first, hfirst, rfl | ⟨rest, rfl, hrest⟩⟩
    · rw [findIdx?_of_not_mem (hp text hfirst)]
      exact ⟨hfirst, fun _ hposition => by cases hposition⟩
    · rw [findIdx?_cut (hp first hfirst)]
      constructor
      · rw [upTo, List.take_left]
        exact hfirst
      · rintro _ ⟨⟩
        rw [← List.drop_drop, List.drop_left]
        exact hrest

end DynamicProperties.Library.Separators
