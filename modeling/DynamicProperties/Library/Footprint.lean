import Mathlib.Data.Set.Basic
import Mathlib.Logic.Function.Basic
import DynamicProperties.Library.Sequence

/-!
# Pointwise writes and footprints

A state that is looked up by references is a function `ρ → β`.  A *plan* is a
list of pointwise writes; a *planner* computes a plan, or refuses, from the
state it is given.

A planner has footprint `S` when it writes only inside `S` and its answer is
determined by what it reads inside `S`.  The three facts a development needs
follow once and for all: a step leaves everything outside its footprint alone
(`run_frame`), two states that agree on the footprint take the same step and
agree on it afterwards (`run_agree`), and whole sequences of steps inherit both.

`Local` is the same for a step that also answers.  Steps with disjoint footprints
commute (`Local.commute`), so the order of pairwise disjoint steps is invisible
(`runEach_perm`).
-/

namespace DynamicProperties.Library.Footprint

variable {ρ β ε : Type} [DecidableEq ρ]

/-- A list of pointwise writes. -/
abbrev Plan (ρ β : Type) := List (ρ × β)

/-- Perform the writes of a plan, in order. -/
def write (look : ρ → β) (plan : Plan ρ β) : ρ → β :=
  plan.foldl (fun look entry => Function.update look entry.1 entry.2) look

@[simp] theorem write_nil (look : ρ → β) : write look [] = look := rfl

@[simp] theorem write_cons (look : ρ → β) (entry : ρ × β) (plan : Plan ρ β) :
    write look (entry :: plan) = write (Function.update look entry.1 entry.2) plan := rfl

/-- A plan changes only the references it writes. -/
theorem write_frame {plan : Plan ρ β} {r : ρ} (h : ∀ entry ∈ plan, entry.1 ≠ r) (look : ρ → β) :
    write look plan r = look r := by
  induction plan generalizing look with
  | nil => rfl
  | cons entry rest ih =>
      rw [write_cons, ih fun e he => h e (List.mem_cons_of_mem _ he)]
      exact Function.update_of_ne (h entry List.mem_cons_self).symm _ _

/-- After the same plan, a reference differs only if it differed before. -/
theorem write_agree {plan : Plan ρ β} {look look' : ρ → β} {r : ρ} (h : look r = look' r) :
    write look plan r = write look' plan r := by
  induction plan generalizing look look' with
  | nil => exact h
  | cons entry rest ih =>
      rw [write_cons, write_cons]
      apply ih
      by_cases heq : r = entry.1
      · subst heq
        rw [Function.update_self, Function.update_self]
      · rw [Function.update_of_ne heq, Function.update_of_ne heq, h]

/-- What holds of every entry before and of every write holds of every entry
after. -/
theorem write_forall {Q : ρ → β → Prop} {plan : Plan ρ β} {look : ρ → β}
    (hlook : ∀ r, Q r (look r)) (hplan : ∀ entry ∈ plan, Q entry.1 entry.2) (r : ρ) :
    Q r (write look plan r) := by
  induction plan generalizing look with
  | nil => exact hlook r
  | cons entry rest ih =>
      rw [write_cons]
      refine ih (fun r' => ?_) fun e he => hplan e (List.mem_cons_of_mem _ he)
      by_cases heq : r' = entry.1
      · subst heq
        rw [Function.update_self]
        exact hplan entry List.mem_cons_self
      · rw [Function.update_of_ne heq]
        exact hlook r'

/-- A planner reads a state and returns its writes, or refuses. -/
abbrev Planner (ρ β ε : Type) := (ρ → β) → Except ε (Plan ρ β)

/-- The state after a planner's step: its writes, or nothing on refusal. -/
def run (planner : Planner ρ β ε) (look : ρ → β) : ρ → β :=
  match planner look with
  | .ok plan => write look plan
  | .error _ => look

/-- Reads and writes stay inside `S`. -/
structure HasFootprint (planner : Planner ρ β ε) (S : ρ → Prop) : Prop where
  writes : ∀ look plan, planner look = .ok plan → ∀ entry ∈ plan, S entry.1
  reads : ∀ look look', (∀ r, S r → look r = look' r) → planner look = planner look'

namespace HasFootprint

variable {planner : Planner ρ β ε} {S : ρ → Prop}

/-- A step leaves everything outside its footprint alone. -/
theorem run_frame (h : HasFootprint planner S) (look : ρ → β) {r : ρ} (hr : ¬ S r) :
    run planner look r = look r := by
  cases hplan : planner look with
  | error refusal => simp only [run, hplan]
  | ok plan =>
      simp only [run, hplan]
      apply write_frame
      intro entry hentry heq
      exact hr (heq ▸ h.writes look plan hplan entry hentry)

/-- Two states that agree on a set containing the footprint still agree on that
set after the step. -/
theorem run_agree (h : HasFootprint planner S) {T : ρ → Prop} (hST : ∀ r, S r → T r)
    {look look' : ρ → β} (hagree : ∀ r, T r → look r = look' r) {r : ρ} (hr : T r) :
    run planner look r = run planner look' r := by
  have hsame : planner look = planner look' :=
    h.reads look look' fun r hS => hagree r (hST r hS)
  cases hplan : planner look' with
  | error refusal =>
      simp only [run, hsame, hplan]
      exact hagree r hr
  | ok plan =>
      simp only [run, hsame, hplan]
      exact write_agree (hagree r hr)

end HasFootprint

/-! ## Steps that answer -/

section Local

omit [DecidableEq ρ]

variable {σ α : Type} {view : σ → ρ → β}

/-- A step that reads and writes, of a state seen through `view`, only what lies
inside `S`. -/
structure Local (view : σ → ρ → β) (step : σ → α × σ) (S : ρ → Prop) : Prop where
  frame : ∀ state r, ¬ S r → view (step state).2 r = view state r
  reads : ∀ state state', (∀ r, S r → view state r = view state' r) →
    (step state).1 = (step state').1 ∧ ∀ r, S r → view (step state).2 r = view (step state').2 r

/-- **Independence.**  Steps with disjoint footprints do not see each other. -/
theorem Local.commute {first second : σ → α × σ} {S T : ρ → Prop}
    (hview : Function.Injective view) (hfirst : Local view first S) (hsecond : Local view second T)
    (hdisjoint : ∀ r, S r → ¬ T r) (state : σ) :
    (first (second state).2).1 = (first state).1 ∧ (second (first state).2).1 = (second state).1 ∧
      (second (first state).2).2 = (first (second state).2).2 := by
  have hkeptS : ∀ r, S r → view (second state).2 r = view state r := fun r hr =>
    hsecond.frame state r (hdisjoint r hr)
  have hkeptT : ∀ r, T r → view (first state).2 r = view state r := fun r hr =>
    hfirst.frame state r fun hS => hdisjoint r hS hr
  obtain ⟨hanswerS, hwriteS⟩ := hfirst.reads _ _ hkeptS
  obtain ⟨hanswerT, hwriteT⟩ := hsecond.reads _ _ hkeptT
  have hviews : view (second (first state).2).2 = view (first (second state).2).2 := by
    funext r
    by_cases hS : S r
    · rw [hsecond.frame _ r (hdisjoint r hS), hwriteS r hS]
    · rw [hfirst.frame _ r hS]
      by_cases hT : T r
      · exact hwriteT r hT
      · rw [hsecond.frame _ r hT, hsecond.frame _ r hT, hfirst.frame _ r hS]
  exact ⟨hanswerS, hanswerT, hview hviews⟩

/-- **Serializations.**  Pairwise disjoint steps give the same answers and the same
final state in any order. -/
theorem runEach_perm {ι : Type} {step : ι → σ → α × σ} {footprint : ι → ρ → Prop}
    (hview : Function.Injective view) (hlocal : ∀ item, Local view (step item) (footprint item))
    {items items' : List ι} (hperm : items.Perm items')
    (hdisjoint : items.Pairwise fun i j => ∀ r, footprint i r → ¬ footprint j r) (state : σ) :
    (items.zip (Sequence.runEach step items state).1).Perm
        (items'.zip (Sequence.runEach step items' state).1) ∧
      (Sequence.runEach step items state).2 = (Sequence.runEach step items' state).2 := by
  induction hperm generalizing state with
  | nil => exact ⟨.refl _, rfl⟩
  | cons item _ ih =>
      obtain ⟨hanswers, hfinal⟩ := ih (List.pairwise_cons.mp hdisjoint).2 (step item state).2
      exact ⟨hanswers.cons _, hfinal⟩
  | swap first second rest =>
      have hapart := (List.pairwise_cons.mp hdisjoint).1 first List.mem_cons_self
      obtain ⟨hsecond, hfirst, hstate⟩ :=
        (hlocal second).commute hview (hlocal first) hapart state
      show List.Perm
          ((second, (step second state).1) :: (first, (step first (step second state).2).1) ::
            rest.zip (Sequence.runEach step rest (step first (step second state).2).2).1)
          ((first, (step first state).1) :: (second, (step second (step first state).2).1) ::
            rest.zip (Sequence.runEach step rest (step second (step first state).2).2).1) ∧
        (Sequence.runEach step rest (step first (step second state).2).2).2 =
          (Sequence.runEach step rest (step second (step first state).2).2).2
      rw [hsecond, hfirst, hstate]
      exact ⟨.swap _ _ _, rfl⟩
  | trans hleft _ ihleft ihright =>
      have hsymm : ∀ {i j}, (∀ r, footprint i r → ¬ footprint j r) →
          ∀ r, footprint j r → ¬ footprint i r := fun h r hj hi => h r hi hj
      obtain ⟨hanswers, hfinal⟩ := ihleft hdisjoint state
      obtain ⟨hanswers', hfinal'⟩ := ihright (hdisjoint.perm hleft hsymm) state
      exact ⟨hanswers.trans hanswers', hfinal.trans hfinal'⟩

end Local

end DynamicProperties.Library.Footprint
