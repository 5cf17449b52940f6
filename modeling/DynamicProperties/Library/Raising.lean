import DynamicProperties.Library.Requests

/-!
# Calls that may raise

A call that may raise is a program whose result is an error or a value, in the
monad `ExceptT ε (Program I)`: an error ends it.  The judgements of `Requests` get
one more rule each, for a first part that may raise.
-/

namespace DynamicProperties.Library.Raising

open DynamicProperties.Library.Requests
open DynamicProperties.Library.Requests.Program

variable {I : Interface} {W ε α β : Type}

/-- A call that may raise. -/
abbrev RaisingProgram (I : Interface) (ε α : Type) := ExceptT ε (Program I) α

/-- Issue a request whose answer is an error or a value. -/
def attempt (r : I.Request) (answer : I.Response r → Except ε α) : RaisingProgram I ε α :=
  ExceptT.mk (call r fun response => done (answer response))

/-- Issue a request that cannot raise. -/
def ask (r : I.Request) : RaisingProgram I ε (I.Response r) :=
  attempt r .ok

/-- What cannot raise, as a part of a call that may. -/
def lift (p : Program I α) : RaisingProgram I ε α :=
  ExceptT.mk (p >>= fun a => done (.ok a))

/-- The outcome of a computation that issues nothing. -/
def outcome (x : Except ε α) : RaisingProgram I ε α :=
  ExceptT.mk (done x)

theorem run_then (p : RaisingProgram I ε α) (f : α → RaisingProgram I ε β) :
    (p >>= f).run = p.run >>= fun
      | .ok a => (f a).run
      | .error error => done (.error error) := by
  show Program.bind _ _ = Program.bind _ _
  congr 1

@[simp] theorem run_pure (a : α) : (pure a : RaisingProgram I ε α).run = done (.ok a) := rfl

@[simp] theorem run_throw (error : ε) :
    (throw error : RaisingProgram I ε α).run = done (.error error) :=
  rfl

theorem run_attempt_bind (r : I.Request) (answer : I.Response r → Except ε α)
    (f : α → RaisingProgram I ε β) :
    (attempt r answer >>= f).run = call r fun response =>
      match answer response with
      | .ok a => (f a).run
      | .error error => done (.error error) := by
  rw [run_then]
  show call r _ = call r _
  congr 1

theorem run_outcome_bind (x : Except ε α) (f : α → RaisingProgram I ε β) :
    (outcome x >>= f).run = match x with
      | .ok a => (f a).run
      | .error error => done (.error error) := by
  rw [run_then]
  rfl

/-- Sequencing is associative. -/
theorem bind_assoc {γ : Type} (p : Program I α) (f : α → Program I β) (g : β → Program I γ) :
    (p >>= f) >>= g = p >>= fun a => f a >>= g := by
  induction p with
  | done a => rfl
  | call r next ih =>
      rw [call_bind, call_bind, call_bind]
      congr 1
      funext response
      exact ih response

theorem run_lift_bind (p : Program I α) (f : α → RaisingProgram I ε β) :
    (lift p >>= f).run = p >>= fun a => (f a).run := by
  rw [run_then]
  exact bind_assoc p _ _

section Rules

variable {act : W → (r : I.Request) → I.Response r → W → Prop} {P : I.Request → Prop}

theorem issues_then {p : RaisingProgram I ε α} {f : α → RaisingProgram I ε β} (hp : Issues P p.run)
    (hf : ∀ a, Issues P (f a).run) : Issues P (p >>= f).run := by
  rw [run_then]
  refine issues_bind hp fun outcome => ?_
  cases outcome with
  | ok a => exact hf a
  | error error => trivial

theorem issues_attempt {r : I.Request} (answer : I.Response r → Except ε α) (hr : P r) :
    Issues P (attempt r answer).run :=
  ⟨hr, fun _ => trivial⟩

/-- The rule for a first part that may raise. -/
theorem ensures_then {p : RaisingProgram I ε α} {f : α → RaisingProgram I ε β}
    {Q : List (Step I W) → Except ε α → Prop} {R : List (Step I W) → Except ε β → Prop}
    (hp : Ensures act p.run Q)
    (hraise : ∀ steps error, Q steps (.error error) → R steps (.error error))
    (hf : ∀ first a, Q first (.ok a) →
      Ensures act (f a).run fun second b => R (first ++ second) b) :
    Ensures act (p >>= f).run R := by
  rw [run_then]
  refine ensures_bind hp fun first outcome hfirst => ?_
  cases outcome with
  | ok a => exact hf first a hfirst
  | error error =>
      refine ensures_done ?_
      rw [List.append_nil]
      exact hraise first error hfirst

/-- The rule for one request in front of the rest. -/
theorem ensures_attempt_bind {r : I.Request} {answer : I.Response r → Except ε α}
    {f : α → RaisingProgram I ε β} {R : List (Step I W) → Except ε β → Prop}
    (hraise : ∀ before response after error, act before r response after →
      answer response = .error error → R [⟨before, r, response, after⟩] (.error error))
    (hf : ∀ before response after a, act before r response after → answer response = .ok a →
      Ensures act (f a).run fun steps b => R (⟨before, r, response, after⟩ :: steps) b) :
    Ensures act (attempt r answer >>= f).run R := by
  rw [run_attempt_bind]
  refine ensures_call fun before response after hact => ?_
  cases hanswer : answer response with
  | ok a => exact hf before response after a hact hanswer
  | error error => exact ensures_done (hraise before response after error hact hanswer)

/-- The rule for a first part that cannot raise. -/
theorem ensures_lift_bind {p : Program I α} {f : α → RaisingProgram I ε β}
    {Q : List (Step I W) → α → Prop} {R : List (Step I W) → Except ε β → Prop}
    (hp : Ensures act p Q)
    (hf : ∀ first a, Q first a → Ensures act (f a).run fun second b => R (first ++ second) b) :
    Ensures act (lift p >>= f).run R := by
  rw [run_lift_bind]
  exact ensures_bind hp hf

/-- The rule for a check that issues nothing. -/
theorem ensures_outcome_bind {x : Except ε α} {f : α → RaisingProgram I ε β}
    {R : List (Step I W) → Except ε β → Prop}
    (hraise : ∀ error, x = .error error → R [] (.error error))
    (hf : ∀ a, x = .ok a → Ensures act (f a).run R) : Ensures act (outcome x >>= f).run R := by
  rw [run_outcome_bind]
  cases x with
  | ok a => exact hf a rfl
  | error error => exact ensures_done (hraise error rfl)

theorem issues_lift {p : Program I α} (hp : Issues P p) :
    Issues P (lift p : RaisingProgram I ε α).run :=
  issues_bind hp fun _ => trivial

theorem issues_outcome (x : Except ε α) : Issues P (outcome x : RaisingProgram I ε α).run :=
  trivial

/-- The rule for a check that issues nothing. -/
theorem issues_outcome_bind {x : Except ε α} {f : α → RaisingProgram I ε β}
    (hf : ∀ a, x = .ok a → Issues P (f a).run) : Issues P (outcome x >>= f).run := by
  rw [run_outcome_bind]
  cases x with
  | ok a => exact hf a rfl
  | error error => trivial

theorem ensures_ask_bind {r : I.Request} {f : I.Response r → RaisingProgram I ε β}
    {R : List (Step I W) → Except ε β → Prop}
    (hf : ∀ before response after, act before r response after →
      Ensures act (f response).run fun steps b => R (⟨before, r, response, after⟩ :: steps) b) :
    Ensures act (ask r >>= f).run R := by
  refine ensures_attempt_bind (fun _ _ _ _ _ h => by cases h) ?_
  intro before response after a hact ha
  obtain rfl := Except.ok.inj ha
  exact hf before _ after hact

end Rules

end DynamicProperties.Library.Raising
