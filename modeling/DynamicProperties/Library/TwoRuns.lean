import DynamicProperties.Library.Raising

/-!
# Two uninterrupted runs side by side

`Returns act p world a world'` is the uninterrupted execution of a program: each
step starts in the world the step before it left.  Where the component answers
nondeterministically there are many.

`Relates act R p q Q` compares two programs run alone from two worlds related by
`R`: whatever answers each run gets, the worlds they leave are related again and
the results are related by `Q`.  It has one rule for each way to build a
program, so that a statement about two runs is proved by following the text of
the programs once.  `Answers` is the same judgement for a single request, and
`relates_of_issues` settles a program all of whose requests are answered alike
at one stroke.
-/

namespace DynamicProperties.Library.TwoRuns

open DynamicProperties.Library.Requests
open DynamicProperties.Library.Requests.Program
open DynamicProperties.Library.Raising

variable {I : Interface} {W α β γ δ : Type}
variable (act : W → (r : I.Request) → I.Response r → W → Prop)

/-- Run alone from the first world, the program returns a value and leaves the
second world. -/
inductive Returns : Program I α → W → α → W → Prop
  | finish (a : α) (world : W) : Returns (done a) world a world
  | step {world between world' : W} {r : I.Request} {response : I.Response r}
      {next : I.Response r → Program I α} {a : α} (hact : act world r response between)
      (hrest : Returns (next response) between a world') :
      Returns (call r next) world a world'

variable {act}

theorem returns_done {a b : α} {world world' : W} (h : Returns act (done a) world b world') :
    b = a ∧ world' = world := by
  cases h
  exact ⟨rfl, rfl⟩

theorem returns_call {r : I.Request} {next : I.Response r → Program I α} {world world' : W}
    {a : α} (h : Returns act (call r next) world a world') :
    ∃ response between, act world r response between ∧
      Returns act (next response) between a world' := by
  cases h with
  | step hact hrest => exact ⟨_, _, hact, hrest⟩

theorem returns_bind {p : Program I α} {f : α → Program I β} {world world' : W} {b : β}
    (h : Returns act (p >>= f) world b world') :
    ∃ a between, Returns act p world a between ∧ Returns act (f a) between b world' := by
  induction p generalizing world with
  | done a => exact ⟨a, world, .finish a world, h⟩
  | call r next ih =>
      rw [call_bind] at h
      obtain ⟨response, between, hact, hrest⟩ := returns_call h
      obtain ⟨a, middle, hfirst, hsecond⟩ := ih response hrest
      exact ⟨a, middle, .step hact hfirst, hsecond⟩

/-- Where the component can always answer, every program returns. -/
theorem returns_run {handle : W → (r : I.Request) → I.Response r × W}
    (hact : ∀ world r, act world r (handle world r).1 (handle world r).2)
    (p : Program I α) (world : W) :
    Returns act p world (run handle p world).1 (run handle p world).2 := by
  induction p generalizing world with
  | done a => exact .finish a world
  | call r next ih => exact .step (hact world r) (ih _ _)

/-- What every allowed request preserves, an uninterrupted run preserves. -/
theorem Returns.invariant {P : I.Request → Prop} {J : W → Prop} {p : Program I α}
    (hstep : ∀ world r response world', P r → act world r response world' → J world → J world')
    (hp : Issues P p) {world world' : W} {a : α} (h : Returns act p world a world')
    (hinit : J world) : J world' := by
  induction h with
  | finish => exact hinit
  | step hact _ ih => exact ih (hp.2 _) (hstep _ _ _ _ hp.1 hact hinit)

/-! ## Calls that may raise -/

section Raising

variable {ε : Type} {world world' : W}

/-- The first part raised, and with it the call; or the rest ran on its value. -/
theorem returns_then {p : RaisingProgram I ε α} {f : α → RaisingProgram I ε β}
    {result : Except ε β} (h : Returns act (p >>= f).run world result world') :
    (∃ error, Returns act p.run world (.error error) world' ∧ result = .error error) ∨
      ∃ a between, Returns act p.run world (.ok a) between ∧
        Returns act (f a).run between result world' := by
  rw [run_then] at h
  obtain ⟨first, between, hfirst, hrest⟩ := returns_bind h
  cases first with
  | ok a => exact .inr ⟨a, between, hfirst, hrest⟩
  | error error =>
      obtain ⟨rfl, rfl⟩ := returns_done hrest
      exact .inl ⟨error, hfirst, rfl⟩

theorem returns_attempt {r : I.Request} {answer : I.Response r → Except ε α} {result : Except ε α}
    (h : Returns act (attempt r answer).run world result world') :
    ∃ response, act world r response world' ∧ result = answer response := by
  obtain ⟨response, between, hact, hrest⟩ := returns_call h
  obtain ⟨rfl, rfl⟩ := returns_done hrest
  exact ⟨response, hact, rfl⟩

theorem returns_lift_bind {p : Program I α} {f : α → RaisingProgram I ε β} {result : Except ε β}
    (h : Returns act (lift p >>= f).run world result world') :
    ∃ a between, Returns act p world a between ∧ Returns act (f a).run between result world' := by
  rw [run_lift_bind] at h
  exact returns_bind h

end Raising

/-- Run programs one after the other and collect what they return. -/
def inTurn : List (Program I α) → Program I (List α)
  | [] => done []
  | p :: rest => do
      let a ← p
      let results ← inTurn rest
      pure (a :: results)

/-! ## The judgements -/

variable (act)

/-- From related worlds two requests are answered in a related way. -/
def Answers (R : W → W → Prop) (r r' : I.Request) (S : I.Response r → I.Response r' → Prop) :
    Prop :=
  ∀ world world' response response' after after', R world world' →
    act world r response after → act world' r' response' after' →
    R after after' ∧ S response response'

/-- From related worlds two programs return related results in related worlds. -/
def Relates (R : W → W → Prop) (p : Program I α) (q : Program I β) (Q : α → β → Prop) : Prop :=
  ∀ world world' a b after after', R world world' →
    Returns act p world a after → Returns act q world' b after' →
    R after after' ∧ Q a b

variable {act} {R : W → W → Prop}

/-! ## The rules -/

theorem relates_done {a : α} {b : β} {Q : α → β → Prop} (h : Q a b) :
    Relates act R (done a : Program I α) (done b) Q := by
  intro world world' x y after after' hR hp hq
  obtain ⟨rfl, rfl⟩ := returns_done hp
  obtain ⟨rfl, rfl⟩ := returns_done hq
  exact ⟨hR, h⟩

theorem relates_call {r r' : I.Request} {next : I.Response r → Program I α}
    {next' : I.Response r' → Program I β} {S : I.Response r → I.Response r' → Prop}
    {Q : α → β → Prop} (hr : Answers act R r r' S)
    (hnext : ∀ x y, S x y → Relates act R (next x) (next' y) Q) :
    Relates act R (call r next) (call r' next') Q := by
  intro world world' a b after after' hR hp hq
  obtain ⟨x, between, hact, hrest⟩ := returns_call hp
  obtain ⟨y, between', hact', hrest'⟩ := returns_call hq
  obtain ⟨hbetween, hS⟩ := hr _ _ _ _ _ _ hR hact hact'
  exact hnext x y hS _ _ _ _ _ _ hbetween hrest hrest'

/-- The rule for one request in front of the rest. -/
theorem relates_call_bind {r r' : I.Request} {f : I.Response r → Program I α}
    {g : I.Response r' → Program I β} {S : I.Response r → I.Response r' → Prop}
    {Q : α → β → Prop} (hr : Answers act R r r' S)
    (hnext : ∀ x y, S x y → Relates act R (f x) (g y) Q) :
    Relates act R (call r done >>= f) (call r' done >>= g) Q :=
  relates_call hr hnext

theorem relates_bind {p : Program I α} {q : Program I β} {f : α → Program I γ}
    {g : β → Program I δ} {S : α → β → Prop} {Q : γ → δ → Prop} (hp : Relates act R p q S)
    (hf : ∀ a b, S a b → Relates act R (f a) (g b) Q) :
    Relates act R (p >>= f) (q >>= g) Q := by
  intro world world' c d after after' hR hleft hright
  obtain ⟨a, between, hfirst, hrest⟩ := returns_bind hleft
  obtain ⟨b, between', hfirst', hrest'⟩ := returns_bind hright
  obtain ⟨hbetween, hS⟩ := hp _ _ _ _ _ _ hR hfirst hfirst'
  exact hf a b hS _ _ _ _ _ _ hbetween hrest hrest'

/-- A program that only issues requests answered alike runs alike. -/
theorem relates_of_issues {P : I.Request → Prop} {p : Program I α}
    (hr : ∀ r, P r → Answers act R r r (· = ·)) (hp : Issues P p) :
    Relates act R p p (· = ·) := by
  induction p with
  | done a => exact relates_done rfl
  | call r next ih =>
      refine relates_call (hr r hp.1) fun x y hxy => ?_
      subst hxy
      exact ih x (hp.2 x)

/-- Programs in turn, related one by one. -/
theorem relates_inTurn {ps : List (Program I α)} {qs : List (Program I β)} {Q : α → β → Prop}
    (h : List.Forall₂ (fun p q => Relates act R p q Q) ps qs) :
    Relates act R (inTurn ps) (inTurn qs) (List.Forall₂ Q) := by
  induction h with
  | nil => exact relates_done .nil
  | cons hhead _ ih =>
      refine relates_bind hhead fun a b hab => ?_
      refine relates_bind ih fun results results' hresults => ?_
      exact relates_done (.cons hab hresults)

end DynamicProperties.Library.TwoRuns
