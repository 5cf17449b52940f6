import Mathlib.Data.List.Basic

/-!
# Programs of requests and their executions

A call into a concurrent component is a sequence of atomic requests, each of
which is answered before the next one is issued.  `Program I α` is such a call:
it either returns, or issues a request of the interface `I` and continues with
whatever response it gets.

The component is a relation `act world request response world'`.  `Executes`
relates a program to the steps it took and to what is left of it.  Nothing ties
the world after one step to the world before the next: between two steps of one
call anybody else may act.  Facts about one call are therefore facts about
every interleaving, and are stated with two judgements and their rules:

* `Ensures act p Q`: every complete execution of `p` satisfies `Q`;
* `Issues P p`: every request `p` can issue satisfies `P`.

`run` is the uninterrupted execution under a deterministic handler; it is one of
the executions (`executes_run`).
-/

namespace DynamicProperties.Library.Requests

/-- The requests a component answers, and the type of each answer. -/
structure Interface where
  Request : Type
  Response : Request → Type

/-- A call: a value, or a request and what to do with its response. -/
inductive Program (I : Interface) (α : Type) : Type where
  | done (result : α)
  | call (request : I.Request) (next : I.Response request → Program I α)

variable {I : Interface} {W α β : Type}

namespace Program

def bind : Program I α → (α → Program I β) → Program I β
  | done result, f => f result
  | call request next, f => call request fun response => (next response).bind f

instance : Monad (Program I) where
  pure := done
  bind := bind

/-- Issue one request. -/
def request (r : I.Request) : Program I (I.Response r) :=
  call r done

@[simp] theorem pure_eq (result : α) : (pure result : Program I α) = done result := rfl

@[simp] theorem done_bind (result : α) (f : α → Program I β) :
    (done result >>= f) = f result := rfl

@[simp] theorem call_bind (r : I.Request) (next : I.Response r → Program I α)
    (f : α → Program I β) :
    (call r next >>= f) = call r fun response => next response >>= f := rfl

@[simp] theorem request_bind (r : I.Request) (f : I.Response r → Program I β) :
    (request r >>= f) = call r f := rfl

end Program

open Program

/-- One atomic step of a call, with the world it found and the world it left. -/
structure Step (I : Interface) (W : Type) where
  before : W
  request : I.Request
  response : I.Response request
  after : W

/-- `p` took these steps and `q` is left of it. -/
inductive Executes (act : W → (r : I.Request) → I.Response r → W → Prop) :
    Program I α → List (Step I W) → Program I α → Prop
  | rest (p : Program I α) : Executes act p [] p
  | step {before after : W} {r : I.Request} {response : I.Response r}
      {next : I.Response r → Program I α} {steps : List (Step I W)} {q : Program I α}
      (hact : act before r response after) (hrest : Executes act (next response) steps q) :
      Executes act (call r next) (⟨before, r, response, after⟩ :: steps) q

section Executions

variable {act : W → (r : I.Request) → I.Response r → W → Prop}

/-- Executions extend at the end. -/
theorem Executes.snoc {p : Program I α} {steps : List (Step I W)} {before after : W}
    {r : I.Request} {response : I.Response r} {next : I.Response r → Program I α}
    (h : Executes act p steps (call r next)) (hact : act before r response after) :
    Executes act p (steps ++ [⟨before, r, response, after⟩]) (next response) := by
  generalize hq : call r next = q at h
  induction h with
  | rest p =>
      subst hq
      exact .step hact (.rest _)
  | step hfirst _ ih => exact .step hfirst (ih hq)

/-- An execution goes on with an execution of what is left. -/
theorem Executes.append {p q s : Program I α} {first second : List (Step I W)}
    (h : Executes act p first q) (h' : Executes act q second s) :
    Executes act p (first ++ second) s := by
  induction h with
  | rest p => exact h'
  | step hact _ ih => exact .step hact (ih h')

/-- A returned call took no further step. -/
theorem executes_done {a : α} {steps : List (Step I W)} {q : Program I α}
    (h : Executes act (done a) steps q) : steps = [] ∧ q = done a := by
  cases h
  exact ⟨rfl, rfl⟩

/-- An execution of a sequence is still in the first part, or has finished it. -/
theorem executes_bind {p : Program I α} {f : α → Program I β} {steps : List (Step I W)}
    {q : Program I β} (h : Executes act (p >>= f) steps q) :
    (∃ p', Executes act p steps p' ∧ q = p' >>= f) ∨
      ∃ a first second, steps = first ++ second ∧ Executes act p first (done a) ∧
        Executes act (f a) second q := by
  induction p generalizing steps with
  | done a => exact Or.inr ⟨a, [], steps, rfl, .rest _, h⟩
  | call r next ih =>
      rw [call_bind] at h
      cases h with
      | rest => exact Or.inl ⟨call r next, .rest _, rfl⟩
      | step hact hrest =>
          rcases ih _ hrest with ⟨p', hp', rfl⟩ | ⟨a, first, second, rfl, hfirst, hsecond⟩
          · exact Or.inl ⟨p', .step hact hp', rfl⟩
          · exact Or.inr ⟨a, _ :: first, second, rfl, .step hact hfirst, hsecond⟩

/-- A complete execution of a sequence is a complete execution of each part. -/
theorem completes_bind {p : Program I α} {f : α → Program I β} {steps : List (Step I W)} {b : β}
    (h : Executes act (p >>= f) steps (done b)) :
    ∃ a first second, steps = first ++ second ∧ Executes act p first (done a) ∧
      Executes act (f a) second (done b) := by
  rcases executes_bind h with ⟨p', hp', hq⟩ | hfinished
  · cases p' with
    | done a => exact ⟨a, steps, [], by simp, hp', by rw [hq]; exact .rest _⟩
    | call r next => cases hq
  · exact hfinished

theorem completes_call {r : I.Request} {next : I.Response r → Program I α}
    {steps : List (Step I W)} {a : α} (h : Executes act (call r next) steps (done a)) :
    ∃ before response after rest, steps = ⟨before, r, response, after⟩ :: rest ∧
      act before r response after ∧ Executes act (next response) rest (done a) := by
  cases h with
  | step hact hrest => exact ⟨_, _, _, _, rfl, hact, hrest⟩

/-! ## What every complete execution satisfies -/

/-- Every complete execution of `p` satisfies `Q`. -/
def Ensures (act : W → (r : I.Request) → I.Response r → W → Prop) (p : Program I α)
    (Q : List (Step I W) → α → Prop) : Prop :=
  ∀ steps a, Executes act p steps (done a) → Q steps a

theorem ensures_done {a : α} {Q : List (Step I W) → α → Prop} (h : Q [] a) :
    Ensures act (done a) Q := by
  intro steps b hexec
  obtain ⟨rfl, hb⟩ := executes_done hexec
  cases hb
  exact h

theorem ensures_call {r : I.Request} {next : I.Response r → Program I α}
    {Q : List (Step I W) → α → Prop}
    (h : ∀ before response after, act before r response after →
      Ensures act (next response) fun steps a => Q (⟨before, r, response, after⟩ :: steps) a) :
    Ensures act (call r next) Q := by
  intro steps a hexec
  obtain ⟨before, response, after, rest, rfl, hact, hrest⟩ := completes_call hexec
  exact h before response after hact rest a hrest

/-- The rule for one request in front of the rest. -/
theorem ensures_call_bind {r : I.Request} {f : I.Response r → Program I β}
    {Q : List (Step I W) → β → Prop}
    (h : ∀ before response after, act before r response after →
      Ensures act (f response) fun steps b => Q (⟨before, r, response, after⟩ :: steps) b) :
    Ensures act (call r done >>= f) Q :=
  ensures_call h

theorem ensures_bind {p : Program I α} {f : α → Program I β}
    {Q : List (Step I W) → α → Prop} {R : List (Step I W) → β → Prop} (hp : Ensures act p Q)
    (hf : ∀ first a, Q first a → Ensures act (f a) fun second b => R (first ++ second) b) :
    Ensures act (p >>= f) R := by
  intro steps b hexec
  obtain ⟨a, first, second, rfl, hfirst, hsecond⟩ := completes_bind hexec
  exact hf first a (hp first a hfirst) second b hsecond

/-- The rule for a program that only wraps its result. -/
theorem ensures_wrap {p : Program I α} {f : α → β} {Q : List (Step I W) → Prop}
    (hp : Ensures act p fun steps _ => Q steps) :
    Ensures act (p >>= fun a => done (f a)) fun steps _ => Q steps :=
  ensures_bind hp fun first _ hfirst => ensures_done (by rwa [List.append_nil])

theorem ensures_mono {p : Program I α} {Q R : List (Step I W) → α → Prop}
    (hp : Ensures act p Q) (h : ∀ steps a, Q steps a → R steps a) : Ensures act p R :=
  fun steps a hexec => h steps a (hp steps a hexec)

/-! ## What a program can issue -/

/-- Every request that `p` can issue satisfies `P`. -/
def Issues (P : I.Request → Prop) : Program I α → Prop
  | done _ => True
  | call r next => P r ∧ ∀ response, Issues P (next response)

theorem issues_bind {P : I.Request → Prop} {p : Program I α} {f : α → Program I β}
    (hp : Issues P p) (hf : ∀ a, Issues P (f a)) : Issues P (p >>= f) := by
  induction p with
  | done a => exact hf a
  | call r next ih => exact ⟨hp.1, fun response => ih response (hp.2 response)⟩

/-- The rule for one request in front of the rest. -/
theorem issues_call_bind {P : I.Request → Prop} {r : I.Request} {f : I.Response r → Program I β}
    (hr : P r) (hf : ∀ response, Issues P (f response)) :
    Issues P (call r done >>= f) :=
  ⟨hr, hf⟩

theorem issues_mono {P Q : I.Request → Prop} {p : Program I α} (h : ∀ r, P r → Q r)
    (hp : Issues P p) : Issues Q p := by
  induction p with
  | done a => trivial
  | call r next ih => exact ⟨h r hp.1, fun response => ih response (hp.2 response)⟩

/-- The steps taken, and what is left, only issue such requests; and each step is
one of the component's. -/
theorem Executes.issues {P : I.Request → Prop} {p q : Program I α} {steps : List (Step I W)}
    (h : Executes act p steps q) (hp : Issues P p) :
    (∀ step ∈ steps, P step.request ∧ act step.before step.request step.response step.after) ∧
      Issues P q := by
  induction h with
  | rest p => exact ⟨by simp, hp⟩
  | step hact _ ih =>
      have hrest := ih (hp.2 _)
      refine ⟨fun s hs => ?_, hrest.2⟩
      rcases List.mem_cons.mp hs with rfl | htail
      · exact ⟨hp.1, hact⟩
      · exact hrest.1 s htail

/-- A complete execution only issued such requests. -/
theorem ensures_issues {P : I.Request → Prop} {p : Program I α} (hp : Issues P p) :
    Ensures act p fun steps _ => ∀ step ∈ steps, P step.request :=
  fun _ _ hexec step hstep => ((hexec.issues hp).1 step hstep).1

/-- Each step of an execution is a step of the component. -/
theorem Executes.acts {p q : Program I α} {steps : List (Step I W)}
    (h : Executes act p steps q) :
    ∀ step ∈ steps, act step.before step.request step.response step.after := by
  induction h with
  | rest p => simp
  | step hact _ ih =>
      intro s hs
      rcases List.mem_cons.mp hs with rfl | htail
      · exact hact
      · exact ih s htail

end Executions

/-! ## Uninterrupted execution -/

/-- Run a program alone, under a deterministic handler. -/
def run (handle : W → (r : I.Request) → I.Response r × W) : Program I α → W → α × W
  | done a, world => (a, world)
  | call r next, world => run handle (next (handle world r).1) (handle world r).2

section Run

variable (handle : W → (r : I.Request) → I.Response r × W)

@[simp] theorem run_done (a : α) (world : W) : run handle (done a) world = (a, world) := rfl

@[simp] theorem run_call (r : I.Request) (next : I.Response r → Program I α) (world : W) :
    run handle (call r next) world =
      run handle (next (handle world r).1) (handle world r).2 := rfl

@[simp] theorem run_bind (p : Program I α) (f : α → Program I β) (world : W) :
    run handle (p >>= f) world =
      run handle (f (run handle p world).1) (run handle p world).2 := by
  induction p generalizing world with
  | done a => rfl
  | call r next ih => exact ih _ _

/-- A program that only wraps its result. -/
theorem run_wrap (p : Program I α) (f : α → β) (world : W) :
    run handle (p >>= fun a => done (f a)) world =
      (f (run handle p world).1, (run handle p world).2) := by
  rw [run_bind]
  rfl

/-- The steps of an uninterrupted execution. -/
def runSteps : Program I α → W → List (Step I W)
  | done _, _ => []
  | call r next, world =>
      ⟨world, r, (handle world r).1, (handle world r).2⟩ ::
        runSteps (next (handle world r).1) (handle world r).2

variable {handle} {act : W → (r : I.Request) → I.Response r → W → Prop}

/-- The uninterrupted execution is an execution. -/
theorem executes_run (hact : ∀ world r, act world r (handle world r).1 (handle world r).2)
    (p : Program I α) (world : W) :
    Executes act p (runSteps handle p world) (done (run handle p world).1) := by
  induction p generalizing world with
  | done a => exact .rest _
  | call r next ih => exact .step (hact world r) (ih _ _)

/-- What is left of a call can always be run alone to its end. -/
theorem Executes.completes (hact : ∀ world r, act world r (handle world r).1 (handle world r).2)
    {p q : Program I α} {steps : List (Step I W)} (h : Executes act p steps q) (world : W) :
    Executes act p (steps ++ runSteps handle q world) (done (run handle q world).1) :=
  h.append (executes_run hact q world)

end Run

end DynamicProperties.Library.Requests
