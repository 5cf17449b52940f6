import Mathlib.Algebra.BigOperators.Group.List.Basic
import Mathlib.Tactic.Abel
import DynamicProperties.Library.Requests

/-!
# Pools of calls over one shared world

Any number of calls are in flight.  A run starts with none and takes three kinds
of moves, in any order: somebody starts a call, one of the calls takes its next
step, or the surroundings change the world on their own.

The pool never forgets a call or a step, so what happened in a run can be read
off its last state, and a hypothesis about everything that happened is a
hypothesis about that state.

* `Run.executes`: what a call did is an execution of its program, so every
  `Ensures` fact holds of every call in every run;
* `Run.invariant`: what each request and the surroundings preserve holds
  throughout;
* `Run.ledger`: a quantity that each step increases by its own weight is, at any
  time, its initial value plus the weights of all steps taken.
-/

namespace DynamicProperties.Library.Pool

open Requests Requests.Program

variable {I : Interface} {W J α : Type}

/-- What jobs there are, what requests do, and what the surroundings may do. -/
structure System (I : Interface) (W J α : Type) where
  program : J → Program I α
  act : W → (r : I.Request) → I.Response r → W → Prop
  interferes : W → W → Prop

/-- A call in flight: its job, the steps it took and what is left of it. -/
structure Call (I : Interface) (W J α : Type) where
  job : J
  steps : List (Step I W)
  rest : Program I α

/-- The shared world and every call started so far. -/
structure State (I : Interface) (W J α : Type) where
  world : W
  calls : List (Call I W J α)

/-- One move of the pool. -/
inductive Moves (sys : System I W J α) : State I W J α → State I W J α → Prop
  | start (state : State I W J α) (job : J) :
      Moves sys state { state with calls := state.calls ++ [⟨job, [], sys.program job⟩] }
  | advance {world world' : W} {earlier later : List (Call I W J α)} {job : J}
      {steps : List (Step I W)} {r : I.Request} {next : I.Response r → Program I α}
      {response : I.Response r} (hact : sys.act world r response world') :
      Moves sys ⟨world, earlier ++ ⟨job, steps, call r next⟩ :: later⟩
        ⟨world', earlier ++ ⟨job, steps ++ [⟨world, r, response, world'⟩], next response⟩ :: later⟩
  | interfere {world world' : W} (calls : List (Call I W J α))
      (h : sys.interferes world world') : Moves sys ⟨world, calls⟩ ⟨world', calls⟩

/-- The states some run from `init` reaches. -/
inductive Run (sys : System I W J α) (init : W) : State I W J α → Prop
  | nil : Run sys init ⟨init, []⟩
  | move {state state' : State I W J α} (hrun : Run sys init state)
      (hmove : Moves sys state state') : Run sys init state'

variable {sys : System I W J α} {init : W} {state state' : State I W J α}

/-- A finished call returned a value. -/
def Call.Returned (c : Call I W J α) (result : α) : Prop := c.rest = done result

/-- Has the call returned? -/
def Call.isFinished (c : Call I W J α) : Bool :=
  match c.rest with
  | done _ => true
  | call _ _ => false

theorem Call.isFinished_iff {c : Call I W J α} :
    c.isFinished = true ↔ ∃ result, c.Returned result := by
  unfold isFinished Returned
  cases c.rest with
  | done result => exact ⟨fun _ => ⟨result, rfl⟩, fun _ => rfl⟩
  | call r next => simp

/-- The calls that have returned. -/
def State.finished (state : State I W J α) : List (Call I W J α) :=
  state.calls.filter Call.isFinished

theorem State.mem_finished {state : State I W J α} {c : Call I W J α} :
    c ∈ state.finished ↔ c ∈ state.calls ∧ ∃ result, c.Returned result := by
  rw [finished, List.mem_filter, Call.isFinished_iff]

/-- **Projection.**  What a call did is an execution of its program. -/
theorem Run.executes (hrun : Run sys init state) :
    ∀ c ∈ state.calls, Executes sys.act (sys.program c.job) c.steps c.rest := by
  induction hrun with
  | nil => simp
  | move _ hmove ih =>
      cases hmove with
      | start state job =>
          intro c hc
          rcases List.mem_append.mp hc with hold | hnew
          · exact ih c hold
          · rw [List.mem_singleton.mp hnew]
            exact .rest _
      | advance hact =>
          intro c hc
          rcases List.mem_append.mp hc with hearlier | hrest
          · exact ih c (List.mem_append_left _ hearlier)
          rcases List.mem_cons.mp hrest with rfl | hlater
          · exact (ih _ (List.mem_append_right _ List.mem_cons_self)).snoc hact
          · exact ih c (List.mem_append_right _ (List.mem_cons_of_mem _ hlater))
      | interfere calls h => exact ih

/-- Calls and steps are never forgotten. -/
theorem Moves.keeps (hmove : Moves sys state state') :
    ∀ c ∈ state.calls, ∃ c' ∈ state'.calls, c'.job = c.job ∧ ∀ step ∈ c.steps, step ∈ c'.steps := by
  cases hmove with
  | start state job =>
      exact fun c hc => ⟨c, List.mem_append_left _ hc, rfl, fun _ h => h⟩
  | advance hact =>
      intro c hc
      rcases List.mem_append.mp hc with hearlier | hrest
      · exact ⟨c, List.mem_append_left _ hearlier, rfl, fun _ h => h⟩
      rcases List.mem_cons.mp hrest with rfl | hlater
      · exact ⟨_, List.mem_append_right _ List.mem_cons_self, rfl,
          fun _ h => List.mem_append_left _ h⟩
      · exact ⟨c, List.mem_append_right _ (List.mem_cons_of_mem _ hlater), rfl, fun _ h => h⟩
  | interfere calls h => exact fun c hc => ⟨c, hc, rfl, fun _ h => h⟩

/-- A property of all jobs of a run held of all jobs before its last move. -/
theorem Moves.jobs_before {A : J → Prop} (hmove : Moves sys state state')
    (h : ∀ c ∈ state'.calls, A c.job) : ∀ c ∈ state.calls, A c.job := by
  intro c hc
  obtain ⟨c', hc', hjob, -⟩ := hmove.keeps c hc
  exact hjob ▸ h c' hc'

/-- A property of all steps of a run held of all steps before its last move. -/
theorem Moves.steps_before {A : Step I W → Prop} (hmove : Moves sys state state')
    (h : ∀ c ∈ state'.calls, ∀ step ∈ c.steps, A step) :
    ∀ c ∈ state.calls, ∀ step ∈ c.steps, A step := by
  intro c hc step hstep
  obtain ⟨c', hc', -, hsteps⟩ := hmove.keeps c hc
  exact h c' hc' step (hsteps step hstep)

/-- **Invariant rule.**  What every issued request and the surroundings preserve
holds now, and held before and after every step of the run. -/
theorem Run.invariant {P : I.Request → Prop} {K : W → Prop} (hrun : Run sys init state)
    (hissues : ∀ c ∈ state.calls, Issues P (sys.program c.job))
    (hact : ∀ world r response world', P r → sys.act world r response world' → K world → K world')
    (hinterferes : ∀ world world', sys.interferes world world' → K world → K world')
    (hinit : K init) :
    K state.world ∧ ∀ c ∈ state.calls, ∀ step ∈ c.steps, K step.before ∧ K step.after := by
  induction hrun with
  | nil => exact ⟨hinit, by simp⟩
  | move hrun hmove ih =>
      have hbefore := hmove.jobs_before (A := fun job => Issues P (sys.program job)) hissues
      obtain ⟨hworld, hsteps⟩ := ih hbefore
      cases hmove with
      | start state job =>
          refine ⟨hworld, fun c hc => ?_⟩
          rcases List.mem_append.mp hc with hold | hnew
          · exact hsteps c hold
          · simp [List.mem_singleton.mp hnew]
      | @advance world world' earlier later job steps r next response h =>
          have hcall := hrun.executes _ (List.mem_append_right _ List.mem_cons_self)
          have hP : P r :=
            ((hcall.issues (hbefore _ (List.mem_append_right _ List.mem_cons_self))).2).1
          have hK : K world' := hact world r response world' hP h hworld
          refine ⟨hK, fun c hc step hstep => ?_⟩
          rcases List.mem_append.mp hc with hearlier | hrest
          · exact hsteps c (List.mem_append_left _ hearlier) step hstep
          rcases List.mem_cons.mp hrest with rfl | hlater
          · rcases List.mem_append.mp hstep with hold | hnew
            · exact hsteps _ (List.mem_append_right _ List.mem_cons_self) step hold
            · rw [List.mem_singleton.mp hnew]
              exact ⟨hworld, hK⟩
          · exact hsteps c (List.mem_append_right _ (List.mem_cons_of_mem _ hlater)) step hstep
      | interfere calls h => exact ⟨hinterferes _ _ h hworld, hsteps⟩

/-- The pool after one more call that runs alone to its end. -/
def State.alone (sys : System I W J α) (handle : W → (r : I.Request) → I.Response r × W)
    (state : State I W J α) (job : J) : State I W J α :=
  ⟨(run handle (sys.program job) state.world).2,
    state.calls ++ [⟨job, runSteps handle (sys.program job) state.world,
      done (run handle (sys.program job) state.world).1⟩]⟩

/-- A call in flight can be run alone to its end. -/
theorem Run.finishes {handle : W → (r : I.Request) → I.Response r × W}
    (hact : ∀ world r, sys.act world r (handle world r).1 (handle world r).2)
    {p : Program I α} {world : W} {job : J} {steps : List (Step I W)}
    {earlier later : List (Call I W J α)}
    (hrun : Run sys init ⟨world, earlier ++ ⟨job, steps, p⟩ :: later⟩) :
    Run sys init ⟨(run handle p world).2,
      earlier ++ ⟨job, steps ++ runSteps handle p world,
        done (run handle p world).1⟩ :: later⟩ := by
  induction p generalizing world steps with
  | done a => simpa [runSteps] using hrun
  | call r next ih =>
      have hnext := ih (handle world r).1 (.move hrun (.advance (hact world r)))
      simpa [runSteps] using hnext

/-- Some call can always be run alone to its end. -/
theorem Run.alone {handle : W → (r : I.Request) → I.Response r × W}
    (hact : ∀ world r, sys.act world r (handle world r).1 (handle world r).2)
    (hrun : Run sys init state) (job : J) : Run sys init (state.alone sys handle job) :=
  Run.finishes hact (.move hrun (.start state job))

/-- Run the first steps of a program: what is left of it, the steps and the world. -/
def runFor (handle : W → (r : I.Request) → I.Response r × W) :
    Nat → Program I α → W → Program I α × List (Step I W) × W
  | 0, p, world => (p, [], world)
  | _, done a, world => (done a, [], world)
  | n + 1, call r next, world =>
      let (rest, steps, after) := runFor handle n (next (handle world r).1) (handle world r).2
      (rest, ⟨world, r, (handle world r).1, (handle world r).2⟩ :: steps, after)

/-- A call in flight can take its next steps. -/
theorem Run.advances {handle : W → (r : I.Request) → I.Response r × W}
    (hact : ∀ world r, sys.act world r (handle world r).1 (handle world r).2) (n : Nat)
    {p : Program I α} {world : W} {job : J} {steps : List (Step I W)}
    {earlier later : List (Call I W J α)}
    (hrun : Run sys init ⟨world, earlier ++ ⟨job, steps, p⟩ :: later⟩) :
    Run sys init ⟨(runFor handle n p world).2.2,
      earlier ++ ⟨job, steps ++ (runFor handle n p world).2.1, (runFor handle n p world).1⟩ ::
        later⟩ := by
  induction n generalizing p world steps with
  | zero => simpa [runFor] using hrun
  | succ n ih =>
      cases p with
      | done a => simpa [runFor] using hrun
      | call r next =>
          have hnext := ih (.move hrun (.advance (hact world r)))
          simpa [runFor] using hnext

/-- The pool after one more call that runs to its end, but after `n` steps lets another
call run alone, as a listener does that calls the component itself. -/
def State.nested (sys : System I W J α) (handle : W → (r : I.Request) → I.Response r × W)
    (state : State I W J α) (outer inner : J) (n : Nat) : State I W J α :=
  let (rest, steps, world) := runFor handle n (sys.program outer) state.world
  let (result, between) := run handle (sys.program inner) world
  ⟨(run handle rest between).2, state.calls ++
    [⟨outer, steps ++ runSteps handle rest between, done (run handle rest between).1⟩,
      ⟨inner, runSteps handle (sys.program inner) world, done result⟩]⟩

theorem Run.nested {handle : W → (r : I.Request) → I.Response r × W}
    (hact : ∀ world r, sys.act world r (handle world r).1 (handle world r).2)
    (hrun : Run sys init state) (outer inner : J) (n : Nat) :
    Run sys init (state.nested sys handle outer inner n) := by
  have hbegun := (Run.move hrun (.start state outer)).advances hact n
  have hbetween := hbegun.alone hact inner
  rw [State.alone, List.append_assoc] at hbetween
  exact hbetween.finishes hact

/-- The weights of all steps a pool has taken. -/
def totalWeight {M : Type} [AddCommMonoid M] (weight : Step I W → M)
    (calls : List (Call I W J α)) : M :=
  (calls.map fun c => (c.steps.map weight).sum).sum

/-- **Ledger rule.**  A quantity that each step of the run increased by the
step's weight, and that the surroundings leave alone. -/
theorem Run.ledger {M : Type} [AddCommMonoid M] (quantity : W → M) (weight : Step I W → M)
    (hrun : Run sys init state)
    (hsteps : ∀ c ∈ state.calls, ∀ step ∈ c.steps,
      quantity step.after = quantity step.before + weight step)
    (hinterferes : ∀ world world', sys.interferes world world' →
      quantity world' = quantity world) :
    quantity state.world = quantity init + totalWeight weight state.calls := by
  induction hrun with
  | nil => simp [totalWeight]
  | move hrun hmove ih =>
      have hprev := ih (hmove.steps_before hsteps)
      cases hmove with
      | start state job => simpa [totalWeight] using hprev
      | @advance world world' earlier later job steps r next response h =>
          have hnew : quantity world' = quantity world + weight ⟨world, r, response, world'⟩ :=
            hsteps _ (List.mem_append_right _ List.mem_cons_self) ⟨world, r, response, world'⟩
              (List.mem_append_right _ (List.mem_singleton.mpr rfl))
          change quantity world' = _
          change quantity world = _ at hprev
          rw [hnew, hprev]
          simp only [totalWeight, List.map_append, List.map_cons, List.map_nil, List.sum_append,
            List.sum_cons, List.sum_nil, add_zero]
          abel
      | interfere calls h => rw [hinterferes _ _ h]; exact hprev

end DynamicProperties.Library.Pool
