import DynamicProperties.Library.Requests
import Mathlib.Logic.Relation

/-!
# Threads that share one recursive mutex

A pool of calls, each made by a thread.  The calls of one thread are nested: a
thread starts a call only while every unfinished call it has made waits for
foreign code (a callback), and a call goes on only when those its thread made
after it have returned.  A call acquires and releases the lock, asks the
component for its atomic requests, and steps the protected part of the world.

`Bracketed` is the discipline of scoped lock guards: a call asks the component,
and runs callbacks, only outside its guard, steps the protected part only inside,
opens no second guard and returns with none open.  For bracketed programs:

* `Run.disciplined`, `Disciplined.exclusive`: at most one call has its guard open, it
  belongs to the thread that owns the mutex, and the mutex is never locked twice;
* `Disciplined.callback_unlocked`: when a callback is called and when it returns, its
  thread does not own the mutex;
* `Disciplined.completes`, `advances_wellFounded`: no reachable state is a deadlock and
  no call runs for ever, so that however the calls are scheduled they all return.
-/

namespace DynamicProperties.Library.Threads

open Requests Requests.Program

/-! ## Calls that lock -/

/-- What a call asks for: the lock, one request of the component (`I`), or one step of
the protected part of the world (`B`). -/
inductive LockRequest (I B : Interface) where
  | acquire
  | release
  | outside (r : I.Request)
  | inside (r : B.Request)

abbrev LockResponse (I B : Interface) : LockRequest I B → Type
  | .acquire => Unit
  | .release => Unit
  | .outside r => I.Response r
  | .inside r => B.Response r

abbrev locking (I B : Interface) : Interface := ⟨LockRequest I B, LockResponse I B⟩

/-- The owner of the mutex and how often it locked it. -/
abbrev Mutex (T : Type) := Option (T × Nat)

/-- Locking waits until the mutex is free or the thread's own. -/
inductive Locks {T : Type} (thread : T) : Mutex T → Mutex T → Prop
  | free : Locks thread none (some (thread, 1))
  | again (depth : Nat) : Locks thread (some (thread, depth)) (some (thread, depth + 1))

inductive Unlocks {T : Type} (thread : T) : Mutex T → Mutex T → Prop
  | last : Unlocks thread (some (thread, 1)) none
  | outer (depth : Nat) : Unlocks thread (some (thread, depth + 2)) (some (thread, depth + 1))

/-- The jobs, the component, what the surroundings may do while the mutex is owned or
free, the callbacks and the protected part. -/
structure System (I B : Interface) (W S J α : Type) where
  program : J → Program (locking I B) α
  act : W → (r : I.Request) → I.Response r → W → Prop
  interferes : Bool → W → W → Prop
  callback : I.Request → Prop
  get : W → S
  put : S → W → W
  handle : S → (r : B.Request) → B.Response r × S

/-- A call in flight: its thread, its job, how many guards it has open and what is left. -/
structure Call (I B : Interface) (T J α : Type) where
  thread : T
  job : J
  guards : Nat
  rest : Program (locking I B) α

structure State (I B : Interface) (W T J α : Type) where
  world : W
  mutex : Mutex T
  calls : List (Call I B T J α)

variable {I B : Interface} {W S T J α : Type} {sys : System I B W S J α} {init : W}

def Call.Finished (c : Call I B T J α) : Prop := ∃ result, c.rest = done result

/-- The call waits for foreign code to return. -/
def Call.AtCallback (sys : System I B W S J α) (c : Call I B T J α) : Prop :=
  ∃ r next, c.rest = call (LockRequest.outside r) next ∧ sys.callback r

/-- One step of a call of `thread` with so many open guards. -/
inductive Acts (sys : System I B W S J α) (thread : T) :
    W → Mutex T → Nat → (r : LockRequest I B) → LockResponse I B r → W → Mutex T → Nat → Prop
  | acquire {world : W} {mutex mutex' : Mutex T} {guards : Nat} (h : Locks thread mutex mutex') :
      Acts sys thread world mutex guards .acquire () world mutex' (guards + 1)
  | release {world : W} {mutex mutex' : Mutex T} {guards : Nat}
      (h : Unlocks thread mutex mutex') :
      Acts sys thread world mutex guards .release () world mutex' (guards - 1)
  | outside {world world' : W} {mutex : Mutex T} {guards : Nat} {r : I.Request}
      {response : I.Response r} (h : sys.act world r response world') :
      Acts sys thread world mutex guards (.outside r) response world' mutex guards
  | inside {world : W} {mutex : Mutex T} {guards : Nat} (r : B.Request) :
      Acts sys thread world mutex guards (.inside r) (sys.handle (sys.get world) r).1
        (sys.put (sys.handle (sys.get world) r).2 world) mutex guards

/-- Some call takes its next step. -/
inductive Advances (sys : System I B W S J α) :
    State I B W T J α → State I B W T J α → Prop
  | step {world world' : W} {mutex mutex' : Mutex T} {earlier later : List (Call I B T J α)}
      {thread : T} {job : J} {guards guards' : Nat} {r : LockRequest I B}
      {response : LockResponse I B r} {next : LockResponse I B r → Program (locking I B) α}
      (htop : ∀ c ∈ later, c.thread = thread → c.Finished)
      (hacts : Acts sys thread world mutex guards r response world' mutex' guards') :
      Advances sys
        ⟨world, mutex, earlier ++ ⟨thread, job, guards, call r next⟩ :: later⟩
        ⟨world', mutex', earlier ++ ⟨thread, job, guards', next response⟩ :: later⟩

/-- One move of the pool. -/
inductive Moves (sys : System I B W S J α) : State I B W T J α → State I B W T J α → Prop
  | start (state : State I B W T J α) (thread : T) (job : J)
      (hnested : ∀ c ∈ state.calls, c.thread = thread → c.Finished ∨ c.AtCallback sys) :
      Moves sys state
        { state with calls := state.calls ++ [⟨thread, job, 0, sys.program job⟩] }
  | advance {state state' : State I B W T J α} (h : Advances sys state state') :
      Moves sys state state'
  | interfere {world world' : W} {mutex : Mutex T} (calls : List (Call I B T J α))
      (h : sys.interferes mutex.isSome world world') :
      Moves sys ⟨world, mutex, calls⟩ ⟨world', mutex, calls⟩

/-- The states some run from `init` reaches. -/
inductive Run (sys : System I B W S J α) (init : W) : State I B W T J α → Prop
  | nil : Run sys init ⟨init, none, []⟩
  | move {state state' : State I B W T J α} (hrun : Run sys init state)
      (hmove : Moves sys state state') : Run sys init state'

/-! ## Scoped guards -/

/-- With so many guards open, the rest of a call keeps the guard discipline. -/
def Bracketed : Nat → Program (locking I B) α → Prop
  | guards, done _ => guards = 0
  | guards, call .acquire next => guards = 0 ∧ Bracketed 1 (next ())
  | guards, call .release next => guards = 1 ∧ Bracketed 0 (next ())
  | guards, call (.outside _) next => guards = 0 ∧ ∀ response, Bracketed 0 (next response)
  | guards, call (.inside _) next => guards = 1 ∧ ∀ response, Bracketed 1 (next response)

/-- What holds of every state a run of bracketed programs reaches. -/
structure Disciplined (sys : System I B W S J α) (state : State I B W T J α) : Prop where
  bracketed : ∀ c ∈ state.calls, Bracketed c.guards c.rest
  owner : ∀ c ∈ state.calls, c.guards ≠ 0 → state.mutex = some (c.thread, 1)
  holder : ∀ thread depth, state.mutex = some (thread, depth) →
    ∃ c ∈ state.calls, c.thread = thread ∧ c.guards ≠ 0
  nested : state.calls.Pairwise fun c c' =>
    c.thread = c'.thread → c.Finished ∨ c.AtCallback sys ∨ c'.Finished

theorem Bracketed.guards_of_finished {c : Call I B T J α} (h : Bracketed c.guards c.rest)
    (hfinished : c.Finished) : c.guards = 0 := by
  obtain ⟨result, hrest⟩ := hfinished
  rw [hrest] at h
  exact h

theorem Bracketed.guards_eq_one {c : Call I B T J α} (h : Bracketed c.guards c.rest)
    (hheld : c.guards ≠ 0) : c.guards = 1 := by
  generalize c.guards = guards at h hheld
  generalize c.rest = rest at h
  match rest with
  | done result => exact absurd h hheld
  | call .acquire next => exact absurd h.1 hheld
  | call .release next => exact h.1
  | call (.outside r) next => exact absurd h.1 hheld
  | call (.inside r) next => exact h.1

theorem Bracketed.guards_of_callback {c : Call I B T J α} (h : Bracketed c.guards c.rest)
    (hcallback : c.AtCallback sys) : c.guards = 0 := by
  obtain ⟨r, next, hrest, -⟩ := hcallback
  rw [hrest] at h
  exact h.1

namespace Disciplined

variable {state state' : State I B W T J α}

/-- Of two calls at most one has its guard open. -/
theorem exclusive (h : Disciplined sys state) :
    state.calls.Pairwise fun c c' => c.guards = 0 ∨ c'.guards = 0 := by
  refine h.nested.imp_of_mem fun {c c'} hc hc' hnested => ?_
  by_contra hboth
  obtain ⟨hguards, hguards'⟩ := not_or.mp hboth
  have hsame : c.thread = c'.thread := by
    have howner := (h.owner c hc hguards).symm.trans (h.owner c' hc' hguards')
    exact (Prod.mk.inj (Option.some.inj howner)).1
  rcases hnested hsame with hfinished | hcallback | hfinished'
  · exact hguards ((h.bracketed c hc).guards_of_finished hfinished)
  · exact hguards ((h.bracketed c hc).guards_of_callback hcallback)
  · exact hguards' ((h.bracketed c' hc').guards_of_finished hfinished')

variable {world : W} {mutex : Mutex T} {earlier later : List (Call I B T J α)}
  {c : Call I B T J α}

/-- A call whose later siblings are finished, and which waits for no callback, is the
only one of its thread that can have a guard open. -/
theorem free_of_active (h : Disciplined sys ⟨world, mutex, earlier ++ c :: later⟩)
    (htop : ∀ c' ∈ later, c'.thread = c.thread → c'.Finished) (hguards : c.guards = 0)
    (hactive : ¬ c.Finished) (depth : Nat) : mutex ≠ some (c.thread, depth) := by
  intro hmutex
  obtain ⟨holder, hmem, hthread, hholds⟩ := h.holder c.thread depth hmutex
  rcases List.mem_append.mp hmem with hearlier | hrest
  · have hnested := (List.pairwise_append.mp h.nested).2.2 holder hearlier c List.mem_cons_self
    rcases hnested hthread with hfinished | hcallback | hfinished
    · exact hholds ((h.bracketed holder hmem).guards_of_finished hfinished)
    · exact hholds ((h.bracketed holder hmem).guards_of_callback hcallback)
    · exact hactive hfinished
  rcases List.mem_cons.mp hrest with rfl | hlater
  · exact hholds hguards
  · exact hholds ((h.bracketed holder hmem).guards_of_finished (htop holder hlater hthread))

/-- While one call has its guard open, no other has. -/
theorem others_idle (h : Disciplined sys ⟨world, mutex, earlier ++ c :: later⟩)
    (hguards : c.guards ≠ 0) : ∀ c' ∈ earlier ++ later, c'.guards = 0 := by
  intro c' hc'
  have hpairs := List.pairwise_append.mp h.exclusive
  rcases List.mem_append.mp hc' with hearlier | hlater
  · exact (hpairs.2.2 c' hearlier c List.mem_cons_self).resolve_right hguards
  · exact ((List.pairwise_cons.mp hpairs.2.1).1 c' hlater).resolve_left hguards

end Disciplined

section Middle

variable {earlier later : List (Call I B T J α)} {c c' : Call I B T J α}

theorem forall_middle {A : Call I B T J α → Prop} (hothers : ∀ d ∈ earlier ++ later, A d)
    (hc : A c) : ∀ d ∈ earlier ++ c :: later, A d := by
  intro d hd
  rcases List.mem_append.mp hd with hearlier | hrest
  · exact hothers d (List.mem_append_left _ hearlier)
  rcases List.mem_cons.mp hrest with rfl | hlater
  · exact hc
  · exact hothers d (List.mem_append_right _ hlater)

theorem mem_of_others {d : Call I B T J α} (hd : d ∈ earlier ++ later) :
    d ∈ earlier ++ c :: later := by
  rcases List.mem_append.mp hd with hearlier | hlater
  · exact List.mem_append_left _ hearlier
  · exact List.mem_append_right _ (List.mem_cons_of_mem _ hlater)

/-- The nesting is kept when a call that was neither finished nor waiting below its
later siblings goes on. -/
theorem nested_middle
    (h : (earlier ++ c :: later).Pairwise fun c c' =>
      c.thread = c'.thread → c.Finished ∨ c.AtCallback sys ∨ c'.Finished)
    (htop : ∀ d ∈ later, d.thread = c.thread → d.Finished) (hactive : ¬ c.Finished)
    (hthread : c'.thread = c.thread) :
    (earlier ++ c' :: later).Pairwise fun c c' =>
      c.thread = c'.thread → c.Finished ∨ c.AtCallback sys ∨ c'.Finished := by
  rw [List.pairwise_append, List.pairwise_cons] at h ⊢
  refine ⟨h.1, ⟨fun d hd hsame => ?_, h.2.1.2⟩, fun d hd d' hd' hsame => ?_⟩
  · exact Or.inr (Or.inr (htop d hd (hsame.symm.trans hthread)))
  · rcases List.mem_cons.mp hd' with rfl | hlater
    · rcases h.2.2 d hd c List.mem_cons_self (hsame.trans hthread) with hdone | hwaits | hdone
      · exact Or.inl hdone
      · exact Or.inr (Or.inl hwaits)
      · exact absurd hdone hactive
    · exact h.2.2 d hd d' (List.mem_cons_of_mem _ hlater) hsame

end Middle

/-! ## Every step keeps the discipline -/

theorem not_finished_call {thread : T} {job : J} {guards : Nat} {r : LockRequest I B}
    {next : LockResponse I B r → Program (locking I B) α} :
    ¬ (Call.mk thread job guards (call r next) : Call I B T J α).Finished := by
  rintro ⟨result, hrest⟩
  cases hrest

variable {state state' : State I B W T J α}

theorem Disciplined.advance (h : Disciplined sys state) (hadvances : Advances sys state state') :
    Disciplined sys state' := by
  cases hadvances with
  | @step world world' mutex mutex' earlier later thread job guards guards' r response next
      htop hacts =>
    have hself := h.bracketed _ (List.mem_append_right _ List.mem_cons_self)
    have hothers : ∀ d ∈ earlier ++ later, Bracketed d.guards d.rest := fun d hd =>
      h.bracketed d (mem_of_others hd)
    have hnested := @nested_middle _ _ _ _ _ _ _ sys earlier later _
      ⟨thread, job, guards', next response⟩ h.nested htop not_finished_call rfl
    cases hacts with
    | acquire hlocks =>
        obtain ⟨hguards, hnext⟩ := hself
        subst hguards
        cases hlocks with
        | again depth => exact absurd rfl (h.free_of_active htop rfl not_finished_call depth)
        | free =>
            refine ⟨forall_middle hothers hnext, forall_middle (fun d hd hheld => ?_)
              (fun _ => rfl), fun thread' depth hmutex => ?_, hnested⟩
            · cases h.owner d (mem_of_others hd) hheld
            · cases hmutex
              exact ⟨_, List.mem_append_right _ List.mem_cons_self, rfl, Nat.one_ne_zero⟩
    | release hunlocks =>
        obtain ⟨hguards, hnext⟩ := hself
        subst hguards
        have hidle := h.others_idle Nat.one_ne_zero
        have howner := h.owner _ (List.mem_append_right _ List.mem_cons_self) Nat.one_ne_zero
        cases hunlocks with
        | outer depth => cases howner
        | last =>
            refine ⟨forall_middle hothers hnext, forall_middle (fun d hd hheld => ?_)
              (fun hheld => absurd rfl hheld), (fun _ _ hmutex => nomatch hmutex), hnested⟩
            exact absurd (hidle d hd) hheld
    | @outside _ _ _ _ response hact =>
        obtain ⟨hguards, hnext⟩ := hself
        subst hguards
        refine ⟨forall_middle hothers (hnext response), forall_middle (fun d hd hheld =>
          h.owner d (mem_of_others hd) hheld) (fun hheld => absurd rfl hheld),
          fun thread' depth hmutex => ?_, hnested⟩
        obtain ⟨d, hd, hthread, hheld⟩ := h.holder thread' depth hmutex
        rcases List.mem_append.mp hd with hearlier | hrest
        · exact ⟨d, List.mem_append_left _ hearlier, hthread, hheld⟩
        rcases List.mem_cons.mp hrest with rfl | hlater
        · exact absurd rfl hheld
        · exact ⟨d, List.mem_append_right _ (List.mem_cons_of_mem _ hlater), hthread, hheld⟩
    | inside r =>
        obtain ⟨hguards, hnext⟩ := hself
        subst hguards
        have howner := h.owner _ (List.mem_append_right _ List.mem_cons_self) Nat.one_ne_zero
        refine ⟨forall_middle hothers (hnext _), forall_middle (fun d hd hheld =>
          h.owner d (mem_of_others hd) hheld) (fun _ => howner),
          fun thread' depth hmutex => ?_, hnested⟩
        cases howner.symm.trans hmutex
        exact ⟨_, List.mem_append_right _ List.mem_cons_self, rfl, Nat.one_ne_zero⟩

theorem Disciplined.move (hprogram : ∀ job, Bracketed 0 (sys.program job))
    (h : Disciplined sys state) (hmove : Moves sys state state') : Disciplined sys state' := by
  cases hmove with
  | advance hadvances => exact h.advance hadvances
  | interfere calls hinterferes => exact ⟨h.bracketed, h.owner, h.holder, h.nested⟩
  | start _ thread job hnested =>
      refine ⟨fun c hc => ?_, fun c hc hheld => ?_, fun thread' depth hmutex => ?_, ?_⟩
      · rcases List.mem_append.mp hc with hold | hnew
        · exact h.bracketed c hold
        · rw [List.mem_singleton.mp hnew]
          exact hprogram job
      · rcases List.mem_append.mp hc with hold | hnew
        · exact h.owner c hold hheld
        · rw [List.mem_singleton.mp hnew] at hheld
          exact absurd rfl hheld
      · obtain ⟨c, hc, hthread, hheld⟩ := h.holder thread' depth hmutex
        exact ⟨c, List.mem_append_left _ hc, hthread, hheld⟩
      · refine List.pairwise_append.mpr ⟨h.nested, List.pairwise_singleton _ _, ?_⟩
        intro c hc c' hc' hsame
        rw [List.mem_singleton.mp hc'] at hsame
        rcases hnested c hc hsame with hfinished | hcallback
        · exact Or.inl hfinished
        · exact Or.inr (Or.inl hcallback)

/-- **Discipline.**  It holds in every reachable state. -/
theorem Run.disciplined (hprogram : ∀ job, Bracketed 0 (sys.program job))
    (hrun : Run sys init state) : Disciplined sys state := by
  induction hrun with
  | nil => exact ⟨by simp, by simp, by simp, List.Pairwise.nil⟩
  | move _ hmove ih => exact ih.move hprogram hmove

/-- **No callback under the lock.**  Neither when a callback is called nor when it
returns, that is when the calls it made have returned, does its thread own the mutex. -/
theorem Disciplined.callback_unlocked {world : W} {mutex : Mutex T}
    {earlier later : List (Call I B T J α)} {c : Call I B T J α}
    (h : Disciplined sys ⟨world, mutex, earlier ++ c :: later⟩) (hcallback : c.AtCallback sys)
    (htop : ∀ c' ∈ later, c'.thread = c.thread → c'.Finished) (depth : Nat) :
    mutex ≠ some (c.thread, depth) := by
  have hguards := (h.bracketed c (List.mem_append_right _ List.mem_cons_self)).guards_of_callback
    hcallback
  obtain ⟨r, next, hrest, -⟩ := hcallback
  refine h.free_of_active htop hguards ?_ depth
  rintro ⟨result, hdone⟩
  cases hdone.symm.trans hrest

/-! ## No deadlock -/

/-- Every list has a last element with a property, if any. -/
theorem exists_last {A : Type} {P : A → Prop} : ∀ {l : List A}, (∃ a ∈ l, P a) →
    ∃ earlier a later, l = earlier ++ a :: later ∧ P a ∧ ∀ b ∈ later, ¬ P b := by
  intro l
  induction l with
  | nil => rintro ⟨a, ha, -⟩; cases ha
  | cons a l ih =>
      intro h
      by_cases htail : ∃ b ∈ l, P b
      · obtain ⟨earlier, b, later, rfl, hb, hlater⟩ := ih htail
        exact ⟨a :: earlier, b, later, rfl, hb, hlater⟩
      · obtain ⟨b, hb, hPb⟩ := h
        rcases List.mem_cons.mp hb with rfl | hmem
        · exact ⟨[], b, l, rfl, hPb, fun c hc hPc => htail ⟨c, hc, hPc⟩⟩
        · exact absurd ⟨b, hmem, hPb⟩ htail

/-- **Progress.**  While a call has not returned, some call can take its next step. -/
theorem Disciplined.progress
    (hanswers : ∀ world r, ∃ response world', sys.act world r response world')
    (h : Disciplined sys state) (hunfinished : ∃ c ∈ state.calls, ¬ c.Finished) :
    ∃ state', Advances sys state state' := by
  obtain ⟨world, mutex, calls⟩ := state
  cases mutex with
  | some owner =>
      -- the call that holds the lock is at a release or at a protected step
      obtain ⟨holder, hmem, hthread, hheld⟩ := h.holder owner.1 owner.2 rfl
      obtain ⟨earlier, later, hcalls⟩ := List.append_of_mem hmem
      change calls = _ at hcalls
      subst hcalls
      have hself := h.bracketed holder hmem
      have howner : some owner = some (holder.thread, 1) := h.owner holder hmem hheld
      have htop : ∀ c ∈ later, c.thread = holder.thread → c.Finished := by
        intro c hc hsame
        have hpair := (List.pairwise_cons.mp (List.pairwise_append.mp h.nested).2.1).1 c hc
        rcases hpair hsame.symm with hfinished | hcallback | hfinished
        · exact absurd (hself.guards_of_finished hfinished) hheld
        · exact absurd (hself.guards_of_callback hcallback) hheld
        · exact hfinished
      obtain ⟨thread, job, guards, rest⟩ := holder
      cases rest with
      | done result => exact absurd hself hheld
      | call r next =>
          cases r with
          | acquire => exact absurd hself.1 hheld
          | outside r => exact absurd hself.1 hheld
          | release =>
              rw [howner]
              exact ⟨_, .step htop (.release .last)⟩
          | inside r => exact ⟨_, .step htop (.inside r)⟩
  | none =>
      -- the last unfinished call can go on
      obtain ⟨earlier, c, later, hcalls, hactive, hlater⟩ := exists_last hunfinished
      change calls = _ at hcalls
      subst hcalls
      have htop : ∀ c' ∈ later, c'.thread = c.thread → c'.Finished :=
        fun c' hc' _ => not_not.mp (hlater c' hc')
      have hself := h.bracketed c (List.mem_append_right _ List.mem_cons_self)
      have howner := h.owner c (List.mem_append_right _ List.mem_cons_self)
      obtain ⟨thread, job, guards, rest⟩ := c
      cases rest with
      | done result => exact absurd ⟨result, rfl⟩ hactive
      | call r next =>
          cases r with
          | acquire => exact ⟨_, .step htop (.acquire .free)⟩
          | release => exact nomatch howner (hself.1 ▸ Nat.one_ne_zero)
          | inside r => exact ⟨_, .step htop (.inside r)⟩
          | outside r =>
              obtain ⟨response, world', hact⟩ := hanswers world r
              exact ⟨_, .step htop (.outside hact)⟩

/-- One program of a list goes on. -/
inductive Shrinks {K : Interface} : List (Program K α) → List (Program K α) → Prop
  | step (earlier later : List (Program K α)) {r : K.Request} (next : K.Response r → Program K α)
      (response : K.Response r) :
      Shrinks (earlier ++ next response :: later) (earlier ++ call r next :: later)

theorem shrinks_acc_cons {K : Interface} (p : Program K α) :
    ∀ ps : List (Program K α), Acc Shrinks ps → Acc Shrinks (p :: ps) := by
  induction p with
  | done a =>
      intro ps hps
      induction hps with
      | intro ps _ ih =>
          refine .intro _ fun qs hqs => ?_
          generalize hold : done a :: ps = old at hqs
          cases hqs with
          | step earlier later next response =>
              cases earlier with
              | nil => cases hold
              | cons q earlier =>
                  obtain ⟨rfl, rfl⟩ := List.cons.inj hold
                  exact ih _ (.step earlier later next response)
  | call r next hnext =>
      intro ps hps
      induction hps with
      | intro ps hsmaller ih =>
          refine .intro _ fun qs hqs => ?_
          generalize hold : call r next :: ps = old at hqs
          cases hqs with
          | step earlier later next response =>
              cases earlier with
              | nil =>
                  obtain ⟨hcall, rfl⟩ := List.cons.inj hold
                  cases hcall
                  exact hnext response ps (.intro _ hsmaller)
              | cons q earlier =>
                  obtain ⟨rfl, rfl⟩ := List.cons.inj hold
                  exact ih _ (.step earlier later next response)

/-- **Termination.**  No scheduling of calls lets them run for ever. -/
theorem advances_wellFounded (sys : System I B W S J α) :
    WellFounded fun state' state : State I B W T J α => Advances sys state state' := by
  have hlists : WellFounded (@Shrinks α (locking I B)) := by
    refine ⟨fun ps => ?_⟩
    induction ps with
    | nil =>
        refine .intro _ fun qs hqs => ?_
        generalize hold : [] = old at hqs
        cases hqs with
        | step earlier later => simp at hold
    | cons p ps ih => exact shrinks_acc_cons p ps ih
  refine Subrelation.wf (r := InvImage Shrinks fun state => state.calls.map Call.rest) ?_
    (InvImage.wf _ hlists)
  rintro _ _ ⟨htop, hacts⟩
  simp only [InvImage, List.map_append, List.map_cons]
  exact .step _ _ _ _

theorem Disciplined.reaches (h : Disciplined sys state)
    (hreaches : Relation.ReflTransGen (Advances sys) state state') : Disciplined sys state' := by
  induction hreaches with
  | refl => exact h
  | tail _ hadvances ih => exact ih.advance hadvances

/-- **Completion.**  However the calls go on from a disciplined state, they do not stop
before all of them have returned. -/
theorem Disciplined.completes
    (hanswers : ∀ world r, ∃ response world', sys.act world r response world')
    (h : Disciplined sys state) (hreaches : Relation.ReflTransGen (Advances sys) state state')
    (hunfinished : ∃ c ∈ state'.calls, ¬ c.Finished) : ∃ next, Advances sys state' next :=
  (h.reaches hreaches).progress hanswers hunfinished

end DynamicProperties.Library.Threads
