import Mathlib.Data.List.Forall2
import DynamicProperties.Library.Pool
import DynamicProperties.Library.Threads

/-!
# Sections under a lock are atomic

Two levels of one component.  In the upper one every request is a single step.  In
the lower one some requests are sections: the thread takes the lock, runs a program
on the protected part of the world, step by step, and releases the lock.  Between
the steps other threads go on, and their requests may read the protected part.

A section that writes at most once is atomic all the same (`agree_of_run`): every run of
the lower level, whatever the threads and their order, is matched by a run of the
upper one with the same world throughout, the same jobs in the same order and the
same results.  The section takes effect at its write, or when it releases the lock if
it never wrote.  What holds of every run of the upper level so holds of the lower one.
-/

namespace DynamicProperties.Library.AtomicSections

open Requests Requests.Program Threads

variable {I B : Interface} {W S T J α β : Type}

/-! ## Programs with sections -/

/-- A program on the protected part, inside the lock. -/
def lift : Program B β → Program (locking I B) β
  | done b => done b
  | call r next => call (LockRequest.inside r) fun response => lift (next response)

/-- The scope of a lock guard, and what follows it. -/
def guarded (p : Program B β) (next : β → Program (locking I B) α) : Program (locking I B) α :=
  call LockRequest.acquire fun _ =>
    lift p >>= fun b => call LockRequest.release fun _ => next b

/-- The requests that are sections, with what each does under the lock. -/
abbrev Bodies (I B : Interface) := (r : I.Request) → Option (Program B (I.Response r))

/-- The lower program carries out the upper one.  A guard may also enclose nothing. -/
inductive Implements (bodies : Bodies I B) : Program I α → Program (locking I B) α → Prop
  | done (a : α) : Implements bodies (done a) (done a)
  | outside {r : I.Request} {next : I.Response r → Program I α}
      {next' : I.Response r → Program (locking I B) α} (hbody : bodies r = none)
      (hnext : ∀ response, Implements bodies (next response) (next' response)) :
      Implements bodies (call r next) (call (LockRequest.outside r) next')
  | guarded {r : I.Request} {p : Program B (I.Response r)} {next : I.Response r → Program I α}
      {next' : I.Response r → Program (locking I B) α} (hbody : bodies r = some p)
      (hnext : ∀ response, Implements bodies (next response) (next' response)) :
      Implements bodies (call r next) (guarded p next')
  | idle {p : Program I α} {p' : Program (locking I B) α} (h : Implements bodies p p') :
      Implements bodies p (AtomicSections.guarded (done ()) fun _ => p')

/-- The upper program with its sections written out. -/
def expand (bodies : Bodies I B) : Program I α → Program (locking I B) α
  | done a => done a
  | call r next =>
      match bodies r with
      | none => call (LockRequest.outside r) fun response => expand bodies (next response)
      | some p => guarded p fun response => expand bodies (next response)

theorem implements_expand (bodies : Bodies I B) (p : Program I α) :
    Implements bodies p (expand bodies p) := by
  induction p with
  | done a => exact .done a
  | call r next ih =>
      rw [expand]
      split
      · next hbody => exact .outside hbody ih
      · next p hbody => exact .guarded hbody ih

theorem bracketed_section {next : β → Program (locking I B) α}
    (hnext : ∀ b, Bracketed 0 (next b)) (p : Program B β) :
    Bracketed 1 (lift p >>= fun b => call LockRequest.release fun _ => next b) := by
  induction p with
  | done b => exact ⟨rfl, hnext b⟩
  | call r next' ih => exact ⟨rfl, ih⟩

/-- Such programs keep the guard discipline. -/
theorem Implements.bracketed {bodies : Bodies I B} {p : Program I α}
    {p' : Program (locking I B) α} (h : Implements bodies p p') : Bracketed 0 p' := by
  induction h with
  | done a => exact rfl
  | outside _ _ ih => exact ⟨rfl, ih⟩
  | guarded _ _ ih => exact ⟨rfl, bracketed_section ih _⟩
  | idle _ ih => exact ⟨rfl, bracketed_section (fun _ => ih) _⟩

/-! ## Sections that write at most once -/

section Writes

variable (handle : S → (r : B.Request) → B.Response r × S)

/-- The request leaves the protected part as it is. -/
def Reads (r : B.Request) : Prop := ∀ s, (handle s r).2 = s

/-- No two requests of one execution write. -/
def WritesOnce : Program B β → Prop
  | done _ => True
  | call r next =>
      (Reads handle r ∧ ∀ response, WritesOnce (next response)) ∨
        ∀ response, Issues (Reads handle) (next response)

variable {handle}

theorem run_reads {p : Program B β} (h : Issues (Reads handle) p) (s : S) :
    (run handle p s).2 = s := by
  induction p generalizing s with
  | done b => rfl
  | call r next ih =>
      rw [run_call, h.1 s]
      exact ih _ (h.2 _) s

theorem writesOnce_of_reads {p : Program B β} (h : Issues (Reads handle) p) :
    WritesOnce handle p := by
  induction p with
  | done b => trivial
  | call r next ih => exact Or.inl ⟨h.1, fun response => ih response (h.2 response)⟩

/-- Reads may come before and after what writes once. -/
theorem writesOnce_bind_left {γ : Type} {p : Program B β} {f : β → Program B γ}
    (hp : Issues (Reads handle) p) (hf : ∀ b, WritesOnce handle (f b)) :
    WritesOnce handle (p >>= f) := by
  induction p with
  | done b => exact hf b
  | call r next ih => exact Or.inl ⟨hp.1, fun response => ih response (hp.2 response)⟩

theorem writesOnce_bind_right {γ : Type} {p : Program B β} {f : β → Program B γ}
    (hp : WritesOnce handle p) (hf : ∀ b, Issues (Reads handle) (f b)) :
    WritesOnce handle (p >>= f) := by
  induction p with
  | done b => exact writesOnce_of_reads (hf b)
  | call r next ih =>
      rcases hp with ⟨hreads, hnext⟩ | hrest
      · exact Or.inl ⟨hreads, fun response => ih response (hnext response)⟩
      · exact Or.inr fun response => issues_bind (hrest response) hf

end Writes

/-! ## The refinement -/

/-- The lower system carries out the upper one: it has the same jobs, each section does in
one go what the upper request does in one step, and the surroundings leave the protected
part alone while the mutex is owned. -/
structure Refines (sys : Pool.System I W J α) (fine : Threads.System I B W S J α)
    (bodies : Bodies I B) : Prop where
  get_put : ∀ s world, fine.get (fine.put s world) = s
  put_get : ∀ world, fine.put (fine.get world) world = world
  implements : ∀ job, Implements bodies (sys.program job) (fine.program job)
  outside : ∀ world r response world', bodies r = none → fine.act world r response world' →
    sys.act world r response world' ∧ fine.get world' = fine.get world
  interferes : ∀ owned world world', fine.interferes owned world world' →
    sys.interferes world world' ∧ (owned = true → fine.get world' = fine.get world)
  writesOnce : ∀ r p, bodies r = some p → WritesOnce fine.handle p
  section_acts : ∀ r p, bodies r = some p → ∀ world,
    sys.act world r (run fine.handle p (fine.get world)).1
      (fine.put (run fine.handle p (fine.get world)).2 world)

/-- Where a lower call is, seen from the upper one, with the protected part at `s`. -/
inductive Follows (bodies : Bodies I B) (handle : S → (r : B.Request) → B.Response r × S) (s : S) :
    Program I α → Nat → Program (locking I B) α → Prop
  /-- Outside every section. -/
  | between {p : Program I α} {p' : Program (locking I B) α} (h : Implements bodies p p') :
      Follows bodies handle s p 0 p'
  /-- In a section that has written nothing: what is left of it does the whole section. -/
  | before {r : I.Request} {p rest : Program B (I.Response r)} {next : I.Response r → Program I α}
      {next' : I.Response r → Program (locking I B) α} (hbody : bodies r = some p)
      (hnext : ∀ response, Implements bodies (next response) (next' response))
      (honce : WritesOnce handle rest) (hrun : run handle rest s = run handle p s) :
      Follows bodies handle s (call r next) 1
        (lift rest >>= fun b => call LockRequest.release fun _ => next' b)
  /-- In a section that will not write any more: the upper call has taken its step. -/
  | after {β : Type} {p : Program I α} {rest : Program B β}
      {next' : β → Program (locking I B) α} (hreads : Issues (Reads handle) rest)
      (hnext : Implements bodies p (next' (run handle rest s).1)) :
      Follows bodies handle s p 1
        (lift rest >>= fun b => call LockRequest.release fun _ => next' b)

section Simulation

variable {sys : Pool.System I W J α} {fine : Threads.System I B W S J α} {bodies : Bodies I B}

/-- The upper call of a lower one. -/
def Matches (fine : Threads.System I B W S J α) (bodies : Bodies I B) (s : S)
    (c : Pool.Call I W J α) (d : Threads.Call I B T J α) : Prop :=
  c.job = d.job ∧ Follows bodies fine.handle s c.rest d.guards d.rest

/-- The two levels agree: one world, the same jobs, each call where the other is. -/
structure Agree (fine : Threads.System I B W S J α) (bodies : Bodies I B)
    (upper : Pool.State I W J α) (lower : Threads.State I B W T J α) : Prop where
  world : upper.world = lower.world
  calls : List.Forall₂ (Matches fine bodies (fine.get lower.world)) upper.calls lower.calls

theorem forall₂_middle {γ δ : Type} {R : γ → δ → Prop} {l : List γ} {d : δ}
    {earlier later : List δ} (h : List.Forall₂ R l (earlier ++ d :: later)) :
    ∃ before c after, l = before ++ c :: after ∧ List.Forall₂ R before earlier ∧ R c d ∧
      List.Forall₂ R after later := by
  induction earlier generalizing l with
  | nil =>
      obtain ⟨c, after, hc, hafter, rfl⟩ := List.forall₂_cons_right_iff.mp h
      exact ⟨[], c, after, rfl, .nil, hc, hafter⟩
  | cons e earlier ih =>
      obtain ⟨c', l', hc', hrest, rfl⟩ := List.forall₂_cons_right_iff.mp h
      obtain ⟨before, c, after, rfl, hbefore, hc, hafter⟩ := ih hrest
      exact ⟨c' :: before, c, after, rfl, .cons hc' hbefore, hc, hafter⟩

/-- A call outside its section does not depend on the protected part. -/
theorem Follows.anywhere {s s' : S} {p : Program I α} {p' : Program (locking I B) α}
    (h : Follows bodies fine.handle s p 0 p') : Follows bodies fine.handle s' p 0 p' := by
  cases h with
  | between h => exact .between h

/-- A returned lower call has returned the same above. -/
theorem Follows.returned {s : S} {p : Program I α} {guards : Nat} {a : α}
    (h : Follows bodies fine.handle s p guards (done a)) : p = done a := by
  generalize hdone : (done a : Program (locking I B) α) = p' at h
  cases h with
  | between h =>
      cases h with
      | done b => cases hdone; rfl
      | outside => cases hdone
      | guarded => cases hdone
      | idle => cases hdone
  | @before r p rest next next' hbody hnext honce hrun => cases rest <;> cases hdone
  | @after β p rest next' hreads hnext => cases rest <;> cases hdone

/-- Calls outside their sections, and calls whose protected part is as it was. -/
theorem Matches.others {s s' : S} {l : List (Pool.Call I W J α)}
    {l' : List (Threads.Call I B T J α)} (h : List.Forall₂ (Matches fine bodies s) l l') (hs : s' = s ∨ ∀ d ∈ l', d.guards = 0) :
    List.Forall₂ (Matches fine bodies s') l l' := by
  rcases hs with rfl | hidle
  · exact h
  · induction h with
    | nil => exact .nil
    | @cons c d l l' hc hrest ih =>
        refine .cons ⟨hc.1, ?_⟩ (ih fun e he => hidle e (List.mem_cons_of_mem _ he))
        have hfollows := hc.2
        rw [hidle d List.mem_cons_self] at hfollows ⊢
        exact hfollows.anywhere

/-- **One step.**  A step of a lower call leaves the upper one where it is, or is one step
of the upper one; only inside a section does it change the protected part. -/
theorem Follows.step (href : Refines sys fine bodies) {thread : T} {world world' : W}
    {mutex mutex' : Mutex T} {guards guards' : Nat} {r : LockRequest I B}
    {response : LockResponse I B r} {next : LockResponse I B r → Program (locking I B) α}
    {p : Program I α}
    (h : Follows bodies fine.handle (fine.get world) p guards (call r next))
    (hacts : Acts fine thread world mutex guards r response world' mutex' guards') :
    (fine.get world' = fine.get world ∨ guards ≠ 0) ∧
      ((world' = world ∧
          Follows bodies fine.handle (fine.get world') p guards' (next response)) ∨
        ∃ (q : I.Request) (answer : I.Response q) (rest : I.Response q → Program I α),
          p = call q rest ∧ sys.act world q answer world' ∧
            Follows bodies fine.handle (fine.get world') (rest answer) guards'
              (next response)) := by
  generalize hp' : (call r next : Program (locking I B) α) = p' at h
  cases h with
  | between h =>
      cases h with
      | done a => cases hp'
      | outside hbody hnext =>
          cases hp'
          cases hacts with
          | outside hact =>
              obtain ⟨hact', hget⟩ := href.outside _ _ _ _ hbody hact
              exact ⟨Or.inl hget, Or.inr ⟨_, _, _, rfl, hact', .between (hnext _)⟩⟩
      | guarded hbody hnext =>
          cases hp'
          cases hacts with
          | acquire hlocks =>
              exact ⟨Or.inl rfl, Or.inl ⟨rfl,
                .before hbody hnext (href.writesOnce _ _ hbody) rfl⟩⟩
      | idle h =>
          cases hp'
          cases hacts with
          | acquire hlocks => exact ⟨Or.inl rfl, Or.inl ⟨rfl, .after trivial h⟩⟩
  | @before q body rest upperNext lowerNext hbody hnext honce hrun =>
      refine ⟨Or.inr Nat.one_ne_zero, ?_⟩
      have hact := href.section_acts q body hbody world
      rw [← hrun] at hact
      cases rest with
      | done answer =>
          -- the section wrote nothing: it takes effect now
          cases hp'
          cases hacts with
          | release hunlocks =>
              rw [run_done, href.put_get] at hact
              exact Or.inr ⟨q, answer, upperNext, rfl, hact, .between (hnext answer)⟩
      | call b bodyNext =>
          cases hp'
          cases hacts with
          | inside b =>
              rcases honce with ⟨hreads, honce⟩ | hreads
              · have hsame := hreads (fine.get world)
                rw [hsame, href.put_get]
                refine Or.inl ⟨rfl, .before hbody hnext (honce _) ?_⟩
                rw [← hrun, run_call, hsame]
              · -- the section writes: it takes effect here
                have hfinal := run_reads (hreads (fine.handle (fine.get world) b).1)
                  (fine.handle (fine.get world) b).2
                rw [run_call, hfinal] at hact
                refine Or.inr ⟨q, _, upperNext, rfl, hact, .after (hreads _) ?_⟩
                rw [href.get_put]
                exact hnext _
  | @after β p body lowerNext hreads hnext =>
      refine ⟨Or.inr Nat.one_ne_zero, Or.inl ?_⟩
      cases body with
      | done answer =>
          cases hp'
          cases hacts with
          | release hunlocks => exact ⟨rfl, .between hnext⟩
      | call b bodyNext =>
          cases hp'
          cases hacts with
          | inside b =>
              have hsame := hreads.1 (fine.get world)
              rw [run_call, hsame] at hnext
              rw [hsame, href.put_get]
              exact ⟨rfl, .after (hreads.2 _) hnext⟩

variable {upper : Pool.State I W J α} {lower lower' : Threads.State I B W T J α} {init : W}

theorem Agree.advance (href : Refines sys fine bodies) (hdisciplined : Disciplined fine lower)
    (hagree : Agree fine bodies upper lower) (hrun : Pool.Run sys init upper)
    (hadvances : Advances fine lower lower') :
    ∃ upper', Pool.Run sys init upper' ∧ Agree fine bodies upper' lower' := by
  obtain ⟨upperWorld, upperCalls⟩ := upper
  cases hadvances with
  | @step world world' mutex mutex' earlier later thread job guards guards' r response next
      htop hacts =>
    obtain ⟨hworld, hcalls⟩ := hagree
    change upperWorld = world at hworld
    subst hworld
    obtain ⟨before, ⟨job', steps, p⟩, after, hupper, hbefore, hc, hafter⟩ := forall₂_middle hcalls
    change upperCalls = _ at hupper
    subst hupper
    obtain ⟨hjob, hfollows⟩ := hc
    change job' = job at hjob
    subst hjob
    obtain ⟨hchanged, hstep⟩ := hfollows.step href hacts
    have hothers : fine.get world' = fine.get upperWorld ∨
        ∀ d ∈ earlier ++ later, d.guards = 0 :=
      hchanged.imp id fun hguards => hdisciplined.others_idle hguards
    have hbefore' := Matches.others hbefore
      (hothers.imp id fun hidle d hd => hidle d (List.mem_append_left _ hd))
    have hafter' := Matches.others hafter
      (hothers.imp id fun hidle d hd => hidle d (List.mem_append_right _ hd))
    rcases hstep with ⟨rfl, hstays⟩ | ⟨q, answer, rest, rfl, hact, hgoes⟩
    · exact ⟨_, hrun, rfl, List.rel_append hbefore' (.cons ⟨rfl, hstays⟩ hafter')⟩
    · exact ⟨_, .move hrun (.advance hact), rfl,
        List.rel_append hbefore' (.cons ⟨rfl, hgoes⟩ hafter')⟩

theorem Agree.move (href : Refines sys fine bodies) (hdisciplined : Disciplined fine lower)
    (hagree : Agree fine bodies upper lower) (hrun : Pool.Run sys init upper)
    (hmove : Threads.Moves fine lower lower') :
    ∃ upper', Pool.Run sys init upper' ∧ Agree fine bodies upper' lower' := by
  cases hmove with
  | advance hadvances => exact hagree.advance href hdisciplined hrun hadvances
  | start _ thread job hnested =>
      refine ⟨_, .move hrun (.start upper job), hagree.world, ?_⟩
      exact List.rel_append hagree.calls (.cons ⟨rfl, .between (href.implements job)⟩ .nil)
  | @interfere world world' mutex calls hinterferes =>
      obtain ⟨hinterferes', hprotected⟩ := href.interferes _ _ _ hinterferes
      obtain ⟨hworld, hcalls⟩ := hagree
      obtain ⟨upperWorld, upperCalls⟩ := upper
      change upperWorld = world at hworld
      subst hworld
      refine ⟨_, .move hrun (.interfere _ hinterferes'), rfl, ?_⟩
      refine Matches.others hcalls ?_
      cases mutex with
      | some owner => exact Or.inl (hprotected rfl)
      | none =>
          refine Or.inr fun d hd => ?_
          by_contra hguards
          cases hdisciplined.owner d hd hguards

/-- **Atomicity.**  Every run of the lower system is matched by one of the upper system. -/
theorem agree_of_run (href : Refines sys fine bodies) (hrun : Threads.Run fine init lower) :
    ∃ upper, Pool.Run sys init upper ∧ Agree fine bodies upper lower := by
  induction hrun with
  | nil => exact ⟨_, .nil, rfl, .nil⟩
  | move hrun hmove ih =>
      obtain ⟨upper, hupper, hagree⟩ := ih
      exact hagree.move href (hrun.disciplined fun job => (href.implements job).bracketed)
        hupper hmove

/-- The upper run has the same world and calls, and what has returned returned the same. -/
theorem Agree.returned (hagree : Agree fine bodies upper lower) :
    List.Forall₂ (fun (c : Pool.Call I W J α) (d : Threads.Call I B T J α) =>
      c.job = d.job ∧ ∀ result, d.rest = done result → c.Returned result)
      upper.calls lower.calls := by
  refine hagree.calls.imp fun c d hmatches => ⟨hmatches.1, fun result hresult => ?_⟩
  have hfollows := hmatches.2
  rw [hresult] at hfollows
  exact hfollows.returned

end Simulation

end DynamicProperties.Library.AtomicSections
