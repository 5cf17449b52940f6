import DynamicProperties.Library.Pool

/-!
# The history of a run

A run of a pool, written down move by move: which call was started, which call took
which step, and when the surroundings acted.  The order of the list is the order of
time: a call that returned before another was started has all its steps before it.

Some steps change a part of the world by a list of updates, and nothing else does.  The
log of a history is all these updates in order.

* `Chronicle.replay`: that part is, at any time, the replay of the log so far;
* `Chronicle.step_at`: each step of a call happened after the call started, on the replay of
  what was logged before it.  A call whose answer depends on one step alone so has one
  instant, between its start and its return, at which it took effect;
* `exists_change`: what differs between two times was changed by an update in between.
-/

namespace DynamicProperties.Library.History

open Requests Requests.Program Pool

variable {I : Interface} {W J α S E : Type}

/-- One move; calls are known by their place in the pool. -/
inductive Event (I : Interface) (W : Type) where
  | started (call : Nat)
  | stepped (call : Nat) (step : Step I W)
  | interfered

/-- A run with its moves, in order. -/
inductive Chronicle (sys : System I W J α) (init : W) :
    List (Event I W) → State I W J α → Prop
  | nil : Chronicle sys init [] ⟨init, []⟩
  | start {events : List (Event I W)} {state : State I W J α} (h : Chronicle sys init events state)
      (job : J) :
      Chronicle sys init (events ++ [.started state.calls.length])
        { state with calls := state.calls ++ [⟨job, [], sys.program job⟩] }
  | advance {events : List (Event I W)} {world world' : W} {earlier later : List (Call I W J α)}
      {job : J} {steps : List (Step I W)} {r : I.Request} {next : I.Response r → Program I α}
      {response : I.Response r}
      (h : Chronicle sys init events ⟨world, earlier ++ ⟨job, steps, call r next⟩ :: later⟩)
      (hact : sys.act world r response world') :
      Chronicle sys init (events ++ [.stepped earlier.length ⟨world, r, response, world'⟩])
        ⟨world', earlier ++
          ⟨job, steps ++ [⟨world, r, response, world'⟩], next response⟩ :: later⟩
  | interfere {events : List (Event I W)} {world world' : W} {calls : List (Call I W J α)}
      (h : Chronicle sys init events ⟨world, calls⟩) (hinterferes : sys.interferes world world') :
      Chronicle sys init (events ++ [.interfered]) ⟨world', calls⟩

variable {sys : System I W J α} {init : W} {events before after : List (Event I W)}
  {state : State I W J α}

/-- Every run has a chronicle. -/
theorem exists_chronicle (hrun : Run sys init state) :
    ∃ events, Chronicle sys init events state := by
  induction hrun with
  | nil => exact ⟨[], .nil⟩
  | move _ hmove ih =>
      obtain ⟨events, hevents⟩ := ih
      cases hmove with
      | start _ job => exact ⟨_, .start hevents job⟩
      | advance hact => exact ⟨_, .advance hevents hact⟩
      | interfere calls h => exact ⟨_, .interfere hevents h⟩

theorem Chronicle.run (h : Chronicle sys init events state) : Run sys init state := by
  induction h with
  | nil => exact .nil
  | start _ job ih => exact .move ih (.start _ job)
  | advance _ hact ih => exact .move ih (.advance hact)
  | interfere _ hinterferes ih => exact .move ih (.interfere _ hinterferes)

/-- What was written down at an earlier time is a history. -/
theorem Chronicle.earlier (h : Chronicle sys init events state) (hbefore : before <+: events) :
    ∃ state', Chronicle sys init before state' := by
  induction h with
  | nil =>
      rw [List.prefix_nil.mp hbefore]
      exact ⟨_, .nil⟩
  | start h job ih =>
      rcases List.prefix_concat_iff.mp hbefore with rfl | hshorter
      · exact ⟨_, .start h job⟩
      · exact ih hshorter
  | advance h hact ih =>
      rcases List.prefix_concat_iff.mp hbefore with rfl | hshorter
      · exact ⟨_, .advance h hact⟩
      · exact ih hshorter
  | interfere h hinterferes ih =>
      rcases List.prefix_concat_iff.mp hbefore with rfl | hshorter
      · exact ⟨_, .interfere h hinterferes⟩
      · exact ih hshorter

/-- A call in flight can be run alone to its end, and each step is written down. -/
theorem Chronicle.finishes {handle : W → (r : I.Request) → I.Response r × W}
    (hact : ∀ world r, sys.act world r (handle world r).1 (handle world r).2)
    {p : Program I α} {world : W} {job : J} {steps : List (Step I W)}
    {first last : List (Call I W J α)}
    (h : Chronicle sys init events ⟨world, first ++ ⟨job, steps, p⟩ :: last⟩) :
    Chronicle sys init
      (events ++ (runSteps handle p world).map (.stepped first.length))
      ⟨(Requests.run handle p world).2, first ++ ⟨job, steps ++ runSteps handle p world,
        done (Requests.run handle p world).1⟩ :: last⟩ := by
  induction p generalizing world steps events with
  | done a => simpa [runSteps] using h
  | call r next ih =>
      have hnext := ih (handle world r).1 (.advance h (hact world r))
      simpa [runSteps] using hnext

/-- Some call can always be run alone to its end. -/
theorem Chronicle.alone {handle : W → (r : I.Request) → I.Response r × W}
    (hact : ∀ world r, sys.act world r (handle world r).1 (handle world r).2)
    (h : Chronicle sys init events state) (job : J) :
    Chronicle sys init
      (events ++ [.started state.calls.length] ++
        (runSteps handle (sys.program job) state.world).map (.stepped state.calls.length))
      (state.alone sys handle job) :=
  Chronicle.finishes hact (.start h job)

/-! ## The steps of one call -/

/-- The step, if it is one of this call's. -/
def Event.stepOf (call : Nat) : Event I W → Option (Step I W)
  | .stepped i step => if i = call then some step else none
  | _ => none

/-- The steps of one call, in order. -/
def stepsOf (call : Nat) (events : List (Event I W)) : List (Step I W) :=
  events.filterMap (Event.stepOf call)

theorem stepsOf_concat (call : Nat) (events : List (Event I W)) (e : Event I W) :
    stepsOf call (events ++ [e]) = stepsOf call events ++ (e.stepOf call).toList := by
  rw [stepsOf, List.filterMap_append]
  cases h : e.stepOf call <;> simp [stepsOf, h]

/-- A call is known by its place: nothing is written down of calls not yet started. -/
theorem Chronicle.stepsOf_fresh (h : Chronicle sys init events state) :
    ∀ i, state.calls.length ≤ i → stepsOf i events = [] := by
  induction h with
  | nil => exact fun i _ => rfl
  | @start events state h job ih =>
      intro i hi
      rw [stepsOf_concat, ih i (by simp at hi; omega)]
      rfl
  | @advance events world world' earlier later job steps r next response h hact ih =>
      intro i hi
      have hne : earlier.length ≠ i := by
        simp at hi
        omega
      rw [stepsOf_concat, ih i (by simpa using hi)]
      simp [Event.stepOf, hne]
  | interfere h hinterferes ih =>
      intro i hi
      rw [stepsOf_concat, ih i hi]
      rfl

/-- The pool keeps of each call the steps that are written down of it. -/
theorem Chronicle.steps (h : Chronicle sys init events state) :
    ∀ {i : Nat} {c : Call I W J α}, state.calls[i]? = some c → stepsOf i events = c.steps := by
  induction h with
  | nil =>
      intro i c hc
      simp at hc
  | @start events state h job ih =>
      intro i c hc
      rw [stepsOf_concat]
      simp only [Event.stepOf, Option.toList_none, List.append_nil]
      rcases Nat.lt_trichotomy i state.calls.length with hlt | rfl | hgt
      · rw [List.getElem?_append_left hlt] at hc
        exact ih hc
      · rw [List.getElem?_concat_length] at hc
        cases hc
        exact h.stepsOf_fresh _ le_rfl
      · rw [List.getElem?_eq_none (by simp; omega)] at hc
        cases hc
  | @advance events world world' earlier later job steps r next response h hact ih =>
      intro i c hc
      rw [stepsOf_concat]
      rcases Nat.lt_trichotomy i earlier.length with hlt | rfl | hgt
      · have hne : earlier.length ≠ i := by omega
        rw [List.getElem?_append_left hlt] at hc
        rw [← ih (by rw [List.getElem?_append_left hlt]; exact hc)]
        simp [Event.stepOf, hne]
      · simp only [List.getElem?_append_right, le_refl, Nat.sub_self, List.getElem?_cons_zero,
          Option.some.injEq] at hc
        subst hc
        have hold := @ih earlier.length ⟨job, steps, call r next⟩ (by simp)
        rw [hold]
        simp [Event.stepOf]
      · have hne : earlier.length ≠ i := by omega
        obtain ⟨k, rfl⟩ : ∃ k, i = earlier.length + (k + 1) := ⟨i - earlier.length - 1, by omega⟩
        have hc' : later[k]? = some c := by simpa [List.getElem?_append_right] using hc
        rw [@ih (earlier.length + (k + 1)) c (by simpa [List.getElem?_append_right] using hc')]
        simp [Event.stepOf]
  | interfere h hinterferes ih =>
      intro i c hc
      rw [stepsOf_concat, ih hc]
      simp [Event.stepOf]

/-- Every call in the pool was started. -/
theorem Chronicle.started (h : Chronicle sys init events state) :
    ∀ {i : Nat}, i < state.calls.length → .started i ∈ events := by
  induction h with
  | nil =>
      intro i hi
      cases hi
  | @start events state h job ih =>
      intro i hi
      rcases Nat.lt_or_ge i state.calls.length with hlt | hge
      · exact List.mem_append_left _ (ih hlt)
      · have hi' : i = state.calls.length := by
          simp at hi
          omega
        subst hi'
        exact List.mem_append_right _ List.mem_cons_self
  | advance h hact ih =>
      intro i hi
      exact List.mem_append_left _ (ih (by simpa using hi))
  | interfere h hinterferes ih => exact fun hi => List.mem_append_left _ (ih hi)

/-- A step found the world of its time, and its call had been started. -/
theorem Chronicle.at_event (h : Chronicle sys init events state) {i : Nat} {step : Step I W}
    (hevents : events = before ++ .stepped i step :: after) :
    ∃ state', Chronicle sys init before state' ∧ state'.world = step.before ∧
      .started i ∈ before ∧ sys.act step.before step.request step.response step.after := by
  have hbefore : before ++ [.stepped i step] <+: events := ⟨after, by simp [hevents]⟩
  obtain ⟨state', h'⟩ := h.earlier hbefore
  generalize hlist : before ++ [Event.stepped i step] = written at h'
  cases h' with
  | nil => simp at hlist
  | start h' job =>
      have hlast := (List.append_inj' hlist rfl).2
      simp at hlast
  | interfere h' hinterferes =>
      have hlast := (List.append_inj' hlist rfl).2
      simp at hlast
  | advance h' hact =>
      obtain ⟨rfl, hlast⟩ := List.append_inj' hlist rfl
      simp only [List.cons.injEq, Event.stepped.injEq, and_true] at hlast
      obtain ⟨rfl, rfl⟩ := hlast
      exact ⟨_, h', rfl, h'.started (by simp), hact⟩

/-- Each step of a call is written down, after what the call did before. -/
theorem exists_event {call : Nat} {first second : List (Step I W)} {step : Step I W} :
    ∀ {events : List (Event I W)}, stepsOf call events = first ++ step :: second →
      ∃ before after, events = before ++ .stepped call step :: after ∧
        stepsOf call before = first ∧ stepsOf call after = second := by
  intro events
  induction events generalizing first with
  | nil =>
      intro h
      simp [stepsOf] at h
  | cons e events ih =>
      intro h
      cases hstep : e.stepOf call with
      | none =>
          have hrest : stepsOf call (e :: events) = stepsOf call events :=
            List.filterMap_cons_none hstep
          rw [hrest] at h
          obtain ⟨before, after, rfl, hfirst, hsecond⟩ := ih h
          refine ⟨e :: before, after, rfl, ?_, hsecond⟩
          rw [← hfirst]
          exact List.filterMap_cons_none hstep
      | some head =>
          have hhead : stepsOf call (e :: events) = head :: stepsOf call events :=
            List.filterMap_cons_some hstep
          have he : e = .stepped call head := by
            cases e with
            | stepped i s =>
                simp only [Event.stepOf] at hstep
                split at hstep
                · next hi => cases hstep; rw [hi]
                · cases hstep
            | started i => cases hstep
            | interfered => cases hstep
          rw [hhead] at h
          cases first with
          | nil =>
              obtain ⟨rfl, hsecond⟩ := List.cons.inj h
              exact ⟨[], events, by rw [he]; rfl, rfl, hsecond⟩
          | cons f first =>
              obtain ⟨rfl, hrest⟩ := List.cons.inj h
              obtain ⟨before, after, rfl, hfirst, hsecond⟩ := ih hrest
              refine ⟨e :: before, after, rfl, ?_, hsecond⟩
              rw [← hfirst]
              exact List.filterMap_cons_some hstep

/-! ## The log -/

section Log

variable (emits : Step I W → List E)

/-- The updates a move made. -/
def Event.emitted : Event I W → List E
  | .stepped _ step => emits step
  | _ => []

/-- The updates of a history, in order. -/
def log (events : List (Event I W)) : List E := events.flatMap (Event.emitted emits)

variable {emits} {apply : S → E → S}

theorem log_append (first second : List (Event I W)) :
    log emits (first ++ second) = log emits first ++ log emits second :=
  List.flatMap_append

/-- An update of a history is one of a step. -/
theorem mem_log {u : E} (h : u ∈ log emits events) :
    ∃ before i step after, events = before ++ .stepped i step :: after ∧ u ∈ emits step := by
  obtain ⟨e, he, hu⟩ := List.mem_flatMap.mp h
  obtain ⟨before, after, rfl⟩ := List.append_of_mem he
  cases e with
  | stepped i step => exact ⟨before, i, step, after, rfl, hu⟩
  | started i => cases hu
  | interfered => cases hu

/-- **Replay.** -/
theorem Chronicle.replay (h : Chronicle sys init events state) (project : W → S)
    (hacts : ∀ step : Step I W, sys.act step.before step.request step.response step.after →
      project step.after = (emits step).foldl apply (project step.before))
    (hinterferes : ∀ world world', sys.interferes world world' →
      project world' = project world) :
    project state.world = (log emits events).foldl apply (project init) := by
  induction h with
  | nil => rfl
  | start h job ih =>
      rw [log_append, List.foldl_append]
      exact ih
  | @advance events world world' earlier later job steps r next response h hact ih =>
      rw [log_append, List.foldl_append, ← ih]
      have hstep := hacts ⟨world, r, response, world'⟩ hact
      simpa [log, Event.emitted] using hstep
  | interfere h hact ih =>
      rw [log_append, List.foldl_append, ← ih]
      exact hinterferes _ _ hact

/-- **The instant of a step.**  It lies after the start of its call, and the step found the
replay of what was logged before. -/
theorem Chronicle.step_at (h : Chronicle sys init events state) (project : W → S)
    (hacts : ∀ step : Step I W, sys.act step.before step.request step.response step.after →
      project step.after = (emits step).foldl apply (project step.before))
    (hinterferes : ∀ world world', sys.interferes world world' → project world' = project world)
    {i : Nat} {c : Call I W J α} (hc : state.calls[i]? = some c) {first second : List (Step I W)}
    {step : Step I W} (hsteps : c.steps = first ++ step :: second) :
    ∃ before after, events = before ++ .stepped i step :: after ∧ .started i ∈ before ∧
      project step.before = (log emits before).foldl apply (project init) := by
  obtain ⟨before, after, hevents, -, -⟩ := exists_event ((h.steps hc).trans hsteps)
  obtain ⟨state', h', hworld, hstarted, -⟩ := h.at_event hevents
  exact ⟨before, after, hevents, hstarted, hworld ▸ h'.replay project hacts hinterferes⟩

end Log

/-- What updates changed, one of them changed. -/
theorem exists_change {γ : Type} {apply : S → E → S} (observe : S → γ) :
    ∀ (updates : List E) (s : S), observe (updates.foldl apply s) ≠ observe s →
      ∃ earlier u later, updates = earlier ++ u :: later ∧
        observe (apply (earlier.foldl apply s) u) ≠ observe (earlier.foldl apply s) := by
  intro updates
  induction updates with
  | nil => exact fun s h => absurd rfl h
  | cons u updates ih =>
      intro s h
      by_cases hfirst : observe (apply s u) = observe s
      · rw [List.foldl_cons, ← hfirst] at h
        obtain ⟨earlier, v, later, rfl, hv⟩ := ih _ h
        exact ⟨u :: earlier, v, later, rfl, hv⟩
      · exact ⟨[], u, updates, rfl, hfirst⟩

end DynamicProperties.Library.History
