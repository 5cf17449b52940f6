import Mathlib.Data.List.Basic

/-!
# Acting on a list until the first failure

`runUntil step ok items state` acts on the items in order, threads the state and
stops after the first result that is not `ok`.  The result list therefore ends
with the first failure, when there is one.

`Succeeds` says that no failure occurs.  The rules below are what a proof about
such a loop needs: how it splits over an append, which results it returns, and
that an invariant of the single successful step is an invariant of the loop.
-/

namespace DynamicProperties.Library.Sequence

variable {ι ρ σ : Type}

/-- Act on each item in turn; stop after the first result that is not `ok`. -/
def runUntil (step : ι → σ → ρ × σ) (ok : ρ → Bool) : List ι → σ → List ρ × σ
  | [], state => ([], state)
  | item :: rest, state =>
      let (result, state) := step item state
      if ok result then
        let (results, state) := runUntil step ok rest state
        (result :: results, state)
      else ([result], state)

/-- Every item is acted on and every result is `ok`. -/
def Succeeds (step : ι → σ → ρ × σ) (ok : ρ → Bool) : List ι → σ → Prop
  | [], _ => True
  | item :: rest, state =>
      ok (step item state).1 = true ∧ Succeeds step ok rest (step item state).2

section Rules

variable {step : ι → σ → ρ × σ} {ok : ρ → Bool}

@[simp] theorem runUntil_nil (state : σ) : runUntil step ok [] state = ([], state) := rfl

theorem succeeds_nil (state : σ) : Succeeds step ok [] state := trivial

theorem succeeds_cons {item : ι} {rest : List ι} {state : σ} :
    Succeeds step ok (item :: rest) state ↔
      ok (step item state).1 = true ∧ Succeeds step ok rest (step item state).2 := Iff.rfl

theorem runUntil_cons_of_ok {item : ι} {state : σ} (h : ok (step item state).1 = true)
    (rest : List ι) :
    runUntil step ok (item :: rest) state =
      ((step item state).1 :: (runUntil step ok rest (step item state).2).1,
        (runUntil step ok rest (step item state).2).2) :=
  if_pos h

theorem runUntil_cons_of_not_ok {item : ι} {state : σ} (h : ok (step item state).1 = false)
    (rest : List ι) :
    runUntil step ok (item :: rest) state = ([(step item state).1], (step item state).2) :=
  if_neg (Bool.eq_false_iff.mp h)

/-- A loop succeeds exactly when all the results it returns are `ok`. -/
theorem succeeds_iff (items : List ι) (state : σ) :
    Succeeds step ok items state ↔ ∀ result ∈ (runUntil step ok items state).1,
      ok result = true := by
  induction items generalizing state with
  | nil => exact iff_of_true (succeeds_nil state) fun _ h => absurd h List.not_mem_nil
  | cons item rest ih =>
      by_cases h : ok (step item state).1 = true
      · rw [runUntil_cons_of_ok h, succeeds_cons, ih]
        simp [h]
      · have h' : ok (step item state).1 = false := by simpa using h
        rw [runUntil_cons_of_not_ok h', succeeds_cons]
        simp [h']

/-- A successful loop returns one result for each item. -/
theorem length_of_succeeds {items : List ι} {state : σ} (h : Succeeds step ok items state) :
    (runUntil step ok items state).1.length = items.length := by
  induction items generalizing state with
  | nil => rfl
  | cons item rest ih =>
      rw [runUntil_cons_of_ok h.1, List.length_cons, List.length_cons, ih h.2]

/-- A loop never returns more results than it has items. -/
theorem length_le (items : List ι) (state : σ) :
    (runUntil step ok items state).1.length ≤ items.length := by
  induction items generalizing state with
  | nil => exact Nat.le_refl _
  | cons item rest ih =>
      by_cases h : ok (step item state).1 = true
      · rw [runUntil_cons_of_ok h, List.length_cons, List.length_cons]
        exact Nat.succ_le_succ (ih _)
      · rw [runUntil_cons_of_not_ok (by simpa using h)]
        simp

/-- A loop returns one result for each item exactly when nothing fails before the
last one. -/
theorem length_eq_iff (items : List ι) (state : σ) :
    (runUntil step ok items state).1.length = items.length ↔
      Succeeds step ok items.dropLast state := by
  induction items generalizing state with
  | nil => exact ⟨fun _ => trivial, fun _ => rfl⟩
  | cons item rest ih =>
      cases rest with
      | nil =>
          have hlength : (runUntil step ok [item] state).1.length = 1 := by
            simp only [runUntil]
            split <;> rfl
          exact ⟨fun _ => trivial, fun _ => hlength⟩
      | cons next rest =>
          rw [List.dropLast_cons_cons, succeeds_cons, ← ih]
          by_cases h : ok (step item state).1 = true
          · rw [runUntil_cons_of_ok h, List.length_cons, List.length_cons, Nat.succ_inj]
            exact ⟨fun hlength => ⟨h, hlength⟩, And.right⟩
          · rw [runUntil_cons_of_not_ok (by simpa using h)]
            simp [h]

/-- A loop that fails returns the results of a successful prefix, and then the
first failure. -/
theorem runUntil_of_not_succeeds {items : List ι} {state : σ}
    (h : ¬ Succeeds step ok items state) :
    ∃ before item rest, items = before ++ item :: rest ∧ Succeeds step ok before state ∧
      ok (step item (runUntil step ok before state).2).1 = false ∧
      (runUntil step ok items state).1 =
        (runUntil step ok before state).1 ++ [(step item (runUntil step ok before state).2).1] := by
  induction items generalizing state with
  | nil => exact absurd trivial h
  | cons item rest ih =>
      by_cases hok : ok (step item state).1 = true
      · have hrest : ¬ Succeeds step ok rest (step item state).2 := fun hr => h ⟨hok, hr⟩
        obtain ⟨before, bad, later, rfl, hsucc, hbad, hresults⟩ := ih hrest
        refine ⟨item :: before, bad, later, rfl, ⟨hok, hsucc⟩, ?_, ?_⟩
        · rw [runUntil_cons_of_ok hok]
          exact hbad
        · rw [runUntil_cons_of_ok hok, runUntil_cons_of_ok hok, hresults]
          rfl
      · have hbad : ok (step item state).1 = false := by simpa using hok
        exact ⟨[], item, rest, rfl, trivial, hbad, by rw [runUntil_cons_of_not_ok hbad]; rfl⟩

/-- **Invariant rule.**  What every successful step preserves, a successful loop
preserves. -/
theorem invariant {I : σ → Prop} {items : List ι} {state : σ}
    (hstep : ∀ item ∈ items, ∀ state, I state → ok (step item state).1 = true →
      I (step item state).2)
    (hall : Succeeds step ok items state) (hinit : I state) :
    I (runUntil step ok items state).2 := by
  induction items generalizing state with
  | nil => exact hinit
  | cons item rest ih =>
      rw [runUntil_cons_of_ok hall.1]
      exact ih (fun i hi => hstep i (List.mem_cons_of_mem _ hi)) hall.2
        (hstep item List.mem_cons_self state hinit hall.1)

end Rules

/-! ## Acting on every item -/

/-- Act on each item in turn, whatever comes of it. -/
def runEach (step : ι → σ → ρ × σ) : List ι → σ → List ρ × σ
  | [], state => ([], state)
  | item :: rest, state =>
      let (result, state) := step item state
      let (results, state) := runEach step rest state
      (result :: results, state)

/-- **Simulation rule.**  Steps that answer related items with related results, and
keep two states related, make runs that do. -/
theorem runEach_rel {ι' ρ' σ' : Type} {step : ι → σ → ρ × σ} {step' : ι' → σ' → ρ' × σ'}
    {I : ι → ι' → Prop} {Q : ρ → ρ' → Prop} {R : σ → σ' → Prop}
    (hstep : ∀ item item' state state', I item item' → R state state' →
      Q (step item state).1 (step' item' state').1 ∧ R (step item state).2 (step' item' state').2)
    {items : List ι} {items' : List ι'} (hitems : List.Forall₂ I items items') {state : σ}
    {state' : σ'} (hinit : R state state') :
    List.Forall₂ Q (runEach step items state).1 (runEach step' items' state').1 ∧
      R (runEach step items state).2 (runEach step' items' state').2 := by
  induction hitems generalizing state state' with
  | nil => exact ⟨.nil, hinit⟩
  | cons hitem _ ih =>
      obtain ⟨hresult, hnext⟩ := hstep _ _ state state' hitem hinit
      obtain ⟨hresults, hfinal⟩ := ih hnext
      exact ⟨.cons hresult hresults, hfinal⟩

/-! ## Steps that may fail, without results -/

/-- Take all the steps, or fail. -/
def runAll (step : ι → σ → Option σ) : List ι → σ → Option σ
  | [], state => some state
  | item :: rest, state => (step item state).bind (runAll step rest)

/-- Step through the items until a step fails; is there a state on the way, after
the first step, that passes the test? -/
def search (step : ι → σ → Option σ) (test : σ → Bool) : List ι → σ → Bool
  | [], _ => false
  | item :: rest, state =>
      match step item state with
      | none => false
      | some state => if test state then true else search step test rest state

/-- A search finds exactly the states that some number of steps reaches. -/
theorem search_iff {step : ι → σ → Option σ} {test : σ → Bool} {items : List ι} {state : σ} :
    search step test items state = true ↔
      ∃ n, 1 ≤ n ∧ n ≤ items.length ∧
        ∃ after, runAll step (items.take n) state = some after ∧ test after = true := by
  induction items generalizing state with
  | nil =>
      constructor
      · intro h
        cases h
      · rintro ⟨n, hpos, hlen, -⟩
        rw [List.length_nil] at hlen
        omega
  | cons item rest ih =>
      cases hstep : step item state with
      | none =>
          constructor
          · intro h
            simp [search, hstep] at h
          · rintro ⟨n, hpos, -, after, hrun, -⟩
            obtain ⟨k, rfl⟩ : ∃ k, n = k + 1 := ⟨n - 1, by omega⟩
            simp [runAll, hstep] at hrun
      | some next =>
          by_cases htest : test next = true
          · refine ⟨fun _ => ⟨1, Nat.le_refl 1, by simp, next, ?_, htest⟩, fun _ => ?_⟩
            · simp [runAll, hstep]
            · simp [search, hstep, htest]
          · have hsearch : search step test (item :: rest) state = search step test rest next := by
              simp [search, hstep, htest]
            rw [hsearch, ih]
            constructor
            · rintro ⟨n, hpos, hlen, after, hrun, hafter⟩
              refine ⟨n + 1, by omega, by simpa using hlen, after, ?_, hafter⟩
              simpa [runAll, hstep] using hrun
            · rintro ⟨n, hpos, hlen, after, hrun, hafter⟩
              obtain ⟨k, rfl⟩ : ∃ k, n = k + 1 := ⟨n - 1, by omega⟩
              have hlen' : k ≤ rest.length := by simpa using hlen
              have hrest : runAll step (rest.take k) next = some after := by
                simpa [runAll, hstep] using hrun
              have hk : 1 ≤ k := by
                -- no further step would leave the state that failed the test
                by_contra hzero
                have hk0 : k = 0 := by omega
                subst hk0
                rw [List.take_zero, runAll, Option.some.injEq] at hrest
                exact htest (hrest ▸ hafter)
              exact ⟨k, hk, hlen', after, hrest, hafter⟩

/-- **Simulation rule.**  Steps that agree on failing and keep two states related
make runs that agree on failing and keep the states related. -/
theorem runAll_rel {τ : Type} {step : ι → σ → Option σ} {step' : ι → τ → Option τ}
    {R : σ → τ → Prop} {items : List ι} {state : σ} {state' : τ}
    (hstep : ∀ item ∈ items, ∀ s t, R s t → Option.Rel R (step item s) (step' item t))
    (hinit : R state state') :
    Option.Rel R (runAll step items state) (runAll step' items state') := by
  induction items generalizing state state' with
  | nil => exact .some hinit
  | cons item rest ih =>
      have hfirst := hstep item List.mem_cons_self state state' hinit
      simp only [runAll]
      generalize step item state = left at hfirst ⊢
      generalize step' item state' = right at hfirst ⊢
      cases hfirst with
      | none => exact .none
      | some hnext => exact ih (fun i hi => hstep i (List.mem_cons_of_mem _ hi)) hnext

/-- A search on one side finds exactly what the related run on the other side
reaches. -/
theorem search_iff_of_rel {τ : Type} {step : ι → σ → Option σ} {step' : ι → τ → Option τ}
    {R : σ → τ → Prop} {test : σ → Bool} {P : τ → Prop} {items : List ι} {state : σ} {state' : τ}
    (hstep : ∀ item ∈ items, ∀ s t, R s t → Option.Rel R (step item s) (step' item t))
    (htest : ∀ s t, R s t → (test s = true ↔ P t)) (hinit : R state state') :
    search step test items state = true ↔
      ∃ n, 1 ≤ n ∧ n ≤ items.length ∧
        ∃ after, runAll step' (items.take n) state' = some after ∧ P after := by
  rw [search_iff]
  refine exists_congr fun n => and_congr_right fun _ => and_congr_right fun _ => ?_
  have hrun : Option.Rel R (runAll step (items.take n) state)
      (runAll step' (items.take n) state') :=
    runAll_rel (fun item hitem => hstep item (List.mem_of_mem_take hitem)) hinit
  generalize runAll step (items.take n) state = left at hrun ⊢
  generalize runAll step' (items.take n) state' = right at hrun ⊢
  cases hrun with
  | none => simp
  | @some s t hrel => simp [htest s t hrel]

/-- States that look the same through two views are related by that. -/
theorem rel_of_map_eq {τ υ : Type} {f : σ → υ} {g : τ → υ} {state : Option σ} {state' : Option τ}
    (h : state.map f = state'.map g) : Option.Rel (fun s t => f s = g t) state state' := by
  cases state with
  | none =>
      cases state' with
      | none => exact .none
      | some t => cases h
  | some s =>
      cases state' with
      | none => cases h
      | some t => exact .some (Option.some.inj h)

/-- A step with a result, as a step that fails where the result is not `ok`. -/
def whenOk (step : ι → σ → ρ × σ) (ok : ρ → Bool) : ι → σ → Option σ := fun item state =>
  if ok (step item state).1 then some (step item state).2 else none

theorem runAll_whenOk {step : ι → σ → ρ × σ} {ok : ρ → Bool} {items : List ι} {state after : σ} :
    runAll (whenOk step ok) items state = some after ↔
      Succeeds step ok items state ∧ (runUntil step ok items state).2 = after := by
  induction items generalizing state with
  | nil => simp [runAll, Succeeds]
  | cons item rest ih =>
      by_cases h : ok (step item state).1 = true
      · rw [runUntil_cons_of_ok h]
        simp [runAll, whenOk, Succeeds, h, ← ih]
      · simp [runAll, whenOk, Succeeds, h]

/-! ## Counted loops -/

section Counted

variable {τ : Type}

/-- The rule of a counted loop: an invariant that knows the number of rounds done. -/
theorem foldl_invariant {P : Nat → σ → Prop} {n : Nat} {f : σ → Fin n → σ} {init : σ}
    (start : P 0 init) (step : ∀ (i : Fin n) state, P i state → P (i + 1) (f state i)) :
    P n (Fin.foldl n f init) := by
  induction n with
  | zero => rwa [Fin.foldl_zero]
  | succ n ih =>
      rw [Fin.foldl_succ_last]
      exact step (Fin.last n) _ (ih fun i => step i.castSucc)

/-- Two counted loops whose rounds keep their states related. -/
theorem foldl_related {R : σ → τ → Prop} {n : Nat} {f : σ → Fin n → σ} {g : τ → Fin n → τ}
    {init : σ} {init' : τ} (start : R init init')
    (step : ∀ i state state', R state state' → R (f state i) (g state' i)) :
    R (Fin.foldl n f init) (Fin.foldl n g init') := by
  induction n with
  | zero => rwa [Fin.foldl_zero, Fin.foldl_zero]
  | succ n ih =>
      rw [Fin.foldl_succ_last, Fin.foldl_succ_last]
      exact step (Fin.last n) _ _ (ih fun i => step i.castSucc)

/-- A counted loop that writes one item a round, from the front on. -/
theorem getElem_foldl_set {α : Type} {m n : Nat} (h : n ≤ m) (g : Fin n → α) (init : Vector α m)
    {t : Nat} (ht : t < n) :
    (Fin.foldl n (fun v i => v.set i.val (g i) (by omega)) init)[t] = g ⟨t, ht⟩ := by
  induction n with
  | zero => omega
  | succ n ih =>
      rw [Fin.foldl_succ_last]
      show (Vector.set (Fin.foldl n (fun v i => v.set i.val (g i.castSucc) _) init) n _ _)[t] = _
      rw [Vector.getElem_set]
      by_cases hnew : n = t
      · subst hnew
        rw [if_pos rfl]
        rfl
      · rw [if_neg hnew]
        exact ih (by omega) (fun i => g i.castSucc) (by omega)

/-- A counted loop that writes one item a round, from a position on. -/
theorem toList_foldl_set {α : Type} {m n p : Nat} (h : p + n ≤ m) (g : Fin n → α)
    (init : Vector α m) :
    (Fin.foldl n (fun v i => v.set (p + i.val) (g i) (by omega)) init).toList =
      init.toList.take p ++ List.ofFn g ++ init.toList.drop (p + n) := by
  induction n with
  | zero =>
      rw [Fin.foldl_zero, List.ofFn_zero, List.append_nil, Nat.add_zero,
        List.take_append_drop]
  | succ n ih =>
      have hlength :
          (init.toList.take p ++ List.ofFn fun i : Fin n => g i.castSucc).length = p + n := by
        rw [List.length_append, List.length_take, List.length_ofFn, Vector.length_toList]
        omega
      have hlt : p + n < init.toList.length := by
        rw [Vector.length_toList]
        omega
      rw [Fin.foldl_succ_last, Vector.toList_set]
      show List.set (Vector.toList (Fin.foldl n
        (fun v i => v.set (p + i.val) (g i.castSucc) _) init))
        (p + n) _ = _
      rw [ih (by omega), List.ofFn_succ_last, List.drop_eq_getElem_cons hlt,
        List.set_append_right _ _ (Nat.le_of_eq hlength), hlength, Nat.sub_self, List.set_cons_zero]
      simp only [List.append_assoc, List.singleton_append, Nat.add_assoc]

end Counted

end DynamicProperties.Library.Sequence
