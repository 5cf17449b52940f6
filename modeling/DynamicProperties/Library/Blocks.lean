import Mathlib.Data.List.Basic

/-!
# Lists cut into blocks

`blocks n xs` are the full blocks of `n` items at the front of `xs`, and
`remainder n xs` is what is left behind them.  A consumer that takes its items one
at a time keeps the items of the current block and acts when the block is full
(`push`); `foldl_push` says that it acts on the blocks of everything it was given,
so it does not matter how the items reached it.
-/

namespace DynamicProperties.Library.Blocks

variable {α β σ : Type}

/-- The full blocks of `n` items at the front of a list. -/
def blocks (n : Nat) (xs : List α) : List (List α) :=
  if _h : 0 < n ∧ n ≤ xs.length then xs.take n :: blocks n (xs.drop n) else []
termination_by xs.length
decreasing_by
  rw [List.length_drop]
  omega

/-- The items behind the last full block. -/
def remainder (n : Nat) (xs : List α) : List α :=
  if _h : 0 < n ∧ n ≤ xs.length then remainder n (xs.drop n) else xs
termination_by xs.length
decreasing_by
  rw [List.length_drop]
  omega

section Equations

variable {n : Nat}

theorem blocks_of_short {xs : List α} (h : xs.length < n) : blocks n xs = [] := by
  rw [blocks, dif_neg (by omega)]

theorem remainder_of_short {xs : List α} (h : xs.length < n) : remainder n xs = xs := by
  rw [remainder, dif_neg (by omega)]

/-- A full block in front of a list is its first block. -/
theorem blocks_append {xs : List α} (hn : 0 < n) (h : xs.length = n) (ys : List α) :
    blocks n (xs ++ ys) = xs :: blocks n ys := by
  have hle : n ≤ (xs ++ ys).length := by
    rw [List.length_append]
    omega
  rw [blocks, dif_pos ⟨hn, hle⟩, List.take_left' h, List.drop_left' h]

theorem remainder_append {xs : List α} (hn : 0 < n) (h : xs.length = n) (ys : List α) :
    remainder n (xs ++ ys) = remainder n ys := by
  have hle : n ≤ (xs ++ ys).length := by
    rw [List.length_append]
    omega
  rw [remainder, dif_pos ⟨hn, hle⟩, List.drop_left' h]

theorem blocks_self {xs : List α} (hn : 0 < n) (h : xs.length = n) : blocks n xs = [xs] := by
  have happend := blocks_append hn h []
  rwa [List.append_nil, blocks_of_short (show ([] : List α).length < n from hn)] at happend

/-- A list is short, or it has a full block in front. -/
theorem block_induction {P : List α → Prop} (hn : 0 < n)
    (short : ∀ xs, xs.length < n → P xs)
    (block : ∀ xs ys, xs.length = n → P ys → P (xs ++ ys)) (xs : List α) : P xs := by
  induction hlength : xs.length using Nat.strongRecOn generalizing xs with
  | ind length ih =>
      by_cases hshort : xs.length < n
      · exact short xs hshort
      · rw [← List.take_append_drop n xs]
        refine block _ _ (by rw [List.length_take]; omega) (ih _ ?_ _ rfl)
        rw [List.length_drop]
        omega

/-- How many items are left behind the last block. -/
theorem remainder_length (hn : 0 < n) (xs : List α) :
    (remainder n xs).length = xs.length % n := by
  induction xs using block_induction hn with
  | short xs h => rw [remainder_of_short h, Nat.mod_eq_of_lt h]
  | block xs ys h ih => rw [remainder_append hn h, ih, List.length_append, h, Nat.add_mod_left]

theorem blocks_length (hn : 0 < n) (xs : List α) : (blocks n xs).length = xs.length / n := by
  induction xs using block_induction hn with
  | short xs h => rw [blocks_of_short h, Nat.div_eq_of_lt h, List.length_nil]
  | block xs ys h ih =>
      rw [blocks_append hn h, List.length_cons, ih, List.length_append, h, Nat.add_div_left _ hn]

/-- Blocks of items that stand for `k` smaller items each. -/
theorem blocks_flatMap {f : α → List β} {k : Nat} (hk : 0 < k) (hf : ∀ x, (f x).length = k)
    (hn : 0 < n) (xs : List α) :
    blocks (k * n) (xs.flatMap f) = (blocks n xs).map (List.flatMap f) := by
  have hlength : ∀ ys : List α, (ys.flatMap f).length = k * ys.length := fun ys => by
    induction ys with
    | nil => rfl
    | cons y ys ih =>
        rw [List.flatMap_cons, List.length_append, hf, ih, List.length_cons, Nat.mul_succ]
        omega
  induction xs using block_induction hn with
  | short xs h =>
      rw [blocks_of_short h, blocks_of_short]
      · rfl
      · rw [hlength]
        exact Nat.mul_lt_mul_of_pos_left h hk
  | block xs ys h ih =>
      rw [List.flatMap_append, blocks_append (Nat.mul_pos hk hn) (by rw [hlength, h]), ih,
        blocks_append hn h, List.map_cons]

end Equations

/-! ## Consumers -/

/-- Take one item: act when it fills the block, keep it otherwise. -/
def push (n : Nat) (step : σ → List α → σ) : σ × List α → α → σ × List α
  | (state, pending), x =>
      if pending.length + 1 = n then (step state (pending ++ [x]), [])
      else (state, pending ++ [x])

section Consumers

variable {n : Nat} {step : σ → List α → σ}

/-- **The run lemma of a consumer.**  What it was given, behind what it had kept, is
acted on block by block, and the remainder is kept. -/
theorem foldl_push (hn : 0 < n) (xs : List α) (state : σ) (pending : List α)
    (h : pending.length < n) :
    xs.foldl (push n step) (state, pending) =
      ((blocks n (pending ++ xs)).foldl step state, remainder n (pending ++ xs)) := by
  induction xs generalizing state pending with
  | nil => rw [List.append_nil, blocks_of_short h, remainder_of_short h]; rfl
  | cons x xs ih =>
      have hsplit : pending ++ x :: xs = (pending ++ [x]) ++ xs := by
        rw [List.append_assoc, List.singleton_append]
      have hlength : (pending ++ [x]).length = pending.length + 1 := List.length_append
      rw [List.foldl_cons, push, hsplit]
      by_cases hfull : pending.length + 1 = n
      · rw [if_pos hfull, ih _ [] hn, blocks_append hn (hlength.trans hfull),
          remainder_append hn (hlength.trans hfull), List.nil_append, List.foldl_cons]
      · rw [if_neg hfull, ih _ _ (by omega)]

/-- The blocks of a list, from what is left behind the blocks of a front part. -/
theorem foldl_blocks_append (hn : 0 < n) (xs ys : List α) (state : σ) :
    (blocks n (xs ++ ys)).foldl step state =
      (blocks n (remainder n xs ++ ys)).foldl step ((blocks n xs).foldl step state) := by
  have hshort : (remainder n xs).length < n := by
    rw [remainder_length hn]
    exact Nat.mod_lt _ hn
  have hwhole : (xs ++ ys).foldl (push n step) (state, []) = _ :=
    foldl_push hn (xs ++ ys) state [] hn
  have hfront : xs.foldl (push n step) (state, []) = _ := foldl_push hn xs state [] hn
  have hback : ys.foldl (push n step) ((blocks n xs).foldl step state, remainder n xs) = _ :=
    foldl_push hn ys _ _ hshort
  rw [List.foldl_append, hfront, List.nil_append, List.nil_append, hback] at hwhole
  exact (congrArg Prod.fst hwhole).symm

end Consumers

end DynamicProperties.Library.Blocks
