import Mathlib.Logic.Function.Basic
import DynamicProperties.Library.OrderedMap

/-!
# Named collections of entries, and their key sets

A store looks up a collection by a reference; a collection is an ordered map, or
missing.  `Action` is what a client can ask of such a store, and `act` is its
meaning: the store afterwards, or nothing where the action is refused.

How many keys each collection holds after some actions can be computed from key
sets alone.  `Shape` keeps, of each collection, whether it exists and which keys
it has; `Shape.act` is the meaning of an action there.  The two meanings commute
(`shapeOf_act`): a store and its shape refuse the same actions and stay in step.

A store may be cut down to the references some actions name (`restrict`): what
they do there is what they do everywhere (`act_restrict`).
-/

namespace DynamicProperties.Library.Collections

open Std
open DynamicProperties.Library.OrderedMap

/-- What happens to values that arrive where a collection may exist already. -/
inductive Policy where
  | failIfExists
  | merge
  | replace
  deriving DecidableEq

/-- A store as a function from references to collections. -/
abbrev Look (ρ κ ν : Type) [Ord κ] := ρ → Option (ExtTreeMap κ ν compare)

inductive Action (ρ κ ν : Type) [Ord κ] where
  /-- Write entries, creating the collection. -/
  | put (ref : ρ) (entries : List (κ × ν))
  /-- Remove keys; a strict removal asks for all of them. -/
  | remove (ref : ρ) (keys : List κ) (strict : Bool)
  /-- Empty a collection, or drop it. -/
  | clear (ref : ρ) (drop : Bool)
  /-- Carry a whole collection elsewhere, and drop it here if asked. -/
  | carry (source destination : ρ) (policy : Policy) (drop : Bool)
  /-- Copy one entry, and drop the original if asked. -/
  | transfer (source : ρ) (sourceKey : κ) (destination : ρ) (destinationKey : κ)
      (overwrite drop : Bool)
  /-- Bring entries in from outside. -/
  | bring (destination : ρ) (values : ExtTreeMap κ ν compare) (policy : Policy)

/-- The references an action names. -/
def Action.refs {ρ κ ν : Type} [Ord κ] : Action ρ κ ν → List ρ
  | put ref _ => [ref]
  | remove ref _ _ => [ref]
  | clear ref _ => [ref]
  | carry source destination _ _ => [source, destination]
  | transfer source _ destination _ _ _ => [source, destination]
  | bring destination _ _ => [destination]

variable {ρ κ ν : Type} [DecidableEq ρ] [Ord κ] [TransOrd κ] [LawfulEqOrd κ] [DecidableEq κ]

/-- What a destination holds after values arrive. -/
def arrive (policy : Policy) (existing : Option (ExtTreeMap κ ν compare))
    (values : ExtTreeMap κ ν compare) : Option (ExtTreeMap κ ν compare) :=
  match policy, existing with
  | .failIfExists, some _ => none
  | .merge, some existing => some (overlay existing values)
  | _, _ => some values

/-- The store after an action, or nothing where it is refused. -/
def act : Action ρ κ ν → Look ρ κ ν → Option (Look ρ κ ν)
  | .put ref entries, look =>
      some (Function.update look ref (some (insertEntries ((look ref).getD ∅) entries)))
  | .remove ref keys strict, look =>
      if strict ∧ ∃ key ∈ keys, key ∉ (look ref).getD ∅ then none
      else some (Function.update look ref ((look ref).map (eraseAll · keys)))
  | .clear ref drop, look => some (Function.update look ref (if drop then none else some ∅))
  | .carry source destination policy drop, look =>
      (look source).bind fun values =>
        (arrive policy (look destination) values).map fun arrived =>
          let look := Function.update look destination (some arrived)
          if drop then Function.update look source none else look
  | .transfer source sourceKey destination destinationKey overwrite drop, look =>
      ((look source).bind (·[sourceKey]?)).bind fun value =>
        if destinationKey ∈ (look destination).getD ∅ ∧ !overwrite then none
        else
          let look := Function.update look destination
            (some (((look destination).getD ∅).insert destinationKey value))
          some (if drop then Function.update look source ((look source).map (·.erase sourceKey))
            else look)
  | .bring destination values policy, look =>
      (arrive policy (look destination) values).map fun arrived =>
        Function.update look destination (some arrived)

omit [LawfulEqOrd κ] [DecidableEq κ] in
/-- An action leaves the collections it does not name alone. -/
theorem act_frame {action : Action ρ κ ν} {look after : Look ρ κ ν}
    (h : act action look = some after) {r : ρ} (hr : r ∉ action.refs) : after r = look r := by
  cases action with
  | put ref entries =>
      have hne : r ≠ ref := fun heq => hr (List.mem_singleton.mpr heq)
      rw [act, Option.some.injEq] at h
      rw [← h, Function.update_of_ne hne]
  | remove ref keys strict =>
      have hne : r ≠ ref := fun heq => hr (List.mem_singleton.mpr heq)
      rw [act] at h
      split at h
      · cases h
      · rw [← Option.some.inj h, Function.update_of_ne hne]
  | clear ref drop =>
      have hne : r ≠ ref := fun heq => hr (List.mem_singleton.mpr heq)
      rw [act, Option.some.injEq] at h
      rw [← h, Function.update_of_ne hne]
  | carry source destination policy drop =>
      have hsource : r ≠ source := fun heq => hr (List.mem_cons.mpr (.inl heq))
      have hdestination : r ≠ destination := fun heq =>
        hr (List.mem_cons_of_mem _ (List.mem_singleton.mpr heq))
      obtain ⟨values, -, hrest⟩ := Option.bind_eq_some_iff.mp h
      obtain ⟨arrived, -, rfl⟩ := Option.map_eq_some_iff.mp hrest
      cases drop with
      | false => exact Function.update_of_ne hdestination _ look
      | true =>
          exact (Function.update_of_ne hsource _ _).trans
            (Function.update_of_ne hdestination _ look)
  | transfer source sourceKey destination destinationKey overwrite drop =>
      have hsource : r ≠ source := fun heq => hr (List.mem_cons.mpr (.inl heq))
      have hdestination : r ≠ destination := fun heq =>
        hr (List.mem_cons_of_mem _ (List.mem_singleton.mpr heq))
      obtain ⟨value, -, hrest⟩ := Option.bind_eq_some_iff.mp h
      split at hrest
      · cases hrest
      · obtain rfl := Option.some.inj hrest
        cases drop with
        | false => exact Function.update_of_ne hdestination _ look
        | true =>
            exact (Function.update_of_ne hsource _ _).trans
              (Function.update_of_ne hdestination _ look)
  | bring destination values policy =>
      have hne : r ≠ destination := fun heq => hr (List.mem_singleton.mpr heq)
      obtain ⟨arrived, -, rfl⟩ := Option.map_eq_some_iff.mp h
      exact Function.update_of_ne hne _ look

/-! ## Shapes -/

/-- Of each collection, its keys and whether it exists. -/
@[ext] structure Shape (ρ κ : Type) where
  keys : ρ → Finset κ
  present : ρ → Bool

namespace Shape

/-- Rewrite what is known of one collection. -/
def write (shape : Shape ρ κ) (ref : ρ) (keys : Finset κ) (present : Bool) : Shape ρ κ :=
  ⟨Function.update shape.keys ref keys, Function.update shape.present ref present⟩

def arrive (shape : Shape ρ κ) (policy : Policy) (ref : ρ) (arriving : Finset κ) :
    Option (Shape ρ κ) :=
  if policy = .failIfExists ∧ shape.present ref then none
  else
    some (shape.write ref
      (if policy = .merge ∧ shape.present ref then shape.keys ref ∪ arriving else arriving) true)

/-- The shape after an action, or nothing where it is refused. -/
def act : Action ρ κ ν → Shape ρ κ → Option (Shape ρ κ)
  | .put ref entries, shape =>
      some (shape.write ref (shape.keys ref ∪ (entries.map Prod.fst).toFinset) true)
  | .remove ref keys strict, shape =>
      if strict ∧ ∃ key ∈ keys, key ∉ shape.keys ref then none
      else some (shape.write ref (shape.keys ref \ keys.toFinset) (shape.present ref))
  | .clear ref drop, shape => some (shape.write ref ∅ (!drop))
  | .carry source destination policy drop, shape =>
      if !shape.present source then none
      else (shape.arrive policy destination (shape.keys source)).map fun shape =>
        if drop then shape.write source ∅ false else shape
  | .transfer source sourceKey destination destinationKey overwrite drop, shape =>
      if sourceKey ∉ shape.keys source then none
      else if destinationKey ∈ shape.keys destination ∧ !overwrite then none
      else
        let shape := shape.write destination (insert destinationKey (shape.keys destination)) true
        some (if drop then
            shape.write source ((shape.keys source).erase sourceKey) (shape.present source)
          else shape)
  | .bring destination values policy, shape =>
      shape.arrive policy destination (keySet values)

end Shape

/-- The shape of a store. -/
def shapeOf (look : Look ρ κ ν) : Shape ρ κ :=
  ⟨fun ref => keySet ((look ref).getD ∅), fun ref => (look ref).isSome⟩

omit [DecidableEq ρ] [LawfulEqOrd κ] in
@[simp] theorem shapeOf_keys (look : Look ρ κ ν) (ref : ρ) :
    (shapeOf look).keys ref = keySet ((look ref).getD ∅) := rfl

omit [DecidableEq ρ] [LawfulEqOrd κ] in
@[simp] theorem shapeOf_present (look : Look ρ κ ν) (ref : ρ) :
    (shapeOf look).present ref = (look ref).isSome := rfl

omit [LawfulEqOrd κ] in
/-- Rewriting a collection rewrites its shape. -/
theorem shapeOf_update (look : Look ρ κ ν) (ref : ρ)
    (content : Option (ExtTreeMap κ ν compare)) :
    shapeOf (Function.update look ref content) =
      (shapeOf look).write ref (keySet (content.getD ∅)) content.isSome :=
  Shape.ext
    (Function.comp_update (fun held : Option (ExtTreeMap κ ν compare) => keySet (held.getD ∅))
      look ref content)
    (Function.comp_update Option.isSome look ref content)

/-- Values arrive at a shape as they arrive at the store. -/
theorem shapeOf_arrive (look : Look ρ κ ν) (policy : Policy) (ref : ρ)
    (values : ExtTreeMap κ ν compare) :
    (shapeOf look).arrive policy ref (keySet values) =
      (arrive policy (look ref) values).map fun arrived =>
        shapeOf (Function.update look ref (some arrived)) := by
  cases hlook : look ref with
  | none => cases policy <;> simp [Shape.arrive, arrive, hlook, shapeOf_update]
  | some existing => cases policy <;> simp [Shape.arrive, arrive, hlook, shapeOf_update]

/-- Removing a key from a collection, where there is one. -/
theorem shapeOf_erase (look : Look ρ κ ν) (ref : ρ) (key : κ) :
    (shapeOf look).write ref (((shapeOf look).keys ref).erase key) ((shapeOf look).present ref) =
      shapeOf (Function.update look ref ((look ref).map (·.erase key))) := by
  rw [shapeOf_update]
  cases hlook : look ref <;> simp [hlook]

private theorem shapeOf_transfer (look : Look ρ κ ν) (source : ρ) (sourceKey : κ)
    (destination : ρ) (destinationKey : κ) (overwrite drop : Bool) :
    (shapeOf look).act (.transfer source sourceKey destination destinationKey overwrite drop :
        Action ρ κ ν) =
      (act (.transfer source sourceKey destination destinationKey overwrite drop) look).map
        shapeOf := by
  cases hvalue : (look source).bind (·[sourceKey]?) with
  | none =>
      have hkey : sourceKey ∉ (shapeOf look).keys source := by
        cases hsource : look source with
        | none => simp [hsource]
        | some held => simpa [hsource] using hvalue
      simp only [Shape.act, act, hvalue, if_pos hkey, Option.bind_none, Option.map_none]
  | some value =>
      obtain ⟨held, hsource, hheld⟩ := Option.bind_eq_some_iff.mp hvalue
      have hkey : ¬ sourceKey ∉ (shapeOf look).keys source := by
        have hmem : sourceKey ∈ held := ExtTreeMap.mem_iff_isSome_getElem?.mpr (by simp [hheld])
        simpa [hsource] using hmem
      simp only [Shape.act, act, hvalue, if_neg hkey, Option.bind_some]
      have hblocked : destinationKey ∈ (shapeOf look).keys destination ↔
          destinationKey ∈ (look destination).getD ∅ := by simp
      by_cases hblock : destinationKey ∈ (look destination).getD ∅ ∧ (!overwrite) = true
      · rw [if_pos hblock, if_pos ⟨hblocked.mpr hblock.1, hblock.2⟩]
        rfl
      · rw [if_neg hblock, if_neg fun h => hblock ⟨hblocked.mp h.1, h.2⟩]
        have hwritten : (shapeOf look).write destination
            (insert destinationKey ((shapeOf look).keys destination)) true =
              shapeOf (Function.update look destination
                (some (((look destination).getD ∅).insert destinationKey value))) := by
          rw [shapeOf_update]
          simp
        rw [hwritten]
        cases drop with
        | false => rfl
        | true =>
            simp only [if_true, Option.map_some]
            rw [shapeOf_erase]

/-- **A store and its shape stay in step.** -/
theorem shapeOf_act (action : Action ρ κ ν) (look : Look ρ κ ν) :
    (shapeOf look).act action = (act action look).map shapeOf := by
  cases action with
  | put ref entries =>
      simp [Shape.act, act, shapeOf_update, keySet_insertEntries]
  | remove ref keys strict =>
      simp only [Shape.act, act, shapeOf_keys, mem_keySet]
      split
      · rfl
      · cases hlook : look ref <;> simp [shapeOf_update, hlook]
  | clear ref drop => cases drop <;> simp [Shape.act, act, shapeOf_update]
  | carry source destination policy drop =>
      cases hsource : look source with
      | none => simp [Shape.act, act, hsource]
      | some values =>
          simp only [Shape.act, act, shapeOf_present, shapeOf_keys, hsource, Option.isSome_some,
            Bool.not_true, Bool.false_eq_true, if_false, Option.getD_some, shapeOf_arrive,
            Option.bind_some, Option.map_map]
          congr 1
          funext arrived
          cases drop with
          | false => rfl
          | true => simp [shapeOf_update]
  | transfer source sourceKey destination destinationKey overwrite drop =>
      exact shapeOf_transfer look source sourceKey destination destinationKey overwrite drop
  | bring destination values policy =>
      simp only [Shape.act, act, shapeOf_arrive, Option.map_map]
      rfl

/-! ## What every entry satisfies -/

section Entries

/-- Every entry of a collection passes. -/
def Holds (P : κ → Prop) (Q : ν → Prop) (values : ExtTreeMap κ ν compare) : Prop :=
  ∀ key value, values[key]? = some value → P key ∧ Q value

/-- Every entry of every collection passes. -/
def Everywhere (P : κ → Prop) (Q : ν → Prop) (look : Look ρ κ ν) : Prop :=
  ∀ ref values, look ref = some values → Holds P Q values

/-- Every key and value the action itself brings passes. -/
def Action.Supplies (P : κ → Prop) (Q : ν → Prop) : Action ρ κ ν → Prop
  | put _ entries => ∀ entry ∈ entries, P entry.1 ∧ Q entry.2
  | transfer _ _ _ destinationKey _ _ => P destinationKey
  | bring _ values _ => Holds P Q values
  | _ => True

variable {P : κ → Prop} {Q : ν → Prop}

omit [LawfulEqOrd κ] [DecidableEq κ] in
theorem holds_empty : Holds P Q (∅ : ExtTreeMap κ ν compare) := by
  intro key value h
  simp at h

omit [DecidableEq κ] in
theorem Holds.insert {values : ExtTreeMap κ ν compare} (h : Holds P Q values) {key : κ} {value : ν}
    (hkey : P key) (hvalue : Q value) : Holds P Q (values.insert key value) := by
  intro k v hentry
  by_cases heq : key = k
  · subst heq
    rw [ExtTreeMap.getElem?_insert_self, Option.some.injEq] at hentry
    exact ⟨hkey, hentry ▸ hvalue⟩
  · rw [getElem?_insert_of_ne heq] at hentry
    exact h k v hentry

omit [DecidableEq κ] in
theorem Holds.insertEntries {values : ExtTreeMap κ ν compare} (h : Holds P Q values)
    {entries : List (κ × ν)} (hentries : ∀ entry ∈ entries, P entry.1 ∧ Q entry.2) :
    Holds P Q (insertEntries values entries) := by
  intro k v hentry
  rcases entry_of_insertEntries hentry with hold | hmem
  · exact h k v hold
  · exact hentries _ hmem

omit [DecidableEq κ] in
theorem Holds.arrive {policy : Policy} {existing : Option (ExtTreeMap κ ν compare)}
    {values arrived : ExtTreeMap κ ν compare} (hvalues : Holds P Q values)
    (hexisting : ∀ old, existing = some old → Holds P Q old)
    (h : arrive policy existing values = some arrived) : Holds P Q arrived := by
  cases policy <;> cases existing <;> simp only [Collections.arrive, Option.some.injEq,
    reduceCtorEq] at h <;> subst h
  case merge.some old =>
    intro k v hentry
    rcases entry_of_overlay hentry with hold | hnew
    · exact hexisting old rfl k v hold
    · exact hvalues k v hnew
  all_goals exact hvalues

namespace Everywhere

variable {look : Look ρ κ ν} (h : Everywhere P Q look)

include h

omit [DecidableEq ρ] [DecidableEq κ] [LawfulEqOrd κ] in
theorem getD (ref : ρ) : Holds P Q ((look ref).getD ∅) := by
  cases hlook : look ref with
  | none => exact holds_empty
  | some values => exact h ref values hlook

omit [DecidableEq κ] [LawfulEqOrd κ] in
theorem update (ref : ρ) {content : Option (ExtTreeMap κ ν compare)}
    (hcontent : ∀ values, content = some values → Holds P Q values) :
    Everywhere P Q (Function.update look ref content) := by
  intro r values hread
  by_cases heq : r = ref
  · subst heq
    rw [Function.update_self] at hread
    exact hcontent values hread
  · rw [Function.update_of_ne heq] at hread
    exact h r values hread

omit [DecidableEq κ] in
/-- Removing keys leaves only entries that were there. -/
theorem eraseAll (ref : ρ) (keys : List κ) :
    Everywhere P Q (Function.update look ref ((look ref).map (OrderedMap.eraseAll · keys))) := by
  refine h.update ref fun values hread => ?_
  obtain ⟨old, hold, rfl⟩ := Option.map_eq_some_iff.mp hread
  exact fun k v hentry => h ref old hold k v (entry_of_eraseAll hentry)

omit [DecidableEq κ] in
/-- **What an action writes was there before, or it brought it.** -/
theorem act {action : Action ρ κ ν} (hsupplies : action.Supplies P Q) {after : Look ρ κ ν}
    (hact : act action look = some after) : Everywhere P Q after := by
  cases action with
  | put ref entries =>
      rw [Collections.act, Option.some.injEq] at hact
      subst hact
      refine h.update ref fun values hread => ?_
      obtain rfl := Option.some.inj hread
      exact (h.getD ref).insertEntries hsupplies
  | remove ref keys strict =>
      rw [Collections.act] at hact
      split at hact
      · cases hact
      · obtain rfl := Option.some.inj hact
        exact h.eraseAll ref keys
  | clear ref drop =>
      rw [Collections.act, Option.some.injEq] at hact
      subst hact
      refine h.update ref fun values hread => ?_
      cases drop with
      | true => cases hread
      | false =>
          obtain rfl := Option.some.inj hread
          exact holds_empty
  | carry source destination policy drop =>
      obtain ⟨values, hsource, hrest⟩ := Option.bind_eq_some_iff.mp hact
      obtain ⟨arrived, harrive, rfl⟩ := Option.map_eq_some_iff.mp hrest
      have harrived : Everywhere P Q (Function.update look destination (some arrived)) := by
        refine h.update destination fun written hread => ?_
        obtain rfl := Option.some.inj hread
        exact (h source values hsource).arrive (h destination) harrive
      cases drop with
      | false => exact harrived
      | true => exact harrived.update source fun values hread => by cases hread
  | transfer source sourceKey destination destinationKey overwrite drop =>
      obtain ⟨value, hvalue, hrest⟩ := Option.bind_eq_some_iff.mp hact
      obtain ⟨held, hsource, hheld⟩ := Option.bind_eq_some_iff.mp hvalue
      split at hrest
      · cases hrest
      · obtain rfl := Option.some.inj hrest
        have hwritten : Everywhere P Q (Function.update look destination
            (some (((look destination).getD ∅).insert destinationKey value))) := by
          refine h.update destination fun written hread => ?_
          obtain rfl := Option.some.inj hread
          exact (h.getD destination).insert hsupplies (h source held hsource _ _ hheld).2
        cases drop with
        | false => exact hwritten
        | true => exact hwritten.eraseAll source [sourceKey]
  | bring destination values policy =>
      obtain ⟨arrived, harrive, rfl⟩ := Option.map_eq_some_iff.mp hact
      refine h.update destination fun written hread => ?_
      obtain rfl := Option.some.inj hread
      exact Holds.arrive hsupplies (h destination) harrive

end Everywhere

end Entries

/-! ## Cutting a store down to some references -/

section Restrict

open Classical in
/-- The store with nothing outside the named references. -/
noncomputable def restrict (named : ρ → Prop) (look : Look ρ κ ν) : Look ρ κ ν := fun ref =>
  if named ref then look ref else none

variable {named : ρ → Prop}

omit [DecidableEq ρ] [TransOrd κ] [LawfulEqOrd κ] [DecidableEq κ] in
theorem restrict_of_named {look : Look ρ κ ν} {ref : ρ} (h : named ref) :
    restrict named look ref = look ref := if_pos h

omit [DecidableEq ρ] [TransOrd κ] [LawfulEqOrd κ] [DecidableEq κ] in
theorem restrict_of_not_named {look : Look ρ κ ν} {ref : ρ} (h : ¬ named ref) :
    restrict named look ref = none := if_neg h

omit [TransOrd κ] [LawfulEqOrd κ] [DecidableEq κ] in
/-- Naming one more reference lets its collection show. -/
theorem restrict_or_eq (look : Look ρ κ ν) (ref : ρ) :
    restrict (fun r => named r ∨ r = ref) look =
      Function.update (restrict named look) ref (look ref) := by
  funext r
  by_cases heq : r = ref
  · subst heq
    simp [restrict]
  · rw [Function.update_of_ne heq]
    by_cases hr : named r
    · exact (if_pos (Or.inl hr)).trans (if_pos hr).symm
    · exact (if_neg fun h => h.elim hr heq).trans (if_neg hr).symm

omit [TransOrd κ] [LawfulEqOrd κ] [DecidableEq κ] in
theorem restrict_update {look : Look ρ κ ν} {ref : ρ} (h : named ref)
    (content : Option (ExtTreeMap κ ν compare)) :
    restrict named (Function.update look ref content) =
      Function.update (restrict named look) ref content := by
  funext r
  by_cases heq : r = ref
  · subst heq
    rw [restrict_of_named h, Function.update_self, Function.update_self]
  · simp [restrict, heq]

omit [LawfulEqOrd κ] [DecidableEq κ] in
/-- An action that names only such references does the same on the cut-down
store. -/
theorem act_restrict {action : Action ρ κ ν} (h : ∀ ref ∈ action.refs, named ref)
    (look : Look ρ κ ν) :
    act action (restrict named look) = (act action look).map (restrict named) := by
  cases action with
  | put ref entries =>
      have href : named ref := h ref (by simp [Action.refs])
      simp [act, restrict_update href, restrict_of_named href]
  | remove ref keys strict =>
      have href : named ref := h ref (by simp [Action.refs])
      simp only [act, restrict_of_named href]
      split
      · rfl
      · simp [restrict_update href]
  | clear ref drop =>
      have href : named ref := h ref (by simp [Action.refs])
      simp [act, restrict_update href]
  | carry source destination policy drop =>
      have hs : named source := h source (by simp [Action.refs])
      have hd : named destination := h destination (by simp [Action.refs])
      simp only [act, restrict_of_named hs, restrict_of_named hd]
      cases look source with
      | none => rfl
      | some values =>
          simp only [Option.bind_some, Option.map_map]
          congr 1
          funext arrived
          cases drop <;> simp [restrict_update hs, restrict_update hd]
  | transfer source sourceKey destination destinationKey overwrite drop =>
      have hs : named source := h source (by simp [Action.refs])
      have hd : named destination := h destination (by simp [Action.refs])
      simp only [act, restrict_of_named hs, restrict_of_named hd]
      cases (look source).bind (·[sourceKey]?) with
      | none => rfl
      | some value =>
          simp only [Option.bind_some]
          split
          · rfl
          · cases drop with
            | false => simp [restrict_update hd]
            | true =>
                have hwritten : ∀ content,
                    restrict named (Function.update look destination content) =
                    Function.update (restrict named look) destination content :=
                  restrict_update hd
                simp only [if_true, Option.map_some, ← hwritten, restrict_of_named hs]
                rw [restrict_update hs]
  | bring destination values policy =>
      have hd : named destination := h destination (by simp [Action.refs])
      simp only [act, restrict_of_named hd, Option.map_map]
      congr 1
      funext arrived
      exact (restrict_update hd _).symm

end Restrict

end DynamicProperties.Library.Collections
