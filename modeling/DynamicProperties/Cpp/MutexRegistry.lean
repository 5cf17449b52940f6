import DynamicProperties.Library.OrderedMap
import DynamicProperties.Library.WeakRegistry

/-!
# The commit locks of services

`mutationMutexFor` gives the services on one adapter one mutex.  Its registry goes by
the address of the adapter, which may belong to another adapter later, and refers to the
mutexes weakly.  Here every adapter is an instance of its own, whatever its address, and
the constructors and destructors of services take their steps in any order: a constructor
copies the reference to its adapter, takes the lock of the registry and purges it, and
then finds or makes its mutex; a destructor drops the mutex first and the adapter last.
Only the lock of the registry is waited for, so destructors may take steps between the
purge and the search.
-/

namespace DynamicProperties.Cpp.MutexRegistry

open Std
open DynamicProperties.Library.OrderedMap
open DynamicProperties.Library.WeakRegistry

/-! ## The state -/

/-- An adapter that is not freed: its address, and how many references to it there are
outside of services. -/
structure AdapterInstance where
  address : Nat
  handles : Nat
  deriving DecidableEq

inductive Phase where
  | constructing
  /-- Constructed: the service holds a mutex. -/
  | holding (mutex : Nat)
  /-- The destructor has dropped the mutex. -/
  | destructing
  deriving DecidableEq

/-- `adapter_` and `mutation_mutex_`. -/
structure ServiceInstance where
  adapter : Nat
  phase : Phase
  deriving DecidableEq

structure State where
  adapters : ExtTreeMap Nat AdapterInstance compare := ∅
  services : ExtTreeMap Nat ServiceInstance compare := ∅
  /-- `registry`: the mutex an address refers to. -/
  registry : ExtTreeMap Nat Nat compare := ∅
  /-- The service whose constructor holds `registry_mutex`. -/
  locked : Option Nat := none
  /-- How many mutexes were made. -/
  mutexes : Nat := 0

namespace State

/-- `std::weak_ptr::expired`. -/
def expired (st : State) (mutex : Nat) : Bool :=
  !st.services.toList.any fun entry => entry.2.phase = .holding mutex

/-- An adapter that is not freed has the address. -/
def occupied (st : State) (address : Nat) : Bool :=
  st.adapters.toList.any fun entry => entry.2.address = address

/-- A reference to the adapter exists. -/
def referenced (st : State) (adapter : Nat) : Bool :=
  (st.adapters[adapter]?.any fun object => 0 < object.handles) ||
    st.services.toList.any fun entry => entry.2.adapter = adapter

/-- The last reference to an adapter frees it. -/
def release (st : State) (adapter : Nat) : State :=
  if st.referenced adapter then st
  else { st with adapters := st.adapters.erase adapter }

/-- The loop of `mutationMutexFor`. -/
def purge (st : State) : State :=
  { st with registry := st.registry.filter fun _ mutex => !st.expired mutex }

/-- `std::make_shared` and `insert_or_assign`. -/
def make (st : State) (address : Nat) : Nat × State :=
  (st.mutexes,
    { st with
      registry := st.registry.insert address st.mutexes
      mutexes := st.mutexes + 1 })

/-- The rest of `mutationMutexFor`: `find` and `lock`, or a new mutex. -/
def findOrMake (st : State) (address : Nat) : Nat × State :=
  match st.registry[address]? with
  | some existing => if st.expired existing then st.make address else (existing, st)
  | none => st.make address

/-- The constructor stores its mutex and gives the registry free. -/
def assign (st : State) (service adapter mutex : Nat) : State :=
  { st with
    services := st.services.insert service ⟨adapter, .holding mutex⟩
    locked := none }

end State

/-! ## Steps -/

inductive Event where
  /-- A new adapter, at an address that no adapter has. -/
  | createAdapter (adapter address : Nat)
  | copyHandle (adapter : Nat)
  | releaseHandle (adapter : Nat)
  /-- A constructor that was passed a handle of the adapter starts. -/
  | construct (service adapter : Nat)
  | lockRegistry (service : Nat)
  | assignMutex (service : Nat)
  | dropMutex (service : Nat)
  | dropAdapter (service : Nat)

/-- What an event does, if it can happen. -/
def step (st : State) : Event → Option State
  | .createAdapter adapter address =>
      if adapter ∈ st.adapters ∨ st.occupied address then none
      else some { st with adapters := st.adapters.insert adapter ⟨address, 1⟩ }
  | .copyHandle adapter =>
      match st.adapters[adapter]? with
      | some ⟨address, handles + 1⟩ =>
          some { st with adapters := st.adapters.insert adapter ⟨address, handles + 2⟩ }
      | _ => none
  | .releaseHandle adapter =>
      match st.adapters[adapter]? with
      | some ⟨address, handles + 1⟩ =>
          some (State.release
            { st with adapters := st.adapters.insert adapter ⟨address, handles⟩ } adapter)
      | _ => none
  | .construct service adapter =>
      match st.adapters[adapter]? with
      | some ⟨_, _ + 1⟩ =>
          if service ∈ st.services then none
          else some { st with services := st.services.insert service ⟨adapter, .constructing⟩ }
      | _ => none
  | .lockRegistry service =>
      match st.locked, st.services[service]? with
      | none, some ⟨_, .constructing⟩ => some { st.purge with locked := some service }
      | _, _ => none
  | .assignMutex service =>
      match st.services[service]? with
      | some ⟨adapter, .constructing⟩ =>
          match st.adapters[adapter]? with
          | some object =>
              if st.locked = some service then
                let (mutex, found) := st.findOrMake object.address
                some (found.assign service adapter mutex)
              else none
          | none => none
      | _ => none
  | .dropMutex service =>
      match st.services[service]? with
      | some ⟨adapter, .holding _⟩ =>
          some { st with services := st.services.insert service ⟨adapter, .destructing⟩ }
      | _ => none
  | .dropAdapter service =>
      match st.services[service]? with
      | some ⟨adapter, .destructing⟩ =>
          some (State.release { st with services := st.services.erase service } adapter)
      | _ => none

/-- The events happen one after another. -/
def run (st : State) : List Event → Option State
  | [] => some st
  | event :: rest => (step st event).bind fun st => run st rest

/-! ## What services hold -/

/-- The service is constructed and holds the mutex. -/
def State.Holds (st : State) (service adapter mutex : Nat) : Prop :=
  st.services[service]? = some ⟨adapter, .holding mutex⟩

instance (st : State) (service adapter mutex : Nat) :
    Decidable (st.Holds service adapter mutex) :=
  inferInstanceAs (Decidable (st.services[service]? = some ⟨adapter, .holding mutex⟩))

/-- The mutex a service holds, and the address of its adapter. -/
def State.held (st : State) (service : Nat) : Option (Nat × Nat) :=
  match st.services[service]? with
  | some ⟨adapter, .holding mutex⟩ =>
      st.adapters[adapter]?.map fun object => (object.address, mutex)
  | _ => none

theorem held_eq_some {st : State} {service address mutex : Nat} :
    st.held service = some (address, mutex) ↔ ∃ adapter object, st.Holds service adapter mutex ∧
      st.adapters[adapter]? = some object ∧ object.address = address := by
  unfold State.held State.Holds
  constructor
  · intro h
    split at h
    · next adapter mutex' hservice =>
      obtain ⟨object, hobject, heq⟩ := Option.map_eq_some_iff.mp h
      obtain ⟨rfl, rfl⟩ := Prod.mk.inj heq
      exact ⟨adapter, object, hservice, hobject, rfl⟩
    · cases h
  · rintro ⟨adapter, object, hservice, hobject, rfl⟩
    rw [hservice]
    dsimp only
    rw [hobject]
    rfl

/-- Adapters that services refer to are not freed, no two of them share an address, and
the registry shares mutexes by address. -/
structure Inv (st : State) : Prop where
  kept : ∀ (service : Nat) (object : ServiceInstance), st.services[service]? = some object →
    object.adapter ∈ st.adapters
  addresses : ∀ (a b : Nat) (object object' : AdapterInstance), st.adapters[a]? = some object →
    st.adapters[b]? = some object' → object.address = object'.address → a = b
  shares : Shares (fun address => st.registry[address]?) st.held (· < st.mutexes)

theorem inv_init : Inv {} where
  kept service object h := by
    rw [ExtTreeMap.getElem?_empty] at h
    cases h
  addresses a b object object' h := by
    rw [ExtTreeMap.getElem?_empty] at h
    cases h
  shares := by
    have hregistry : (fun address : Nat => (∅ : ExtTreeMap Nat Nat compare)[address]?) =
        fun _ => none := funext fun _ => ExtTreeMap.getElem?_empty
    have hheld : State.held {} = fun _ => none := by
      funext service
      rw [State.held, ExtTreeMap.getElem?_empty]
    show Shares (fun address : Nat => (∅ : ExtTreeMap Nat Nat compare)[address]?) _ _
    rw [hregistry, hheld]
    exact shares_none

theorem any_iff {β : Type} {m : ExtTreeMap Nat β compare} {f : Nat × β → Bool} :
    m.toList.any f = true ↔ ∃ k v, m[k]? = some v ∧ f (k, v) = true := by
  rw [List.any_eq_true]
  constructor
  · rintro ⟨⟨k, v⟩, hmem, h⟩
    exact ⟨k, v, ExtTreeMap.mem_toList_iff_getElem?_eq_some.mp hmem, h⟩
  · rintro ⟨k, v, hmem, h⟩
    exact ⟨(k, v), ExtTreeMap.mem_toList_iff_getElem?_eq_some.mpr hmem, h⟩

theorem expired_of_holding {st : State} {service adapter mutex : Nat}
    (h : st.Holds service adapter mutex) : st.expired mutex = false := by
  rw [State.expired, Bool.not_eq_false', any_iff]
  exact ⟨service, _, h, decide_eq_true rfl⟩

theorem expired_of_expired {st : State} {mutex : Nat} (h : st.expired mutex = true) :
    Expired st.held mutex := by
  intro service address hheld
  obtain ⟨adapter, object, hservice, -⟩ := held_eq_some.mp hheld
  rw [expired_of_holding hservice] at h
  cases h

section Steps

variable {st st' : State}

/-- Adapters and holders may go, and adapters keep their addresses. -/
theorem Inv.drop (h : Inv st) (hregistry : st'.registry = st.registry)
    (hmutexes : st'.mutexes = st.mutexes)
    (hadapters : ∀ (a : Nat) (object' : AdapterInstance), st'.adapters[a]? = some object' →
      ∃ object, st.adapters[a]? = some object ∧ object.address = object'.address)
    (hkept : ∀ (service : Nat) (object : ServiceInstance), st'.services[service]? = some object →
      object.adapter ∈ st'.adapters)
    (hholds : ∀ service adapter mutex, st'.Holds service adapter mutex →
      st.Holds service adapter mutex) : Inv st' where
  kept := hkept
  addresses a b object object' ha hb hsame := by
    obtain ⟨first, hfirst, haddress⟩ := hadapters a object ha
    obtain ⟨second, hsecond, haddress'⟩ := hadapters b object' hb
    exact h.addresses a b first second hfirst hsecond (by rw [haddress, haddress', hsame])
  shares := by
    rw [hregistry, hmutexes]
    refine h.shares.drop fun service address mutex hheld => ?_
    obtain ⟨adapter, object', hservice, hobject', rfl⟩ := held_eq_some.mp hheld
    obtain ⟨object, hobject, haddress⟩ := hadapters adapter object' hobject'
    exact held_eq_some.mpr
      ⟨adapter, object, hholds service adapter mutex hservice, hobject, haddress⟩

/-- Only an adapter without references is freed. -/
theorem inv_release (h : Inv st) (adapter : Nat) : Inv (st.release adapter) := by
  unfold State.release
  split
  · exact h
  next hreferenced =>
  refine h.drop rfl rfl ?_ ?_ fun _ _ _ hholds => hholds
  · intro a object hobject
    rw [ExtTreeMap.getElem?_erase] at hobject
    split at hobject
    · cases hobject
    · exact ⟨object, hobject, rfl⟩
  · intro service object hservice
    have hne : adapter ≠ object.adapter := by
      rintro rfl
      refine hreferenced (Bool.or_eq_true_iff.mpr (.inr (any_iff.mpr ?_)))
      exact ⟨service, object, hservice, decide_eq_true rfl⟩
    show object.adapter ∈ st.adapters.erase adapter
    rw [ExtTreeMap.mem_erase]
    exact ⟨by simpa using hne, h.kept service object hservice⟩

/-- An adapter that gets another number of handles. -/
theorem inv_handles (h : Inv st) {adapter address handles : Nat}
    (hadapter : st.adapters[adapter]? = some ⟨address, handles⟩) (handles' : Nat) :
    Inv { st with adapters := st.adapters.insert adapter ⟨address, handles'⟩ } := by
  refine h.drop rfl rfl ?_ ?_ fun _ _ _ hholds => hholds
  · intro a object hobject
    by_cases ha : adapter = a
    · subst ha
      rw [ExtTreeMap.getElem?_insert_self] at hobject
      obtain rfl := Option.some.inj hobject
      exact ⟨_, hadapter, rfl⟩
    · rw [getElem?_insert_of_ne ha] at hobject
      exact ⟨object, hobject, rfl⟩
  · intro service object hservice
    exact ExtTreeMap.mem_insert.mpr (.inr (h.kept service object hservice))

/-- A service that holds nothing. -/
theorem inv_service (h : Inv st) {service adapter : Nat} {phase : Phase}
    (hadapter : adapter ∈ st.adapters) (hphase : ∀ mutex, phase ≠ .holding mutex) :
    Inv { st with services := st.services.insert service ⟨adapter, phase⟩ } := by
  refine h.drop rfl rfl (fun a object hobject => ⟨object, hobject, rfl⟩) ?_ ?_
  · intro s object hservice
    by_cases hs : service = s
    · subst hs
      rw [ExtTreeMap.getElem?_insert_self] at hservice
      obtain rfl := Option.some.inj hservice
      exact hadapter
    · rw [getElem?_insert_of_ne hs] at hservice
      exact h.kept s object hservice
  · intro s a mutex hholds
    unfold State.Holds at hholds
    by_cases hs : service = s
    · subst hs
      rw [ExtTreeMap.getElem?_insert_self] at hholds
      exact absurd (congrArg ServiceInstance.phase (Option.some.inj hholds)) (hphase mutex)
    · rwa [getElem?_insert_of_ne hs] at hholds

theorem inv_erase (h : Inv st) (service : Nat) :
    Inv { st with services := st.services.erase service } := by
  have hold : ∀ (s : Nat) (object : ServiceInstance),
      (st.services.erase service)[s]? = some object → st.services[s]? = some object := by
    intro s object hservice
    rw [ExtTreeMap.getElem?_erase] at hservice
    split at hservice
    · cases hservice
    · exact hservice
  exact h.drop rfl rfl (fun a object hobject => ⟨object, hobject, rfl⟩)
    (fun s object hservice => h.kept s object (hold s object hservice))
    fun s a mutex hholds => hold s _ hholds

/-- A new adapter may take the address of one that is freed. -/
theorem inv_createAdapter (h : Inv st) {adapter address : Nat} (hnew : adapter ∉ st.adapters)
    (hfree : st.occupied address = false) :
    Inv { st with adapters := st.adapters.insert adapter ⟨address, 1⟩ } := by
  have hother : ∀ (a : Nat) (object : AdapterInstance), st.adapters[a]? = some object →
      object.address ≠ address := by
    intro a object hobject hsame
    rw [State.occupied, ← Bool.not_eq_true, any_iff] at hfree
    exact hfree ⟨a, object, hobject, decide_eq_true hsame⟩
  have hcases : ∀ (a : Nat) (object : AdapterInstance),
      (st.adapters.insert adapter ⟨address, 1⟩)[a]? = some object →
        adapter = a ∧ object.address = address ∨ st.adapters[a]? = some object := by
    intro a object hobject
    by_cases ha : adapter = a
    · subst ha
      rw [ExtTreeMap.getElem?_insert_self] at hobject
      obtain rfl := Option.some.inj hobject
      exact .inl ⟨rfl, rfl⟩
    · rw [getElem?_insert_of_ne ha] at hobject
      exact .inr hobject
  constructor
  · intro service object hservice
    exact ExtTreeMap.mem_insert.mpr (.inr (h.kept service object hservice))
  · intro a b object object' ha hb hsame
    rcases hcases a object ha with ⟨rfl, haddress⟩ | hobject <;>
      rcases hcases b object' hb with ⟨rfl, haddress'⟩ | hobject'
    · rfl
    · exact absurd (hsame ▸ haddress) (hother b object' hobject')
    · exact absurd (hsame.trans haddress') (hother a object hobject)
    · exact h.addresses a b object object' hobject hobject' hsame
  · refine h.shares.drop fun service place mutex hheld => ?_
    obtain ⟨a, object, hholds, hobject, rfl⟩ := held_eq_some.mp hheld
    have hne : adapter ≠ a := fun hsame => hnew (hsame ▸ h.kept service _ hholds)
    have hadapter : st.adapters[a]? = some object := by
      rwa [← getElem?_insert_of_ne hne]
    exact held_eq_some.mpr ⟨a, object, hholds, hadapter, rfl⟩

/-- The loop takes out no mutex that is held. -/
theorem inv_purge (h : Inv st) : Inv st.purge where
  kept := h.kept
  addresses := h.addresses
  shares := by
    have hentry : ∀ address mutex : Nat, st.purge.registry[address]? = some mutex ↔
        st.registry[address]? = some mutex ∧ st.expired mutex = false := by
      intro address mutex
      rw [State.purge, ExtTreeMap.getElem?_filter', Option.filter_eq_some_iff, Bool.not_eq_true']
    refine h.shares.purge (fun address mutex hmutex => ((hentry address mutex).mp hmutex).1) ?_
    intro service address mutex hheld
    obtain ⟨adapter, object, hholds, -⟩ := held_eq_some.mp hheld
    exact (hentry address mutex).mpr
      ⟨h.shares.registered service address mutex hheld, expired_of_holding hholds⟩

theorem inv_locked (h : Inv st) (locked : Option Nat) : Inv { st with locked := locked } :=
  ⟨h.kept, h.addresses, h.shares⟩

/-- A service that gets the mutex of its address. -/
theorem held_insert {service adapter mutex : Nat} {object : AdapterInstance}
    (hadapter : st.adapters[adapter]? = some object) (hadapters : st'.adapters = st.adapters)
    (hservices : st'.services = st.services.insert service ⟨adapter, .holding mutex⟩)
    (s address mutex' : Nat) (h : st'.held s = some (address, mutex')) :
    st.held s = some (address, mutex') ∨ address = object.address ∧ mutex' = mutex := by
  obtain ⟨a, other, hholds, hother, rfl⟩ := held_eq_some.mp h
  rw [hadapters] at hother
  rw [State.Holds, hservices] at hholds
  by_cases hs : service = s
  · subst hs
    rw [ExtTreeMap.getElem?_insert_self] at hholds
    obtain ⟨rfl, hphase⟩ := ServiceInstance.mk.inj (Option.some.inj hholds)
    rw [hadapter] at hother
    obtain rfl := Option.some.inj hother
    exact .inr ⟨rfl, (Phase.holding.inj hphase).symm⟩
  · rw [getElem?_insert_of_ne hs] at hholds
    exact .inl (held_eq_some.mpr ⟨a, other, hholds, hother, rfl⟩)

theorem findOrMake_cases (st : State) (address : Nat) :
    (∃ mutex, st.registry[address]? = some mutex ∧ st.findOrMake address = (mutex, st)) ∨
      (∀ mutex, st.registry[address]? = some mutex → Expired st.held mutex) ∧
        st.findOrMake address = st.make address := by
  unfold State.findOrMake
  cases hentry : st.registry[address]? with
  | none => exact .inr ⟨fun _ h => (by cases h), rfl⟩
  | some existing =>
      by_cases hexpired : st.expired existing = true
      · right
        refine ⟨fun mutex hmutex => ?_, if_pos hexpired⟩
        obtain rfl := Option.some.inj hmutex
        exact expired_of_expired hexpired
      · exact .inl ⟨existing, rfl, if_neg hexpired⟩

/-- The constructor finds the mutex of its address, or makes one where none is held. -/
theorem inv_findOrMake (h : Inv st) {service adapter : Nat} {object : AdapterInstance}
    (hadapter : st.adapters[adapter]? = some object) :
    Inv ((st.findOrMake object.address).2.assign service adapter
      (st.findOrMake object.address).1) := by
  have hkept : ∀ (mutex s : Nat) (other : ServiceInstance),
      (st.services.insert service ⟨adapter, .holding mutex⟩)[s]? = some other →
        other.adapter ∈ st.adapters := by
    intro mutex s other hother
    by_cases hs : service = s
    · subst hs
      rw [ExtTreeMap.getElem?_insert_self] at hother
      obtain rfl := Option.some.inj hother
      exact ExtTreeMap.mem_iff_isSome_getElem?.mpr (by rw [hadapter]; rfl)
    · rw [getElem?_insert_of_ne hs] at hother
      exact h.kept s other hother
  rcases findOrMake_cases st object.address with ⟨mutex, hentry, heq⟩ | ⟨hexpired, heq⟩
  · rw [heq]
    exact ⟨hkept mutex, h.addresses, h.shares.join hentry (held_insert hadapter rfl rfl)⟩
  · rw [heq]
    refine ⟨hkept st.mutexes, h.addresses, ?_⟩
    refine h.shares.make hexpired (Nat.lt_irrefl _) ?_ ?_ (held_insert hadapter rfl rfl)
    · show ∀ mutex, mutex < st.mutexes ∨ mutex = st.mutexes → mutex < st.mutexes + 1
      omega
    · intro address
      show (st.registry.insert object.address st.mutexes)[address]? = _
      by_cases haddress : address = object.address
      · rw [if_pos haddress, haddress, ExtTreeMap.getElem?_insert_self]
      · rw [if_neg haddress, getElem?_insert_of_ne (Ne.symm haddress)]

/-- **Every step keeps the invariant.** -/
theorem inv_step (h : Inv st) {event : Event} (hstep : step st event = some st') : Inv st' := by
  cases event with
  | createAdapter adapter address =>
      dsimp only [step] at hstep
      split at hstep
      · cases hstep
      next hfree =>
      obtain ⟨hnew, hoccupied⟩ := not_or.mp hfree
      obtain rfl := Option.some.inj hstep
      exact inv_createAdapter h hnew (Bool.eq_false_iff.mpr hoccupied)
  | copyHandle adapter =>
      dsimp only [step] at hstep
      split at hstep
      · next address handles hadapter =>
        obtain rfl := Option.some.inj hstep
        exact inv_handles h hadapter _
      · cases hstep
  | releaseHandle adapter =>
      dsimp only [step] at hstep
      split at hstep
      · next address handles hadapter =>
        obtain rfl := Option.some.inj hstep
        exact inv_release (inv_handles h hadapter _) adapter
      · cases hstep
  | construct service adapter =>
      dsimp only [step] at hstep
      split at hstep
      · next hadapter =>
        split at hstep
        · cases hstep
        obtain rfl := Option.some.inj hstep
        have hmem : adapter ∈ st.adapters :=
          ExtTreeMap.mem_iff_isSome_getElem?.mpr (by rw [hadapter]; rfl)
        exact inv_service h hmem nofun
      · cases hstep
  | lockRegistry service =>
      dsimp only [step] at hstep
      split at hstep
      · obtain rfl := Option.some.inj hstep
        exact inv_locked (inv_purge h) _
      · cases hstep
  | assignMutex service =>
      dsimp only [step] at hstep
      split at hstep
      · next adapter hservice =>
        split at hstep
        · next object hadapter =>
          split at hstep
          · obtain rfl := Option.some.inj hstep
            exact inv_findOrMake h hadapter
          · cases hstep
        · cases hstep
      · cases hstep
  | dropMutex service =>
      dsimp only [step] at hstep
      split at hstep
      · next adapter mutex hservice =>
        obtain rfl := Option.some.inj hstep
        exact inv_service h (h.kept service _ hservice) nofun
      · cases hstep
  | dropAdapter service =>
      dsimp only [step] at hstep
      split at hstep
      · next adapter hservice =>
        obtain rfl := Option.some.inj hstep
        exact inv_release (inv_erase h service) adapter
      · cases hstep

theorem inv_run (h : Inv st) {events : List Event} (hrun : run st events = some st') : Inv st' := by
  induction events generalizing st with
  | nil => exact Option.some.inj hrun ▸ h
  | cons event rest ih =>
      obtain ⟨next, hnext, hrest⟩ := Option.bind_eq_some_iff.mp hrun
      exact ih (inv_step h hnext) hrest

end Steps

/-- **Two services hold one mutex exactly when they wrap one adapter.** -/
theorem services_share_mutex {events : List Event} {st : State} (hrun : run {} events = some st)
    {service service' adapter adapter' mutex mutex' : Nat} (h : st.Holds service adapter mutex)
    (h' : st.Holds service' adapter' mutex') : mutex = mutex' ↔ adapter = adapter' := by
  have hinv : Inv st := inv_run inv_init hrun
  obtain ⟨object, hobject⟩ := Option.isSome_iff_exists.mp
    (ExtTreeMap.mem_iff_isSome_getElem?.mp (hinv.kept service _ h))
  obtain ⟨object', hobject'⟩ := Option.isSome_iff_exists.mp
    (ExtTreeMap.mem_iff_isSome_getElem?.mp (hinv.kept service' _ h'))
  have hheld : st.held service = some (object.address, mutex) :=
    held_eq_some.mpr ⟨adapter, object, h, hobject, rfl⟩
  have hheld' : st.held service' = some (object'.address, mutex') :=
    held_eq_some.mpr ⟨adapter', object', h', hobject', rfl⟩
  rw [hinv.shares.same_iff hheld hheld']
  constructor
  · exact hinv.addresses adapter adapter' object object' hobject hobject'
  · rintro rfl
    rw [hobject] at hobject'
    exact congrArg AdapterInstance.address (Option.some.inj hobject')

/-! ## An address that is used again -/

/-- The mutex of two services expires while a third one is constructed; then their adapter
is freed, and the next one has its address. -/
def reuse : List Event :=
  [.createAdapter 0 7, .construct 0 0, .lockRegistry 0, .assignMutex 0, .construct 1 0,
    .lockRegistry 1, .assignMutex 1, .construct 2 0, .lockRegistry 2, .dropMutex 0, .dropMutex 1,
    .assignMutex 2, .dropAdapter 0, .dropAdapter 1, .dropMutex 2, .releaseHandle 0, .dropAdapter 2,
    .createAdapter 1 7, .construct 3 1, .lockRegistry 3, .assignMutex 3, .createAdapter 2 8,
    .construct 4 2, .lockRegistry 4, .assignMutex 4, .construct 5 1, .lockRegistry 5,
    .assignMutex 5]

theorem services_share_mutex_reuse : ∃ st, run {} reuse = some st ∧
    (∃ mutex, st.Holds 3 1 mutex ∧ st.Holds 5 1 mutex) ∧
    ∃ mutex mutex', st.Holds 3 1 mutex ∧ st.Holds 4 2 mutex' ∧ mutex ≠ mutex' := by
  have hruns : (run {} reuse).isSome = true := by decide +kernel
  have hrun : run {} reuse = some ((run {} reuse).getD {}) := by
    obtain ⟨st, hst⟩ := Option.isSome_iff_exists.mp hruns
    rw [hst]
    rfl
  have hthird : ((run {} reuse).getD {}).Holds 3 1 2 := by decide +kernel
  have hfourth : ((run {} reuse).getD {}).Holds 4 2 3 := by decide +kernel
  have hfifth : ((run {} reuse).getD {}).Holds 5 1 2 := by decide +kernel
  refine ⟨_, hrun, ⟨2, hthird, hfifth⟩, 2, 3, hthird, hfourth, fun hsame => ?_⟩
  exact absurd ((services_share_mutex hrun hthird hfourth).mp hsame) (by decide)

end DynamicProperties.Cpp.MutexRegistry
