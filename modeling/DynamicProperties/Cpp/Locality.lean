import DynamicProperties.Cpp.Application

/-!
# What one operation touches

`AgreeOn own store store'` says that two stores hold the same for every reference in
`own`.  An operation that names only such references is applied to both with the same
result, and they agree afterwards (`applyUnlocked_agree`): `applyUnlocked` reads and
writes only the collections its operation names (`applyUnlocked_local`).  A refused operation leaves
no trace, an applied one reports exactly the captures before and after it
(`applyUnlocked_exact`), and operations on disjoint collections cannot tell in which
order they were applied (`serializations_indistinguishable`).
-/

namespace DynamicProperties.Cpp

open Std
open DynamicProperties.Library
open DynamicProperties.Library.Footprint

/-! ## Participants, once each -/

/-- The loop that skips what it has seen keeps the first mentions. -/
theorem firstMentions_eq_eraseDups {refs : List CollectionRef} :
    ∀ seen : List CollectionRef,
      firstMentions seen refs = (refs.filter fun ref => ref ∉ seen).eraseDups := by
  induction refs with
  | nil => exact fun _ => rfl
  | cons head rest ih =>
      intro seen
      by_cases hseen : head ∈ seen
      · rw [firstMentions, if_pos hseen, ih, List.filter_cons_of_neg (by simpa using hseen)]
      · rw [firstMentions, if_neg hseen, ih, List.filter_cons_of_pos (by simpa using hseen),
          List.eraseDups_cons, List.filter_filter]
        congr 2
        apply List.filter_congr
        intro ref _
        by_cases heq : ref = head <;> simp [heq]

theorem participants_eq (operation : DynamicPropertyOperation) :
    participants operation = (operationCollections operation).eraseDups := by
  rw [participants, firstMentions_eq_eraseDups]
  simp

/-- Every operation names a collection. -/
theorem operationCollections_ne_nil (operation : DynamicPropertyOperation) :
    operationCollections operation ≠ [] := by
  cases operation <;> simp [operationCollections]

/-! ## Reading only what is named -/

/-- The stores hold the same for every reference in the set. -/
def AgreeOn (own : CollectionRef → Prop) (store store' : Store) : Prop :=
  ∀ ref, own ref → contents store ref = contents store' ref

/-- Every collection the operation names is in the set. -/
def NamesOnly (own : CollectionRef → Prop) (operation : DynamicPropertyOperation) : Prop :=
  ∀ ref ∈ operationCollections operation, own ref

section Reads

variable {own : CollectionRef → Prop} {availability : Availability} {store store' : Store}
  {operation : DynamicPropertyOperation} {force : Bool}

theorem checkParticipants_agree (hagree : AgreeOn own store store') {refs : List CollectionRef}
    (hrefs : ∀ ref ∈ refs, own ref) :
    ∀ before, checkParticipants availability store operation force refs before =
      checkParticipants availability store' operation force refs before := by
  induction refs with
  | nil => exact fun before => rfl
  | cons ref rest ih =>
      intro before
      have hcapture : captureUnlocked availability store ref =
          captureUnlocked availability store' ref :=
        captureUnlocked_congr (hagree ref (hrefs ref List.mem_cons_self))
      have hrest := ih fun r hr => hrefs r (List.mem_cons_of_mem _ hr)
      simp only [checkParticipants, hcapture, hrest]

/-- The visitor takes the same branch on both stores. -/
theorem mutate_agree (hagree : AgreeOn own store store') (hnames : NamesOnly own operation) :
    (mutate store operation).2 = (mutate store' operation).2 ∧
      AgreeOn own (mutate store operation).1 (mutate store' operation).1 := by
  have hfootprint := effect_footprint operation
  refine ⟨mutate_failed_congr (hfootprint.reads _ _ fun ref href => hagree ref (hnames ref href)),
    fun ref hown => ?_⟩
  rw [contents_mutate_eq_run, contents_mutate_eq_run]
  exact hfootprint.run_agree hnames hagree hown

/-- An operation inside the set has the same result on both stores, and they
agree afterwards. -/
theorem applyUnlocked_agree (hagree : AgreeOn own store store')
    (hnames : NamesOnly own operation) :
    (applyUnlocked availability store operation force).1 =
        (applyUnlocked availability store' operation force).1 ∧
      AgreeOn own (applyUnlocked availability store operation force).2
        (applyUnlocked availability store' operation force).2 := by
  have hparticipants : ∀ ref ∈ participants operation, own ref :=
    fun ref href => hnames ref (mem_participants.mp href)
  have hchecked : checkParticipants availability store operation force (participants operation) [] =
      checkParticipants availability store' operation force (participants operation) [] :=
    checkParticipants_agree hagree hparticipants []
  obtain ⟨hfailed, hmutated⟩ := mutate_agree hagree hnames
  unfold applyUnlocked
  rw [hchecked]
  split
  · exact ⟨rfl, hagree⟩
  split
  · exact ⟨rfl, hagree⟩
  · cases hleft : mutate store operation with
    | mk after failed =>
        cases hright : mutate store' operation with
        | mk after' failed' =>
            rw [hleft, hright] at hfailed hmutated
            have hafter : (participants operation).filterMap
                (fun ref => (captureUnlocked availability after ref).snapshot) =
                (participants operation).filterMap
                  (fun ref => (captureUnlocked availability after' ref).snapshot) := by
              apply List.filterMap_congr
              intro ref href
              rw [captureUnlocked_congr (hmutated ref (hparticipants ref href))]
            dsimp only at hfailed
            subst hfailed
            cases failed with
            | some failed => exact ⟨rfl, hmutated⟩
            | none =>
                dsimp only
                rw [hafter]
                exact ⟨rfl, hmutated⟩

/-- An operation outside the set leaves the set alone. -/
theorem applyUnlocked_outside (hnames : NamesOnly own operation) {ref : CollectionRef}
    (href : ¬ own ref) :
    contents (applyUnlocked availability store operation force).2 ref = contents store ref :=
  contents_applyUnlocked_frame fun hmem => href (hnames ref hmem)

end Reads

/-- Applying an operation is local to the collections it names. -/
theorem applyUnlocked_local (availability : Availability) (operation : DynamicPropertyOperation)
    (force : Bool) :
    Local contents (fun store => applyUnlocked availability store operation force)
      (· ∈ operationCollections operation) where
  frame _ _ href := contents_applyUnlocked_frame href
  reads _ _ h := applyUnlocked_agree h fun _ href => href

/-! ## Atomic, framed, truthful -/

/-- The snapshots of available participants are their captures. -/
theorem participantSnapshots_captures {availability : Availability} {store : Store}
    {operation : DynamicPropertyOperation}
    (h : ∀ ref ∈ operationCollections operation,
      targetAvailable availability ref.target = true) :
    (participants operation).map (fun ref => (captureUnlocked availability store ref).snapshot) =
      (participantSnapshots (contents store) operation).map some := by
  rw [participantSnapshots, List.map_map]
  apply List.map_congr_left
  intro ref href
  exact captureUnlocked_available (h ref (mem_participants.mp href))

/-- **`applyUnlocked` is atomic, framed and reports truthfully.** -/
theorem applyUnlocked_exact (availability : Availability) (store : Store)
    (operation : DynamicPropertyOperation) (force : Bool) :
    ((applyUnlocked availability store operation force).1.status ≠ .applied →
      (applyUnlocked availability store operation force).2 = store) ∧
    ((applyUnlocked availability store operation force).1.status = .applied →
      (∀ ref ∉ operationCollections operation,
        (applyUnlocked availability store operation force).2[ref]? = store[ref]?) ∧
      (operationCollections operation).eraseDups.map
          (fun ref => (captureUnlocked availability store ref).snapshot) =
        (applyUnlocked availability store operation force).1.before.map some ∧
      (operationCollections operation).eraseDups.map
          (fun ref => (captureUnlocked availability
            (applyUnlocked availability store operation force).2 ref).snapshot) =
        (applyUnlocked availability store operation force).1.after.map some ∧
      ∃ last ∈ (operationCollections operation).eraseDups.getLast?,
        ∃ snapshot ∈ (captureUnlocked availability
            (applyUnlocked availability store operation force).2 last).snapshot,
          (applyUnlocked availability store operation force).1.resultingRevision =
            snapshot.revision) := by
  constructor
  · intro hstatus
    exact applyUnlocked_store_of_not_ok (by simp [OperationResult.ok, hstatus])
  · intro hstatus
    have haccepts := applyUnlocked_ok_iff.mp (OperationResult.ok_iff.mpr hstatus)
    rw [← participants_eq]
    refine ⟨fun ref href => contents_applyUnlocked_frame href, ?_, ?_, ?_⟩
    · rw [participantSnapshots_captures haccepts.available, applyUnlocked_of_accepts haccepts]
    · rw [participantSnapshots_captures haccepts.available, applyUnlocked_of_accepts haccepts]
    · have hne : participants operation ≠ [] := by
        obtain ⟨ref, href⟩ := List.exists_mem_of_ne_nil _ (operationCollections_ne_nil operation)
        exact List.ne_nil_of_mem (mem_participants.mpr href)
      have hlast := List.getLast?_eq_some_getLast hne
      have hnamed : (participants operation).getLast hne ∈ operationCollections operation :=
        mem_participants.mp (List.getLast_mem hne)
      refine ⟨_, hlast, _, captureUnlocked_available (haccepts.available _ hnamed), ?_⟩
      rw [applyUnlocked_of_accepts haccepts]
      simp only [participantSnapshots, List.getLast?_map, hlast]
      rfl

/-! ## Independent operations -/

/-- No collection is named by both operations. -/
def Independent (first second : DynamicPropertyOperation) : Prop :=
  ∀ ref ∈ operationCollections first, ref ∉ operationCollections second

instance (first second : DynamicPropertyOperation) : Decidable (Independent first second) :=
  inferInstanceAs (Decidable (∀ ref ∈ operationCollections first, _))

/-- Apply each operation in turn, each with its own `force` flag and whatever comes
of it. -/
def serialize (availability : Availability) (requests : List (DynamicPropertyOperation × Bool))
    (store : Store) : List OperationResult × Store :=
  Sequence.runEach (fun request store => applyUnlocked availability store request.1 request.2)
    requests store

/-- **The order of independent operations is invisible.**  Two of them get the same
results and leave the same store either way round, and so do any two serializations of
pairwise independent ones. -/
theorem independent_commute (availability : Availability) (store : Store) :
    (∀ (first second : DynamicPropertyOperation) (forceFirst forceSecond : Bool),
      Independent first second →
        (applyUnlocked availability (applyUnlocked availability store second forceSecond).2
            first forceFirst).1 =
          (applyUnlocked availability store first forceFirst).1 ∧
        (applyUnlocked availability (applyUnlocked availability store first forceFirst).2
            second forceSecond).1 =
          (applyUnlocked availability store second forceSecond).1 ∧
        (applyUnlocked availability (applyUnlocked availability store first forceFirst).2
            second forceSecond).2 =
          (applyUnlocked availability (applyUnlocked availability store second forceSecond).2
            first forceFirst).2) ∧
    ∀ requests requests' : List (DynamicPropertyOperation × Bool), requests.Perm requests' →
      requests.Pairwise (fun first second => Independent first.1 second.1) →
        (requests.zip (serialize availability requests store).1).Perm
            (requests'.zip (serialize availability requests' store).1) ∧
          (serialize availability requests store).2 =
            (serialize availability requests' store).2 := by
  constructor
  · intro first second forceFirst forceSecond hindependent
    exact (applyUnlocked_local availability first forceFirst).commute contents_injective
      (applyUnlocked_local availability second forceSecond) hindependent store
  · intro requests requests' hperm hindependent
    have hlocal : ∀ request : DynamicPropertyOperation × Bool,
        Local contents (fun store => applyUnlocked availability store request.1 request.2)
          (· ∈ operationCollections request.1) :=
      fun request => applyUnlocked_local availability request.1 request.2
    exact runEach_perm contents_injective hlocal hperm hindependent store

end DynamicProperties.Cpp
