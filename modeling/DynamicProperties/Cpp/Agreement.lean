import DynamicProperties.Cpp.LimitSimulation
import DynamicProperties.Cpp.Legality
import DynamicProperties.Cpp.Locality

/-!
# What two stores that agree have in common

Two stores that agree on a set of references give an operation inside the set the
same result (`applyUnlocked_agree`).  So they do a transaction, and so they answer
the preflight and the revalidation, whatever they hold elsewhere.  The one list that
shows a whole store, the collections of a target, agrees after it is filtered by name.
-/

namespace DynamicProperties.Cpp

open Std
open DynamicProperties.Library
open DynamicProperties.Library.OrderedMap
open DynamicProperties.Library.Footprint

/-! ## Transactions of the adapter -/

/-- A transaction result, but for the identifier. -/
def TransactionResult.withoutId (result : TransactionResult) : TransactionResult :=
  { result with transactionId := [] }

namespace InMemoryAdapter

variable {own : CollectionRef → Prop}

/-- The loop of `transact` has the same result on both stores, up to the
identifier it was given, and leaves candidates that agree. -/
private theorem transactLoop_agree (availability : Availability) (force rollbackOnFailure : Bool)
    {operations : List DynamicPropertyOperation} (hnames : ∀ operation ∈ operations,
      NamesOnly own operation) :
    ∀ {store store' : Store} {out out' : TransactionResult}, AgreeOn own store store' →
      out.withoutId = out'.withoutId →
      (transactLoop availability force rollbackOnFailure operations store out).1.withoutId =
          (transactLoop availability force rollbackOnFailure operations store' out').1.withoutId ∧
        Option.Rel (AgreeOn own)
          (transactLoop availability force rollbackOnFailure operations store out).2
          (transactLoop availability force rollbackOnFailure operations store' out').2 := by
  induction operations with
  | nil =>
      intro store store' out out' hagree hout
      simp only [TransactionResult.withoutId, TransactionResult.mk.injEq] at hout
      obtain ⟨-, -, hresults, hrolled, -⟩ := hout
      exact ⟨by simp [transactLoop, TransactionResult.withoutId, hresults, hrolled], .some hagree⟩
  | cons operation rest ih =>
      intro store store' out out' hagree hout
      simp only [TransactionResult.withoutId, TransactionResult.mk.injEq] at hout
      obtain ⟨hstatus, hmessage, hresults, hrolled, -⟩ := hout
      have hboth : (applyUnlocked availability store operation force).1 =
            (applyUnlocked availability store' operation force).1 ∧
          AgreeOn own (applyUnlocked availability store operation force).2
            (applyUnlocked availability store' operation force).2 :=
        applyUnlocked_agree hagree (hnames operation List.mem_cons_self)
      simp only [transactLoop]
      cases hleft : applyUnlocked availability store operation force with
      | mk result after =>
          cases hright : applyUnlocked availability store' operation force with
          | mk result' after' =>
              rw [hleft, hright] at hboth
              obtain ⟨hresult, hafter⟩ := hboth
              dsimp only at hresult hafter
              subst hresult
              dsimp only
              split
              · exact ⟨by simp [TransactionResult.withoutId, hresults], .none⟩
              · refine ih (fun o ho => hnames o (List.mem_cons_of_mem _ ho)) hafter ?_
                simp [TransactionResult.withoutId, hstatus, hmessage, hresults, hrolled]

/-- A transaction inside the set has the same result on both adapters, up to its
identifier, and they agree afterwards. -/
theorem transact_agree {adapter adapter' : InMemoryAdapter}
    {transaction : DynamicPropertyTransaction}
    (havailability : adapter.availability = adapter'.availability)
    (hagree : AgreeOn own adapter.store adapter'.store)
    (hnames : ∀ operation ∈ transaction.operations, NamesOnly own operation) :
    (adapter.transact transaction).1.withoutId = (adapter'.transact transaction).1.withoutId ∧
      AgreeOn own (adapter.transact transaction).2.store
        (adapter'.transact transaction).2.store := by
  have hids : TransactionResult.withoutId
        { transactionId := text "memtx-" ++ decimal adapter.transactionCounter } =
      TransactionResult.withoutId
        { transactionId := text "memtx-" ++ decimal adapter'.transactionCounter } := rfl
  have hloop := transactLoop_agree adapter'.availability transaction.force
    transaction.rollbackOnFailure hnames hagree hids
  unfold transact
  dsimp only
  rw [havailability]
  generalize transactLoop adapter'.availability transaction.force transaction.rollbackOnFailure
    transaction.operations adapter.store _ = left at hloop ⊢
  generalize transactLoop adapter'.availability transaction.force transaction.rollbackOnFailure
    transaction.operations adapter'.store _ = right at hloop ⊢
  obtain ⟨result, candidate⟩ := left
  obtain ⟨result', candidate'⟩ := right
  obtain ⟨hresult, hcandidates⟩ := hloop
  cases hcandidates with
  | none => exact ⟨hresult, hagree⟩
  | some hcandidates => exact ⟨hresult, hcandidates⟩

/-- A transaction outside the set leaves the set alone. -/
theorem transact_outside {adapter : InMemoryAdapter} {transaction : DynamicPropertyTransaction}
    (hnames : ∀ operation ∈ transaction.operations, NamesOnly own operation) {ref : CollectionRef}
    (href : ¬ own ref) :
    contents (adapter.transact transaction).2.store ref = contents adapter.store ref := by
  by_cases happlies : adapter.AppliesAll transaction.operations transaction.force
  · rw [(transact_of_appliesAll happlies).2.2.2]
    refine Sequence.invariant (I := fun state : InMemoryAdapter =>
      contents state.store ref = contents adapter.store ref) ?_ (appliesAll_iff.mp happlies) rfl
    intro operation hop state hstate _
    rw [← hstate]
    exact applyUnlocked_outside (hnames operation hop) href
  · rw [(transact_of_not_appliesAll happlies).2.2.2]

/-- The listing of a target, filtered by name, shows only collections whose name
passes the filter. -/
theorem listCollections_agree {P : ByteString → Bool} {adapter adapter' : InMemoryAdapter}
    (havailability : adapter.availability = adapter'.availability)
    (hagree : AgreeOn (fun ref => P ref.collection = true) adapter.store adapter'.store)
    (target : DynamicPropertyTarget) :
    (adapter.listCollections target).ok = (adapter'.listCollections target).ok ∧
      ((adapter.listCollections target).ok = false →
        adapter.listCollections target = adapter'.listCollections target) ∧
      { adapter.listCollections target with
          collections := (adapter.listCollections target).collections.filter P } =
        { adapter'.listCollections target with
          collections := (adapter'.listCollections target).collections.filter P } := by
  unfold listCollections
  rw [havailability]
  split
  · exact ⟨rfl, fun _ => rfl, rfl⟩
  · have hpush : ∀ entries : List (CollectionRef × DynamicPropertyMap),
        (entries.filterMap fun entry =>
            if entry.1.target = target then some entry.1.collection else none).filter P =
          (entries.filter fun entry => P entry.1.collection).filterMap fun entry =>
            if entry.1.target = target then some entry.1.collection else none := by
      intro entries
      rw [List.filter_filterMap, List.filterMap_filter]
      apply List.filterMap_congr
      intro entry _
      by_cases htarget : entry.1.target = target <;> simp [htarget, Option.filter]
    have hlist : (adapter.store.toList.filter fun entry => P entry.1.collection) =
        adapter'.store.toList.filter fun entry => P entry.1.collection :=
      toList_filter_congr hagree
    refine ⟨rfl, fun h => by simp [ListCollectionsResult.ok] at h, ?_⟩
    rw [hpush, hpush, hlist]

theorem capture_agree {adapter adapter' : InMemoryAdapter}
    (havailability : adapter.availability = adapter'.availability)
    (hagree : AgreeOn own adapter.store adapter'.store) {ref : CollectionRef} (hown : own ref) :
    adapter.capture ref = adapter'.capture ref := by
  unfold capture
  rw [havailability]
  exact captureUnlocked_congr (hagree ref hown)

end InMemoryAdapter

/-! ## Preflight and revalidation -/

/-- The first loop of the preflight depends only on what it captures. -/
theorem captureShadow_congr {m : Type → Type} [Monad m]
    {capture capture' : CollectionRef → m CaptureResult} {refs : List CollectionRef}
    (h : ∀ ref ∈ refs, capture ref = capture' ref) :
    ∀ shadow, captureShadow capture refs shadow = captureShadow capture' refs shadow := by
  induction refs with
  | nil => exact fun shadow => rfl
  | cons ref rest ih =>
      intro shadow
      have hrest := ih fun r hr => h r (List.mem_cons_of_mem _ hr)
      simp only [captureShadow, h ref List.mem_cons_self, hrest]

section Revalidation

variable {own : CollectionRef → Prop} {adapter adapter' : InMemoryAdapter}
  {operations : List DynamicPropertyOperation}

theorem limitError_agree (havailability : adapter.availability = adapter'.availability)
    (hagree : AgreeOn own adapter.store adapter'.store)
    (hnames : ∀ operation ∈ operations, NamesOnly own operation) (limits : ValidationLimits) :
    limitError adapter limits operations = limitError adapter' limits operations := by
  have hcaptures : ∀ ref ∈ namedCollections operations,
      (pure (adapter.capture ref) : Id CaptureResult) = pure (adapter'.capture ref) := by
    intro ref href
    obtain ⟨operation, hop, hmem⟩ := mem_namedCollections.mp href
    rw [InMemoryAdapter.capture_agree havailability hagree (hnames operation hop ref hmem)]
  unfold limitError validatePropertyLimits
  rw [captureShadow_congr hcaptures]

/-- The revalidation under the commit lock gives the same error, if any. -/
theorem commitError_agree (havailability : adapter.availability = adapter'.availability)
    (hagree : AgreeOn own adapter.store adapter'.store) (service : DynamicPropertyService)
    (context : AccessContext)
    (hvalid : service.validateOperations operations context = none →
      ∀ operation ∈ operations, NamesOnly own operation) :
    service.commitError adapter operations context =
      service.commitError adapter' operations context := by
  unfold DynamicPropertyService.commitError
  cases hops : service.validateOperations operations context with
  | some error => rfl
  | none => rw [limitError_agree havailability hagree (hvalid hops)]

end Revalidation

end DynamicProperties.Cpp
