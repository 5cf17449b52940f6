import DynamicProperties.Library.AtomicSections
import DynamicProperties.Cpp.Legality

/-!
# The commits, with their lock

`Service` treats what a function does while it holds `mutation_mutex_` as one request.
Here the blocks under `std::lock_guard` are written out: the thread locks the recursive
mutex, checks and captures one adapter call at a time, calls the adapter, and unlocks.
Any number of threads call any number of services of one adapter, which share the mutex;
listeners and sinks are foreign code whose thread may call the services again.

* `locked_agree`: the blocks are atomic.  Every run of the threads in which targets come
  and go between the blocks is matched by a run of `serviceSystem`, so that what holds of
  all its runs holds of the threads.
* `locked_disciplined`: one block at a time, no callback inside, never locked twice.
* `locked_completes`: the calls never wait for each other in a circle.
-/

namespace DynamicProperties.Cpp

open DynamicProperties.Library
open DynamicProperties.Library.Requests
open DynamicProperties.Library.AtomicSections
open DynamicProperties.Library.Threads (LockRequest locking)

/-! ## The blocks under the lock -/

/-- The adapter's functions, each of which takes the adapter's own mutex once. -/
inductive AdapterRequest where
  | capture (ref : CollectionRef)
  | apply (operation : DynamicPropertyOperation) (force : Bool)
  | transact (transaction : DynamicPropertyTransaction)
  | flush (target : DynamicPropertyTarget)

abbrev AdapterResponse : AdapterRequest → Type
  | .capture _ => CaptureResult
  | .apply _ _ => OperationResult
  | .transact _ => TransactionResult
  | .flush _ => OperationResult

abbrev adapterInterface : Interface := ⟨AdapterRequest, AdapterResponse⟩

/-- What the adapter does when it is called. -/
def handleAdapter (adapter : InMemoryAdapter) :
    (r : AdapterRequest) → AdapterResponse r × InMemoryAdapter
  | .capture ref => (adapter.capture ref, adapter)
  | .apply operation force => adapter.apply operation force
  | .transact transaction => adapter.transact transaction
  | .flush target => (adapter.flush target, adapter)

abbrev AdapterProgram := Program adapterInterface

def adapterCapture (ref : CollectionRef) : AdapterProgram CaptureResult :=
  Program.call (.capture ref) .done

def adapterApply (operation : DynamicPropertyOperation) (force : Bool) :
    AdapterProgram OperationResult :=
  Program.call (.apply operation force) .done

def adapterTransact (transaction : DynamicPropertyTransaction) :
    AdapterProgram TransactionResult :=
  Program.call (.transact transaction) .done

def adapterFlush (target : DynamicPropertyTarget) : AdapterProgram OperationResult :=
  Program.call (.flush target) .done

namespace DynamicPropertyService

variable (service : DynamicPropertyService)

/-- `validateOperation` of each operation, then `validatePropertyLimits` of all. -/
def revalidateBlock (operations : List DynamicPropertyOperation) (context : AccessContext) :
    AdapterProgram (Option OperationResult) :=
  match service.validateOperations operations context with
  | some error => pure (some error)
  | none => validatePropertyLimits adapterCapture service.limits operations

/-- The block of `apply`. -/
def applyBlock (operation : DynamicPropertyOperation) (context : AccessContext) (force : Bool) :
    AdapterProgram (Except OperationResult OperationResult) := do
  match ← service.revalidateBlock [operation] context with
  | some error => pure (.error error)
  | none => do
      let result ← adapterApply operation force
      pure (.ok result)

/-- The commit of `transact`, or the error that prevented it. -/
def transactAttempt (transaction : DynamicPropertyTransaction) (context : AccessContext) :
    AdapterProgram (Except OperationResult TransactionResult) := do
  match ← service.revalidateBlock transaction.operations context with
  | some error => pure (.error error)
  | none => do
      let result ← adapterTransact transaction
      pure (.ok result)

/-- The block of `transact`. -/
def transactBlock (transaction : DynamicPropertyTransaction) (context : AccessContext)
    (collections : List CollectionRef) : AdapterProgram TransactCommit := do
  let before ← captureEach adapterCapture collections
  let outcome ← service.transactAttempt transaction context
  let after ← captureEach adapterCapture collections
  pure ⟨before, outcome, after⟩

end DynamicPropertyService

/-- The requests that are blocks under the lock. -/
def lockedBlocks : Bodies serviceInterface adapterInterface
  | .commitApply service operation context force =>
      some (service.applyBlock operation context force)
  | .commitTransact service transaction context collections =>
      some (service.transactBlock transaction context collections)
  | .revalidate service operation context => some (service.revalidateBlock [operation] context)
  | .flush target => some (adapterFlush target)
  | _ => none

/-- `flush` locks before its checks. -/
def DynamicPropertyService.lockedFlush (service : DynamicPropertyService)
    (target : DynamicPropertyTarget) :
    Program (locking serviceInterface adapterInterface) CallResult :=
  match service.validateCapability target
      <|> requireCapability service.capabilities.persistenceFlush
        "adapter does not support persistence flush" with
  | some error => guarded (.done ()) fun _ => .done (.operation error)
  | none => guarded (adapterFlush target) fun result => .done (.operation result)

/-- The program of a call, with its lock. -/
def ServiceCall.lockedProgram (format : NumberFormat) (call : ServiceCall) :
    Program (locking serviceInterface adapterInterface) CallResult :=
  match call with
  | .flush service target => service.lockedFlush target
  | call => expand lockedBlocks (call.program format)

/-- Foreign code that a call runs on its own thread. -/
def IsCallback : Request → Prop
  | .invoke _ _ _ _ => True
  | .record _ _ => True
  | _ => False

/-- Any number of threads over one world, in some surroundings. -/
def lockedSystem (format : NumberFormat) (surroundings : Bool → World → World → Prop) :
    Threads.System serviceInterface adapterInterface World InMemoryAdapter ServiceCall
      CallResult where
  program := ServiceCall.lockedProgram format
  act := Acts
  interferes := surroundings
  callback := IsCallback
  get world := world.adapter
  put adapter world := { world with adapter }
  handle := handleAdapter

/-- Targets come and go only while nobody owns the mutex. -/
def BetweenBlocks (owned : Bool) (world world' : World) : Prop :=
  Interferes world world' ∧ (owned = true → world'.adapter = world.adapter)

/-! ## What the blocks do alone -/

theorem run_captureEach (refs : List CollectionRef) (adapter : InMemoryAdapter) :
    run handleAdapter (captureEach adapterCapture refs) adapter =
      (Id.run (captureEach (fun ref => pure (adapter.capture ref)) refs), adapter) := by
  induction refs with
  | nil => rfl
  | cons ref rest ih =>
      unfold captureEach
      simp only [adapterCapture, Program.call_bind, Program.done_bind, run_call, run_bind,
        handleAdapter, ih, Program.pure_eq, run_done, Id.run_bind, Id.run_pure]

theorem run_captureShadow (refs : List CollectionRef) (adapter : InMemoryAdapter) :
    ∀ shadow, run handleAdapter (captureShadow adapterCapture refs shadow) adapter =
      (Id.run (captureShadow (fun ref => pure (adapter.capture ref)) refs shadow), adapter) := by
  induction refs with
  | nil => exact fun shadow => rfl
  | cons ref rest ih =>
      intro shadow
      unfold captureShadow
      simp only [adapterCapture, Program.call_bind, Program.done_bind, run_call, handleAdapter,
        Id.run_bind, Id.run_pure]
      split
      · exact ih _
      · rfl

theorem run_validatePropertyLimits (limits : ValidationLimits)
    (operations : List DynamicPropertyOperation) (adapter : InMemoryAdapter) :
    run handleAdapter (validatePropertyLimits adapterCapture limits operations) adapter =
      (limitError adapter limits operations, adapter) := by
  unfold limitError validatePropertyLimits
  rw [run_bind, run_captureShadow, Id.run_bind]
  dsimp only
  split
  · rfl
  · split <;> rfl

namespace DynamicPropertyService

variable (service : DynamicPropertyService) (adapter : InMemoryAdapter)

theorem run_revalidateBlock (operations : List DynamicPropertyOperation)
    (context : AccessContext) :
    run handleAdapter (service.revalidateBlock operations context) adapter =
      (service.commitError adapter operations context, adapter) := by
  unfold revalidateBlock commitError
  cases service.validateOperations operations context with
  | some error => rfl
  | none => exact run_validatePropertyLimits _ _ _

theorem run_applyBlock (operation : DynamicPropertyOperation) (context : AccessContext)
    (force : Bool) :
    run handleAdapter (service.applyBlock operation context force) adapter =
      service.commitApply adapter operation context force := by
  unfold applyBlock commitApply
  rw [run_bind, run_revalidateBlock]
  dsimp only
  cases service.commitError adapter [operation] context with
  | some error => rfl
  | none => rfl

theorem run_transactAttempt (transaction : DynamicPropertyTransaction) (context : AccessContext)
    (collections : List CollectionRef) :
    run handleAdapter (service.transactAttempt transaction context) adapter =
      ((service.commitTransact adapter transaction context collections).1.outcome,
        (service.commitTransact adapter transaction context collections).2) := by
  unfold transactAttempt commitTransact
  rw [run_bind, run_revalidateBlock]
  dsimp only
  cases service.commitError adapter transaction.operations context with
  | some error => rfl
  | none => rfl

theorem run_transactBlock (transaction : DynamicPropertyTransaction) (context : AccessContext)
    (collections : List CollectionRef) :
    run handleAdapter (service.transactBlock transaction context collections) adapter =
      service.commitTransact adapter transaction context collections := by
  unfold transactBlock
  simp only [run_bind, run_captureEach, service.run_transactAttempt adapter transaction context
    collections, Program.pure_eq, run_done]
  unfold commitTransact
  cases service.commitError adapter transaction.operations context with
  | some error => rfl
  | none => rfl

end DynamicPropertyService

/-- **The blocks do what the requests do.** -/
theorem run_blocks {r : Request} {block : AdapterProgram (Response r)}
    (h : lockedBlocks r = some block) (world : World) :
    respond world r =
      ((run handleAdapter block world.adapter).1,
        { world with adapter := (run handleAdapter block world.adapter).2 }) := by
  cases r with
  | commitApply service operation context force =>
      cases h
      rw [service.run_applyBlock]
      rfl
  | commitTransact service transaction context collections =>
      cases h
      rw [service.run_transactBlock]
      rfl
  | revalidate service operation context =>
      cases h
      rw [service.run_revalidateBlock]
      rfl
  | flush target =>
      cases h
      rfl
  | _ => cases h

/-! ## Each block writes at most once -/

theorem reads_capture (ref : CollectionRef) :
    Reads (B := adapterInterface) handleAdapter (.capture ref) :=
  fun _ => rfl

theorem reads_captureEach (refs : List CollectionRef) :
    Issues (I := adapterInterface) (Reads handleAdapter) (captureEach adapterCapture refs) := by
  induction refs with
  | nil => trivial
  | cons ref rest ih =>
      exact issues_call_bind (reads_capture ref) fun captured => issues_bind ih fun _ => trivial

theorem reads_captureShadow (refs : List CollectionRef) :
    ∀ shadow, Issues (I := adapterInterface) (Reads handleAdapter)
      (captureShadow adapterCapture refs shadow) := by
  induction refs with
  | nil => exact fun shadow => trivial
  | cons ref rest ih =>
      intro shadow
      refine issues_call_bind (reads_capture ref) fun captured => ?_
      split
      · exact ih _
      · trivial

theorem reads_revalidateBlock (service : DynamicPropertyService)
    (operations : List DynamicPropertyOperation) (context : AccessContext) :
    Issues (I := adapterInterface) (Reads handleAdapter)
      (service.revalidateBlock operations context) := by
  unfold DynamicPropertyService.revalidateBlock
  cases service.validateOperations operations context with
  | some error => trivial
  | none =>
      refine issues_bind (reads_captureShadow _ _) fun outcome => ?_
      cases outcome with
      | error error => trivial
      | ok shadow =>
          dsimp only
          split <;> trivial

theorem writesOnce_blocks {r : Request} {block : AdapterProgram (Response r)}
    (h : lockedBlocks r = some block) : WritesOnce (B := adapterInterface) handleAdapter block := by
  cases r with
  | commitApply service operation context force =>
      cases h
      refine writesOnce_bind_left (reads_revalidateBlock service _ context) fun outcome => ?_
      cases outcome with
      | some error => trivial
      | none => exact Or.inr fun _ => trivial
  | commitTransact service transaction context collections =>
      cases h
      refine writesOnce_bind_left (reads_captureEach collections) fun before => ?_
      refine writesOnce_bind_right ?_ fun outcome =>
        issues_bind (reads_captureEach collections) fun _ => trivial
      refine writesOnce_bind_left (reads_revalidateBlock service _ context) fun outcome => ?_
      cases outcome with
      | some error => trivial
      | none => exact Or.inr fun _ => trivial
  | revalidate service operation context =>
      cases h
      exact writesOnce_of_reads (reads_revalidateBlock service _ context)
  | flush target =>
      cases h
      exact Or.inl ⟨fun _ => rfl, fun _ => trivial⟩
  | _ => cases h

/-! ## The refinement -/

/-- A request that is no block leaves the adapter alone. -/
theorem blocks_none_quiet {r : Request} (h : lockedBlocks r = none) : Quiet r := by
  cases r with
  | commitApply service operation context force => cases h
  | commitTransact service transaction context collections => cases h
  | _ => trivial

theorem acts_of_respond {world : World} {r : Request} {response : Response r} {world' : World}
    (h : respond world r = (response, world')) : Acts world r response world' := by
  have hacts := acts_respond world r
  rw [h] at hacts
  exact hacts

/-- Checking under the lock or before it comes to the same. -/
theorem lockedFlush_implements (service : DynamicPropertyService)
    (target : DynamicPropertyTarget) :
    Implements lockedBlocks
      (service.flush target >>= fun result => pure (CallResult.operation result))
      (service.lockedFlush target) := by
  unfold DynamicPropertyService.lockedFlush DynamicPropertyService.flush
  generalize (service.validateCapability target
    <|> DynamicPropertyService.requireCapability service.capabilities.persistenceFlush
      "adapter does not support persistence flush") = refused
  cases refused with
  | some error => exact .idle (.done _)
  | none =>
      exact @Implements.guarded _ _ _ lockedBlocks (.flush target) (adapterFlush target) _ _ rfl
        fun result => .done (CallResult.operation result)

theorem lockedProgram_implements (format : NumberFormat) (call : ServiceCall) :
    Implements lockedBlocks (call.program format) (call.lockedProgram format) := by
  cases call with
  | flush service target => exact lockedFlush_implements service target
  | _ => exact implements_expand lockedBlocks _

theorem locked_refines (format : NumberFormat) :
    Refines (serviceSystem format) (lockedSystem format BetweenBlocks) lockedBlocks where
  get_put _ _ := rfl
  put_get _ := rfl
  implements := lockedProgram_implements format
  outside _ _ _ _ hblock hact :=
    ⟨hact, acts_quiet (blocks_none_quiet hblock) hact⟩
  interferes _ _ _ h := h
  writesOnce _ _ h := writesOnce_blocks h
  section_acts _ _ h _ := acts_of_respond (run_blocks h _)

section Threads

variable {format : NumberFormat} {surroundings : Bool → World → World → Prop} {T : Type}
  {init : World}
  {state : Threads.State serviceInterface adapterInterface World T ServiceCall CallResult}

/-- Two threads flush: the first owns the lock, the second waits for it. -/
def contendedFlush :
    Threads.State serviceInterface adapterInterface World Bool ServiceCall CallResult where
  world := {}
  mutex := some (false, 1)
  calls :=
    [⟨false, .flush {} {}, 1, lift (adapterFlush {}) >>= fun result =>
        Program.call LockRequest.release fun _ => .done (.operation result)⟩,
      ⟨true, .flush {} {}, 0, DynamicPropertyService.lockedFlush {} {}⟩]

theorem contendedFlush_run :
    Threads.Run (lockedSystem silentFormat BetweenBlocks) {} contendedFlush := by
  have hnil : Threads.Run (lockedSystem silentFormat BetweenBlocks) {}
    (⟨{}, none, []⟩ : Threads.State _ _ _ Bool _ _) := .nil
  have hfirst := hnil.move (.start _ false (.flush {} {}) (by simp))
  have hboth := hfirst.move (.start _ true (.flush {} {}) (by simp))
  have hlocked : Threads.Advances (lockedSystem silentFormat BetweenBlocks)
      ⟨{}, none, [] ++ ⟨false, .flush {} {}, 0, guarded (adapterFlush {}) fun result =>
        .done (.operation result)⟩ ::
          [⟨true, .flush {} {}, 0, DynamicPropertyService.lockedFlush {} {}⟩]⟩
      contendedFlush := by
    refine .step (fun c hc hthread => ?_) (.acquire .free)
    rw [List.mem_singleton.mp hc] at hthread
    cases hthread
  exact hboth.move (.advance hlocked)

/-- **The blocks are atomic.**  If targets come and go between the blocks only, every run
of threads that lock is matched by a run of calls whose commits are single steps, with the
same world, the same calls and the same results. -/
theorem locked_agree (hrun : Threads.Run (lockedSystem format BetweenBlocks) init state) :
    ∃ upper, Pool.Run (serviceSystem format) init upper ∧ upper.world = state.world ∧
      List.Forall₂ (fun (c : Pool.Call _ _ _ _) (d : Threads.Call _ _ _ _ _) => c.job = d.job ∧
        ∀ result, d.rest = .done result → c.Returned result) upper.calls state.calls := by
  obtain ⟨upper, hupper, hagree⟩ := agree_of_run (locked_refines format) hrun
  exact ⟨upper, hupper, hagree.world, hagree.returned⟩

/-- The theorem at two threads that contend for the lock. -/
theorem locked_agree_contendedFlush :
    ∃ upper, Pool.Run (serviceSystem silentFormat) {} upper ∧
      upper.world = contendedFlush.world ∧
      List.Forall₂ (fun (c : Pool.Call _ _ _ _) (d : Threads.Call _ _ _ _ _) => c.job = d.job ∧
        ∀ result, d.rest = .done result → c.Returned result) upper.calls contendedFlush.calls :=
  locked_agree contendedFlush_run

/-- **One block at a time.**  Whatever the surroundings do: the thread in a block owns the
mutex, locked once, and nobody else is in a block; no callback begins or ends while its
thread owns the mutex. -/
theorem locked_disciplined (hrun : Threads.Run (lockedSystem format surroundings) init state) :
    state.calls.Pairwise (fun c c' => c.guards = 0 ∨ c'.guards = 0) ∧
      (∀ c ∈ state.calls, c.guards ≠ 0 → c.guards = 1 ∧ state.mutex = some (c.thread, 1)) ∧
      (∀ thread depth, state.mutex = some (thread, depth) →
        depth = 1 ∧ ∃ c ∈ state.calls, c.thread = thread ∧ c.guards = 1) ∧
      ∀ earlier c later, state.calls = earlier ++ c :: later →
        c.AtCallback (lockedSystem format surroundings) →
        (∀ c' ∈ later, c'.thread = c.thread → c'.Finished) →
        ∀ depth, state.mutex ≠ some (c.thread, depth) := by
  have h := hrun.disciplined fun call => (lockedProgram_implements format call).bracketed
  refine ⟨h.exclusive, fun c hc hheld => ⟨(h.bracketed c hc).guards_eq_one hheld,
    h.owner c hc hheld⟩, fun thread depth hmutex => ?_, ?_⟩
  · obtain ⟨c, hc, hthread, hheld⟩ := h.holder thread depth hmutex
    have howner := hmutex.symm.trans (h.owner c hc hheld)
    refine ⟨(Prod.mk.inj (Option.some.inj howner)).2, c, hc, hthread, ?_⟩
    exact (h.bracketed c hc).guards_eq_one hheld
  · obtain ⟨world, mutex, calls⟩ := state
    rintro earlier c later hcalls hcallback htop
    change calls = _ at hcalls
    subst hcalls
    exact h.callback_unlocked hcallback htop

/-- The theorem at two threads that contend for the lock: one is inside, the other not. -/
theorem locked_disciplined_contendedFlush :
    contendedFlush.calls.Pairwise (fun c c' => c.guards = 0 ∨ c'.guards = 0) ∧
      contendedFlush.calls.map Threads.Call.guards = [1, 0] :=
  ⟨(locked_disciplined contendedFlush_run).1, rfl⟩

/-- **No deadlock.**  However the threads are scheduled from a reachable state, the calls
in flight stop only when all of them have returned, and they do stop. -/
theorem locked_completes (hrun : Threads.Run (lockedSystem format surroundings) init state) :
    Acc (fun after before => Threads.Advances (lockedSystem format surroundings) before after)
        state ∧
      ∀ state',
        Relation.ReflTransGen (Threads.Advances (lockedSystem format surroundings)) state state' →
        (∃ c ∈ state'.calls, ¬ c.Finished) →
        ∃ next, Threads.Advances (lockedSystem format surroundings) state' next := by
  have h := hrun.disciplined fun call => (lockedProgram_implements format call).bracketed
  refine ⟨(Threads.advances_wellFounded _).apply state, fun state' hreaches hunfinished => ?_⟩
  exact h.completes (fun world r => ⟨_, _, acts_respond world r⟩) hreaches hunfinished

/-- The theorem at two threads that contend for the lock: one of them can go on. -/
theorem locked_completes_contendedFlush :
    ∃ next, Threads.Advances (lockedSystem silentFormat BetweenBlocks) contendedFlush next := by
  refine (locked_completes contendedFlush_run).2 contendedFlush .refl
    ⟨_, List.mem_cons_self, ?_⟩
  rintro ⟨result, hrest⟩
  cases hrest

end Threads

end DynamicProperties.Cpp
