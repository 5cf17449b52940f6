import DynamicProperties.Library.TwoRuns
import DynamicProperties.Cpp.Legality

/-!
# Calls that nobody disturbs

A call that runs without interruption, with no listener on its bus.  Its captures
all read one adapter, so the checks before the announcement and the checks under
the commit lock are the same, and the call is the commit (`returns_apply`).
-/

namespace DynamicProperties.Cpp

open Std
open DynamicProperties.Library.Requests
open DynamicProperties.Library.TwoRuns

section Requests

variable {world world' : World}

/-- A program of quiet requests leaves the adapter as it was. -/
theorem returns_quiet {α : Type} {p : ServiceProgram α}
    (hp : Issues (I := serviceInterface) Quiet p) {a : α}
    (h : Returns (I := serviceInterface) Acts p world a world') :
    world'.adapter = world.adapter ∧ world'.eventBuses = world.eventBuses :=
  h.invariant (J := fun w => w.adapter = world.adapter ∧ w.eventBuses = world.eventBuses)
    (fun _ _ _ _ hquiet hact hkept =>
      have hstep := acts_quiet_setting hquiet hact
      ⟨hstep.1.trans hkept.1, hstep.2.trans hkept.2⟩) hp ⟨rfl, rfl⟩

theorem returns_capture {ref : CollectionRef} {captured : CaptureResult}
    (h : Returns (I := serviceInterface) Acts (Ask.capture ref) world captured world') :
    captured = world.adapter.capture ref ∧ world' = world := by
  obtain ⟨response, between, hact, hdone⟩ := returns_call h
  obtain ⟨rfl, rfl⟩ := returns_done hdone
  have hanswer : (captured, world') = (world.adapter.capture ref, world) := hact
  exact ⟨congrArg Prod.fst hanswer, congrArg Prod.snd hanswer⟩

theorem returns_captureShadow {refs : List CollectionRef} :
    ∀ {shadow : Shadow} {outcome : Except OperationResult Shadow},
      Returns (I := serviceInterface) Acts (captureShadow Ask.capture refs shadow) world outcome
        world' →
      outcome = Id.run (captureShadow (fun ref => pure (world.adapter.capture ref)) refs shadow) ∧
        world' = world := by
  induction refs with
  | nil =>
      intro shadow outcome h
      exact returns_done h
  | cons ref rest ih =>
      intro shadow outcome h
      obtain ⟨captured, between, hcapture, hrest⟩ := returns_bind h
      obtain ⟨rfl, rfl⟩ := returns_capture hcapture
      simp only [captureShadow, Id.run_bind, Id.run_pure]
      split at hrest
      next => exact ih hrest
      next => exact returns_done hrest

/-- The preflight reads the limits off the adapter it finds. -/
theorem returns_validatePropertyLimits {limits : ValidationLimits}
    {operations : List DynamicPropertyOperation} {error : Option OperationResult}
    (h : Returns (I := serviceInterface) Acts
      (validatePropertyLimits Ask.capture limits operations) world error world') :
    error = limitError world.adapter limits operations ∧ world' = world := by
  obtain ⟨outcome, between, hshadow, hrest⟩ := returns_bind h
  obtain ⟨houtcome, rfl⟩ := returns_captureShadow hshadow
  unfold limitError validatePropertyLimits
  rw [Id.run_bind, ← houtcome]
  cases outcome with
  | error refused => exact returns_done hrest
  | ok shadow =>
      dsimp only at hrest ⊢
      split at hrest
      next hover =>
        rw [if_pos hover]
        exact returns_done hrest
      next hover =>
        rw [if_neg hover]
        exact returns_done hrest

end Requests

/-! ## Without listeners -/

section Publishing

variable {service : DynamicPropertyService} {world world' : World}

/-- Nobody subscribed to the bus. -/
def Unheard (world : World) (bus : Nat) : Prop :=
  ∀ event, (world.eventBuses bus).listenersFor event = []

theorem returns_publish {bus : Nat} {event : DynamicPropertyEvent}
    {published : DynamicPropertyEvent × List UInt64} (hunheard : Unheard world bus)
    (h : Returns (I := serviceInterface) Acts (publish bus event) world published world') :
    published = (event, []) ∧ world' = world := by
  obtain ⟨listeners, between, hmatch, hrest⟩ := returns_bind h
  obtain ⟨response, middle, hact, hdone⟩ := returns_call hmatch
  obtain ⟨rfl, rfl⟩ := returns_done hdone
  have hanswer : (listeners, between) = ((world.eventBuses bus).listenersFor event, world) := hact
  rw [hunheard event] at hanswer
  obtain ⟨rfl, rfl⟩ := Prod.mk.inj hanswer
  exact returns_done hrest

/-- An announcement that nobody hears cancels nothing. -/
theorem returns_publishBefore {kind : DynamicPropertyEventKind}
    {operation : DynamicPropertyOperation} {context : AccessContext} {transactionId : ByteString}
    {cancellable : Bool} {answer : Bool × ByteString} (hunheard : Unheard world service.eventBus)
    (h : Returns (I := serviceInterface) Acts
      (service.publishBefore kind operation context transactionId cancellable) world answer
      world') :
    answer.1 = false := by
  obtain ⟨before, between, hcaptures, hrest⟩ := returns_bind h
  have hkept := returns_quiet (issues_captureEach fun _ _ => trivial) hcaptures
  have hunheard' : Unheard between service.eventBus := by
    unfold Unheard
    rw [hkept.2]
    exact hunheard
  obtain ⟨published, after, hpublish, hanswer⟩ := returns_bind hrest
  obtain ⟨rfl, rfl⟩ := returns_publish hunheard' hpublish
  obtain ⟨rfl, rfl⟩ := returns_done hanswer
  cases cancellable <;> rfl

end Publishing

/-! ## The call is its commit -/

/-- The result of `apply`, whether the commit refused or went to the adapter. -/
def commitResult : Except OperationResult OperationResult → OperationResult
  | .error error => error
  | .ok result => result

section Apply

variable {service : DynamicPropertyService} {operation : DynamicPropertyOperation}
  {context : AccessContext} {world world' : World} {result : OperationResult}

theorem returns_applyCommit {transactionId : ByteString}
    (h : Returns (I := serviceInterface) Acts
      (service.applyCommit operation context false transactionId) world result world') :
    result = commitResult (service.commitApply world.adapter operation context false).1 ∧
      world'.adapter = (service.commitApply world.adapter operation context false).2 := by
  obtain ⟨outcome, between, hcommit, hrest⟩ := returns_bind h
  obtain ⟨response, middle, hact, hdone⟩ := returns_call hcommit
  obtain ⟨rfl, rfl⟩ := returns_done hdone
  have hanswer : (outcome, between) =
      respond world (.commitApply service operation context false) := hact
  have houtcome : outcome = (service.commitApply world.adapter operation context false).1 :=
    congrArg Prod.fst hanswer
  have hbetween : between.adapter =
      (service.commitApply world.adapter operation context false).2 := by
    rw [show between = _ from congrArg Prod.snd hanswer]
    rfl
  rw [← houtcome, ← hbetween]
  cases outcome with
  | error error =>
      obtain ⟨recorded, after, haudit, hreturn⟩ := returns_bind hrest
      have hkept := returns_quiet (issues_audit service (fun _ hr => hr) ..) haudit
      obtain ⟨rfl, rfl⟩ := returns_done hreturn
      exact ⟨rfl, hkept.1⟩
  | ok applied =>
      obtain ⟨published, announced, hpublish, hrest⟩ := returns_bind hrest
      have hheard := returns_quiet (issues_publishAfter service (fun _ hr => hr.quiet) ..) hpublish
      obtain ⟨recorded, after, haudit, hreturn⟩ := returns_bind hrest
      have hkept := returns_quiet (issues_audit service (fun _ hr => hr) ..) haudit
      obtain ⟨rfl, rfl⟩ := returns_done hreturn
      exact ⟨rfl, hkept.1.trans hheard.1⟩

theorem returns_applyAnnounced (hunheard : Unheard world service.eventBus)
    (h : Returns (I := serviceInterface) Acts (service.applyAnnounced operation context false)
      world result world') :
    result = commitResult (service.commitApply world.adapter operation context false).1 ∧
      world'.adapter = (service.commitApply world.adapter operation context false).2 := by
  obtain ⟨transactionId, counted, hid, hrest⟩ := returns_bind h
  have hcounted := returns_quiet (p := Ask.makeTransactionId) ⟨trivial, fun _ => trivial⟩ hid
  obtain ⟨answer, announced, hbefore, hrest⟩ := returns_bind hrest
  have hunheard' : Unheard counted service.eventBus := by
    unfold Unheard
    rw [hcounted.2]
    exact hunheard
  have hgoes := returns_publishBefore hunheard' hbefore
  have hannounced := returns_quiet (issues_publishBefore service (fun _ hr => hr.quiet) ..) hbefore
  obtain ⟨cancelled, reason⟩ := answer
  obtain rfl : cancelled = false := hgoes
  rw [← hcounted.1, ← hannounced.1]
  exact returns_applyCommit hrest

/-- **An undisturbed `apply` is its commit.** -/
theorem returns_apply (hunheard : Unheard world service.eventBus)
    (h : Returns (I := serviceInterface) Acts (service.apply operation context) world result
      world') :
    result = commitResult (service.commitApply world.adapter operation context false).1 ∧
      world'.adapter = (service.commitApply world.adapter operation context false).2 := by
  have hcheck : service.commitError world.adapter [operation] context =
      (service.validateOperation operation context <|>
        limitError world.adapter service.limits [operation]) := by
    unfold DynamicPropertyService.commitError DynamicPropertyService.validateOperations
    rw [List.findSome?_singleton]
  have hrefused : ∀ error, service.commitError world.adapter [operation] context = some error →
      service.commitApply world.adapter operation context false =
        (.error error, world.adapter) := by
    intro error herror
    unfold DynamicPropertyService.commitApply
    rw [herror]
  unfold DynamicPropertyService.apply at h
  simp only [Bool.false_and, Bool.false_eq_true, if_false] at h
  split at h
  next error herror =>
    obtain ⟨rfl, rfl⟩ := returns_done h
    rw [hrefused result (by rw [hcheck, herror]; rfl)]
    exact ⟨rfl, rfl⟩
  next hvalid =>
    obtain ⟨error, between, hlimits, hrest⟩ := returns_bind h
    obtain ⟨rfl, rfl⟩ := returns_validatePropertyLimits hlimits
    cases herror : limitError between.adapter service.limits [operation] with
    | some error =>
        rw [herror] at hrest
        obtain ⟨rfl, rfl⟩ := returns_done hrest
        rw [hrefused result (by rw [hcheck, hvalid, herror]; rfl)]
        exact ⟨rfl, rfl⟩
    | none =>
        rw [herror] at hrest
        exact returns_applyAnnounced hunheard hrest

end Apply

end DynamicProperties.Cpp
