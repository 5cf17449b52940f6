import DynamicProperties.Library.TwoRuns
import DynamicProperties.Python.StoreIntegrity

/-!
# Calls of the Python service that nobody disturbs

A call that runs without interruption, with no listener on its bus.  Every capture
reads the adapter the call started with, so the preflight and the check in the
commit agree, and `apply` is its validation and its commit (`returns_apply`).
-/

namespace DynamicProperties.Python

open DynamicProperties.Library
open DynamicProperties.Library.Requests
open DynamicProperties.Library.Raising
open DynamicProperties.Library.TwoRuns

section Requests

variable {digest : Canonical → UInt64} {world world' : World}

/-- A program of quiet requests leaves the adapter as it was. -/
theorem returns_quiet {α : Type} {p : ServiceProgram α}
    (hp : Issues (I := serviceInterface) Quiet p) {a : α}
    (h : Returns (I := serviceInterface) (Acts digest) p world a world') :
    world'.adapter = world.adapter ∧ world'.eventBuses = world.eventBuses :=
  h.invariant (J := fun w => w.adapter = world.adapter ∧ w.eventBuses = world.eventBuses)
    (fun _ _ _ _ hquiet hact hkept =>
      have hstep := acts_quiet_setting hquiet hact
      ⟨hstep.1.trans hkept.1, hstep.2.trans hkept.2⟩) hp ⟨rfl, rfl⟩

theorem returns_capture {ref : CollectionRef} {captured : Except PyError CaptureResult}
    (h : Returns (I := serviceInterface) (Acts digest) (Ask.capture ref).run world captured
      world') :
    captured = world.adapter.capture digest ref ∧ world' = world := by
  obtain ⟨response, hact, hcaptured⟩ := returns_attempt h
  have hanswer : (response, world') = (world.adapter.capture digest ref, world) := hact
  exact ⟨hcaptured.trans (congrArg Prod.fst hanswer), congrArg Prod.snd hanswer⟩

theorem returns_captureShadow {refs : List CollectionRef} :
    ∀ {shadow : Shadow} {outcome : Except PyError (Except OperationResult Shadow)},
      Returns (I := serviceInterface) (Acts digest) (captureShadowOver Ask.capture refs shadow).run
        world outcome world' →
      outcome = captureShadow digest world.adapter refs shadow ∧ world' = world := by
  induction refs with
  | nil =>
      intro shadow outcome h
      exact returns_done h
  | cons ref rest ih =>
      intro shadow outcome h
      unfold captureShadow captureShadowOver
      rcases returns_then h with ⟨error, hcapture, rfl⟩ | ⟨captured, between, hcapture, hrest⟩
      · obtain ⟨hraised, rfl⟩ := returns_capture hcapture
        rw [← hraised]
        exact ⟨rfl, rfl⟩
      · obtain ⟨htaken, rfl⟩ := returns_capture hcapture
        rw [← htaken]
        rw [Fallible.ok_bind]
        cases hsnapshot : captured.snapshot with
        | some snapshot =>
            rw [hsnapshot] at hrest
            exact ih hrest
        | none =>
            rw [hsnapshot] at hrest
            exact returns_done hrest

/-- The preflight reads the limits off the adapter it finds. -/
theorem returns_validatePropertyLimits {limits : ValidationLimits} {operations : List Operation}
    {error : Except PyError (Option OperationResult)}
    (h : Returns (I := serviceInterface) (Acts digest)
      (validatePropertyLimitsOver Ask.capture limits operations).run world error world') :
    error = validatePropertyLimits digest world.adapter limits operations ∧ world' = world := by
  unfold validatePropertyLimits validatePropertyLimitsOver
  rcases returns_then h with ⟨raised, hshadow, rfl⟩ | ⟨outcome, between, hshadow, hrest⟩
  · obtain ⟨hraised, rfl⟩ := returns_captureShadow hshadow
    rw [captureShadow] at hraised
    rw [← hraised]
    exact ⟨rfl, rfl⟩
  · obtain ⟨hcaptured, rfl⟩ := returns_captureShadow hshadow
    rw [captureShadow] at hcaptured
    rw [← hcaptured]
    cases outcome with
    | error refused => exact returns_done hrest
    | ok shadow =>
        rw [Fallible.ok_bind]
        dsimp only at hrest ⊢
        split at hrest
        next hover =>
          rw [if_pos hover]
          exact returns_done hrest
        next hover =>
          rw [if_neg hover]
          exact returns_done hrest

theorem returns_captureEach {refs : List CollectionRef} :
    ∀ {taken : Except PyError (List CollectionSnapshot)} {world' : World},
      Returns (I := serviceInterface) (Acts digest) (captureEach Ask.capture refs).run world taken
        world' →
      taken = captureEach (world.adapter.capture digest) refs ∧ world' = world := by
  induction refs with
  | nil => exact fun h => returns_done h
  | cons ref rest ih =>
      intro taken world' h
      unfold captureEach
      rcases returns_then h with ⟨error, hcapture, rfl⟩ | ⟨captured, between, hcapture, hrest⟩
      · obtain ⟨hraised, rfl⟩ := returns_capture hcapture
        rw [← hraised]
        exact ⟨rfl, rfl⟩
      · obtain ⟨htaken, rfl⟩ := returns_capture hcapture
        rw [← htaken, Fallible.ok_bind]
        rcases returns_then hrest with ⟨error, hothers, rfl⟩ | ⟨snapshots, middle, hothers, hlast⟩
        · obtain ⟨hraised, rfl⟩ := ih hothers
          rw [← hraised]
          exact ⟨rfl, rfl⟩
        · obtain ⟨hsnapshots, rfl⟩ := ih hothers
          rw [← hsnapshots]
          exact returns_done hlast

end Requests

/-! ## Without listeners -/

section Publishing

variable {digest : Canonical → UInt64} {service : DynamicPropertyService} {world world' : World}

/-- Nobody subscribed to the bus. -/
def Unheard (world : World) (bus : Nat) : Prop :=
  ∀ event, (world.eventBuses bus).listenersFor event = []

theorem returns_publish {bus : Nat} {event : Event} {published : Event × List Nat}
    (hunheard : Unheard world bus)
    (h : Returns (I := serviceInterface) (Acts digest) (publish bus event) world published world') :
    published = (event, []) ∧ world' = world := by
  obtain ⟨listeners, between, hmatch, hrest⟩ := returns_bind h
  obtain ⟨response, middle, hact, hdone⟩ := returns_call hmatch
  obtain ⟨rfl, rfl⟩ := returns_done hdone
  have hanswer : (listeners, between) = ((world.eventBuses bus).listenersFor event, world) := hact
  rw [hunheard event] at hanswer
  obtain ⟨rfl, rfl⟩ := Prod.mk.inj hanswer
  exact returns_done hrest

/-- An announcement that nobody hears cancels nothing. -/
theorem returns_before {kind : EventKind} {operation : Operation} {context : AccessContext}
    {transactionId : Str} {cancellable : Bool} {answer : Except PyError Event}
    (hunheard : Unheard world service.eventBus)
    {taken : List CollectionSnapshot}
    (htaken : captureEach (world.adapter.capture digest) (operationRefs operation) = .ok taken)
    (h : Returns (I := serviceInterface) (Acts digest)
      (service.before kind operation context transactionId cancellable).run world answer world') :
    ∃ event, answer = .ok event ∧ event.cancelled = false ∧ world' = world := by
  rcases returns_then h with ⟨error, hcaptures, rfl⟩ | ⟨captured, between, hcaptures, hrest⟩
  · obtain ⟨hraised, rfl⟩ := returns_captureEach hcaptures
    rw [htaken] at hraised
    cases hraised
  · obtain ⟨-, rfl⟩ := returns_captureEach hcaptures
    obtain ⟨published, after, hpublish, hanswer⟩ := returns_lift_bind hrest
    obtain ⟨rfl, rfl⟩ := returns_publish hunheard hpublish
    obtain ⟨rfl, rfl⟩ := returns_done hanswer
    cases cancellable with
    | false => exact ⟨_, rfl, rfl, rfl⟩
    | true => exact ⟨_, rfl, rfl, rfl⟩

end Publishing

/-! ## The call is its validation and its commit -/

section Apply

variable {digest : Canonical → UInt64} {service : DynamicPropertyService} {operation : Operation}
  {context : AccessContext} {world world' : World} {result : Except PyError OperationResult}

theorem returns_applyCommit {transactionId : Str}
    (h : Returns (I := serviceInterface) (Acts digest)
      (service.applyCommit operation context false transactionId).run world result world') :
    result = answerOf (service.commitApply digest world.adapter operation false).1 ∧
      world'.adapter = (service.commitApply digest world.adapter operation false).2 := by
  have hcommit : ∀ {response : Except PyError (Except OperationResult OperationResult)}
      {between : World},
      Acts digest world (.commitApply service operation false) response between →
        response = (service.commitApply digest world.adapter operation false).1 ∧
          between.adapter = (service.commitApply digest world.adapter operation false).2 := by
    intro response between hact
    have hanswer : (response, between) =
        respond digest world (.commitApply service operation false) := hact
    have hbetween : between = (respond digest world (.commitApply service operation false)).2 :=
      congrArg Prod.snd hanswer
    refine ⟨congrArg Prod.fst hanswer, ?_⟩
    rw [hbetween]
    rfl
  rcases returns_then h with ⟨error, hattempt, rfl⟩ | ⟨outcome, between, hattempt, hrest⟩
  · obtain ⟨response, hact, hraised⟩ := returns_attempt hattempt
    have hanswer := hcommit hact
    rw [← hanswer.1, show response = .error error from hraised.symm]
    exact ⟨rfl, hanswer.2⟩
  · obtain ⟨response, hact, hreturned⟩ := returns_attempt hattempt
    have hanswer := hcommit hact
    rw [← hanswer.1, ← hanswer.2, show response = .ok outcome from hreturned.symm]
    cases outcome with
    | error error =>
        obtain ⟨recorded, after, haudit, hreturn⟩ := returns_lift_bind hrest
        have hkept := returns_quiet (issues_audit (fun _ _ => trivial) service ..) haudit
        obtain ⟨rfl, rfl⟩ := returns_done hreturn
        exact ⟨rfl, hkept.1⟩
    | ok applied =>
        obtain ⟨published, announced, hpublish, hrest⟩ := returns_lift_bind hrest
        have hheard := returns_quiet (issues_after (fun _ hr => hr) service ..) hpublish
        obtain ⟨recorded, after, haudit, hreturn⟩ := returns_lift_bind hrest
        have hkept := returns_quiet (issues_audit (fun _ _ => trivial) service ..) haudit
        obtain ⟨rfl, rfl⟩ := returns_done hreturn
        exact ⟨rfl, hkept.1.trans hheard.1⟩

theorem returns_applyAnnounced (hunheard : Unheard world service.eventBus)
    {taken : List CollectionSnapshot}
    (htaken : captureEach (world.adapter.capture digest) (operationRefs operation) = .ok taken)
    (h : Returns (I := serviceInterface) (Acts digest)
      (service.applyAnnounced operation context false).run world result world') :
    result = answerOf (service.commitApply digest world.adapter operation false).1 ∧
      world'.adapter = (service.commitApply digest world.adapter operation false).2 := by
  rcases returns_then h with ⟨error, hid, -⟩ | ⟨transactionId, counted, hid, hrest⟩
  · obtain ⟨response, -, hanswer⟩ := returns_attempt hid
    cases hanswer
  have hcounted := returns_quiet (p := Ask.newTransactionId.run) ⟨trivial, fun _ => trivial⟩ hid
  have hunheard' : Unheard counted service.eventBus := by
    unfold Unheard
    rw [hcounted.2]
    exact hunheard
  rw [← hcounted.1] at htaken ⊢
  rcases returns_then hrest with ⟨error, hbefore, -⟩ | ⟨event, announced, hbefore, hcommit⟩
  · obtain ⟨event, hanswer, -, -⟩ := returns_before hunheard' htaken hbefore
    cases hanswer
  obtain ⟨event', hanswer, hcancelled, rfl⟩ := returns_before hunheard' htaken hbefore
  obtain rfl := Except.ok.inj hanswer
  dsimp only at hcommit
  rw [hcancelled] at hcommit
  exact returns_applyCommit hcommit

theorem captureEach_ok {ε : Type} {capture : CollectionRef → Except ε CaptureResult}
    {refs : List CollectionRef} (h : ∀ ref ∈ refs, ∃ captured, capture ref = .ok captured) :
    ∃ taken, captureEach capture refs = .ok taken := by
  induction refs with
  | nil => exact ⟨[], rfl⟩
  | cons ref rest ih =>
      obtain ⟨captured, hcapture⟩ := h ref List.mem_cons_self
      obtain ⟨taken, htaken⟩ := ih fun other hother => h other (List.mem_cons_of_mem _ hother)
      refine ⟨captured.snapshot.toList ++ taken, ?_⟩
      rw [captureEach, hcapture, Fallible.ok_bind, htaken]
      rfl

/-- What `apply` returns when nobody disturbs it: the first verdict against the
operation, or the answer of its commit. -/
def applyResult (digest : Canonical → UInt64) (service : DynamicPropertyService)
    (adapter : InMemoryAdapter) (operation : Operation) (context : AccessContext) :
    Except PyError OperationResult :=
  match service.validateOperation operation context with
  | .error raised => .error raised
  | .ok (some error) => .ok error
  | .ok none => answerOf (service.commitApply digest adapter operation false).1

/-- **An undisturbed `apply` is its validation and its commit.** -/
theorem returns_apply (hunheard : Unheard world service.eventBus)
    (h : Returns (I := serviceInterface) (Acts digest) (service.apply operation context).run world
      result world') :
    result = applyResult digest service world.adapter operation context ∧
      (service.validateOperation operation context = .ok none →
        world'.adapter = (service.commitApply digest world.adapter operation false).2) := by
  have hrefused : ∀ error, validatePropertyLimits digest world.adapter service.limits [operation] =
      .ok (some error) → service.commitApply digest world.adapter operation false =
        (.ok (.error error), world.adapter) := by
    intro error herror
    unfold DynamicPropertyService.commitApply
    rw [herror]
  unfold applyResult
  unfold DynamicPropertyService.apply at h
  simp only [Bool.false_and, Bool.false_eq_true, if_false] at h
  rcases returns_then h with ⟨raised, hvalidate, rfl⟩ | ⟨verdict, between, hvalidate, hrest⟩
  · obtain ⟨hraised, rfl⟩ := returns_done hvalidate
    rw [← hraised]
    exact ⟨rfl, nofun⟩
  obtain ⟨hverdict, rfl⟩ := returns_done hvalidate
  rw [← hverdict]
  cases verdict with
  | some error =>
      obtain ⟨rfl, rfl⟩ := returns_done hrest
      exact ⟨rfl, nofun⟩
  | none =>
      rcases returns_then hrest with ⟨raised, hlimits, rfl⟩ | ⟨error, middle, hlimits, hrest⟩
      · obtain ⟨hraised, rfl⟩ := returns_validatePropertyLimits hlimits
        unfold DynamicPropertyService.commitApply
        rw [← hraised]
        exact ⟨rfl, fun _ => rfl⟩
      obtain ⟨herror, rfl⟩ := returns_validatePropertyLimits hlimits
      cases error with
      | some error =>
          obtain ⟨rfl, rfl⟩ := returns_done hrest
          rw [hrefused error herror.symm]
          exact ⟨rfl, fun _ => rfl⟩
      | none =>
          obtain ⟨shadow, hshadow, -⟩ := validatePropertyLimits_none herror.symm
          have hcaptures : ∀ ref ∈ operationRefs operation,
              ∃ captured, middle.adapter.capture digest ref = .ok captured := by
            intro ref href
            have hnamed := mem_namedRefs.mpr ⟨operation, List.mem_singleton_self _, href⟩
            obtain ⟨captured, -, hcapture, -⟩ := captureShadow_passed hshadow ref hnamed
            exact ⟨captured, hcapture⟩
          obtain ⟨taken, htaken⟩ := captureEach_ok hcaptures
          have hcommitted := returns_applyAnnounced hunheard htaken hrest
          exact ⟨hcommitted.1, fun _ => hcommitted.2⟩

end Apply

end DynamicProperties.Python
