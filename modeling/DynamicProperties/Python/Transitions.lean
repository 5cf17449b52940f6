import DynamicProperties.Python.Conduct
import DynamicProperties.Python.LimitSimulation

/-!
# What a transaction of the Python service reports

`transact` captures the participating collections before it announces the
transaction, commits after its listeners have answered, and then reports the captures
of the announcement as the state before the commit.  `transact_trace` takes the steps
of a call apart; `Taken.captures_iff` says when captures taken earlier are those of a
later world.
-/

namespace DynamicProperties.Python

open DynamicProperties.Library.OrderedMap
open DynamicProperties.Library.Fallible
open DynamicProperties.Library.Collections
open DynamicProperties.Library.Requests
open DynamicProperties.Library.Requests.Program
open DynamicProperties.Library.Raising

/-! ## Presented events -/

/-- The event a step matches against the filters or hands to its first listener. -/
def presentedEvent : ServiceStep → Option Event
  | ⟨_, .matchListeners _ event, _, _⟩ => some event
  | ⟨_, .invoke _ _ 0 current, _, _⟩ => some current
  | _ => none

/-- Some step presents the event. -/
def Presents (steps : List ServiceStep) (event : Event) : Prop :=
  ∃ step ∈ steps, presentedEvent step = some event

theorem presents_append {first second : List ServiceStep} {event : Event} :
    Presents (first ++ second) event ↔ Presents first event ∨ Presents second event := by
  simp only [Presents, List.mem_append, or_and_right, exists_or]

theorem presents_cons {step : ServiceStep} {steps : List ServiceStep} {event : Event} :
    Presents (step :: steps) event ↔ presentedEvent step = some event ∨ Presents steps event := by
  simp only [Presents, List.exists_mem_cons_iff]

/-! ## Requests of one sort -/

def IsCapture : Request → Prop
  | .capture _ => True
  | _ => False

def IsPublication : Request → Prop
  | .matchListeners _ _ | .invoke _ _ _ _ => True
  | _ => False

def IsRecord : Request → Prop
  | .record _ _ => True
  | _ => False

theorem not_capture_of_publication {r : Request} (h : IsPublication r) : ¬ IsCapture r := by
  cases r with
  | capture ref => exact h.elim
  | _ => exact id

theorem not_capture_of_record {r : Request} (h : IsRecord r) : ¬ IsCapture r := by
  cases r with
  | capture ref => exact h.elim
  | _ => exact id

theorem presents_not_of_captures {steps : List ServiceStep}
    (h : ∀ step ∈ steps, IsCapture step.request) (event : Event) : ¬ Presents steps event := by
  rintro ⟨⟨before, r, response, after⟩, hstep, hevent⟩
  have hcapture := h _ hstep
  cases r with
  | capture ref => cases hevent
  | _ => exact hcapture

theorem presents_not_of_records {steps : List ServiceStep}
    (h : ∀ step ∈ steps, IsRecord step.request) (event : Event) : ¬ Presents steps event := by
  rintro ⟨⟨before, r, response, after⟩, hstep, hevent⟩
  have hrecord := h _ hstep
  cases r with
  | record sink entry => cases hevent
  | _ => exact hrecord

section Pieces

variable {digest : Canonical → UInt64}

/-- The listeners of an event in turn. -/
private theorem invokeAll_publishes (published : Event) (listeners : List Nat) :
    ∀ position current, Ensures (Acts digest) (invokeAll published position listeners current)
      fun steps _ => (∀ step ∈ steps, IsPublication step.request) ∧
        ∀ event, Presents steps event → position = 0 ∧ event = current := by
  induction listeners with
  | nil =>
      exact fun _ _ => ensures_done ⟨fun _ h => absurd h List.not_mem_nil,
        fun _ ⟨_, h, _⟩ => absurd h List.not_mem_nil⟩
  | cons listener rest ih =>
      intro position current
      refine ensures_call_bind fun before answer after _ => ?_
      refine ensures_bind (ih (position + 1) answer.1) fun first _ hfirst => ensures_done ?_
      rw [List.append_nil]
      refine ⟨List.forall_mem_cons.mpr ⟨trivial, hfirst.1⟩, fun event hevent => ?_⟩
      rcases presents_cons.mp hevent with hhead | htail
      · cases position with
        | zero => exact ⟨rfl, (Option.some.inj hhead).symm⟩
        | succ position => cases hhead
      · have hposition := (hfirst.2 event htail).1
        omega

/-- A publication presents its event and nothing else. -/
theorem publish_presents (bus : Nat) (published : Event) :
    Ensures (Acts digest) (publish bus published) fun steps _ =>
      (∀ step ∈ steps, IsPublication step.request) ∧
        ∀ event, Presents steps event ↔ event = published := by
  refine ensures_call_bind fun before listeners after _ => ?_
  refine ensures_mono (invokeAll_publishes published listeners 0 published)
    fun steps _ hsteps => ?_
  refine ⟨List.forall_mem_cons.mpr ⟨trivial, hsteps.1⟩, fun event => ?_⟩
  rw [presents_cons]
  constructor
  · rintro (hhead | htail)
    · exact (Option.some.inj hhead).symm
    · exact (hsteps.2 event htail).2
  · rintro rfl
    exact Or.inl rfl

/-! ## Captures that are kept -/

/-- Each of the collections was captured in turn, and these snapshots were taken. -/
inductive Taken (digest : Canonical → UInt64) :
    List CollectionRef → List ServiceStep → List CollectionSnapshot → Prop
  | nil : Taken digest [] [] []
  | cons {ref : CollectionRef} {rest : List CollectionRef} {world : World}
      {captured : CaptureResult} {steps : List ServiceStep} {snapshots : List CollectionSnapshot}
      (hcapture : world.adapter.capture digest ref = .ok captured)
      (hrest : Taken digest rest steps snapshots) :
      Taken digest (ref :: rest) (⟨world, .capture ref, .ok captured, world⟩ :: steps)
        (captured.snapshot.toList ++ snapshots)

/-- The captures of the collections in a world. -/
def Captures (digest : Canonical → UInt64) (world : World) (refs : List CollectionRef)
    (snapshots : List CollectionSnapshot) : Prop :=
  captureEach (world.adapter.capture digest) refs = .ok snapshots

/-- If the step captured a collection, its target is as available in this world as it
was, and the collection holds what it held. -/
def Unmoved (world : World) : ServiceStep → Prop
  | ⟨before, .capture ref, _, _⟩ =>
      targetAvailable before.adapter.availability ref.target =
          targetAvailable world.adapter.availability ref.target ∧
        contents before.adapter.store ref = contents world.adapter.store ref
  | _ => True

/-- Only captures show anything of a collection. -/
theorem unmoved_of_not_capture {step : ServiceStep} (h : ¬ IsCapture step.request)
    (world : World) : Unmoved world step := by
  obtain ⟨before, r, response, after⟩ := step
  cases r with
  | capture ref => exact absurd trivial h
  | _ => trivial

theorem Taken.captures {refs : List CollectionRef} {steps : List ServiceStep}
    {snapshots : List CollectionSnapshot} (h : Taken digest refs steps snapshots) :
    ∀ step ∈ steps, IsCapture step.request := by
  induction h with
  | nil => exact fun _ hmem => absurd hmem List.not_mem_nil
  | cons _ _ ih => exact List.forall_mem_cons.mpr ⟨trivial, ih⟩

/-- What the loop over `capture` takes; a capture that raises ends it. -/
theorem captureEach_taken (refs : List CollectionRef) :
    Ensures (Acts digest) (captureEach Ask.capture refs).run fun steps outcome =>
      (∀ step ∈ steps, IsCapture step.request) ∧
        ∀ snapshots, outcome = .ok snapshots → Taken digest refs steps snapshots := by
  induction refs with
  | nil =>
      refine ensures_done ⟨fun _ h => absurd h List.not_mem_nil, fun snapshots h => ?_⟩
      obtain rfl := Except.ok.inj h
      exact .nil
  | cons ref rest ih =>
      refine ensures_attempt_bind (fun before response after error _ _ => ?_)
        fun before response after captured hact hanswer => ?_
      · exact ⟨List.forall_mem_singleton.mpr trivial, nofun⟩
      have hresponse : response = .ok captured := hanswer
      subst hresponse
      have hpair : (Except.ok captured, after) = (before.adapter.capture digest ref, before) := hact
      obtain ⟨hcapture, rfl⟩ := Prod.mk.inj hpair
      refine ensures_then ih (fun steps error hsteps => ?_) fun first snapshots hfirst => ?_
      · exact ⟨List.forall_mem_cons.mpr ⟨trivial, hsteps.1⟩, nofun⟩
      · refine ensures_done ⟨?_, fun taken htaken => ?_⟩
        · rw [List.append_nil]
          exact List.forall_mem_cons.mpr ⟨trivial, hfirst.1⟩
        · obtain rfl := Except.ok.inj htaken
          rw [List.append_nil]
          exact .cons hcapture.symm (hfirst.2 snapshots rfl)

/-- A capture reads the availability of the target and what the collection holds. -/
theorem Unmoved.capture_eq {ref : CollectionRef} {world world' : World}
    {response : Response (.capture ref)} {after : World}
    (h : Unmoved world' ⟨world, .capture ref, response, after⟩) :
    world.adapter.capture digest ref = world'.adapter.capture digest ref := by
  obtain ⟨havailable, hsame⟩ := h
  have hlookup : world.adapter.store.lookup ref = world'.adapter.store.lookup ref := hsame
  show captureIn digest world.adapter.availability world.adapter.store ref =
    captureIn digest world'.adapter.availability world'.adapter.store ref
  rw [captureIn, captureIn, havailable, hlookup]

/-- Two snapshots of one collection are equal where the collection is. -/
private theorem snapshot_eq_iff {ref : CollectionRef} {world world' : World}
    {captured captured' : CaptureResult} {snapshot snapshot' : CollectionSnapshot}
    (hcapture : world.adapter.capture digest ref = .ok captured)
    (hcapture' : world'.adapter.capture digest ref = .ok captured')
    (hsnapshot : captured.snapshot = some snapshot)
    (hsnapshot' : captured'.snapshot = some snapshot') :
    snapshot = snapshot' ↔ Unmoved world' ⟨world, .capture ref, .ok captured, world⟩ := by
  have havailable : targetAvailable world.adapter.availability ref.target = true :=
    available_of_snapshot hcapture hsnapshot
  have havailable' : targetAvailable world'.adapter.availability ref.target = true :=
    available_of_snapshot hcapture' hsnapshot'
  obtain ⟨-, hproperties, hexists⟩ := snapshot_of_captured hcapture hsnapshot
  obtain ⟨-, hproperties', hexists'⟩ := snapshot_of_captured hcapture' hsnapshot'
  constructor
  · rintro rfl
    refine ⟨havailable.trans havailable'.symm, ?_⟩
    have hsome := hexists.symm.trans hexists'
    have hheld := hproperties.symm.trans hproperties'
    cases hlook : contents world.adapter.store ref with
    | none =>
        rw [hlook] at hsome
        exact (Option.isNone_iff_eq_none.mp (Option.isSome_eq_false_iff.mp hsome.symm)).symm
    | some held =>
        rw [hlook] at hsome hheld
        obtain ⟨held', hlook'⟩ := Option.isSome_iff_exists.mp hsome.symm
        rw [hlook'] at hheld ⊢
        exact congrArg some hheld
  · intro hunmoved
    rw [hunmoved.capture_eq, hcapture'] at hcapture
    obtain rfl := Except.ok.inj hcapture
    exact Option.some.inj (hsnapshot.symm.trans hsnapshot')

theorem Taken.length_le {refs : List CollectionRef} {steps : List ServiceStep}
    {snapshots : List CollectionSnapshot} (h : Taken digest refs steps snapshots) :
    snapshots.length ≤ refs.length := by
  induction h with
  | nil => exact Nat.le_refl 0
  | @cons ref rest world captured steps snapshots _ _ ih =>
      cases hsnapshot : captured.snapshot with
      | none =>
          show snapshots.length ≤ rest.length + 1
          omega
      | some snapshot =>
          show snapshots.length + 1 ≤ rest.length + 1
          omega

/-- A world in which all collections can be captured. -/
private theorem captures_cons_iff {world : World} {ref : CollectionRef} {rest : List CollectionRef}
    {captured : CaptureResult} {snapshot : CollectionSnapshot}
    {snapshots : List CollectionSnapshot}
    (hcapture : world.adapter.capture digest ref = .ok captured)
    (hsnapshot : captured.snapshot = some snapshot) :
    Captures digest world (ref :: rest) snapshots ↔
      ∃ others, Captures digest world rest others ∧ snapshots = snapshot :: others := by
  show (world.adapter.capture digest ref >>= fun captured => _) = _ ↔ _
  rw [hcapture]
  show (captureEach (world.adapter.capture digest) rest >>= fun others =>
    Except.ok (captured.snapshot.toList ++ others)) = _ ↔ _
  rw [bind_eq_ok, hsnapshot]
  constructor
  · rintro ⟨others, hothers, heq⟩
    exact ⟨others, hothers, (Except.ok.inj heq).symm⟩
  · rintro ⟨others, hothers, rfl⟩
    exact ⟨others, hothers, rfl⟩

theorem Captures.length_eq {world : World} {refs : List CollectionRef}
    {snapshots : List CollectionSnapshot}
    (hshown : ∀ ref ∈ refs, ∃ captured snapshot, world.adapter.capture digest ref = .ok captured ∧
      captured.snapshot = some snapshot) (h : Captures digest world refs snapshots) :
    snapshots.length = refs.length := by
  induction refs generalizing snapshots with
  | nil =>
      obtain rfl := Except.ok.inj h
      rfl
  | cons ref rest ih =>
      obtain ⟨⟨captured, snapshot, hcapture, hsnapshot⟩, hothers⟩ := List.forall_mem_cons.mp hshown
      obtain ⟨others, hrest, rfl⟩ := (captures_cons_iff hcapture hsnapshot).mp h
      rw [List.length_cons, List.length_cons, ih hothers hrest]

/-- **When captures taken earlier are those of this world.** -/
theorem Taken.captures_iff {world : World} {refs : List CollectionRef} {steps : List ServiceStep}
    {snapshots : List CollectionSnapshot} (h : Taken digest refs steps snapshots)
    (hshown : ∀ ref ∈ refs, ∃ captured snapshot, world.adapter.capture digest ref = .ok captured ∧
      captured.snapshot = some snapshot) :
    Captures digest world refs snapshots ↔ ∀ step ∈ steps, Unmoved world step := by
  induction h with
  | nil => exact ⟨fun _ _ h => absurd h List.not_mem_nil, fun _ => rfl⟩
  | @cons ref rest before captured steps snapshots hcapture hrest ih =>
      obtain ⟨⟨shown, snapshot', hnow, hsnapshot'⟩, hothers⟩ := List.forall_mem_cons.mp hshown
      rw [captures_cons_iff hnow hsnapshot', List.forall_mem_cons, ← ih hothers]
      cases hsnapshot : captured.snapshot with
      | none =>
          -- a snapshot was not taken that this world shows
          constructor
          · rintro ⟨others, hcaptures, heq⟩
            have hlength := hcaptures.length_eq hothers
            have hle := hrest.length_le
            rw [show snapshots = snapshot' :: others from heq, List.length_cons] at hle
            omega
          · rintro ⟨hunmoved, -⟩
            rw [hunmoved.capture_eq, hnow] at hcapture
            obtain rfl := Except.ok.inj hcapture
            rw [hsnapshot] at hsnapshot'
            cases hsnapshot'
      | some snapshot =>
          rw [← snapshot_eq_iff hcapture hnow hsnapshot hsnapshot']
          constructor
          · rintro ⟨others, hcaptures, heq⟩
            obtain ⟨rfl, rfl⟩ := List.cons.inj heq
            exact ⟨rfl, hcaptures⟩
          · rintro ⟨rfl, hcaptures⟩
            exact ⟨snapshots, hcaptures, rfl⟩

end Pieces

/-! ## Transact -/

section Transact

variable {digest : Canonical → UInt64} {service : DynamicPropertyService}
  {transaction : Transaction}

/-- What the commit of a transaction captured: every collection before, and all of
them again afterwards. -/
theorem commitTransact_captures {before after : World} {commit : TransactCommit}
    (h : Acts digest before
      (.commitTransact service transaction (namedRefs transaction.operations)) (.ok (.ok commit))
      after) :
    (∀ ref ∈ namedRefs transaction.operations, ∃ captured snapshot,
      before.adapter.capture digest ref = .ok captured ∧ captured.snapshot = some snapshot) ∧
    Captures digest after (namedRefs transaction.operations) commit.after := by
  have hpair : (Except.ok (.ok commit), after) = respond digest before
    (.commitTransact service transaction (namedRefs transaction.operations)) := h
  have hfirst : .ok (.ok commit) = (service.commitTransact digest before.adapter transaction
    (namedRefs transaction.operations) before.transactionIds).1 := congrArg Prod.fst hpair
  have hsecond : after.adapter = (service.commitTransact digest before.adapter transaction
    (namedRefs transaction.operations) before.transactionIds).2.1 :=
    congrArg (fun pair => pair.2.adapter) hpair
  unfold DynamicPropertyService.commitTransact at hfirst hsecond
  cases hlimits : validatePropertyLimits digest before.adapter service.limits
      transaction.operations with
  | error raised =>
      rw [hlimits] at hfirst
      cases hfirst
  | ok error =>
      rw [hlimits] at hfirst hsecond
      cases error with
      | some error => cases Except.ok.inj hfirst
      | none =>
          obtain ⟨shadow, hcaptured, -⟩ := validatePropertyLimits_none hlimits
          refine ⟨captureShadow_passed hcaptured, ?_⟩
          rcases htransact : before.adapter.transact digest transaction before.transactionIds with
            ⟨raised | result, committed⟩
          · rw [htransact] at hfirst
            cases hfirst
          · rw [htransact] at hfirst hsecond
            have hworld : after.adapter = committed.1 := hsecond
            rw [Captures, hworld]
            cases hcaptures : captureEach (committed.1.capture digest)
                (namedRefs transaction.operations) with
            | error raised =>
                simp only [hcaptures] at hfirst
                cases hfirst
            | ok snapshots =>
                simp only [hcaptures] at hfirst
                have hcommit : commit = ⟨result, snapshots⟩ :=
                  Except.ok.inj (Except.ok.inj hfirst)
                rw [hcommit]

/-- The event of a transaction that was committed. -/
def committedEvent (transaction : Transaction) (context : AccessContext) (transactionId : Str)
    (before : List CollectionSnapshot) (commit : TransactCommit) : Event :=
  { transactionEvent .afterTransaction context transactionId
      (namedRefs transaction.operations) with before, after := commit.after }

/-- The steps of a complete `transact`: it presents no after event, or it captures,
announces, commits and reports. -/
inductive TransactTrace (digest : Canonical → UInt64) (service : DynamicPropertyService)
    (transaction : Transaction) (context : AccessContext) : List ServiceStep → Prop
  | unreported {steps : List ServiceStep}
      (hnone : ∀ event, Presents steps event → event.kind = .beforeTransaction) :
      TransactTrace digest service transaction context steps
  | reported {checks captures announcement later : List ServiceStep}
      {world issued before after : World} {transactionId : Str}
      {snapshots : List CollectionSnapshot} {commit : TransactCommit}
      (hchecks : ∀ step ∈ checks, IsCapture step.request)
      (htaken : Taken digest (namedRefs transaction.operations) captures snapshots)
      (hpublication : ∀ step ∈ announcement, IsPublication step.request)
      (hannounced : ∀ event, Presents announcement event → event.kind = .beforeTransaction)
      (hact : Acts digest before
        (.commitTransact service transaction (namedRefs transaction.operations))
        (.ok (.ok commit)) after)
      (hlater : ∀ step ∈ later, ¬ IsCapture step.request)
      (hreport : ∀ event, Presents later event →
        event = committedEvent transaction context transactionId snapshots commit) :
      TransactTrace digest service transaction context
        (checks ++ ⟨world, .newTransactionId, transactionId, issued⟩ ::
          (captures ++ (announcement ++ ⟨before,
            .commitTransact service transaction (namedRefs transaction.operations),
            .ok (.ok commit), after⟩ :: later)))

variable {context : AccessContext}

/-- Steps without a presented event are a trace by themselves. -/
private theorem unreported_of_presents_not {steps : List ServiceStep}
    (h : ∀ event, ¬ Presents steps event) :
    TransactTrace digest service transaction context steps :=
  .unreported fun event hpresents => absurd hpresents (h event)

/-- The audit records of a transaction. -/
private theorem auditEach_records (transactionId : Str) (rolledBack : Bool)
    (entries : List (Operation × OperationResult)) :
    Ensures (Acts digest) (service.auditEach context transactionId rolledBack entries)
      fun steps _ => ∀ step ∈ steps, IsRecord step.request :=
  ensures_issues (issues_auditEach (fun _ _ => trivial) service context transactionId rolledBack
    entries)

/-- `transact` from the mutation lock on. -/
private theorem transactCommit_trace (transactionId : Str) (snapshots : List CollectionSnapshot) :
    Ensures (Acts digest) (service.transactCommit transaction context transactionId
      (namedRefs transaction.operations) snapshots).run fun steps _ =>
        (∀ event, ¬ Presents steps event) ∨
        ∃ before commit after later, steps = ⟨before,
            .commitTransact service transaction (namedRefs transaction.operations),
            .ok (.ok commit), after⟩ :: later ∧
          Acts digest before (.commitTransact service transaction
            (namedRefs transaction.operations)) (.ok (.ok commit)) after ∧
          (∀ step ∈ later, ¬ IsCapture step.request) ∧
          ∀ event, Presents later event →
            event = committedEvent transaction context transactionId snapshots commit := by
  refine ensures_attempt_bind (fun before response after error _ _ => ?_)
    fun before response after outcome hact hanswer => ?_
  · refine Or.inl fun event hpresents => ?_
    rcases presents_cons.mp hpresents with h | ⟨step, hstep, -⟩
    · cases h
    · exact absurd hstep List.not_mem_nil
  have hresponse : response = .ok outcome := hanswer
  subst hresponse
  cases outcome with
  | error error =>
      refine ensures_lift_bind (auditEach_records transactionId false _) fun records _ hrecords =>
        ensures_done (Or.inl fun event hpresents => ?_)
      rw [List.append_nil] at hpresents
      rcases presents_cons.mp hpresents with h | h
      · cases h
      · exact presents_not_of_records hrecords event h
  | ok commit =>
      refine ensures_lift_bind (publish_presents _ _) fun publication _ hpublication => ?_
      refine ensures_lift_bind (auditEach_records transactionId _ _) fun records _ hrecords =>
        ensures_done (Or.inr ⟨before, commit, after, publication ++ records, ?_, hact, ?_, ?_⟩)
      · rw [List.append_nil]
      · intro step hstep
        rcases List.mem_append.mp hstep with h | h
        · exact not_capture_of_publication (hpublication.1 step h)
        · exact not_capture_of_record (hrecords step h)
      · intro event hpresents
        rcases presents_append.mp hpresents with h | h
        · exact (hpublication.2 event).mp h
        · exact absurd h (presents_not_of_records hrecords event)

/-- **Every complete `transact` is a `TransactTrace`.** -/
theorem transact_trace :
    Ensures (Acts digest) (service.transact transaction context).run fun steps _ =>
      TransactTrace digest service transaction
        (DynamicPropertyService.transactionContext transaction context) steps := by
  unfold DynamicPropertyService.transact
  split
  · refine ensures_ask_bind fun before transactionId after _ => ensures_done ?_
    refine unreported_of_presents_not fun event hpresents => ?_
    rcases presents_cons.mp hpresents with h | ⟨step, hstep, -⟩
    · cases h
    · exact absurd hstep List.not_mem_nil
  have hsilent : ∀ {steps : List ServiceStep}, (∀ step ∈ steps, IsCapture step.request) →
      TransactTrace digest service transaction
        (DynamicPropertyService.transactionContext transaction context) steps := fun h =>
    unreported_of_presents_not (presents_not_of_captures h)
  have hnil : ∀ step ∈ ([] : List ServiceStep), IsCapture step.request := fun _ h =>
    absurd h List.not_mem_nil
  refine ensures_outcome_bind (fun _ _ => hsilent hnil) fun verdict _ => ?_
  cases verdict with
  | some error => exact ensures_done (hsilent hnil)
  | none =>
      refine ensures_then (ensures_issues (issues_validatePropertyLimits (fun _ => trivial) _ _))
        (fun _ _ hchecks => hsilent hchecks) fun checks error hchecks => ?_
      cases error with
      | some error =>
          refine ensures_done ?_
          rw [List.append_nil]
          exact hsilent hchecks
      | none =>
          refine ensures_ask_bind fun world transactionId issued _ => ?_
          have hid : ∀ {steps : List ServiceStep}, (∀ step ∈ steps, IsCapture step.request) →
              ∀ event, ¬ Presents (checks ++ ⟨world, .newTransactionId, transactionId, issued⟩ ::
                steps) event := by
            intro steps hsteps event hpresents
            rcases presents_append.mp hpresents with h | h
            · exact presents_not_of_captures hchecks event h
            · rcases presents_cons.mp h with h | h
              · cases h
              · exact presents_not_of_captures hsteps event h
          refine ensures_then (captureEach_taken _) (fun captures _ hcaptures =>
            unreported_of_presents_not (hid hcaptures.1)) fun captures snapshots hcaptures => ?_
          refine ensures_lift_bind (publish_presents _ _) fun announcement answer hannounced => ?_
          have hkind : ∀ {steps : List ServiceStep}, (∀ event, ¬ Presents steps event) →
              ∀ event, Presents (checks ++ ⟨world, .newTransactionId, transactionId, issued⟩ ::
                (captures ++ (announcement ++ steps))) event → event.kind = .beforeTransaction := by
            intro steps hsteps event hpresents
            rcases presents_append.mp hpresents with h | h
            · exact absurd h (presents_not_of_captures hchecks event)
            rcases presents_cons.mp h with h | h
            · cases h
            rcases presents_append.mp h with h | h
            · exact absurd h (presents_not_of_captures hcaptures.1 event)
            rcases presents_append.mp h with h | h
            · rw [(hannounced.2 event).mp h]
              rfl
            · exact absurd h (hsteps event)
          dsimp only
          split
          · refine ensures_lift_bind (auditEach_records transactionId false _)
              fun records _ hrecords => ensures_done ?_
            rw [List.append_nil]
            exact .unreported (hkind (presents_not_of_records hrecords))
          · refine ensures_mono (transactCommit_trace transactionId snapshots)
              fun steps outcome hsteps => ?_
            rcases hsteps with hnone | ⟨before, commit, after, later, rfl, hact, hlater, hreport⟩
            · exact .unreported (hkind hnone)
            · refine .reported hchecks (hcaptures.2 snapshots rfl) hannounced.1 ?_ hact hlater
                hreport
              intro event hevent
              rw [(hannounced.2 event).mp hevent]
              rfl

end Transact

end DynamicProperties.Python
