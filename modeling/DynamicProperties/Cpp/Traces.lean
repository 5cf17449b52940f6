import DynamicProperties.Cpp.Legality
import DynamicProperties.Cpp.Transactions

/-!
# The steps of a complete `apply` or `transact` call

Every complete execution of `apply` has one of the shapes of `ApplyTrace`, and
every complete execution of `transact` one of `TransactTrace`: the checks, the
announcement to the listeners, the decision, the commit, the announcement of
what was committed, the audit records.  Facts about what listeners can do, about
events and about the audit log are read off these shapes.
-/

namespace DynamicProperties.Cpp

open DynamicProperties.Library.Requests
open DynamicProperties.Library.Requests.Program

/-! ## Statuses -/

/-- A status neither `Applied` nor `Cancelled`. -/
def IsError (status : DynamicPropertyStatus) : Prop :=
  status ≠ .applied ∧ status ≠ .cancelled

/-- A check that reports nothing, or an error. -/
def Reports (outcome : Option OperationResult) : Prop :=
  ∀ error ∈ outcome, IsError error.status

section Statuses

theorem reports_none : Reports none := by
  intro error h
  cases h

theorem reports_failure {status : DynamicPropertyStatus} (h : IsError status)
    (message : ByteString) : Reports (some (failure status message)) := by
  intro error he
  cases he
  exact h

theorem reports_orElse {first second : Option OperationResult} (hfirst : Reports first)
    (hsecond : Reports second) : Reports (first <|> second) := by
  cases first with
  | none => exact hsecond
  | some error => exact hfirst

theorem reports_ite {c : Prop} [Decidable c] {first second : Option OperationResult}
    (hfirst : Reports first) (hsecond : Reports second) :
    Reports (if c then first else second) := by
  split
  · exact hfirst
  · exact hsecond

theorem reports_findSome {α : Type} {check : α → Option OperationResult}
    (h : ∀ a, Reports (check a)) (entries : List α) : Reports (entries.findSome? check) := by
  intro error he
  obtain ⟨a, -, ha⟩ := List.exists_of_findSome?_eq_some he
  exact h a error ha

theorem reports_requireCapability (supported : Bool) (message : String) :
    Reports (DynamicPropertyService.requireCapability supported message) :=
  reports_ite reports_none (reports_failure ⟨by decide, by decide⟩ _)

variable (service : DynamicPropertyService) (context : AccessContext)

theorem reports_validateCapability (target : DynamicPropertyTarget) :
    Reports (service.validateCapability target) := by
  unfold DynamicPropertyService.validateCapability
  split
  · exact reports_failure ⟨by decide, by decide⟩ _
  · exact reports_ite (reports_failure ⟨by decide, by decide⟩ _) reports_none

theorem reports_checkReference (ref : CollectionRef) (denied : ByteString) :
    Reports (service.checkReference context ref denied) := by
  unfold DynamicPropertyService.checkReference
  split
  · rename_i error herror
    exact herror ▸ reports_validateCapability service ref.target
  · exact reports_ite (reports_failure ⟨by decide, by decide⟩ _)
      (reports_ite (reports_failure ⟨by decide, by decide⟩ _) reports_none)

theorem reports_validateEntry (key : ByteString) (value : Option DynamicPropertyValue) :
    Reports (service.validateEntry key value) := by
  unfold DynamicPropertyService.validateEntry
  refine reports_ite (reports_failure ⟨by decide, by decide⟩ _) ?_
  cases value with
  | none => exact reports_none
  | some value => exact reports_ite (reports_failure ⟨by decide, by decide⟩ _) reports_none

theorem reports_validateEntries (values : DynamicPropertyMap) :
    Reports (service.validateEntries values) :=
  reports_findSome (fun entry : ByteString × DynamicPropertyValue =>
    reports_validateEntry service entry.1 (some entry.2)) values.toList

theorem reports_requireCount (count : Nat) (message : String) :
    Reports (service.requireCount count message) :=
  reports_ite (reports_failure ⟨by decide, by decide⟩ _) reports_none

theorem reports_validateShape (operation : DynamicPropertyOperation) :
    Reports (service.validateShape operation) := by
  have hcap := reports_requireCapability
  have hentry := reports_validateEntry service
  cases operation with
  | setProperty entry => exact reports_orElse (hcap _ _) (hentry _ _)
  | setMany entry | importCollection entry =>
      exact reports_orElse (hcap _ _) (reports_orElse (reports_requireCount service _ _)
        (reports_validateEntries service _))
  | removeProperty entry => exact reports_orElse (hcap _ _) (hentry _ _)
  | removeMany entry =>
      exact reports_orElse (hcap _ _) (reports_orElse (reports_requireCount service _ _)
        (reports_findSome (fun key => hentry key none) _))
  | clearCollection entry => exact hcap _ _
  | renameCollection entry | transferCollection entry =>
      exact reports_orElse (hcap _ _)
        (reports_ite (reports_failure ⟨by decide, by decide⟩ _) reports_none)
  | transferProperty entry =>
      exact reports_orElse (hcap _ _) (reports_orElse (hentry _ _) (reports_orElse (hentry _ _)
        (reports_ite (reports_failure ⟨by decide, by decide⟩ _)
          (reports_ite (reports_failure ⟨by decide, by decide⟩ _) reports_none))))

/-- Validation never reports `Applied` or `Cancelled`. -/
theorem reports_validateOperation (operation : DynamicPropertyOperation) :
    Reports (service.validateOperation operation context) :=
  reports_orElse (reports_findSome (fun _ => reports_checkReference service context _ _) _)
    (reports_validateShape service operation)

/-- A capture of the in-memory adapter succeeds with a snapshot, or finds the
target unavailable. -/
theorem capture_cases (adapter : InMemoryAdapter) (ref : CollectionRef) :
    ((adapter.capture ref).ok = true ∧ (adapter.capture ref).snapshot.isSome = true) ∨
      ((adapter.capture ref).ok = false ∧
        (adapter.capture ref).status = .targetUnavailable) := by
  unfold InMemoryAdapter.capture
  cases h : targetAvailable adapter.availability ref.target with
  | true =>
      refine Or.inl ⟨captureUnlocked_ok h, ?_⟩
      rw [captureUnlocked_available h]
      rfl
  | false =>
      rw [captureUnlocked_unavailable h]
      exact Or.inr ⟨rfl, rfl⟩

/-- The revalidation under the lock never reports `Applied` or `Cancelled`. -/
theorem reports_commitError (adapter : InMemoryAdapter)
    (operations : List DynamicPropertyOperation) :
    Reports (service.commitError adapter operations context) := by
  intro error herror
  cases hvalidate : service.validateOperations operations context with
  | some first =>
      have heq : error = first := by
        simp only [DynamicPropertyService.commitError, hvalidate] at herror
        exact (Option.some.inj herror).symm
      subst heq
      exact reports_findSome (fun operation => reports_validateOperation service context operation)
        operations error hvalidate
  | none =>
      have hlimit : limitError adapter service.limits operations = some error := by
        simp only [DynamicPropertyService.commitError, hvalidate] at herror
        exact herror
      have hmoves : ∀ operation ∈ operations, MovesElsewhere operation := fun operation hop =>
        (validateOperation_none
          (List.findSome?_eq_none_iff.mp hvalidate operation hop)).movesElsewhere
      rcases limitError_cases adapter service.limits operations hmoves with
        ⟨-, message, h⟩ | ⟨-, -, h⟩ | ⟨-, -, h⟩
      · rw [h] at hlimit
        cases hlimit
        exact (⟨by decide, by decide⟩ : IsError .targetUnavailable)
      · rw [h] at hlimit
        cases hlimit
        exact (⟨by decide, by decide⟩ : IsError .invalidValue)
      · rw [h] at hlimit
        cases hlimit

end Statuses

/-! ## Captures, publications and records -/

/-- A step that captures one collection. -/
def IsCapture (step : ServiceStep) : Prop :=
  ∃ world ref, step = ⟨world, .capture ref, world.adapter.capture ref, world⟩

/-- Only captures. -/
def AllCaptures (steps : List ServiceStep) : Prop := ∀ step ∈ steps, IsCapture step

theorem allCaptures_nil : AllCaptures [] := by
  intro step h
  cases h

/-- Listeners in turn: what was handed to each, what came back, and at the end
the final event and the listeners that threw. -/
inductive Deliveries (published : DynamicPropertyEvent) :
    Nat → List UInt64 → DynamicPropertyEvent → List ServiceStep →
      DynamicPropertyEvent → List UInt64 → Prop
  | nil (position : Nat) (current : DynamicPropertyEvent) :
      Deliveries published position [] current [] current []
  | cons {position : Nat} {listener : UInt64} {rest : List UInt64}
      {current : DynamicPropertyEvent} (world : World) (answer : DynamicPropertyEvent × Bool)
      {steps : List ServiceStep} {final : DynamicPropertyEvent} {failures : List UInt64}
      (hrest : Deliveries published (position + 1) rest answer.1 steps final failures) :
      Deliveries published position (listener :: rest) current
        (⟨world, .invoke listener published position current, answer, world⟩ :: steps) final
        (if answer.2 then listener :: failures else failures)

/-- One publication: the match against the filters, then the deliveries. -/
inductive Publication (bus : Nat) (event : DynamicPropertyEvent) :
    List ServiceStep → DynamicPropertyEvent → List UInt64 → Prop
  | mk (world : World) {steps : List ServiceStep} {final : DynamicPropertyEvent}
      {failures : List UInt64}
      (hdeliveries : Deliveries event 0 ((world.eventBuses bus).listenersFor event) event steps
        final failures) :
      Publication bus event
        (⟨world, .matchListeners bus event, (world.eventBuses bus).listenersFor event, world⟩ ::
          steps) final failures

/-- These records were offered to the sink, in this order. -/
inductive Recorded (sink : Nat) :
    List DynamicPropertyAuditRecord → List ServiceStep → Prop
  | nil : Recorded sink [] []
  | cons {entry : DynamicPropertyAuditRecord} {entries : List DynamicPropertyAuditRecord}
      {steps : List ServiceStep} {world world' : World} {threw : Bool}
      (hact : Acts world (.record sink entry) threw world') (hrest : Recorded sink entries steps) :
      Recorded sink (entry :: entries) (⟨world, .record sink entry, threw, world'⟩ :: steps)

/-- The publications of `publishAfter`: the event, and for a committed migration
a second one made from what the listeners left of it. -/
inductive AfterPublications (service : DynamicPropertyService) (kind : DynamicPropertyEventKind)
    (operation : DynamicPropertyOperation) (context : AccessContext) (result : OperationResult)
    (transactionId : ByteString) : List ServiceStep → Prop
  | single {steps : List ServiceStep} {final : DynamicPropertyEvent} {failures : List UInt64}
      (hplain : (result.ok && isMigration operation) = false)
      (hevent : Publication service.eventBus
        (afterEvent kind operation context result transactionId) steps final failures) :
      AfterPublications service kind operation context result transactionId steps
  | migration {first second : List ServiceStep} {final final' : DynamicPropertyEvent}
      {failures failures' : List UInt64}
      (hmigration : (result.ok && isMigration operation) = true)
      (hevent : Publication service.eventBus
        (afterEvent kind operation context result transactionId) first final failures)
      (hsecond : Publication service.eventBus { final with kind := .collectionMigrated } second
        final' failures') :
      AfterPublications service kind operation context result transactionId (first ++ second)

section Pieces

theorem allCaptures_captureEach (refs : List CollectionRef) :
    Ensures Acts (captureEach Ask.capture refs) fun steps _ => AllCaptures steps := by
  induction refs with
  | nil => exact ensures_done allCaptures_nil
  | cons ref rest ih =>
      refine ensures_call_bind fun before captured after hact => ?_
      refine ensures_bind ih fun first snapshots hfirst => ?_
      refine ensures_done fun step hstep => ?_
      rw [List.append_nil] at hstep
      rcases List.mem_cons.mp hstep with rfl | htail
      · have heq : (captured, after) = (before.adapter.capture ref, before) := hact
        cases heq
        exact ⟨before, ref, rfl⟩
      · exact hfirst step htail

theorem captureShadow_trace (refs : List CollectionRef) :
    ∀ shadow, Ensures Acts (captureShadow Ask.capture refs shadow) fun steps outcome =>
      AllCaptures steps ∧ ∀ error, outcome = .error error → IsError error.status := by
  induction refs with
  | nil =>
      intro shadow
      exact ensures_done ⟨allCaptures_nil, fun error h => by cases h⟩
  | cons ref rest ih =>
      intro shadow
      refine ensures_call_bind fun before captured after hact => ?_
      have heq : (captured, after) = (before.adapter.capture ref, before) := hact
      cases heq
      have hhead : IsCapture ⟨before, .capture ref, before.adapter.capture ref, before⟩ :=
        ⟨before, ref, rfl⟩
      rcases capture_cases before.adapter ref with ⟨hok, hsome⟩ | ⟨hok, hstatus⟩
      · obtain ⟨snapshot, hsnapshot⟩ := Option.isSome_iff_exists.mp hsome
        rw [hok, hsnapshot]
        refine ensures_mono (ih _) fun steps outcome h => ⟨fun step hstep => ?_, h.2⟩
        rcases List.mem_cons.mp hstep with rfl | htail
        · exact hhead
        · exact h.1 step htail
      · rw [hok]
        refine ensures_done ⟨fun step hstep => ?_, fun error herror => ?_⟩
        · rw [List.mem_singleton.mp hstep]
          exact hhead
        · cases herror
          simp only [failure, hstatus]
          exact ⟨by decide, by decide⟩

theorem validatePropertyLimits_trace (limits : ValidationLimits)
    (operations : List DynamicPropertyOperation) :
    Ensures Acts (validatePropertyLimits Ask.capture limits operations) fun steps outcome =>
      AllCaptures steps ∧ Reports outcome := by
  refine ensures_bind (captureShadow_trace _ _) fun first outcome hfirst => ?_
  cases outcome with
  | error error =>
      refine ensures_done ⟨by simpa using hfirst.1, fun e he => ?_⟩
      cases he
      exact hfirst.2 error rfl
  | ok shadow =>
      dsimp only
      split
      · exact ensures_done ⟨by simpa using hfirst.1, reports_failure ⟨by decide, by decide⟩ _⟩
      · exact ensures_done ⟨by simpa using hfirst.1, reports_none⟩

theorem invokeAll_trace (published : DynamicPropertyEvent) (listeners : List UInt64) :
    ∀ position current, Ensures Acts (invokeAll published position listeners current)
      fun steps out => Deliveries published position listeners current steps out.1 out.2 := by
  induction listeners with
  | nil => exact fun position current => ensures_done (.nil position current)
  | cons listener rest ih =>
      intro position current
      refine ensures_call_bind fun before answer after hact => ?_
      have hworld : after = before := hact
      subst hworld
      refine ensures_bind (ih (position + 1) answer.1) fun first out hfirst => ?_
      refine ensures_done ?_
      rw [List.append_nil]
      exact .cons after answer hfirst

theorem publish_trace (bus : Nat) (event : DynamicPropertyEvent) :
    Ensures Acts (publish bus event) fun steps out =>
      Publication bus event steps out.1 out.2 := by
  refine ensures_call_bind fun before listeners after hact => ?_
  have heq : (listeners, after) = ((before.eventBuses bus).listenersFor event, before) := hact
  cases heq
  exact ensures_mono (invokeAll_trace event _ 0 event) fun steps out h => .mk before h

variable (service : DynamicPropertyService) (operation : DynamicPropertyOperation)
  (context : AccessContext) (result : OperationResult) (transactionId : ByteString)

theorem publishAfter_trace (kind : DynamicPropertyEventKind) :
    Ensures Acts (service.publishAfter kind operation context result transactionId)
      fun steps _ =>
        AfterPublications service kind operation context result transactionId steps := by
  refine ensures_bind (publish_trace _ _) fun first out hfirst => ?_
  dsimp only
  split
  · rename_i hmigration
    refine ensures_bind (publish_trace _ _) fun second out' hsecond => ensures_done ?_
    rw [List.append_nil]
    exact .migration hmigration hfirst hsecond
  · rename_i hplain
    refine ensures_done ?_
    rw [List.append_nil]
    exact .single (Bool.eq_false_iff.mpr hplain) hfirst

theorem audit_trace (external rolledBack : Bool) :
    Ensures Acts (service.audit operation context result transactionId external rolledBack)
      fun steps _ => Recorded service.auditSink
        [auditRecord operation context result transactionId external rolledBack] steps :=
  ensures_call_bind fun _ _ _ hact => ensures_done (.cons hact .nil)

theorem Recorded.append {sink : Nat} {first second : List DynamicPropertyAuditRecord}
    {steps steps' : List ServiceStep} (hfirst : Recorded sink first steps)
    (hsecond : Recorded sink second steps') :
    Recorded sink (first ++ second) (steps ++ steps') := by
  induction hfirst with
  | nil => exact hsecond
  | cons hact _ ih => exact .cons hact ih

theorem auditEach_trace (rolledBack : Bool)
    (entries : List (DynamicPropertyOperation × OperationResult)) :
    Ensures Acts (service.auditEach context transactionId rolledBack entries)
      fun steps _ => Recorded service.auditSink
        (entries.map fun entry =>
          auditRecord entry.1 context entry.2 transactionId false rolledBack) steps := by
  induction entries with
  | nil => exact ensures_done .nil
  | cons entry rest ih =>
      refine ensures_bind (audit_trace service entry.1 context entry.2 transactionId false
        rolledBack) fun first _ hfirst => ?_
      exact ensures_mono ih fun second _ hsecond => hfirst.append hsecond

end Pieces

/-! ## Announcements before a commit -/

/-- The listeners of a before event stop it: one of them threw, or the last one
left it cancelled. -/
def Cancels (final : DynamicPropertyEvent) (failures : List UInt64) : Prop :=
  failures ≠ [] ∨ final.cancelled = true

theorem failClosed_cancelled (final : DynamicPropertyEvent) (failures : List UInt64)
    (reason : String) :
    (failClosed final failures reason).cancelled = true ↔ Cancels final failures := by
  unfold failClosed Cancels
  cases failures with
  | nil => simp
  | cons listener rest => simp

/-- The steps of an announcement: captures for the event, then its publication. -/
inductive Announcement (bus : Nat) (event : DynamicPropertyEvent) :
    List ServiceStep → DynamicPropertyEvent → List UInt64 → Prop
  | mk {captures publication : List ServiceStep} (snapshots : List CollectionSnapshot)
      {final : DynamicPropertyEvent} {failures : List UInt64} (hcaptures : AllCaptures captures)
      (hpublication : Publication bus { event with before := snapshots } publication final
        failures) :
      Announcement bus event (captures ++ publication) final failures

section Before

variable (service : DynamicPropertyService) (operation : DynamicPropertyOperation)
  (context : AccessContext)

/-- The event `publishBefore` announces, up to its snapshots. -/
def beforeEvent (kind : DynamicPropertyEventKind) (transactionId : ByteString)
    (cancellable : Bool) : DynamicPropertyEvent :=
  { operationEvent kind operation context transactionId with cancellable }

theorem publishBefore_trace (kind : DynamicPropertyEventKind) (transactionId : ByteString) :
    Ensures Acts (service.publishBefore kind operation context transactionId true)
      fun steps out => ∃ final failures,
        Announcement service.eventBus (beforeEvent operation context kind transactionId true) steps
          final failures ∧ (out.1 = true ↔ Cancels final failures) := by
  refine ensures_bind (allCaptures_captureEach _) fun captures snapshots hcaptures => ?_
  refine ensures_bind (publish_trace _ _) fun publication out hpublication => ensures_done ?_
  rw [List.append_nil]
  refine ⟨out.1, out.2, .mk snapshots hcaptures hpublication, ?_⟩
  simp only [if_true, Bool.and_true]
  exact failClosed_cancelled out.1 out.2 _

end Before

/-! ## Apply -/

section Apply

variable (service : DynamicPropertyService) (operation : DynamicPropertyOperation)
  (context : AccessContext) (force : Bool)

/-- What follows the announcement of an operation. -/
inductive ApplyAnswer (transactionId : ByteString) (final : DynamicPropertyEvent)
    (failures : List UInt64) : List ServiceStep → OperationResult → Prop
  | cancelled {records : List ServiceStep} {result : OperationResult}
      (hcancels : Cancels final failures) (hstatus : result.status = .cancelled)
      (hrecords : Recorded service.auditSink
        [auditRecord operation context result transactionId false false] records) :
      ApplyAnswer transactionId final failures records result
  | refused {world world' : World} {error : OperationResult} {records : List ServiceStep}
      (hgoes : ¬ Cancels final failures)
      (hact : Acts world (.commitApply service operation context force) (.error error) world')
      (hrecords : Recorded service.auditSink
        [auditRecord operation context error transactionId false false] records) :
      ApplyAnswer transactionId final failures
        (⟨world, .commitApply service operation context force, .error error, world'⟩ :: records)
        error
  | committed {world world' : World} {result : OperationResult}
      {publications records : List ServiceStep} (hgoes : ¬ Cancels final failures)
      (hact : Acts world (.commitApply service operation context force) (.ok result) world')
      (hpublications : AfterPublications service .afterMutation operation context result
        transactionId publications)
      (hrecords : Recorded service.auditSink
        [auditRecord operation context result transactionId false false] records) :
      ApplyAnswer transactionId final failures
        (⟨world, .commitApply service operation context force, .ok result, world'⟩ ::
          (publications ++ records)) result

/-- The steps of a complete `apply` and its result. -/
inductive ApplyTrace : List ServiceStep → OperationResult → Prop
  | rejected {checks : List ServiceStep} {result : OperationResult}
      (hchecks : AllCaptures checks) (hstatus : IsError result.status) : ApplyTrace checks result
  | announced {checks announcement answer : List ServiceStep} {world world' : World}
      {transactionId : ByteString} {final : DynamicPropertyEvent} {failures : List UInt64}
      {result : OperationResult} (hchecks : AllCaptures checks)
      (hid : Acts world .makeTransactionId transactionId world')
      (hannouncement : Announcement service.eventBus
        (beforeEvent operation context .beforeMutation transactionId true) announcement final
        failures)
      (hanswer : ApplyAnswer service operation context force transactionId final failures answer
        result) :
      ApplyTrace (checks ++ ⟨world, .makeTransactionId, transactionId, world'⟩ ::
        (announcement ++ answer)) result

private theorem applyCommit_trace (transactionId : ByteString) (final : DynamicPropertyEvent)
    (failures : List UInt64) (hgoes : ¬ Cancels final failures) :
    Ensures Acts (service.applyCommit operation context force transactionId)
      fun steps result =>
        ApplyAnswer service operation context force transactionId final failures steps result := by
  refine ensures_call_bind fun world outcome world' hact => ?_
  cases outcome with
  | error error =>
      refine ensures_bind (audit_trace service operation context error transactionId false false)
        fun records _ hrecords => ensures_done ?_
      rw [List.append_nil]
      exact .refused hgoes hact hrecords
  | ok result =>
      refine ensures_bind (publishAfter_trace service operation context result transactionId _)
        fun publications _ hpublications => ?_
      refine ensures_bind (audit_trace service operation context result transactionId false false)
        fun records _ hrecords => ensures_done ?_
      rw [List.append_nil]
      exact .committed hgoes hact hpublications hrecords

private theorem applyAnnounced_trace :
    Ensures Acts (service.applyAnnounced operation context force) fun steps result =>
      ∀ checks, AllCaptures checks →
        ApplyTrace service operation context force (checks ++ steps) result := by
  refine ensures_call_bind fun world transactionId world' hid => ?_
  refine ensures_bind (publishBefore_trace service operation context _ _)
    fun announcement out hannouncement => ?_
  obtain ⟨final, failures, hannouncement, hcancels⟩ := hannouncement
  dsimp only
  split
  · rename_i hcancelled
    refine ensures_bind (audit_trace service operation context _ transactionId false false)
      fun records _ hrecords => ensures_done fun checks hchecks => ?_
    rw [List.append_nil]
    exact .announced hchecks hid hannouncement
      (.cancelled (hcancels.mp hcancelled) rfl hrecords)
  · rename_i hgoes
    refine ensures_mono (applyCommit_trace service operation context force transactionId final
      failures fun h => hgoes (hcancels.mpr h)) fun steps result hsteps checks hchecks => ?_
    exact .announced hchecks hid hannouncement hsteps

/-- **Every complete `apply` is an `ApplyTrace`.** -/
theorem apply_trace :
    Ensures Acts (service.apply operation context force) fun steps result =>
      ApplyTrace service operation context force steps result := by
  unfold DynamicPropertyService.apply
  split
  · exact ensures_done (.rejected allCaptures_nil ⟨by decide, by decide⟩)
  split
  · rename_i error herror
    exact ensures_done (.rejected allCaptures_nil
      (reports_validateOperation service context operation error herror))
  refine ensures_bind (validatePropertyLimits_trace _ _) fun checks outcome hchecks => ?_
  cases outcome with
  | some error =>
      refine ensures_done ?_
      rw [List.append_nil]
      exact .rejected hchecks.1 (hchecks.2 error rfl)
  | none =>
      exact ensures_mono (applyAnnounced_trace service operation context force)
        fun steps result hsteps => hsteps checks hchecks.1

end Apply

/-! ## Transact -/

section Transact

variable (service : DynamicPropertyService) (transaction : DynamicPropertyTransaction)
  (context : AccessContext)

/-- The records of a transaction whose operations got these results. -/
def transactionRecords (transactionId : ByteString) (rolledBack : Bool)
    (results : List OperationResult) : List DynamicPropertyAuditRecord :=
  (transaction.operations.zip results).map fun entry =>
    auditRecord entry.1 context entry.2 transactionId false rolledBack

/-- The event `transact` announces before its commit, up to its snapshots. -/
def announcedEvent (transactionId : ByteString) : DynamicPropertyEvent :=
  { DynamicPropertyService.transactionEvent .beforeTransaction
      (DynamicPropertyService.transactionContext transaction context) transactionId
      (namedCollections transaction.operations) with cancellable := true }

/-- The event `transact` announces after its commit. -/
def committedEvent (transactionId : ByteString) (collections : List CollectionRef)
    (commit : TransactCommit) : DynamicPropertyEvent :=
  { DynamicPropertyService.transactionEvent .afterTransaction context transactionId collections with
    before := commit.before, after := commit.after }

/-- What follows the announcement of a transaction. -/
inductive TransactAnswer (transactionId : ByteString) (final : DynamicPropertyEvent)
    (failures : List UInt64) : List ServiceStep → TransactionResult → Prop
  | cancelled {records : List ServiceStep} {result : TransactionResult}
      {cancelled : OperationResult} (hcancels : Cancels final failures)
      (hstatus : result.status = .cancelled) (hresult : cancelled.status = .cancelled)
      (hrecords : Recorded service.auditSink
        (transactionRecords transaction context transactionId false
          (List.replicate transaction.operations.length cancelled)) records) :
      TransactAnswer transactionId final failures records result
  | refused {world world' : World} {commit : TransactCommit} {error : OperationResult}
      {records : List ServiceStep} {result : TransactionResult} (hgoes : ¬ Cancels final failures)
      (hact : Acts world (.commitTransact service transaction context
        (namedCollections transaction.operations)) commit world')
      (hout : commit.outcome = .error error) (hstatus : result.status = error.status)
      (hrecords : Recorded service.auditSink
        (transactionRecords transaction context transactionId false
          (List.replicate transaction.operations.length error)) records) :
      TransactAnswer transactionId final failures
        (⟨world, .commitTransact service transaction context
          (namedCollections transaction.operations), commit, world'⟩ :: records) result
  | committed {world world' : World} {commit : TransactCommit} {result : TransactionResult}
      {final' : DynamicPropertyEvent} {failures' : List UInt64}
      {publication records : List ServiceStep} (hgoes : ¬ Cancels final failures)
      (hact : Acts world (.commitTransact service transaction context
        (namedCollections transaction.operations)) commit world')
      (hout : commit.outcome = .ok result)
      (hpublication : Publication service.eventBus
        (committedEvent context transactionId (namedCollections transaction.operations) commit)
        publication final' failures')
      (hrecords : Recorded service.auditSink
        (transactionRecords transaction context transactionId result.rolledBack
          result.operationResults) records) :
      TransactAnswer transactionId final failures
        (⟨world, .commitTransact service transaction context
          (namedCollections transaction.operations), commit, world'⟩ ::
            (publication ++ records)) { result with transactionId }

/-- The steps of a complete `transact` and its result. -/
inductive TransactTrace : List ServiceStep → TransactionResult → Prop
  | empty {world world' : World} {transactionId : ByteString} {result : TransactionResult}
      (hid : Acts world .makeTransactionId transactionId world')
      (hempty : transaction.operations = []) (hstatus : result.status = .applied) :
      TransactTrace [⟨world, .makeTransactionId, transactionId, world'⟩] result
  | rejected {world world' : World} {transactionId : ByteString} {checks : List ServiceStep}
      {result : TransactionResult} (hid : Acts world .makeTransactionId transactionId world')
      (hchecks : AllCaptures checks) (hstatus : IsError result.status) :
      TransactTrace (⟨world, .makeTransactionId, transactionId, world'⟩ :: checks) result
  | announced {world world' : World} {transactionId : ByteString}
      {checks announcement answer : List ServiceStep} {final : DynamicPropertyEvent}
      {failures : List UInt64} {result : TransactionResult}
      (hid : Acts world .makeTransactionId transactionId world') (hchecks : AllCaptures checks)
      (hannouncement : Announcement service.eventBus
        (announcedEvent transaction context transactionId) announcement final failures)
      (hanswer : TransactAnswer service transaction
        (DynamicPropertyService.transactionContext transaction context) transactionId final failures
        answer result) :
      TransactTrace (⟨world, .makeTransactionId, transactionId, world'⟩ ::
        (checks ++ (announcement ++ answer))) result

private theorem transactCommit_trace (transactionId : ByteString) (final : DynamicPropertyEvent)
    (failures : List UInt64) (hgoes : ¬ Cancels final failures) :
    Ensures Acts (service.transactCommit transaction context transactionId
      (namedCollections transaction.operations)) fun steps result =>
        TransactAnswer service transaction context transactionId final failures steps result := by
  refine ensures_call_bind fun world commit world' hact => ?_
  cases hout : commit.outcome with
  | error error =>
      refine ensures_bind (auditEach_trace service context transactionId false _)
        fun records _ hrecords => ensures_done ?_
      rw [List.append_nil]
      exact .refused hgoes hact hout rfl hrecords
  | ok result =>
      refine ensures_bind (publish_trace _ _) fun publication out hpublication => ?_
      refine ensures_bind (auditEach_trace service context transactionId result.rolledBack _)
        fun records _ hrecords => ensures_done ?_
      rw [List.append_nil]
      exact .committed hgoes hact hout hpublication hrecords

/-- What `transact` rejects before its captures, it rejects with an error. -/
theorem reports_transactError : Reports (service.transactError transaction context) := by
  unfold DynamicPropertyService.transactError
  refine reports_ite (reports_failure ⟨by decide, by decide⟩ _) ?_
  refine reports_ite (reports_failure ⟨by decide, by decide⟩ _) ?_
  refine reports_ite (reports_failure ⟨by decide, by decide⟩ _) ?_
  exact reports_findSome (fun operation => reports_validateOperation service _ operation) _

/-- **Every complete `transact` is a `TransactTrace`.** -/
theorem transact_trace :
    Ensures Acts (service.transact transaction context) fun steps result =>
      TransactTrace service transaction context steps result := by
  refine ensures_call_bind fun world transactionId world' hid => ?_
  split
  · rename_i hempty
    exact ensures_done (.empty hid (List.isEmpty_iff.mp hempty) rfl)
  split
  · rename_i error herror
    exact ensures_done (.rejected hid allCaptures_nil
      (reports_transactError service transaction context error herror))
  refine ensures_bind (validatePropertyLimits_trace _ _) fun checks outcome hchecks => ?_
  cases outcome with
  | some error =>
      refine ensures_done ?_
      rw [List.append_nil]
      exact .rejected hid hchecks.1 (hchecks.2 error rfl)
  | none =>
      refine ensures_bind (allCaptures_captureEach _) fun captures snapshots hcaptures => ?_
      refine ensures_bind (publish_trace _ _) fun publication out hpublication => ?_
      have hcancels := failClosed_cancelled out.1 out.2 "before-transaction listener failed"
      have hannounced : Announcement service.eventBus
          (announcedEvent transaction context transactionId) (captures ++ publication) out.1
            out.2 := .mk snapshots hcaptures hpublication
      dsimp only
      split
      · rename_i hcancelled
        refine ensures_bind (auditEach_trace service _ transactionId false _)
          fun records _ hrecords => ensures_done ?_
        rw [List.append_nil, ← List.append_assoc captures]
        exact .announced hid hchecks.1 hannounced
          (.cancelled (hcancels.mp hcancelled) rfl rfl hrecords)
      · rename_i hgoes
        refine ensures_mono (transactCommit_trace service transaction _ transactionId out.1 out.2
          fun h => hgoes (hcancels.mpr h)) fun steps result hsteps => ?_
        rw [← List.append_assoc captures]
        exact .announced hid hchecks.1 hannounced hsteps

end Transact

/-! ## External mutations -/

section External

variable (service : DynamicPropertyService) (operation : DynamicPropertyOperation)
  (result : OperationResult) (context : AccessContext)

/-- The publications and the record of an observed external mutation. -/
inductive ObservationTrace (transactionId : ByteString) : List ServiceStep → Prop
  | mk {publications records : List ServiceStep}
      (hpublications : AfterPublications service .afterExternalMutation operation
        (DynamicPropertyService.externalContext context) result transactionId publications)
      (hrecords : Recorded service.auditSink
        [auditRecord operation (DynamicPropertyService.externalContext context) result
          transactionId true false] records) :
      ObservationTrace transactionId (publications ++ records)

/-- The steps of a complete `afterExternalMutation`: under the identifier it was
given, or under a fresh one. -/
inductive ExternalTrace (transactionId : ByteString) : List ServiceStep → Prop
  | given {steps : List ServiceStep} (hgiven : transactionId ≠ [])
      (hobservation : ObservationTrace service operation result context transactionId steps) :
      ExternalTrace transactionId steps
  | issued {steps : List ServiceStep} {world world' : World} {fresh : ByteString}
      (hnone : transactionId = []) (hid : Acts world .makeTransactionId fresh world')
      (hobservation : ObservationTrace service operation result context fresh steps) :
      ExternalTrace transactionId (⟨world, .makeTransactionId, fresh, world'⟩ :: steps)

/-- **Every complete `afterExternalMutation` is an `ExternalTrace`.** -/
theorem afterExternalMutation_trace (transactionId : ByteString) :
    Ensures Acts (service.afterExternalMutation operation result context transactionId)
      fun steps _ => ExternalTrace service operation result context transactionId steps := by
  have hobserved : ∀ id : ByteString, Ensures Acts
      (service.publishAfter .afterExternalMutation operation
          (DynamicPropertyService.externalContext context) result id >>= fun _ =>
        service.audit operation (DynamicPropertyService.externalContext context) result id true
          false)
      fun steps _ => ObservationTrace service operation result context id steps := by
    intro id
    refine ensures_bind (publishAfter_trace service operation _ result id _)
      fun publications _ hpublications => ?_
    exact ensures_mono (audit_trace service operation _ result id true false)
      fun records _ hrecords => .mk hpublications hrecords
  unfold DynamicPropertyService.afterExternalMutation
  dsimp only
  split
  · rename_i hempty
    refine ensures_call_bind fun world fresh world' hid => ?_
    exact ensures_mono (hobserved fresh) fun steps _ h => .issued (List.isEmpty_iff.mp hempty) hid h
  · rename_i hgiven
    exact ensures_mono (hobserved transactionId) fun steps _ h =>
      .given (fun hnone => hgiven (List.isEmpty_iff.mpr hnone)) h

end External

/-! ## Reading the steps -/

/-- A request of a preflight or of a publication. -/
def Observes : Request → Prop
  | .capture _ => True
  | .matchListeners _ _ => True
  | .invoke _ _ _ _ => True
  | _ => False

/-- Only captures and publications. -/
def Observing (steps : List ServiceStep) : Prop := ∀ step ∈ steps, Observes step.request

theorem observing_nil : Observing [] := by
  intro step h
  cases h

theorem observing_append {first second : List ServiceStep} (hfirst : Observing first)
    (hsecond : Observing second) : Observing (first ++ second) := by
  intro s hs
  rcases List.mem_append.mp hs with h | h
  · exact hfirst s h
  · exact hsecond s h

theorem AllCaptures.observing {steps : List ServiceStep} (h : AllCaptures steps) :
    Observing steps := by
  intro step hstep
  obtain ⟨world, ref, rfl⟩ := h step hstep
  trivial

theorem Deliveries.observing {published current final : DynamicPropertyEvent} {position : Nat}
    {listeners failures : List UInt64} {steps : List ServiceStep}
    (h : Deliveries published position listeners current steps final failures) :
    Observing steps := by
  induction h with
  | nil position current => exact observing_nil
  | cons world answer _ ih =>
      intro step hstep
      rcases List.mem_cons.mp hstep with rfl | htail
      · trivial
      · exact ih step htail

theorem Publication.observing {bus : Nat} {event final : DynamicPropertyEvent}
    {failures : List UInt64} {steps : List ServiceStep}
    (h : Publication bus event steps final failures) : Observing steps := by
  cases h with
  | mk world hdeliveries =>
      intro step hstep
      rcases List.mem_cons.mp hstep with rfl | htail
      · trivial
      · exact hdeliveries.observing step htail

theorem Announcement.observing {bus : Nat} {event final : DynamicPropertyEvent}
    {failures : List UInt64} {steps : List ServiceStep}
    (h : Announcement bus event steps final failures) : Observing steps := by
  cases h with
  | mk snapshots hcaptures hpublication =>
      exact observing_append hcaptures.observing hpublication.observing

theorem AfterPublications.observing {service : DynamicPropertyService}
    {kind : DynamicPropertyEventKind} {operation : DynamicPropertyOperation}
    {context : AccessContext} {result : OperationResult} {transactionId : ByteString}
    {steps : List ServiceStep}
    (h : AfterPublications service kind operation context result transactionId steps) :
    Observing steps := by
  cases h with
  | single hplain hevent => exact hevent.observing
  | migration hmigration hevent hsecond =>
      exact observing_append hevent.observing hsecond.observing

/-- What reads only other requests finds nothing among observing steps. -/
theorem Observing.filterMap {α : Type} {read : ServiceStep → Option α}
    {steps : List ServiceStep} (h : Observing steps)
    (hread : ∀ step : ServiceStep, Observes step.request → read step = none) :
    steps.filterMap read = [] :=
  List.filterMap_eq_nil_iff.mpr fun step hstep => hread step (h step hstep)

/-- What reads no records finds nothing among them. -/
theorem Recorded.filterMap {α : Type} {read : ServiceStep → Option α} {sink : Nat}
    {entries : List DynamicPropertyAuditRecord} {steps : List ServiceStep}
    (h : Recorded sink entries steps)
    (hread : ∀ world entry threw world',
      read ⟨world, .record sink entry, threw, world'⟩ = none) : steps.filterMap read = [] := by
  induction h with
  | nil => rfl
  | cons hact _ ih => rw [List.filterMap_cons_none (hread _ _ _ _), ih]

/-- The identifier a step was given by the coordinator. -/
def issuedId : ServiceStep → Option ByteString
  | ⟨_, .makeTransactionId, transactionId, _⟩ => some transactionId
  | _ => none

/-- All identifiers a call was given. -/
def issuedIds (steps : List ServiceStep) : List ByteString := steps.filterMap issuedId

theorem issuedId_observes (step : ServiceStep) (h : Observes step.request) :
    issuedId step = none := by
  obtain ⟨world, request, response, world'⟩ := step
  cases request with
  | makeTransactionId => exact h.elim
  | _ => rfl

theorem Observing.issuedIds {steps : List ServiceStep} (h : Observing steps) :
    issuedIds steps = [] :=
  h.filterMap issuedId_observes

theorem Recorded.issuedIds {sink : Nat} {entries : List DynamicPropertyAuditRecord}
    {steps : List ServiceStep} (h : Recorded sink entries steps) : issuedIds steps = [] :=
  h.filterMap fun _ _ _ _ => rfl

/-! ## The steps that commit -/

/-- These steps neither ask for a commit nor change the store. -/
def QuietSteps (steps : List ServiceStep) : Prop :=
  ∀ step ∈ steps, Quiet step.request ∧ step.after.adapter.store = step.before.adapter.store

theorem quietSteps_nil : QuietSteps [] := by
  intro step h
  cases h

theorem quietSteps_cons {step : ServiceStep} {steps : List ServiceStep}
    (hquiet : Quiet step.request)
    (hact : Acts step.before step.request step.response step.after)
    (hsteps : QuietSteps steps) : QuietSteps (step :: steps) := by
  intro s hs
  rcases List.mem_cons.mp hs with rfl | htail
  · exact ⟨hquiet, by rw [acts_quiet hquiet hact]⟩
  · exact hsteps s htail

theorem quietSteps_append {first second : List ServiceStep} (hfirst : QuietSteps first)
    (hsecond : QuietSteps second) : QuietSteps (first ++ second) := by
  intro s hs
  rcases List.mem_append.mp hs with h | h
  · exact hfirst s h
  · exact hsecond s h

theorem AllCaptures.quiet {steps : List ServiceStep} (h : AllCaptures steps) :
    QuietSteps steps := by
  intro step hstep
  obtain ⟨world, ref, rfl⟩ := h step hstep
  exact ⟨trivial, rfl⟩

theorem Deliveries.quiet {published current final : DynamicPropertyEvent} {position : Nat}
    {listeners failures : List UInt64} {steps : List ServiceStep}
    (h : Deliveries published position listeners current steps final failures) :
    QuietSteps steps := by
  induction h with
  | nil position current => exact quietSteps_nil
  | cons world answer _ ih => exact quietSteps_cons (by trivial) rfl ih

theorem Publication.quiet {bus : Nat} {event final : DynamicPropertyEvent}
    {failures : List UInt64} {steps : List ServiceStep}
    (h : Publication bus event steps final failures) : QuietSteps steps := by
  cases h with
  | mk world hdeliveries => exact quietSteps_cons (by trivial) rfl hdeliveries.quiet

theorem Announcement.quiet {bus : Nat} {event final : DynamicPropertyEvent}
    {failures : List UInt64} {steps : List ServiceStep}
    (h : Announcement bus event steps final failures) : QuietSteps steps := by
  cases h with
  | mk snapshots hcaptures hpublication =>
      exact quietSteps_append hcaptures.quiet hpublication.quiet

theorem Recorded.quiet {sink : Nat} {entries : List DynamicPropertyAuditRecord}
    {steps : List ServiceStep} (h : Recorded sink entries steps) : QuietSteps steps := by
  induction h with
  | nil => exact quietSteps_nil
  | cons hact _ ih => exact quietSteps_cons (by trivial) hact ih

theorem AfterPublications.quiet {service : DynamicPropertyService}
    {kind : DynamicPropertyEventKind} {operation : DynamicPropertyOperation}
    {context : AccessContext} {result : OperationResult} {transactionId : ByteString}
    {steps : List ServiceStep}
    (h : AfterPublications service kind operation context result transactionId steps) :
    QuietSteps steps := by
  cases h with
  | single hplain hevent => exact hevent.quiet
  | migration hmigration hevent hsecond => exact quietSteps_append hevent.quiet hsecond.quiet

/-- What the critical section of `apply` answers: an error and the adapter as it
was, or what the adapter answers. -/
theorem acts_commitApply {world world' : World} {service : DynamicPropertyService}
    {operation : DynamicPropertyOperation} {context : AccessContext} {force : Bool}
    {outcome : Except OperationResult OperationResult}
    (h : Acts world (.commitApply service operation context force) outcome world') :
    (∃ error, outcome = .error error ∧ IsError error.status ∧ world'.adapter = world.adapter) ∨
      (outcome = .ok (world.adapter.apply operation force).1 ∧
        world'.adapter = (world.adapter.apply operation force).2) := by
  have hact : (outcome, world') = respond world (.commitApply service operation context force) := h
  have hfirst : outcome = (service.commitApply world.adapter operation context force).1 :=
    congrArg Prod.fst hact
  have hsecond : world'.adapter = (service.commitApply world.adapter operation context force).2 :=
    congrArg (fun pair => pair.2.adapter) hact
  unfold DynamicPropertyService.commitApply at hfirst hsecond
  cases herror : service.commitError world.adapter [operation] context with
  | some error =>
      rw [herror] at hfirst hsecond
      exact Or.inl ⟨error, hfirst, reports_commitError service context world.adapter _ error herror,
        hsecond⟩
  | none =>
      rw [herror] at hfirst hsecond
      exact Or.inr ⟨hfirst, hsecond⟩

/-- What the critical section of `transact` answers: an error and the adapter as it
was, or what the adapter answers. -/
theorem acts_commitTransact {world world' : World} {service : DynamicPropertyService}
    {transaction : DynamicPropertyTransaction} {context : AccessContext}
    {collections : List CollectionRef} {commit : TransactCommit}
    (h : Acts world (.commitTransact service transaction context collections) commit world') :
    (∃ error, commit.outcome = .error error ∧ IsError error.status ∧
        world'.adapter = world.adapter) ∨
      (service.commitError world.adapter transaction.operations context = none ∧
        commit.outcome = .ok (world.adapter.transact transaction).1 ∧
        world'.adapter = (world.adapter.transact transaction).2) := by
  rcases acts_commitTransact_cases h with ⟨error, herror, hout, hadapter⟩ | hcommitted
  · exact .inl ⟨error, hout, reports_commitError service context world.adapter _ error herror,
      hadapter⟩
  · exact .inr hcommitted

/-- A complete `apply` commits nothing, or it commits once, among quiet steps,
and returns what the commit answered. -/
theorem ApplyTrace.commits {service : DynamicPropertyService}
    {operation : DynamicPropertyOperation} {context : AccessContext} {force : Bool}
    {steps : List ServiceStep} {result : OperationResult}
    (h : ApplyTrace service operation context force steps result) :
    (QuietSteps steps ∧ result.status ≠ .applied) ∨
      ∃ earlier world outcome world' later,
        steps = earlier ++
          ⟨world, .commitApply service operation context force, outcome, world'⟩ :: later ∧
        QuietSteps earlier ∧ QuietSteps later ∧
        Acts world (.commitApply service operation context force) outcome world' ∧
        (outcome = .error result ∨ outcome = .ok result) := by
  cases h with
  | rejected hchecks hstatus => exact Or.inl ⟨hchecks.quiet, hstatus.1⟩
  | @announced checks announcement answer world world' transactionId final failures result
      hchecks hid hannouncement hanswer =>
      have hbefore : QuietSteps (checks ++
          ⟨world, .makeTransactionId, transactionId, world'⟩ :: announcement) :=
        quietSteps_append hchecks.quiet
          (quietSteps_cons (by trivial) hid hannouncement.quiet)
      rw [← List.cons_append, ← List.append_assoc]
      cases hanswer with
      | cancelled hcancels hstatus hrecords =>
          exact Or.inl ⟨quietSteps_append hbefore hrecords.quiet, by rw [hstatus]; decide⟩
      | refused hgoes hact hrecords =>
          exact Or.inr ⟨_, _, _, _, _, rfl, hbefore, hrecords.quiet, hact, Or.inl rfl⟩
      | committed hgoes hact hpublications hrecords =>
          exact Or.inr ⟨_, _, _, _, _, rfl, hbefore,
            quietSteps_append hpublications.quiet hrecords.quiet, hact, Or.inr rfl⟩

/-- A complete `transact` commits nothing, or it commits once, among quiet steps. -/
theorem TransactTrace.commits {service : DynamicPropertyService}
    {transaction : DynamicPropertyTransaction} {context : AccessContext}
    {steps : List ServiceStep} {result : TransactionResult}
    (h : TransactTrace service transaction context steps result) :
    QuietSteps steps ∨ ∃ earlier world commit world' later,
      steps = earlier ++
        ⟨world, .commitTransact service transaction
          (DynamicPropertyService.transactionContext transaction context)
          (namedCollections transaction.operations), commit, world'⟩ :: later ∧
      QuietSteps earlier ∧ QuietSteps later ∧
      Acts world (.commitTransact service transaction
        (DynamicPropertyService.transactionContext transaction context)
        (namedCollections transaction.operations)) commit world' := by
  cases h with
  | empty hid hempty hstatus => exact Or.inl (quietSteps_cons (by trivial) hid quietSteps_nil)
  | rejected hid hchecks hstatus => exact Or.inl (quietSteps_cons (by trivial) hid hchecks.quiet)
  | @announced world world' transactionId checks announcement answer final failures result
      hid hchecks hannouncement hanswer =>
      have hbefore : QuietSteps
          (⟨world, .makeTransactionId, transactionId, world'⟩ :: (checks ++ announcement)) :=
        quietSteps_cons (by trivial) hid (quietSteps_append hchecks.quiet hannouncement.quiet)
      rw [← List.append_assoc checks, ← List.cons_append]
      cases hanswer with
      | cancelled hcancels hstatus hresult hrecords =>
          exact Or.inl (quietSteps_append hbefore hrecords.quiet)
      | refused hgoes hact hout hstatus hrecords =>
          exact Or.inr ⟨_, _, _, _, _, rfl, hbefore, hrecords.quiet, hact⟩
      | committed hgoes hact hout hpublication hrecords =>
          exact Or.inr ⟨_, _, _, _, _, rfl, hbefore,
            quietSteps_append hpublication.quiet hrecords.quiet, hact⟩

end DynamicProperties.Cpp
