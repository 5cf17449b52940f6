import DynamicProperties.Cpp.Cancellation

/-!
# What listeners can forge

After a commit the service announces facts: the transaction identifier, the
actor, the collections and the snapshots before and after.  An event is
*presented* when it is matched against the filters and when it is handed to its
first listener; what a listener hands on is its own doing.

Every event presented after a commit states the committed facts, with one
exception.  `publishAfter` makes the `CollectionMigrated` event out of the after
event as its listeners left it, so a committed migration presents forged facts
exactly when the listeners of the after event changed one of them.
-/

namespace DynamicProperties.Cpp

open DynamicProperties.Library.Requests
open DynamicProperties.Library.Requests.Program

/-- The facts an event states. -/
structure CommittedFacts where
  transactionId : ByteString
  actor : AccessContext
  collections : List CollectionRef
  before : List CollectionSnapshot
  after : List CollectionSnapshot
  deriving DecidableEq

def DynamicPropertyEvent.facts (event : DynamicPropertyEvent) : CommittedFacts :=
  ⟨event.transactionId, event.actor, event.collections, event.before, event.after⟩

/-- The kinds of events that follow a commit. -/
def DynamicPropertyEventKind.followsCommit : DynamicPropertyEventKind → Bool
  | afterMutation | afterTransaction | afterExternalMutation | collectionMigrated => true
  | beforeMutation | beforeTransaction | beforeExternalMutation => false

/-- The event a step matches against the filters or hands to its first listener. -/
def presentedEvent : ServiceStep → Option DynamicPropertyEvent
  | ⟨_, .matchListeners _ event, _, _⟩ => some event
  | ⟨_, .invoke _ _ 0 current, _, _⟩ => some current
  | _ => none

/-- Some step presents the event. -/
def Presents (steps : List ServiceStep) (event : DynamicPropertyEvent) : Prop :=
  event ∈ steps.filterMap presentedEvent

/-- The last listener of the events of a kind left their facts as presented. -/
def LeftAlone (kind : DynamicPropertyEventKind) (steps : List ServiceStep) : Prop :=
  ∀ last ∈ (answers kind steps).getLast?, ∀ event, Presents steps event → event.kind = kind →
    last.1.facts = event.facts

section Presented

variable {steps : List ServiceStep} {event : DynamicPropertyEvent}

theorem presents_append {first second : List ServiceStep} :
    Presents (first ++ second) event ↔ Presents first event ∨ Presents second event := by
  rw [Presents, List.filterMap_append, List.mem_append]
  rfl

theorem presents_cons_of_none {step : ServiceStep} (h : presentedEvent step = none) :
    Presents (step :: steps) event ↔ Presents steps event := by
  rw [Presents, List.filterMap_cons_none h]
  rfl

theorem AllCaptures.presents_not (h : AllCaptures steps) : ¬ Presents steps event := by
  intro hpresents
  obtain ⟨step, hstep, hevent⟩ := List.mem_filterMap.mp hpresents
  obtain ⟨world, ref, rfl⟩ := h step hstep
  cases hevent

theorem Recorded.presents_not {sink : Nat} {entries : List DynamicPropertyAuditRecord}
    (h : Recorded sink entries steps) : ¬ Presents steps event := by
  rw [Presents, h.filterMap fun _ _ _ _ => rfl]
  exact List.not_mem_nil

/-- Only the first delivery of a publication presents its event. -/
theorem Deliveries.presents {published current final : DynamicPropertyEvent} {position : Nat}
    {listeners failures : List UInt64}
    (h : Deliveries published position listeners current steps final failures)
    (hpresents : Presents steps event) : position = 0 ∧ event = current := by
  induction h with
  | nil position current => cases hpresents
  | @cons position listener rest current world answer steps final failures _ ih =>
      cases position with
      | zero =>
          refine ⟨rfl, ?_⟩
          rcases List.mem_cons.mp hpresents with rfl | htail
          · rfl
          · exact absurd (ih htail).1 (by omega)
      | succ position =>
          have htail : Presents steps event := hpresents
          exact absurd (ih htail).1 (by omega)

theorem Publication.presents_iff {bus : Nat} {published final : DynamicPropertyEvent}
    {failures : List UInt64} (h : Publication bus published steps final failures) :
    Presents steps event ↔ event = published := by
  cases h with
  | mk world hdeliveries =>
      constructor
      · intro hpresents
        rcases List.mem_cons.mp hpresents with rfl | htail
        · rfl
        · exact (hdeliveries.presents htail).2
      · rintro rfl
        exact List.mem_cons_self

/-- What the listeners of a publication left of its event. -/
theorem Publication.final_eq {bus : Nat} {published final : DynamicPropertyEvent}
    {failures : List UInt64} {kind : DynamicPropertyEventKind}
    (h : Publication bus published steps final failures) (hkind : published.kind = kind) :
    final = ((answers kind steps).getLast?.map Prod.fst).getD published := by
  cases h with
  | mk world hdeliveries =>
      rw [answers_cons_of_none rfl]
      exact (hdeliveries.heeded hkind).2

theorem Announcement.presents {bus : Nat} {published final : DynamicPropertyEvent}
    {failures : List UInt64} (h : Announcement bus published steps final failures)
    (hpresents : Presents steps event) : event.kind = published.kind := by
  cases h with
  | mk snapshots hcaptures hpublication =>
      rcases presents_append.mp hpresents with hcapture | hevent
      · exact absurd hcapture hcaptures.presents_not
      · rw [hpublication.presents_iff.mp hevent]

/-- The facts that `publishAfter` announces. -/
def afterFacts (operation : DynamicPropertyOperation) (context : AccessContext)
    (result : OperationResult) (transactionId : ByteString) : CommittedFacts :=
  ⟨transactionId, context, operationCollections operation, result.before, result.after⟩

variable {service : DynamicPropertyService} {kind : DynamicPropertyEventKind}
  {operation : DynamicPropertyOperation} {context : AccessContext} {result : OperationResult}
  {transactionId : ByteString}

theorem AfterPublications.followsCommit (hkind : kind.followsCommit = true)
    (h : AfterPublications service kind operation context result transactionId steps)
    (hpresents : Presents steps event) : event.kind.followsCommit = true := by
  cases h with
  | single hplain hevent =>
      rw [hevent.presents_iff.mp hpresents]
      exact hkind
  | migration hmigration hevent hsecond =>
      rcases presents_append.mp hpresents with hfirst | hmigrated
      · rw [hevent.presents_iff.mp hfirst]
        exact hkind
      · rw [hsecond.presents_iff.mp hmigrated]
        rfl

/-- The publications of `publishAfter` state the committed facts, unless they
announce a migration whose after event was edited. -/
theorem AfterPublications.facts_iff (hkind : kind ≠ .collectionMigrated)
    (h : AfterPublications service kind operation context result transactionId steps) :
    (∀ event, Presents steps event →
      event.facts = afterFacts operation context result transactionId) ↔
    (result.ok = true → isMigration operation = true → LeftAlone kind steps) := by
  have hafter : (afterEvent kind operation context result transactionId).facts =
    afterFacts operation context result transactionId := rfl
  cases h with
  | single hplain hevent =>
      constructor
      · intro _ hok hmigration
        rw [hok, hmigration] at hplain
        cases hplain
      · intro _ event hpresents
        rw [hevent.presents_iff.mp hpresents, hafter]
  | @migration first second final final' failures failures' hmigration hevent hsecond =>
      have hfinal := hevent.final_eq rfl
      change final = ((answers kind first).getLast?.map Prod.fst).getD _ at hfinal
      have hanswers : answers kind (first ++ second) = answers kind first := by
        rw [answers_append, hsecond.answers_of_ne (Ne.symm hkind), List.append_nil]
      obtain ⟨hok, hmoves⟩ := Bool.and_eq_true_iff.mp hmigration
      constructor
      · intro hfacts _ _ last hlast event hpresents hevent'
        rw [hanswers] at hlast
        rw [hfacts event hpresents]
        have hmigrated := hfacts { final with kind := .collectionMigrated }
          (presents_append.mpr (Or.inr (hsecond.presents_iff.mpr rfl)))
        rw [Option.mem_def.mp hlast] at hfinal
        change final = last.1 at hfinal
        rw [← hfinal]
        exact hmigrated
      · intro halone event hpresents
        rcases presents_append.mp hpresents with hfirst | hmigrated
        · rw [hevent.presents_iff.mp hfirst, hafter]
        · rw [hsecond.presents_iff.mp hmigrated]
          change final.facts = _
          cases hlast : (answers kind first).getLast? with
          | none =>
              rw [hlast] at hfinal
              change final = afterEvent kind operation context result transactionId at hfinal
              rw [hfinal, hafter]
          | some last =>
              rw [hlast] at hfinal
              change final = last.1 at hfinal
              rw [hfinal, ← hafter]
              exact halone hok hmoves last (by rw [hanswers]; exact hlast) _
                (presents_append.mpr (Or.inl (hevent.presents_iff.mpr rfl))) rfl

end Presented

/-! ## Steps that announce no commit -/

/-- No listener answers to, and no step presents, an event that follows a
commit. -/
structure AnnouncesNothing (steps : List ServiceStep) : Prop where
  unanswered : ∀ kind : DynamicPropertyEventKind, kind.followsCommit = true →
    answers kind steps = []
  unpresented : ∀ event, Presents steps event → event.kind.followsCommit = false

section Frames

variable {earlier steps later : List ServiceStep}

theorem announcesNothing_nil : AnnouncesNothing [] where
  unanswered _ _ := rfl
  unpresented event h := by cases h

theorem AnnouncesNothing.append (hearlier : AnnouncesNothing earlier)
    (hlater : AnnouncesNothing later) : AnnouncesNothing (earlier ++ later) where
  unanswered kind hkind := by
    rw [answers_append, hearlier.unanswered kind hkind, hlater.unanswered kind hkind]
    rfl
  unpresented event h := by
    rcases presents_append.mp h with h | h
    · exact hearlier.unpresented event h
    · exact hlater.unpresented event h

theorem AnnouncesNothing.cons {step : ServiceStep} (hanswer : ∀ kind, answerTo kind step = none)
    (hpresented : presentedEvent step = none) (hsteps : AnnouncesNothing steps) :
    AnnouncesNothing (step :: steps) where
  unanswered kind hkind := by
    rw [answers_cons_of_none (hanswer kind), hsteps.unanswered kind hkind]
  unpresented event h := hsteps.unpresented event ((presents_cons_of_none hpresented).mp h)

theorem AllCaptures.announcesNothing (h : AllCaptures steps) : AnnouncesNothing steps where
  unanswered _ _ := h.answers
  unpresented _ hpresents := absurd hpresents h.presents_not

theorem Recorded.announcesNothing {sink : Nat} {entries : List DynamicPropertyAuditRecord}
    (h : Recorded sink entries steps) : AnnouncesNothing steps where
  unanswered _ _ := h.answers
  unpresented _ hpresents := absurd hpresents h.presents_not

theorem Announcement.announcesNothing {bus : Nat} {published final : DynamicPropertyEvent}
    {failures : List UInt64} (h : Announcement bus published steps final failures)
    (hkind : published.kind.followsCommit = false) : AnnouncesNothing steps where
  unanswered kind hfollows := by
    have hne : published.kind ≠ kind := by
      rintro rfl
      rw [hkind] at hfollows
      cases hfollows
    cases h with
    | mk snapshots hcaptures hpublication =>
        rw [answers_append, hcaptures.answers, hpublication.answers_of_ne hne]
        rfl
  unpresented event hpresents := by
    rw [h.presents hpresents]
    exact hkind

/-- Around steps that announce nothing, the same events are presented. -/
theorem presents_frame (hearlier : AnnouncesNothing earlier) (hlater : AnnouncesNothing later)
    {event : DynamicPropertyEvent} (hkind : event.kind.followsCommit = true) :
    Presents (earlier ++ (steps ++ later)) event ↔ Presents steps event := by
  rw [presents_append, presents_append]
  constructor
  · rintro (h | h | h)
    · rw [hearlier.unpresented event h] at hkind
      cases hkind
    · exact h
    · rw [hlater.unpresented event h] at hkind
      cases hkind
  · exact fun h => Or.inr (Or.inl h)

/-- Around steps that announce nothing, the same events are left alone. -/
theorem leftAlone_frame (hearlier : AnnouncesNothing earlier) (hlater : AnnouncesNothing later)
    {kind : DynamicPropertyEventKind} (hkind : kind.followsCommit = true) :
    LeftAlone kind (earlier ++ (steps ++ later)) ↔ LeftAlone kind steps := by
  have hanswers : answers kind (earlier ++ (steps ++ later)) = answers kind steps := by
    rw [answers_append, answers_append, hearlier.unanswered kind hkind,
      hlater.unanswered kind hkind, List.nil_append, List.append_nil]
  have hpresents : ∀ event : DynamicPropertyEvent, event.kind = kind →
      (Presents (earlier ++ (steps ++ later)) event ↔ Presents steps event) := by
    rintro event rfl
    exact presents_frame hearlier hlater hkind
  unfold LeftAlone
  rw [hanswers]
  constructor
  · intro h last hlast event hevent hsame
    exact h last hlast event ((hpresents event hsame).mpr hevent) hsame
  · intro h last hlast event hevent hsame
    exact h last hlast event ((hpresents event hsame).mp hevent) hsame

end Frames

/-! ## The three calls -/

/-- The captures of several collections under the commit lock. -/
def lockedCaptures (adapter : InMemoryAdapter) (collections : List CollectionRef) :
    List CollectionSnapshot :=
  Id.run (captureEach (fun ref => pure (adapter.capture ref)) collections)

/-- The commit of a transaction captures before and after, under one lock. -/
theorem commitTransact_captures {world world' : World} {service : DynamicPropertyService}
    {transaction : DynamicPropertyTransaction} {context : AccessContext}
    {collections : List CollectionRef} {commit : TransactCommit}
    (h : Acts world (.commitTransact service transaction context collections) commit world') :
    commit.before = lockedCaptures world.adapter collections ∧
      commit.after = lockedCaptures world'.adapter collections := by
  have hact : (commit, world') =
    respond world (.commitTransact service transaction context collections) := h
  have hfirst : commit =
      (service.commitTransact world.adapter transaction context collections).1 :=
    congrArg Prod.fst hact
  have hsecond : world'.adapter =
      (service.commitTransact world.adapter transaction context collections).2 :=
    congrArg (fun pair => pair.2.adapter) hact
  rw [hfirst, hsecond]
  unfold DynamicPropertyService.commitTransact
  dsimp only
  split
  · exact ⟨rfl, rfl⟩
  · exact ⟨rfl, rfl⟩

section Facts

variable (service : DynamicPropertyService) (context : AccessContext)
  (steps : List ServiceStep)

/-- Every event an `apply` presents after its commit states its facts. -/
def ApplyFacts (operation : DynamicPropertyOperation) (force : Bool)
    (result : OperationResult) : Prop :=
  ∀ event, Presents steps event → event.kind.followsCommit = true →
    ∃ transactionId world world', issuedIds steps = [transactionId] ∧
      ⟨world, .commitApply service operation context force, .ok result, world'⟩ ∈ steps ∧
      event.facts = afterFacts operation context result transactionId

/-- Every event a `transact` presents after its commit states its facts; its
snapshots are the captures under the commit lock. -/
def TransactFacts (transaction : DynamicPropertyTransaction) : Prop :=
  ∀ event, Presents steps event → event.kind.followsCommit = true →
    ∃ transactionId world commit world', issuedIds steps = [transactionId] ∧
      ⟨world, .commitTransact service transaction
          (DynamicPropertyService.transactionContext transaction context)
          (namedCollections transaction.operations), commit, world'⟩ ∈ steps ∧
      event.facts =
        ⟨transactionId, DynamicPropertyService.transactionContext transaction context,
          namedCollections transaction.operations,
          lockedCaptures world.adapter (namedCollections transaction.operations),
          lockedCaptures world'.adapter (namedCollections transaction.operations)⟩

/-- Every event an `afterExternalMutation` presents states the facts it was
given, under the identifier it was given or a fresh one. -/
def ExternalFacts (operation : DynamicPropertyOperation) (result : OperationResult)
    (given : ByteString) : Prop :=
  ∀ event, Presents steps event → event.kind.followsCommit = true →
    ∃ transactionId,
      (if given = [] then issuedIds steps = [transactionId] else transactionId = given) ∧
      event.facts = afterFacts operation (DynamicPropertyService.externalContext context) result
        transactionId

variable {service context steps}

theorem AnnouncesNothing.leftAlone (h : AnnouncesNothing steps) {kind : DynamicPropertyEventKind}
    (hkind : kind.followsCommit = true) : LeftAlone kind steps := by
  intro last hlast
  rw [h.unanswered kind hkind] at hlast
  cases hlast

/-- Where nothing is announced there is nothing to forge. -/
private theorem facts_iff_of_silence {facts : DynamicPropertyEvent → Prop}
    (h : AnnouncesNothing steps) {kind : DynamicPropertyEventKind}
    (hkind : kind.followsCommit = true) {ok moves : Prop} :
    (∀ event, Presents steps event → event.kind.followsCommit = true → facts event) ↔
      (ok → moves → LeftAlone kind steps) := by
  constructor
  · exact fun _ _ _ => h.leftAlone hkind
  · intro _ event hpresents hfollows
    rw [h.unpresented event hpresents] at hfollows
    cases hfollows

variable {operation : DynamicPropertyOperation} {force : Bool} {result : OperationResult}

theorem ApplyTrace.facts_iff (h : ApplyTrace service operation context force steps result) :
    ApplyFacts service context steps operation force result ↔
      (result.ok = true → isMigration operation = true → LeftAlone .afterMutation steps) := by
  cases h with
  | rejected hchecks hstatus => exact facts_iff_of_silence hchecks.announcesNothing rfl
  | @announced checks announcement answer world world' transactionId final failures result
      hchecks hid hannouncement hanswer =>
      have hearlier : ∀ {later : List ServiceStep}, AnnouncesNothing later →
          AnnouncesNothing (checks ++ ⟨world, .makeTransactionId, transactionId, world'⟩ ::
            (announcement ++ later)) := fun hlater =>
        hchecks.announcesNothing.append (.cons (fun _ => rfl) rfl
          ((hannouncement.announcesNothing rfl).append hlater))
      cases hanswer with
      | cancelled hcancels hstatus hrecords =>
          exact facts_iff_of_silence (hearlier hrecords.announcesNothing) rfl
      | refused hgoes hact hrecords =>
          exact facts_iff_of_silence
            (hearlier (.cons (fun _ => rfl) rfl hrecords.announcesNothing)) rfl
      | @committed before after result publications records hgoes hact hpublications hrecords =>
          let commit : ServiceStep :=
            ⟨before, .commitApply service operation context force, .ok result, after⟩
          have hsteps : checks ++ ⟨world, .makeTransactionId, transactionId, world'⟩ ::
              (announcement ++ commit :: (publications ++ records)) =
              (checks ++ ⟨world, .makeTransactionId, transactionId, world'⟩ ::
                (announcement ++ [commit])) ++ (publications ++ records) := by simp
          have hfront := hearlier (.cons (fun _ => rfl) rfl announcesNothing_nil :
            AnnouncesNothing [commit])
          have hids : issuedIds (checks ++ ⟨world, .makeTransactionId, transactionId, world'⟩ ::
              (announcement ++ commit :: (publications ++ records))) = [transactionId] := by
            simp only [issuedIds, List.filterMap_append, List.filterMap_cons, issuedId, commit]
            rw [hchecks.observing.filterMap issuedId_observes,
              hannouncement.observing.filterMap issuedId_observes,
              hpublications.observing.filterMap issuedId_observes,
              hrecords.filterMap fun _ _ _ _ => rfl]
            rfl
          have hfacts : ApplyFacts service context (checks ++
              ⟨world, .makeTransactionId, transactionId, world'⟩ ::
                (announcement ++ commit :: (publications ++ records))) operation force result ↔
              ∀ event, Presents publications event →
                event.facts = afterFacts operation context result transactionId := by
            unfold ApplyFacts
            rw [hids, hsteps]
            constructor
            · intro h event hpresents
              have hfollows := hpublications.followsCommit rfl hpresents
              obtain ⟨id, _, _, hid, -, hevent⟩ := h event
                ((presents_frame hfront hrecords.announcesNothing hfollows).mpr hpresents) hfollows
              cases hid
              exact hevent
            · intro h event hpresents hfollows
              refine ⟨transactionId, before, after, rfl, ?_, h event
                ((presents_frame hfront hrecords.announcesNothing hfollows).mp hpresents)⟩
              simp [commit]
          rw [hfacts, hpublications.facts_iff (by decide), hsteps,
            leftAlone_frame hfront hrecords.announcesNothing rfl]

theorem TransactTrace.facts {transaction : DynamicPropertyTransaction} {result : TransactionResult}
    (h : TransactTrace service transaction context steps result) :
    TransactFacts service context steps transaction := by
  have hsilence : AnnouncesNothing steps → TransactFacts service context steps transaction := by
    intro h event hpresents hfollows
    rw [h.unpresented event hpresents] at hfollows
    cases hfollows
  cases h with
  | empty hid hempty hstatus => exact hsilence (.cons (fun _ => rfl) rfl announcesNothing_nil)
  | rejected hid hchecks hstatus =>
      exact hsilence (.cons (fun _ => rfl) rfl hchecks.announcesNothing)
  | @announced world world' transactionId checks announcement answer final failures result
      hid hchecks hannouncement hanswer =>
      have hearlier : ∀ {later : List ServiceStep}, AnnouncesNothing later →
          AnnouncesNothing (⟨world, .makeTransactionId, transactionId, world'⟩ ::
            (checks ++ (announcement ++ later))) := fun hlater =>
        .cons (fun _ => rfl) rfl (hchecks.announcesNothing.append
          ((hannouncement.announcesNothing rfl).append hlater))
      cases hanswer with
      | cancelled hcancels hstatus hresult hrecords =>
          exact hsilence (hearlier hrecords.announcesNothing)
      | refused hgoes hact hout hstatus hrecords =>
          exact hsilence (hearlier (.cons (fun _ => rfl) rfl hrecords.announcesNothing))
      | @committed before after commit result final' failures' publication records hgoes hact hout
          hpublication hrecords =>
          let step : ServiceStep :=
            ⟨before, .commitTransact service transaction
              (DynamicPropertyService.transactionContext transaction context)
              (namedCollections transaction.operations), commit, after⟩
          have hsteps : ⟨world, .makeTransactionId, transactionId, world'⟩ ::
              (checks ++ (announcement ++ step :: (publication ++ records))) =
              (⟨world, .makeTransactionId, transactionId, world'⟩ ::
                (checks ++ (announcement ++ [step]))) ++ (publication ++ records) := by simp
          have hfront := hearlier (.cons (fun _ => rfl) rfl announcesNothing_nil :
            AnnouncesNothing [step])
          intro event hpresents hfollows
          rw [hsteps] at hpresents
          have hevent := hpublication.presents_iff.mp
            ((presents_frame hfront hrecords.announcesNothing hfollows).mp hpresents)
          refine ⟨transactionId, before, commit, after, ?_, ?_, ?_⟩
          · simp only [issuedIds, List.filterMap_append, List.filterMap_cons, issuedId]
            rw [hchecks.observing.filterMap issuedId_observes,
              hannouncement.observing.filterMap issuedId_observes,
              hpublication.observing.filterMap issuedId_observes,
              hrecords.filterMap fun _ _ _ _ => rfl]
            rfl
          · simp
          · obtain ⟨hbefore, hafter⟩ := commitTransact_captures hact
            rw [hevent, ← hbefore, ← hafter]
            rfl

theorem ObservationTrace.facts_iff {transactionId : ByteString}
    (h : ObservationTrace service operation result context transactionId steps) :
    issuedIds steps = [] ∧
      ((∀ event, Presents steps event → event.kind.followsCommit = true →
        event.facts = afterFacts operation (DynamicPropertyService.externalContext context) result
          transactionId) ↔
      (result.ok = true → isMigration operation = true →
        LeftAlone .afterExternalMutation steps)) := by
  cases h with
  | @mk publications records hpublications hrecords =>
      constructor
      · rw [issuedIds, List.filterMap_append, hpublications.observing.filterMap issuedId_observes,
          hrecords.filterMap fun _ _ _ _ => rfl]
        rfl
      · have hframe : ∀ event : DynamicPropertyEvent, event.kind.followsCommit = true →
            (Presents (publications ++ records) event ↔ Presents publications event) :=
          fun event => presents_frame announcesNothing_nil hrecords.announcesNothing
        have halone : LeftAlone .afterExternalMutation (publications ++ records) ↔
            LeftAlone .afterExternalMutation publications :=
          leftAlone_frame announcesNothing_nil hrecords.announcesNothing rfl
        rw [halone, ← hpublications.facts_iff (by decide)]
        constructor
        · intro h event hpresents
          have hfollows := hpublications.followsCommit rfl hpresents
          exact h event ((hframe event hfollows).mpr hpresents) hfollows
        · intro h event hpresents hfollows
          exact h event ((hframe event hfollows).mp hpresents)

theorem ExternalTrace.facts_iff {given : ByteString}
    (h : ExternalTrace service operation result context given steps) :
    ExternalFacts context steps operation result given ↔
      (result.ok = true → isMigration operation = true →
        LeftAlone .afterExternalMutation steps) := by
  cases h with
  | given hgiven hobservation =>
      rw [← hobservation.facts_iff.2]
      unfold ExternalFacts
      simp only [if_neg hgiven, exists_eq_left]
  | @issued observed world world' fresh hnone hid hobservation =>
      obtain ⟨hids, hiff⟩ := hobservation.facts_iff
      have hissued : issuedIds (⟨world, .makeTransactionId, fresh, world'⟩ :: observed) =
          [fresh] := by
        show fresh :: issuedIds observed = [fresh]
        rw [hids]
      have hstep : AnnouncesNothing [⟨world, .makeTransactionId, fresh, world'⟩] :=
        .cons (fun _ => rfl) rfl announcesNothing_nil
      have halone : LeftAlone .afterExternalMutation
          (⟨world, .makeTransactionId, fresh, world'⟩ :: observed) ↔
            LeftAlone .afterExternalMutation observed := by
        have hframe : LeftAlone .afterExternalMutation
            ([⟨world, .makeTransactionId, fresh, world'⟩] ++ (observed ++ [])) ↔
              LeftAlone .afterExternalMutation observed :=
          leftAlone_frame hstep announcesNothing_nil rfl
        rw [List.append_nil] at hframe
        exact hframe
      rw [halone, ← hiff]
      unfold ExternalFacts
      rw [hissued]
      simp only [if_pos hnone, List.cons.injEq, and_true, exists_eq_left']
      constructor
      · exact fun h event hpresents => h event ((presents_cons_of_none rfl).mpr hpresents)
      · exact fun h event hpresents => h event ((presents_cons_of_none rfl).mp hpresents)

end Facts

/-- **What listeners can forge.**  A complete `transact` presents the committed
facts only.  A complete `apply` or `afterExternalMutation` does so exactly when
it is no committed migration whose after event was edited. -/
theorem committedFacts_iff (service : DynamicPropertyService) (context : AccessContext)
    (steps : List ServiceStep) :
    (∀ operation force result,
      Executes Acts (service.apply operation context force) steps (done result) →
      (ApplyFacts service context steps operation force result ↔
        (result.ok = true → isMigration operation = true → LeftAlone .afterMutation steps))) ∧
    (∀ transaction result,
      Executes Acts (service.transact transaction context) steps (done result) →
      TransactFacts service context steps transaction) ∧
    (∀ operation result given,
      Executes Acts (service.afterExternalMutation operation result context given) steps
        (done ()) →
      (ExternalFacts context steps operation result given ↔
        (result.ok = true → isMigration operation = true →
          LeftAlone .afterExternalMutation steps))) := by
  refine ⟨?_, ?_, ?_⟩
  · intro operation force result h
    exact (apply_trace service operation context force steps result h).facts_iff
  · intro transaction result h
    exact (transact_trace service transaction context steps result h).facts
  · intro operation result given h
    exact (afterExternalMutation_trace service operation result context given steps () h).facts_iff

/-! ### A forged migration -/

/-- A listener that overwrites the transaction identifier. -/
def forgeId (_ : UInt64) (current : DynamicPropertyEvent) : DynamicPropertyEvent × Bool :=
  ({ current with transactionId := text "forged" }, false)

/-- A world with one collection and one listener. -/
def migrationWorld : World :=
  ({ adapter :=
      { store := (∅ : Store).insert ⟨{}, text "old"⟩
          ((∅ : DynamicPropertyMap).insert (text "on") (.bool true)) } } : World).updateBus 0
    fun bus => (bus.subscribe {}).2

def migration : DynamicPropertyOperation :=
  .transferCollection
    { source := ⟨{}, text "old"⟩, destination := ⟨{}, text "new"⟩, removeSource := true }

def migrate : ServiceProgram OperationResult :=
  ({} : DynamicPropertyService).apply migration { rawAdmin := true }

def forgedSteps : List ServiceStep := runSteps (respondWith forgeId) migrate migrationWorld

def forgedResult : OperationResult := (run (respondWith forgeId) migrate migrationWorld).1

/-- The equivalence at that migration. -/
theorem committedFacts_iff_forged :
    ApplyFacts {} { rawAdmin := true } forgedSteps migration false forgedResult ↔
      (forgedResult.ok = true → isMigration migration = true →
        LeftAlone .afterMutation forgedSteps) :=
  (committedFacts_iff {} { rawAdmin := true } forgedSteps).1 migration false forgedResult
    (executes_run (acts_respondWith forgeId) migrate migrationWorld)

/-- The migration is applied under one identifier and announced under another. -/
theorem forged_not_applyFacts :
    Executes Acts migrate forgedSteps (done forgedResult) ∧ forgedResult.status = .applied ∧
      issuedIds forgedSteps = [text "dptx-1"] ∧
      (∃ event ∈ forgedSteps.filterMap presentedEvent,
        event.kind = .collectionMigrated ∧ event.transactionId = text "forged") ∧
      ¬ ApplyFacts {} { rawAdmin := true } forgedSteps migration false forgedResult := by
  have hids : issuedIds forgedSteps = [text "dptx-1"] := by decide
  have hforged : ∃ event ∈ forgedSteps.filterMap presentedEvent,
      event.kind = .collectionMigrated ∧ event.transactionId = text "forged" := by decide
  refine ⟨executes_run (acts_respondWith forgeId) migrate migrationWorld, by decide, hids,
    hforged, fun hfacts => ?_⟩
  obtain ⟨event, hpresents, hkind, hid⟩ := hforged
  obtain ⟨transactionId, _, _, hissued, -, hevent⟩ := hfacts event hpresents (by rw [hkind]; rfl)
  rw [hids] at hissued
  have hsame : event.transactionId = transactionId := congrArg CommittedFacts.transactionId hevent
  rw [hid, ← (List.cons.inj hissued).1] at hsame
  exact absurd hsame (by decide)

end DynamicProperties.Cpp
