import DynamicProperties.Cpp.CommittedFacts
import DynamicProperties.Python.StoreIntegrity
import DynamicProperties.Python.Transitions

/-!
# The transition an after event reports

Both services report a transaction with the captures after its commit.  The captures
before it are taken under the lock in C++.  Python repeats those it announced the
transaction with, from before its listeners ran: they are the captures before the
commit exactly when nobody has changed a participating collection in between.
-/

namespace DynamicProperties

open DynamicProperties.Library.OrderedMap
open DynamicProperties.Library.Pool
open DynamicProperties.Library.Requests
open DynamicProperties.Library.Requests.Program
open DynamicProperties.Library.Raising

namespace Python

/-- A step that issues a transaction identifier. -/
def issuesId : ServiceStep → Bool
  | ⟨_, .newTransactionId, _, _⟩ => true
  | _ => false

/-- The steps of a transaction since it has its identifier.  The captures among them
are those it is announced with. -/
def sinceIssued (steps : List ServiceStep) : List ServiceStep :=
  steps.dropWhile fun step => !issuesId step

theorem sinceIssued_append {checks : List ServiceStep} {issue : ServiceStep}
    (hchecks : ∀ step ∈ checks, IsCapture step.request) (hissue : issuesId issue = true)
    (steps : List ServiceStep) : sinceIssued (checks ++ issue :: steps) = issue :: steps := by
  have hnone : ∀ step ∈ checks, (!issuesId step) = true := by
    rintro ⟨before, r, response, after⟩ hstep
    have hcapture := hchecks _ hstep
    cases r with
    | capture ref => rfl
    | _ => exact hcapture.elim
  rw [sinceIssued, List.dropWhile_append_of_pos hnone, List.dropWhile_cons_of_neg]
  rw [hissue]
  decide

/-- **What a transaction of the Python service reports.** -/
theorem TransactTrace.reports {digest : Canonical → UInt64} {service : DynamicPropertyService}
    {transaction : Transaction} {context : AccessContext} {steps : List ServiceStep}
    (h : TransactTrace digest service transaction context steps) {event : Event}
    (hpresents : Presents steps event) (hkind : event.kind = .afterTransaction) :
    ∃ commit ∈ steps,
      commit.request = .commitTransact service transaction (namedRefs transaction.operations) ∧
      Captures digest commit.after (namedRefs transaction.operations) event.after ∧
      (Captures digest commit.before (namedRefs transaction.operations) event.before ↔
        ∀ step ∈ sinceIssued steps, Unmoved commit.before step) := by
  cases h with
  | unreported hnone =>
      have hbefore := hnone event hpresents
      rw [hkind] at hbefore
      cases hbefore
  | @reported checks captures announcement later world issued before after transactionId snapshots
      commit hchecks htaken hpublication hannounced hact hlater hreport =>
      have hevent : event = committedEvent transaction context transactionId snapshots commit := by
        have hnotAnnounced : ¬ Presents announcement event := fun h => by
          have hbefore := hannounced event h
          rw [hkind] at hbefore
          cases hbefore
        rcases presents_append.mp hpresents with h | h
        · exact absurd h (presents_not_of_captures hchecks event)
        rcases presents_cons.mp h with h | h
        · cases h
        rcases presents_append.mp h with h | h
        · exact absurd h (presents_not_of_captures htaken.captures event)
        rcases presents_append.mp h with h | h
        · exact absurd h hnotAnnounced
        rcases presents_cons.mp h with h | h
        · cases h
        · exact hreport event h
      obtain ⟨hshown, hafter⟩ := commitTransact_captures hact
      refine ⟨_, List.mem_append_right _ (List.mem_cons_of_mem _ (List.mem_append_right _
        (List.mem_append_right _ List.mem_cons_self))), rfl, ?_, ?_⟩
      · rw [hevent]
        exact hafter
      · rw [hevent, sinceIssued_append hchecks rfl]
        show Captures digest before _ snapshots ↔ _
        rw [htaken.captures_iff hshown]
        have hsilent : ∀ step ∈ announcement, Unmoved before step := fun step hstep =>
          unmoved_of_not_capture (not_capture_of_publication (hpublication step hstep)) before
        constructor
        · intro h step hstep
          rcases List.mem_cons.mp hstep with rfl | hstep
          · trivial
          rcases List.mem_append.mp hstep with hstep | hstep
          · exact h step hstep
          rcases List.mem_append.mp hstep with hstep | hstep
          · exact hsilent step hstep
          rcases List.mem_cons.mp hstep with rfl | hstep
          · trivial
          · exact unmoved_of_not_capture (hlater step hstep) before
        · exact fun h step hstep =>
            h step (List.mem_cons_of_mem _ (List.mem_append_left _ hstep))

end Python

/-- **What both services report of a transaction.** -/
theorem transitions_reported (digest : Python.Canonical → UInt64) :
    (∀ (service : Cpp.DynamicPropertyService) (transaction : Cpp.DynamicPropertyTransaction)
        (context : Cpp.AccessContext),
      Ensures Cpp.Acts (service.transact transaction context) fun steps _ =>
        ∀ event, Cpp.Presents steps event → event.kind = .afterTransaction →
          ∃ commit ∈ steps,
            commit.request = .commitTransact service transaction
              (Cpp.DynamicPropertyService.transactionContext transaction context)
              (Cpp.namedCollections transaction.operations) ∧
            event.before = Cpp.lockedCaptures commit.before.adapter
              (Cpp.namedCollections transaction.operations) ∧
            event.after = Cpp.lockedCaptures commit.after.adapter
              (Cpp.namedCollections transaction.operations)) ∧
    (∀ (service : Python.DynamicPropertyService) (transaction : Python.Transaction)
        (context : Python.AccessContext),
      Ensures (Python.Acts digest) (service.transact transaction context).run fun steps _ =>
        ∀ event, Python.Presents steps event → event.kind = .afterTransaction →
          ∃ commit ∈ steps,
            commit.request = .commitTransact service transaction
              (Python.namedRefs transaction.operations) ∧
            Python.Captures digest commit.after (Python.namedRefs transaction.operations)
              event.after ∧
            (Python.Captures digest commit.before (Python.namedRefs transaction.operations)
              event.before ↔
                ∀ step ∈ Python.sinceIssued steps, Python.Unmoved commit.before step)) := by
  constructor
  · intro service transaction context steps result hexec event hpresents hkind
    have htrace := Cpp.transact_trace service transaction context steps result hexec
    have hfollows : event.kind.followsCommit = true := by
      rw [hkind]
      rfl
    obtain ⟨transactionId, world, commit, world', -, hstep, hfacts⟩ :=
      htrace.facts event hpresents hfollows
    exact ⟨_, hstep, rfl, congrArg Cpp.CommittedFacts.before hfacts,
      congrArg Cpp.CommittedFacts.after hfacts⟩
  · intro service transaction context steps outcome hexec event hpresents hkind
    have htrace := Python.transact_trace steps outcome hexec
    exact htrace.reports hpresents hkind

/-! ## A listener that writes to the collection -/

namespace Python

/-- A transaction that writes a title. -/
def retitle : Transaction :=
  { operations := [.setProperty { ref := notes, key := str "title", value := .bool true }] }

def retitleNotes : ServiceCall := .transact {} retitle { rawAdmin := true }

/-- A world with one listener for announced transactions. -/
def overseen : World :=
  ({} : World).updateBus 0 fun events => (events.subscribe { kind := some .beforeTransaction }).2

/-- The transaction is announced, and its listener, the next to answer after four
steps, writes a draft. -/
noncomputable def retitled :
    Library.Pool.State serviceInterface World ServiceCall (Except PyError CallResult) :=
  (⟨overseen, []⟩ : Library.Pool.State serviceInterface World ServiceCall _).nested
    (serviceSystem (fun _ => 0) plainInterpreter) (respond fun _ => 0) retitleNotes
    (setDraft (.bool true)) 4

theorem run_retitled : Run (serviceSystem (fun _ => 0) plainInterpreter) {} retitled :=
  have hoverseen : Interferes {} overseen := .subscribe 0 { kind := some .beforeTransaction }
  (Run.move .nil (.interfere [] hoverseen)).nested (acts_respond fun _ => 0) retitleNotes
    (setDraft (.bool true)) 4

/-- The draft is there when the transaction commits, and missing from what the after
event says was there. -/
theorem transition_misreported :
    Run (serviceSystem (fun _ => 0) plainInterpreter) {} retitled ∧
    ∃ c ∈ retitled.calls, c.job = retitleNotes ∧
      (∃ result, c.Returned (.ok (.transaction result)) ∧ result.status = .applied) ∧
      ∃ event, Presents c.steps event ∧ event.kind = .afterTransaction ∧
        ∃ commit ∈ c.steps,
          commit.request = .commitTransact {} retitle (namedRefs retitle.operations) ∧
          ¬ Captures (fun _ => 0) commit.before (namedRefs retitle.operations) event.before := by
  refine ⟨run_retitled, _, List.mem_cons_self, rfl, ⟨_, rfl, rfl⟩,
    _, ⟨_, List.mem_of_getElem? (i := 6) rfl, rfl⟩, rfl,
    _, List.mem_of_getElem? (i := 5) rfl, rfl, fun h => ?_⟩
  have hexists : (Except.ok [true] : Except PyError (List Bool)) = .ok [false] :=
    congrArg (fun taken => taken.map fun snapshots => snapshots.map fun s => s.exists_) h
  cases hexists

end Python

end DynamicProperties
