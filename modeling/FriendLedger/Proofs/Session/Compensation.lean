import FriendLedger.Proofs.Plain
import FriendLedger.Proofs.Session.Recoverable

/-! Undoing never fails on its own: what clients do leads to sessions in which everything
that is recorded can be undone, and no other call fails as a rollback does. -/

namespace FriendLedger.Session

set_option autoImplicit false

section Answers
variable {α : Type}

abbrev PlainRefusal (x : Except Refusal α) : Prop := ErrorsIn (·.isRollback = false) x

theorem plain_failed {x : Except Failure α} (h : Plain x) : PlainRefusal (failed x) := by
  cases x with
  | ok a => exact errorsIn_ok a
  | error f => exact errorsIn_error.mpr (h f rfl)

theorem plain_stopped {x : Except Stop α} (h : PlainStop x) : PlainRefusal (stopped x) := by
  cases x with
  | ok a => exact errorsIn_ok a
  | error e => exact errorsIn_error.mpr (h e rfl)

theorem plain_withJournal {s : Session}
    {call : Journal → Book → Except Stop α × Journal × Book} {reply : α → Reply}
    (hcall : ∀ j, PlainStop (call j s.book).1) (name : Option String) :
    PlainRefusal (s.withJournal name call reply).1 := by
  cases name with
  | none => exact plain_stopped ((hcall .empty).map reply)
  | some name => exact plain_stopped ((hcall (s.journal name)).map reply)

end Answers

namespace Recoverable
variable {s : Session} (h : s.Recoverable) (now : Amount)
include h

/-- A rollback succeeds as long as the ids last. -/
theorem rollback_ok (hids : ¬ s.book.Exhausted) (name : String) :
    (s.step now (.journalRollback name)).1 = .ok .done := by
  obtain ⟨-, -, hok⟩ :=
    Journal.reverseAll_sound h.keyed (h.sound_journal name) (h.journals name)
  have hanswer : ((s.journal name).rollback s.book).1 = .ok () := hok hids
  simp only [Session.step, hanswer]
  rfl

theorem reverse_eq (hids : ¬ s.book.Exhausted) {handle : String} {op : Operation}
    (hop : s.handles.lookup handle = some op) : (s.step now (.reverse handle)).1 =
      if op.isPerformed then .ok .done else .error (.stop (.failure (notPerformed op.describe))) := by
  obtain ⟨hkeeps, hscript⟩ := h.handles handle op hop
  simp only [Session.step, withHandle, hop]
  cases hp : op.isPerformed with
  | false =>
    rw [Operation.reverse_of_not_performed hp]
    rfl
  | true =>
    obtain ⟨op', b', hrev⟩ := Operation.reverse_ok h.keyed.toComplete (h.sound_hand hop) hids hkeeps
      (Operation.refusal?_of_not_scripted hscript) hp
    rw [hrev]
    rfl

theorem plain_step (hids : ¬ s.book.Exhausted) {step : Step} (hstep : step.Permitted s) :
    PlainRefusal (s.step now step).1 := by
  cases step with
  | request r journal => exact plain_withJournal (fun j => (r.plain_run j s.book).orStop) journal
  | views user => exact plain_failed ((Friends.plain_views _ _).map _)
  | statuses subject candidates => exact plain_failed ((Friends.plain_statusesOf _ _ _).map _)
  | edges a b =>
    exact plain_failed ((Friends.plain_edgeExists _ _).bind fun _ =>
      (Friends.plain_edgePair _ _ _).bind fun _ =>
        (Friends.plain_hasPendingRequest _ _ _).bind fun _ => errorsIn_ok _)
  | addExpense actor e journal =>
    exact plain_withJournal (fun j => Ledger.plain_add j s.book actor e) journal
  | removeExpense actor id journal =>
    exact plain_withJournal (fun j => (Ledger.plain_remove j s.book actor id).orStop) journal
  | getExpense actor id => exact plain_failed ((Ledger.plain_get _ _ _).map _)
  | findExpense id => exact plain_failed ((Ledger.plain_find? _ _).map _)
  | between actor other => exact plain_failed ((Ledger.plain_between _ _ _).map _)
  | balance actor => exact plain_stopped ((Ledger.plain_balances _ _).map _)
  | hold handle op => exact errorsIn_ok _
  | perform handle =>
    simp only [Session.step, withHandle]
    split
    · rename_i op hop
      exact plain_failed ((Operation.plain_perform (h.handles handle op hop).2 s.book).map _)
    · exact errorsIn_error.mpr rfl
  | reverse handle =>
    cases hop : s.handles.lookup handle with
    | none =>
      simp only [Session.step, withHandle, hop]
      exact errorsIn_error.mpr rfl
    | some op =>
      rw [h.reverse_eq now hids hop]
      split
      · exact errorsIn_ok _
      · exact errorsIn_error.mpr rfl
  | inspect handle =>
    simp only [Session.step, withHandle]
    split
    · exact errorsIn_ok _
    · exact errorsIn_error.mpr rfl
  | journalPerform handle journal =>
    simp only [Session.step, withHandle]
    split
    · rename_i op hop
      have hplain : Plain (Reversible.perform op s.book).1 :=
        Operation.plain_perform (h.handles handle op hop).2 s.book
      exact plain_withJournal (fun j => (Journal.plain_perform hplain j).orStop) journal
    · exact errorsIn_error.mpr rfl
  | journalStep op journal =>
    have hplain : Plain (Reversible.perform op s.book).1 :=
      ScriptedStep.plain_perform hstep.1 s.book
    exact plain_withJournal (fun j => (Journal.plain_perform hplain j).orStop) journal
  | journalRollback name =>
    rw [h.rollback_ok now hids name]
    exact errorsIn_ok _
  | commandLine args =>
    simp only [Session.step]
    split
    · exact errorsIn_error.mpr rfl
    · exact plain_stopped ((Command.plain_run _ _ _).map _)
  | insertEdge e => cases hstep
  | insertDeal d => cases hstep
  | insertSpending p => cases hstep
  | dropTable table => cases hstep
  | migrate direction => cases hstep
  | _ => exact errorsIn_ok _

end Recoverable

/-- Whatever clients do from a fresh book on, with any number of journals and operations in
any interleaving: at every moment a rollback succeeds, an operation can be undone exactly
when it is performed, and no call answers that undoing has failed. -/
theorem compensation_never_fails (steps : List (Amount × Step))
    (hsteps : AllPermitted .fresh steps) (hids : ¬ (Session.fresh.after steps).book.Exhausted)
    (now : Amount) :
    (∀ name, ((Session.fresh.after steps).step now (.journalRollback name)).1 = .ok .done) ∧
    (∀ handle op, (Session.fresh.after steps).handles.lookup handle = some op →
      ((Session.fresh.after steps).step now (.reverse handle)).1 =
        if op.isPerformed then .ok .done
        else .error (.stop (.failure (.compensation (op.describe ++ " was not performed"))))) ∧
    ∀ step, step.Permitted (Session.fresh.after steps) → ∀ cause,
      ((Session.fresh.after steps).step now step).1 ≠
        .error (.stop (.failure (.rollbackFailed cause))) := by
  have h : (Session.fresh.after steps).Recoverable := recoverable_fresh.after hsteps
  refine ⟨h.rollback_ok now hids, fun handle op hop => h.reverse_eq now hids hop, ?_⟩
  intro step hstep cause hanswer
  cases h.plain_step now hids hstep _ hanswer

/-- An expense is added by hand and removed through a journal: either may be undone first. -/
def crossedSteps : List (Amount × Step) :=
  [(1, .hold "h" (.addExpense (.new supper))), (2, .perform "h"),
    (3, .hold "g" (.removeExpense (.new (Id.minted 1)))), (4, .journalPerform "g" (some "second"))]

theorem crossed_compensation : AllPermitted .fresh crossedSteps ∧
    ¬ (Session.fresh.after crossedSteps).book.Exhausted ∧
      ((Session.fresh.after crossedSteps).step 5 (.journalRollback "second")).1 = .ok .done ∧
        ((Session.fresh.after crossedSteps).step 5 (.reverse "h")).1 = .ok .done := by
  have hsteps : AllPermitted .fresh crossedSteps := ⟨⟨rfl, rfl⟩, trivial, ⟨rfl, rfl⟩, trivial, trivial⟩
  have hnext : (Session.fresh.after crossedSteps).book.nextId = 5 := by decide +kernel
  have hids : ¬ (Session.fresh.after crossedSteps).book.Exhausted := by
    rw [Book.Exhausted, hnext]
    decide +kernel
  have hop : (Session.fresh.after crossedSteps).handles.lookup "h" =
      some (.addExpense ⟨supper, some (Id.minted 1)⟩) := by decide +kernel
  obtain ⟨hrollback, hreverse, -⟩ := compensation_never_fails crossedSteps hsteps hids 5
  exact ⟨hsteps, hids, hrollback "second", hreverse "h" _ hop⟩

end FriendLedger.Session
