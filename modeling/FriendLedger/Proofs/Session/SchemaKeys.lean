import FriendLedger.Proofs.Journal.PartialRollback
import FriendLedger.Proofs.Session.Entries
import FriendLedger.Proofs.Store.TearDown

/-! The keys of the schema hold whatever a session does: rows written by hand, tables
dropped, the schema set up and torn down, ids set back, rollbacks that stop halfway.
Tables that are missing count as empty. -/

namespace FriendLedger

set_option autoImplicit false

namespace Store
variable {s t : Store}

/-- The version of the schema does not matter. -/
theorem Keyed.of_held (h : s.filled.Keyed) (hedges : t.heldEdges = s.heldEdges)
    (hdeals : t.heldDeals = s.heldDeals) (hspendings : t.heldSpendings = s.heldSpendings) :
    t.filled.Keyed := by
  rw [filled, hedges, hdeals, hspendings]
  exact ⟨⟨rfl, rfl, rfl⟩, h.nodup_edges, h.nodup_deals, h.nodup_spendings, h.refers⟩

theorem keyed_drop (h : s.filled.Keyed) {table : Table} (hdrop : s.drop table = .ok t) :
    t.filled.Keyed := by
  obtain ⟨-, hempty, rfl⟩ := drop_eq_ok_iff.mp hdrop
  obtain ⟨-, hedges, hdeals, hspendings, hrefers⟩ := h
  cases table with
  | friendRequests =>
    exact ⟨complete_filled _, List.nodup_nil, hdeals, hspendings, hrefers⟩
  | deals =>
    refine ⟨complete_filled _, hedges, List.nodup_nil, hspendings, fun p hp => ?_⟩
    change p ∈ s.heldSpendings at hp
    rw [hempty rfl] at hp
    cases hp
  | spendings =>
    exact ⟨complete_filled _, hedges, hdeals, List.nodup_nil, fun p hp => by cases hp⟩

theorem keyed_dropAll (h : s.filled.Keyed) (tables : List Table) :
    (s.dropAll tables).2.filled.Keyed := by
  induction tables generalizing s with
  | nil => exact h
  | cons table tables ih =>
    simp only [dropAll]
    split
    · rename_i t ht
      exact ih (keyed_drop h ht)
    · exact h

theorem keyed_migrate (h : s.filled.Keyed) (direction : Direction) :
    (s.migrate direction).2.filled.Keyed := by
  cases direction with
  | up =>
    simp only [migrate, setUp]
    split
    · exact h.of_held rfl rfl rfl
    · exact h.of_held rfl rfl rfl
  | down =>
    have hdropped := keyed_dropAll h [.spendings, .deals, .friendRequests]
    simp only [migrate, tearDown]
    split
    · split <;> rename_i t hall <;> rw [hall] at hdropped
      · exact hdropped.of_held rfl rfl rfl
      · exact hdropped
    · exact h

end Store

theorem Operation.keyed_perform {b : Book} (h : b.store.filled.Keyed) (op : Operation) :
    (op.perform b).2.2.store.filled.Keyed := by
  cases hperf : op.perform b with
  | mk answer rest =>
    obtain ⟨op', b'⟩ := rest
    cases answer with
    | ok out =>
      have heff := effect_filled hperf
      exact heff.keyed h
    | error f =>
      rw [(perform_error hperf).2]
      exact h

theorem Operation.keyed_reverse {b : Book} (h : b.store.filled.Keyed) (op : Operation) :
    (op.reverse b).2.2.store.filled.Keyed := by
  cases hrev : op.reverse b with
  | mk answer rest =>
    obtain ⟨op', b'⟩ := rest
    cases answer with
    | ok u => exact (Operation.reversal_filled hrev).keyed h
    | error f =>
      rw [(reverse_error hrev).2]
      exact h

namespace Journal
variable {b : Book} (h : b.store.filled.Keyed)
include h

theorem Attempt.keyed {P : Operation → Prop} {j j' : Journal} {b' : Book} {ok : Bool}
    (ha : Attempt P j b ok j' b') : b'.store.filled.Keyed := by
  cases ha with
  | refused n => exact h
  | @performed op op' out b' hp hop =>
    have hkeyed := op.keyed_perform h
    rwa [hop] at hkeyed

theorem keyed_perform {Op Out : Type} [Reversible Op Out] {wrap : Op → Operation}
    {output : Out → Output} {op : Op}
    (hw : (wrap op).perform b = Operation.lift wrap output (Reversible.perform op b)) (j : Journal) :
    (j.perform wrap op b).2.2.store.filled.Keyed :=
  Attempt.keyed h (attempt_perform (P := fun _ => True) hw trivial)

theorem keyed_request (r : Request) (j : Journal) : (r.run j b).2.2.store.filled.Keyed :=
  Attempt.keyed h (attempt_request (P := fun _ => True) fun _ _ => trivial)

theorem keyed_add (actor : String) (e : Expense) (j : Journal) :
    (Ledger.add actor e j b).2.2.store.filled.Keyed :=
  Attempt.keyed h (attempt_add (P := fun _ => True) trivial)

theorem keyed_remove (actor : String) (id : Id) (j : Journal) :
    (Ledger.remove actor id j b).2.2.store.filled.Keyed :=
  Attempt.keyed h (attempt_remove (P := fun _ => True) trivial)

theorem keyed_reverseAll (ops : List Operation) : (reverseAll ops b).2.store.filled.Keyed := by
  induction ops generalizing b with
  | nil => exact h
  | cons op ops ih =>
    have hkeyed := op.keyed_reverse h
    simp only [reverseAll]
    split <;> rename_i heq <;> rw [heq] at hkeyed
    · exact ih hkeyed
    · exact hkeyed

end Journal

theorem Command.keyed_run {b : Book} (h : b.store.filled.Keyed) (c : Command) (now : Amount) :
    (c.run now b).2.store.filled.Keyed := by
  cases c with
  | request r =>
    have hkeyed := Journal.keyed_request h r .empty
    simp only [run, runRequest]
    split <;> rename_i heq <;> rwa [heq] at hkeyed
  | add actor draft => exact Journal.keyed_add h actor (draft.expense now) .empty
  | remove actor id => exact Journal.keyed_remove h actor id .empty
  | _ => exact h

namespace Session
variable {s : Session}

theorem keyed_withJournal {α : Type} {call : Journal → Book → Except Stop α × Journal × Book}
    {reply : α → Reply} (hcall : ∀ j, (call j s.book).2.2.store.filled.Keyed) (name : Option String) :
    (s.withJournal name call reply).2.book.store.filled.Keyed := by
  cases name with
  | none => exact hcall .empty
  | some name => exact hcall (s.journal name)

theorem keyed_statement (h : s.book.store.filled.Keyed) {call : Store → Except StoreFault Store}
    (hcall : ∀ t, call s.book.store = .ok t → t.filled.Keyed) :
    (s.statement call).2.book.store.filled.Keyed := by
  unfold statement
  split
  · rename_i t ht
    exact hcall t ht
  · exact h

theorem keyed_step (h : s.book.store.filled.Keyed) (now : Amount) (step : Step) :
    (s.step now step).2.book.store.filled.Keyed := by
  cases step with
  | request r journal => exact keyed_withJournal (Journal.keyed_request h r) journal
  | addExpense actor e journal => exact keyed_withJournal (Journal.keyed_add h actor e) journal
  | removeExpense actor id journal =>
    exact keyed_withJournal (Journal.keyed_remove h actor id) journal
  | perform handle =>
    simp only [Session.step, withHandle]
    split
    · exact Operation.keyed_perform h _
    · exact h
  | reverse handle =>
    simp only [Session.step, withHandle]
    split
    · exact Operation.keyed_reverse h _
    · exact h
  | inspect handle =>
    simp only [Session.step, withHandle]
    split <;> exact h
  | journalPerform handle journal =>
    simp only [Session.step, withHandle]
    split
    · rename_i op hop
      exact keyed_withJournal (Journal.keyed_perform h (Journal.lift_id (op.perform s.book)).symm)
        journal
    · exact h
  | journalStep op journal =>
    exact keyed_withJournal
      (@Journal.keyed_perform _ h _ _ _ .step .number op rfl) journal
  | journalRollback name => exact Journal.keyed_reverseAll h _
  | insertEdge e =>
    exact keyed_statement h fun t ht => h.insertEdge (Store.insertEdge_filled ht).1
  | insertDeal d =>
    exact keyed_statement h fun t ht => h.insertDeal (Store.insertDeal_filled ht).1
  | insertSpending p =>
    exact keyed_statement h fun t ht => h.insertSpending (Store.insertSpending_filled ht).1
  | dropTable table => exact keyed_statement h fun t ht => Store.keyed_drop h ht
  | migrate direction => exact Store.keyed_migrate h direction
  | commandLine args =>
    simp only [Session.step]
    split
    · exact h
    · exact Command.keyed_run h _ now
  | _ => exact h

/-- No step of a session breaks a primary key or leaves a spending without its deal. -/
theorem keyed_after (h : s.book.store.filled.Keyed) (steps : List (Amount × Step)) :
    (s.after steps).book.store.filled.Keyed :=
  after_induction (·.book.store.filled.Keyed) (fun _ => True) (fun h _ => keyed_step h _ _) h
    fun _ _ => trivial

end Session
end FriendLedger
