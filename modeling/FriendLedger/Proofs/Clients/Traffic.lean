import FriendLedger.Proofs.Journal.Advance
import FriendLedger.Proofs.Session.Entries

/-! Calls of several clients that go on at the same time. A call is cut into the accesses to
the store that it makes: a removal looks whether its actor holds a share, and takes the
expense out of the store later; a rollback undoes one operation after another. Whatever
other clients do may come in between. When nothing does, the call is the one of a session. -/

namespace FriendLedger

set_option autoImplicit false

/-- A removal whose actor has been found to hold a share. -/
structure Removal where
  actor : String
  id : Id
  journal : Option String
deriving DecidableEq

structure Traffic where
  session : Session
  /-- The removals that still have to take their expense, by client. -/
  removals : List (String × Removal)
  /-- What rollbacks under way still have to undo, by client. -/
  rollbacks : List (String × List Operation)

namespace Traffic

open Session

def fresh : Traffic := ⟨.fresh, [], []⟩

def book (t : Traffic) : Book := t.session.book

inductive Move
  /-- A call that comes to the store once, at a time. -/
  | call (now : Amount) (step : Session.Step)
  | check (client actor : String) (id : Id) (journal : Option String)
  | take (client : String)
  | rollback (client journal : String)
  | undo (client : String)

/-- Calls of the ledger that write in one transaction or not at all. Giving a journal up
does not come to the store. -/
def Move.IsLedger : Move → Prop
  | .call _ (.addExpense _ _ _) | .call _ (.journalCommit _) | .call _ (.journalDrop _) => True
  | .call _ step => step.isRead = true
  | _ => True

/-- One access to the store, and what the caller is answered when it was the last one. -/
def move (t : Traffic) : Move → Option (Except Refusal Reply) × Traffic
  | .call now step =>
    (some (t.session.step now step).1, { t with session := (t.session.step now step).2 })
  | .check client actor id journal =>
    match Ledger.get t.book.store actor id with
    | .error f => (some (.error (.stop (.failure f))), t)
    | .ok _ =>
      (none, { t with removals := (client, ⟨actor, id, journal⟩) :: without t.removals client })
  | .take client =>
    match t.removals.lookup client with
    | none => (none, t)
    | some r =>
      let (answer, s) := t.session.withJournal r.journal
        (fun j b => orStopped (Ledger.take r.id j b)) (.answer ∘ .removed)
      (some answer, ⟨s, without t.removals client, t.rollbacks⟩)
  | .rollback client journal =>
    (none, ⟨t.session.removeJournal journal, t.removals,
      (client, (t.session.journal journal).performed) :: without t.rollbacks client⟩)
  | .undo client =>
    match t.rollbacks.lookup client with
    | none => (none, t)
    | some [] => (some (.ok .done), { t with rollbacks := without t.rollbacks client })
    | some (op :: ops) =>
      match op.reverse t.book with
      | (.ok (), _, b) =>
        (none, ⟨t.session.setBook b, t.removals, (client, ops) :: without t.rollbacks client⟩)
      | (.error f, _, b) => (some (.error (.stop (.failure f.inRollback))),
          ⟨t.session.setBook b, t.removals, without t.rollbacks client⟩)

def after (t : Traffic) (moves : List Move) : Traffic := moves.foldl (fun t m => (t.move m).2) t

variable {now : Amount} {t : Traffic} {client : String}

theorem take_eq {r : Removal} (h : t.removals.lookup client = some r) :
    t.move (.take client) =
      (some (t.session.withJournal r.journal (fun j b => orStopped (Ledger.take r.id j b))
        (.answer ∘ .removed)).1,
      ⟨(t.session.withJournal r.journal (fun j b => orStopped (Ledger.take r.id j b))
        (.answer ∘ .removed)).2, without t.removals client, t.rollbacks⟩) := by
  simp only [move, h]

theorem after_append (moves moves' : List Move) :
    t.after (moves ++ moves') = (t.after moves).after moves' :=
  List.foldl_append

theorem after_concat (moves : List Move) (m : Move) :
    t.after (moves ++ [m]) = ((t.after moves).move m).2 :=
  after_append moves [m]

/-! ### Calls that nobody interrupts -/

theorem without_set {α : Type} (entries : List (String × α)) (name : String) (a : α) :
    without ((name, a) :: without entries name) name = without entries name := by
  simp [without, List.filter_filter]

theorem check_of_get_error {actor : String} {id : Id} {f : Failure} {journal : Option String}
    (h : Ledger.get t.book.store actor id = .error f) :
    t.move (.check client actor id journal) =
      (some (t.session.step now (.removeExpense actor id journal)).1, t) := by
  have hremove (j : Journal) : Ledger.remove actor id j t.session.book =
      (.error f, j, t.session.book) := by
    have hget : Ledger.get t.session.book.store actor id = .error f := h
    simp only [Ledger.remove, hget]
  simp only [move, h]
  cases journal with
  | none => simp only [Session.step, withJournal, hremove, orStopped, orStop]; rfl
  | some name => simp only [Session.step, withJournal, hremove, orStopped, orStop]; rfl

/-- A removal that takes its expense right after the check. -/
theorem take_after_check {actor : String} {id : Id} {e : Expense} (journal : Option String)
    (h : Ledger.get t.book.store actor id = .ok e) :
    ((t.move (.check client actor id journal)).2.move (.take client)) =
      (some (t.session.step now (.removeExpense actor id journal)).1,
        ⟨(t.session.step now (.removeExpense actor id journal)).2, without t.removals client,
          t.rollbacks⟩) := by
  have hremove (j : Journal) : Ledger.remove actor id j t.session.book =
      Ledger.take id j t.session.book := by
    have hget : Ledger.get t.session.book.store actor id = .ok e := h
    simp only [Ledger.remove, hget]
  have hcheck : (t.move (.check client actor id journal)).2 =
      { t with removals := (client, ⟨actor, id, journal⟩) :: without t.removals client } := by
    simp only [move, h]
  rw [hcheck]
  simp only [move, lookup_set, if_true, without_set]
  cases journal with
  | none => simp only [Session.step, withJournal, hremove]
  | some name => simp only [Session.step, withJournal, hremove]

/-- A rollback that is undone to its end, or to the first operation that fails. -/
theorem session_after_undo {ops : List Operation} (h : t.rollbacks.lookup client = some ops) :
    (t.after (List.replicate (ops.length + 1) (.undo client))).session =
      t.session.setBook (Journal.reverseAll ops t.book).2 := by
  have hidle (t : Traffic) (n : Nat) (hnone : t.rollbacks.lookup client = none) :
      t.after (List.replicate n (.undo client)) = t := by
    have hmove : (t.move (.undo client)).2 = t := by simp only [move, hnone]
    induction n with
    | zero => rfl
    | succ n ih =>
      rw [List.replicate_succ, after, List.foldl_cons, hmove]
      exact ih
  induction ops generalizing t with
  | nil =>
    simp only [List.length_nil, List.replicate_succ, List.replicate_zero, after, List.foldl_cons,
      List.foldl_nil, move, h, Journal.reverseAll]
    rfl
  | cons op ops ih =>
    rw [List.length_cons, List.replicate_succ, after, List.foldl_cons]
    cases hrev : op.reverse t.book with
    | mk answer rest =>
      obtain ⟨op', b⟩ := rest
      cases answer with
      | ok u =>
        have hmove : (t.move (.undo client)).2 =
            ⟨t.session.setBook b, t.removals, (client, ops) :: without t.rollbacks client⟩ := by
          simp only [move, h, hrev]
        have hnext := ih (t := ⟨t.session.setBook b, t.removals,
          (client, ops) :: without t.rollbacks client⟩) (by rw [lookup_set, if_pos rfl])
        simp only [hmove, Journal.reverseAll, hrev]
        exact hnext
      | error f =>
        have hmove : (t.move (.undo client)).2 =
            ⟨t.session.setBook b, t.removals, without t.rollbacks client⟩ := by
          simp only [move, h, hrev]
        have hdone := hidle ⟨t.session.setBook b, t.removals, without t.rollbacks client⟩
          (ops.length + 1) (by rw [lookup_without, if_pos rfl])
        simp only [hmove, Journal.reverseAll, hrev]
        rw [after] at hdone
        rw [hdone]

theorem session_after_rollback (journal : String) :
    (t.after (.rollback client journal ::
      List.replicate ((t.session.journal journal).performed.length + 1) (.undo client))).session =
        (t.session.step now (.journalRollback journal)).2 := by
  have hlookup : (t.move (.rollback client journal)).2.rollbacks.lookup client =
      some (t.session.journal journal).performed := by
    simp only [move, lookup_set, if_true]
  rw [after, List.foldl_cons]
  exact session_after_undo hlookup

end Traffic
end FriendLedger
