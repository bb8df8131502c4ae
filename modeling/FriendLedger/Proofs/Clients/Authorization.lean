import FriendLedger.Proofs.Clients.Traffic
import FriendLedger.Proofs.Operation.Filled
import FriendLedger.Proofs.Operation.Written
import Mathlib.Data.List.Induction

/-! Who may remove an expense is looked up before it is removed, and anything may happen in
between. It does no harm: as long as no id is handed out twice, the rows under an id are
the ones that were written when it was handed out, so what was found out about them stays
true. What is removed twice was put back by a rollback in the meantime. -/

namespace FriendLedger

set_option autoImplicit false

theorem Journal.Attempt.nextId_le {P : Operation → Prop} {j j' : Journal} {b b' : Book} {ok : Bool}
    (h : Attempt P j b ok j' b') : b.nextId ≤ b'.nextId := by
  cases h with
  | refused n => exact Nat.le_add_right _ _
  | @performed op _ _ _ hp h =>
    have hle := op.nextId_le_perform (b := b)
    rwa [h] at hle

namespace Traffic

open Session

variable {now : Amount} {t : Traffic} {m : Move} {client actor : String} {r : Removal} {id : Id}
  {rows : ExpenseRows} {e : Expense} {W W' : Id → ExpenseRows → Prop}

/-- The move hands the id out and writes the rows under it. -/
def Writes (t : Traffic) (m : Move) (id : Id) (rows : ExpenseRows) : Prop :=
  ∃ now actor e journal, m = .call now (.addExpense actor e journal) ∧
    (t.move m).1 = some (.ok (.answer (.added id))) ∧ rows = t.book.rowsFor e

/-- What the moves from the empty store have written. -/
def Wrote (moves : List Move) (id : Id) (rows : ExpenseRows) : Prop :=
  ∃ before m rest, moves = before ++ m :: rest ∧ Writes (fresh.after before) m id rows

/-- The move ends a removal: the actor is answered the expense that was taken out. -/
def Removes (t : Traffic) (m : Move) (actor : String) (id : Id) (e : Expense) : Prop :=
  ∃ client journal, m = .take client ∧ t.removals.lookup client = some ⟨actor, id, journal⟩ ∧
    (t.move m).1 = some (.ok (.answer (.removed e)))

/-- The move belongs to a rollback and undoes a removal: the rows are there again. -/
def Restores (t : Traffic) (m : Move) (id : Id) (rows : ExpenseRows) : Prop :=
  ∃ client ops, m = .undo client ∧
    t.rollbacks.lookup client = some (.removeExpense ⟨id, some rows⟩ :: ops) ∧
    t.book.store.Lacks id ∧ (t.move m).2.book.store.HasRows id rows

/-- The removal finds nothing any more, says so and changes nothing. -/
def Misses (t : Traffic) (client : String) (r : Removal) : Prop :=
  t.book.store.Lacks r.id ∧
    (t.move (.take client)).1 =
      some (.error (.stop (.failure (.expenseNotFound r.id.toText)))) ∧
    (t.move (.take client)).2.book = t.book

/-- The removal takes out the rows of an expense in which its actor has a part, and answers
this expense. -/
def Takes (t : Traffic) (client : String) (r : Removal) (rows : ExpenseRows) (e : Expense) :
    Prop :=
  rows.decode = .ok e ∧ e.involves r.actor = true ∧ t.book.store.HasRows r.id rows ∧
    (t.move (.take client)).1 = some (.ok (.answer (.removed e))) ∧
    (t.move (.take client)).2.book =
      { t.book with store := t.book.store.withoutExpense r.id.toText }

theorem writes_add_iff {journal : Option String} {id' : Id}
    (hadded : (t.move (.call now (.addExpense actor e journal))).1 =
      some (.ok (.answer (.added id')))) :
    Writes t (.call now (.addExpense actor e journal)) id rows ↔
      id = id' ∧ rows = t.book.rowsFor e := by
  constructor
  · rintro ⟨now', actor', e', journal', hm, hok, rfl⟩
    cases hm
    cases hok.symm.trans hadded
    exact ⟨rfl, rfl⟩
  · rintro ⟨rfl, rfl⟩
    exact ⟨now, actor, e, journal, rfl, hadded, rfl⟩

theorem wrote_concat {moves : List Move} : Wrote (moves ++ [m]) id rows ↔
    Wrote moves id rows ∨ Writes (fresh.after moves) m id rows :=
  exists_moment_concat

theorem wrote_append {moves moves' : List Move} (h : Wrote moves id rows) :
    Wrote (moves ++ moves') id rows := by
  obtain ⟨before, m, rest, rfl, hwrites⟩ := h
  exact ⟨before, m, rest ++ moves', by simp, hwrites⟩

/-! ### Ids -/

/-- Of the calls that come to the store once, only an addition changes the book. -/
theorem book_of_call (t : Traffic) {step : Session.Step} (hm : (Move.call now step).IsLedger) :
    (∃ actor e journal, step = .addExpense actor e journal) ∨
      (t.move (.call now step)).2.book = t.book := by
  cases step with
  | addExpense actor e journal => exact .inl ⟨actor, e, journal, rfl⟩
  | journalCommit name => exact .inr rfl
  | journalDrop name => exact .inr rfl
  | _ => exact .inr (congrArg Session.book (step_of_isRead hm))

theorem book_of_add (t : Traffic) (actor : String) (e : Expense)
    (journal : Option String) : ∃ j, (t.move (.call now (.addExpense actor e journal))).2.book =
      (Ledger.add actor e j t.book).2.2 :=
  book_withJournal journal

theorem book_of_take (hlookup : t.removals.lookup client = some r) :
    ∃ j, (t.move (.take client)).2.book = (Ledger.take r.id j t.book).2.2 := by
  rw [take_eq hlookup]
  exact book_withJournal r.journal

theorem nextId_le_move (hm : m.IsLedger) : t.book.nextId ≤ (t.move m).2.book.nextId := by
  cases m with
  | call now step =>
    rcases book_of_call t hm with ⟨actor, e, journal, rfl⟩ | hbook
    · obtain ⟨j, hbook⟩ := book_of_add t actor e journal
      rw [hbook]
      exact (Journal.attempt_add (P := fun _ => True) trivial).nextId_le
    · rw [hbook]
  | check client actor id journal =>
    simp only [move]
    split <;> exact Nat.le_refl _
  | take client =>
    cases hlookup : t.removals.lookup client with
    | none =>
      simp only [move, hlookup]
      exact Nat.le_refl _
    | some r =>
      obtain ⟨j, hbook⟩ := book_of_take hlookup
      rw [hbook]
      exact (Journal.attempt_take (P := fun _ => True) trivial).nextId_le
  | rollback client journal => exact Nat.le_refl _
  | undo client =>
    simp only [move]
    split
    · exact Nat.le_refl _
    · exact Nat.le_refl _
    · rename_i op ops _
      have hids := op.nextId_reverse (b := t.book)
      split <;> rename_i heq <;> rw [heq] at hids <;> exact Nat.le_of_eq hids.symm

theorem nextId_le_after {moves : List Move} (hmoves : ∀ m ∈ moves, m.IsLedger) :
    t.book.nextId ≤ (t.after moves).book.nextId := by
  induction moves generalizing t with
  | nil => exact Nat.le_refl _
  | cons m moves ih =>
    obtain ⟨hm, hmoves⟩ := List.forall_mem_cons.mp hmoves
    exact Nat.le_trans (nextId_le_move hm) (ih hmoves)

/-- Ids that last for a run last for each beginning of it. -/
theorem not_exhausted_of_append {moves moves' : List Move} (hmoves : ∀ m ∈ moves', m.IsLedger)
    (hids : ¬ (t.after (moves ++ moves')).book.Exhausted) :
    ¬ (t.after moves).book.Exhausted := by
  intro hexhausted
  rw [after_append] at hids
  exact hids (Nat.lt_of_lt_of_le hexhausted (nextId_le_after hmoves))

/-! ### What every move keeps -/

/-- The store holds what was written, journals and rollbacks under way put nothing else
back, and a removal that passed its check is of an expense in which its actor has a part. -/
structure Faithful (t : Traffic) (W : Id → ExpenseRows → Prop) : Prop where
  book : t.book.Faithful W
  journals : ∀ name, ∀ op ∈ (t.session.journal name).performed, op.KeepsOnly W
  rollbacks : ∀ client ops, t.rollbacks.lookup client = some ops → ∀ op ∈ ops, op.KeepsOnly W
  removals : ∀ client r, t.removals.lookup client = some r →
    ∃ rows e, W r.id rows ∧ rows.decode = .ok e ∧ e.involves r.actor = true

namespace Faithful

theorem congr (h : t.Faithful W) (hW : ∀ id rows, W' id rows ↔ W id rows) : t.Faithful W' := by
  have hsame : W' = W := funext₂ fun id rows => propext (hW id rows)
  rwa [hsame]

theorem of_not_writes {t' : Traffic} (h : t'.Faithful W)
    (hnone : ∀ id rows, ¬ Writes t m id rows) :
    t'.Faithful fun id rows => W id rows ∨ Writes t m id rows :=
  h.congr fun id rows => or_iff_left (hnone id rows)

variable (h : t.Faithful W)
include h

theorem removeJournal (name : String) :
    (Traffic.mk (t.session.removeJournal name) t.removals t.rollbacks).Faithful W where
  book := h.book
  journals other := by
    rw [journal_removeJournal]
    split
    · exact List.forall_mem_nil _
    · exact h.journals other
  rollbacks := h.rollbacks
  removals := h.removals

theorem setRollback {ops : List Operation} (hops : ∀ op ∈ ops, op.KeepsOnly W) (client : String) :
    ({ t with rollbacks := (client, ops) :: without t.rollbacks client } : Traffic).Faithful W where
  book := h.book
  journals := h.journals
  rollbacks other ops' hlookup := by
    rw [lookup_set] at hlookup
    split at hlookup
    · cases hlookup
      exact hops
    · exact h.rollbacks other ops' hlookup
  removals := h.removals

theorem endRollback (client : String) :
    ({ t with rollbacks := without t.rollbacks client } : Traffic).Faithful W where
  book := h.book
  journals := h.journals
  rollbacks other ops hlookup := by
    rw [lookup_without] at hlookup
    split at hlookup
    · cases hlookup
    · exact h.rollbacks other ops hlookup
  removals := h.removals

theorem setBook {b : Book} (hb : b.Faithful W) :
    ({ t with session := t.session.setBook b } : Traffic).Faithful W :=
  ⟨hb, h.journals, h.rollbacks, h.removals⟩

theorem move_add {journal : Option String}
    (hids : ¬ (t.move (.call now (.addExpense actor e journal))).2.book.Exhausted) :
    (t.move (.call now (.addExpense actor e journal))).2.Faithful fun id rows =>
      W id rows ∨ Writes t (.call now (.addExpense actor e journal)) id rows := by
  have hmove : t.move (.call now (.addExpense actor e journal)) =
      (some (t.session.withJournal journal (Ledger.add actor e) (.answer ∘ .added)).1,
        { t with session :=
          (t.session.withJournal journal (Ledger.add actor e) (.answer ∘ .added)).2 }) := rfl
  rcases Ledger.add_cases h.book.keyed.toComplete actor e with
    ⟨stop, n, hrefused⟩ | ⟨hadmits, hadded⟩
  · obtain ⟨hanswer, hbook, hjournals⟩ := withJournal_of_call
      (Ledger.add actor e) (.answer ∘ .added) hrefused (fun j hj => hj) h.journals journal
    rw [hmove]
    apply of_not_writes
    · refine ⟨?_, hjournals, h.rollbacks, h.removals⟩
      rw [Traffic.book, hbook]
      exact h.book.congr rfl (Nat.le_add_right _ _)
    · rintro id rows ⟨_, _, _, _, -, hok, -⟩
      rw [hmove, hanswer] at hok
      cases hok
  · have hle : ∀ id rows, W id rows →
        W id rows ∨ id = Id.minted t.book.nextId ∧ rows = t.book.rowsFor e :=
      fun id rows hrows => .inl hrows
    obtain ⟨hanswer, hbook, hjournals⟩ := withJournal_of_call
      (Ledger.add actor e) (.answer ∘ .added) hadded
      (fun j hj => List.forall_mem_cons.mpr ⟨trivial, hj⟩)
      (fun name op hop => (h.journals name op hop).mono hle) journal
    rw [hmove] at hids ⊢
    rw [Traffic.book, hbook] at hids
    apply congr
      (W := fun id rows => W id rows ∨ id = Id.minted t.book.nextId ∧ rows = t.book.rowsFor e)
    · refine ⟨?_, hjournals, ?_, ?_⟩
      · rw [Traffic.book, hbook]
        exact h.book.withRows hids hadmits
      · intro client ops hlookup op hop
        exact (h.rollbacks client ops hlookup op hop).mono hle
      · intro client r hlookup
        obtain ⟨rows, x, hrows, hx⟩ := h.removals client r hlookup
        exact ⟨rows, x, .inl hrows, hx⟩
    · intro id rows
      exact or_congr_right (writes_add_iff (congrArg some hanswer))

theorem take_cases (hlookup : t.removals.lookup client = some r) :
    (∀ name, ∀ op ∈ ((t.move (.take client)).2.session.journal name).performed,
      op.KeepsOnly W) ∧
      (Misses t client r ∨ ∃ rows e, W r.id rows ∧ Takes t client r rows e) := by
  unfold Misses Takes
  rw [take_eq hlookup]
  rcases h.book.take_cases r.id with ⟨hlacks, htake⟩ | ⟨rows, e, hrows, hdecode, hhas, htake⟩
  · have hcall (j : Journal) : orStopped (Ledger.take r.id j t.session.book) =
        (.error (.failure (.expenseNotFound r.id.toText)), j, t.session.book) :=
      congrArg orStopped (htake j)
    obtain ⟨hanswer, hbook, hjournals⟩ := withJournal_of_call
      (fun j b => orStopped (Ledger.take r.id j b)) (.answer ∘ .removed) hcall (fun j hj => hj)
      h.journals r.journal
    exact ⟨hjournals, .inl ⟨hlacks, congrArg some hanswer, hbook⟩⟩
  · have hcall (j : Journal) : orStopped (Ledger.take r.id j t.session.book) =
        (.ok e, j.record (.removeExpense ⟨r.id, some rows⟩),
          { t.book with store := t.book.store.withoutExpense r.id.toText }) :=
      congrArg orStopped (htake j)
    obtain ⟨hanswer, hbook, hjournals⟩ := withJournal_of_call
      (fun j b => orStopped (Ledger.take r.id j b)) (.answer ∘ .removed) hcall
      (fun j hj => List.forall_mem_cons.mpr ⟨hrows, hj⟩) h.journals r.journal
    -- What the check has read is what is taken: nothing else was written under the id.
    obtain ⟨rows', e', hrows', hdecode', hinvolves⟩ := h.removals client r hlookup
    cases h.book.once hrows hrows'
    cases hdecode.symm.trans hdecode'
    exact ⟨hjournals, .inr ⟨rows, e, hrows, hdecode, hinvolves, hhas, congrArg some hanswer, hbook⟩⟩

theorem move_take (client : String) : (t.move (.take client)).2.Faithful W := by
  cases hlookup : t.removals.lookup client with
  | none =>
    simp only [Traffic.move, hlookup]
    exact h
  | some r =>
    obtain ⟨hjournals, hout⟩ := h.take_cases hlookup
    refine ⟨?_, hjournals, ?_, ?_⟩
    · rcases hout with ⟨-, -, hbook⟩ | ⟨rows, e, -, -, -, -, -, hbook⟩
      · rw [hbook]
        exact h.book
      · rw [hbook]
        exact h.book.withoutExpense _
    · rw [take_eq hlookup]
      exact h.rollbacks
    · intro other r' hlookup'
      rw [take_eq hlookup, lookup_without] at hlookup'
      split at hlookup'
      · cases hlookup'
      · exact h.removals other r' hlookup'

omit h in
theorem undo_cases (hc : t.book.store.Complete) (client : String) :
    (t.move (.undo client)).2 = t ∨
    (t.move (.undo client)).2 = { t with rollbacks := without t.rollbacks client } ∨
    ∃ op ops op' b, t.rollbacks.lookup client = some (op :: ops) ∧
      Operation.Reversal t.book op op' b ∧ (t.move (.undo client)).2 =
        ⟨t.session.setBook b, t.removals, (client, ops) :: without t.rollbacks client⟩ := by
  simp only [Traffic.move]
  split
  · exact .inl rfl
  · exact .inr (.inl rfl)
  · rename_i op ops hlookup
    split
    · rename_i op' b hrev
      exact .inr (.inr ⟨op, ops, op', b, hlookup, Operation.reversal_of_reverse hc hrev, rfl⟩)
    · rename_i f op' b hrev
      rw [(Operation.reverse_error hrev).2]
      exact .inr (.inl rfl)

theorem move_of_not_add (hm : m.IsLedger)
    (hadd : ¬ ∃ now actor e journal, m = .call now (.addExpense actor e journal)) :
    (t.move m).2.Faithful W := by
  cases m with
  | call now step =>
    cases step with
    | addExpense actor e journal => exact absurd ⟨now, actor, e, journal, rfl⟩ hadd
    | journalCommit name => exact h.removeJournal name
    | journalDrop name => exact h.removeJournal name
    | _ =>
      rw [Traffic.move, step_of_isRead hm]
      exact h
  | check client actor id journal =>
    simp only [Traffic.move]
    split
    · exact h
    · rename_i e hget
      obtain ⟨rows, hrows, hdecode, hinvolves⟩ := h.book.involves_of_get hget
      refine ⟨h.book, h.journals, h.rollbacks, ?_⟩
      intro other r hlookup
      rw [lookup_set] at hlookup
      split at hlookup
      · cases hlookup
        exact ⟨rows, e, hrows, hdecode, hinvolves⟩
      · exact h.removals other r hlookup
  | take client => exact h.move_take client
  | rollback client journal =>
    exact (h.removeJournal journal).setRollback (h.journals journal) client
  | undo client =>
    rcases undo_cases h.book.keyed.toComplete client with
      hsame | hdone | ⟨op, ops, op', b, hlookup, hr, hundone⟩
    · rw [hsame]
      exact h
    · rw [hdone]
      exact h.endRollback client
    · obtain ⟨hop, hops⟩ := List.forall_mem_cons.mp (h.rollbacks client _ hlookup)
      rw [hundone]
      exact (h.setBook (h.book.reversal hop hr)).setRollback hops client

theorem move (hm : m.IsLedger) (hids : ¬ (t.move m).2.book.Exhausted) :
    (t.move m).2.Faithful fun id rows => W id rows ∨ Writes t m id rows := by
  by_cases hadd : ∃ now actor e journal, m = .call now (.addExpense actor e journal)
  · obtain ⟨now, actor, e, journal, rfl⟩ := hadd
    exact h.move_add hids
  · apply (h.move_of_not_add hm hadd).of_not_writes
    rintro id rows ⟨now, actor, e, journal, heq, -⟩
    exact hadd ⟨now, actor, e, journal, heq⟩

/-- What was written and is gone stays away, unless a rollback restores it. -/
theorem lacks_move (hm : m.IsLedger) (hids : ¬ (t.move m).2.book.Exhausted) (hrows : W id rows)
    (hlacks : t.book.store.Lacks id) :
    (t.move m).2.book.store.Lacks id ∨ Restores t m id rows := by
  cases m with
  | call now step =>
    rcases book_of_call t hm with ⟨actor, e, journal, rfl⟩ | hbook
    · obtain ⟨j, hbook⟩ := book_of_add t actor e journal
      rw [hbook] at hids ⊢
      rcases Ledger.add_cases h.book.keyed.toComplete actor e with
        ⟨stop, n, hrefused⟩ | ⟨-, hadded⟩
      · rw [hrefused j]
        exact .inl hlacks
      · rw [hadded j] at hids ⊢
        exact .inl (h.book.lacks_withRows hids hrows hlacks)
    · rw [hbook]
      exact .inl hlacks
  | check client actor own journal =>
    simp only [Traffic.move]
    split <;> exact .inl hlacks
  | take client =>
    cases hlookup : t.removals.lookup client with
    | none =>
      simp only [Traffic.move, hlookup]
      exact .inl hlacks
    | some r =>
      rcases (h.take_cases hlookup).2 with
        ⟨-, -, hbook⟩ | ⟨_, _, -, -, -, -, -, hbook⟩
      · rw [hbook]
        exact .inl hlacks
      · rw [hbook]
        exact .inl (hlacks.withoutExpense _)
  | rollback client journal => exact .inl hlacks
  | undo client =>
    rcases undo_cases h.book.keyed.toComplete client with
      hsame | hdone | ⟨op, ops, op', b, hlookup, hr, hundone⟩
    · rw [hsame]
      exact .inl hlacks
    · rw [hdone]
      exact .inl hlacks
    · have hop := h.rollbacks client _ hlookup op List.mem_cons_self
      rcases h.book.lacks_reversal hop hr hlacks with hlacks' | ⟨rows', rfl, hrows', hhas⟩
      · rw [hundone]
        exact .inl hlacks'
      · cases h.book.once hrows hrows'
        refine .inr ⟨client, ops, rfl, hlookup, hlacks, ?_⟩
        rw [hundone]
        exact hhas

end Faithful

/-! ### Runs -/

theorem faithful_after {moves : List Move} (hmoves : ∀ m ∈ moves, m.IsLedger)
    (hids : ¬ (fresh.after moves).book.Exhausted) :
    (fresh.after moves).Faithful (Wrote moves) := by
  induction moves using List.reverseRecOn with
  | nil =>
    have hnone (id : Id) (rows : ExpenseRows) : ¬ Wrote [] id rows := by
      rintro ⟨before, m, rest, heq, -⟩
      simp at heq
    refine ⟨⟨⟨?_, ?_⟩, Store.keyed_fresh, ?_, ?_⟩, ?_, ?_, ?_⟩
    · exact fun hrows => absurd hrows (hnone _ _)
    · exact fun hrows => absurd hrows (hnone _ _)
    · exact List.forall_mem_nil _
    · exact fun hrows => absurd hrows (hnone _ _)
    · exact fun _ => List.forall_mem_nil _
    · exact nofun
    · exact nofun
  | append_singleton moves m ih =>
    obtain ⟨hbefore, hlast⟩ := List.forall_mem_append.mp hmoves
    have hm : m.IsLedger := List.forall_mem_singleton.mp hlast
    have h := ih hbefore (not_exhausted_of_append hlast hids)
    rw [after_concat] at hids ⊢
    exact (h.move hm hids).congr fun id rows => wrote_concat

/-- What was written and is gone at some time stays away, until a rollback restores it. -/
theorem lacks_or_restores {moves later : List Move} (hmoves : ∀ m ∈ moves ++ later, m.IsLedger)
    (hids : ¬ (fresh.after (moves ++ later)).book.Exhausted) (hrows : Wrote moves id rows)
    (hlacks : (fresh.after moves).book.store.Lacks id) :
    (fresh.after (moves ++ later)).book.store.Lacks id ∨
      ∃ before m rest, later = before ++ m :: rest ∧
        Restores (fresh.after (moves ++ before)) m id rows := by
  induction later using List.reverseRecOn with
  | nil =>
    rw [List.append_nil]
    exact .inl hlacks
  | append_singleton later m ih =>
    rw [← List.append_assoc] at hmoves hids ⊢
    obtain ⟨hbefore, hlast⟩ := List.forall_mem_append.mp hmoves
    have hm : m.IsLedger := List.forall_mem_singleton.mp hlast
    have hids' := not_exhausted_of_append hlast hids
    rcases ih hbefore hids' with hlacks | ⟨before, m', rest, rfl, hrestores⟩
    · have h := faithful_after hbefore hids'
      rw [after_concat] at hids ⊢
      rcases h.lacks_move hm hids (wrote_append hrows) hlacks with hlacks | hrestores
      · exact .inl hlacks
      · exact .inr ⟨later, m, [], rfl, hrestores⟩
    · exact .inr ⟨before, m', rest ++ [m], by simp, hrestores⟩

/-- A removal that was answered an expense has taken it out. -/
theorem takes_of_removes (h : t.Faithful W) (hremoves : Removes t m actor id e) :
    ∃ rows, W id rows ∧ rows.decode = .ok e ∧ t.book.store.HasRows id rows ∧
      (t.move m).2.book.store.Lacks id := by
  obtain ⟨client, journal, rfl, hlookup, hanswer⟩ := hremoves
  rcases (h.take_cases hlookup).2 with
    ⟨-, hmissed, -⟩ | ⟨rows, e', hrows, hdecode, -, hhas, hok, hbook⟩
  · cases hanswer.symm.trans hmissed
  · cases hanswer.symm.trans hok
    refine ⟨rows, hrows, hdecode, hhas, ?_⟩
    rw [hbook]
    exact Store.lacks_withoutExpense id

/-- What is true after the moves `moves` from the empty store. -/
structure Guarded (moves : List Move) : Prop where
  /-- Under each id, one expense was written. -/
  once : ∀ id rows rows', Wrote moves id rows → Wrote moves id rows' → rows = rows'
  deals : ∀ d ∈ (fresh.after moves).book.store.heldDeals,
    ∃ id rows, Wrote moves id rows ∧ d = rows.deal
  spendings : ∀ p ∈ (fresh.after moves).book.store.heldSpendings,
    ∃ id rows, Wrote moves id rows ∧ p ∈ rows.spendings
  /-- It is there as it was written, or it is not there. -/
  unchanged : ∀ id rows, Wrote moves id rows →
    (fresh.after moves).book.store.Lacks id ∨ (fresh.after moves).book.store.HasRows id rows
  /-- A removal ends in one of two ways, whatever has come between it and its check. -/
  ended : ∀ client r, (fresh.after moves).removals.lookup client = some r →
    Misses (fresh.after moves) client r ∨
      ∃ rows e, Wrote moves r.id rows ∧ Takes (fresh.after moves) client r rows e
  /-- Between two removals of an expense, a rollback restores it. -/
  restored : ∀ before m between m' rest actor actor' id e e',
    moves = before ++ m :: (between ++ m' :: rest) →
    Removes (fresh.after before) m actor id e →
    Removes (fresh.after (before ++ m :: between)) m' actor' id e' →
      e = e' ∧ ∃ first m'' last rows, between = first ++ m'' :: last ∧ Wrote before id rows ∧
        Restores (fresh.after (before ++ m :: first)) m'' id rows

/-- However the calls of the clients come in between one another, a removal that answers an
expense has deleted this expense, and its actor holds a share of it. -/
theorem removal_authorized {moves : List Move} (hmoves : ∀ m ∈ moves, m.IsLedger)
    (hids : ¬ (fresh.after moves).book.Exhausted) : Guarded moves := by
  have h := faithful_after hmoves hids
  refine ⟨fun _ _ _ => h.book.once, ?_, ?_, ?_, ?_, ?_⟩
  · intro d hd
    obtain ⟨id, hrows⟩ := h.book.holds d hd
    exact ⟨id, _, hrows, rfl⟩
  · intro p hp
    obtain ⟨d, hd, hid⟩ := h.book.keyed.refers p hp
    obtain ⟨id, hrows⟩ := h.book.holds d hd
    exact ⟨id, _, hrows, Store.mem_spendingsAt_iff.mpr ⟨hp, hid.symm⟩⟩
  · intro id rows hrows
    rcases h.book.lacks_or_hasRows id with hlacks | ⟨rows', _, hrows', -, hhas⟩
    · exact .inl hlacks
    · cases h.book.once hrows hrows'
      exact .inr hhas
  · intro client r hlookup
    exact (h.take_cases hlookup).2
  · rintro before m between m' rest actor actor' id e e' rfl hremoves hremoves'
    have hsplit : before ++ m :: (between ++ m' :: rest) =
        (before ++ [m] ++ between) ++ m' :: rest := by simp
    have hsplit' : before ++ m :: between = before ++ [m] ++ between := by simp
    rw [hsplit] at hmoves hids
    rw [hsplit'] at hremoves'
    obtain ⟨hmiddle, hrest⟩ := List.forall_mem_append.mp hmoves
    obtain ⟨hfirst, hbetween⟩ := List.forall_mem_append.mp hmiddle
    obtain ⟨hbefore, hm⟩ := List.forall_mem_append.mp hfirst
    have hids := not_exhausted_of_append hrest hids
    have hids' := not_exhausted_of_append hm (not_exhausted_of_append hbetween hids)
    obtain ⟨rows, hrows, hdecode, -, hlacks⟩ :=
      takes_of_removes (faithful_after hbefore hids') hremoves
    obtain ⟨rows', hrows', hdecode', hhas, -⟩ :=
      takes_of_removes (faithful_after hmiddle hids) hremoves'
    have hlater : Wrote (before ++ [m]) id rows := wrote_append hrows
    cases (faithful_after hmiddle hids).book.once (wrote_append hlater) hrows'
    cases hdecode.symm.trans hdecode'
    refine ⟨rfl, ?_⟩
    rw [← after_concat] at hlacks
    rcases lacks_or_restores hmiddle hids hlater hlacks with
      hlacks | ⟨first, m'', last, heq, hrestores⟩
    · exact absurd hlacks hhas.not_lacks
    · refine ⟨first, m'', last, rows, heq, hrows, ?_⟩
      rwa [List.append_assoc, List.singleton_append] at hrestores

def fare : Expense :=
  ⟨none, 1, "fare", 2, ⟨"USD", by decide, by decide +kernel⟩, [⟨"bob", 2⟩]⟩

/-- Two clients remove the same expense; the second finds it gone, and removes it when the
first has taken its removal back. -/
def racingMoves : List Move :=
  [.call 1 (.addExpense "bob" fare none), .check "phone" "bob" (Id.minted 1) none,
    .check "laptop" "bob" (Id.minted 1) (some "trial"), .take "laptop", .take "phone",
    .rollback "laptop" "trial", .undo "laptop", .check "phone" "bob" (Id.minted 1) none,
    .undo "laptop", .take "phone"]

theorem racing_removals_authorized :
    (∀ m ∈ racingMoves, m.IsLedger) ∧ ¬ (fresh.after racingMoves).book.Exhausted ∧
      Removes (fresh.after (racingMoves.take 3)) (.take "laptop") "bob" (Id.minted 1)
        (fare.listedAs (Id.minted 1)) ∧
      Misses (fresh.after (racingMoves.take 4)) "phone" ⟨"bob", Id.minted 1, none⟩ ∧
      Removes (fresh.after (racingMoves.take 9)) (.take "phone") "bob" (Id.minted 1)
        (fare.listedAs (Id.minted 1)) ∧
      Guarded racingMoves := by
  have hmoves : ∀ m ∈ racingMoves, m.IsLedger := by simp [racingMoves, Move.IsLedger]
  have hids : ¬ (fresh.after racingMoves).book.Exhausted := by
    have hnext : (fresh.after racingMoves).book.nextId = 3 := by decide +kernel
    rw [Book.Exhausted, hnext]
    decide
  refine ⟨hmoves, hids, ?_, ?_, ?_, removal_authorized hmoves hids⟩
  · exact ⟨"laptop", some "trial", rfl, by decide +kernel, by decide +kernel⟩
  · unfold Misses Store.Lacks
    decide +kernel
  · exact ⟨"phone", none, rfl, by decide +kernel, by decide +kernel⟩

end Traffic
end FriendLedger
