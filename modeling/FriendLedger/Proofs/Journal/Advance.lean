import FriendLedger.Friends.Request
import FriendLedger.Ledger.Account
import FriendLedger.Proofs.Operation.Effect

/-! What a call through a journal does, whoever makes it: it performs one operation
and records it, or it fails and leaves store, trace and journal as they were. `Attempt`
also says which of the two the caller is told. -/

namespace FriendLedger

set_option autoImplicit false

namespace Journal

/-- A call through the journal `j` on the book `b`; an operation that it performs
satisfies `P`. -/
inductive Advance (P : Operation → Prop) (j : Journal) (b : Book) : Journal → Book → Prop
  | refused {b' : Book} (hs : b'.store = b.store) (ht : b'.trace = b.trace) : Advance P j b j b'
  | performed {op op' : Operation} {out : Output} {b' : Book} (hp : P op)
      (h : op.perform b = (.ok out, op', b')) : Advance P j b (j.record op') b'

/-- The same, with what the caller is told. A call that fails has at most used up ids. -/
inductive Attempt (P : Operation → Prop) (j : Journal) (b : Book) : Bool → Journal → Book → Prop
  | refused (n : Nat) : Attempt P j b false j (b.useIds n)
  | performed {op op' : Operation} {out : Output} {b' : Book} (hp : P op)
      (h : op.perform b = (.ok out, op', b')) : Attempt P j b true (j.record op') b'

variable {P : Operation → Prop} {j j' : Journal} {b b' : Book}

theorem Attempt.advance {ok : Bool} (h : Attempt P j b ok j' b') : Advance P j b j' b' := by
  cases h with
  | refused n => exact .refused rfl rfl
  | performed hp h => exact .performed hp h

section Perform
variable {Op Out : Type} [Reversible Op Out] {wrap : Op → Operation} {output : Out → Output} {op : Op}
  {op' : Operation}
  (hw : (wrap op).perform b = Operation.lift wrap output (Reversible.perform op b))
include hw

/-- A journal performs an operation of any kind as an operation on its own. -/
theorem perform_of_ok {out : Output} (h : (wrap op).perform b = (.ok out, op', b')) :
    ∃ a, output a = out ∧ ∀ j : Journal, j.perform wrap op b = (.ok a, j.record op', b') := by
  rw [hw] at h
  cases hr : Reversible.perform op b with
  | mk answer rest =>
    cases answer with
    | error f =>
      rw [hr] at h
      cases h
    | ok a =>
      rw [hr] at h
      cases h
      exact ⟨a, rfl, fun j => by rw [perform, hr]⟩

theorem perform_of_error {f : Failure} (h : (wrap op).perform b = (.error f, op', b')) :
    ∀ j : Journal, j.perform wrap op b = (.error f, j, b') := by
  rw [hw] at h
  cases hr : Reversible.perform op b with
  | mk answer rest =>
    cases answer with
    | ok a =>
      rw [hr] at h
      cases h
    | error f =>
      rw [hr] at h
      cases h
      exact fun j => by rw [perform, hr]

theorem attempt_perform (hp : P (wrap op)) : Attempt P j b (j.perform wrap op b).1.isOk
    (j.perform wrap op b).2.1 (j.perform wrap op b).2.2 := by
  cases h : (wrap op).perform b with
  | mk answer rest =>
    cases answer with
    | ok out =>
      obtain ⟨a, -, hj⟩ := perform_of_ok hw h
      rw [hj j]
      exact .performed hp h
    | error f =>
      rw [perform_of_error hw h j, (Operation.perform_error h).2]
      exact .refused _

end Perform

theorem lift_id (r : Except Failure Output × Operation × Book) : Operation.lift id id r = r := by
  obtain ⟨answer, op, b⟩ := r
  cases answer <;> rfl

theorem attempt_operation {op : Operation} (hp : P op) :
    Attempt P j b (j.perform id op b).1.isOk (j.perform id op b).2.1 (j.perform id op b).2.2 :=
  attempt_perform (lift_id (op.perform b)).symm hp

theorem attempt_request {r : Request} (hp : ∀ op, r.resolve b.store = .ok op → P op) :
    Attempt P j b (r.run j b).1.isOk (r.run j b).2.1 (r.run j b).2.2 := by
  unfold Request.run
  split
  · exact .refused 0
  · rename_i op hop
    have h : Attempt P j b _ _ _ := attempt_operation (hp op hop)
    split <;> rename_i heq <;> rwa [heq] at h

theorem attempt_add {actor : String} {e : Expense} (hp : P (.addExpense (.new e))) :
    Attempt P j b (Ledger.add actor e j b).1.isOk (Ledger.add actor e j b).2.1
      (Ledger.add actor e j b).2.2 := by
  unfold Ledger.add
  split
  · split
    · exact .refused 0
    · rw [isOk_orStop]
      exact @attempt_perform P j b _ _ _ .addExpense .added _ rfl hp
  · exact .refused 0

theorem attempt_take {id : Id} (hp : P (.removeExpense (.new id))) :
    Attempt P j b (Ledger.take id j b).1.isOk (Ledger.take id j b).2.1 (Ledger.take id j b).2.2 :=
  @attempt_perform P j b _ _ _ .removeExpense .removed _ rfl hp

theorem attempt_remove {actor : String} {id : Id} (hp : P (.removeExpense (.new id))) :
    Attempt P j b (Ledger.remove actor id j b).1.isOk (Ledger.remove actor id j b).2.1
      (Ledger.remove actor id j b).2.2 := by
  unfold Ledger.remove
  split
  · exact attempt_take hp
  · exact .refused 0

theorem advance_operation {op : Operation} (hp : P op) :
    Advance P j b (j.perform id op b).2.1 (j.perform id op b).2.2 :=
  (attempt_operation hp).advance

theorem advance_request {r : Request} (hp : ∀ op, r.resolve b.store = .ok op → P op) :
    Advance P j b (r.run j b).2.1 (r.run j b).2.2 :=
  (attempt_request hp).advance

theorem advance_add {actor : String} {e : Expense} (hp : P (.addExpense (.new e))) :
    Advance P j b (Ledger.add actor e j b).2.1 (Ledger.add actor e j b).2.2 :=
  (attempt_add hp).advance

theorem advance_remove {actor : String} {id : Id} (hp : P (.removeExpense (.new id))) :
    Advance P j b (Ledger.remove actor id j b).2.1 (Ledger.remove actor id j b).2.2 :=
  (attempt_remove hp).advance

end Journal
end FriendLedger
