import FriendLedger.Proofs.Friends.Requests
import FriendLedger.Session

/-! Calls that cannot fail as a rollback does. Whatever is asked and whatever is performed
for the first time, a failure names its own reason. -/

namespace FriendLedger

set_option autoImplicit false

def Failure.isRollback : Failure → Bool
  | .rollbackFailed _ => true
  | _ => false

def Stop.isRollback : Stop → Bool
  | .failure f => f.isRollback
  | .overflow => false

def Session.Refusal.isRollback : Session.Refusal → Bool
  | .stop e => e.isRollback
  | _ => false

variable {α : Type}

abbrev Plain (x : Except Failure α) : Prop := ErrorsIn (·.isRollback = false) x

abbrev PlainStop (x : Except Stop α) : Prop := ErrorsIn (·.isRollback = false) x

theorem plain_orDatabase (x : Except StoreFault α) : Plain (orDatabase x) := by
  cases x <;> simp [orDatabase, Failure.isRollback]

theorem Plain.orStop {x : Except Failure α} (h : Plain x) : PlainStop (orStop x) := by
  cases x with
  | ok a => exact errorsIn_ok a
  | error f => exact errorsIn_error.mpr (h f rfl)

namespace Friends
variable (s : Store)

theorem plain_edgePair (a b : String) : Plain (edgePair s a b) :=
  (plain_orDatabase _).bind fun _ => errorsIn_ok _

theorem plain_hasPendingRequest (a b : String) : Plain (hasPendingRequest s a b) :=
  (plain_edgePair s a b).bind fun _ => errorsIn_ok _

theorem plain_edgeExists (e : Edge) : Plain (edgeExists s e) :=
  (plain_orDatabase _).bind fun _ => errorsIn_ok _

theorem plain_statusesOf (subject : String) (candidates : List String) :
    Plain (statusesOf s subject candidates) := by
  unfold statusesOf
  dsimp only
  split
  · exact (errorsIn_ok _).bind fun _ => errorsIn_ok _
  · exact (plain_orDatabase _).bind fun _ => errorsIn_ok _

theorem plain_views (user : String) : Plain (views s user) :=
  ((plain_orDatabase _).bind fun _ => errorsIn_ok _).bind fun _ =>
    ((plain_orDatabase _).bind fun _ => errorsIn_ok _).bind fun _ =>
      ((plain_orDatabase _).bind fun _ => errorsIn_ok _).bind fun _ => errorsIn_ok _

end Friends

theorem Request.plain_resolve (r : Request) (s : Store) : Plain (r.resolve s) := by
  cases r with
  | send sender target =>
    simp only [resolve]
    split
    · exact errorsIn_error.mpr rfl
    · refine (Friends.plain_edgePair s _ _).bind fun edges => ?_
      obtain ⟨outgoing, incoming⟩ := edges
      cases outgoing with
      | true => exact errorsIn_error.mpr rfl
      | false =>
        cases incoming with
        | true => exact errorsIn_error.mpr rfl
        | false => exact errorsIn_ok _
  | accept requester accepter =>
    refine (Friends.plain_hasPendingRequest s _ _).bind fun pending => ?_
    cases pending with
    | true => exact errorsIn_ok _
    | false => exact errorsIn_error.mpr rfl
  | reject sender target =>
    refine (Friends.plain_hasPendingRequest s _ _).bind fun pending => ?_
    cases pending with
    | true => exact errorsIn_ok _
    | false => exact errorsIn_error.mpr rfl
  | unfriend user friend =>
    refine (Friends.plain_edgePair s _ _).bind fun edges => ?_
    obtain ⟨outgoing, incoming⟩ := edges
    dsimp only
    split
    · exact errorsIn_ok _
    · exact errorsIn_error.mpr rfl

/-! ### The ledger -/

theorem Currency.plain_decode (text : String) : Plain (Currency.decode text) := by
  unfold Currency.decode
  split
  · exact errorsIn_ok _
  · exact errorsIn_error.mpr rfl

theorem DealRow.plain_decode (d : DealRow) (shares : List Share) : Plain (d.decode shares) := by
  have hid : Plain d.decodeId := by
    unfold decodeId
    split
    · exact errorsIn_ok _
    · exact errorsIn_error.mpr rfl
  exact hid.bind fun _ => (Currency.plain_decode _).bind fun _ => errorsIn_ok _

namespace Ledger
variable (s : Store)

theorem plain_find? (id : Id) : Plain (find? s id) := by
  refine (plain_orDatabase _).bind fun rows => ?_
  cases rows with
  | none => exact errorsIn_ok _
  | some rows => exact (DealRow.plain_decode _ _).bind fun _ => errorsIn_ok _

theorem plain_get (actor : String) (id : Id) : Plain (get s actor id) := by
  refine (plain_find? s id).bind fun e => ?_
  cases e with
  | none => exact errorsIn_error.mpr rfl
  | some e =>
    simp only
    split
    · exact errorsIn_ok _
    · exact errorsIn_error.mpr rfl

theorem plain_between (a b : String) : Plain (between s a b) :=
  (plain_orDatabase _).bind fun _ => .mapM (fun _ => DealRow.plain_decode _ _) _

theorem plain_addStored (p : Purse) (group : String × Amount) : PlainStop (addStored p group) := by
  refine (Currency.plain_decode group.1).orStop.bind fun currency => ?_
  split
  · exact errorsIn_ok _
  · exact errorsIn_error.mpr rfl

theorem plain_balances (user : String) : PlainStop (balances s user) := by
  refine (plain_orDatabase _).orStop.bind fun rows => .mapM (fun row => ?_) rows
  exact (ErrorsIn.foldlM plain_addStored _ row.2).bind fun _ => errorsIn_ok _

end Ledger

/-! ### Performing -/

theorem AddEdge.plain_perform (op : AddEdge) (b : Book) : Plain (op.perform b).1 := by
  unfold perform
  split
  · exact errorsIn_error.mpr rfl
  · split
    · exact errorsIn_ok _
    · exact errorsIn_error.mpr rfl
    · exact errorsIn_error.mpr rfl

theorem RemoveEdge.plain_perform (op : RemoveEdge) (b : Book) : Plain (op.perform b).1 := by
  unfold perform
  split
  · exact errorsIn_error.mpr rfl
  · split
    · exact errorsIn_ok _
    · exact errorsIn_error.mpr rfl

theorem AddExpense.plain_perform (op : AddExpense) (b : Book) : Plain (op.perform b).1 := by
  unfold perform
  split
  · exact errorsIn_error.mpr rfl
  · dsimp only
    split
    · exact errorsIn_ok _
    · exact errorsIn_error.mpr rfl

theorem RemoveExpense.plain_perform (op : RemoveExpense) (b : Book) : Plain (op.perform b).1 := by
  have htake : Plain (take b.store op.id) := by
    refine (plain_orDatabase _).bind fun rows => ?_
    cases rows with
    | none => exact errorsIn_error.mpr rfl
    | some rows =>
      exact (DealRow.plain_decode _ _).bind fun _ => (plain_orDatabase _).bind fun _ => errorsIn_ok _
  unfold perform
  split
  · exact errorsIn_error.mpr rfl
  · cases h : take b.store op.id with
    | ok r => exact errorsIn_ok _
    | error f => exact errorsIn_error.mpr (htake f h)

theorem ScriptedStep.plain_perform {op : ScriptedStep} (h : op.performFailure = none) (b : Book) :
    Plain (op.perform b).1 := by
  unfold perform
  rw [h]
  exact errorsIn_ok _

theorem Operation.plain_perform {op : Operation} (h : op.isScripted = false) (b : Book) :
    Plain (op.perform b).1 := by
  cases op with
  | addEdge op => exact (op.plain_perform b).map _
  | removeEdge op => exact (op.plain_perform b).map _
  | addExpense op => exact (op.plain_perform b).map _
  | removeExpense op => exact (op.plain_perform b).map _
  | step op => cases h

theorem Journal.plain_perform {Op Out : Type} [Reversible Op Out] {wrap : Op → Operation} {op : Op}
    {b : Book} (h : Plain (Reversible.perform op b).1) (j : Journal) :
    Plain (j.perform wrap op b).1 := by
  unfold perform
  split
  · exact errorsIn_ok _
  · rename_i f op' b' heq
    rw [heq] at h
    exact errorsIn_error.mpr (h f rfl)

/-! ### Calls -/

section Calls
variable (j : Journal) (b : Book)

theorem Request.plain_run (r : Request) : Plain (r.run j b).1 := by
  unfold run
  split
  · rename_i f heq
    exact errorsIn_error.mpr (r.plain_resolve b.store f heq)
  · rename_i op heq
    have hop : op.isScripted = false := by
      rw [operation_of_resolve heq]
      exact isScripted_operation
    have hperf : Plain (j.perform id op b).1 := Journal.plain_perform (Operation.plain_perform hop b) j
    split <;> rename_i hj
    · exact errorsIn_ok _
    · rw [hj] at hperf
      exact errorsIn_error.mpr (hperf _ rfl)

theorem Ledger.plain_add (actor : String) (e : Expense) : PlainStop (Ledger.add actor e j b).1 := by
  unfold add
  split
  · split
    · exact errorsIn_error.mpr rfl
    · exact (Journal.plain_perform (AddExpense.plain_perform _ b) j).orStop
  · exact errorsIn_error.mpr rfl

theorem Ledger.plain_remove (actor : String) (id : Id) : Plain (Ledger.remove actor id j b).1 := by
  unfold remove
  split
  · exact Journal.plain_perform (RemoveExpense.plain_perform _ b) j
  · rename_i f heq
    exact errorsIn_error.mpr (plain_get b.store actor id f heq)

end Calls

theorem Command.plain_run (c : Command) (now : Amount) (b : Book) : PlainStop (c.run now b).1 := by
  cases c with
  | request r =>
    refine Plain.orStop ?_
    have hrun := r.plain_run .empty b
    split <;> rename_i heq <;> rw [heq] at hrun
    · exact errorsIn_error.mpr (hrun _ rfl)
    · exact (Friends.plain_statusesOf _ _ _).map _
  | list user => exact (Friends.plain_views _ _).orStop
  | status subject candidates => exact Plain.orStop ((Friends.plain_statusesOf _ _ _).map _)
  | add actor draft => exact (Ledger.plain_add _ _ _ _).map _
  | remove actor id => exact Plain.orStop ((Ledger.plain_remove _ _ _ _).map _)
  | expense actor id => exact Plain.orStop ((Ledger.plain_get _ _ _).map _)
  | between actor other => exact Plain.orStop ((Ledger.plain_between _ _ _).map _)
  | balance actor => exact (Ledger.plain_balances _ _).map _

end FriendLedger
