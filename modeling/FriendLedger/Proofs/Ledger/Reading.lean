import FriendLedger.Ledger.Account
import FriendLedger.Proofs.Store.Place

/-! Reading one expense. The answer depends on the rows at its place alone. -/

namespace FriendLedger.Ledger

set_option autoImplicit false

variable {s t : Store} {id : Id}

theorem find?_eq (h : s.Complete) (id : Id) :
    find? s id =
      match (s.dealsAt id.toText).head? with
      | some d => (ExpenseRows.mk d (s.spendingsAt id.toText)).decode.map some
      | none => .ok none := by
  simp only [find?, h.findExpense_eq, orDatabase, ok_bind]
  cases (s.dealsAt id.toText).head? with
  | none => rfl
  | some d =>
    simp only [Option.map_some]
    cases (ExpenseRows.mk d (s.spendingsAt id.toText)).decode <;> rfl

theorem find?_congr (hs : s.Complete) (ht : t.Complete)
    (h : s.AgreesAt t (.expense id.toText)) : find? s id = find? t id := by
  rw [find?_eq hs, find?_eq ht, h.1, h.2]

theorem get_congr (actor : String) (h : find? s id = find? t id) :
    get s actor id = get t actor id := by
  rw [get, get, h]

end FriendLedger.Ledger
