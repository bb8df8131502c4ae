import FriendLedger.Book
import FriendLedger.Expense

/-! The rows of an expense: how an expense is stored and how stored rows are read.
Reading checks the id before the currency and lists the shares by counterparty. -/

namespace FriendLedger

set_option autoImplicit false

def SpendingRow.toShare (p : SpendingRow) : Share := ⟨p.counterparty, p.cost⟩

/-- The rows of an expense under its id, one id for every share. -/
def ExpenseRows.ofExpense (e : Expense) (id : Id) (shareIds : List Id) : ExpenseRows where
  deal := ⟨id.toText, e.timestamp, e.details, e.totalCost, e.currency.code⟩
  spendings := e.shares.zipWith (fun s i => ⟨i.toText, id.toText, s.signedCost, s.counterparty⟩) shareIds

def DealRow.decodeId (d : DealRow) : Except Failure Id :=
  match Id.ofText? d.id with
  | some id => .ok id
  | none => .error (.invalidId "invalid expense id")

def DealRow.decode (d : DealRow) (shares : List Share) : Except Failure Expense := do
  let id ← d.decodeId
  let currency ← Currency.decode d.currency
  return {
    id := some id
    timestamp := d.timestamp
    details := d.details
    totalCost := d.cost
    currency := currency
    shares := Share.sorted shares }

def ExpenseRows.decode (rows : ExpenseRows) : Except Failure Expense :=
  rows.deal.decode (rows.spendings.map SpendingRow.toShare)

end FriendLedger
