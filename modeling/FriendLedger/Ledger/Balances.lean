import FriendLedger.Balance
import FriendLedger.Ledger.Totals

/-! The balances of a user: for every other user and every stored currency the sum
of the user's own totals of the deals that the other has a part in. Each deal
counts once, however many spendings the other holds in it. Stored currencies that
name one currency are added up. -/

namespace FriendLedger.Ledger

set_option autoImplicit false

/-- A user's total of one deal, seen against another party of the deal. -/
structure Entry where
  counterparty : String
  currency : String
  amount : Amount
deriving DecidableEq

def othersIn (rows : List SpendingRow) (user dealId : String) : List String :=
  Roster.ofList ((rows.filter fun p => p.dealId = dealId && p.counterparty ≠ user).map
    (·.counterparty))

def entriesOf (deals : List DealRow) (rows : List SpendingRow) (user : String)
    (mine : List (String × Amount)) : List Entry :=
  mine.flatMap fun m =>
    match deals.find? (·.id = m.1) with
    | some d => (othersIn rows user m.1).map fun other => ⟨other, d.currency, m.2⟩
    | none => []

def groupsOf (entries : List Entry) (counterparty : String) :
    Except StoreFault (List (String × Amount)) :=
  let own := entries.filter (·.counterparty = counterparty)
  (Roster.ofList (own.map (·.currency))).mapM fun currency => do
    return (currency, ← total ((own.filter (·.currency = currency)).map (·.amount)))

def balanceRows (s : Store) (user : String) :
    Except StoreFault (List (String × List (String × Amount))) := do
  let deals ← s.dealRows
  let spendings ← s.spendingRows
  let mine ← totalsByDeal spendings user
  let entries := entriesOf deals spendings user mine
  (Roster.ofList (entries.map (·.counterparty))).mapM fun counterparty => do
    return (counterparty, ← groupsOf entries counterparty)

def addStored (p : Purse) (group : String × Amount) : Except Stop Purse := do
  let currency ← orStop (Currency.decode group.1)
  match p.add? currency group.2 with
  | some p' => return p'
  | none => throw .overflow

def balances (s : Store) (user : String) : Except Stop (List Balance) := do
  (← orStop (orDatabase (balanceRows s user))).mapM fun row => do
    return ⟨row.1, ← row.2.foldlM addStored Purse.empty⟩

end FriendLedger.Ledger
