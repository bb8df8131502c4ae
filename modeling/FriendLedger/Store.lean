import FriendLedger.Amount
import FriendLedger.Friends.Status
import FriendLedger.Store.Fault

/-! The store: three tables, each of which may be missing, and the record of the
schema. Rows stand in the order of their insertion. A statement either fails and
changes nothing or answers the store after it. -/

namespace FriendLedger

set_option autoImplicit false

/-- The header of an expense. -/
structure DealRow where
  id : String
  timestamp : Amount
  details : String
  cost : Amount
  currency : String
deriving DecidableEq

/-- One share of an expense. -/
structure SpendingRow where
  id : String
  dealId : String
  cost : Amount
  counterparty : String
deriving DecidableEq

structure ExpenseRows where
  deal : DealRow
  spendings : List SpendingRow
deriving DecidableEq

structure Store where
  edges : Option (List Edge)
  deals : Option (List DealRow)
  spendings : Option (List SpendingRow)
  /-- Whether the schema is recorded as set up. -/
  recorded : Bool
deriving DecidableEq

namespace Store

/-- A database without tables. -/
def blank : Store := ⟨none, none, none, false⟩

/-- The tables of a fresh schema. -/
def fresh : Store := ⟨some [], some [], some [], true⟩

/-- The rows of a table, or the fault of one that is missing. -/
def rowsOf {α : Type} (table : Table) : Option (List α) → Except StoreFault (List α)
  | some rows => .ok rows
  | none => .error (.missingTable table.name)

def edgeRows (s : Store) : Except StoreFault (List Edge) := rowsOf .friendRequests s.edges

def dealRows (s : Store) : Except StoreFault (List DealRow) := rowsOf .deals s.deals

def spendingRows (s : Store) : Except StoreFault (List SpendingRow) := rowsOf .spendings s.spendings

def insertEdge (s : Store) (e : Edge) : Except StoreFault Store := do
  let rows ← s.edgeRows
  if e ∈ rows then throw (.duplicateKey .friendRequests)
  return { s with edges := some (rows ++ [e]) }

/-- Also answers whether there was a row to delete. -/
def deleteEdge (s : Store) (e : Edge) : Except StoreFault (Bool × Store) := do
  let rows ← s.edgeRows
  return (decide (e ∈ rows), { s with edges := some (rows.filter (· ≠ e)) })

def insertDeal (s : Store) (d : DealRow) : Except StoreFault Store := do
  let rows ← s.dealRows
  if rows.any (·.id == d.id) then throw (.duplicateKey .deals)
  return { s with deals := some (rows ++ [d]) }

/-- A spending refers to a deal that is stored. -/
def insertSpending (s : Store) (p : SpendingRow) : Except StoreFault Store := do
  let rows ← s.spendingRows
  let deals ← s.dealRows
  if rows.any (·.id == p.id) then throw (.duplicateKey .spendings)
  if !deals.any (·.id == p.dealId) then throw (.unknownDeal p.dealId)
  return { s with spendings := some (rows ++ [p]) }

/-- The deal and all its spendings, or nothing. A store can limit how many values one
statement binds, and so the number of spendings; that limit is left out. -/
def insertExpense (s : Store) (rows : ExpenseRows) : Except StoreFault Store := do
  rows.spendings.foldlM insertSpending (← s.insertDeal rows.deal)

/-- The spendings of a deal and the deal; rows that are missing are no fault. -/
def deleteExpense (s : Store) (id : String) : Except StoreFault Store := do
  let spendings ← s.spendingRows
  let deals ← s.dealRows
  return { s with
    spendings := some (spendings.filter (·.dealId ≠ id))
    deals := some (deals.filter (·.id ≠ id)) }

def findExpense (s : Store) (id : String) : Except StoreFault (Option ExpenseRows) := do
  match (← s.dealRows).find? (·.id == id) with
  | some deal => return some ⟨deal, (← s.spendingRows).filter (·.dealId == id)⟩
  | none => return none

end Store
end FriendLedger
