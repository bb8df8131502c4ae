import FriendLedger.Ledger.Rows
import FriendLedger.Ledger.Totals

/-! The expenses that two users share, oldest first, each with the shares of these
two alone. The spendings of the second user are summed only if the first one has
any. -/

namespace FriendLedger.Ledger

set_option autoImplicit false

/-- A deal with what either user's spendings of it come to. -/
structure PairRow where
  deal : DealRow
  first : Amount
  second : Amount
deriving DecidableEq

def PairRow.listedBefore (r q : PairRow) : Bool :=
  r.deal.timestamp < q.deal.timestamp ||
    (r.deal.timestamp == q.deal.timestamp && decide (r.deal.id ≤ q.deal.id))

def joinPair (deals : List DealRow) (first second : List (String × Amount)) : List PairRow :=
  deals.filterMap fun d =>
    match first.lookup d.id, second.lookup d.id with
    | some x, some y => some ⟨d, x, y⟩
    | _, _ => none

def pairRows (s : Store) (a b : String) : Except StoreFault (List PairRow) := do
  let deals ← s.dealRows
  let spendings ← s.spendingRows
  let first ← totalsByDeal spendings a
  if first.isEmpty then return []
  let second ← totalsByDeal spendings b
  return (joinPair deals first second).mergeSort PairRow.listedBefore

def PairRow.decode (r : PairRow) (a b : String) : Except Failure Expense :=
  r.deal.decode (if a = b then [⟨a, r.first⟩] else [⟨a, r.first⟩, ⟨b, r.second⟩])

def between (s : Store) (a b : String) : Except Failure (List Expense) := do
  (← orDatabase (pairRows s a b)).mapM (·.decode a b)

end FriendLedger.Ledger
