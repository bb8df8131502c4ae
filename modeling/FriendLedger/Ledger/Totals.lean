import FriendLedger.Book
import FriendLedger.Roster

/-! Sums over spendings, as the store takes them: the rows of a group from left to
right in the order of their insertion. A sum that leaves the range fails the
whole statement. -/

namespace FriendLedger.Ledger

set_option autoImplicit false

def total (amounts : List Amount) : Except StoreFault Amount :=
  match Amount.sum? amounts with
  | some a => .ok a
  | none => .error .sumOutOfRange

def costsIn (rows : List SpendingRow) (user dealId : String) : List Amount :=
  (rows.filter fun p => p.counterparty = user && p.dealId = dealId).map (·.cost)

def dealsOf (rows : List SpendingRow) (user : String) : List String :=
  Roster.ofList ((rows.filter (·.counterparty = user)).map (·.dealId))

/-- What a user's spendings of each deal come to, in ascending order of the deals. -/
def totalsByDeal (rows : List SpendingRow) (user : String) :
    Except StoreFault (List (String × Amount)) :=
  (dealsOf rows user).mapM fun dealId => do return (dealId, ← total (costsIn rows user dealId))

end FriendLedger.Ledger
