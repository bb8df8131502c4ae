import FriendLedger.Calendar
import FriendLedger.Currency
import FriendLedger.Id

/-! Expenses and the signed shares of their parties. Nothing requires the shares
to add up; whether they do can be asked. -/

namespace FriendLedger

set_option autoImplicit false

structure Share where
  counterparty : String
  signedCost : Amount
deriving DecidableEq

structure Expense where
  /-- Assigned when the expense is stored. -/
  id : Option Id
  /-- Seconds since the start of 1970. -/
  timestamp : Amount
  details : String
  totalCost : Amount
  currency : Currency
  shares : List Share
deriving DecidableEq

namespace Expense

def involves (e : Expense) (user : String) : Bool := e.shares.any (·.counterparty == user)

def shareOf? (e : Expense) (user : String) : Option Share :=
  e.shares.find? (·.counterparty == user)

/-- The sum of the shares from left to right, unless it leaves the range. -/
def shareTotal? (e : Expense) : Option Amount := Amount.sum? (e.shares.map (·.signedCost))

/-- Whether the shares cancel out or add up to the total cost. -/
def isBalanced? (e : Expense) : Option Bool :=
  e.shareTotal?.map fun total => total == 0 || total == e.totalCost

def occurredAt? (e : Expense) : Option String := Calendar.timestampText? e.timestamp

theorem involves_iff (e : Expense) (user : String) :
    e.involves user = true ↔ ∃ s ∈ e.shares, s.counterparty = user := by
  simp [involves]

end Expense

namespace Share

/-- The order in which the shares of a stored expense are listed. -/
def listedBefore (a b : Share) : Bool := decide (a.counterparty ≤ b.counterparty)

/-- Shares by counterparty; those of one party keep their order. -/
def sorted (shares : List Share) : List Share := shares.mergeSort listedBefore

theorem mem_sorted_iff (s : Share) (shares : List Share) : s ∈ sorted shares ↔ s ∈ shares :=
  (List.mergeSort_perm shares listedBefore).mem_iff

end Share
end FriendLedger
