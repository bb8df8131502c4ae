import FriendLedger.Store.Fault

/-! Why a call fails. Callers see a code: conflicts of the domain keep their own,
while everything about the store and about reversals is internal. -/

namespace FriendLedger

set_option autoImplicit false

inductive Failure
  | noSuchRequest (edge : String)
  | alreadySent (edge : String)
  | hasIncomingRequest (edge : String)
  | notAFriend (pair : String)
  | invalidRequest (reason : String)
  | expenseNotFound (id : String)
  | notYourExpense (reason : String)
  | invalidExpense (reason : String)
  | invalidId (reason : String)
  | corruptRow (reason : String)
  | compensation (reason : String)
  | rollbackFailed (cause : Failure)
  | database (fault : StoreFault)
deriving DecidableEq, Repr

inductive Code
  | noSuchRequest
  | alreadySent
  | hasIncomingRequest
  | notAFriend
  | invalidRequest
  | expenseNotFound
  | notYourExpense
  | invalidExpense
  | internal
deriving DecidableEq, Repr

def Code.text : Code → String
  | .noSuchRequest => "no_such_request"
  | .alreadySent => "already_sent"
  | .hasIncomingRequest => "has_incoming_request"
  | .notAFriend => "not_a_friend"
  | .invalidRequest => "invalid_request"
  | .expenseNotFound => "expense_not_found"
  | .notYourExpense => "not_your_expense"
  | .invalidExpense => "invalid_expense"
  | .internal => "internal"

namespace Failure

def code : Failure → Code
  | .noSuchRequest _ => .noSuchRequest
  | .alreadySent _ => .alreadySent
  | .hasIncomingRequest _ => .hasIncomingRequest
  | .notAFriend _ => .notAFriend
  | .invalidRequest _ => .invalidRequest
  | .expenseNotFound _ => .expenseNotFound
  | .notYourExpense _ => .notYourExpense
  | .invalidExpense _ => .invalidExpense
  | .invalidId _ | .corruptRow _ | .compensation _ | .rollbackFailed _ | .database _ => .internal

def isInternal (f : Failure) : Bool := f.code = .internal

def message : Failure → String
  | .noSuchRequest edge => "No pending friend request: " ++ edge
  | .alreadySent edge => "Friend request already sent: " ++ edge
  | .hasIncomingRequest edge => "Incoming friend request pending: " ++ edge
  | .notAFriend pair => "Not a friend: " ++ pair
  | .invalidRequest reason => "Invalid request: " ++ reason
  | .expenseNotFound id => "\"" ++ id ++ "\" expense not found!"
  | .notYourExpense reason => "Not your expense: " ++ reason
  | .invalidExpense reason => "Invalid expense: " ++ reason
  | .invalidId reason => "Invalid id: " ++ reason
  | .corruptRow reason => "Corrupt row: " ++ reason
  | .compensation reason => "Compensation misuse: " ++ reason
  | .rollbackFailed cause => "Rollback failed: " ++ cause.message
  | .database fault => fault.message

/-- A failed reversal with its cause, never wrapped twice. -/
def inRollback : Failure → Failure
  | .rollbackFailed cause => .rollbackFailed cause
  | f => .rollbackFailed f

/-- Two failures agree when they are of one kind and say the same. -/
def agrees : Failure → Failure → Bool
  | .noSuchRequest a, .noSuchRequest b => a == b
  | .alreadySent a, .alreadySent b => a == b
  | .hasIncomingRequest a, .hasIncomingRequest b => a == b
  | .notAFriend a, .notAFriend b => a == b
  | .invalidRequest a, .invalidRequest b => a == b
  | .expenseNotFound a, .expenseNotFound b => a == b
  | .notYourExpense a, .notYourExpense b => a == b
  | .invalidExpense a, .invalidExpense b => a == b
  | .invalidId a, .invalidId b => a == b
  | .corruptRow a, .corruptRow b => a == b
  | .compensation a, .compensation b => a == b
  | .rollbackFailed a, .rollbackFailed b => a.agrees b
  | .database a, .database b => a.message == b.message
  | _, _ => false

end Failure

/-- Why a call ends without an answer: it fails, or a sum in the program itself
leaves the range of amounts. -/
inductive Stop
  | failure (f : Failure)
  | overflow
deriving DecidableEq, Repr

/-- Lets a failure stop a call that can also overflow. -/
def orStop {α : Type} : Except Failure α → Except Stop α
  | .ok a => .ok a
  | .error f => .error (.failure f)

end FriendLedger
