import FriendLedger.CommandLine.Grammar
import FriendLedger.Expense
import FriendLedger.Friends.Request

/-! The commands of the program and how arguments name them. -/

namespace FriendLedger

set_option autoImplicit false

/-- A share written as `user=cost`: the text is split at the first equals sign
and both parts are trimmed; the user is not empty. -/
def Share.ofChars? (cs : List Char) : Option Share :=
  match cs.dropWhile (· ≠ '=') with
  | [] => none
  | _ :: cost =>
    let user := Text.trim (cs.takeWhile (· ≠ '='))
    if user = [] then none
    else (Amount.ofChars? (Text.trim cost)).map fun a => ⟨String.ofList user, a⟩

def Share.ofText? (s : String) : Option Share := Share.ofChars? s.toList

def Amount.ofText? (s : String) : Option Amount := Amount.ofChars? s.toList

/-- The arguments of a new expense; without a timestamp it is of now. -/
structure Draft where
  details : String
  totalCost : Amount
  currency : Currency
  timestamp : Option Amount
  shares : List Share
deriving DecidableEq

def Draft.expense (d : Draft) (now : Amount) : Expense where
  id := none
  timestamp := d.timestamp.getD now
  details := d.details
  totalCost := d.totalCost
  currency := d.currency
  shares := d.shares

inductive Command
  | request (r : Request)
  | list (user : String)
  | status (subject : String) (candidates : List String)
  | add (actor : String) (draft : Draft)
  | remove (actor : String) (id : Id)
  | expense (actor : String) (id : Id)
  | between (actor other : String)
  | balance (actor : String)
deriving DecidableEq

structure Invocation where
  databaseUrl : Option String
  command : Command
deriving DecidableEq

namespace CommandLine

def anything (_ : String) : Bool := true

def positional (name : String) (accepts : String → Bool) : Parameter :=
  ⟨name, true, false, false, accepts⟩

def user (name : String) : Parameter := positional name anything

def expenseId : Parameter := positional "id" fun s => (Id.ofText? s).isSome

def addOptions : List Parameter := [
  ⟨"actor", true, false, false, anything⟩,
  ⟨"details", true, false, false, anything⟩,
  ⟨"total", true, false, true, fun s => (Amount.ofText? s).isSome⟩,
  ⟨"currency", true, false, false, fun s => (Currency.ofText? s).isSome⟩,
  ⟨"timestamp", false, false, false, fun s => (Amount.ofText? s).isSome⟩,
  ⟨"share", false, true, true, fun s => (Share.ofText? s).isSome⟩]

def friendsShape : Shape := .group [] [
  ("send", .leaf [] [user "sender", user "target"]),
  ("accept", .leaf [] [user "requester", user "accepter"]),
  ("reject", .leaf [] [user "sender", user "target"]),
  ("unfriend", .leaf [] [user "user", user "friend"]),
  ("list", .leaf [] [user "user"]),
  ("status", .leaf [] [user "subject", ⟨"candidates", false, true, false, anything⟩])]

def expensesShape : Shape := .group [] [
  ("add", .leaf addOptions []),
  ("remove", .leaf [] [user "actor", expenseId]),
  ("show", .leaf [] [user "actor", expenseId]),
  ("between", .leaf [] [user "actor", user "other"]),
  ("balance", .leaf [] [user "actor"])]

def shape : Shape := .group [⟨"database-url", false, false, false, anything⟩]
  [("friends", friendsShape), ("expenses", expensesShape)]

def draft? (p : Parsed) : Option Draft := do
  return {
    details := ← p.value? "details"
    totalCost := ← (← p.value? "total") |> Amount.ofText?
    currency := ← (← p.value? "currency") |> Currency.ofText?
    timestamp := ← match p.value? "timestamp" with
      | some s => (Amount.ofText? s).map some
      | none => some none
    shares := ← (p.allValues "share").mapM Share.ofText? }

def command? (p : Parsed) : Option Command :=
  match p.path with
  | ["friends", "send"] => do
    return .request (.send (← p.value? "sender") (← p.value? "target"))
  | ["friends", "accept"] => do
    return .request (.accept (← p.value? "requester") (← p.value? "accepter"))
  | ["friends", "reject"] => do
    return .request (.reject (← p.value? "sender") (← p.value? "target"))
  | ["friends", "unfriend"] => do
    return .request (.unfriend (← p.value? "user") (← p.value? "friend"))
  | ["friends", "list"] => do return .list (← p.value? "user")
  | ["friends", "status"] => do
    return .status (← p.value? "subject") (p.allValues "candidates")
  | ["expenses", "add"] => do return .add (← p.value? "actor") (← draft? p)
  | ["expenses", "remove"] => do
    return .remove (← p.value? "actor") (← (← p.value? "id") |> Id.ofText?)
  | ["expenses", "show"] => do
    return .expense (← p.value? "actor") (← (← p.value? "id") |> Id.ofText?)
  | ["expenses", "between"] => do return .between (← p.value? "actor") (← p.value? "other")
  | ["expenses", "balance"] => do return .balance (← p.value? "actor")
  | _ => none

/-- The command of a line of arguments, without the name of the program. -/
def read (args : List String) : Except Fault Invocation := do
  let p ← parse shape shape.start args
  match command? p with
  | some c => return ⟨p.value? "database-url", c⟩
  | none => throw .badValue

end CommandLine
end FriendLedger
