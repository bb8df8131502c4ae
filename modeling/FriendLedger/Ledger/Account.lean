import FriendLedger.Journal
import FriendLedger.Ledger.Balances
import FriendLedger.Ledger.Between

/-! What users may do in the ledger: add, read and remove expenses in which they
hold a share. -/

namespace FriendLedger.Ledger

set_option autoImplicit false

/-- The expense of an id, whoever asks. -/
def find? (s : Store) (id : Id) : Except Failure (Option Expense) := do
  match ← orDatabase (s.findExpense id.toText) with
  | some rows => return some (← rows.decode)
  | none => return none

def get (s : Store) (actor : String) (id : Id) : Except Failure Expense := do
  match ← find? s id with
  | none => throw (.expenseNotFound id.toText)
  | some e =>
    if e.involves actor then return e
    else throw (.notYourExpense (actor ++ " holds no share of " ++ id.toText))

/-- Stores an expense. That its shares add up is asked but not required; a sum
out of range stops the call before anything is written. -/
def add (actor : String) (e : Expense) (j : Journal) (b : Book) : Except Stop Id × Journal × Book :=
  if e.involves actor then
    match e.isBalanced? with
    | none => (.error .overflow, j, b)
    | some _ =>
      let (answer, j', b') := j.perform .addExpense (.new e) b
      (orStop answer, j', b')
  else (.error (.failure (.notYourExpense (actor ++ " holds no share of the new expense"))), j, b)

def take (id : Id) (j : Journal) (b : Book) : Except Failure Expense × Journal × Book :=
  j.perform .removeExpense (.new id) b

/-- Reads the expense as `get` does, then takes it out of the store. -/
def remove (actor : String) (id : Id) (j : Journal) (b : Book) :
    Except Failure Expense × Journal × Book :=
  match get b.store actor id with
  | .ok _ => take id j b
  | .error f => (.error f, j, b)

end FriendLedger.Ledger
