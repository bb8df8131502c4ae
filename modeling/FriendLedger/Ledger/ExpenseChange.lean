import FriendLedger.Ledger.Rows
import FriendLedger.Reversible

/-! Adding and removing an expense. An addition keeps the id it was given; a
removal keeps the rows it deleted, and its reversal inserts these very rows. -/

namespace FriendLedger

set_option autoImplicit false

structure AddExpense where
  expense : Expense
  /-- The id of the expense while it is performed. -/
  inserted : Option Id
deriving DecidableEq

namespace AddExpense

def new (e : Expense) : AddExpense := ⟨e, none⟩

def describe (op : AddExpense) : String :=
  match op.inserted with
  | some id => "add expense " ++ id.toText
  | none => "add expense \"" ++ op.expense.details ++ "\""

/-- How many ids the expense takes: its own and one for every share. -/
def idCount (op : AddExpense) : Nat := op.expense.shares.length + 1

def perform (op : AddExpense) (b : Book) : Except Failure Id × AddExpense × Book :=
  match op.inserted with
  | some _ => (.error (alreadyPerformed op.describe), op, b)
  | none =>
    let id := Id.minted b.nextId
    let rows := ExpenseRows.ofExpense op.expense id (b.upcomingIds op.idCount).tail
    let b := b.useIds op.idCount
    match b.store.insertExpense rows with
    | .ok s => (.ok id, { op with inserted := some id }, { b with store := s })
    | .error f => (.error (.database f), op, b)

def reverse (op : AddExpense) (b : Book) : Except Failure Unit × AddExpense × Book :=
  match op.inserted with
  | none => (.error (notPerformed op.describe), op, b)
  | some id =>
    match b.store.deleteExpense id.toText with
    | .ok s => (.ok (), { op with inserted := none }, { b with store := s })
    | .error f => (.error (.inRollback (.database f)), op, b)

instance : Reversible AddExpense Id := ⟨perform, reverse, describe⟩

end AddExpense

structure RemoveExpense where
  id : Id
  /-- The deleted rows while it is performed. -/
  taken : Option ExpenseRows
deriving DecidableEq

namespace RemoveExpense

def new (id : Id) : RemoveExpense := ⟨id, none⟩

def describe (op : RemoveExpense) : String := "remove expense " ++ op.id.toText

/-- Reads, decodes and deletes the rows of an expense. Rows that cannot be read
are not deleted. -/
def take (s : Store) (id : Id) : Except Failure (ExpenseRows × Expense × Store) := do
  match ← orDatabase (s.findExpense id.toText) with
  | none => throw (.expenseNotFound id.toText)
  | some rows =>
    let expense ← rows.decode
    let s' ← orDatabase (s.deleteExpense id.toText)
    return (rows, expense, s')

def perform (op : RemoveExpense) (b : Book) : Except Failure Expense × RemoveExpense × Book :=
  match op.taken with
  | some _ => (.error (alreadyPerformed op.describe), op, b)
  | none =>
    match take b.store op.id with
    | .ok (rows, expense, s) => (.ok expense, { op with taken := some rows }, { b with store := s })
    | .error f => (.error f, op, b)

def reverse (op : RemoveExpense) (b : Book) : Except Failure Unit × RemoveExpense × Book :=
  match op.taken with
  | none => (.error (notPerformed op.describe), op, b)
  | some rows =>
    match b.store.insertExpense rows with
    | .ok s => (.ok (), { op with taken := none }, { b with store := s })
    | .error f => (.error (.inRollback (.database f)), op, b)

/-- The deleted expense while it is performed. -/
def removed? (op : RemoveExpense) : Option (Except Failure Expense) := op.taken.map ExpenseRows.decode

instance : Reversible RemoveExpense Expense := ⟨perform, reverse, describe⟩

end RemoveExpense
end FriendLedger
