import FriendLedger.Friends.EdgeChange
import FriendLedger.Ledger.ExpenseChange

/-! Operations of every kind under one type, so that one journal can hold them. -/

namespace FriendLedger

set_option autoImplicit false

/-- A step that only leaves its number in the trace, or fails as it is told. -/
structure ScriptedStep where
  number : Int
  performFailure : Option Failure
  reverseFailure : Option Failure
deriving DecidableEq

namespace ScriptedStep

def describe (op : ScriptedStep) : String := "step " ++ String.ofList (Text.writeInt op.number)

def perform (op : ScriptedStep) (b : Book) : Except Failure Int × ScriptedStep × Book :=
  match op.performFailure with
  | some f => (.error f, op, b)
  | none => (.ok op.number, op, { b with trace := b.trace ++ [op.number] })

def reverse (op : ScriptedStep) (b : Book) : Except Failure Unit × ScriptedStep × Book :=
  match op.reverseFailure with
  | some f => (.error f, op, b)
  | none => (.ok (), op, { b with trace := b.trace ++ [-op.number] })

instance : Reversible ScriptedStep Int := ⟨perform, reverse, describe⟩

end ScriptedStep

inductive Operation
  | addEdge (op : AddEdge)
  | removeEdge (op : RemoveEdge)
  | addExpense (op : AddExpense)
  | removeExpense (op : RemoveExpense)
  | step (op : ScriptedStep)
deriving DecidableEq

inductive Output
  | done
  | added (id : Id)
  | removed (expense : Expense)
  | number (n : Int)
deriving DecidableEq

namespace Operation

/-- The result of an operation of one kind as a result of an operation. -/
def lift {Op Out : Type} (wrap : Op → Operation) (output : Out → Output)
    (r : Except Failure Out × Op × Book) : Except Failure Output × Operation × Book :=
  (r.1.map output, wrap r.2.1, r.2.2)

def perform (op : Operation) (b : Book) : Except Failure Output × Operation × Book :=
  match op with
  | .addEdge op => lift .addEdge (fun _ => .done) (op.perform b)
  | .removeEdge op => lift .removeEdge (fun _ => .done) (op.perform b)
  | .addExpense op => lift .addExpense .added (op.perform b)
  | .removeExpense op => lift .removeExpense .removed (op.perform b)
  | .step op => lift .step .number (op.perform b)

def reverse (op : Operation) (b : Book) : Except Failure Unit × Operation × Book :=
  match op with
  | .addEdge op => let r := op.reverse b; (r.1, .addEdge r.2.1, r.2.2)
  | .removeEdge op => let r := op.reverse b; (r.1, .removeEdge r.2.1, r.2.2)
  | .addExpense op => let r := op.reverse b; (r.1, .addExpense r.2.1, r.2.2)
  | .removeExpense op => let r := op.reverse b; (r.1, .removeExpense r.2.1, r.2.2)
  | .step op => let r := op.reverse b; (r.1, .step r.2.1, r.2.2)

def describe : Operation → String
  | .addEdge op => op.describe
  | .removeEdge op => op.describe
  | .addExpense op => op.describe
  | .removeExpense op => op.describe
  | .step op => op.describe

instance : Reversible Operation Output := ⟨perform, reverse, describe⟩

end Operation
end FriendLedger
