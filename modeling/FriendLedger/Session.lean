import FriendLedger.CommandLine.Run
import FriendLedger.Store.Schema

/-! Sessions: clients that work on one book, with any number of journals and of
operations held by hand, each under a name. A step that fails answers why, and
the session goes on. -/

namespace FriendLedger

set_option autoImplicit false

structure Session where
  book : Book
  journals : List (String × Journal)
  handles : List (String × Operation)

namespace Session

inductive Step
  | request (r : Request) (journal : Option String)
  | views (user : String)
  | statuses (subject : String) (candidates : List String)
  | edges (a b : String)
  | addExpense (actor : String) (e : Expense) (journal : Option String)
  | removeExpense (actor : String) (id : Id) (journal : Option String)
  | getExpense (actor : String) (id : Id)
  | findExpense (id : Id)
  | between (actor other : String)
  | balance (actor : String)
  | hold (handle : String) (op : Operation)
  | perform (handle : String)
  | reverse (handle : String)
  | inspect (handle : String)
  | journalPerform (handle : String) (journal : Option String)
  | journalStep (op : ScriptedStep) (journal : Option String)
  | journalShow (journal : String)
  /-- Accepts what the journal holds: nothing will be undone. -/
  | journalCommit (journal : String)
  /-- Gives the journal up, which undoes nothing either. -/
  | journalDrop (journal : String)
  | journalRollback (journal : String)
  | trace
  | dump
  | setIds (next : Nat)
  | insertEdge (e : Edge)
  | insertDeal (d : DealRow)
  | insertSpending (p : SpendingRow)
  | dropTable (table : Table)
  | migrate (direction : Store.Direction)
  | commandLine (args : List String)

inductive Reply
  | done
  | answer (a : Answer)
  | edges (present : Bool) (pair : Bool × Bool) (pending : Bool)
  | found (e : Option Expense)
  | number (n : Int)
  | numbers (ns : List Int)
  | journal (j : Journal)
  | operation (op : Operation)
  | tables (s : Store)
deriving DecidableEq

inductive Refusal
  | stop (s : Stop)
  | usage (f : CommandLine.Fault)
  | noHandle (name : String)
deriving DecidableEq, Repr

def fresh : Session := ⟨.fresh, [], []⟩

def journal (s : Session) (name : String) : Journal := (s.journals.lookup name).getD .empty

def without {α : Type} (entries : List (String × α)) (name : String) : List (String × α) :=
  entries.filter (·.1 ≠ name)

def setJournal (s : Session) (name : String) (j : Journal) : Session :=
  { s with journals := (name, j) :: without s.journals name }

def removeJournal (s : Session) (name : String) : Session :=
  { s with journals := without s.journals name }

def setHandle (s : Session) (name : String) (op : Operation) : Session :=
  { s with handles := (name, op) :: without s.handles name }

def removeHandle (s : Session) (name : String) : Session :=
  { s with handles := without s.handles name }

def setBook (s : Session) (b : Book) : Session := { s with book := b }

def stopped {α : Type} : Except Stop α → Except Refusal α
  | .ok a => .ok a
  | .error e => .error (.stop e)

def failed {α : Type} : Except Failure α → Except Refusal α
  | .ok a => .ok a
  | .error f => .error (.stop (.failure f))

/-- Runs a call with a named journal, or with one of its own that is committed. -/
def withJournal {α : Type} (s : Session) (name : Option String)
    (call : Journal → Book → Except Stop α × Journal × Book) (reply : α → Reply) :
    Except Refusal Reply × Session :=
  match name with
  | some name =>
    let (answer, j, b) := call (s.journal name) s.book
    (stopped (answer.map reply), (s.setJournal name j).setBook b)
  | none =>
    let (answer, _, b) := call .empty s.book
    (stopped (answer.map reply), s.setBook b)

def orStopped {α : Type} (r : Except Failure α × Journal × Book) : Except Stop α × Journal × Book :=
  (orStop r.1, r.2)

def replyOf : Output → Reply
  | .done => .done
  | .added id => .answer (.added id)
  | .removed e => .answer (.removed e)
  | .number n => .number n

def statement (s : Session) (call : Store → Except StoreFault Store) : Except Refusal Reply × Session :=
  match call s.book.store with
  | .ok store => (.ok .done, s.setBook { s.book with store := store })
  | .error f => (.error (.stop (.failure (.database f))), s)

def edgesReply (store : Store) (a b : String) : Except Failure Reply := do
  let present ← Friends.edgeExists store ⟨a, b⟩
  let pair ← Friends.edgePair store a b
  let pending ← Friends.hasPendingRequest store a b
  return .edges present pair pending

/-- Runs a call on the operation held under a name. -/
def withHandle (s : Session) (name : String)
    (call : Operation → Except Refusal Reply × Session) : Except Refusal Reply × Session :=
  match s.handles.lookup name with
  | some op => call op
  | none => (.error (.noHandle name), s)

/-- One step of a client; `now` is the time that commands go by. -/
def step (now : Amount) (s : Session) : Step → Except Refusal Reply × Session
  | .request r journal =>
    s.withJournal journal (fun j b => orStopped (r.run j b)) (fun _ => .done)
  | .views user => (failed ((Friends.views s.book.store user).map .answer), s)
  | .statuses subject candidates =>
    (failed ((Friends.statusesOf s.book.store subject candidates).map (.answer ∘ .statuses)), s)
  | .edges a b => (failed (edgesReply s.book.store a b), s)
  | .addExpense actor e journal => s.withJournal journal (Ledger.add actor e) (.answer ∘ .added)
  | .removeExpense actor id journal =>
    s.withJournal journal (fun j b => orStopped (Ledger.remove actor id j b)) (.answer ∘ .removed)
  | .getExpense actor id =>
    (failed ((Ledger.get s.book.store actor id).map (.answer ∘ .expense)), s)
  | .findExpense id => (failed ((Ledger.find? s.book.store id).map .found), s)
  | .between actor other =>
    (failed ((Ledger.between s.book.store actor other).map (.answer ∘ .expenses)), s)
  | .balance actor => (stopped ((Ledger.balances s.book.store actor).map (.answer ∘ .balances)), s)
  | .hold handle op => (.ok .done, s.setHandle handle op)
  | .perform handle => s.withHandle handle fun op =>
    let (answer, op', b) := op.perform s.book
    (failed (answer.map replyOf), (s.setHandle handle op').setBook b)
  | .reverse handle => s.withHandle handle fun op =>
    let (answer, op', b) := op.reverse s.book
    (failed (answer.map fun _ => .done), (s.setHandle handle op').setBook b)
  | .inspect handle => s.withHandle handle fun op => (.ok (.operation op), s)
  | .journalPerform handle journal => s.withHandle handle fun op =>
    (s.removeHandle handle).withJournal journal (fun j b => orStopped (j.perform id op b)) replyOf
  | .journalStep op journal =>
    s.withJournal journal (fun j b => orStopped (j.perform .step op b)) .number
  | .journalShow name => (.ok (.journal (s.journal name)), s)
  | .journalCommit name => (.ok .done, s.removeJournal name)
  | .journalDrop name => (.ok .done, s.removeJournal name)
  | .journalRollback name =>
    let (answer, b) := (s.journal name).rollback s.book
    (failed (answer.map fun _ => .done), (s.removeJournal name).setBook b)
  | .trace => (.ok (.numbers s.book.trace), s)
  | .dump => (.ok (.tables s.book.store), s)
  | .setIds next => (.ok .done, s.setBook { s.book with nextId := next })
  | .insertEdge e => s.statement (·.insertEdge e)
  | .insertDeal d => s.statement (·.insertDeal d)
  | .insertSpending p => s.statement (·.insertSpending p)
  | .dropTable table => s.statement (·.drop table)
  | .migrate direction =>
    let (answer, store) := s.book.store.migrate direction
    (failed ((orDatabase answer).map fun _ => .done), s.setBook { s.book with store := store })
  | .commandLine args =>
    match CommandLine.read args with
    | .error f => (.error (.usage f), s)
    | .ok invocation =>
      let (answer, b) := invocation.command.run now s.book
      (stopped (answer.map .answer), s.setBook b)

end Session
end FriendLedger
