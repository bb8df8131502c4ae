import FriendLedger.Proofs.Operation.Keys
import FriendLedger.Proofs.Session.Entries
import Mathlib.Data.Finmap

/-! The ledger without tables: a finite map from ids to expenses. Postings are the
operations on it. A register is what a session comes to when only its ledger is
looked at: the map, the postings held by hand and those recorded in journals. The
relations say which answers and which changes are possible; they leave a choice
only when `stale` holds, that is when ids have been handed out twice. -/

namespace FriendLedger

set_option autoImplicit false

abbrev Catalogue := Finmap fun _ : Id => Expense

/-- An operation on the catalogue, with what it keeps while it is performed. -/
inductive Posting
  | adding (e : Expense) (added : Option Id)
  | removing (id : Id) (removed : Option Expense)

def Posting.isPerformed : Posting → Bool
  | .adding _ added => added.isSome
  | .removing _ removed => removed.isSome

structure Register where
  entries : Catalogue
  /-- The ids under which an expense has ever been added. -/
  used : List Id
  journals : String → List Posting
  handles : String → Option Posting

namespace Register

def empty : Register := ⟨∅, [], fun _ => [], fun _ => none⟩

def enter (r : Register) (id : Id) (e : Expense) : Register :=
  { r with entries := r.entries.insert id e, used := id :: r.used }

def restore (r : Register) (id : Id) (e : Expense) : Register :=
  { r with entries := r.entries.insert id e }

def erase (r : Register) (id : Id) : Register := { r with entries := r.entries.erase id }

def hold (r : Register) (name : String) (p : Option Posting) : Register :=
  { r with handles := Function.update r.handles name p }

def setJournal (r : Register) (name : String) (ps : List Posting) : Register :=
  { r with journals := Function.update r.journals name ps }

theorem handles_hold (r : Register) (name other : String) (p : Option Posting) :
    (r.hold name p).handles other = if other = name then p else r.handles other :=
  Function.update_apply ..

theorem journals_setJournal (r : Register) (name other : String) (ps : List Posting) :
    (r.setJournal name ps).journals other = if other = name then ps else r.journals other :=
  Function.update_apply ..

def note (r : Register) (journal : Option String) (p : Posting) : Register :=
  match journal with
  | some name => r.setJournal name (p :: r.journals name)
  | none => r

/-- Performing a posting answers an output, or none when it fails. -/
inductive Performs (stale : Prop) (r : Register) :
    Posting → Option Output → Posting → Register → Prop
  | add {e : Expense} {id : Id} (hid : id ∉ r.entries) (hnew : id ∈ r.used → stale) :
      Performs stale r (.adding e none) (some (.added id)) (.adding e (some id)) (r.enter id e)
  | remove {id : Id} {e : Expense} (he : r.entries.lookup id = some e) :
      Performs stale r (.removing id none) (some (.removed (e.listedAs id))) (.removing id (some e))
        (r.erase id)
  | again {p : Posting} (hp : p.isPerformed = true) : Performs stale r p none p r
  | missing {id : Id} (hid : id ∉ r.entries) :
      Performs stale r (.removing id none) none (.removing id none) r
  | add_stale {e : Expense} (h : stale) : Performs stale r (.adding e none) none (.adding e none) r

inductive Reverses (stale : Prop) (r : Register) : Posting → Bool → Posting → Register → Prop
  | add {e : Expense} {id : Id} :
      Reverses stale r (.adding e (some id)) true (.adding e none) (r.erase id)
  | remove {id : Id} {e : Expense} (hid : id ∉ r.entries) :
      Reverses stale r (.removing id (some e)) true (.removing id none) (r.restore id e)
  | early {p : Posting} (hp : p.isPerformed = false) : Reverses stale r p false p r
  | remove_stale {id : Id} {e : Expense} (h : stale) :
      Reverses stale r (.removing id (some e)) false (.removing id (some e)) r

/-- Reversing the postings of a journal stops at the first failure. -/
inductive ReversesAll (stale : Prop) : Register → List Posting → Bool → Register → Prop
  | nil {r : Register} : ReversesAll stale r [] true r
  | cons {r r' r'' : Register} {p p' : Posting} {ps : List Posting} {ok : Bool}
      (h : Reverses stale r p true p' r') (hs : ReversesAll stale r' ps ok r'') :
      ReversesAll stale r (p :: ps) ok r''
  | stop {r r' : Register} {p p' : Posting} {ps : List Posting}
      (h : Reverses stale r p false p' r') : ReversesAll stale r (p :: ps) false r'

end Register

def Posting.ofNew? : Operation → Option Posting
  | .addExpense ⟨e, none⟩ => some (.adding e none)
  | .removeExpense ⟨id, none⟩ => some (.removing id none)
  | _ => none

namespace Session.Step

/-- Steps that ask, and those that change the ledger alone. -/
def isLedger : Step → Bool
  | .addExpense _ _ _ | .removeExpense _ _ _ | .perform _ | .reverse _ | .journalPerform _ _
  | .journalCommit _ | .journalDrop _ | .journalRollback _ => true
  | .hold _ op => (Posting.ofNew? op).isSome
  | step => step.isRead

end Session.Step

namespace Register
open Session

inductive Takes (stale : Prop) (r : Register) : Step → Except Refusal Reply → Register → Prop
  | read {step : Step} {reply : Except Refusal Reply} (h : step.isRead = true) :
      Takes stale r step reply r
  | add {actor : String} {e : Expense} {journal : Option String} {out : Output} {p : Posting}
      {r' : Register} (hinv : e.involves actor = true) (hsum : e.isBalanced?.isSome = true)
      (h : Performs stale r (.adding e none) (some out) p r') :
      Takes stale r (.addExpense actor e journal) (.ok (replyOf out)) (r'.note journal p)
  | add_refused {actor : String} {e : Expense} {journal : Option String} {why : Refusal}
      (h : e.involves actor = false ∨ e.isBalanced? = none ∨ stale) :
      Takes stale r (.addExpense actor e journal) (.error why) r
  | remove {actor : String} {id : Id} {journal : Option String} {e : Expense} {out : Output}
      {p : Posting} {r' : Register} (he : r.entries.lookup id = some e)
      (hinv : e.involves actor = true) (h : Performs stale r (.removing id none) (some out) p r') :
      Takes stale r (.removeExpense actor id journal) (.ok (replyOf out)) (r'.note journal p)
  | remove_refused {actor : String} {id : Id} {journal : Option String} {why : Refusal}
      (h : ∀ e, r.entries.lookup id = some e → e.involves actor = false) :
      Takes stale r (.removeExpense actor id journal) (.error why) r
  | hold {handle : String} {op : Operation} {p : Posting} (h : Posting.ofNew? op = some p) :
      Takes stale r (.hold handle op) (.ok .done) (r.hold handle (some p))
  | perform {handle : String} {p p' : Posting} {out : Output} {r' : Register}
      (hp : r.handles handle = some p) (h : Performs stale r p (some out) p' r') :
      Takes stale r (.perform handle) (.ok (replyOf out)) (r'.hold handle (some p'))
  | perform_failed {handle : String} {p : Posting} {why : Refusal}
      (hp : r.handles handle = some p) (h : Performs stale r p none p r) :
      Takes stale r (.perform handle) (.error why) r
  | reverse {handle : String} {p p' : Posting} {r' : Register}
      (hp : r.handles handle = some p) (h : Reverses stale r p true p' r') :
      Takes stale r (.reverse handle) (.ok .done) (r'.hold handle (some p'))
  | reverse_failed {handle : String} {p : Posting} {why : Refusal}
      (hp : r.handles handle = some p) (h : Reverses stale r p false p r) :
      Takes stale r (.reverse handle) (.error why) r
  | journalPerform {handle : String} {journal : Option String} {p p' : Posting} {out : Output}
      {r' : Register} (hp : r.handles handle = some p)
      (h : Performs stale (r.hold handle none) p (some out) p' r') :
      Takes stale r (.journalPerform handle journal) (.ok (replyOf out)) (r'.note journal p')
  | journalPerform_failed {handle : String} {journal : Option String} {p : Posting}
      {why : Refusal} (hp : r.handles handle = some p)
      (h : Performs stale (r.hold handle none) p none p (r.hold handle none)) :
      Takes stale r (.journalPerform handle journal) (.error why) (r.hold handle none)
  | perform_none {handle : String} {why : Refusal} (hp : r.handles handle = none) :
      Takes stale r (.perform handle) (.error why) r
  | reverse_none {handle : String} {why : Refusal} (hp : r.handles handle = none) :
      Takes stale r (.reverse handle) (.error why) r
  | journalPerform_none {handle : String} {journal : Option String} {why : Refusal}
      (hp : r.handles handle = none) :
      Takes stale r (.journalPerform handle journal) (.error why) r
  | commit {journal : String} :
      Takes stale r (.journalCommit journal) (.ok .done) (r.setJournal journal [])
  | drop {journal : String} :
      Takes stale r (.journalDrop journal) (.ok .done) (r.setJournal journal [])
  | rollback {journal : String} {r' : Register}
      (h : ReversesAll stale r (r.journals journal) true r') :
      Takes stale r (.journalRollback journal) (.ok .done) (r'.setJournal journal [])
  | rollback_failed {journal : String} {why : Refusal} {r' : Register}
      (h : ReversesAll stale r (r.journals journal) false r') :
      Takes stale r (.journalRollback journal) (.error why) (r'.setJournal journal [])

end Register

/-- The store answers for every id what the catalogue holds under it. -/
def Store.Shows (s : Store) (m : Catalogue) : Prop :=
  ∀ id, Ledger.find? s id = .ok ((m.lookup id).map (·.listedAs id))

namespace Session

/-- A session that takes the steps behaves like the register, and shows its entries
at every moment. -/
def Follows : Session → Register → List (Amount × Step) → Prop
  | s, r, [] => s.book.store.Shows r.entries
  | s, r, (now, step) :: steps =>
    s.book.store.Shows r.entries ∧
      ∃ r', r.Takes (s.step now step).2.book.Exhausted step (s.step now step).1 r' ∧
        Follows (s.step now step).2 r' steps

end Session
end FriendLedger
