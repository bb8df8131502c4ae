import FriendLedger.Operation
import FriendLedger.Text.Quoted

/-! The journal of a business operation: the operations that were performed for
it, so that all of them can be undone when a later one fails. -/

namespace FriendLedger

set_option autoImplicit false

structure Journal where
  /-- The newest operation comes first. -/
  performed : List Operation
deriving DecidableEq

namespace Journal

def empty : Journal := ⟨[]⟩

def record (j : Journal) (op : Operation) : Journal := ⟨op :: j.performed⟩

def length (j : Journal) : Nat := j.performed.length

def isEmpty (j : Journal) : Bool := j.performed.isEmpty

/-- Performs an operation of the kind `wrap` and records it if it succeeds. -/
def perform {Op Out : Type} [Reversible Op Out] (j : Journal) (wrap : Op → Operation) (op : Op)
    (b : Book) : Except Failure Out × Journal × Book :=
  match Reversible.perform op b with
  | (.ok out, op', b') => (.ok out, j.record (wrap op'), b')
  | (.error f, _, b') => (.error f, j, b')

/-- Reverses operations one after another until one fails. -/
def reverseAll : List Operation → Book → Except Failure Unit × Book
  | [], b => (.ok (), b)
  | op :: ops, b =>
    match op.reverse b with
    | (.ok (), _, b') => reverseAll ops b'
    | (.error f, _, b') => (.error f.inRollback, b')

/-- Undoes what is recorded, newest first. At the first failure the operations
recorded before it stay in place. -/
def rollback (j : Journal) (b : Book) : Except Failure Unit × Book := reverseAll j.performed b

/-- The descriptions of the recorded operations, oldest first, quoted. -/
def debugText (j : Journal) : String :=
  "Journal \x7b performed: [" ++
    ", ".intercalate (j.performed.reverse.map fun op => Text.quoted op.describe) ++ "] \x7d"

end Journal
end FriendLedger
