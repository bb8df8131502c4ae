import FriendLedger.Failure
import FriendLedger.Id
import FriendLedger.Store

/-! The book: what operations read and write. Beside the store it holds the
number of the next id and the trace of scripted steps. -/

namespace FriendLedger

set_option autoImplicit false

structure Book where
  store : Store
  nextId : Nat
  trace : List Int
deriving DecidableEq

namespace Book

/-- An empty store with its schema, ids from 1, no trace. -/
def fresh : Book := ⟨.fresh, 1, []⟩

/-- The book on a store that is set up. There is none without a store. -/
def onStore : Option Store → Except Failure Book
  | some s => .ok ⟨s, 1, []⟩
  | none => .error (.database .notConnected)

/-- The next `count` ids, in order. -/
def upcomingIds (b : Book) (count : Nat) : List Id :=
  (List.range count).map fun k => Id.minted (b.nextId + k)

/-- Ids that were handed out are used up, whatever becomes of them. -/
def useIds (b : Book) (count : Nat) : Book := { b with nextId := b.nextId + count }

end Book

def orDatabase {α : Type} : Except StoreFault α → Except Failure α
  | .ok a => .ok a
  | .error f => .error (.database f)

end FriendLedger
