import FriendLedger.Store

/-! The life cycle of the schema. Setting up creates the tables that are missing,
tearing down drops all three, and each does nothing when the record says that it
is done. Tearing down goes table by table: when one is missing, those before it
are gone and the record stays. -/

namespace FriendLedger.Store

set_option autoImplicit false

/-- Deals stay as long as there are spendings, which refer to them. -/
def drop (s : Store) (table : Table) : Except StoreFault Store :=
  match table with
  | .friendRequests => do
    let _ ← s.edgeRows
    return { s with edges := none }
  | .deals => do
    let _ ← s.dealRows
    if (s.spendings.getD []).isEmpty then return { s with deals := none }
    throw .dealsInUse
  | .spendings => do
    let _ ← s.spendingRows
    return { s with spendings := none }

inductive Direction
  | up
  | down
deriving DecidableEq, Repr

def setUp (s : Store) : Store :=
  if s.recorded then s
  else
    { edges := some (s.edges.getD [])
      deals := some (s.deals.getD [])
      spendings := some (s.spendings.getD [])
      recorded := true }

/-- Drops tables one after another until one fails. -/
def dropAll (s : Store) : List Table → Except StoreFault Unit × Store
  | [] => (.ok (), s)
  | t :: ts =>
    match s.drop t with
    | .ok s' => s'.dropAll ts
    | .error f => (.error f, s)

def tearDown (s : Store) : Except StoreFault Unit × Store :=
  if s.recorded then
    match s.dropAll [.spendings, .deals, .friendRequests] with
    | (.ok (), s') => (.ok (), { s' with recorded := false })
    | (.error f, s') => (.error f, s')
  else (.ok (), s)

def migrate (s : Store) : Direction → Except StoreFault Unit × Store
  | .up => (.ok (), s.setUp)
  | .down => s.tearDown

theorem setUp_blank : blank.setUp = fresh := rfl

end FriendLedger.Store
