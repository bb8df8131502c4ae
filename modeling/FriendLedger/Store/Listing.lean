import FriendLedger.Store

/-! The rows of each table in the order of their keys. -/

namespace FriendLedger.Store

set_option autoImplicit false

def edgeBefore (a b : Edge) : Bool :=
  decide (a.sender < b.sender) || (a.sender == b.sender && decide (a.target ≤ b.target))

def listedEdges (s : Store) : Option (List Edge) := s.edges.map (·.mergeSort edgeBefore)

def listedDeals (s : Store) : Option (List DealRow) :=
  s.deals.map (·.mergeSort fun a b => decide (a.id ≤ b.id))

def listedSpendings (s : Store) : Option (List SpendingRow) :=
  s.spendings.map (·.mergeSort fun a b => decide (a.id ≤ b.id))

end FriendLedger.Store
