/-! What the store can object to. -/

namespace FriendLedger

set_option autoImplicit false

inductive Table
  | friendRequests
  | deals
  | spendings
deriving DecidableEq, Repr

def Table.name : Table → String
  | .friendRequests => "friend_requests"
  | .deals => "deals"
  | .spendings => "spendings"

inductive StoreFault
  | missingTable (name : String)
  | duplicateKey (table : Table)
  | unknownDeal (id : String)
  | dealsInUse
  | sumOutOfRange
  | readOnly
  | notConnected
  | reported (text : String)
deriving DecidableEq, Repr

def StoreFault.message : StoreFault → String
  | .missingTable name => "no such table: " ++ name
  | .duplicateKey table => "key already present in " ++ table.name
  | .unknownDeal id => "no deal with the id " ++ id
  | .dealsInUse => "spendings refer to the deals"
  | .sumOutOfRange => "integer overflow"
  | .readOnly => "attempt to write to a read-only store"
  | .notConnected => "not connected to a store"
  | .reported text => "Custom Error: " ++ text

end FriendLedger
