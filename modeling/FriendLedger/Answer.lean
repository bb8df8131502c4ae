import FriendLedger.Documents

/-! What a command answers, and the document of the answer. -/

namespace FriendLedger

set_option autoImplicit false

inductive Answer
  /-- The statuses that a change of a relationship has led to. -/
  | relation (subject : String) (changed : List (String × Status))
  | views (friends subscribers subscriptions : List String)
  | statuses (listed : List (String × Status))
  | added (id : Id)
  | removed (e : Expense)
  | expense (e : Expense)
  | expenses (es : List Expense)
  | balances (bs : List Balance)
deriving DecidableEq

namespace Answer

def statusesToJson (statuses : List (String × Status)) : Json :=
  .ofFields (statuses.map fun p => (p.1, p.2.toJson))

def usersToJson (users : List String) : Json := .array (users.map .ofText)

def toJson : Answer → Json
  | .relation subject changed =>
    .ofFields [("status", statusesToJson changed), ("subject", .ofText subject)]
  | .views friends subscribers subscriptions =>
    .ofFields [("friends", usersToJson friends), ("subscribers", usersToJson subscribers),
      ("subscriptions", usersToJson subscriptions)]
  | .statuses listed => statusesToJson listed
  | .added id => .ofFields [("id", id.toJson)]
  | .removed e => .ofFields [("removed", e.toJson)]
  | .expense e => e.toJson
  | .expenses es => .array (es.map Expense.toJson)
  | .balances bs => .array (bs.map Balance.toJson)

end Answer
end FriendLedger
