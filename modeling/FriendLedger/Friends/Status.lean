/-! The relationship of two users as one of them sees it. It is never stored: it
follows from the two directed edges between them. -/

namespace FriendLedger

set_option autoImplicit false

/-- An edge says that its sender asked its target to be friends. -/
structure Edge where
  sender : String
  target : String
deriving DecidableEq, Repr

def Edge.reverse (e : Edge) : Edge := ⟨e.target, e.sender⟩

def Edge.text (e : Edge) : String := e.sender ++ " -> " ++ e.target

inductive Status
  | none
  | requestedByMe
  | requestedOfMe
  | mutual
  /-- The other user is the one who asks. -/
  | self
deriving DecidableEq, Repr

namespace Status

def ofEdges (outgoing incoming : Bool) : Status :=
  match outgoing, incoming with
  | true, true => .mutual
  | true, false => .requestedByMe
  | false, true => .requestedOfMe
  | false, false => .none

def text : Status → String
  | .none => "none"
  | .requestedByMe => "requested_by_me"
  | .requestedOfMe => "requested_of_me"
  | .mutual => "mutual"
  | .self => "self"

def all : List Status := [.none, .requestedByMe, .requestedOfMe, .mutual, .self]

def ofText? (s : String) : Option Status := all.find? (·.text == s)

theorem mem_all (s : Status) : s ∈ all := by cases s <;> decide

theorem ofText?_text (s : Status) : ofText? s.text = some s := by cases s <;> decide

end Status
end FriendLedger
