import FriendLedger.Book
import FriendLedger.Roster

/-! What the edges tell about users: who is a friend of whom, who waits for whom,
and the status of others as one user sees it. Lists of users are rosters. -/

namespace FriendLedger.Friends

set_option autoImplicit false

def edgeExists (s : Store) (e : Edge) : Except Failure Bool := do
  return decide (e ∈ (← orDatabase s.edgeRows))

/-- Whether there are edges from `a` to `b` and from `b` to `a`. -/
def edgePair (s : Store) (a b : String) : Except Failure (Bool × Bool) := do
  let rows ← orDatabase s.edgeRows
  return (decide (⟨a, b⟩ ∈ rows), decide (⟨b, a⟩ ∈ rows))

/-- Whether `sender` asked `target`, who has not asked back. -/
def hasPendingRequest (s : Store) (sender target : String) : Except Failure Bool := do
  let (forward, backward) ← edgePair s sender target
  return forward && !backward

/-- The users with edges in both directions. -/
def friendsOf (s : Store) (user : String) : Except Failure (List String) := do
  let rows ← orDatabase s.edgeRows
  return Roster.ofList ((rows.filter fun o => o.sender = user && o.reverse ∈ rows).map (·.target))

/-- The users who wait for an answer of `user`. -/
def subscribersOf (s : Store) (user : String) : Except Failure (List String) := do
  let rows ← orDatabase s.edgeRows
  return Roster.ofList ((rows.filter fun i => i.target = user && i.reverse ∉ rows).map (·.sender))

/-- The users whose answer `user` waits for. -/
def subscriptionsOf (s : Store) (user : String) : Except Failure (List String) := do
  let rows ← orDatabase s.edgeRows
  return Roster.ofList ((rows.filter fun o => o.sender = user && o.reverse ∉ rows).map (·.target))

/-- The edges between the subject and the others, in either direction. -/
def edgesAmong (rows : List Edge) (subject : String) (others : List String) : List Edge :=
  rows.filter fun e =>
    e.sender = subject && e.target ∈ others || e.target = subject && e.sender ∈ others

/-- The status of a candidate, told from edges that all touch the subject: those
which the subject has not sent have come in. -/
def statusAmong (edges : List Edge) (subject candidate : String) : Status :=
  if candidate = subject then .self
  else
    let outgoing := (edges.filter (·.sender = subject)).map (·.target)
    let incoming := (edges.filter (·.sender ≠ subject)).map (·.sender)
    Status.ofEdges (decide (candidate ∈ outgoing)) (decide (candidate ∈ incoming))

/-- The status of every candidate, each listed once. The edges are read at once
for all candidates, and only if one is somebody else. A store can limit how many
values one statement binds, and so the number of candidates; that limit is left out. -/
def statusesOf (s : Store) (subject : String) (candidates : List String) :
    Except Failure (List (String × Status)) := do
  let users := Roster.ofList candidates
  let others := users.filter (· ≠ subject)
  let rows ← if others.isEmpty then pure [] else orDatabase s.edgeRows
  let edges := edgesAmong rows subject others
  return users.map fun user => (user, statusAmong edges subject user)

end FriendLedger.Friends
