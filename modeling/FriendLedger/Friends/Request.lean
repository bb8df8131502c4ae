import FriendLedger.Friends.View
import FriendLedger.Journal

/-! The legal changes of a relationship. A request first reads the edges between
its two users, which decides the single write that it comes down to; then the
write goes through the journal of the caller. -/

namespace FriendLedger

set_option autoImplicit false

inductive Request
  /-- The sender asks the target to be friends. -/
  | send (sender target : String)
  /-- The accepter agrees to the pending request of the requester. -/
  | accept (requester accepter : String)
  /-- The sender withdraws the pending request, or the target turns it down. -/
  | reject (sender target : String)
  /-- The user leaves the friend with a pending request. -/
  | unfriend (user friend : String)
deriving DecidableEq, Repr

namespace Request

open Friends

def resolve (s : Store) : Request → Except Failure Operation
  | .send sender target =>
    if sender = target then
      throw (.invalidRequest "cannot send a friend request to yourself")
    else do
      let (outgoing, incoming) ← edgePair s sender target
      if outgoing then throw (.alreadySent (sender ++ " -> " ++ target))
      if incoming then throw (.hasIncomingRequest (target ++ " -> " ++ sender))
      return .addEdge (.new sender target)
  | .accept requester accepter => do
    if ← hasPendingRequest s requester accepter then
      return .addEdge (.new accepter requester)
    else throw (.noSuchRequest (requester ++ " -> " ++ accepter))
  | .reject sender target => do
    if ← hasPendingRequest s sender target then
      return .removeEdge (.new sender target)
    else throw (.noSuchRequest (sender ++ " -> " ++ target))
  | .unfriend user friend => do
    let (outgoing, incoming) ← edgePair s user friend
    if outgoing && incoming then
      return .removeEdge (.new user friend)
    else throw (.notAFriend (user ++ " and " ++ friend))

def run (r : Request) (j : Journal) (b : Book) : Except Failure Unit × Journal × Book :=
  match r.resolve b.store with
  | .error f => (.error f, j, b)
  | .ok op =>
    match j.perform id op b with
    | (.ok _, j', b') => (.ok (), j', b')
    | (.error f, j', b') => (.error f, j', b')

/-- The user who acts. -/
def subject : Request → String
  | .send sender _ => sender
  | .accept _ accepter => accepter
  | .reject sender _ => sender
  | .unfriend user _ => user

/-- The user at the other end. -/
def other : Request → String
  | .send _ target => target
  | .accept requester _ => requester
  | .reject _ target => target
  | .unfriend _ friend => friend

end Request
end FriendLedger
