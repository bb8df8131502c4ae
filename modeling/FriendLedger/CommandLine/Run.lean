import FriendLedger.Answer
import FriendLedger.CommandLine.Command
import FriendLedger.Ledger.Account

/-! Running commands. A command that changes something has a journal of its own,
which is committed: what the journal holds is dropped and nothing is undone. -/

namespace FriendLedger

set_option autoImplicit false

/-- The three lists of users around a user. -/
def Friends.views (s : Store) (user : String) : Except Failure Answer := do
  return .views (← friendsOf s user) (← subscribersOf s user) (← subscriptionsOf s user)

namespace Command

/-- Whether the command is there to change something. -/
def isMutation : Command → Bool
  | .request _ | .add _ _ | .remove _ _ => true
  | _ => false

/-- A change of a relationship, then the status that it has led to. -/
def runRequest (r : Request) (b : Book) : Except Failure Answer × Book :=
  match r.run .empty b with
  | (.error f, _, b') => (.error f, b')
  | (.ok (), _, b') =>
    ((Friends.statusesOf b'.store r.subject [r.other]).map (.relation r.subject), b')

def run (c : Command) (now : Amount) (b : Book) : Except Stop Answer × Book :=
  match c with
  | .request r => let (answer, b') := runRequest r b; (orStop answer, b')
  | .list user => (orStop (Friends.views b.store user), b)
  | .status subject candidates =>
    (orStop ((Friends.statusesOf b.store subject candidates).map .statuses), b)
  | .add actor draft =>
    let (answer, _, b') := Ledger.add actor (draft.expense now) .empty b
    (answer.map .added, b')
  | .remove actor id =>
    let (answer, _, b') := Ledger.remove actor id .empty b
    (orStop (answer.map .removed), b')
  | .expense actor id => (orStop ((Ledger.get b.store actor id).map .expense), b)
  | .between actor other => (orStop ((Ledger.between b.store actor other).map .expenses), b)
  | .balance actor => ((Ledger.balances b.store actor).map .balances, b)

end Command
end FriendLedger
