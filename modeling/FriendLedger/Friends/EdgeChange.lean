import FriendLedger.Reversible

/-! Adding and removing an edge. A removal keeps whether there was an edge to
remove, so its reversal brings back no edge that was not there. -/

namespace FriendLedger

set_option autoImplicit false

structure AddEdge where
  edge : Edge
  performed : Bool
deriving DecidableEq

namespace AddEdge

def new (sender target : String) : AddEdge := ⟨⟨sender, target⟩, false⟩

def describe (op : AddEdge) : String := "add edge " ++ op.edge.text

def perform (op : AddEdge) (b : Book) : Except Failure Unit × AddEdge × Book :=
  if op.performed then (.error (alreadyPerformed op.describe), op, b)
  else
    match b.store.insertEdge op.edge with
    | .ok s => (.ok (), { op with performed := true }, { b with store := s })
    | .error (.duplicateKey _) => (.error (.alreadySent op.edge.text), op, b)
    | .error f => (.error (.database f), op, b)

def reverse (op : AddEdge) (b : Book) : Except Failure Unit × AddEdge × Book :=
  if op.performed then
    match b.store.deleteEdge op.edge with
    | .ok (_, s) => (.ok (), { op with performed := false }, { b with store := s })
    | .error f => (.error (.inRollback (.database f)), op, b)
  else (.error (notPerformed op.describe), op, b)

instance : Reversible AddEdge Unit := ⟨perform, reverse, describe⟩

end AddEdge

structure RemoveEdge where
  edge : Edge
  /-- Once performed, whether there was an edge. -/
  removed : Option Bool
deriving DecidableEq

namespace RemoveEdge

def new (sender target : String) : RemoveEdge := ⟨⟨sender, target⟩, none⟩

def describe (op : RemoveEdge) : String := "remove edge " ++ op.edge.text

def perform (op : RemoveEdge) (b : Book) : Except Failure Unit × RemoveEdge × Book :=
  match op.removed with
  | some _ => (.error (alreadyPerformed op.describe), op, b)
  | none =>
    match b.store.deleteEdge op.edge with
    | .ok (hit, s) => (.ok (), { op with removed := some hit }, { b with store := s })
    | .error f => (.error (.database f), op, b)

/-- An edge that somebody else has put back is left alone. -/
def reverse (op : RemoveEdge) (b : Book) : Except Failure Unit × RemoveEdge × Book :=
  match op.removed with
  | none => (.error (notPerformed op.describe), op, b)
  | some false => (.ok (), { op with removed := none }, b)
  | some true =>
    match b.store.insertEdge op.edge with
    | .ok s => (.ok (), { op with removed := none }, { b with store := s })
    | .error (.duplicateKey _) => (.ok (), { op with removed := none }, b)
    | .error f => (.error (.inRollback (.database f)), op, b)

instance : Reversible RemoveEdge Unit := ⟨perform, reverse, describe⟩

end RemoveEdge
end FriendLedger
