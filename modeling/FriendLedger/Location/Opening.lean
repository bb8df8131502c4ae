import FriendLedger.Text.PercentCode

/-! What is asked for when a database is opened: a path and a mode, where it is to
be kept, and which layer of the system is to be gone through. -/

namespace FriendLedger

set_option autoImplicit false

inductive OpenMode
  /-- Nothing but memory was asked for. -/
  | unset
  | readOnly
  | readWrite
  /-- The file is made when there is none. -/
  | create
deriving DecidableEq, Repr

/-- Each mode grants what those below it grant. -/
def OpenMode.rank : OpenMode → Nat
  | .unset => 0
  | .readOnly => 1
  | .readWrite => 2
  | .create => 3

structure Opening where
  path : String
  mode : OpenMode
  inMemory : Bool
  sharedCache : Bool
  /-- The file is taken to change by nobody's hand, hence not by this one's. -/
  immutable : Bool
  /-- The layer between the database and the system, unless it is the usual one. -/
  layer : Option String
deriving DecidableEq, Repr

/-- The names and values between ampersands, each split at its first equals sign. -/
def parametersOf (query : List Char) : List (List Char × List Char) :=
  ((query.splitOn '&').filter fun cs => !cs.isEmpty).map fun cs =>
    (cs.takeWhile (· ≠ '='), (cs.dropWhile (· ≠ '=')).tail)

/-- The text before the first question mark and the text after it. -/
def splitQuery (cs : List Char) : List Char × List Char :=
  (cs.takeWhile (· ≠ '?'), (cs.dropWhile (· ≠ '?')).tail)

end FriendLedger
