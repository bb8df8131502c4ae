import FriendLedger.Settings.Scan

/-! Settings files: tables and texts under keys, line by line. A key is given once,
and a header opens a table once; a table that a key with points in it has made is
not opened by a header, nor is an opened one entered by such a key. A header in two
brackets adds a table to a list. -/

namespace FriendLedger.Settings.Document

set_option autoImplicit false

/-- How a table has come about: as a part of a header's path, as a part of a key
with points, or by a header of its own. -/
inductive Origin
  | implied
  | pointed
  | opened
deriving DecidableEq, Repr

inductive Node
  | text (s : String)
  | table (origin : Origin) (entries : List (String × Node))
  /-- A list of tables, of which later lines reach the last. -/
  | tables (earlier : List (List (String × Node))) (last : List (String × Node))
deriving Repr

abbrev Entries := List (String × Node)

namespace Entries

/-- Changes what is at the path of a header. Missing tables on the way are made. -/
def place? (change : Option Node → Option Node) (es : Entries) : List String → Option Entries
  | [] => none
  | [key] => (change (entryAt? es key)).map (putEntry es key)
  | key :: path =>
    match entryAt? es key with
    | none => (place? change [] path).map fun inner => putEntry es key (.table .implied inner)
    | some (.table origin inner) =>
      (place? change inner path).map fun inner => putEntry es key (.table origin inner)
    | some (.tables earlier last) =>
      (place? change last path).map fun last => putEntry es key (.tables earlier last)
    | some (.text _) => none

/-- A header opens a table that is new, or one that other headers have implied. -/
def opened? : Option Node → Option Node
  | none => some (.table .opened [])
  | some (.table .implied inner) => some (.table .opened inner)
  | some _ => none

/-- A header in two brackets starts a list of tables or lengthens it. -/
def lengthened? : Option Node → Option Node
  | none => some (.tables [] [])
  | some (.tables earlier last) => some (.tables (earlier ++ [last]) [])
  | some _ => none

def addText? (es : Entries) (value : String) : List String → Option Entries
  | [] => none
  | [key] => if (entryAt? es key).isSome then none else some (putEntry es key (.text value))
  | key :: path =>
    match entryAt? es key with
    | none => (addText? [] value path).map fun inner => putEntry es key (.table .pointed inner)
    | some (.table .opened _) => none
    | some (.table origin inner) =>
      (addText? inner value path).map fun inner => putEntry es key (.table origin inner)
    | some (.tables earlier last) =>
      (addText? last value path).map fun last => putEntry es key (.tables earlier last)
    | some (.text _) => none

def within? (es : Entries) (change : Entries → Option Entries) : List String → Option Entries
  | [] => change es
  | key :: path =>
    match entryAt? es key with
    | some (.table origin inner) =>
      (within? inner change path).map fun inner => putEntry es key (.table origin inner)
    | some (.tables earlier last) =>
      (within? last change path).map fun last => putEntry es key (.tables earlier last)
    | _ => none

end Entries

mutual
def Node.toTree : Node → Tree
  | .text s => .text s
  | .table _ entries => .table (treesOf entries)
  | .tables earlier last => .list (listOf earlier ++ [.table (treesOf last)])

def treesOf : List (String × Node) → List (String × Tree)
  | [] => []
  | (key, n) :: es => (key, n.toTree) :: treesOf es

def listOf : List (List (String × Node)) → List Tree
  | [] => []
  | es :: rest => .table (treesOf es) :: listOf rest
end

/-- What has been read: the entries, and the path of the table that keys go to. -/
structure State where
  entries : Entries
  current : List String

/-- What follows the brackets that close a header, and the rest of its line. -/
def afterHeader? (closing cs : List Char) : Option (List Char) :=
  if closing.isPrefixOf cs then afterLine? (cs.drop closing.length) else none

def header (st : State) (cs : List Char) : Option (State × List Char) := do
  let (path, r) ← scanKey (cs.length + 1) cs
  let r ← afterHeader? [']'] r
  return (⟨← st.entries.place? Entries.opened? path, path⟩, r)

def listHeader (st : State) (cs : List Char) : Option (State × List Char) := do
  let (path, r) ← scanKey (cs.length + 1) cs
  let r ← afterHeader? [']', ']'] r
  return (⟨← st.entries.place? Entries.lengthened? path, path⟩, r)

def entry (st : State) (cs : List Char) : Option (State × List Char) := do
  let (key, r) ← scanKey (cs.length + 1) cs
  match r with
  | '=' :: r =>
    let (value, r) ← scanText (skipSpaces r)
    let r ← afterLine? r
    let add := fun es : Entries => es.addText? (String.ofList value) key
    return ({ st with entries := ← st.entries.within? add st.current }, r)
  | _ => none

def statement (st : State) (cs : List Char) : Option (State × List Char) :=
  match afterLine? cs with
  | some r => some (st, r)
  | none =>
    match skipSpaces cs with
    | '[' :: '[' :: r => listHeader st r
    | '[' :: r => header st r
    | cs => entry st cs

/-- Reads to the end of the file. The fuel bounds the statements. -/
def statements : Nat → State → List Char → Option State
  | _, st, [] => some st
  | 0, _, _ :: _ => none
  | fuel + 1, st, c :: cs => do
    let (st, r) ← statement st (c :: cs)
    statements fuel st r

/-- The text without the mark of the byte order that it may start with. -/
def withoutMark : List Char → List Char
  | [] => []
  | c :: cs => if c.toNat = 0xFEFF then cs else c :: cs

def read? (cs : List Char) : Option (List (String × Tree)) :=
  let cs := withoutMark cs
  (statements cs.length ⟨[], []⟩ cs).map fun st => treesOf st.entries

end FriendLedger.Settings.Document
