import FriendLedger.Amount

/-! Settings as a tree, and the keys that name places in it. A key such as
`a.b[0]` is a path: names lead into tables, numbers into lists, and whatever is
missing on the way is made. -/

namespace FriendLedger.Settings

set_option autoImplicit false

def entryAt? {α : Type} (entries : List (String × α)) (key : String) : Option α :=
  (entries.find? (·.1 == key)).map (·.2)

/-- Replaces the entry of a key, or adds one. -/
def putEntry {α : Type} (entries : List (String × α)) (key : String) (a : α) : List (String × α) :=
  if entries.any (·.1 == key) then entries.map fun e => if e.1 == key then (key, a) else e
  else entries ++ [(key, a)]

@[simp] theorem entryAt?_putEntry {α : Type} (entries : List (String × α)) (key : String) (a : α) :
    entryAt? (putEntry entries key a) key = some a := by
  simp only [entryAt?, putEntry]
  split
  · rename_i h
    induction entries with
    | nil => simp at h
    | cons e rest ih =>
      by_cases he : e.1 = key
      · simp [he]
      · have hr : rest.any (·.1 == key) = true := by simpa [he] using h
        simpa [he] using ih hr
  · rename_i h
    have hn : entries.find? (·.1 == key) = none := by
      rw [List.find?_eq_none]
      intro e he hk
      exact h (List.any_eq_true.mpr ⟨e, he, hk⟩)
    simp [List.find?_append, hn]

inductive Tree
  /-- A place in a list that has no value yet. -/
  | nothing
  | text (s : String)
  | list (items : List Tree)
  | table (entries : List (String × Tree))
deriving Repr

inductive Step
  | name (key : String)
  /-- A number below zero counts from the end. -/
  | index (i : Int)
deriving DecidableEq, Repr

namespace Tree

def empty : Tree := .table []

def entries : Tree → List (String × Tree)
  | .table entries => entries
  | _ => []

def items : Tree → List Tree
  | .list items => items
  | _ => []

def get? (t : Tree) (key : String) : Option Tree := entryAt? t.entries key

/-- The position of an index, in a list that has been lengthened as far as the
index asks for: at its end, or at its start for one that counts from the end. -/
def makeRoom (items : List Tree) (i : Int) : List Tree × Nat :=
  let n := items.length
  if 0 ≤ i then (items ++ List.replicate (i.toNat + 1 - n) .nothing, i.toNat)
  else if -(n : Int) ≤ i then (items, (n + i).toNat)
  else (List.replicate (n + i).natAbs .nothing ++ items, 0)

/-- Changes what is at a path. What is in the way gives way to a table or a list. -/
def update (f : Tree → Tree) : List Step → Tree → Tree
  | [], t => f t
  | .name key :: path, t =>
    .table (putEntry t.entries key (update f path ((t.get? key).getD .nothing)))
  | .index i :: path, t =>
    let room := makeRoom t.items i
    .list (room.1.set room.2 (update f path (room.1.getD room.2 .nothing)))

mutual
/-- Puts a tree over another one. Tables are merged; anything else replaces. -/
def merge : Tree → Tree → Tree
  | .table new, t => .table (mergeEntries new t.entries)
  | new, _ => new

def mergeEntries : List (String × Tree) → List (String × Tree) → List (String × Tree)
  | [], old => old
  | (key, new) :: rest, old =>
    mergeEntries rest (putEntry old key (merge new ((entryAt? old key).getD .nothing)))
end

end Tree

namespace Step

def isNameChar (c : Char) : Bool := c.isAlphanum || c = '_' || c = '-'

def isSpace (c : Char) : Bool := c = ' ' || c = '\t'

/-- The digits of an index, with a minus sign in front if it counts from the end. -/
def splitIndex (cs : List Char) : List Char × List Char :=
  match cs with
  | '-' :: r => ('-' :: r.takeWhile Char.isDigit, r.dropWhile Char.isDigit)
  | r => (r.takeWhile Char.isDigit, r.dropWhile Char.isDigit)

/-- What follows the first name of a path. The fuel bounds the steps. -/
def readRest : Nat → List Char → Option (List Step)
  | _, [] => some []
  | fuel + 1, '.' :: cs =>
    match cs.takeWhile isNameChar with
    | [] => none
    | key => (readRest fuel (cs.dropWhile isNameChar)).map (.name (String.ofList key) :: ·)
  | fuel + 1, '[' :: cs => do
    let (digits, r) := splitIndex (cs.dropWhile isSpace)
    let i ← Amount.ofChars? digits
    match r.dropWhile isSpace with
    | ']' :: r => (readRest fuel r).map (.index i.toInt :: ·)
    | _ => none
  | _, _ => none

def readPath? (cs : List Char) : Option (List Step) :=
  match cs.takeWhile isNameChar with
  | [] => none
  | key => (readRest cs.length (cs.dropWhile isNameChar)).map (.name (String.ofList key) :: ·)

/-- The path of a key. A key that is no path names one entry as it stands. -/
def ofKey (key : String) : List Step := (readPath? key.toList).getD [.name key]

end Step

def Tree.assign (t : Tree) (key : String) (value : Tree) : Tree :=
  t.update value.merge (Step.ofKey key)

end FriendLedger.Settings
