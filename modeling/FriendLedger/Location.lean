import FriendLedger.Location.Address
import FriendLedger.Location.FileUri

/-! Where a database is: in memory, or in a file that is opened in some mode. An
address such as `sqlite:name?mode=rwc` names the place and the mode. -/

namespace FriendLedger

set_option autoImplicit false

inductive Location
  /-- A database that nobody else sees and that is gone afterwards. -/
  | temporary (writable : Bool)
  | file (path : String) (mode : OpenMode) (immutable : Bool)
deriving DecidableEq, Repr

namespace Location

/-- The text without the leading occurrences of a word. -/
def stripAll (word : List Char) (cs : List Char) : List Char :=
  if _ : word ≠ [] ∧ word.isPrefixOf cs then stripAll word (cs.drop word.length) else cs
termination_by cs.length
decreasing_by
  rename_i h
  have hp : word <+: cs := by simpa using h.2
  have hl := hp.length_le
  have hw := List.length_pos_iff.mpr h.1
  simp only [List.length_drop]
  omega

def afterScheme (cs : List Char) : List Char :=
  stripAll "sqlite:".toList (stripAll "sqlite://".toList cs)

/-- The text behind percent codes in which a plus sign stands for a space. -/
def formText? (cs : List Char) : Option String :=
  Text.decodePercentText? (String.ofList (cs.map fun c => if c = '+' then ' ' else c))

structure Parameters where
  readOnly : Bool
  create : Bool
  inMemory : Bool
  sharedCache : Bool
  immutable : Bool
  layer : Option String
deriving DecidableEq, Repr

namespace Parameters

def none : Parameters := ⟨false, false, false, false, false, .none⟩

/-- Adds a parameter; one that is not known is refused. -/
def add? (q : Parameters) (name value : String) : Option Parameters :=
  match name with
  | "mode" =>
    match value with
    | "ro" => some { q with readOnly := true }
    | "rw" => some q
    | "rwc" => some { q with create := true }
    | "memory" => some { q with inMemory := true, sharedCache := true }
    | _ => .none
  | "cache" =>
    match value with
    | "shared" => some { q with sharedCache := true }
    | "private" => some { q with sharedCache := false }
    | _ => .none
  | "immutable" =>
    match value with
    | "true" | "1" => some { q with immutable := true }
    | "false" | "0" => some { q with immutable := false }
    | _ => .none
  | "vfs" => some { q with layer := some value }
  | _ => .none

def read? (query : List Char) : Option Parameters :=
  (parametersOf query).foldlM (fun q p => do add? q (← formText? p.1) (← formText? p.2)) none

def opening (q : Parameters) (path : String) : Opening where
  path := path
  mode := if q.readOnly then .readOnly else if q.create then .create else .readWrite
  inMemory := q.inMemory
  sharedCache := q.sharedCache
  immutable := q.immutable
  layer := q.layer

end Parameters

/-- A zero byte ends a path, which is allowed for only when the path goes together
with parameters. Without any, a path may be in the form `file:`. -/
def finish? (o : Opening) : Option Opening :=
  if o.immutable || o.layer.isSome then
    some { o with path := String.ofList (o.path.toList.takeWhile (· ≠ '\x00')) }
  else if o.path.toList.contains '\x00' then none
  else if "file:".toList.isPrefixOf o.path.toList then FileUri.resolve? o (o.path.toList.drop 5)
  else some o

/-- The layers there are. All but the last keep a database in its file. -/
def layers : List String := ["unix", "unix-excl", "unix-dotfile", "unix-none", "memdb"]

/-- Where an opening leads. A database without a path, or with the path `:memory:`,
is a temporary one. -/
def ofOpening? (o : Opening) : Option Location :=
  if !o.layer.all layers.contains then none
  else if o.inMemory || o.path = "" || o.path = ":memory:" then
    some (.temporary (o.mode ≠ .readOnly))
  else if o.layer = some "memdb" then some (.temporary (o.mode ≠ .readOnly && !o.immutable))
  else some (.file o.path o.mode o.immutable)

def ofUrl? (url : String) : Option Location :=
  if Address.isSqlite url.toList then do
    let (name, query) := splitQuery (afterScheme url.toList)
    let q ← Parameters.read? query
    if name = ":memory:".toList then
      ofOpening? { q.opening "" with inMemory := true, sharedCache := true }
    else
      ofOpening? (← finish? (q.opening (← Text.decodePercentText? (String.ofList name))))
  else none

end Location
end FriendLedger
