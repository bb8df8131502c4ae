import FriendLedger.Location.Opening

/-! Paths that are written as `file:` names. Such a name holds a path and, after a
question mark, parameters, all in percent codes; two slashes lead in a host, which
is this one, and a hash sign ends the name. Its parameters can lower what an
opening asks for but not raise it. -/

namespace FriendLedger.FileUri

set_option autoImplicit false

/-- The text of one part. A code for the zero byte ends the part. -/
def part? (cs : List Char) : Option String :=
  Text.ofBytes? ((Text.decodePercent (Text.bytesOf (String.ofList cs))).takeWhile (· ≠ 0))

/-- What follows the host, if there is one. -/
def afterHost? : List Char → Option (List Char)
  | '/' :: '/' :: cs =>
    let host := cs.takeWhile (· ≠ '/')
    if host = [] ∨ host = "localhost".toList then some (cs.dropWhile (· ≠ '/')) else none
  | cs => some cs

/-- Whether a mode is within what is asked for so far. -/
def allows (o : Opening) (m : OpenMode) : Bool := o.inMemory || m.rank ≤ o.mode.rank

def lower? (o : Opening) (m : OpenMode) : Option Opening :=
  if allows o m then some { o with mode := m, inMemory := false } else none

/-- Heeds a parameter. Those that are not known say nothing. -/
def heed? (o : Opening) (name value : String) : Option Opening :=
  match name with
  | "vfs" => some { o with layer := some value }
  | "mode" =>
    match value with
    | "ro" => lower? o .readOnly
    | "rw" => lower? o .readWrite
    | "rwc" => lower? o .create
    | "memory" => some { o with mode := .unset, inMemory := true }
    | _ => none
  | "cache" =>
    match value with
    | "shared" => some { o with sharedCache := true }
    | "private" => if o.sharedCache then none else some o
    | _ => none
  | _ => some o

/-- A number other than zero in eight bits, or a word of assent. -/
def isTrue (value : String) : Bool :=
  match value.toList.takeWhile Char.isDigit with
  | [] => ["on", "yes", "true"].contains (String.ofList (value.toList.map Char.toLower))
  | digits => Nat.ofDigitChars 10 digits 0 % 256 ≠ 0

def parameters? (query : List Char) : Option (List (String × String)) := do
  let all ← (parametersOf query).mapM fun p => do return (← part? p.1, ← part? p.2)
  return all.filter (·.1 ≠ "")

/-- The opening that a path in the form `file:` asks for. -/
def resolve? (o : Opening) (cs : List Char) : Option Opening := do
  let (path, query) := splitQuery ((← afterHost? cs).takeWhile (· ≠ '#'))
  let parameters ← parameters? query
  let o ← parameters.foldlM (fun o p => heed? o p.1 p.2) { o with path := ← part? path }
  return { o with immutable := o.immutable || (parameters.lookup "immutable").any isTrue }

end FriendLedger.FileUri
