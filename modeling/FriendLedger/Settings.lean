import FriendLedger.Settings.Document

/-! The settings of the program. They come from a file, if there is one, and from
the environment, which counts more: `TALLY__A__B` sets what is at the key `a.b`.
What neither sets has a default. -/

namespace FriendLedger

set_option autoImplicit false

inductive DatabaseSetting
  | memory
  | sqlite (path : String)
deriving DecidableEq, Repr

def DatabaseSetting.url : DatabaseSetting → String
  | .memory => "sqlite::memory:"
  | .sqlite path => "sqlite:" ++ path ++ "?mode=rwc"

structure Settings where
  level : String
  database : DatabaseSetting
deriving DecidableEq, Repr

namespace Settings

inductive Fault
  | unreadable
  /-- The kind of database is named that needs a path, and no path with it. -/
  | pathMissing
deriving DecidableEq, Repr

def default : Settings := ⟨"info", .sqlite "./tally.db"⟩

/-- The Kelvin sign is the one character beyond ASCII whose lower case is in ASCII. -/
def lowerChar (c : Char) : Char := if c.toNat = 0x212A then 'k' else c.toLower

/-- Two underscores stand for a point. -/
def withPoints : List Char → List Char
  | '_' :: '_' :: r => '.' :: withPoints r
  | c :: r => c :: withPoints r
  | [] => []

/-- The key that a variable sets, if it sets one. Its name counts in lower case. -/
def keyOf? (name : String) : Option String :=
  let cs := name.toList.map lowerChar
  if "tally__".toList.isPrefixOf cs then some (String.ofList (withPoints (cs.drop 7))) else none

/-- The entries of a file, each at the path of its key. -/
def ofEntries (entries : List (String × Tree)) : Tree :=
  entries.foldl (fun t e => t.assign e.1 e.2) .empty

/-- The tree with the values of the environment over it. -/
def overlay (t : Tree) (env : List (String × String)) : Tree :=
  env.foldl (fun t v =>
    match keyOf? v.1 with
    | some key => t.assign key (.text v.2)
    | none => t) t

def text? : Tree → Except Fault String
  | .text s => .ok s
  | _ => .error .unreadable

/-- The level is in a table under its name, or it is the first item of a list. -/
def levelOf : Tree → Except Fault String
  | .table entries =>
    match entryAt? entries "level" with
    | some t => text? t
    | none => .ok default.level
  | .list (t :: _) => text? t
  | .list [] => .ok default.level
  | _ => .error .unreadable

/-- The text `memory`, or a table with one key: `memory`, whatever is there, or
`sqlite` with the path. -/
def databaseOf : Tree → Except Fault DatabaseSetting
  | .text s =>
    if s = "memory" then .ok .memory
    else .error (if s = "sqlite" then .pathMissing else .unreadable)
  | .table [(key, t)] =>
    if key = "memory" then .ok .memory
    else if key = "sqlite" then (text? t).map .sqlite
    else .error .unreadable
  | _ => .error .unreadable

def ofTree (t : Tree) : Except Fault Settings := do
  let level ← match t.get? "app" with
    | some app => levelOf app
    | none => pure default.level
  let database ← match t.get? "database" with
    | some d => databaseOf d
    | none => pure default.database
  return ⟨level, database⟩

/-- The entries of a file. A mark of the byte order may stand before the document. -/
def entriesOf (file : Option String) : Except Fault (List (String × Tree)) :=
  match file with
  | none => .ok []
  | some s =>
    match Document.read? (Document.withoutMark s.toList) with
    | some entries => .ok entries
    | none => .error .unreadable

def read (file : Option String) (env : List (String × String)) : Except Fault Settings := do
  ofTree (overlay (ofEntries (← entriesOf file)) env)

end Settings
end FriendLedger
