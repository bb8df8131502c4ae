import FriendLedger.Program
import FriendLedger.Store.Document
import Std.Time.DateTime.Timestamp

/-! The program itself. It reads the settings file and the environment, loads the
database file that the run comes to, if there is one, and writes back what has
changed. -/

namespace FriendLedger.Main

set_option autoImplicit false

def readFile? (name : String) : IO (Option String) := do
  try
    return some (← IO.FS.readFile name)
  catch _ =>
    return none

def variableNames : List String :=
  ["DATABASE_URL", "TALLY__APP", "TALLY__APP__LEVEL", "TALLY__DATABASE", "TALLY__DATABASE__SQLITE"]

def environment : IO (List (String × String)) := do
  let values ← variableNames.mapM fun name => do return (← IO.getEnv name).map (name, ·)
  return values.filterMap fun v => v

def surroundings : IO Program.Surroundings := do
  let seconds := (← Std.Time.Timestamp.now).toSecondsSinceUnixEpoch.val
  return {
    environment := ← environment
    nextId := ← IO.rand 0 (Id.capacity - 1)
    now := Int64.ofInt seconds }

/-- A file by its contents: the document of a store is a database. -/
def fileOf (text : String) : File :=
  match Store.ofText? text with
  | some s => .database s
  | none => .text text

/-- The part of the directory that names lead to. -/
def directory (names : List String) : IO Directory := do
  let files ← names.mapM fun name => do return (← readFile? name).map fun s => (name, fileOf s)
  return files.filterMap fun f => f

def settingsNames : List String := "settings" :: "settings.toml" :: Directory.foreignSettingsNames

/-- The directory as far as a location needs it. -/
def extended (d : Directory) : Location → IO Directory
  | .temporary _ => return d
  | .file path _ _ =>
    match d.nameAt? path with
    | none => return d
    | some name => do return d.filter (·.1 ≠ name) ++ (← directory [name])

def save (before after : Directory) : IO Unit :=
  after.forM fun f =>
    if before.find? f.1 = some f.2 then pure ()
    else
      match f.2 with
      | .database s => IO.FS.writeFile f.1 s.toText
      | .text s => IO.FS.writeFile f.1 s

def report (o : Program.Outcome) : IO UInt32 := do
  if let some text := o.output then IO.print text
  if let some line := o.error then IO.eprintln line
  return o.exitCode.toUInt32

def run (args : List String) : IO UInt32 := do
  let g ← surroundings
  let settings ← directory settingsNames
  match Program.plan args g settings with
  | .error outcome => report outcome
  | .ok (c, location) =>
    let d ← extended settings location
    let (outcome, d') := Program.runAt c g d location
    save d d'
    report outcome

end FriendLedger.Main

def main (args : List String) : IO UInt32 := FriendLedger.Main.run args
