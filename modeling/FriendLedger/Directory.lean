import FriendLedger.Location
import FriendLedger.Settings
import FriendLedger.Store

/-! The directory that the program works in: its files, of which some are databases.
It has no directories inside. -/

namespace FriendLedger

set_option autoImplicit false

inductive File
  | text (s : String)
  | database (s : Store)
deriving DecidableEq

namespace File

/-- The database that a file is, if it is one. An empty file is one without tables. -/
def store? : File → Option Store
  | .database s => some s
  | .text s => if s = "" then some .blank else none

end File

abbrev Directory := List (String × File)

namespace Directory

def find? (d : Directory) (name : String) : Option File := d.lookup name

def contains (d : Directory) (name : String) : Bool := (d.find? name).isSome

def put (d : Directory) (name : String) (f : File) : Directory :=
  (name, f) :: d.filter (·.1 ≠ name)

@[simp] theorem find?_put (d : Directory) (name : String) (f : File) :
    (d.put name f).find? name = some f := by
  simp [find?, put]

theorem find?_put_of_ne (d : Directory) {name other : String} (f : File) (h : other ≠ name) :
    (d.put name f).find? other = d.find? other := by
  have ho : (other == name) = false := by simpa using h
  simp only [find?, put, List.lookup_cons, ho]
  induction d with
  | nil => rfl
  | cons e rest ih =>
    obtain ⟨n, g⟩ := e
    by_cases hn : n = name
    · have hon : (other == n) = false := by simpa [hn] using h
      simpa [hn, List.lookup_cons, hon, ho] using ih
    · simp only [hn, ne_eq, not_false_eq_true, decide_true, List.filter_cons_of_pos,
        List.lookup_cons]
      rw [← ih]

/-- The most bytes that a name in the file system has. -/
def maxNameBytes : Nat := 255

/-- The bytes that the name of a database leaves for the names of files beside it. -/
def reservedBytes : Nat := 8

/-- Takes one part of a path, of which `above` holds the earlier parts, the last one
first. Two points lead back up; a path leads neither out of the directory nor
through a file. -/
def enter? (d : Directory) (above : List String) (part : String) : Option (List String) :=
  if part = "" ∨ part = "." then some above
  else if part = ".." then
    match above with
    | [] => none
    | _ :: rest => some rest
  else if maxNameBytes < part.utf8ByteSize then none
  else if above.getLast?.any d.contains then none
  else some (part :: above)

def nameAt? (d : Directory) (path : String) : Option String :=
  let parts := (path.toList.splitOn '/').map String.ofList
  if path.toList.head? = some '/' then none
  else
    match parts.foldlM (enter? d) [] with
    | some [name] => if maxNameBytes < name.utf8ByteSize + reservedBytes then none else some name
    | _ => none

/-- A database that is open, and the directory with the file that may have been
made for it. -/
structure Opened where
  store : Store
  writable : Bool
  /-- The name of its file, unless it is temporary. -/
  name : Option String
  directory : Directory
deriving DecidableEq

/-- Opens the database of a location. One that takes no writes is of no use before
its schema is set up, but by then its file may have been made. -/
def open? (d : Directory) : Location → Option Opened
  | .temporary writable => some ⟨.blank, writable, none, d⟩
  | .file path mode immutable => do
    let name ← d.nameAt? path
    match d.find? name with
    | some f => return ⟨← f.store?, mode ≠ .readOnly && !immutable, some name, d⟩
    | none =>
      if mode = .create then return ⟨.blank, !immutable, some name, d.put name (.text "")⟩
      else none

/-- Other names that a settings file can have, each for a notation that no file here
is written in. -/
def foreignSettingsNames : List String :=
  ["settings.json", "settings.yaml", "settings.yml", "settings.ini", "settings.ron",
    "settings.json5"]

/-- The text of the settings file. A file whose name lacks the ending hides it. -/
def settingsText (d : Directory) : Except Settings.Fault (Option String) :=
  if d.contains "settings" then .ok none
  else
    match d.find? "settings.toml" with
    | some (.text s) => .ok (some s)
    | some (.database _) => .error .unreadable
    | none => if foreignSettingsNames.any d.contains then .error .unreadable else .ok none

def settings (d : Directory) (env : List (String × String)) : Except Settings.Fault Settings := do
  Settings.read (← d.settingsText) env

end Directory
end FriendLedger
