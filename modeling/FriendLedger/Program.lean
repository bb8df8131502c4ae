import FriendLedger.CommandLine.Run
import FriendLedger.Directory
import FriendLedger.Store.Schema

/-! A run of the program: arguments, settings and environment in, an exit code and
two texts out. Arguments are read first, then the settings, then the database is
opened, whatever the command line says about it. -/

namespace FriendLedger

set_option autoImplicit false

/-- The line that reports a failure. What is internal stays inside. -/
def Failure.errorLine (f : Failure) : String :=
  (Json.ofFields [("error", .ofText f.code.text),
    ("message", .ofText (if f.isInternal then "internal error" else f.message))]).line

namespace Program

/-- What a run leaves to its caller. Of the error text it holds the last line, if that
reports a failure; logs and the texts of usage and help are left out. -/
structure Outcome where
  exitCode : Nat
  output : Option String
  error : Option String
deriving DecidableEq, Repr

/-- A run without an answer and without a failure to report. -/
def Outcome.silent (exitCode : Nat) : Outcome := ⟨exitCode, none, none⟩

/-- The circumstances of a run: the environment, the number of the next id and the
time. -/
structure Surroundings where
  environment : List (String × String)
  nextId : Nat
  now : Amount

def outcomeOf : Except Stop Answer → Outcome
  | .ok a => ⟨0, some (a.toJson.page ++ "\n"), none⟩
  | .error (.failure f) => ⟨1, none, some f.errorLine⟩
  | .error .overflow => .silent 101

def usageOutcome : CommandLine.Fault → Outcome
  | .help => .silent 0
  | _ => .silent 2

def execute (c : Command) (g : Surroundings) (s : Store) : Except Stop Answer × Store :=
  let (answer, b) := c.run g.now ⟨s.setUp, g.nextId, []⟩
  (answer, b.store)

/-- On a store that takes no writes, a command that comes to its write fails. -/
def readOnlyAnswer (c : Command) (answer : Except Stop Answer) : Except Stop Answer :=
  match answer with
  | .ok a => if c.isMutation then .error (.failure (.database .readOnly)) else .ok a
  | .error e => .error e

/-- Runs a command on a database that is open. One that takes no writes must have
been set up before. -/
def runOn (c : Command) (g : Surroundings) (o : Directory.Opened) : Outcome × Directory :=
  if o.writable then
    let r := execute c g o.store
    (outcomeOf r.1,
      match o.name with
      | some name => o.directory.put name (.database r.2)
      | none => o.directory)
  else if o.store.recorded then
    (outcomeOf (readOnlyAnswer c (execute c g o.store).1), o.directory)
  else (.silent 1, o.directory)

def runAt (c : Command) (g : Surroundings) (d : Directory) (l : Location) : Outcome × Directory :=
  match d.open? l with
  | some o => runOn c g o
  | none => (.silent 1, d)

/-- The address of the database: of the arguments, else of the environment, else
of the settings. -/
def address (databaseUrl : Option String) (g : Surroundings) (settings : Settings) : String :=
  (databaseUrl <|> g.environment.lookup "DATABASE_URL").getD settings.database.url

def settingsOutcome : Settings.Fault → Outcome
  | .unreadable => .silent 1
  | .pathMissing => .silent 101

/-- What a run comes to: an outcome at once, or a command and where its database
is. -/
def plan (args : List String) (g : Surroundings) (d : Directory) :
    Except Outcome (Command × Location) :=
  match CommandLine.read args with
  | .error f => .error (usageOutcome f)
  | .ok invocation =>
    match d.settings g.environment with
    | .error f => .error (settingsOutcome f)
    | .ok settings =>
      match Location.ofUrl? (address invocation.databaseUrl g settings) with
      | none => .error (.silent 1)
      | some location => .ok (invocation.command, location)

def run (args : List String) (g : Surroundings) (d : Directory) : Outcome × Directory :=
  match plan args g d with
  | .error outcome => (outcome, d)
  | .ok (c, location) => runAt c g d location

end Program
end FriendLedger
