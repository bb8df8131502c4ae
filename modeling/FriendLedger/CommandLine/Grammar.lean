/-! Command lines: a tree of commands with options in front, and at its leaves
options and positional arguments in any order. An option's value is the next
argument or follows an equals sign. A value is checked when the argument after it
is recognized or the line ends; an argument that nothing takes is refused without
that check. -/

namespace FriendLedger.CommandLine

set_option autoImplicit false

inductive Fault
  | missingArgument
  | unknownArgument
  | unknownCommand
  | missingCommand
  | badValue
  | missingValue
  | surplusValue
  | repeatedOption
  /-- Help was asked for. -/
  | help
  /-- A group of commands was named and nothing else. -/
  | helpForGroup
deriving DecidableEq, Repr

/-- An option or a positional argument. -/
structure Parameter where
  name : String
  required : Bool
  repeats : Bool
  /-- Whether it takes the next argument whatever that looks like. -/
  takesHyphens : Bool
  accepts : String → Bool

inductive Shape
  | group (options : List Parameter) (commands : List (String × Shape))
  | leaf (options positionals : List Parameter)

/-- The commands on the way to the leaf and the values that were given. -/
structure Parsed where
  path : List String
  values : List (String × String)
deriving DecidableEq, Repr

structure Intake where
  /-- The values that were checked, in order. -/
  values : List (String × String)
  /-- The parameter that was met last, with the values not yet checked. -/
  pending : Option (Parameter × List String)
  /-- Whether that parameter is an option that waits for its value. -/
  awaiting : Bool
  /-- The positional arguments still to come. -/
  positionals : List Parameter
  /-- After `--` everything is positional. -/
  trailing : Bool

inductive Token
  | plain
  | endOfOptions
  | long (name : String) (value : Option String)
  | short (letter : Char)
deriving DecidableEq, Repr

def Token.ofArgument (arg : String) : Token :=
  match arg.toList with
  | ['-', '-'] => .endOfOptions
  | '-' :: '-' :: cs =>
    match cs.dropWhile (· ≠ '=') with
    | _ :: value => .long (String.ofList (cs.takeWhile (· ≠ '='))) (some (String.ofList value))
    | [] => .long (String.ofList cs) none
  | '-' :: c :: _ => .short c
  | _ => .plain

def Shape.options : Shape → List Parameter
  | .group options _ => options
  | .leaf options _ => options

def Shape.positionals : Shape → List Parameter
  | .group _ _ => []
  | .leaf _ positionals => positionals

def Shape.commands : Shape → List (String × Shape)
  | .group _ commands => commands
  | .leaf _ _ => []

/-- Groups of commands also have the command `help`. -/
def Shape.isCommand (shape : Shape) (arg : String) : Bool :=
  match shape with
  | .group _ commands => arg == "help" || commands.any (·.1 == arg)
  | .leaf _ _ => false

def Shape.start (shape : Shape) : Intake := ⟨[], none, false, shape.positionals, false⟩

namespace Intake

def settle (st : Intake) : Except Fault Intake :=
  match st.pending with
  | none => .ok st
  | some (_, []) => .error .missingValue
  | some (p, vs) =>
    if !p.repeats && st.values.any (·.1 == p.name) then .error .repeatedOption
    else if vs.all p.accepts then
      .ok { st with values := st.values ++ vs.map (p.name, ·), pending := none, awaiting := false }
    else .error .badValue

def feed (st : Intake) (value : String) : Intake :=
  { st with pending := st.pending.map fun p => (p.1, p.2 ++ [value]), awaiting := false }

/-- Whether the next argument is a value whatever it looks like. -/
def isGreedy (st : Intake) : Bool :=
  st.awaiting && st.pending.any (·.1.takesHyphens)

def option (st : Intake) (p : Parameter) (value : Option String) : Except Fault Intake := do
  let st ← st.settle
  match value with
  | some v => settle { st with pending := some (p, [v]) }
  | none => return { st with pending := some (p, []), awaiting := true }

/-- An argument without a place is refused; a group takes it for a command. -/
def stray (shape : Shape) (st : Intake) (arg : String) : Fault :=
  match shape with
  | .leaf _ _ => .unknownArgument
  | .group _ _ => if st.trailing && shape.isCommand arg then .unknownArgument else .unknownCommand

def positional (shape : Shape) (st : Intake) (arg : String) : Except Fault Intake :=
  match st.positionals with
  | [] => .error (stray shape st arg)
  | p :: ps =>
    if p.repeats && st.pending.any (·.1.name == p.name) then .ok (st.feed arg)
    else do
      let st ← st.settle
      return { st with pending := some (p, [arg]), positionals := if p.repeats then p :: ps else ps }

def long (shape : Shape) (st : Intake) (name : String) (value : Option String) :
    Except Fault Intake :=
  match shape.options.find? (·.name == name), value with
  | some p, _ => st.option p value
  | none, none => if name = "help" then do let _ ← st.settle; throw .help else throw .unknownArgument
  | none, some _ => if name = "help" then throw .surplusValue else throw .unknownArgument

def short (st : Intake) (letter : Char) : Except Fault Intake :=
  if letter = 'h' then do let _ ← st.settle; throw .help else throw .unknownArgument

def take (shape : Shape) (st : Intake) (arg : String) : Except Fault Intake :=
  if st.trailing then positional shape st arg
  else if st.isGreedy then .ok (st.feed arg)
  else
    match Token.ofArgument arg with
    | .plain => if st.awaiting then .ok (st.feed arg) else positional shape st arg
    | .endOfOptions => .ok { st with trailing := true }
    | .long name value => long shape st name value
    | .short letter => short st letter

/-- At the end every required parameter has a value. -/
def finish (shape : Shape) (st : Intake) : Except Fault Parsed := do
  let st ← st.settle
  match shape with
  | .group _ _ => throw (if st.values.isEmpty then .helpForGroup else .missingCommand)
  | .leaf options positionals =>
    if (options ++ positionals).all fun p => !p.required || st.values.any (·.1 == p.name) then
      return ⟨[], st.values⟩
    else throw .missingArgument

end Intake

/-- What `help` answers for the commands after it. -/
def helpFault (shape : Shape) : List String → Fault
  | [] => .help
  | arg :: args =>
    match shape.commands.find? (·.1 == arg) with
    | some c => helpFault c.2 args
    | none => if shape.isCommand arg && args.isEmpty then .help else .unknownCommand

def parse (shape : Shape) (st : Intake) : List String → Except Fault Parsed
  | [] => st.finish shape
  | arg :: args =>
    if !st.trailing && !st.awaiting && shape.isCommand arg then
      match shape.commands.find? (·.1 == arg) with
      | some c => do
        let inner ← parse c.2 c.2.start args
        let st ← st.settle
        return ⟨arg :: inner.path, st.values ++ inner.values⟩
      | none => throw (helpFault shape args)
    else do
      parse shape (← st.take shape arg) args

namespace Parsed

def value? (p : Parsed) (name : String) : Option String :=
  (p.values.find? (·.1 == name)).map (·.2)

def allValues (p : Parsed) (name : String) : List String :=
  (p.values.filter (·.1 == name)).map (·.2)

end Parsed
end FriendLedger.CommandLine
