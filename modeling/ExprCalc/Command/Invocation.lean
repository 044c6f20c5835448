import ExprCalc.Command.Flag
import ExprCalc.Command.Help

namespace ExprCalc.Command

/-- While the command is looked for, the argument is a flag whose value is the next argument. -/
def takesNext (argument : Text) : Bool :=
  match argument with
  | a :: b :: rest =>
    a == dash && !argument.contains equals &&
      if b == dash then
        match Flag.ofName? rest with
        | some flag => !flag.isSwitch || flag == .help
        | none => true
      else rest.isEmpty
  | _ => false

def isDashed (argument : Text) : Bool :=
  argument.head? == some dash

def candidates : List Text → List Text
  | [] => []
  | argument :: rest =>
    if argument == [dash, dash] then []
    else if takesNext argument then
      match rest with
      | [] => []
      | _ :: rest => candidates rest
    else if !argument.isEmpty && !isDashed argument then argument :: candidates rest
    else candidates rest

def withoutName (name : Text) : List Text → List Text
  | [] => []
  | argument :: rest =>
    if argument == [dash, dash] then argument :: rest
    else if takesNext argument then
      match rest with
      | [] => [argument]
      | value :: rest => argument :: value :: withoutName name rest
    else if argument == name then rest
    else argument :: withoutName name rest

def locate (arguments : List Text) : Command × List Text :=
  match candidates arguments with
  | [] => (root, arguments)
  | name :: _ =>
    match ofName? name with
    | some c => (c, withoutName name arguments)
    | none => (root, arguments)

/-- The call of one of these commands, with the arguments left for it. -/
def callOf? (names : List String) (arguments : List Text) : Option (List Text) :=
  match candidates arguments with
  | [] => none
  | name :: _ =>
    if names.any (utf8 · == name) then some (name :: withoutName name arguments) else none

def shellCommands : List String :=
  ["completion", "__complete", "__completeNoDesc"]

inductive Invocation where
  | showHelp (about : Command)
  /-- Evaluate the input file, or read expressions if there is none. -/
  | interactive (options : Options)
  | complete (call : List Text)
  | onSource (command : Command) (options : Options) (arguments : List Text)

/-- Understands a command line. Faults of flags come before faults of arguments. -/
def invocation (arguments : List Text) : Except UsageError Invocation := do
  -- what their arguments mean is up to these commands
  if let some call := callOf? shellCommands arguments then return .complete call
  let (command, rest) := locate arguments
  let p ← readArguments .none rest
  if p.options.help then return .showHelp command
  else match command with
    | root =>
      match p.arguments with
      | [] => return .interactive p.options
      | name :: _ => .error (.unknownCommand name)
    | help =>
      match callOf? ["completion"] p.arguments with
      | some call => return .complete (call ++ [utf8 "--help"])
      | none => return .showHelp (locate p.arguments).1
    | command =>
      if 1 < p.arguments.length then .error (.tooManyArguments p.arguments.length)
      else return .onSource command p.options p.arguments

end ExprCalc.Command
