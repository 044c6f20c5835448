import ExprCalc.Text.Quoted

namespace ExprCalc.Command

inductive Flag where
  | input
  | config
  | prompt
  | tokens
  | ast
  | help
deriving DecidableEq

namespace Flag

def all : List Flag :=
  [input, config, prompt, tokens, ast, help]

def name : Flag → String
  | input => "input"
  | config => "config"
  | prompt => "prompt"
  | tokens => "tokens"
  | ast => "ast"
  | help => "help"

def letter? : Flag → Option UInt8
  | input => some 105
  | help => some 104
  | _ => none

def isSwitch : Flag → Bool
  | tokens | ast | help => true
  | _ => false

def ofName? (text : Text) : Option Flag :=
  all.find? fun flag => utf8 flag.name == text

def ofLetter? (b : UInt8) : Option Flag :=
  all.find? fun flag => flag.letter? == some b

def shown : Flag → Text
  | help => utf8 "-h, --help"
  | flag => utf8 "--" ++ utf8 flag.name

end Flag

inductive UsageError where
  | unknownCommand (name : Text)
  | tooManyArguments (received : Nat)
  | badSyntax (argument : Text)
  | unknownFlag (name : Text)
  | unknownLetter (letter : UInt8) (cluster : Text)
  | missingValue (flag : Flag)
  | missingLetterValue (letter : UInt8) (cluster : Text)
  | badSwitch (flag : Flag) (value : Text)

/-- A letter in a message. A byte that is no ASCII character shows as the first half of the
character with its number. -/
def shownLetter (b : UInt8) : Text :=
  Text.quotedChar (if b < 0x80 then b.toNat.toInt32 else if b < 0xC0 then 0xC2 else 0xC3)

def UsageError.message : UsageError → Text
  | unknownCommand name => utf8 "unknown command " ++ name.quoted ++ utf8 " for \"lox\""
  | tooManyArguments received =>
    utf8 "accepts at most 1 arg(s), received " ++ Text.ofNat received
  | badSyntax argument => utf8 "bad flag syntax: " ++ argument
  | unknownFlag name => utf8 "unknown flag: --" ++ name
  | unknownLetter letter cluster =>
    utf8 "unknown shorthand flag: " ++ shownLetter letter ++ utf8 " in -" ++ cluster
  | missingValue flag => utf8 "flag needs an argument: --" ++ utf8 flag.name
  | missingLetterValue letter cluster =>
    utf8 "flag needs an argument: " ++ shownLetter letter ++ utf8 " in -" ++ cluster
  | badSwitch flag value =>
    utf8 "invalid argument " ++ value.quoted ++ utf8 " for " ++ flag.shown.quoted ++
      utf8 " flag: strconv.ParseBool: parsing " ++ value.quoted ++ utf8 ": invalid syntax"

structure Options where
  input : Text
  config : Option Text
  prompt : Option Text
  tokens : Option Bool
  ast : Option Bool
  help : Bool

namespace Options

def none : Options :=
  ⟨[], .none, .none, .none, .none, false⟩

def switches : List (String × Bool) :=
  [("1", true), ("t", true), ("T", true), ("TRUE", true), ("true", true), ("True", true),
   ("0", false), ("f", false), ("F", false), ("FALSE", false), ("false", false), ("False", false)]

def switch? (value : Text) : Option Bool :=
  (switches.find? fun s => utf8 s.1 == value).map (·.2)

def set (o : Options) (flag : Flag) (value : Text) : Except UsageError Options :=
  let switched (f : Bool → Options) : Except UsageError Options :=
    match switch? value with
    | some b => .ok (f b)
    | .none => .error (.badSwitch flag value)
  match flag with
  | .input => .ok { o with input := value }
  | .config => .ok { o with config := some value }
  | .prompt => .ok { o with prompt := some value }
  | .tokens => switched fun b => { o with tokens := some b }
  | .ast => switched fun b => { o with ast := some b }
  | .help => switched fun b => { o with help := b }

end Options

def dash : UInt8 := 45
def equals : UInt8 := 61

structure Parsed where
  options : Options
  arguments : List Text

/-- What a flag that stands alone is set to when no value comes with it. -/
def switchedOn : Text := utf8 "true"

/-- A cluster of one-letter flags after its dash; `next?` is the argument after the cluster. The
flag tells whether that argument was used up as a value. -/
def readLetters (next? : Option Text) : Options → Text → Except UsageError (Options × Bool)
  | o, [] => .ok (o, false)
  | o, letter :: rest =>
    if (utf8 "test.").isPrefixOf (letter :: rest) then .ok (o, false)
    else match Flag.ofLetter? letter with
      | none => .error (.unknownLetter letter (letter :: rest))
      | some flag =>
        match rest with
        | b :: c :: more =>
          if b = equals then do return (← o.set flag (c :: more), false)
          else if flag.isSwitch then do readLetters next? (← o.set flag switchedOn) rest
          else do return (← o.set flag rest, false)
        | _ =>
          if flag.isSwitch then do readLetters next? (← o.set flag switchedOn) rest
          else if !rest.isEmpty then do return (← o.set flag rest, false)
          else match next? with
            | some value => do return (← o.set flag value, true)
            | none => .error (.missingLetterValue letter (letter :: rest))

/-- A flag by its name, after its two dashes; `next?` is the argument after it. -/
def readName (next? : Option Text) (o : Options) (text : Text) :
    Except UsageError (Options × Bool) :=
  let name := text.takeWhile (· != equals)
  match Flag.ofName? name with
  | none => .error (.unknownFlag name)
  | some flag =>
    match text.drop name.length with
    | _ :: value => do return (← o.set flag value, false)
    | [] =>
      if flag.isSwitch then do return (← o.set flag switchedOn, false)
      else match next? with
        | some value => do return (← o.set flag value, true)
        | none => .error (.missingValue flag)

/-- Reads all arguments of a command. A lone dash is an argument like any other. -/
def readArguments (o : Options) : List Text → Except UsageError Parsed
  | [] => .ok ⟨o, []⟩
  | argument :: rest =>
    let plain : Except UsageError Parsed := do
      let p ← readArguments o rest
      return { p with arguments := argument :: p.arguments }
    let after (read : Except UsageError (Options × Bool)) : Except UsageError Parsed := do
      match ← read with
      | (o, false) => readArguments o rest
      | (o, true) =>
        match rest with
        | [] => return ⟨o, []⟩
        | _ :: rest => readArguments o rest
    match argument with
    | [] => plain
    | [_] => plain
    | a :: b :: more =>
      if a ≠ dash then plain
      else if b ≠ dash then after (readLetters rest.head? o (b :: more))
      else match more with
        | [] => .ok ⟨o, rest⟩
        | c :: _ =>
          if c = dash ∨ c = equals then .error (.badSyntax argument)
          else after (readName rest.head? o more)

end ExprCalc.Command
