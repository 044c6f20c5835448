import ExprCalc.Settings

namespace ExprCalc

inductive Command where
  | root
  | tokens
  | ast
  | eval
  | help
deriving DecidableEq

namespace Command

def named : List (Command × String) :=
  [(tokens, "tokens"), (ast, "ast"), (eval, "eval"), (help, "help")]

def ofName? (name : Text) : Option Command :=
  (named.find? fun c => utf8 c.2 == name).map (·.1)

def name (c : Command) : String :=
  (named.lookup c).getD "lox"

def summary : Command → List String
  | root => ["Evaluate lox expressions"]
  | tokens => ["Print the tokens of a source text"]
  | ast => ["Print the syntax tree of an expression"]
  | eval => ["Evaluate an expression and print its value"]
  | help =>
    ["Help provides help for any command in the application.",
     "Simply type lox help [path to command] for full details."]

def usage : Command → List String
  | root => ["  lox [flags]", "  lox [command]"]
  | help => ["  lox help [command] [flags]"]
  | c => ["  lox " ++ c.name ++ " [source] [flags]"]

def commandList : List String :=
  ["Available Commands:",
   "  ast         Print the syntax tree of an expression",
   "  completion  Generate the autocompletion script for the specified shell",
   "  eval        Evaluate an expression and print its value",
   "  help        Help about any command",
   "  tokens      Print the tokens of a source text"]

def firstFlags (env : Environment) : List String :=
  ["      --ast             print the syntax tree before evaluation",
   "      --config string   config file path (default \"" ++ (Settings.defaultPath env).shown ++ "\")"]

def lastFlags : List String :=
  ["  -i, --input string    input file path",
   "      --prompt string   REPL prompt",
   "      --tokens          print tokens before parsing"]

def flagList (env : Environment) : Command → List String
  | root =>
    commandList ++ ["", "Flags:"] ++ firstFlags env ++ ["  -h, --help            help for lox"] ++
      lastFlags ++ ["", "Use \"lox [command] --help\" for more information about a command."]
  | c =>
    ["Flags:", "  -h, --help   help for " ++ c.name, "", "Global Flags:"] ++ firstFlags env ++
      lastFlags

def helpText (c : Command) (env : Environment) : Text :=
  (c.summary ++ ["", "Usage:"] ++ c.usage ++ [""] ++ c.flagList env).flatMap fun line =>
    Text.line (utf8 line)

end Command

end ExprCalc
