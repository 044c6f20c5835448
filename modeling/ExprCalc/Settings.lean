import ExprCalc.File.Path
import ExprCalc.Output
import ExprCalc.Yaml.Decode

namespace ExprCalc

/-- What the program finds where it runs, and what comes with the libraries it is built on. -/
structure Environment where
  dataHome : Text
  configHome : Text
  /-- The reader of lines shows the prompt. It does not if its input comes from elsewhere than a
  terminal, unless the terminal is none that it knows. -/
  showsPrompt : Bool
  /-- What the reader of documents says of a malformed one. -/
  malformed : Text → Text
  /-- What the commands that complete command lines in a shell write, and how they fail. -/
  complete : List Text → Output × Option Text

structure Settings where
  prompt : Text
  /-- Where lines of input are kept between sessions; empty for nowhere. -/
  historyFile : Text
  tracing : Tracing

namespace Settings

def default (env : Environment) : Settings :=
  ⟨utf8 "> ", Path.join (Path.join env.dataHome (utf8 "lox")) (utf8 ".lox_history"), ⟨false, false⟩⟩

def defaultPath (env : Environment) : Text :=
  Path.join (Path.join env.configHome (utf8 "lox")) (utf8 "config.yaml")

def shape : Yaml.Shape Settings :=
  .ofFields "config.Config"
    [("prompt", Yaml.textField fun t s => { s with prompt := t }),
     ("history_file", Yaml.textField fun t s => { s with historyFile := t }),
     ("trace_tokens", Yaml.boolField fun b s => { s with tracing.tokens := b }),
     ("trace_ast", Yaml.boolField fun b s => { s with tracing.tree := b })]

/-- Settings changed by a document. A document that cannot be read in full may still change
some. -/
def overlay (s : Settings) (describe : Text → Text) (document : Text) :
    Settings × Option Failure :=
  let (s, failure) := Yaml.decodeOnto describe s (fun root => do
    let _ ← Yaml.readMapping shape root) document
  (s, failure.map (.during (utf8 "decode")))

end Settings

end ExprCalc
