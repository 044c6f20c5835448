import ExprCalc.Yaml.Decode

namespace ExprCalc

structure TestCase where
  label : Text
  enable : Bool
  input : Text
  expected : List (Text × Text)

namespace TestCase

def empty : TestCase :=
  ⟨[], false, [], []⟩

def shape : Yaml.Shape TestCase :=
  .ofFields "utils.TestData"
    [("label", Yaml.textField fun t test => { test with label := t }),
     ("enable", Yaml.boolField fun b test => { test with enable := b }),
     ("input", Yaml.textField fun t test => { test with input := t }),
     ("expected", Yaml.tableField fun ts test => { test with expected := ts })]

def read (n : Yaml.Node) : Yaml.Decoder (List TestCase) (Option TestCase) := do
  let (found, test) ← Yaml.nested empty (Yaml.readMapping shape n)
  return if found then some test else none

def ofDocument (describe : Text → Text) (document : Text) : Except Failure (List TestCase) :=
  let (tests, failure) := Yaml.decodeOnto describe [] (fun root => do
    let tests ← Yaml.readSequence "[]utils.TestData" read root
    modify fun d => { d with record := tests }) document
  match failure with
  | some f => .error (.during (utf8 "test data") f)
  | none => .ok (tests.filter TestCase.enable)

end TestCase

end ExprCalc
