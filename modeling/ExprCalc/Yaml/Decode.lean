import ExprCalc.Failure
import ExprCalc.Text.Base64
import ExprCalc.Yaml.Node

namespace ExprCalc.Yaml

structure Progress where
  problems : List Text
  visits : Nat
  /-- How many of them have been read on behalf of an alias. -/
  aliasedVisits : Nat
  activeAliases : List Nat

def Progress.start : Progress :=
  ⟨[], 1, 0, []⟩

structure Decoding (ρ : Type) where
  record : ρ
  progress : Progress

structure Surroundings where
  /-- The nodes that aliases stand for. -/
  anchored : Array Node
  /-- How deep mappings may be merged into each other. -/
  room : Nat

abbrev Decoder (ρ α : Type) := ReaderT Surroundings (EStateM Unit (Decoding ρ)) α

variable {ρ : Type}

def unusable {α : Type} : Decoder ρ α :=
  throw ()

def advance (f : Progress → Progress) : Decoder ρ Unit :=
  modify fun d => { d with progress := f d.progress }

def problem (line : Nat) (what : Text) : Decoder ρ Unit :=
  advance fun p =>
    { p with problems := (utf8 "line " ++ Text.ofNat line ++ utf8 ": " ++ what) :: p.problems }

/-- A value as a problem shows it: not more than ten bytes. -/
def excerpt (value : Text) : Text :=
  utf8 "`" ++ (if 10 < value.length then value.take 7 ++ utf8 "..." else value) ++ utf8 "`"

def mistyped (line : Nat) (tag : Tag) (value : Text) (type : String) : Decoder ρ Unit :=
  let shown := if tag = .seq ∨ tag = .map then value else utf8 " " ++ excerpt value
  problem line (utf8 "cannot unmarshal " ++ tag.text ++ shown ++ utf8 " into " ++ utf8 type)

/-- Too much of what is read comes from aliases. Of up to 400000 nodes 99 in 100 may; the share
shrinks evenly to one in ten for 4000000 nodes. -/
def isExcessive (visits aliased : Nat) : Bool :=
  100 < aliased && 1000 < visits &&
    (if visits ≤ 400000 then 99 * visits < 100 * aliased
      else if 4000000 ≤ visits then visits < 10 * aliased
      else visits * (392000000 - 89 * visits) < 360000000 * aliased)

def visit : Decoder ρ Unit := do
  advance fun p =>
    { p with
      visits := p.visits + 1
      aliasedVisits := p.aliasedVisits + (if p.activeAliases.isEmpty then 0 else 1) }
  let p := (← get).progress
  if isExcessive p.visits p.aliasedVisits then unusable

def target (n : Node) : Decoder ρ Node :=
  match n with
  | .aliasOf _ _ _ number => return (← read).anchored.getD number (.absent 0)
  | n => return n

/-- Reads a node, or the one it stands for. What an alias stands for must not be read while that is
being done. -/
def visiting {α : Type} (n : Node) (f : Node → Decoder ρ α) : Decoder ρ α := do
  visit
  match n with
  | .aliasOf _ _ id _ =>
    if (← get).progress.activeAliases.contains id then unusable
    else
      advance fun p => { p with activeAliases := id :: p.activeAliases }
      visit
      let a ← f (← target n)
      advance fun p => { p with activeAliases := p.activeAliases.drop 1 }
      return a
  | n => f n

inductive Meaning where
  | null
  | bool (b : Bool)
  | text (t : Text)
  | other

def isFractional (cs : List Char) : Bool :=
  plainTag cs = .float || (integer? (withoutSeparators cs)).any (·.toNat < Nat.pow 2 63)

/-- The meaning of a scalar of the given type. The text of a scalar that is said to be null, a truth
value, a number or a date must look like one, and that of binary data must be in base 64; other
scalars are strings. -/
def meaning? (tag : Tag) (value : Text) : Option Meaning :=
  let cs := value.runes.map Rune.shown
  match tag with
  | .null => if plainTag cs = .null then some .null else none
  | .bool =>
    if plainTag cs = .bool then some (.bool (value.head? == some 116 || value.head? == some 84))
    else none
  | .int => if plainTag cs = .int then some .other else none
  | .float => if isFractional cs then some .other else none
  | .timestamp => if plainTag cs = .timestamp then some .other else none
  | .binary => (Text.ofBase64? value).map .text
  | _ => some (.text value)

def meaning (tag : Tag) (value : Text) : Decoder ρ Meaning :=
  match meaning? tag value with
  | some m => return m
  | none => unusable

def clashes : List (Node × Node) → List (Node × Node)
  | [] => []
  | (key, _) :: rest =>
    (rest.filter fun entry => entry.1.identity == key.identity).map (fun entry => (key, entry.1)) ++
      clashes rest

def checkKeys (entries : List (Node × Node)) : Decoder ρ Bool := do
  let again := clashes entries
  for (earlier, later) in again do
    problem later.line (utf8 "mapping key " ++ later.identity.2.quoted ++
      utf8 " already defined at line " ++ Text.ofNat earlier.line)
  return again.isEmpty

/-- Reads a node of a type that only scalars have. Null leaves things as they are. -/
def readScalar {α : Type} (type : String) (accept : Meaning → Text → Option α) (n : Node) :
    Decoder ρ (Option α) :=
  visiting n fun
    | .scalar line tag value => do
      match ← meaning tag value with
      | .null => return none
      | m =>
        match accept m value with
        | some a => return some a
        | none =>
          mistyped line tag value type
          return none
    | .sequence line tag _ => do
      mistyped line tag [] type
      return none
    | .mapping line tag entries => do
      if ← checkKeys entries then mistyped line tag [] type
      return none
    | .aliasOf _ _ _ _ => unusable

def readText (n : Node) : Decoder ρ (Option Text) :=
  readScalar "string" (fun
    | .text t, _ => some t
    | _, value => some value) n

def switchWords : List (String × Bool) :=
  [("y", true), ("Y", true), ("yes", true), ("Yes", true), ("YES", true),
   ("on", true), ("On", true), ("ON", true),
   ("n", false), ("N", false), ("no", false), ("No", false), ("NO", false),
   ("off", false), ("Off", false), ("OFF", false)]

def readBool (n : Node) : Decoder ρ (Option Bool) :=
  readScalar "bool" (fun
    | .bool b, _ => some b
    | .text t, _ => (switchWords.find? fun w => utf8 w.1 == t).map (·.2)
    | _, _ => none) n

/-- A key that stands for the entries of other mappings. -/
def isMerge : Node → Bool
  | .scalar _ tag value => tag = .merge && value == utf8 "<<"
  | _ => false

/-- The name of a key that is a string. A mapping with merged entries has no collections as
keys. -/
def keyName (key : Node) : Decoder ρ (Option Text) :=
  visiting key fun
    | .scalar _ tag value => do
      match ← meaning tag value with
      | .text t => return some t
      | _ => return none
    | .mapping _ _ entries => do
      if ← checkKeys entries then unusable else return none
    | _ => unusable

structure Shape (ρ : Type) where
  type : String
  /-- How to read the value of an entry, if its name means something. The flag tells whether the
  entry is one of the mapping itself, and not a merged one. -/
  entry? : (own : Bool) → (name : Text) → Option (Node → Decoder ρ Unit)
  /-- A name may come up again, and then takes the place of the earlier one. -/
  repeatable : Bool

def mergedNodes : Node → List Node
  | .sequence _ _ items => items
  | n => [n]

/-- Gives every entry of a mapping to the record, and then the entries of the mappings merged into
it whose names have not come up. `seen` holds the names that later entries must not have, and is
given back with the new ones. -/
def readEntries (shape : Shape ρ) : (room : Nat) → (seen : Option (List Text)) →
    List (Node × Node) → Decoder ρ (Option (List Text))
  | 0, _, _ => unusable
  | room + 1, before, entries => do
    let mut seen := before
    let mut done : List Text := []
    let mut merged : Option Node := none
    for (key, value) in entries do
      -- only the last merge key counts, and it is left for the end: the entries here come first
      if isMerge key then merged := some value
      else if let some name ← readText key then
        if !(seen.any (·.contains name)) then
          seen := seen.map (name :: ·)
          if let some readValue := shape.entry? before.isNone name then
            if !shape.repeatable && done.contains name then
              problem key.line (utf8 "field " ++ name ++ utf8 " already set in type " ++
                utf8 shape.type)
            else
              done := name :: done
              readValue value
    match merged with
    | none => return seen
    | some node =>
      let mut names ← match seen with
        | some names => pure names
        | none => do pure (← entries.mapM fun entry => keyName entry.1).reduceOption
      for n in mergedNodes node do
        if let .mapping _ _ _ ← target n then
          names ← visiting n fun
            | .mapping _ _ entries => do
              if ← checkKeys entries then
                return (← readEntries shape room (some names) entries).getD names
              else return names
            | _ => unusable
        else unusable
      return seen.map fun _ => names

def readMapping (shape : Shape ρ) (n : Node) : Decoder ρ Bool :=
  visiting n fun
    | .scalar line tag value => do
      match ← meaning tag value with
      | .null => return false
      | _ =>
        mistyped line tag value shape.type
        return false
    | .sequence line tag _ => do
      mistyped line tag [] shape.type
      return false
    | .mapping _ _ entries => do
      if ← checkKeys entries then
        let _ ← readEntries shape (← read).room none entries
        return true
      else return false
    | .aliasOf _ _ _ _ => unusable

def Shape.ofFields (type : String) (fields : List (String × (Node → Decoder ρ Unit))) : Shape ρ :=
  { type
    entry? := fun _ name => (fields.find? fun field => utf8 field.1 == name).map (·.2)
    repeatable := false }

def textField (put : Text → ρ → ρ) (n : Node) : Decoder ρ Unit := do
  if let some t ← readText n then modify fun d => { d with record := put t d.record }

def boolField (put : Bool → ρ → ρ) (n : Node) : Decoder ρ Unit := do
  if let some b ← readBool n then modify fun d => { d with record := put b d.record }

def nested {τ α : Type} (record : τ) (d : Decoder τ α) : Decoder ρ (α × τ) := fun around s =>
  match d around ⟨record, s.progress⟩ with
  | .ok a t => .ok (a, t.record) { s with progress := t.progress }
  | .error e t => .error e { s with progress := t.progress }

def isNull (n : Node) : Decoder ρ Bool := do
  match ← target n with
  | .scalar _ tag _ => return tag = .null
  | _ => return false

/-- Strings under names. A null value is the empty string; a merged one leaves things as they
are if the name is there. -/
def Shape.table : Shape (List (Text × Text)) :=
  { type := "map[string]string"
    entry? := fun own name => some fun value => do
      let put (t : Text) : Decoder (List (Text × Text)) Unit :=
        modify fun d => { d with record := d.record.filter (·.1 != name) ++ [(name, t)] }
      match ← readText value with
      | some t => put t
      | none =>
        if (← isNull value) && (own || ((← get).record.lookup name).isNone) then put []
    repeatable := true }

def tableField (put : List (Text × Text) → ρ → ρ) (n : Node) : Decoder ρ Unit := do
  let (found, texts) ← nested [] (readMapping .table n)
  if found || (← isNull n) then modify fun d => { d with record := put texts d.record }

def readSequence {α : Type} (type : String) (item : Node → Decoder ρ (Option α)) (n : Node) :
    Decoder ρ (List α) :=
  visiting n fun
    | .scalar line tag value => do
      match ← meaning tag value with
      | .null => return []
      | _ =>
        mistyped line tag value type
        return []
    | .mapping line tag entries => do
      if ← checkKeys entries then mistyped line tag [] type
      return []
    | .sequence _ _ items => return (← items.mapM item).reduceOption
    | .aliasOf _ _ _ _ => unusable

/-- Decodes a document onto a record. The record comes back with what could be read, and a failure
if not everything could; `describe` tells what is wrong with a malformed document. -/
def decodeOnto (describe : Text → Text) (record : ρ) (decoder : Node → Decoder ρ Unit)
    (text : Text) : ρ × Option Failure :=
  match read? text with
  | none => (record, some (.malformedDocument (describe text)))
  | some none => (record, none)
  | some (some document) =>
    let room := (text.length + 1) * (text.length + 1)
    match decoder document.root ⟨document.anchored, room⟩ ⟨record, .start⟩ with
    | .error _ d => (d.record, some (.malformedDocument (describe text)))
    | .ok _ d =>
      match d.progress.problems with
      | [] => (d.record, none)
      | problems => (d.record, some (.mistypedDocument problems.reverse))

end ExprCalc.Yaml
