import ExprCalc.Yaml.Schema
import ExprCalc.Yaml.Token

namespace ExprCalc.Yaml

inductive Node where
  | scalar (line : Nat) (tag : Tag) (value : Text)
  | sequence (line : Nat) (tag : Tag) (items : List Node)
  | mapping (line : Nat) (tag : Tag) (entries : List (Node × Node))
  /-- A reference to an anchored node. Every alias has an `id` of its own. -/
  | aliasOf (line : Nat) (name : Text) (id : Nat) (target : Nat)

namespace Node

def line : Node → Nat
  | scalar line _ _ => line
  | sequence line _ _ => line
  | mapping line _ _ => line
  | aliasOf line _ _ _ => line

/-- What two keys of one mapping must not share: the sort of node and its text. -/
def identity : Node → Nat × Text
  | scalar _ _ value => (0, value)
  | sequence _ _ _ => (1, [])
  | mapping _ _ _ => (2, [])
  | aliasOf _ name _ _ => (3, name)

def absent (line : Nat) : Node :=
  scalar (line + 1) .null []

end Node

/-- The root of a document and its anchored nodes by their numbers. -/
structure Document where
  root : Node
  anchored : Array Node

structure Builder where
  scan : Scan
  /-- The number of the last node with a name; a node has it from its start on. -/
  anchors : List (Text × Nat)
  /-- The anchored nodes; one that is not finished is not there yet. -/
  anchored : Array Node
  aliases : Nat
  handles : List (Text × Text)

abbrev Build (α : Type) := StateT Builder Option α

namespace Build

def peek : Build Token := do
  let b ← get
  let (t, scan) ← b.scan.peek
  set { b with scan }
  return t

def next : Build Token := do
  let t ← peek
  modify fun b => { b with scan := b.scan.drop }
  return t

def register : (name : Option Text) → Build (Option Nat)
  | none => return none
  | some name => do
    let n := (← get).anchored.size
    modify fun b =>
      { b with anchors := (name, n) :: b.anchors, anchored := b.anchored.push (.absent 0) }
    return some n

def keep (number : Option Nat) (node : Node) : Build Node := do
  if let some n := number then
    modify fun b => { b with anchored := b.anchored.setIfInBounds n node }
  return node

/-- A reference to the last node with the given name, which must have come up. -/
def reference (line : Nat) (name : Text) : Build Node := do
  let b ← get
  let target ← b.anchors.lookup name
  set { b with aliases := b.aliases + 1 }
  return .aliasOf (line + 1) name b.aliases target

def fullTag (handle suffix : Text) : Build Text := do
  if handle.isEmpty then return suffix
  else
    let expansion ← (← get).handles.lookup handle
    return expansion ++ suffix

def anchor? : Build (Option Text) := do
  match (← peek).kind with
  | .anchor name => let _ ← next; return some name
  | _ => return none

def tag? : Build (Option Text) := do
  match (← peek).kind with
  | .tag handle suffix => let _ ← next; return some (← fullTag handle suffix)
  | _ => return none

def properties : Build (Option Text × Option Text) := do
  match ← anchor? with
  | some name => return (some name, ← tag?)
  | none =>
    match ← tag? with
    | some tag => return (← anchor?, some tag)
    | none => return (none, none)

def tagOr (named : Option Text) (given : Tag) : Tag :=
  match named with
  | none => given
  | some name => if name = utf8 "!" then given else .ofName name

def scalarTag (style : ScalarStyle) (text : List Char) : Tag :=
  if style ≠ .plain then .str
  else if text = "<<".toList then .merge
  else plainTag text

mutual

/-- Reads a node. Block collections are read only if `block` is set, and a sequence that is not
indented only if `indentless` is. -/
def node (block indentless : Bool) : (fuel : Nat) → Build Node
  | 0 => failure
  | fuel + 1 => do
    let first ← peek
    match first.kind with
    | .aliasOf name => let _ ← next; reference first.line name
    | _ =>
      let (anchor, tag) ← properties
      let line := first.line + 1
      let t ← peek
      match t.kind with
      | .scalar style text =>
        let number ← register anchor
        let _ ← next
        keep number
          (.scalar line (tagOr tag (scalarTag style text)) (utf8 (String.ofList text)))
      | .flowSequenceStart =>
        let number ← register anchor
        let _ ← next
        keep number (.sequence line (tagOr tag .seq) (← flowItems [] fuel))
      | .flowMappingStart =>
        let number ← register anchor
        let _ ← next
        keep number (.mapping line (tagOr tag .map) (← flowEntries [] fuel))
      | kind =>
        if kind = .blockEntry ∧ indentless then
          let number ← register anchor
          keep number (.sequence line (tagOr tag .seq) (← indentlessItems [] fuel))
        else if kind = .blockSequenceStart ∧ block then
          let number ← register anchor
          let _ ← next
          keep number (.sequence line (tagOr tag .seq) (← blockItems [] fuel))
        else if kind = .blockMappingStart ∧ block then
          let number ← register anchor
          let _ ← next
          keep number (.mapping line (tagOr tag .map) (← blockEntries [] fuel))
        -- an anchor or a tag with nothing after it is an empty value
        else if anchor.isSome || tag.isSome then
          keep (← register anchor) (.scalar line (tagOr tag .null) [])
        else failure

def nodeOr (block indentless : Bool) (absent : List TokenKind) (line : Nat) :
    (fuel : Nat) → Build Node
  | 0 => failure
  | fuel + 1 => do
    if absent.contains (← peek).kind then return .absent line else node block indentless fuel

def blockItems (items : List Node) : (fuel : Nat) → Build (List Node)
  | 0 => failure
  | fuel + 1 => do
    let t ← next
    match t.kind with
    | .blockEntry =>
      let item ← nodeOr true false [.blockEntry, .blockEnd] t.line fuel
      blockItems (item :: items) fuel
    | .blockEnd => return items.reverse
    | _ => failure

def indentlessItems (items : List Node) : (fuel : Nat) → Build (List Node)
  | 0 => failure
  | fuel + 1 => do
    match (← peek).kind with
    | .blockEntry =>
      let t ← next
      let item ← nodeOr true false [.blockEntry, .key, .value, .blockEnd] t.line fuel
      indentlessItems (item :: items) fuel
    | _ => return items.reverse

def blockEntries (entries : List (Node × Node)) : (fuel : Nat) → Build (List (Node × Node))
  | 0 => failure
  | fuel + 1 => do
    let t ← next
    match t.kind with
    | .key =>
      let key ← nodeOr true true [.key, .value, .blockEnd] t.line fuel
      let v ← peek
      let value ← match v.kind with
        | .value => do
          let _ ← next
          nodeOr true true [.key, .value, .blockEnd] v.line fuel
        | _ => pure (.absent v.line)
      blockEntries ((key, value) :: entries) fuel
    | .blockEnd => return entries.reverse
    | _ => failure

def flowItems (items : List Node) : (fuel : Nat) → Build (List Node)
  | 0 => failure
  | fuel + 1 => do
    if (← peek).kind ≠ .flowSequenceEnd && !items.isEmpty then
      if (← next).kind ≠ .flowEntry then failure
    let t ← peek
    match t.kind with
    | .flowSequenceEnd =>
      let _ ← next
      return items.reverse
    | .key =>
      let _ ← next
      let k ← peek
      let key ← if [.value, .flowEntry, .flowSequenceEnd].contains k.kind then do
          let _ ← next
          pure (.absent k.line)
        else node false false fuel
      let v ← peek
      let value ← match v.kind with
        | .value => do
          let _ ← next
          nodeOr false false [.flowEntry, .flowSequenceEnd] v.line fuel
        | _ => pure (.absent v.line)
      flowItems (.mapping (t.line + 1) .map [(key, value)] :: items) fuel
    | _ =>
      let item ← node false false fuel
      flowItems (item :: items) fuel

def flowEntries (entries : List (Node × Node)) : (fuel : Nat) → Build (List (Node × Node))
  | 0 => failure
  | fuel + 1 => do
    if (← peek).kind ≠ .flowMappingEnd && !entries.isEmpty then
      if (← next).kind ≠ .flowEntry then failure
    let t ← peek
    match t.kind with
    | .flowMappingEnd =>
      let _ ← next
      return entries.reverse
    | .key =>
      let _ ← next
      let k ← peek
      let key ← nodeOr false false [.value, .flowEntry, .flowMappingEnd] k.line fuel
      let v ← peek
      let value ← match v.kind with
        | .value => do
          let _ ← next
          nodeOr false false [.flowEntry, .flowMappingEnd] v.line fuel
        | _ => pure (.absent v.line)
      flowEntries ((key, value) :: entries) fuel
    | _ =>
      let key ← node false false fuel
      flowEntries ((key, .absent (← peek).line) :: entries) fuel

end

def standardHandles : List (Text × Text) :=
  [(utf8 "!", utf8 "!"), (utf8 "!!", utf8 "tag:yaml.org,2002:")]

/-- Reads directives. The version may be given once, and must be 1.1; the meaning of a handle may
be given once. The result tells whether there are any. -/
def directives (versioned : Bool) : (fuel : Nat) → Build Bool
  | 0 => failure
  | fuel + 1 => do
    match (← peek).kind with
    | .directive (.version major minor) =>
      let _ ← next
      if versioned || major ≠ 1 || minor ≠ 1 then failure
      else let _ ← directives true fuel; return true
    | .directive (.handle name expansion) =>
      let _ ← next
      if ((← get).handles.lookup name).isSome then failure
      else
        modify fun b => { b with handles := (name, expansion) :: b.handles }
        let _ ← directives versioned fuel
        return true
    | _ => return false

def root (fuel : Nat) : Build (Option Node) := do
  let directed ← directives false fuel
  modify fun b => { b with handles := b.handles ++ standardHandles }
  let t ← peek
  match t.kind with
  | .streamEnd => if directed then failure else return none
  | .documentStart =>
    let _ ← next
    match (← peek).kind with
    | .directive _ | .documentStart | .documentEnd | .streamEnd => return some (.absent t.line)
    | _ => return some (← node true false fuel)
  | _ => if directed then failure else return some (← node true false fuel)

def document (fuel : Nat) : Build (Option Document) := do
  match ← root fuel with
  | none => return none
  | some root =>
    let _ ← peek
    return some ⟨root, (← get).anchored⟩

end Build

/-- The first document of a text: nothing if it is malformed, and no document if the text is
empty. -/
def read? (text : Text) : Option (Option Document) := do
  let scan := Scan.start text
  let fuel := 12 * scan.cursor.left + 16
  let (document, _) ← (Build.document fuel).run ⟨scan, [], #[], 0, []⟩
  return document

end ExprCalc.Yaml
