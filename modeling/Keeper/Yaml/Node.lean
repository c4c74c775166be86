import Keeper.Yaml.Kind
import Keeper.Yaml.Token

/-!
# Keeper — the nodes of a YAML document

What a document describes: nodes that refer to each other by their places. An alias stands for the
node its anchor marks, so a node can have several parents, and can even be below itself.

* **`Node`** — a scalar, sequence or mapping, and what kind of value it is said to be.
* **`Graph`** — the nodes of a document.
* **`Graph.ofSupply`** — the nodes of the only document of a text, and the place of its top.
-/

namespace Keeper.Yaml

/-- What a node is made of; nodes are given by their places. -/
inductive Content where
  | scalar (text : Text)
  | sequence (items : List Nat)
  | mapping (entries : List (Nat × Nat))
deriving Repr, Inhabited

/-- A node. It has no kind when neither its tag nor its text says one that has values. -/
structure Node where
  kind : Option Kind
  content : Content
deriving Repr, Inhabited

abbrev Graph := Array Node

namespace Graph

def node (g : Graph) (place : Nat) : Node := g.getD place default

end Graph

/-- The state of reading: tokens and what lies behind them, the handles of tags, the
nodes, and those that anchors mark. -/
structure Source where
  tokens : List Token
  flaw : Option Fault
  handles : List (String × String) := []
  graph : Graph := #[]
  anchors : List (String × Nat) := []

abbrev Reading := StateT Source (Except Fault)

namespace Reading

/-- The next token; there is one until a flaw is met. -/
def peek : Reading Token := do
  let s ← get
  match s.tokens, s.flaw with
  | t :: _, _ => return t
  | [], some flaw => throw flaw
  | [], none => return .streamEnd

def skip : Reading Unit := modify fun s => { s with tokens := s.tokens.tail }

def accept (t : Token) : Reading Bool := do
  if (← peek) = t then
    skip
    return true
  else return false

def expect (t : Token) : Reading Unit := do
  if !(← accept t) then throw .document

def add (anchor : Option String) (kind : Option Kind) (content : Content) : Reading Nat := do
  let place := (← get).graph.size
  modify fun s => { s with
    graph := s.graph.push ⟨kind, content⟩
    anchors := (anchor.map fun name => (name, place)).toList ++ s.anchors }
  return place

/-- Gives a node the parts it is made of. -/
def fill (place : Nat) (content : Content) : Reading Nat := do
  modify fun s => { s with graph := s.graph.modify place fun n => { n with content } }
  return place

/-- A node of which nothing is written. -/
def blank : Reading Nat := add none (implicitKind "") (.scalar "")

def knownHandles : List (String × String) := [("!", "!"), ("!!", "tag:yaml.org,2002:")]

def fullTag (t : WrittenTag) : Reading String := do
  match t.handle with
  | none => return t.suffix
  | some handle =>
    match (← get).handles.lookup handle with
    | some tagPrefix => return tagPrefix ++ t.suffix
    | none => throw .document

/-- What may stand before a node: an anchor and a tag, in either order. -/
def properties : Reading (Option String × Option WrittenTag) := do
  match ← peek with
  | .anchor name => do
    skip
    match ← peek with
    | .tag t => do skip; return (some name, some t)
    | _ => return (some name, none)
  | .tag t => do
    skip
    match ← peek with
    | .anchor name => do skip; return (some name, some t)
    | _ => return (none, some t)
  | _ => return (none, none)

def isOpen (tag : Option String) : Bool := tag.isNone || tag = some "!"

/-- The kind of a node with a tag, `otherwise` being the kind of one without. -/
def kindOf (tag : Option String) (otherwise : Option Kind) : Option Kind :=
  if isOpen tag then otherwise else tag.bind Kind.ofTag?

def sees (ts : List Token) : Reading Bool := do return ts.contains (← peek)

end Reading

open Reading

namespace Node

def depthLimit : Nat := 487

mutual

/-- A node at a depth. In a block it may be a sequence or mapping shown by indentation;
behind a key a sequence may even stand at the key's own indentation. -/
def read (depth : Nat) (inBlock atKey : Bool) : Nat → Reading Nat
  | 0 => throw .document
  | fuel + 1 => do
    if depthLimit < depth then throw (.misuse .tooDeep)
    match ← peek with
    | .alias name => do
      skip
      match (← get).anchors.lookup name with
      | some place => return place
      | none => throw .document
    | _ => do
      let (anchor, written) ← properties
      let tag ← match written with
        | some t => do pure (some (← fullTag t))
        | none => pure none
      let next ← peek
      let isBlank ← match next with
        | .scalar _ _ | .bracketOpen | .braceOpen => pure false
        | .sequenceStart | .mappingStart => if inBlock then pure false else throw .document
        | .entry => if atKey then pure false else pure true
        | _ => pure true
      if isBlank && anchor.isNone && tag.isNone then throw .document
      let marked := (← get).anchors
      if anchor.any fun name => (marked.lookup name).isSome then throw .document
      if isBlank then add anchor (kindOf tag (implicitKind "")) (.scalar "")
      else
        match next with
        | .scalar text plain => do
          skip
          let implicit := (plain && tag.isNone) || tag = some "!"
          add anchor (kindOf tag (if implicit then implicitKind text else some .text)) (.scalar text)
        | .bracketOpen => do
          skip
          let place ← add anchor (kindOf tag (some .sequence)) (.sequence [])
          fill place (.sequence (← readFlowItems (depth + 1) true fuel))
        | .braceOpen => do
          skip
          let place ← add anchor (kindOf tag (some .mapping)) (.mapping [])
          fill place (.mapping (← readFlowEntries (depth + 1) true fuel))
        | .mappingStart => do
          skip
          let place ← add anchor (kindOf tag (some .mapping)) (.mapping [])
          fill place (.mapping (← readEntries (depth + 1) fuel))
        | _ => do
          let bounded ← accept .sequenceStart
          let place ← add anchor (kindOf tag (some .sequence)) (.sequence [])
          let items ← readItems (depth + 1) fuel
          if bounded then expect .blockEnd
          fill place (.sequence items)
termination_by structural fuel => fuel

/-- The node behind a mark, or a blank one when a token shows that there is none. -/
def readUnless (ends : List Token) (depth : Nat) (inBlock atKey : Bool) : Nat → Reading Nat
  | 0 => throw .document
  | fuel + 1 => do
    if ← sees ends then blank else read depth inBlock atKey fuel
termination_by structural fuel => fuel

def readItems (depth : Nat) : Nat → Reading (List Nat)
  | 0 => throw .document
  | fuel + 1 => do
    if ← accept .entry then
      let item ← readUnless [.entry, .key, .value, .blockEnd] depth true false fuel
      return item :: (← readItems depth fuel)
    else return []
termination_by structural fuel => fuel

def readEntries (depth : Nat) : Nat → Reading (List (Nat × Nat))
  | 0 => throw .document
  | fuel + 1 => do
    let ends := [.key, .value, .blockEnd]
    if ← accept .blockEnd then return []
    expect .key
    let k ← readUnless ends depth true true fuel
    let v ← if ← accept .value then readUnless ends depth true true fuel else blank
    return (k, v) :: (← readEntries depth fuel)
termination_by structural fuel => fuel

/-- The items of a sequence in brackets; an item may be a mapping with one entry. -/
def readFlowItems (depth : Nat) (first : Bool) : Nat → Reading (List Nat)
  | 0 => throw .document
  | fuel + 1 => do
    if ← accept .bracketClose then return []
    if !first then
      expect .comma
      if ← accept .bracketClose then return []
    if ← accept .key then
      if depthLimit < depth then throw (.misuse .tooDeep)
      let place ← add none (some .mapping) (.mapping [])
      let k ← readUnless [.value, .comma, .bracketClose] (depth + 1) false false fuel
      let v ← if ← accept .value then
          readUnless [.comma, .bracketClose] (depth + 1) false false fuel
        else blank
      let item ← fill place (.mapping [(k, v)])
      return item :: (← readFlowItems depth false fuel)
    else
      let item ← read depth false false fuel
      return item :: (← readFlowItems depth false fuel)
termination_by structural fuel => fuel

def readFlowEntries (depth : Nat) (first : Bool) : Nat → Reading (List (Nat × Nat))
  | 0 => throw .document
  | fuel + 1 => do
    if ← accept .braceClose then return []
    if !first then
      expect .comma
      if ← accept .braceClose then return []
    if ← accept .key then
      let k ← readUnless [.value, .comma, .braceClose] depth false false fuel
      let v ← if ← accept .value then readUnless [.comma, .braceClose] depth false false fuel
        else blank
      return (k, v) :: (← readFlowEntries depth false fuel)
    else
      let k ← read depth false false fuel
      let v ← blank
      return (k, v) :: (← readFlowEntries depth false fuel)
termination_by structural fuel => fuel

end

end Node

/-- The directives before a document; a version and the handle of a tag are given only
once. -/
def readDirectives (versioned : Bool) : Nat → Reading Unit
  | 0 => throw .document
  | fuel + 1 => do
    match ← peek with
    | .version major => do
      if versioned || major ≠ 1 then throw .document
      skip
      readDirectives true fuel
    | .tagDirective handle tagPrefix => do
      if ((← get).handles.lookup handle).isSome then throw .document
      skip
      modify fun s => { s with handles := (handle, tagPrefix) :: s.handles }
      readDirectives versioned fuel
    | .otherDirective => do
      skip
      readDirectives versioned fuel
    | _ => modify fun s => { s with handles := s.handles ++ knownHandles }

def skipEnds : Nat → Reading Unit
  | 0 => throw .document
  | fuel + 1 => do if ← accept .documentEnd then skipEnds fuel

/-- The top of the only document of a text; nothing if the text has none. -/
def readDocument (fuel : Nat) : Reading (Option Nat) := do
  let isDirective : Token → Bool
    | .version _ | .tagDirective _ _ | .otherDirective => true
    | _ => false
  let explicit := isDirective (← peek) || (← sees [.documentStart])
  if ← sees [.streamEnd] then return none
  let top ← if explicit then do
      readDirectives false fuel
      expect .documentStart
      let next ← peek
      if isDirective next || [.documentStart, .documentEnd, .streamEnd].contains next then blank
      else Node.read 0 true false fuel
    else do
      modify fun s => { s with handles := knownHandles }
      Node.read 0 true false fuel
  skipEnds fuel
  expect .streamEnd
  return some top

/-- The nodes of the only document of a text and the place of its top, if it has one. -/
def Graph.ofSupply (supply : Supply) : Except Fault (Graph × Option Nat) := do
  let ts := tokens supply
  let fuel := 4 * ts.before.length + 8
  let (top, s) ← (readDocument fuel).run { tokens := ts.before, flaw := ts.flaw }
  return (s.graph, top)

end Keeper.Yaml
