import Keeper.Value.Slots
import Keeper.Yaml.Node

/-!
# Keeper — the value of a YAML document

The value a document stands for. It is made in rounds: a scalar is made where it is met, and a
sequence or mapping is put in a queue and filled later, so that it can be referred to before it is
done. A mapping may take over the entries of others: they come first, and its own entries, and those
of the mappings named earlier, win over them.

* **`Build`** — the nodes, the things made from them so far, and the queue.
* **`Build.flatten`** — lets a mapping take over the entries it names.
* **`Build.fill`** — fills the first thing of the queue.
* **`read`** — the value of a text; a text without a document is null.
-/

namespace Keeper.Yaml

/-- What has been made from a node. Parts are given by the places of their nodes. -/
inductive Made where
  | scalar (s : Scalar)
  | list (items : List Nat)
  | map (entries : List (Scalar × Nat))
  | set (members : List Scalar)
  /-- A list of rows of a key and a value. -/
  | rows (rows : List (Nat × Nat))
deriving Repr, Inhabited

/-- The state of making values: the nodes, what has been made from them, and what is to be
filled. -/
structure Build where
  graph : Graph
  made : Array (Option Made)
  queue : List Nat := []

/-- Makes values. -/
abbrev Making := StateT Build (Except Fault)

namespace Build

def node (place : Nat) : Making Node := do return (← get).graph.node place

def entries? (place : Nat) : Making (Option (List (Nat × Nat))) := do
  match (← node place).content with
  | .mapping entries => return some entries
  | _ => return none

def setEntries (place : Nat) (entries : List (Nat × Nat)) : Making Unit :=
  modify fun b => { b with
    graph := b.graph.modify place fun n => { n with content := .mapping entries } }

def setKind (place : Nat) (kind : Kind) : Making Unit :=
  modify fun b => { b with graph := b.graph.modify place fun n => { n with kind := some kind } }

def setMade (place : Nat) (m : Made) : Making Unit :=
  modify fun b => { b with made := b.made.setIfInBounds place (some m) }

/-! ## Entries taken over from other mappings -/

mutual

/-- Lets a mapping take over the entries it names, from the entry at an index on; `taken`
are those found so far. A key that names none any more says what it stands for itself. -/
def flattenFrom (place : Nat) : (fuel index : Nat) → (taken : List (Nat × Nat)) → Making Unit
  | 0, _, _ => throw .document
  | fuel + 1, index, taken => do
    let entries := (← entries? place).getD []
    match entries[index]? with
    | none => if !taken.isEmpty then setEntries place (taken ++ entries)
    | some (key, value) =>
      match (← node key).kind with
      | some .merge => do
        setEntries place (entries.eraseIdx index)
        match (← node value).content with
        | .mapping _ => do
          let more ← flattened value fuel
          flattenFrom place fuel index (taken ++ more)
        | .sequence items => do
          let parts ← flattenedAll items fuel
          flattenFrom place fuel index (taken ++ parts.reverse.flatten)
        | .scalar _ => throw .document
      | some .default => do
        setKind key .text
        flattenFrom place fuel (index + 1) taken
      | _ => flattenFrom place fuel (index + 1) taken

/-- The entries of a mapping that has taken over what it names. -/
def flattened (place : Nat) : (fuel : Nat) → Making (List (Nat × Nat))
  | 0 => throw .document
  | fuel + 1 => do
    match ← entries? place with
    | none => throw .document
    | some _ => do
      flattenFrom place fuel 0 []
      return (← entries? place).getD []

def flattenedAll : List Nat → (fuel : Nat) → Making (List (List (Nat × Nat)))
  | _, 0 => throw .document
  | [], _ => return []
  | place :: rest, fuel + 1 => do
    let entries ← flattened place fuel
    return entries :: (← flattenedAll rest fuel)

end

/-- Steps that are enough to go through all entries that can be taken over. -/
def flattenFuel : Nat := 10000000

def flatten (place : Nat) : Making (List (Nat × Nat)) := flattened place flattenFuel

/-! ## Scalars -/

/-- The text of a scalar. A mapping stands for the text of the value it gives. -/
def textOf (g : Graph) : (fuel place : Nat) → Except Fault Text
  | 0, _ => .error (.misuse .tooDeep)
  | fuel + 1, place =>
    match (g.node place).content with
    | .scalar text => .ok text
    | .sequence _ => malformed
    | .mapping entries =>
      match entries.find? fun (key, _) => (g.node key).kind = some .default with
      | some (_, value) => textOf g fuel value
      | none => malformed

/-- The scalar of a kind that a node stands for. A date is looked for in the text of the
node itself. -/
def scalarOf (g : Graph) (kind : Kind) (place : Nat) : Except Fault Scalar := do
  let text ← textOf g (g.size + 1) place
  match kind, (g.node place).content with
  | .moment, .mapping _ => throw (.misuse .wrongType)
  | _, _ => kind.value text

/-! ## Making and filling -/

/-- What a node becomes when it is met: a scalar, or something that is filled later. -/
def begin (place : Nat) : Making Unit := do
  if ((← get).made.getD place none).isSome then return ()
  let enqueue (m : Made) : Making Unit := do
    setMade place m
    modify fun b => { b with queue := b.queue ++ [place] }
  match (← node place).kind with
  | none => throw .document
  | some .sequence => enqueue (.list [])
  | some .mapping => enqueue (.map [])
  | some .set => enqueue (.set [])
  | some .pairs => enqueue (.rows [])
  | some kind => setMade place (.scalar (← scalarOf (← get).graph kind place))

/-- The scalar that has been made from a node, as the key of a mapping. -/
def keyOf (place : Nat) : Making Scalar := do
  match (← get).made.getD place none with
  | some (.scalar s) => return s
  | _ => throw .document

/-- Puts a key and the place of its value among entries: in place if the key is there,
else at the end. -/
def setEntry (key : Scalar) (value : Nat) : List (Scalar × Nat) → List (Scalar × Nat)
  | [] => [(key, value)]
  | (k, v) :: rest => if k.same key then (k, value) :: rest else (k, v) :: setEntry key value rest

def entriesOf (place : Nat) : Making (List (Scalar × Nat)) := do
  (← flatten place).foldlM (fun made (key, value) => do
    begin key
    let key ← keyOf key
    begin value
    return setEntry key value made) []

def rowsOf (items : List Nat) : Making (List (Nat × Nat)) :=
  items.mapM fun item => do
    match ← entries? item with
    | some [(key, value)] => do
      begin key
      begin value
      return (key, value)
    | _ => throw .document

/-- Fills what has been begun from a node. -/
def fill (place : Nat) : Making Unit := do
  let n ← node place
  match n.kind, n.content with
  | some .sequence, .sequence items => do
    items.forM begin
    setMade place (.list items)
  | some .mapping, .mapping _ => do setMade place (.map (← entriesOf place))
  | some .set, .mapping _ => do setMade place (.set (Slots.listed ((← entriesOf place).map (·.1))))
  | some .pairs, .sequence items => do setMade place (.rows (← rowsOf items))
  | _, _ => throw .document

/-- Fills everything in the queue; every node is put there at most once. -/
def fillAll : (fuel : Nat) → Making Unit
  | 0 => return ()
  | fuel + 1 => do
    match (← get).queue with
    | [] => return ()
    | place :: rest => do
      modify fun b => { b with queue := rest }
      fill place
      fillAll fuel

/-! ## Values -/

/-- The value made from a node, `above` being the nodes it is a part of. -/
def value (b : Build) (above : List Nat) : (fuel place : Nat) → Value
  | 0, _ => .endless
  | fuel + 1, place =>
    if above.contains place then .endless
    else
      let part (p : Nat) : Value := value b (place :: above) fuel p
      match b.made.getD place none with
      | none => .null
      | some (.scalar s) => .scalar s
      | some (.list items) => .list (items.map part)
      | some (.map entries) => .map (entries.map fun (k, v) => (k, part v))
      | some (.set members) => .set members
      | some (.rows rows) => .list (rows.map fun (k, v) => .tuple [part k, part v])

def run (graph : Graph) (top : Nat) : Except Fault Value := do
  let make : Making Unit := do
    begin top
    fillAll (graph.size + 1)
  let (_, b) ← make.run { graph, made := .replicate graph.size none }
  return b.value [] (graph.size + 1) top

end Build

def read (supply : Supply) : Except Fault Value := do
  match ← Graph.ofSupply supply with
  | (graph, some top) => Build.run graph top
  | (_, none) => return .null

end Keeper.Yaml
