import Intake.Yaml.Token

set_option autoImplicit false

/-!
The document of a YAML text. Tokens become nodes, and aliases the nodes that they stand for.
-/

namespace Intake.Yaml

structure Reader where
  tokens : List Token
  /-- The handles of tags and what they stand for. -/
  handles : List (String × String) := []
  /-- The anchors, the latest first, with the numbers of their nodes. -/
  anchors : List (String × Nat) := []
  /-- The nodes that have an anchor, with their numbers. -/
  nodes : List (Nat × Node) := []
  deriving Inhabited

abbrev Reading (α : Type) : Type := StateT Reader Option α

namespace Reader

def peek : Reading (Option Token) := do return (← get).tokens.head?

def skip : Reading Unit := modify fun r => { r with tokens := r.tokens.tail }

/-- Passes over the next token if it is the given one, and says whether it is. -/
def skipIf (t : Token) : Reading Bool := do
  if (← peek) = some t then
    skip
    return true
  else return false

def expect (t : Token) : Reading Unit := do
  if ← skipIf t then return () else failure

def nextIn (ts : List Token) : Reading Bool := do return (← peek).any ts.contains

def blank : Node := .scalar none .plain ""

def tagOf (t : TagText) : Reading String := do
  if t.handle.isEmpty then return t.suffix
  else match (← get).handles.lookup t.handle with
    | some stem => return stem ++ t.suffix
    | none => failure

/-- Reads an anchor, if there is one; the node behind it gets a number. -/
def anchor : Reading (Option Nat) := do
  match ← peek with
  | some (.anchor name) =>
    skip
    let r ← get
    set { r with anchors := (name, r.anchors.length) :: r.anchors }
    return some r.anchors.length
  | _ => return none

def tag : Reading (Option TagText) := do
  match ← peek with
  | some (.tag t) =>
    skip
    return some t
  | _ => return none

def properties : Reading (Option Nat × Option String) := do
  let before ← anchor
  let t ← tag
  let number ← if before.isNone && t.isSome then anchor else pure before
  return (number, ← t.mapM tagOf)

mutual

/-- Reads a node. Only where blocks may stand are they looked for, and only behind a key may a
sequence stand without indentation. -/
def node (inBlock flat : Bool) : (fuel : Nat) → Reading Node
  | 0 => failure
  | fuel + 1 => do
    match ← peek with
    | some (.alias name) =>
      skip
      match (← get).anchors.lookup name with
      | some number => return .alias number
      | none => failure
    | _ =>
      let (number, tag) ← properties
      let node ← content inBlock flat tag (number.isSome || tag.isSome) fuel
      if let some n := number then modify fun r => { r with nodes := (n, node) :: r.nodes }
      return node

def content (inBlock flat : Bool) (tag : Option String) (mayBeBlank : Bool) :
    (fuel : Nat) → Reading Node
  | 0 => failure
  | fuel + 1 => do
    match ← peek with
    | some (.scalar style text) =>
      skip
      return .scalar (if tag = some "!" then none else tag) style text
    | some .flowSequenceStart =>
      skip
      return .sequence tag (← flowItems true fuel)
    | some .flowMappingStart =>
      skip
      return .mapping tag (← flowPairs true fuel)
    | t =>
      if flat && t = some .blockEntry then return .sequence tag (← flatItems fuel)
      else if inBlock && t = some .blockSequenceStart then
        skip
        return .sequence tag (← blockItems fuel)
      else if inBlock && t = some .blockMappingStart then
        skip
        return .mapping tag (← blockPairs fuel)
      else if mayBeBlank then return .scalar tag .plain ""
      else failure

/-- Reads a node of a block, or none if one of some tokens is next. -/
def nodeUnless (ts : List Token) (inBlock flat : Bool) : (fuel : Nat) → Reading Node
  | 0 => failure
  | fuel + 1 => do if ← nextIn ts then return blank else node inBlock flat fuel

def blockItems : (fuel : Nat) → Reading (List Node)
  | 0 => failure
  | fuel + 1 => do
    if ← skipIf .blockEntry then
      let item ← nodeUnless [.blockEntry, .blockEnd] true false fuel
      return item :: (← blockItems fuel)
    else
      expect .blockEnd
      return []

def flatItems : (fuel : Nat) → Reading (List Node)
  | 0 => failure
  | fuel + 1 => do
    if ← skipIf .blockEntry then
      let item ← nodeUnless [.blockEntry, .key, .value, .blockEnd] true false fuel
      return item :: (← flatItems fuel)
    else return []

def valueUnless (ts : List Token) (inBlock : Bool) : (fuel : Nat) → Reading Node
  | 0 => failure
  | fuel + 1 => do
    if ← skipIf .value then nodeUnless ts inBlock inBlock fuel else return blank

def blockPairs : (fuel : Nat) → Reading (List (Node × Node))
  | 0 => failure
  | fuel + 1 => do
    if ← skipIf .key then
      let ends := [Token.key, .value, .blockEnd]
      let key ← nodeUnless ends true true fuel
      let value ← valueUnless ends true fuel
      return (key, value) :: (← blockPairs fuel)
    else
      expect .blockEnd
      return []

/-- Reads the items between brackets and the closing one. An item with a key is a mapping of one
pair. -/
def flowItems (first : Bool) : (fuel : Nat) → Reading (List Node)
  | 0 => failure
  | fuel + 1 => do
    if ← skipIf .flowSequenceEnd then return []
    if !first then expect .flowEntry
    if ← skipIf .key then
      let key ← nodeUnless [.value, .flowEntry, .flowSequenceEnd] false false fuel
      let value ← valueUnless [.flowEntry, .flowSequenceEnd] false fuel
      return .mapping none [(key, value)] :: (← flowItems false fuel)
    else if ← skipIf .flowSequenceEnd then return []
    else
      let item ← node false false fuel
      return item :: (← flowItems false fuel)

def flowPairs (first : Bool) : (fuel : Nat) → Reading (List (Node × Node))
  | 0 => failure
  | fuel + 1 => do
    if ← skipIf .flowMappingEnd then return []
    if !first then expect .flowEntry
    if ← skipIf .key then
      let key ← nodeUnless [.value, .flowEntry, .flowMappingEnd] false false fuel
      let value ← valueUnless [.flowEntry, .flowMappingEnd] false fuel
      return (key, value) :: (← flowPairs false fuel)
    else if ← skipIf .flowMappingEnd then return []
    else
      let key ← node false false fuel
      return (key, blank) :: (← flowPairs false fuel)

end

/-- The directives in front of a document: at most one version, which is supported, and for each
handle at most one meaning. -/
def directives (versioned : Bool) : (fuel : Nat) → Reading Unit
  | 0 => failure
  | fuel + 1 => do
    match ← peek with
    | some (.directive (.version major minor)) =>
      if versioned || major ≠ 1 || (minor ≠ 1 && minor ≠ 2) then failure
      skip
      directives true fuel
    | some (.directive (.tag handle stem)) =>
      if ((← get).handles.lookup handle).isSome then failure
      skip
      modify fun r => { r with handles := (handle, stem) :: r.handles }
      directives versioned fuel
    | _ => return ()

def standardHandles : Reading Unit :=
  modify fun r => { r with handles := r.handles ++ [("!", "!"), ("!!", "tag:yaml.org,2002:")] }

def document (fuel : Nat) : Reading Node := do
  let isExplicit : Bool := match ← peek with
    | some (.directive _) => true
    | some .documentStart => true
    | _ => false
  let root ←
    if isExplicit then
      directives false fuel
      standardHandles
      expect .documentStart
      match ← peek with
      | none | some (.directive _) => pure blank
      | _ => nodeUnless [.documentStart, .documentEnd] true false fuel
    else
      standardHandles
      node true false fuel
  let _ ← skipIf .documentEnd
  return root

/-- Passes over the markers behind a document; nothing else may be there. -/
def finish : Reading Unit := do
  let rest := (← get).tokens.dropWhile (· = .documentEnd)
  if rest.isEmpty then return () else failure

end Reader

namespace Node

def maxDepth : Nat := 128

/-- The node that an alias stands for, or the node itself. Every alias takes one of a number of
turns; when none is left, aliases stay. -/
def target (nodes : List (Nat × Node)) (node : Node) : StateM Nat Node := do
  match node with
  | .alias number =>
    match nodes.lookup number, ← get with
    | some node, turns + 1 =>
      set turns
      return node
    | _, _ => return node
  | _ => return node

mutual

/-- Puts nodes in the place of aliases, down to a depth. A container below that becomes an alias,
which nobody can read. -/
def expand (nodes : List (Nat × Node)) (depth : Nat) (node : Node) : StateM Nat Node := do
  let node ← target nodes node
  match depth, node with
  | depth + 1, .sequence tag items => return .sequence tag (← expandItems nodes depth items)
  | depth + 1, .mapping tag entries => return .mapping tag (← expandEntries nodes depth entries)
  | _, .scalar tag style text => return .scalar tag style text
  | _, _ => return .alias 0
  termination_by (depth, 0)

def expandItems (nodes : List (Nat × Node)) (depth : Nat) : List Node → StateM Nat (List Node)
  | [] => pure []
  | item :: items => do
    return (← expand nodes depth item) :: (← expandItems nodes depth items)
  termination_by items => (depth, items.length + 1)

def expandEntries (nodes : List (Nat × Node)) (depth : Nat) :
    List (Node × Node) → StateM Nat (List (Node × Node))
  | [] => pure []
  | (key, value) :: entries => do
    return (← expand nodes depth key, ← expand nodes depth value)
      :: (← expandEntries nodes depth entries)
  termination_by entries => (depth, entries.length + 1)

end

/-- The one document of a text; a text without a document counts as an empty one. -/
def ofText? (text : List Char) : Option Node := do
  let tokens ← Token.ofText? text
  if tokens.isEmpty then return Reader.blank
  else
    let reading : Reading Node := do
      let root ← Reader.document (8 * tokens.length + 8)
      Reader.finish
      return root
    let (root, r) ← reading.run { tokens }
    return (StateT.run (root.expand r.nodes maxDepth) (100 * tokens.length)).1

end Node

end Intake.Yaml
