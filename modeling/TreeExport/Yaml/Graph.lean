import TreeExport.Yaml.Stream
import TreeExport.Yaml.Tag

/-!
The nodes of a document. An alias stands for the node of its anchor, so nodes may be shared and may hold
themselves; they are numbered in the order in which they start.
-/

namespace TreeExport

namespace Yaml

inductive Content where
  | scalar (text : String)
  | sequence (items : List Nat)
  | mapping (entries : List (Nat × Nat))
  deriving Inhabited

structure Node where
  tag : Tag
  content : Content

structure Graph where
  nodes : Array Node
  root : Nat

namespace Graph

structure Draft where
  ahead : List Token
  fault : Option Error
  handles : List (String × String)
  nodes : Array Node
  anchors : List (String × Nat)

abbrev Reading := StateT Draft (Except Error)

def peek : Reading Token := do
  match (← get).ahead with
  | token :: _ => return token
  | [] => throw ((← get).fault.getD .malformed)

def advance : Reading Unit :=
  modify fun draft => { draft with ahead := draft.ahead.drop 1 }

def accept (token : Token) : Reading Bool := do
  if (← peek) = token then advance; return true else return false

def expect (token : Token) : Reading Unit := do
  unless ← accept token do throw .malformed

def addNode (node : Node) : Reading Nat := do
  let draft ← get
  set { draft with nodes := draft.nodes.push node }
  return draft.nodes.size

def fillNode (number : Nat) (content : Content) : Reading Unit :=
  modify fun draft => { draft with
    nodes := draft.nodes.modify number fun node => { node with content } }

/-- Names a node for aliases. A name is given once. -/
def nameNode (anchor : Option String) (number : Nat) : Reading Unit := do
  match anchor with
  | none => return
  | some name =>
    if (← get).anchors.any fun entry => entry.1 == name then throw .malformed
    modify fun draft => { draft with anchors := (name, number) :: draft.anchors }

def namedNode (name : String) : Reading Nat := do
  match (← get).anchors.lookup name with
  | some number => return number
  | none => throw .malformed

def emptyNode : Reading Nat := addNode ⟨.null, .scalar ""⟩

def readAnchor? : Reading (Option String) := do
  match ← peek with
  | .anchor name => advance; return some name
  | _ => return none

def readTag? : Reading (Option String) := do
  match ← peek with
  | .tag handle suffix =>
    advance
    match handle with
    | none => return some suffix
    | some handle =>
      match (← get).handles.lookup handle with
      | some start => return some (start ++ suffix)
      | none => throw .malformed
  | _ => return none

def readProperties : Reading (Option String × Option String) := do
  match ← readAnchor? with
  | some anchor => return (some anchor, ← readTag?)
  | none =>
    let tag ← readTag?
    let anchor ← if tag.isSome then readAnchor? else pure none
    return (anchor, tag)

def collectionTag (usual : Tag) (written : Option String) : Tag :=
  match written with
  | none => usual
  | some name => if name = "!" then usual else .ofName name

def scalarTag (text : String) (plain : Bool) (written : Option String) : Tag :=
  match written with
  | none => if plain then .ofPlain text else .string
  | some name => if name = "!" then .ofPlain text else .ofName name

def addScalar (anchor written : Option String) (text : String) (plain : Bool) : Reading Nat := do
  let number ← addNode ⟨scalarTag text plain written, .scalar text⟩
  nameNode anchor number
  return number

/-- Adds the node of a collection, which may hold itself, and fills it in. -/
def addCollection (anchor written : Option String) (usual : Tag) (fill : Reading Content) :
    Reading Nat := do
  let number ← addNode ⟨collectionTag usual written, .sequence []⟩
  nameNode anchor number
  fillNode number (← fill)
  return number

/-- Where a node may stand: inside brackets only flow collections are read, and behind a key a
sequence need not be indented. -/
inductive Place where
  | flow
  | block
  | behindKey
  deriving DecidableEq

mutual

def readNode (place : Place) : (fuel : Nat) → Reading Nat
  | 0 => throw .malformed
  | fuel + 1 => do
    match ← peek with
    | .alias name => advance; namedNode name
    | _ =>
      let (anchor, tag) ← readProperties
      match ← peek with
      | .scalar text plain => advance; addScalar anchor tag text plain
      | .flowSequenceStart =>
        advance
        addCollection anchor tag .sequence
          (Content.sequence <$> readFlowItems true fuel)
      | .flowMappingStart =>
        advance
        addCollection anchor tag .mapping (Content.mapping <$> readFlowEntries true fuel)
      | token =>
        if place = .behindKey ∧ token = .blockEntry then
          addCollection anchor tag .sequence (Content.sequence <$> readLooseItems fuel)
        else if place ≠ .flow ∧ token = .blockSequenceStart then
          advance
          addCollection anchor tag .sequence (Content.sequence <$> readBlockItems fuel)
        else if place ≠ .flow ∧ token = .blockMappingStart then
          advance
          addCollection anchor tag .mapping (Content.mapping <$> readBlockEntries fuel)
        else if anchor.isSome || tag.isSome then addScalar anchor tag "" true
        else throw .malformed

def readNodeBefore (ends : List Token) (place : Place) : (fuel : Nat) → Reading Nat
  | 0 => throw .malformed
  | fuel + 1 => do if ends.contains (← peek) then emptyNode else readNode place fuel

def readValueBefore (ends : List Token) (place : Place) : (fuel : Nat) → Reading Nat
  | 0 => throw .malformed
  | fuel + 1 => do
    if ← accept .value then readNodeBefore ends place fuel else emptyNode

def readBlockItems : (fuel : Nat) → Reading (List Nat)
  | 0 => throw .malformed
  | fuel + 1 => do
    if ← accept .blockEntry then
      let item ← readNodeBefore [.blockEntry, .blockEnd] .block fuel
      return item :: (← readBlockItems fuel)
    else
      expect .blockEnd
      return []

def readLooseItems : (fuel : Nat) → Reading (List Nat)
  | 0 => throw .malformed
  | fuel + 1 => do
    if ← accept .blockEntry then
      let item ← readNodeBefore [.blockEntry, .key, .value, .blockEnd] .block fuel
      return item :: (← readLooseItems fuel)
    else return []

def readBlockEntries : (fuel : Nat) → Reading (List (Nat × Nat))
  | 0 => throw .malformed
  | fuel + 1 => do
    if ← accept .key then
      let key ← readNodeBefore [.key, .value, .blockEnd] .behindKey fuel
      let value ← readValueBefore [.key, .value, .blockEnd] .behindKey fuel
      return (key, value) :: (← readBlockEntries fuel)
    else
      expect .blockEnd
      return []

/-- The items of a sequence in brackets. An item with a colon is a mapping of its own. -/
def readFlowItems (first : Bool) : (fuel : Nat) → Reading (List Nat)
  | 0 => throw .malformed
  | fuel + 1 => do
    if ← accept .flowSequenceEnd then return []
    unless first do expect .flowEntry
    if ← accept .key then
      let item ← addCollection none none .mapping do
        let key ← readNodeBefore [.value, .flowEntry, .flowSequenceEnd] .flow fuel
        let value ← readValueBefore [.flowEntry, .flowSequenceEnd] .flow fuel
        return .mapping [(key, value)]
      return item :: (← readFlowItems false fuel)
    else if ← accept .flowSequenceEnd then return []
    else
      let item ← readNode .flow fuel
      return item :: (← readFlowItems false fuel)

/-- The entries of a mapping in braces. An entry without a colon has no value. -/
def readFlowEntries (first : Bool) : (fuel : Nat) → Reading (List (Nat × Nat))
  | 0 => throw .malformed
  | fuel + 1 => do
    if ← accept .flowMappingEnd then return []
    unless first do expect .flowEntry
    if ← accept .key then
      let key ← readNodeBefore [.value, .flowEntry, .flowMappingEnd] .flow fuel
      let value ← readValueBefore [.flowEntry, .flowMappingEnd] .flow fuel
      return (key, value) :: (← readFlowEntries false fuel)
    else if ← accept .flowMappingEnd then return []
    else
      let key ← readNode .flow fuel
      let value ← emptyNode
      return (key, value) :: (← readFlowEntries false fuel)

end

def usualHandles : List (String × String) := [("!", "!"), ("!!", Tag.namespaceText)]

/-- The handles of tags by the directives in front of a document. A directive is given once, and the
version is the first. -/
def readDirectives (versioned : Bool) (handles : List (String × String)) :
    (fuel : Nat) → Reading (List (String × String))
  | 0 => throw .malformed
  | fuel + 1 => do
    match ← peek with
    | .directive directive =>
      advance
      match directive with
      | .version major =>
        if versioned || major != 1 then throw .malformed
        readDirectives true handles fuel
      | .tag handle start =>
        if (handles.lookup handle).isSome then throw .malformed
        readDirectives versioned ((handle, start) :: handles) fuel
      | .other => readDirectives versioned handles fuel
    | _ => return handles ++ usualHandles

def skipEnds : (fuel : Nat) → Reading Unit
  | 0 => return
  | fuel + 1 => do if ← accept .documentEnd then skipEnds fuel

def startsDocument : Token → Bool
  | .directive _ => true
  | .documentStart => true
  | _ => false

def endsDocument : Token → Bool
  | .documentEnd => true
  | .streamEnd => true
  | token => startsDocument token

def readDocument (fuel : Nat) : Reading Nat := do
  if startsDocument (← peek) then
    let handles ← readDirectives false [] fuel
    modify fun draft => { draft with handles }
    expect .documentStart
    if endsDocument (← peek) then emptyNode else readNode .block fuel
  else readNode .block fuel

def readStream (fuel : Nat) : Reading (Option Nat) := do
  if ← accept .streamEnd then return none
  else
    let root ← readDocument fuel
    skipEnds fuel
    expect .streamEnd
    return some root

def ofTokens (stream : TokenStream) : Except Error (Option Graph) := do
  let draft := Draft.mk stream.tokens stream.fault usualHandles #[] []
  let (root, draft) ← (readStream (4 * stream.tokens.length + 8)).run draft
  return root.map fun root => ⟨draft.nodes, root⟩

end Graph

end Yaml

end TreeExport
