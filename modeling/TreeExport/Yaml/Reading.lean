import TreeExport.Yaml.Graph
import TreeExport.Yaml.Scalar

/-!
The value of a text. Collections are filled in the order in which they are first met, the outer ones
before the inner ones, so of several faults the one that is met first counts. A key `<<` merges the
entries of other mappings in front of the mapping's own.
-/

namespace TreeExport

namespace Yaml

namespace Graph

inductive Item where
  | scalar (value : Value)
  | collection (number : Nat)
  deriving Inhabited

inductive Filling where
  | list (items : List Item)
  | pairs (items : List (Item × Item))
  | map (entries : List (Value × Item))
  | set (members : List Value)

structure Evaluation where
  nodes : Array Node
  items : Array (Option Item)
  fillings : Array (Option Filling)
  waiting : List Nat

abbrev Evaluating := StateT Evaluation (Except Error)

def node (number : Nat) : Evaluating Node := do
  match (← get).nodes[number]? with
  | some node => return node
  | none => throw .malformed

def entries (number : Nat) : Evaluating (List (Nat × Nat)) := do
  match (← node number).content with
  | .mapping entries => return entries
  | _ => throw .malformed

def sequenceItems (number : Nat) : Evaluating (List Nat) := do
  match (← node number).content with
  | .sequence items => return items
  | _ => throw .malformed

def tagOf (number : Nat) : Evaluating Tag := return (← node number).tag

def modifyNode (number : Nat) (change : Node → Node) : Evaluating Unit :=
  modify fun state => { state with nodes := state.nodes.modify number change }

/-- The text of a scalar. A mapping with a default key stands for the text of its value. -/
def scalarText (number : Nat) : (fuel : Nat) → Evaluating String
  | 0 => throw .malformed
  | fuel + 1 => do
    match (← node number).content with
    | .scalar text => return text
    | .sequence _ => throw .malformed
    | .mapping entries =>
      match ← entries.findM? fun entry => return (← tagOf entry.1) == .default with
      | some (_, value) => scalarText value fuel
      | none => throw .malformed

def scalarItem (number : Nat) (tag : Tag) : Evaluating Value := do
  let text ← scalarText number ((← get).nodes.size + 1)
  match tag, (← node number).content with
  | .timestamp, .mapping _ => throw .timestampOfCollection
  | tag, _ =>
    match tag.scalarValue? text with
    | some (.ok value) => return value
    | some (.error error) => throw error
    | none => throw .malformed

def isCollectionTag (tag : Tag) : Bool :=
  [Tag.sequence, .mapping, .set, .orderedMap, .pairs].contains tag

/-- What a node stands for. A collection that is met for the first time is to be filled. -/
def item (number : Nat) : Evaluating Item := do
  match ((← get).items[number]?).join with
  | some item => return item
  | none =>
    let tag ← tagOf number
    let item ←
      if isCollectionTag tag then
        modify fun state => { state with waiting := state.waiting ++ [number] }
        pure (Item.collection number)
      else Item.scalar <$> scalarItem number tag
    modify fun state => { state with items := state.items.setIfInBounds number (some item) }
    return item

/-- Merges what a mapping's merge keys name in front of its own entries. A later sequence member gives
way to an earlier one, and all give way to the mapping itself. -/
def flatten (number : Nat) : (fuel : Nat) → Evaluating Unit
  | 0 => throw .malformed
  | fuel + 1 => do
    let tagged ← (← entries number).mapM fun entry => return (← tagOf entry.1, entry)
    let (merges, own) := tagged.partition (·.1 == .merge)
    for (tag, key, _) in own do
      if tag == .default then modifyNode key fun node => { node with tag := .string }
    modifyNode number fun node => { node with content := .mapping (own.map Prod.snd) }
    let merged ← merges.mapM fun (_, _, value) => do
      match (← node value).content with
      | .mapping _ =>
        flatten value fuel
        entries value
      | .sequence members =>
        let lists ← members.mapM fun member => do
          flatten member fuel
          entries member
        return lists.reverse.flatten
      | .scalar _ => throw .malformed
    let own ← entries number
    modifyNode number fun node => { node with content := .mapping (merged.flatten ++ own) }

def isNan : Value → Bool
  | .float .nan => true
  | _ => false

/-- Writes an entry. All keys that are no number are one key. -/
def putItem (map : List (Value × Item)) (key : Value) (item : Item) : List (Value × Item) :=
  match map with
  | [] => [(key, item)]
  | (k, i) :: rest =>
    if k.sameKey key || (isNan k && isNan key) then (k, item) :: rest
    else (k, i) :: putItem rest key item

def mapEntries (number : Nat) : Evaluating (List (Value × Item)) := do
  flatten number ((← get).nodes.size + 1)
  (← entries number).foldlM (fun map (key, value) => do
    match ← item key with
    | .collection _ => throw .malformed
    | .scalar key => return putItem map key (← item value)) []

def onlyEntry (number : Nat) : Evaluating (Item × Item) := do
  match ← entries number with
  | [(key, value)] => return (← item key, ← item value)
  | _ => throw .malformed

/-- The order in which a set gives two of its members. Integers ascend, and all else stays as it was read; other
readers may give the members of a set in any order. -/
def memberOrder (left right : Value) : Bool :=
  match left, right with
  | .int a, .int b => a ≤ b
  | _, _ => true

def filling (number : Nat) : Evaluating Filling := do
  match ← tagOf number with
  | .mapping => return .map (← mapEntries number)
  | .set => return .set (((← mapEntries number).map Prod.fst).mergeSort memberOrder)
  | .sequence => return .list (← (← sequenceItems number).mapM item)
  | _ => return .pairs (← (← sequenceItems number).mapM onlyEntry)

def fill : (fuel : Nat) → Evaluating Unit
  | 0 => return
  | fuel + 1 => do
    match (← get).waiting with
    | [] => return
    | number :: waiting =>
      modify fun state => { state with waiting }
      let filling ← filling number
      modify fun state => { state with
        fillings := state.fillings.setIfInBounds number (some filling) }
      fill fuel

def repeatLimit : Nat := 3

def unfold (fillings : Array (Option Filling)) (above : List Nat) : (fuel : Nat) → Item → Value
  | _, .scalar value => value
  | 0, .collection _ => .endless
  | fuel + 1, .collection number =>
    if repeatLimit < above.count number then .endless
    else
      let inner := unfold fillings (number :: above) fuel
      match (fillings[number]?).join with
      | none => .null
      | some (.list items) => .list (items.map inner)
      | some (.pairs items) =>
        .list (items.map fun (key, value) => .tuple [inner key, inner value])
      | some (.map entries) => .map (entries.map fun (key, item) => (key, inner item))
      | some (.set members) => .set members

def value (graph : Graph) : Except Error Value := do
  let size := graph.nodes.size
  let start := Evaluation.mk graph.nodes (Array.replicate size none) (Array.replicate size none) []
  let (root, state) ← (do
    let root ← item graph.root
    fill (size + 1)
    return root : Evaluating Item).run start
  return unfold state.fillings [] ((repeatLimit + 1) * size + 1) root

end Graph

def read (text : String) : Except Error Value := do
  match ← Graph.ofTokens (TokenStream.ofText text.toList) with
  | none => return .null
  | some graph => graph.value

end Yaml

end TreeExport
