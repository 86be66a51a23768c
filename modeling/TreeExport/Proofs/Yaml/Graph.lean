import TreeExport.Yaml.Reading
import TreeExport.Proofs.Yaml.Stream

/-!
The nodes of a whole text are nodes of it. A node without a written tag is a collection, is empty or quoted, or is
a plain scalar with the tag of its text. Every reader keeps that of the nodes so far, whatever it adds.
-/

namespace TreeExport

namespace Yaml

def Node.Lenient (source : List Char) (node : Node) : Prop :=
  '!' ∈ source ∨ Graph.isCollectionTag node.tag ∨ node.tag = .string ∨ node.tag = .null

def Node.Within (source : List Char) (node : Node) : Prop :=
  node.Lenient source ∨
    ∃ text, node = ⟨.ofPlain text, .scalar text⟩ ∧ PlainWithin source text.toList

namespace Graph

/-- Whether nodes are those of a text, and some of them have any content under their tags. -/
structure NodesWithin (source : List Char) (lenient : List Nat) (nodes : Array Node) : Prop where
  each : ∀ {number : Nat} {node : Node}, nodes[number]? = some node → node.Within source
  lenient : ∀ number ∈ lenient, ∃ node : Node, nodes[number]? = some node ∧ node.Lenient source

section NodesWithin

variable {source : List Char} {lenient : List Nat} {nodes : Array Node} {node : Node} {number : Nat}

theorem NodesWithin.push (within : NodesWithin source lenient nodes) (isNode : node.Within source) :
    NodesWithin source lenient (nodes.push node) := by
  constructor
  · intro number other found
    rw [Array.getElem?_push] at found
    split at found
    · exact Option.some.inj found ▸ isNode
    · exact within.each found
  · intro number member
    obtain ⟨other, found, isLenient⟩ := within.lenient number member
    obtain ⟨below, _⟩ := Array.getElem?_eq_some_iff.mp found
    exact ⟨other, by rwa [Array.getElem?_push, if_neg below.ne], isLenient⟩

theorem NodesWithin.push_lenient (within : NodesWithin source lenient nodes) (isLenient : node.Lenient source) :
    NodesWithin source (nodes.size :: lenient) (nodes.push node) := by
  have pushed := within.push (Or.inl isLenient)
  refine ⟨pushed.each, List.forall_mem_cons.mpr ⟨⟨node, ?_, isLenient⟩, pushed.lenient⟩⟩
  rw [Array.getElem?_push, if_pos rfl]

theorem NodesWithin.cons (within : NodesWithin source lenient nodes) (found : nodes[number]? = some node)
    (isLenient : node.Lenient source) : NodesWithin source (number :: lenient) nodes :=
  ⟨within.each, List.forall_mem_cons.mpr ⟨⟨node, found, isLenient⟩, within.lenient⟩⟩

theorem NodesWithin.tail (within : NodesWithin source (number :: lenient) nodes) :
    NodesWithin source lenient nodes :=
  ⟨within.each, fun other member => within.lenient other (List.mem_cons_of_mem number member)⟩

theorem NodesWithin.modify {change : Node → Node} (within : NodesWithin source lenient nodes)
    (each : ∀ node, nodes[number]? = some node → node.Within source → (change node).Within source)
    (kept : ∀ node, node.Lenient source → (change node).Lenient source) :
    NodesWithin source lenient (nodes.modify number change) := by
  constructor
  · intro other changed found
    rw [Array.getElem?_modify] at found
    split at found
    · rename_i same
      obtain ⟨node, before, rfl⟩ := Option.map_eq_some_iff.mp found
      rw [← same] at before
      exact each node before (within.each before)
    · exact within.each found
  · intro other member
    obtain ⟨node, found, isLenient⟩ := within.lenient other member
    rw [Array.getElem?_modify, found]
    split
    · exact ⟨change node, rfl, kept node isLenient⟩
    · exact ⟨node, rfl, isLenient⟩

theorem NodesWithin.fill (within : NodesWithin source lenient nodes) (isLenient : number ∈ lenient)
    (content : Content) :
    NodesWithin source lenient (nodes.modify number fun node => { node with content }) := by
  refine within.modify (fun node found _ => ?_) fun _ isLenient => isLenient
  obtain ⟨other, same, holds⟩ := within.lenient number isLenient
  rw [found] at same
  obtain rfl := Option.some.inj same
  exact Or.inl holds

end NodesWithin

structure Draft.Within (source : List Char) (lenient : List Nat) (draft : Draft) : Prop where
  ahead : ∀ token ∈ draft.ahead, token.Within source
  fault : ∀ fault, draft.fault = some fault → fault.Within source
  nodes : NodesWithin source lenient draft.nodes

/-- Whether a reader of a text keeps to its tokens and to the nodes of it, whichever nodes have any content. -/
def Reads {α : Type} (source : List Char) (holds : α → Prop) (work : Reading α) : Prop :=
  ∀ lenient, Keeps (Error.Within source) (Draft.Within source lenient) holds work

section Reads

variable {α β : Type} {source : List Char} {holds : α → Prop} {holds' : β → Prop} {work : Reading α}

theorem Reads.bind {further : α → Reading β} (reads : Reads source holds work)
    (each : ∀ value, holds value → Reads source holds' (further value)) :
    Reads source holds' (work >>= further) :=
  fun lenient => (reads lenient).bind fun value held => each value held lenient

theorem Reads.map {change : α → β} (reads : Reads source holds work)
    (each : ∀ value, holds value → holds' (change value)) : Reads source holds' (change <$> work) :=
  fun lenient => (reads lenient).map each

theorem reads_pure {value : α} (held : holds value) : Reads source holds (pure value) :=
  fun _ => keeps_pure held

theorem reads_malformed : Reads source holds (throw .malformed) :=
  fun _ => keeps_throw trivial

theorem reads_failed {further : α → Reading β} :
    Reads source holds' ((throw .malformed : Reading α) >>= further) :=
  Reads.bind (@reads_malformed α source fun _ => False) fun _ never => never.elim

theorem reads_get : Reads source (fun _ => True) get :=
  fun _ => keeps_get.mono fun _ _ => trivial

theorem reads_modify {change : Draft → Draft}
    (each : ∀ {lenient draft}, draft.Within source lenient → (change draft).Within source lenient) :
    Reads source (fun _ => True) (modify change) :=
  fun _ => keeps_modify fun _ => each

theorem reads_ite {condition : Prop} [Decidable condition] {first second : Reading α}
    (reads : Reads source holds first) (reads' : Reads source holds second) :
    Reads source holds (if condition then first else second) :=
  fun lenient => keeps_ite (fun _ => reads lenient) fun _ => reads' lenient

end Reads

variable {source : List Char}

/-! ### Tokens -/

theorem reads_peek : Reads source (Token.Within source) peek := by
  intro lenient
  rw [peek]
  apply keeps_get.bind
  intro draft within
  split
  · rename_i token rest ahead
    exact keeps_pure (within.ahead token (ahead ▸ List.mem_cons_self))
  · apply keeps_get.bind
    intro later kept
    apply keeps_throw
    cases stopped : later.fault with
    | none => trivial
    | some fault => exact kept.fault fault stopped

theorem reads_advance : Reads source (fun _ => True) advance :=
  reads_modify fun within =>
    ⟨fun token member => within.ahead token (List.mem_of_mem_drop member), within.fault, within.nodes⟩

theorem reads_accept (token : Token) : Reads source (fun _ => True) (accept token) := by
  rw [accept]
  apply reads_peek.bind
  intro _ _
  exact reads_ite (reads_advance.bind fun _ _ => reads_pure trivial) (reads_pure trivial)

theorem reads_expect (token : Token) : Reads source (fun _ => True) (expect token) := by
  rw [expect]
  apply (reads_accept token).bind
  intro _ _
  exact reads_ite (reads_pure trivial) reads_malformed

theorem reads_separated {α : Type} {holds : α → Prop} {first : Bool} {further : Unit → Reading α}
    (reads : ∀ read, Reads source holds (further read)) :
    Reads source holds (if first then further () else expect .flowEntry >>= further) :=
  reads_ite (reads ()) ((reads_expect _).bind fun read _ => reads read)

/-! ### Nodes -/

theorem reads_addNode {node : Node} (isNode : node.Within source) :
    Reads source (fun _ => True) (addNode node) :=
  fun _ _ within => ⟨⟨within.ahead, within.fault, within.nodes.push isNode⟩, trivial⟩

theorem reads_emptyNode : Reads source (fun _ => True) emptyNode :=
  reads_addNode (Or.inl (Or.inr (Or.inr (Or.inr rfl))))

theorem reads_nameNode (anchor : Option String) (number : Nat) :
    Reads source (fun _ => True) (nameNode anchor number) := by
  rw [nameNode.eq_def]
  split
  · exact reads_pure trivial
  · apply reads_get.bind
    intro draft _
    exact reads_ite reads_failed (reads_modify fun within => ⟨within.ahead, within.fault, within.nodes⟩)

theorem reads_namedNode (name : String) : Reads source (fun _ => True) (namedNode name) := by
  rw [namedNode]
  apply reads_get.bind
  intro draft _
  split
  · exact reads_pure trivial
  · exact reads_malformed

theorem reads_anchor? : Reads source (fun _ => True) readAnchor? := by
  rw [readAnchor?]
  apply reads_peek.bind
  intro token _
  split
  · exact reads_advance.bind fun _ _ => reads_pure trivial
  · exact reads_pure trivial

theorem reads_tag? : Reads source (fun written => written.isSome → '!' ∈ source) readTag? := by
  rw [readTag?]
  apply reads_peek.bind
  intro token isToken
  split
  · apply reads_advance.bind
    intro _ _
    split
    · exact reads_pure fun _ => isToken
    · apply reads_get.bind
      intro _ _
      split
      · exact reads_pure fun _ => isToken
      · exact reads_malformed
  · exact reads_pure nofun

theorem reads_properties : Reads source (fun read => read.2.isSome → '!' ∈ source) readProperties := by
  rw [readProperties]
  apply reads_anchor?.bind
  intro anchor _
  split
  · exact reads_tag?.bind fun _ written => reads_pure written
  · apply reads_tag?.bind
    intro tag written
    dsimp only
    split
    · exact reads_anchor?.bind fun _ _ => reads_pure written
    · exact (@reads_pure _ source (fun _ => True) _ trivial).bind fun _ _ => reads_pure written

variable {written : Option String}

theorem lenient_collectionTag {usual : Tag} (collection : isCollectionTag usual) (content : Content)
    (shown : written.isSome → '!' ∈ source) :
    Node.Lenient source ⟨collectionTag usual written, content⟩ := by
  cases written with
  | none => exact Or.inr (Or.inl collection)
  | some _ => exact Or.inl (shown rfl)

theorem within_scalarTag {text : String} {plain : Bool} (isPlain : plain → PlainWithin source text.toList)
    (shown : written.isSome → '!' ∈ source) :
    Node.Within source ⟨scalarTag text plain written, .scalar text⟩ := by
  cases written with
  | none =>
    cases plain with
    | false => exact Or.inl (Or.inr (Or.inr (Or.inl rfl)))
    | true => exact Or.inr ⟨text, rfl, isPlain rfl⟩
  | some _ => exact Or.inl (Or.inl (shown rfl))

theorem reads_addScalar {text : String} {plain : Bool} (anchor : Option String)
    (isPlain : plain → PlainWithin source text.toList) (shown : written.isSome → '!' ∈ source) :
    Reads source (fun _ => True) (addScalar anchor written text plain) := by
  rw [addScalar]
  apply (reads_addNode (within_scalarTag isPlain shown)).bind
  intro number _
  exact (reads_nameNode anchor number).bind fun _ _ => reads_pure trivial

theorem reads_addCollection {usual : Tag} {fill : Reading Content} (anchor : Option String)
    (collection : isCollectionTag usual) (shown : written.isSome → '!' ∈ source)
    (reads : Reads source (fun _ => True) fill) :
    Reads source (fun _ => True) (addCollection anchor written usual fill) := by
  intro lenient draft within
  -- The parts are read before the node is filled in, so its number is kept among the lenient ones meanwhile.
  have added : (Draft.mk draft.ahead draft.fault draft.handles
      (draft.nodes.push ⟨collectionTag usual written, .sequence []⟩) draft.anchors).Within source
      (draft.nodes.size :: lenient) :=
    ⟨within.ahead, within.fault, within.nodes.push_lenient (lenient_collectionTag collection _ shown)⟩
  have filled : Keeps (Error.Within source) (Draft.Within source (draft.nodes.size :: lenient)) (fun _ => True)
      (do
        nameNode anchor draft.nodes.size
        fillNode draft.nodes.size (← fill)
        return draft.nodes.size) := by
    apply (reads_nameNode anchor _ _).bind
    intro _ _
    apply (reads _).bind
    intro content _
    apply (keeps_modify fun later kept => ?_).bind
    · exact fun _ _ => keeps_pure trivial
    · exact ⟨kept.ahead, kept.fault, kept.nodes.fill List.mem_cons_self content⟩
  rw [addCollection]
  exact (filled _ added).mono fun _ kept =>
    ⟨⟨kept.1.ahead, kept.1.fault, kept.1.nodes.tail⟩, trivial⟩

/-! ### Documents -/

structure Kept (source : List Char) (fuel : Nat) : Prop where
  node : ∀ place, Reads source (fun _ => True) (readNode place fuel)
  nodeBefore : ∀ ends place, Reads source (fun _ => True) (readNodeBefore ends place fuel)
  valueBefore : ∀ ends place, Reads source (fun _ => True) (readValueBefore ends place fuel)
  blockItems : Reads source (fun _ => True) (readBlockItems fuel)
  looseItems : Reads source (fun _ => True) (readLooseItems fuel)
  blockEntries : Reads source (fun _ => True) (readBlockEntries fuel)
  flowItems : ∀ first, Reads source (fun _ => True) (readFlowItems first fuel)
  flowEntries : ∀ first, Reads source (fun _ => True) (readFlowEntries first fuel)

section Steps

variable {fuel : Nat} (kept : Kept source fuel)
include kept

theorem reads_node (place : Place) : Reads source (fun _ => True) (readNode place (fuel + 1)) := by
  rw [readNode]
  apply reads_peek.bind
  intro first _
  split
  · exact reads_advance.bind fun _ _ => reads_namedNode _
  · apply reads_properties.bind
    rintro ⟨anchor, tag⟩ shown
    apply reads_peek.bind
    intro token isToken
    split
    · refine reads_advance.bind fun _ _ => reads_addScalar anchor (fun plain => ?_) shown
      subst plain
      exact isToken
    · exact reads_advance.bind fun _ _ =>
        reads_addCollection anchor rfl shown ((kept.flowItems true).map fun _ _ => trivial)
    · exact reads_advance.bind fun _ _ =>
        reads_addCollection anchor rfl shown ((kept.flowEntries true).map fun _ _ => trivial)
    · refine reads_ite ?_ (reads_ite ?_ (reads_ite ?_ (reads_ite ?_ reads_malformed)))
      · exact reads_addCollection anchor rfl shown (kept.looseItems.map fun _ _ => trivial)
      · exact reads_advance.bind fun _ _ =>
          reads_addCollection anchor rfl shown (kept.blockItems.map fun _ _ => trivial)
      · exact reads_advance.bind fun _ _ =>
          reads_addCollection anchor rfl shown (kept.blockEntries.map fun _ _ => trivial)
      · exact reads_addScalar anchor (fun _ => ⟨by decide, Nat.zero_le _⟩) shown

theorem reads_nodeBefore (ends : List Token) (place : Place) :
    Reads source (fun _ => True) (readNodeBefore ends place (fuel + 1)) := by
  rw [readNodeBefore]
  apply reads_peek.bind
  intro _ _
  exact reads_ite reads_emptyNode (kept.node place)

theorem reads_valueBefore (ends : List Token) (place : Place) :
    Reads source (fun _ => True) (readValueBefore ends place (fuel + 1)) := by
  rw [readValueBefore]
  apply (reads_accept _).bind
  intro _ _
  exact reads_ite (kept.nodeBefore ends place) reads_emptyNode

theorem reads_blockItems : Reads source (fun _ => True) (readBlockItems (fuel + 1)) := by
  rw [readBlockItems]
  apply (reads_accept _).bind
  intro _ _
  apply reads_ite
  · apply (kept.nodeBefore _ _).bind
    intro _ _
    exact kept.blockItems.bind fun _ _ => reads_pure trivial
  · exact (reads_expect _).bind fun _ _ => reads_pure trivial

theorem reads_looseItems : Reads source (fun _ => True) (readLooseItems (fuel + 1)) := by
  rw [readLooseItems]
  apply (reads_accept _).bind
  intro _ _
  apply reads_ite
  · apply (kept.nodeBefore _ _).bind
    intro _ _
    exact kept.looseItems.bind fun _ _ => reads_pure trivial
  · exact reads_pure trivial

theorem reads_blockEntries : Reads source (fun _ => True) (readBlockEntries (fuel + 1)) := by
  rw [readBlockEntries]
  apply (reads_accept _).bind
  intro _ _
  apply reads_ite
  · apply (kept.nodeBefore _ _).bind
    intro _ _
    apply (kept.valueBefore _ _).bind
    intro _ _
    exact kept.blockEntries.bind fun _ _ => reads_pure trivial
  · exact (reads_expect _).bind fun _ _ => reads_pure trivial

theorem reads_flowItems (first : Bool) : Reads source (fun _ => True) (readFlowItems first (fuel + 1)) := by
  have rest (item : Nat) : Reads source (fun _ => True) (do return item :: (← readFlowItems false fuel)) :=
    (kept.flowItems false).bind fun _ _ => reads_pure trivial
  rw [readFlowItems]
  apply (reads_accept _).bind
  intro _ _
  refine reads_ite (reads_pure trivial) (reads_separated fun _ => ?_)
  apply (reads_accept _).bind
  intro _ _
  apply reads_ite
  · refine (reads_addCollection none rfl (fun shown => absurd shown (by decide)) ?_).bind fun item _ => rest item
    apply (kept.nodeBefore _ _).bind
    intro _ _
    exact (kept.valueBefore _ _).bind fun _ _ => reads_pure trivial
  · apply (reads_accept _).bind
    intro _ _
    exact reads_ite (reads_pure trivial) ((kept.node _).bind fun item _ => rest item)

theorem reads_flowEntries (first : Bool) : Reads source (fun _ => True) (readFlowEntries first (fuel + 1)) := by
  have rest (entry : Nat × Nat) :
      Reads source (fun _ => True) (do return entry :: (← readFlowEntries false fuel)) :=
    (kept.flowEntries false).bind fun _ _ => reads_pure trivial
  rw [readFlowEntries]
  apply (reads_accept _).bind
  intro _ _
  refine reads_ite (reads_pure trivial) (reads_separated fun _ => ?_)
  apply (reads_accept _).bind
  intro _ _
  apply reads_ite
  · apply (kept.nodeBefore _ _).bind
    intro key _
    exact (kept.valueBefore _ _).bind fun value _ => rest (key, value)
  · apply (reads_accept _).bind
    intro _ _
    refine reads_ite (reads_pure trivial) ((kept.node _).bind fun key _ => ?_)
    exact reads_emptyNode.bind fun value _ => rest (key, value)

end Steps

theorem kept_all (fuel : Nat) : Kept source fuel := by
  induction fuel with
  | zero =>
      constructor <;> intros <;> exact reads_malformed
  | succ fuel ih =>
      exact ⟨reads_node ih, reads_nodeBefore ih, reads_valueBefore ih, reads_blockItems ih, reads_looseItems ih,
        reads_blockEntries ih, reads_flowItems ih, reads_flowEntries ih⟩

theorem reads_directives (versioned : Bool) (handles : List (String × String)) (fuel : Nat) :
    Reads source (fun _ => True) (readDirectives versioned handles fuel) := by
  induction fuel generalizing versioned handles with
  | zero => exact reads_malformed
  | succ fuel ih =>
      rw [readDirectives]
      apply reads_peek.bind
      intro token _
      split
      · apply reads_advance.bind
        intro _ _
        split
        · exact reads_ite reads_failed (ih _ _)
        · exact reads_ite reads_failed (ih _ _)
        · exact ih _ _
      · exact reads_pure trivial

theorem reads_skipEnds (fuel : Nat) : Reads source (fun _ => True) (skipEnds fuel) := by
  induction fuel with
  | zero => exact reads_pure trivial
  | succ fuel ih =>
      rw [skipEnds]
      apply (reads_accept _).bind
      intro _ _
      exact reads_ite ih (reads_pure trivial)

theorem reads_document (fuel : Nat) : Reads source (fun _ => True) (readDocument fuel) := by
  have root : Reads source (fun _ => True) (readNode .block fuel) := (kept_all fuel).node .block
  rw [readDocument]
  apply reads_peek.bind
  intro _ _
  refine reads_ite ?_ root
  apply (reads_directives _ _ _).bind
  intro handles _
  refine Reads.bind (reads_modify fun within => ⟨within.ahead, within.fault, within.nodes⟩) fun _ _ => ?_
  apply (reads_expect _).bind
  intro _ _
  apply reads_peek.bind
  intro _ _
  exact reads_ite reads_emptyNode root

theorem reads_stream (fuel : Nat) : Reads source (fun _ => True) (readStream fuel) := by
  rw [readStream]
  apply (reads_accept _).bind
  intro _ _
  refine reads_ite (reads_pure trivial) ?_
  apply (reads_document fuel).bind
  intro _ _
  apply (reads_skipEnds fuel).bind
  intro _ _
  exact (reads_expect _).bind fun _ _ => reads_pure trivial

theorem yields_ofTokens {stream : TokenStream} (within : stream.Within source) :
    Yields (Error.Within source) (fun root => ∀ graph, root = some graph → NodesWithin source [] graph.nodes)
      (ofTokens stream) := by
  have start : (Draft.mk stream.tokens stream.fault usualHandles #[] []).Within source [] := by
    refine ⟨within.tokens, within.fault, ⟨fun found => ?_, nofun⟩⟩
    exact absurd found (by simp)
  rw [ofTokens]
  apply (reads_stream _ _ _ start).bind
  rintro ⟨root, draft⟩ ⟨kept, _⟩
  intro graph made
  obtain ⟨_, _, rfl⟩ := Option.map_eq_some_iff.mp made
  exact kept.nodes

end Graph

end Yaml

end TreeExport
