import TreeExport.Proofs.Yaml.Graph

/-!
A text is read with no other faults than those it shows. A node that is read as a scalar has a written tag, or is
quoted or empty, or is plain and has the form that its tag asks for; merging mappings keeps it that way.
-/

namespace TreeExport

namespace Yaml

namespace Graph

def Evaluation.Within (source : List Char) (lenient : List Nat) (state : Evaluation) : Prop :=
  NodesWithin source lenient state.nodes

variable {source : List Char} {lenient : List Nat} {number : Nat} {α : Type} {holds : α → Prop}

/-! ### Nodes -/

theorem keeps_malformed : Keeps (Error.Within source) (Evaluation.Within source lenient) holds
    (throw .malformed) :=
  keeps_throw trivial

theorem run_node {state : Evaluation} {node : Node} (found : state.nodes[number]? = some node) :
    (Graph.node number).run state = .ok (node, state) := by
  rw [Graph.node, run_bind_of_eq_ok (StateT.run_get state), found]
  rfl

theorem run_node_missing {state : Evaluation} (missing : state.nodes[number]? = none) :
    (node number).run state = .error .malformed := by
  rw [node, run_bind_of_eq_ok (StateT.run_get state), missing]
  rfl

theorem keeps_node_bind {further : Node → Evaluating α}
    (each : ∀ node, ∀ state : Evaluation, state.Within source lenient → state.nodes[number]? = some node →
      Yields (Error.Within source) (fun result => result.2.Within source lenient ∧ holds result.1)
        ((further node).run state)) :
    Keeps (Error.Within source) (Evaluation.Within source lenient) holds (node number >>= further) := by
  intro state within
  cases found : state.nodes[number]? with
  | none =>
      rw [StateT.run_bind, run_node_missing found]
      trivial
  | some node =>
      rw [run_bind_of_eq_ok (run_node found)]
      exact each node state within found

theorem keeps_node : Keeps (Error.Within source) (Evaluation.Within source lenient) (fun _ => True)
    (node number) := by
  rw [← bind_pure (node number)]
  exact keeps_node_bind fun _ _ within _ => ⟨within, trivial⟩

theorem keeps_tagOf : Keeps (Error.Within source) (Evaluation.Within source lenient) (fun _ => True)
    (tagOf number) :=
  keeps_node.bind fun _ _ => keeps_pure trivial

theorem keeps_entries_bind {further : List (Nat × Nat) → Evaluating α}
    (each : ∀ entries, Keeps (Error.Within source) (Evaluation.Within source (number :: lenient)) holds
      (further entries)) :
    Keeps (Error.Within source) (Evaluation.Within source lenient) holds (entries number >>= further) := by
  rw [entries, bind_assoc]
  apply keeps_node_bind
  intro node state within found
  split
  · rename_i content
    have isLenient : node.Lenient source := by
      rcases within.each found with isLenient | ⟨text, rfl, _⟩
      · exact isLenient
      · cases content
    exact (each _ state (within.cons found isLenient)).mono fun _ after => ⟨after.1.tail, after.2⟩
  · trivial

theorem keeps_entries : Keeps (Error.Within source) (Evaluation.Within source lenient) (fun _ => True)
    (entries number) := by
  rw [← bind_pure (entries number)]
  exact keeps_entries_bind fun _ => keeps_pure trivial

theorem keeps_sequenceItems : Keeps (Error.Within source) (Evaluation.Within source lenient) (fun _ => True)
    (sequenceItems number) := by
  rw [sequenceItems]
  apply keeps_node.bind
  intro node _
  split
  · exact keeps_pure trivial
  · exact keeps_malformed

theorem keeps_retag : Keeps (Error.Within source) (Evaluation.Within source lenient) (fun _ => True)
    (modifyNode number fun node => { node with tag := .string }) := by
  apply keeps_modify
  intro state within
  have isLenient (content : Content) : Node.Lenient source ⟨.string, content⟩ := Or.inr (Or.inr (Or.inl rfl))
  exact NodesWithin.modify within (fun _ _ _ => Or.inl (isLenient _)) fun _ _ => isLenient _

theorem keeps_refill (isLenient : number ∈ lenient) (content : Content) :
    Keeps (Error.Within source) (Evaluation.Within source lenient) (fun _ => True)
      (modifyNode number fun node => { node with content }) :=
  keeps_modify fun _ within => NodesWithin.fill within isLenient content

/-! ### Scalars -/

theorem keeps_scalarText (fuel : Nat) :
    Keeps (Error.Within source) (Evaluation.Within source lenient) (fun _ => True) (scalarText number fuel) := by
  induction fuel generalizing number with
  | zero => exact keeps_malformed
  | succ fuel ih =>
      rw [scalarText]
      apply keeps_node.bind
      intro node _
      split
      · exact keeps_pure trivial
      · exact keeps_malformed
      · apply (keeps_findM? fun entry _ => keeps_tagOf.bind fun _ _ => keeps_pure trivial).bind
        intro found _
        split
        · exact ih
        · exact keeps_malformed

theorem run_scalarText {state : Evaluation} {tag : Tag} {text : String}
    (found : state.nodes[number]? = some ⟨tag, .scalar text⟩) (fuel : Nat) :
    (scalarText number (fuel + 1)).run state = .ok (text, state) := by
  rw [scalarText, StateT.run_bind, run_node found]
  rfl

theorem keeps_scalarItem {tag : Tag} (fits : ∀ text, FitsIn source tag text)
    (stamped : tag = .timestamp → '!' ∈ source) :
    Keeps (Error.Within source) (Evaluation.Within source lenient) (fun _ => True) (scalarItem number tag) := by
  rw [scalarItem]
  apply keeps_get.bind
  intro _ _
  apply (keeps_scalarText _).bind
  intro text _
  apply keeps_node.bind
  intro node _
  split
  · exact keeps_throw (stamped rfl)
  · split
    · exact keeps_pure trivial
    · rename_i failure failed
      exact keeps_throw (fits text _ failed)
    · exact keeps_malformed

theorem fitsIn_of_lenient {node : Node} (isLenient : node.Lenient source) (single : ¬ isCollectionTag node.tag)
    (text : String) : FitsIn source node.tag text := by
  rcases isLenient with written | collection | string | null
  · exact fitsIn_of_hasForm (Or.inl written) (Or.inl written)
  · exact absurd collection single
  · rw [string]
    intro result value
    cases value
    trivial
  · rw [null]
    intro result value
    cases value
    trivial

theorem stamped_of_lenient {node : Node} (isLenient : node.Lenient source) (stamped : node.tag = .timestamp) :
    '!' ∈ source := by
  rw [Node.Lenient, stamped] at isLenient
  exact isLenient.resolve_right (by decide)

theorem yields_scalarItem {state : Evaluation} {node : Node} (within : state.Within source lenient)
    (found : state.nodes[number]? = some node) (single : ¬ isCollectionTag node.tag) :
    Yields (Error.Within source) (fun result => result.2.Within source lenient)
      ((scalarItem number node.tag).run state) := by
  rcases within.each found with isLenient | ⟨text, rfl, plain⟩
  · have fits := fitsIn_of_lenient isLenient single
    exact (keeps_scalarItem fits (stamped_of_lenient isLenient) state within).mono fun _ after => after.1
  · have fits : FitsIn source (.ofPlain text) text :=
      fitsIn_of_hasForm (Or.inr (hasForm_ofPlain plain.ending)) (Or.inr plain)
    rw [scalarItem, run_bind_of_eq_ok (StateT.run_get state), run_bind_of_eq_ok (run_scalarText found _),
      run_bind_of_eq_ok (run_node found)]
    split
    · rename_i mapping
      cases mapping
    · split
      · exact within
      · rename_i failure failed
        exact fits _ failed
      · trivial

theorem keeps_item : Keeps (Error.Within source) (Evaluation.Within source lenient) (fun _ => True)
    (item number) := by
  have stored (item : Item) : Keeps (Error.Within source) (Evaluation.Within source lenient) (fun _ => True)
      (do
        modify fun state => { state with items := state.items.setIfInBounds number (some item) }
        return item) :=
    Keeps.bind (keeps_modify fun _ within => within) fun _ _ => keeps_pure trivial
  have waits : Keeps (Error.Within source) (Evaluation.Within source lenient) (fun _ => True)
      (modify fun state : Evaluation => { state with waiting := state.waiting ++ [number] }) :=
    keeps_modify fun _ within => within
  -- An item is stored once it is made, and a collection waits for its parts.
  rw [item]
  apply keeps_get.bind
  intro _ _
  split
  · exact keeps_pure trivial
  · rw [tagOf, bind_assoc]
    apply keeps_node_bind
    intro node state within found
    rw [pure_bind]
    split
    · have keeps := waits.bind fun _ _ => stored (.collection number)
      exact keeps state within
    · rename_i single
      rw [map_eq_pure_bind, bind_assoc]
      dsimp only
      rw [StateT.run_bind]
      refine (yields_scalarItem within found single).bind fun result after => ?_
      rw [pure_bind]
      exact stored _ result.2 after

/-! ### Collections -/

theorem keeps_flatten (fuel : Nat) :
    Keeps (Error.Within source) (Evaluation.Within source lenient) (fun _ => True) (flatten number fuel) := by
  induction fuel generalizing number lenient with
  | zero => exact keeps_malformed
  | succ fuel ih =>
      rw [flatten]
      -- The mapping is filled in before and after others are merged, and stays lenient all the while.
      apply keeps_entries_bind
      intro found
      apply (keeps_mapM fun entry _ => keeps_tagOf.bind fun _ _ => keeps_pure trivial).bind
      intro tagged _
      dsimp only
      apply (keeps_forIn fun entry _ => keeps_ite (fun _ => keeps_retag.bind fun _ _ => keeps_pure trivial)
        fun _ => keeps_pure trivial).bind
      intro _ _
      apply (keeps_refill List.mem_cons_self _).bind
      intro _ _
      apply (keeps_mapM fun entry _ => ?_).bind
      · intro merged _
        apply keeps_entries_bind
        intro _
        exact keeps_refill List.mem_cons_self _
      · apply keeps_node.bind
        intro node _
        split
        · exact ih.bind fun _ _ => keeps_entries
        · exact (keeps_mapM fun _ _ => ih.bind fun _ _ => keeps_entries).bind fun _ _ => keeps_pure trivial
        · exact keeps_malformed

theorem keeps_mapEntries :
    Keeps (Error.Within source) (Evaluation.Within source lenient) (fun _ => True) (mapEntries number) := by
  rw [mapEntries]
  apply keeps_get.bind
  intro _ _
  apply (keeps_flatten _).bind
  intro _ _
  apply keeps_entries.bind
  intro found _
  refine keeps_foldlM (fun map entry _ => ?_) []
  apply keeps_item.bind
  intro key _
  split
  · exact keeps_malformed
  · exact keeps_item.bind fun _ _ => keeps_pure trivial

theorem keeps_onlyEntry :
    Keeps (Error.Within source) (Evaluation.Within source lenient) (fun _ => True) (onlyEntry number) := by
  rw [onlyEntry]
  apply keeps_entries.bind
  intro found _
  split
  · exact keeps_item.bind fun _ _ => keeps_item.bind fun _ _ => keeps_pure trivial
  · exact keeps_malformed

theorem keeps_filling :
    Keeps (Error.Within source) (Evaluation.Within source lenient) (fun _ => True) (filling number) := by
  rw [filling]
  apply keeps_tagOf.bind
  intro tag _
  split
  · exact keeps_mapEntries.bind fun _ _ => keeps_pure trivial
  · exact keeps_mapEntries.bind fun _ _ => keeps_pure trivial
  · apply keeps_sequenceItems.bind
    intro _ _
    exact (keeps_mapM fun _ _ => keeps_item).bind fun _ _ => keeps_pure trivial
  · apply keeps_sequenceItems.bind
    intro _ _
    exact (keeps_mapM fun _ _ => keeps_onlyEntry).bind fun _ _ => keeps_pure trivial

theorem keeps_fill (fuel : Nat) :
    Keeps (Error.Within source) (Evaluation.Within source lenient) (fun _ => True) (fill fuel) := by
  induction fuel with
  | zero => exact keeps_pure trivial
  | succ fuel ih =>
      have keeps {change : Evaluation → Evaluation} (same : ∀ state, (change state).nodes = state.nodes) :
          Keeps (Error.Within source) (Evaluation.Within source lenient) (fun _ => True) (modify change) :=
        keeps_modify fun state within => by rwa [Evaluation.Within, same]
      rw [fill]
      apply keeps_get.bind
      intro _ _
      split
      · exact keeps_pure trivial
      · refine Keeps.bind (keeps fun _ => rfl) fun _ _ => ?_
        apply keeps_filling.bind
        intro _ _
        exact Keeps.bind (keeps fun _ => rfl) fun _ _ => ih

theorem yields_value {graph : Graph} (within : NodesWithin source [] graph.nodes) :
    Yields (Error.Within source) (fun _ => True) graph.value := by
  rw [value]
  have keeps : Keeps (Error.Within source) (Evaluation.Within source []) (fun _ => True)
      (do
        let root ← item graph.root
        fill (graph.nodes.size + 1)
        return root : Evaluating Item) :=
    keeps_item.bind fun _ _ => (keeps_fill _).bind fun _ _ => keeps_pure trivial
  have start := keeps (.mk graph.nodes (.replicate graph.nodes.size none) (.replicate graph.nodes.size none) [])
    within
  exact start.bind fun _ _ => trivial

end Graph

/-- A text is read, or has a fault that it shows. -/
theorem yields_read (text : String) : Yields (Error.Within text.toList) (fun _ => True) (read text) := by
  rw [read]
  apply (Graph.yields_ofTokens (TokenStream.within_ofText text.toList)).bind
  intro root within
  split
  · trivial
  · exact Graph.yields_value (within _ rfl)

end Yaml

end TreeExport
