import TreeExport.Diagnostic
import TreeExport.Markup.Tag

/-!
The walk that turns a tree into lines of markup. It keeps a stack of tasks instead of recursing, so
the nesting of a tree is bounded by the depth limit alone. A key that is missing, leads back to an open
element or lies too deep writes nothing and is recorded as a defect.

`Walk.next` is one step of the walk and `Walk.run` all of it. `Walk.cost` bounds the number of steps
that are left: a visited element uses up its key until it is closed, so every task on the stack has a
cost that the free keys at its place determine.
-/

namespace TreeExport

inductive Line where
  | opening (column : Int) (key : String) (tag : List Char)
  | closing (column : Int) (component : String)
  | single (column : Int) (key : String) (tag : List Char)
  deriving DecidableEq, Repr

namespace Line

def column : Line → Int
  | .opening column _ _ => column
  | .closing column _ => column
  | .single column _ _ => column

def writtenKey? : Line → Option String
  | .opening _ key _ => some key
  | .closing _ _ => none
  | .single _ key _ => some key

def content : Line → List Char
  | .opening _ _ tag => '<' :: tag ++ ['>']
  | .closing _ component => '<' :: '/' :: component.toList ++ ['>']
  | .single _ _ tag => '<' :: tag ++ [' ', '/', '>']

/-- The text of a line. A column left of the margin counts as the margin. -/
def text (line : Line) : List Char :=
  List.replicate line.column.toNat ' ' ++ line.content

end Line

inductive Task where
  | visit (key : String) (column : Int)
  | close (component : String) (column : Int)
  deriving DecidableEq, Repr

structure Walk where
  /-- The tasks in the order in which they will be done. -/
  tasks : List Task
  /-- The keys of the open elements, innermost first. -/
  path : List String
  /-- The lines so far, last one first. -/
  lines : List Line
  /-- The defects so far, last one first. -/
  defects : List Defect
  deriving Repr

/-- What a walk ends with: its defects, and its lines unless some tag could not be written. -/
structure Emission where
  defects : List Defect
  outcome : Except Literal.Error (List Line)

def Walk.indentStep : Int := 2

namespace UITree

def resolve (tree : UITree) (limit : Int) (path : List String) (key : String) :
    Except Defect Element :=
  match tree.get? key with
  | none => .error (.missingElement key)
  | some element =>
    if path.contains key then .error (.cycle path.reverse key)
    else if limit ≤ path.length then .error (.depthLimit key limit)
    else .ok element

end UITree

namespace Walk

def start (key : String) (column : Int) : Walk :=
  ⟨[.visit key column], [], [], []⟩

def finish (walk : Walk) (outcome : Except Literal.Error (List Line)) : Emission :=
  ⟨walk.defects.reverse, outcome⟩

def next (tree : UITree) (limit : Int) (walk : Walk) : Walk ⊕ Emission :=
  match walk.tasks with
  | [] => .inr (walk.finish (.ok walk.lines.reverse))
  | .close component column :: tasks =>
    .inl ⟨tasks, walk.path.tail, .closing column component :: walk.lines, walk.defects⟩
  | .visit key column :: tasks =>
    match tree.resolve limit walk.path key with
    | .error defect => .inl ⟨tasks, walk.path, walk.lines, defect :: walk.defects⟩
    | .ok element =>
      match element.openTag with
      | .error failure => .inr (walk.finish (.error failure))
      | .ok tag =>
        if element.hasChildren then
          let inside := element.childKeys.map fun child => .visit child (column + indentStep)
          .inl ⟨inside ++ .close element.type column :: tasks, key :: walk.path,
            .opening column key tag :: walk.lines, walk.defects⟩
        else
          .inl ⟨tasks, walk.path, .single column key tag :: walk.lines, walk.defects⟩

def widest (tree : UITree) : Nat :=
  (tree.elements.map fun entry => entry.2.childKeys.length).foldr max 0

/-- The cost of a visit while a number of keys are free. -/
def visitCost (width : Nat) : (free : Nat) → Nat
  | 0 => 1
  | free + 1 => 2 + width * visitCost width free

def tasksCost (tree : UITree) : List Task → (path : List String) → Nat
  | [], _ => 0
  | .visit _ _ :: tasks, path =>
    visitCost (widest tree) (tree.keysOutside path).length + tasksCost tree tasks path
  | .close _ _ :: tasks, path => 1 + tasksCost tree tasks path.tail

/-- A bound on the number of steps that are left. -/
def cost (tree : UITree) (walk : Walk) : Nat :=
  tasksCost tree walk.tasks walk.path

theorem visitCost_pos (width free : Nat) : 0 < visitCost width free := by
  cases free <;> simp only [visitCost] <;> omega

theorem visitCost_le_succ (width free : Nat) :
    visitCost width free ≤ visitCost width (free + 1) := by
  induction free with
  | zero => simp only [visitCost]; omega
  | succ free ih =>
      simp only [visitCost] at ih ⊢
      have := Nat.mul_le_mul_left width ih
      omega

theorem visitCost_mono (width : Nat) {few many : Nat} (le : few ≤ many) :
    visitCost width few ≤ visitCost width many := by
  induction le with
  | refl => exact Nat.le_refl _
  | step _ ih => exact Nat.le_trans ih (visitCost_le_succ width _)

theorem childKeys_length_le_widest {tree : UITree} {key : String} {element : Element}
    (found : tree.get? key = some element) : element.childKeys.length ≤ widest tree := by
  obtain ⟨before, after, split, _⟩ := List.lookup_eq_some_iff.mp found
  unfold widest
  rw [split]
  generalize before = entries
  induction entries with
  | nil => simp only [List.nil_append, List.map_cons, List.foldr_cons]; omega
  | cons entry entries ih => simp only [List.cons_append, List.map_cons, List.foldr_cons] at ih ⊢; omega

theorem tasksCost_visits (tree : UITree) (keys : List String) (column : Int) (tasks : List Task)
    (path : List String) :
    tasksCost tree (keys.map (.visit · column) ++ tasks) path =
      keys.length * visitCost (widest tree) (tree.keysOutside path).length +
        tasksCost tree tasks path := by
  induction keys with
  | nil => simp
  | cons key keys ih =>
      simp only [List.map_cons, List.cons_append, tasksCost, ih, List.length_cons, Nat.add_mul]
      omega

theorem resolve_ok {tree : UITree} {limit : Int} {path : List String} {key : String}
    {element : Element} (resolved : tree.resolve limit path key = .ok element) :
    tree.get? key = some element ∧ key ∉ path ∧ (path.length : Int) < limit := by
  unfold UITree.resolve at resolved
  split at resolved
  · simp at resolved
  · split at resolved
    · simp at resolved
    · split at resolved
      · simp at resolved
      · simp_all

theorem next_cost_lt {tree : UITree} {limit : Int} {walk after : Walk}
    (stepped : walk.next tree limit = .inl after) : after.cost tree < walk.cost tree := by
  unfold next at stepped
  unfold cost
  split at stepped
  · simp at stepped
  · rename_i component column tasks pending
    injection stepped with stepped
    subst stepped
    simp [pending, tasksCost]
  · rename_i key column tasks pending
    have positive := visitCost_pos (widest tree) (tree.keysOutside walk.path).length
    split at stepped
    · injection stepped with stepped
      subst stepped
      simp only [pending, tasksCost]
      omega
    · rename_i element resolved
      obtain ⟨found, fresh, _⟩ := resolve_ok resolved
      split at stepped
      · simp at stepped
      · split at stepped
        · injection stepped with stepped
          subst stepped
          simp only [pending, tasksCost_visits, tasksCost, List.tail_cons]
          have fewer := UITree.keysOutside_cons_lt found fresh
          obtain ⟨free, free_eq⟩ : ∃ free, (tree.keysOutside walk.path).length = free + 1 :=
            ⟨(tree.keysOutside walk.path).length - 1, by omega⟩
          rw [free_eq] at fewer ⊢
          have bound : element.childKeys.length *
              visitCost (widest tree) (tree.keysOutside (key :: walk.path)).length ≤
                widest tree * visitCost (widest tree) free :=
            Nat.mul_le_mul (childKeys_length_le_widest found) (visitCost_mono _ (by omega))
          simp only [visitCost]
          omega
        · injection stepped with stepped
          subst stepped
          simp only [pending, tasksCost]
          omega

def run (tree : UITree) (limit : Int) (walk : Walk) : Emission :=
  match _ : walk.next tree limit with
  | .inl after => run tree limit after
  | .inr emission => emission
  termination_by walk.cost tree
  decreasing_by exact next_cost_lt ‹_›

end Walk

namespace UITree

def emit (tree : UITree) (limit : Int) (key : String) (column : Int) : Emission :=
  (Walk.start key column).run tree limit

end UITree

namespace Emission

def joinLines (lines : List Line) : String :=
  String.ofList (['\n'].intercalate (lines.map Line.text))

def text (emission : Emission) : Except Literal.Error String :=
  emission.outcome.map joinLines

end Emission

def defaultMaxDepth : Int := 256

structure Emitter where
  tree : UITree
  limit : Int
  defects : List Defect

namespace Emitter

def ofTree (tree : UITree) (limit : Int) : Emitter := ⟨tree, limit, []⟩

/-- The markup below a key, and the emitter with the record that the walk goes on with. -/
def emit (emitter : Emitter) (key : String) (column : Int) :
    Except Literal.Error String × Emitter :=
  let walk := { Walk.start key column with defects := emitter.defects.reverse }
  let emission := walk.run emitter.tree emitter.limit
  (emission.text, { emitter with defects := emission.defects })

end Emitter

end TreeExport
