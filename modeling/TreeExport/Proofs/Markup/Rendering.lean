import TreeExport.Markup.Walk

/-!
The markup of a tree as a recursion over its elements. The walk with its stack of tasks writes the same
lines, meets the same defects and fails for the same reason.
-/

namespace TreeExport

namespace Emission

def empty : Emission := ⟨[], .ok []⟩

def append (first second : Emission) : Emission :=
  match first.outcome with
  | .error _ => first
  | .ok lines => ⟨first.defects ++ second.defects, second.outcome.map (lines ++ ·)⟩

instance : Append Emission := ⟨append⟩

def concat (parts : List Emission) : Emission :=
  parts.foldr (· ++ ·) empty

def ofDefect (defect : Defect) : Emission := ⟨[defect], .ok []⟩

def ofLine (line : Line) : Emission := ⟨[], .ok [line]⟩

def ofTag (element : Element) (line : List Char → Line) : Emission :=
  ⟨[], element.openTag.map fun tag => [line tag]⟩

theorem exists_of_ofTag {element : Element} {line : List Char → Line} {lines : List Line}
    (written : (ofTag element line).outcome = .ok lines) :
    ∃ tag, element.openTag = .ok tag ∧ lines = [line tag] := by
  cases tag : element.openTag with
  | error failure => simp [ofTag, tag, Except.map] at written
  | ok text =>
      obtain rfl : [line text] = lines := by simpa [ofTag, tag, Except.map] using written
      exact ⟨text, rfl, rfl⟩

theorem ok_append (defects : List Defect) (lines : List Line) (second : Emission) :
    (⟨defects, .ok lines⟩ : Emission) ++ second =
      ⟨defects ++ second.defects, second.outcome.map (lines ++ ·)⟩ := rfl

theorem error_append (defects : List Defect) (failure : Literal.Error) (second : Emission) :
    (⟨defects, .error failure⟩ : Emission) ++ second = ⟨defects, .error failure⟩ := rfl

@[simp] theorem empty_append (second : Emission) : empty ++ second = second := by
  obtain ⟨defects, outcome⟩ := second
  cases outcome <;> rfl

@[simp] theorem append_empty (first : Emission) : first ++ empty = first := by
  obtain ⟨defects, outcome⟩ := first
  cases outcome with
  | error failure => rfl
  | ok lines => simp [ok_append, empty, Except.map]

theorem append_assoc (first second third : Emission) :
    first ++ second ++ third = first ++ (second ++ third) := by
  obtain ⟨_, first⟩ := first
  obtain ⟨_, second⟩ := second
  obtain ⟨_, third⟩ := third
  cases first <;> cases second <;> cases third <;>
    simp [ok_append, error_append, Except.map]

@[simp] theorem concat_nil : concat [] = empty := rfl

@[simp] theorem concat_cons (part : Emission) (parts : List Emission) :
    concat (part :: parts) = part ++ concat parts := rfl

theorem concat_append (first second : List Emission) :
    concat (first ++ second) = concat first ++ concat second := by
  induction first with
  | nil => simp
  | cons part parts ih => simp [ih, append_assoc]

end Emission

namespace UITree

/-- The markup at a key below its ancestors, outermost first, by recursion over the children. -/
def rendering (tree : UITree) (limit : Int) (key : String) (ancestors : List String)
    (column : Int) : Emission :=
  match _found : tree.get? key with
  | none => .ofDefect (.missingElement key)
  | some element =>
    if _inside : key ∈ ancestors then .ofDefect (.cycle ancestors key)
    else if limit ≤ ancestors.length then .ofDefect (.depthLimit key limit)
    else if element.childKeys = [] then .ofTag element (.single column key)
    else
      let children := element.childKeys.map fun child =>
        rendering tree limit child (ancestors ++ [key]) (column + 2)
      .ofTag element (.opening column key) ++ .concat children
        ++ .ofLine (.closing column element.type)
  termination_by (tree.keysOutside ancestors).length
  decreasing_by exact keysOutside_append_singleton_lt ‹_› ‹_›

theorem resolve_eq_error_iff {tree : UITree} {limit : Int} {ancestors : List String}
    {key : String} {defect : Defect} :
    tree.resolve limit ancestors.reverse key = .error defect ↔
      (tree.get? key = none ∧ defect = .missingElement key) ∨
      ((tree.get? key).isSome ∧ key ∈ ancestors ∧ defect = .cycle ancestors key) ∨
      ((tree.get? key).isSome ∧ key ∉ ancestors ∧ limit ≤ ancestors.length ∧
        defect = .depthLimit key limit) := by
  unfold resolve
  cases tree.get? key with
  | none => simp [eq_comm]
  | some element =>
      by_cases inside : key ∈ ancestors
      · simp [inside, eq_comm]
      · by_cases deep : limit ≤ ancestors.length
        · simp [inside, deep, eq_comm]
        · simp [inside, deep]

theorem resolve_eq_ok_iff {tree : UITree} {limit : Int} {ancestors : List String}
    {key : String} {element : Element} :
    tree.resolve limit ancestors.reverse key = .ok element ↔
      tree.get? key = some element ∧ key ∉ ancestors ∧ (ancestors.length : Int) < limit := by
  unfold resolve
  cases tree.get? key with
  | none => simp
  | some other =>
      by_cases inside : key ∈ ancestors
      · simp [inside]
      · by_cases deep : limit ≤ ancestors.length
        · simp [inside, deep, Int.not_lt.mpr deep]
        · simp [inside, deep, Int.not_le.mp deep]

/-- Induction along the walk: a key where an element is written may rely on its children. -/
@[elab_as_elim]
theorem visit_induction (tree : UITree) (limit : Int) {motive : String → List String → Prop}
    (skipped : ∀ key ancestors defect,
      tree.resolve limit ancestors.reverse key = .error defect → motive key ancestors)
    (entered : ∀ key ancestors element,
      tree.resolve limit ancestors.reverse key = .ok element →
      (∀ child, motive child (ancestors ++ [key])) → motive key ancestors)
    (key : String) (ancestors : List String) : motive key ancestors := by
  generalize free_eq : (tree.keysOutside ancestors).length = free
  induction free using Nat.strongRecOn generalizing key ancestors with
  | ind free ih =>
      cases resolved : tree.resolve limit ancestors.reverse key with
      | error defect => exact skipped key ancestors defect resolved
      | ok element =>
          apply entered key ancestors element resolved
          intro child
          obtain ⟨found, fresh, _⟩ := resolve_eq_ok_iff.mp resolved
          have fewer := keysOutside_append_singleton_lt found fresh
          exact ih _ (by omega) child (ancestors ++ [key]) rfl

theorem rendering_of_error {tree : UITree} {limit : Int} {key : String} {ancestors : List String}
    {defect : Defect} (resolved : tree.resolve limit ancestors.reverse key = .error defect)
    (column : Int) : tree.rendering limit key ancestors column = .ofDefect defect := by
  rw [rendering]
  rcases resolve_eq_error_iff.mp resolved with
    ⟨missing, rfl⟩ | ⟨held, inside, rfl⟩ | ⟨held, fresh, deep, rfl⟩
  · split <;> simp_all
  · split <;> simp_all
  · split <;> simp_all

theorem rendering_of_leaf {tree : UITree} {limit : Int} {key : String} {ancestors : List String}
    {element : Element} (resolved : tree.resolve limit ancestors.reverse key = .ok element)
    (leaf : element.childKeys = []) (column : Int) :
    tree.rendering limit key ancestors column = .ofTag element (.single column key) := by
  obtain ⟨found, fresh, shallow⟩ := resolve_eq_ok_iff.mp resolved
  have within : ¬limit ≤ ancestors.length := Int.not_le.mpr shallow
  rw [rendering]
  split
  · simp_all
  · rename_i other same
    obtain rfl : other = element := by simpa [found] using same.symm
    simp [fresh, within, leaf]

theorem rendering_of_inner {tree : UITree} {limit : Int} {key : String} {ancestors : List String}
    {element : Element} (resolved : tree.resolve limit ancestors.reverse key = .ok element)
    (inner : element.childKeys ≠ []) (column : Int) :
    tree.rendering limit key ancestors column =
      .ofTag element (.opening column key) ++
        .concat (element.childKeys.map
          (tree.rendering limit · (ancestors ++ [key]) (column + 2))) ++
        .ofLine (.closing column element.type) := by
  obtain ⟨found, fresh, shallow⟩ := resolve_eq_ok_iff.mp resolved
  have within : ¬limit ≤ ancestors.length := Int.not_le.mpr shallow
  rw [rendering]
  split
  · simp_all
  · rename_i other same
    obtain rfl : other = element := by simpa [found] using same.symm
    simp [fresh, within, inner]

end UITree

namespace Walk

def done (walk : Walk) : Emission := ⟨walk.defects.reverse, .ok walk.lines.reverse⟩

def rest (tree : UITree) (limit : Int) (tasks : List Task) (path : List String) : Emission :=
  run tree limit ⟨tasks, path, [], []⟩

theorem run_of_next {tree : UITree} {limit : Int} {walk after : Walk}
    (stepped : walk.next tree limit = .inl after) :
    walk.run tree limit = after.run tree limit := by
  rw [run]
  split
  · rename_i other same
    rw [stepped] at same
    injection same with same
    rw [same]
  · rename_i emission same
    rw [stepped] at same
    injection same

theorem run_of_end {tree : UITree} {limit : Int} {walk : Walk} {emission : Emission}
    (stepped : walk.next tree limit = .inr emission) : walk.run tree limit = emission := by
  rw [run]
  split
  · rename_i other same
    rw [stepped] at same
    injection same
  · rename_i other same
    rw [stepped] at same
    injection same with same
    exact same.symm

theorem next_eq (tree : UITree) (limit : Int) (walk : Walk) :
    walk.next tree limit =
      match next tree limit ⟨walk.tasks, walk.path, [], []⟩ with
      | .inl after => .inl ⟨after.tasks, after.path, after.lines ++ walk.lines,
          after.defects ++ walk.defects⟩
      | .inr emission => .inr (walk.done ++ emission) := by
  obtain ⟨tasks, path, lines, defects⟩ := walk
  rcases tasks with _ | ⟨⟨key, column⟩ | ⟨component, column⟩, tasks⟩
  · simp [next, finish, done, Emission.ok_append, Except.map]
  · simp only [next]
    cases tree.resolve limit path key with
    | error defect => simp
    | ok element =>
        cases written : element.openTag with
        | error failure => simp [written, finish, done, Emission.ok_append, Except.map]
        | ok tag =>
            by_cases inner : element.hasChildren
            · simp [written, inner]
            · simp [written, inner]
  · simp [next]

theorem run_eq_done_append (tree : UITree) (limit : Int) (walk : Walk) :
    walk.run tree limit = walk.done ++ rest tree limit walk.tasks walk.path := by
  generalize size : walk.cost tree = cost
  induction cost using Nat.strongRecOn generalizing walk with
  | ind cost ih =>
      -- A walk without a past takes the same step, and both go on with a lower cost.
      have step := next_eq tree limit walk
      cases fresh : next tree limit ⟨walk.tasks, walk.path, [], []⟩ with
      | inl after =>
          simp only [fresh] at step
          have lower := next_cost_lt fresh
          have fewer : after.cost tree < cost := by
            rw [← size]
            exact lower
          have behind : rest tree limit walk.tasks walk.path =
              after.done ++ rest tree limit after.tasks after.path := by
            rw [rest, run_of_next fresh]
            exact ih _ fewer after rfl
          have together : walk.run tree limit = Walk.done ⟨after.tasks, after.path,
              after.lines ++ walk.lines, after.defects ++ walk.defects⟩ ++
                rest tree limit after.tasks after.path := by
            rw [run_of_next step]
            exact ih _ fewer _ rfl
          rw [together, behind, ← Emission.append_assoc]
          simp [done, Emission.ok_append, Except.map]
      | inr emission =>
          simp only [fresh] at step
          rw [run_of_end step, rest, run_of_end fresh]

@[simp] theorem rest_nil (tree : UITree) (limit : Int) (path : List String) :
    rest tree limit [] path = .empty :=
  run_of_end rfl

theorem rest_close (tree : UITree) (limit : Int) (component : String) (column : Int)
    (tasks : List Task) (path : List String) :
    rest tree limit (.close component column :: tasks) path =
      .ofLine (.closing column component) ++ rest tree limit tasks path.tail := by
  rw [rest, run_of_next rfl, run_eq_done_append]
  rfl

theorem rest_visit_of_error {tree : UITree} {limit : Int} {key : String} {path : List String}
    {defect : Defect} (resolved : tree.resolve limit path key = .error defect) (column : Int)
    (tasks : List Task) :
    rest tree limit (.visit key column :: tasks) path =
      .ofDefect defect ++ rest tree limit tasks path := by
  have stepped : next tree limit ⟨.visit key column :: tasks, path, [], []⟩ =
      .inl ⟨tasks, path, [], [defect]⟩ := by simp [next, resolved]
  rw [rest, run_of_next stepped, run_eq_done_append]
  rfl

theorem rest_visit_of_ok {tree : UITree} {limit : Int} {key : String} {path : List String}
    {element : Element} (resolved : tree.resolve limit path key = .ok element) (column : Int)
    (tasks : List Task) :
    rest tree limit (.visit key column :: tasks) path =
      if element.childKeys = [] then
        .ofTag element (.single column key) ++ rest tree limit tasks path
      else
        .ofTag element (.opening column key) ++
          rest tree limit (element.childKeys.map (.visit · (column + 2)) ++
            .close element.type column :: tasks) (key :: path) := by
  cases written : element.openTag with
  | error failure =>
      have stepped : next tree limit ⟨.visit key column :: tasks, path, [], []⟩ =
          .inr ⟨[], .error failure⟩ := by simp [next, resolved, written, finish]
      rw [rest, run_of_end stepped]
      split <;> simp [Emission.ofTag, written, Except.map, Emission.error_append]
  | ok tag =>
      by_cases leaf : element.childKeys = []
      · have stepped : next tree limit ⟨.visit key column :: tasks, path, [], []⟩ =
            .inl ⟨tasks, path, [.single column key tag], []⟩ := by
          simp [next, resolved, written, Element.hasChildren, leaf]
        rw [rest, run_of_next stepped, run_eq_done_append]
        simp [leaf, Emission.ofTag, written, done, Except.map]
      · have stepped : next tree limit ⟨.visit key column :: tasks, path, [], []⟩ =
            .inl ⟨element.childKeys.map (.visit · (column + 2)) ++
              .close element.type column :: tasks, key :: path, [.opening column key tag], []⟩ := by
          simp [next, resolved, written, Element.hasChildren, leaf, indentStep]
        rw [rest, run_of_next stepped, run_eq_done_append]
        simp [leaf, Emission.ofTag, written, done, Except.map]

theorem rest_visits {tree : UITree} {limit : Int} {ancestors : List String} (column : Int)
    (keys : List String) (tasks : List Task)
    (each : ∀ key tasks, rest tree limit (.visit key column :: tasks) ancestors.reverse =
      tree.rendering limit key ancestors column ++ rest tree limit tasks ancestors.reverse) :
    rest tree limit (keys.map (.visit · column) ++ tasks) ancestors.reverse =
      .concat (keys.map (tree.rendering limit · ancestors column)) ++
        rest tree limit tasks ancestors.reverse := by
  induction keys with
  | nil => simp
  | cons key keys ih =>
      simp only [List.map_cons, List.cons_append, Emission.concat_cons]
      rw [each, ih, Emission.append_assoc]

/-- A visit gives the rendering of its key, whatever tasks follow. -/
theorem rest_visit (tree : UITree) (limit : Int) (key : String) (ancestors : List String)
    (column : Int) (tasks : List Task) :
    rest tree limit (.visit key column :: tasks) ancestors.reverse =
      tree.rendering limit key ancestors column ++ rest tree limit tasks ancestors.reverse := by
  induction key, ancestors using tree.visit_induction limit generalizing column tasks with
  | skipped key ancestors defect resolved =>
      rw [rest_visit_of_error resolved, UITree.rendering_of_error resolved]
  | entered key ancestors element resolved ih =>
      rw [rest_visit_of_ok resolved]
      by_cases leaf : element.childKeys = []
      · rw [if_pos leaf, UITree.rendering_of_leaf resolved leaf]
      · have path_eq : key :: ancestors.reverse = (ancestors ++ [key]).reverse := by simp
        have children := rest_visits (column + 2) element.childKeys
          (.close element.type column :: tasks) fun child tasks => ih child (column + 2) tasks
        rw [if_neg leaf, UITree.rendering_of_inner resolved leaf, path_eq, children, rest_close]
        simp [Emission.append_assoc]

end Walk

namespace UITree

theorem emit_eq_rendering (tree : UITree) (limit : Int) (key : String) (column : Int) :
    tree.emit limit key column = tree.rendering limit key [] column := by
  have visited : tree.emit limit key column = tree.rendering limit key [] column ++ .empty := by
    rw [← Walk.rest_nil tree limit []]
    exact Walk.rest_visit tree limit key [] column []
  rw [visited, Emission.append_empty]

end UITree

namespace Emitter

theorem emit_eq (emitter : Emitter) (key : String) (column : Int) :
    emitter.emit key column =
      let emission := emitter.tree.emit emitter.limit key column
      (emission.text, { emitter with defects := emitter.defects ++ emission.defects }) := by
  have recorded : Walk.run emitter.tree emitter.limit
      { Walk.start key column with defects := emitter.defects.reverse } =
        ⟨emitter.defects, .ok []⟩ ++ emitter.tree.emit emitter.limit key column := by
    rw [Walk.run_eq_done_append, Walk.done, List.reverse_reverse]
    rfl
  have text : (⟨emitter.defects, .ok []⟩ ++ emitter.tree.emit emitter.limit key column).text =
      (emitter.tree.emit emitter.limit key column).text := by
    rw [Emission.ok_append, Emission.text, Emission.text]
    cases (emitter.tree.emit emitter.limit key column).outcome <;> rfl
  rw [emit, recorded, text, Emission.ok_append]

/-- An emitter gives the text of the rendering below a key, or the failure of the first tag that cannot
be written, and records the defects of the rendering behind those it has recorded before. -/
theorem emit_recursively (emitter : Emitter) (key : String) (column : Int) :
    emitter.emit key column =
      let rendering := emitter.tree.rendering emitter.limit key [] column
      (rendering.text, { emitter with defects := emitter.defects ++ rendering.defects }) := by
  simp only [emit_eq, UITree.emit_eq_rendering]

end Emitter

end TreeExport
