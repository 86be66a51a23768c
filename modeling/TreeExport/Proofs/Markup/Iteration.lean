import TreeExport.Proofs.Markup.Rendering
import TreeExport.Proofs.Tree.Chain
import Mathlib.Data.Finset.Card
import Mathlib.Data.List.Chain

/-!
The walk as a loop that keeps the open keys twice, in order on a path and as a set of marks. The marks tell
whether a key is open, and closing an element takes its key off the path and out of the marks, which fails
if nothing is open. One step keeps the path a chain of different elements from the start, the marks its keys
and the tasks in their places below it, so the loop never fails and ends with what the walk emits.
-/

namespace TreeExport

namespace Task

def isClosing : Task → Bool
  | .visit _ _ => false
  | .close _ _ => true

end Task

structure MarkedWalk where
  walk : Walk
  marks : Finset String

namespace MarkedWalk

inductive Turn where
  | goes (after : MarkedWalk)
  | ends (emission : Emission)
  /-- An element is to be closed and none is open. -/
  | underflows

def start (key : String) (column : Int) : MarkedWalk := ⟨.start key column, ∅⟩

def resolve (tree : UITree) (limit : Int) (state : MarkedWalk) (key : String) : Except Defect Element :=
  match tree.get? key with
  | none => .error (.missingElement key)
  | some element =>
    if key ∈ state.marks then .error (.cycle state.walk.path.reverse key)
    else if limit ≤ state.walk.path.length then .error (.depthLimit key limit)
    else .ok element

def next (tree : UITree) (limit : Int) (state : MarkedWalk) : Turn :=
  let ⟨tasks, path, lines, defects⟩ := state.walk
  match tasks with
  | [] => .ends ⟨defects.reverse, .ok lines.reverse⟩
  | .close component column :: tasks =>
    match path with
    | [] => .underflows
    | key :: path => .goes ⟨⟨tasks, path, .closing column component :: lines, defects⟩, state.marks.erase key⟩
  | .visit key column :: tasks =>
    match state.resolve tree limit key with
    | .error defect => .goes ⟨⟨tasks, path, lines, defect :: defects⟩, state.marks⟩
    | .ok element =>
      match element.openTag with
      | .error failure => .ends ⟨defects.reverse, .error failure⟩
      | .ok tag =>
        if element.hasChildren then
          let inside := element.childKeys.map fun child => .visit child (column + Walk.indentStep)
          .goes ⟨⟨inside ++ .close element.type column :: tasks, key :: path,
            .opening column key tag :: lines, defects⟩, insert key state.marks⟩
        else .goes ⟨⟨tasks, path, .single column key tag :: lines, defects⟩, state.marks⟩

def Records (tree : UITree) (limit : Int) (state : MarkedWalk) (defect : Defect) : Prop :=
  ∃ key column tasks, state.walk.tasks = .visit key column :: tasks ∧
    state.resolve tree limit key = .error defect

/-- The states that the loop comes to, with the number of turns before. -/
inductive Iterates (tree : UITree) (limit : Int) (key : String) (column : Int) : Nat → MarkedWalk → Prop
  | start : Iterates tree limit key column 0 (start key column)
  | turn {count state after} : Iterates tree limit key column count state →
      state.next tree limit = .goes after → Iterates tree limit key column (count + 1) after

end MarkedWalk

namespace UITree

/-- Whether a key may be visited below a path, innermost key first: as the start, or as a child. -/
def Below (tree : UITree) (start : String) : (path : List String) → (key : String) → Prop
  | [], key => key = start
  | parent :: _, key => tree.Link parent key

inductive Opened (tree : UITree) (start : String) : (path : List String) → Prop
  | none : Opened tree start []
  | push {path key} : Opened tree start path → tree.Below start path key → tree.Holds key → key ∉ path →
      Opened tree start (key :: path)

/-- Stacks of tasks in their places below a path. A closing task ends the visits below one open element. -/
inductive Placed (tree : UITree) (start : String) (margin : Int) : List Task → (path : List String) → Prop
  | done : Placed tree start margin [] []
  | visit {tasks path key} {column : Int} : tree.Below start path key → column = margin + 2 * path.length →
      Placed tree start margin tasks path → Placed tree start margin (.visit key column :: tasks) path
  | close {tasks path key component column} : Placed tree start margin tasks path →
      Placed tree start margin (.close component column :: tasks) (key :: path)

variable {tree : UITree} {start key : String} {path : List String} {margin : Int} {tasks : List Task}

namespace Opened

theorem nodup (opened : tree.Opened start path) : path.Nodup := by
  induction opened with
  | none => exact List.nodup_nil
  | push _ _ _ fresh ih => exact List.nodup_cons.mpr ⟨fresh, ih⟩

theorem holds (opened : tree.Opened start path) {k : String} (member : k ∈ path) : tree.Holds k := by
  induction opened with
  | none => simp at member
  | push _ _ held _ ih =>
      rcases List.mem_cons.mp member with rfl | above
      · exact held
      · exact ih above

theorem getLast?_eq (opened : tree.Opened start path) : ∀ first ∈ path.getLast?, first = start := by
  induction opened with
  | none => simp
  | @push path key _ below _ _ ih =>
      intro first isFirst
      cases path with
      | nil =>
          rw [List.getLast?_singleton, Option.mem_some_iff] at isFirst
          rw [← isFirst]
          exact below
      | cons parent above => exact ih first (by simpa using isFirst)

theorem links (opened : tree.Opened start path) : path.reverse.IsChain tree.Link := by
  rw [List.isChain_reverse]
  induction opened with
  | none => exact .nil
  | @push path key _ below _ _ ih =>
      cases path with
      | nil => exact .singleton key
      | cons parent above => exact .cons_cons below ih

theorem chain (opened : tree.Opened start path) (below : tree.Below start path key) :
    tree.Chain start path.reverse key := by
  induction opened generalizing key with
  | none =>
      rw [show key = start from below]
      exact .here
  | push _ parentBelow _ _ ih =>
      rw [List.reverse_cons]
      exact (ih parentBelow).down below

/-- Open elements are different elements of the tree, so there are no more of them than elements. -/
theorem length_le (opened : tree.Opened start path) : path.length ≤ tree.elements.keys.toFinset.card := by
  rw [← List.toFinset_card_of_nodup opened.nodup]
  apply Finset.card_le_card
  intro k member
  obtain ⟨element, found⟩ := opened.holds (List.mem_toFinset.mp member)
  exact List.mem_toFinset.mpr (mem_keys_of_get? found)

end Opened

namespace Placed

theorem countP_isClosing (placed : tree.Placed start margin tasks path) :
    tasks.countP Task.isClosing = path.length := by
  induction placed with
  | done => rfl
  | visit _ _ _ ih => rw [List.countP_cons_of_neg (by simp [Task.isClosing]), ih]
  | close _ ih => rw [List.countP_cons_of_pos rfl, ih, List.length_cons]

theorem visits {column : Int} {keys : List String} (placed : tree.Placed start margin tasks path)
    (below : ∀ key ∈ keys, tree.Below start path key) (place : column = margin + 2 * path.length) :
    tree.Placed start margin (keys.map (.visit · column) ++ tasks) path := by
  induction keys with
  | nil => exact placed
  | cons key keys ih =>
      apply visit (below key List.mem_cons_self) place
      exact ih fun key member => below key (List.mem_cons_of_mem _ member)

end Placed

end UITree

namespace MarkedWalk

variable {tree : UITree} {limit : Int} {start : String} {margin : Int} {count : Nat}
variable {state after : MarkedWalk} {defect : Defect} {emission : Emission}

/-- The invariant of the loop below a start at a margin. -/
structure Sound (tree : UITree) (limit : Int) (start : String) (margin : Int) (state : MarkedWalk) :
    Prop where
  placed : tree.Placed start margin state.walk.tasks state.walk.path
  opened : tree.Opened start state.walk.path
  marked : ∀ key, key ∈ state.marks ↔ key ∈ state.walk.path
  within : (state.walk.path.length : Int) ≤ max limit 0
  emits : state.walk.run tree limit = tree.emit limit start margin

theorem sound_start (tree : UITree) (limit : Int) (start : String) (margin : Int) :
    Sound tree limit start margin (.start start margin) where
  placed := .visit rfl (Int.add_zero margin).symm .done
  opened := .none
  marked := fun key => by simp [MarkedWalk.start, Walk.start]
  within := Int.le_max_right limit 0
  emits := rfl

theorem Sound.resolve_eq (sound : Sound tree limit start margin state) (key : String) :
    state.resolve tree limit key = tree.resolve limit state.walk.path key := by
  rw [resolve, UITree.resolve]
  cases tree.get? key with
  | none => rfl
  | some element => simp only [sound.marked, List.contains_iff_mem]

section

variable {key component : String} {column : Int} {element : Element} {tasks : List Task} {path : List String}
variable {lines more : List Line} {defects others : List Defect} {marks : Finset String}

theorem Sound.pass (sound : Sound tree limit start margin ⟨⟨.visit key column :: tasks, path, lines, defects⟩, marks⟩)
    (stepped : Walk.next tree limit ⟨.visit key column :: tasks, path, lines, defects⟩ =
      .inl ⟨tasks, path, more, others⟩) :
    Sound tree limit start margin ⟨⟨tasks, path, more, others⟩, marks⟩ := by
  obtain ⟨placed, opened, marked, within, emits⟩ := sound
  cases placed with
  | visit _ _ placed => exact ⟨placed, opened, marked, within, (Walk.run_of_next stepped).symm.trans emits⟩

theorem Sound.push (sound : Sound tree limit start margin ⟨⟨.visit key column :: tasks, path, lines, defects⟩, marks⟩)
    (resolved : tree.resolve limit path key = .ok element)
    (stepped : Walk.next tree limit ⟨.visit key column :: tasks, path, lines, defects⟩ =
      .inl ⟨element.childKeys.map (.visit · (column + Walk.indentStep)) ++ .close element.type column :: tasks,
        key :: path, more, others⟩) :
    Sound tree limit start margin
      ⟨⟨element.childKeys.map (.visit · (column + Walk.indentStep)) ++ .close element.type column :: tasks,
        key :: path, more, others⟩, insert key marks⟩ := by
  obtain ⟨found, fresh, shallow⟩ := Walk.resolve_ok resolved
  obtain ⟨placed, opened, marked, _, emits⟩ := sound
  cases placed with
  | visit below place placed =>
      -- The children wait above the closing task, so the key stays on the path until all of them are done.
      have pushed : tree.Opened start (key :: path) := opened.push below ⟨element, found⟩ fresh
      refine ⟨?_, pushed, ?_, ?_, (Walk.run_of_next stepped).symm.trans emits⟩
      · apply UITree.Placed.visits (.close placed)
        · intro child member
          exact ⟨element, found, member⟩
        · simp only [Walk.indentStep, List.length_cons, place]
          omega
      · intro k
        have marked : k ∈ marks ↔ k ∈ path := marked k
        rw [Finset.mem_insert, List.mem_cons, marked]
      · simp only [List.length_cons]
        omega

theorem Sound.pop
    (sound : Sound tree limit start margin ⟨⟨.close component column :: tasks, key :: path, lines, defects⟩, marks⟩) :
    Sound tree limit start margin
      ⟨⟨tasks, path, .closing column component :: lines, defects⟩, marks.erase key⟩ := by
  obtain ⟨placed, opened, marked, within, emits⟩ := sound
  cases placed with
  | close placed =>
      cases opened with
      | push opened _ _ fresh =>
          refine ⟨placed, opened, ?_, ?_, (Walk.run_of_next rfl).symm.trans emits⟩
          · -- No key is on the path twice, so the mark of the closed one can go.
            intro k
            have marked : k ∈ marks ↔ k = key ∨ k ∈ path := by simpa using marked k
            rw [Finset.mem_erase, marked]
            constructor
            · rintro ⟨other, rfl | above⟩
              · exact absurd rfl other
              · exact above
            · intro above
              exact ⟨fun same => fresh (same ▸ above), Or.inr above⟩
          · have within : ((path.length + 1 : Nat) : Int) ≤ max limit 0 := within
            show (path.length : Int) ≤ max limit 0
            omega

end

/-- A turn of the loop is a step of the walk and keeps the invariant; it never fails. -/
theorem Sound.next (sound : Sound tree limit start margin state) :
    (∃ after, state.next tree limit = .goes after ∧ state.walk.next tree limit = .inl after.walk ∧
      Sound tree limit start margin after) ∨
    ∃ emission, state.next tree limit = .ends emission ∧ state.walk.next tree limit = .inr emission := by
  have resolve_eq := sound.resolve_eq
  obtain ⟨⟨tasks, path, lines, defects⟩, marks⟩ := state
  rcases tasks with _ | ⟨⟨key, column⟩ | ⟨component, column⟩, tasks⟩
  · exact Or.inr ⟨⟨defects.reverse, .ok lines.reverse⟩, rfl, rfl⟩
  · -- Only an element with children opens; a defect and a leaf leave the path as it is.
    cases resolved : tree.resolve limit path key with
    | error defect =>
        have stepped : Walk.next tree limit ⟨.visit key column :: tasks, path, lines, defects⟩ =
            .inl ⟨tasks, path, lines, defect :: defects⟩ := by simp [Walk.next, resolved]
        exact Or.inl ⟨_, by simp [MarkedWalk.next, resolve_eq, resolved], stepped, sound.pass stepped⟩
    | ok element =>
        cases written : element.openTag with
        | error failure =>
            refine Or.inr ⟨⟨defects.reverse, .error failure⟩, ?_, ?_⟩
            · simp [MarkedWalk.next, resolve_eq, resolved, written]
            · simp [Walk.next, resolved, written, Walk.finish]
        | ok tag =>
            by_cases inner : element.hasChildren
            · have stepped : Walk.next tree limit ⟨.visit key column :: tasks, path, lines, defects⟩ =
                  .inl ⟨element.childKeys.map (.visit · (column + Walk.indentStep)) ++
                    .close element.type column :: tasks, key :: path,
                    .opening column key tag :: lines, defects⟩ := by
                simp [Walk.next, resolved, written, inner]
              exact Or.inl ⟨_, by simp [MarkedWalk.next, resolve_eq, resolved, written, inner], stepped,
                sound.push resolved stepped⟩
            · have stepped : Walk.next tree limit ⟨.visit key column :: tasks, path, lines, defects⟩ =
                  .inl ⟨tasks, path, .single column key tag :: lines, defects⟩ := by
                simp [Walk.next, resolved, written, inner]
              exact Or.inl ⟨_, by simp [MarkedWalk.next, resolve_eq, resolved, written, inner], stepped,
                sound.pass stepped⟩
  · cases path with
    | nil => cases sound.placed
    | cons key path => exact Or.inl ⟨_, rfl, rfl, sound.pop⟩

theorem Sound.goes (sound : Sound tree limit start margin state)
    (turned : state.next tree limit = .goes after) :
    state.walk.next tree limit = .inl after.walk ∧ Sound tree limit start margin after := by
  rcases sound.next with ⟨other, turnedToo, stepped, kept⟩ | ⟨emission, ended, _⟩
  · obtain rfl : after = other := by simpa [turned] using turnedToo
    exact ⟨stepped, kept⟩
  · simp [turned] at ended

theorem Iterates.sound (iterates : Iterates tree limit start margin count state) :
    Sound tree limit start margin state := by
  induction iterates with
  | start => exact sound_start tree limit start margin
  | turn _ turned ih => exact (ih.goes turned).2

/-- Every turn uses up some of the cost of the walk. -/
theorem Iterates.count_add_cost_le (iterates : Iterates tree limit start margin count state) :
    count + state.walk.cost tree ≤ (Walk.start start margin).cost tree := by
  induction iterates with
  | start => simp [MarkedWalk.start]
  | turn before turned ih =>
      have lower := Walk.next_cost_lt (before.sound.goes turned).1
      omega

theorem Iterates.exists_end (iterates : Iterates tree limit start margin count state) :
    ∃ count state, Iterates tree limit start margin count state ∧
      state.next tree limit = .ends (tree.emit limit start margin) := by
  generalize size : state.walk.cost tree = cost
  induction cost using Nat.strongRecOn generalizing count state with
  | ind cost ih =>
      rcases iterates.sound.next with ⟨after, turned, stepped, _⟩ | ⟨emission, ended, stepped⟩
      · have lower := Walk.next_cost_lt stepped
        rw [size] at lower
        exact ih _ lower (iterates.turn turned) rfl
      · refine ⟨count, state, iterates, ?_⟩
        rw [ended, ← iterates.sound.emits, Walk.run_of_end stepped]

/-- The loop ends with what the walk emits. It takes no more turns than the walk costs; at each of them no
more elements are open than the limit allows and the tree has, the tasks close as many elements as are open,
and no element is to be closed while none is open. -/
theorem iterations_end (tree : UITree) (limit : Int) (start : String) (margin : Int) :
    (∃ count state, Iterates tree limit start margin count state ∧
      state.next tree limit = .ends (tree.emit limit start margin)) ∧
    ∀ count state, Iterates tree limit start margin count state →
      count ≤ (Walk.start start margin).cost tree ∧
      (state.walk.path.length : Int) ≤ min (max limit 0) tree.elements.keys.toFinset.card ∧
      state.walk.tasks.countP Task.isClosing = state.walk.path.length ∧
      state.next tree limit ≠ .underflows := by
  refine ⟨Iterates.start.exists_end, ?_⟩
  intro count state iterates
  have sound := iterates.sound
  have cost := iterates.count_add_cost_le
  have few := sound.opened.length_le
  have within := sound.within
  refine ⟨by omega, by omega, sound.placed.countP_isClosing, ?_⟩
  rcases sound.next with ⟨after, turned, _⟩ | ⟨emission, ended, _⟩
  · simp [turned]
  · simp [ended]

theorem Records.next (records : state.Records tree limit defect) :
    ∃ after, state.next tree limit = .goes after ∧ after.walk.defects = defect :: state.walk.defects := by
  obtain ⟨key, column, tasks, pending, resolved⟩ := records
  obtain ⟨⟨_, path, lines, defects⟩, marks⟩ := state
  obtain rfl : _ = Task.visit key column :: tasks := pending
  exact ⟨⟨⟨tasks, path, lines, defect :: defects⟩, marks⟩, by simp [MarkedWalk.next, resolved], rfl⟩

theorem next_defects (tree : UITree) (limit : Int) (state : MarkedWalk) :
    match state.next tree limit with
    | .goes after => after.walk.defects = state.walk.defects ∨
      ∃ defect, state.Records tree limit defect ∧ after.walk.defects = defect :: state.walk.defects
    | .ends emission => emission.defects = state.walk.defects.reverse
    | .underflows => True := by
  obtain ⟨⟨tasks, path, lines, defects⟩, marks⟩ := state
  rcases tasks with _ | ⟨⟨key, column⟩ | ⟨component, column⟩, tasks⟩
  · rfl
  · cases resolved : resolve tree limit ⟨⟨.visit key column :: tasks, path, lines, defects⟩, marks⟩ key with
    | error defect =>
        simp only [MarkedWalk.next, resolved]
        exact Or.inr ⟨defect, ⟨key, column, tasks, rfl, resolved⟩, rfl⟩
    | ok element =>
        simp only [MarkedWalk.next, resolved]
        cases element.openTag with
        | error failure => rfl
        | ok tag => cases element.hasChildren <;> exact Or.inl rfl
  · cases path with
    | nil => trivial
    | cons key path => exact Or.inl rfl

theorem Iterates.exists_records (iterates : Iterates tree limit start margin count state)
    (member : defect ∈ state.walk.defects) :
    ∃ count state, Iterates tree limit start margin count state ∧ state.Records tree limit defect := by
  induction iterates with
  | start => simp [MarkedWalk.start, Walk.start] at member
  | @turn count state after before turned ih =>
      have defects := next_defects tree limit state
      rw [turned] at defects
      rcases defects with same | ⟨other, records, more⟩
      · exact ih (same ▸ member)
      · rw [more] at member
        rcases List.mem_cons.mp member with rfl | earlier
        · exact ⟨count, state, before, records⟩
        · exact ih earlier

theorem mem_defects_iff_records : defect ∈ (tree.emit limit start margin).defects ↔
    ∃ count state, Iterates tree limit start margin count state ∧ state.Records tree limit defect := by
  constructor
  · intro member
    obtain ⟨count, state, iterates, ended⟩ :=
      (Iterates.start : Iterates tree limit start margin 0 _).exists_end
    have defects := next_defects tree limit state
    rw [ended] at defects
    rw [defects, List.mem_reverse] at member
    exact iterates.exists_records member
  · rintro ⟨count, state, iterates, records⟩
    obtain ⟨after, turned, defects⟩ := records.next
    rw [← (iterates.turn turned).sound.emits, Walk.run_eq_done_append, Walk.done, Emission.ok_append, defects]
    simp

theorem Sound.records (sound : Sound tree limit start margin state)
    (records : state.Records tree limit defect) :
    ∃ key, tree.Below start state.walk.path key ∧
      ((tree.get? key = none ∧ defect = .missingElement key) ∨
        (key ∈ state.walk.path ∧ defect = .cycle state.walk.path.reverse key) ∨
        ((state.walk.path.length : Int) = max limit 0 ∧ defect = .depthLimit key limit)) := by
  obtain ⟨key, column, tasks, pending, resolved⟩ := records
  have placed := sound.placed
  have within := sound.within
  rw [pending] at placed
  rw [sound.resolve_eq, ← List.reverse_reverse state.walk.path, UITree.resolve_eq_error_iff] at resolved
  cases placed with
  | visit below _ _ =>
      refine ⟨key, below, ?_⟩
      rcases resolved with missing | ⟨_, inside, rfl⟩ | ⟨_, _, deep, rfl⟩
      · exact Or.inl missing
      · exact Or.inr (Or.inl ⟨List.mem_reverse.mp inside, rfl⟩)
      · rw [List.length_reverse] at deep
        exact Or.inr (Or.inr ⟨by omega, rfl⟩)

/-- At every turn the path is a chain of different elements from the start, the marks are its keys, and the
next visit is of the start or of a child of the innermost element, two columns to the right for each open
element. The defects of the emission are those that the turns record: a cycle is the path and leads back into
it, and an element is too deep exactly below as many others as the limit. -/
theorem iterations_keep_path (tree : UITree) (limit : Int) (start : String) (margin : Int) :
    (∀ count state, Iterates tree limit start margin count state →
      state.walk.path.Nodup ∧ (∀ key ∈ state.walk.path, tree.Holds key) ∧
      (∀ first ∈ state.walk.path.getLast?, first = start) ∧
      state.walk.path.reverse.IsChain tree.Link ∧
      (∀ key, key ∈ state.marks ↔ key ∈ state.walk.path) ∧
      (∀ key column tasks, state.walk.tasks = .visit key column :: tasks →
        column = margin + 2 * state.walk.path.length ∧ tree.Below start state.walk.path key) ∧
      (∀ ancestors key, state.Records tree limit (.cycle ancestors key) →
        ancestors = state.walk.path.reverse) ∧
      ∀ key bound, state.Records tree limit (.depthLimit key bound) →
        (state.walk.path.length : Int) = max limit 0) ∧
    (∀ defect, defect ∈ (tree.emit limit start margin).defects ↔
      ∃ count state, Iterates tree limit start margin count state ∧ state.Records tree limit defect) ∧
    ∀ ancestors key, .cycle ancestors key ∈ (tree.emit limit start margin).defects →
      tree.Chain start ancestors key ∧ ancestors.Nodup ∧ key ∈ ancestors := by
  refine ⟨?_, fun defect => mem_defects_iff_records, ?_⟩
  · intro count state iterates
    have sound := iterates.sound
    refine ⟨sound.opened.nodup, fun key => sound.opened.holds, sound.opened.getLast?_eq, sound.opened.links,
      sound.marked, ?_, ?_, ?_⟩
    · intro key column tasks pending
      have placed := sound.placed
      rw [pending] at placed
      cases placed with
      | visit below place _ => exact ⟨place, below⟩
    · intro ancestors key records
      obtain ⟨_, _, ⟨_, other⟩ | ⟨_, same⟩ | ⟨_, other⟩⟩ := sound.records records
      · cases other
      · exact (Defect.cycle.inj same).1
      · cases other
    · intro key bound records
      obtain ⟨_, _, ⟨_, other⟩ | ⟨_, other⟩ | ⟨deep, _⟩⟩ := sound.records records
      · cases other
      · cases other
      · exact deep
  · intro ancestors key member
    obtain ⟨count, state, iterates, records⟩ := mem_defects_iff_records.mp member
    have sound := iterates.sound
    obtain ⟨_, below, ⟨_, other⟩ | ⟨inside, same⟩ | ⟨_, other⟩⟩ := sound.records records
    · cases other
    · obtain ⟨rfl, rfl⟩ := Defect.cycle.inj same
      exact ⟨sound.opened.chain below, List.nodup_reverse.mpr sound.opened.nodup, List.mem_reverse.mpr inside⟩
    · cases other

end MarkedWalk

end TreeExport
