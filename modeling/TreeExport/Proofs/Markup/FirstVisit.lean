import TreeExport.Proofs.Markup.Event
import TreeExport.Proofs.Tree.Reachable

/-!
The walk writes a shared element once for each way to it, the reachable keys list it once. Without a depth
limit in the way both have the same order of first occurrences: when the walk comes back to a key that
was finished before, all it writes below that key was written before.
-/

namespace TreeExport

namespace UITree

variable {tree : UITree} {limit : Int} {key : String} {ancestors reached stack : List String}

def markAll (reached keys : List String) : List String :=
  keys.foldl (fun reached key => reached.insert key) reached

theorem markAll_cons (reached : List String) (key : String) (keys : List String) :
    markAll reached (key :: keys) = markAll (reached.insert key) keys := rfl

theorem markAll_append (reached first second : List String) :
    markAll reached (first ++ second) = markAll (markAll reached first) second :=
  List.foldl_append

theorem subset_markAll (reached keys : List String) : reached ⊆ markAll reached keys := by
  induction keys generalizing reached with
  | nil => exact List.Subset.refl reached
  | cons key keys ih =>
      intro k member
      exact ih (reached.insert key) (List.mem_insert_of_mem member)

theorem markAll_of_subset {keys : List String} (known : keys ⊆ reached) :
    markAll reached keys = reached := by
  induction keys with
  | nil => rfl
  | cons key keys ih =>
      obtain ⟨first, others⟩ := List.cons_subset.mp known
      rw [markAll_cons, List.insert_of_mem first, ih others]

theorem reverse_markAll (reached keys : List String) :
    (markAll reached keys).reverse = List.eraseDupsBy.loop (· == ·) keys reached := by
  induction keys generalizing reached with
  | nil => rfl
  | cons key keys ih =>
      rw [markAll_cons, ih, List.eraseDupsBy.loop]
      have any_eq : reached.any (key == ·) = decide (key ∈ reached) := by simp [List.any_beq]
      by_cases member : key ∈ reached
      · rw [List.insert_of_mem member, any_eq, decide_eq_true member]
      · rw [List.insert_of_not_mem member, any_eq, decide_eq_false member]

/-- Whether all reached keys but the open ones are finished: their children are reached too. -/
def Finished (tree : UITree) (ancestors reached : List String) : Prop :=
  ∀ key ∈ reached, key ∉ ancestors →
    ∀ child, tree.Link key child → tree.Holds child → child ∈ reached

theorem Finished.open_more (finished : tree.Finished ancestors reached) (key : String) :
    tree.Finished (ancestors ++ [key]) reached := by
  intro other member closed
  exact finished other member fun inside => closed (List.mem_append_left [key] inside)

theorem written_subset_of_finished (finished : tree.Finished ancestors reached)
    (known : tree.Holds key → key ∈ reached) :
    tree.written limit key ancestors ⊆ reached := by
  induction key, ancestors using tree.visit_induction limit with
  | skipped key ancestors cause resolved => simp [written_of_error resolved]
  | entered key ancestors element resolved ih =>
      obtain ⟨found, fresh, _⟩ := resolve_eq_ok_iff.mp resolved
      have member := known ⟨element, found⟩
      rw [written_of_ok resolved]
      intro other inside
      rcases List.mem_cons.mp inside with rfl | below
      · exact member
      · obtain ⟨child, isChild, inside⟩ := List.mem_flatMap.mp below
        have link : tree.Link key child := ⟨element, found, isChild⟩
        exact ih child (finished.open_more key) (finished key member fresh child link) inside

/-- What it means that visits to some keys pass others: the reachability walk passes the same, all that it
reaches is finished, and the visited keys are among it. -/
structure Marks (tree : UITree) (ancestors keys reached passed : List String) : Prop where
  reachFrom_eq : ∀ stack,
    tree.reachFrom (keys ++ stack) reached = tree.reachFrom stack (markAll reached passed)
  finished : tree.Finished ancestors (markAll reached passed)
  listed : ∀ key ∈ keys, tree.Holds key → key ∈ markAll reached passed

theorem Marks.nil (finished : tree.Finished ancestors reached) :
    tree.Marks ancestors [] reached [] :=
  ⟨fun _ => rfl, finished, by simp⟩

theorem Marks.cons {keys passed others : List String}
    (first : tree.Marks ancestors [key] reached passed)
    (further : tree.Marks ancestors keys (markAll reached passed) others) :
    tree.Marks ancestors (key :: keys) reached (passed ++ others) := by
  constructor
  · intro stack
    rw [markAll_append, ← further.reachFrom_eq stack]
    exact first.reachFrom_eq (keys ++ stack)
  · rw [markAll_append]
    exact further.finished
  · intro k member held
    rw [markAll_append]
    rcases List.mem_cons.mp member with rfl | member
    · exact subset_markAll _ _ (first.listed k (by simp) held)
    · exact further.listed k member held

theorem marks_of_known (finished : tree.Finished ancestors reached)
    (known : tree.Holds key → key ∈ reached) :
    tree.Marks ancestors [key] reached (tree.written limit key ancestors) := by
  have nothing : markAll reached (tree.written limit key ancestors) = reached :=
    markAll_of_subset (written_subset_of_finished finished known)
  constructor
  · intro stack
    rw [nothing]
    by_cases held : tree.Holds key
    · exact reachFrom_of_mem (known held)
    · exact reachFrom_of_none (get?_eq_none_of_not_holds held)
  · rw [nothing]
    exact finished
  · intro k member held
    rw [nothing, List.mem_singleton.mp member]
    exact known (List.mem_singleton.mp member ▸ held)

theorem marks_of_each {keys : List String} {passed : String → List String}
    (each : ∀ key ∈ keys, ∀ reached, ancestors ⊆ reached → tree.Finished ancestors reached →
      tree.Marks ancestors [key] reached (passed key))
    (opened : ancestors ⊆ reached) (finished : tree.Finished ancestors reached) :
    tree.Marks ancestors keys reached (keys.flatMap passed) := by
  induction keys generalizing reached with
  | nil => exact .nil finished
  | cons key keys ih =>
      have first := each key (by simp) reached opened finished
      rw [List.flatMap_cons]
      apply first.cons
      apply ih (fun other member => each other (List.mem_cons_of_mem key member))
      · exact List.Subset.trans opened (subset_markAll reached (passed key))
      · exact first.finished

/-- A visit that meets no depth limit passes what the reachability walk passes. -/
theorem marks_written (opened : ancestors ⊆ reached) (finished : tree.Finished ancestors reached)
    (unlimited : ∀ defect ∈ tree.met limit key ancestors, defect.kind ≠ .depthLimit) :
    tree.Marks ancestors [key] reached (tree.written limit key ancestors) := by
  induction key, ancestors using tree.visit_induction limit generalizing reached with
  | skipped key ancestors cause resolved =>
      apply marks_of_known finished
      rintro ⟨element, found⟩
      rcases resolve_eq_error_iff.mp resolved with ⟨missing, _⟩ | ⟨_, inside, _⟩ | ⟨_, _, _, rfl⟩
      · simp [missing] at found
      · exact opened inside
      · rw [met_of_error resolved] at unlimited
        exact absurd rfl (unlimited _ (List.mem_singleton_self _))
  | entered key ancestors element resolved ih =>
      by_cases known : key ∈ reached
      · exact marks_of_known finished fun _ => known
      · obtain ⟨found, fresh, _⟩ := resolve_eq_ok_iff.mp resolved
        rw [met_of_ok resolved] at unlimited
        -- Below the key, the key itself counts as reached but not as finished.
        have children : tree.Marks (ancestors ++ [key]) element.childKeys (key :: reached)
            (element.childKeys.flatMap (tree.written limit · (ancestors ++ [key]))) := by
          apply marks_of_each
          · intro child isChild reached opened finished
            apply ih child opened finished
            intro defect member
            exact unlimited defect (List.mem_flatMap.mpr ⟨child, isChild, member⟩)
          · simpa using List.subset_cons_of_subset key opened
          · intro other member closed child link held
            simp only [List.mem_append, List.mem_singleton, not_or] at closed
            have before := (List.mem_cons.mp member).resolve_left closed.2
            exact List.mem_cons_of_mem key (finished other before closed.1 child link held)
        have markAll_eq : markAll reached (tree.written limit key ancestors) =
            markAll (key :: reached)
              (element.childKeys.flatMap (tree.written limit · (ancestors ++ [key]))) := by
          rw [written_of_ok resolved, markAll_cons, List.insert_of_not_mem known]
        constructor
        · intro stack
          rw [markAll_eq, ← children.reachFrom_eq stack]
          exact reachFrom_of_some found known
        · rw [markAll_eq]
          intro other member closed child link held
          by_cases same : other = key
          · subst same
            obtain ⟨element', found', isChild⟩ := link
            obtain rfl : element = element' := by simpa [found] using found'
            exact children.listed child isChild held
          · exact children.finished other member (by simp [closed, same]) child link held
        · intro k member _
          rw [markAll_eq, List.mem_singleton.mp member]
          exact subset_markAll _ _ List.mem_cons_self

theorem eraseDups_written
    (unlimited : ∀ defect ∈ tree.met limit tree.root [], defect.kind ≠ .depthLimit) :
    (tree.written limit tree.root []).eraseDups = tree.reachableKeys := by
  have marks : tree.Marks [] [tree.root] [] (tree.written limit tree.root []) :=
    marks_written (List.nil_subset _) (by simp [Finished]) unlimited
  have passed := marks.reachFrom_eq []
  rw [List.append_nil, reachFrom_nil] at passed
  rw [reachableKeys, passed, reverse_markAll]
  rfl

/-- A walk from the root that ends well and meets no depth limit writes the reachable elements, shared ones
several times, in the order in which the reachability walk lists them; their types are the used types. -/
theorem emit_firstVisits {column : Int} {lines : List Line}
    (emitted : (tree.emit limit tree.root column).outcome = .ok lines)
    (unlimited : ∀ defect ∈ (tree.emit limit tree.root column).defects, defect.kind ≠ .depthLimit) :
    (lines.filterMap Line.writtenKey?).eraseDups = tree.reachableKeys ∧
      ∀ type, (∃ key ∈ lines.filterMap Line.writtenKey?,
        ∃ element, tree.get? key = some element ∧ element.type = type) ↔ type ∈ tree.usedTypes := by
  obtain ⟨defects, keys⟩ := emit_eq_ok emitted
  rw [defects] at unlimited
  have first := eraseDups_written unlimited
  rw [keys]
  refine ⟨first, ?_⟩
  intro type
  simp only [mem_usedTypes, ← first, List.mem_eraseDups]

/-- The shared element and what lies below it are written twice and listed once. -/
theorem emit_firstVisits_tangled :
    ∃ lines, (tangled.emit 9 "a" 0).outcome = .ok lines ∧
      (∀ defect ∈ (tangled.emit 9 "a" 0).defects, defect.kind ≠ .depthLimit) ∧
      ["a", "b", "c", "d", "c", "d"].eraseDups = tangled.reachableKeys ∧
      "Card" ∈ tangled.usedTypes := by
  have emitted : (tangled.emit 9 "a" 0).outcome = .ok [
      .opening 0 "a" "Stack".toList,
      .opening 2 "b" "Card title=\"x\"".toList,
      .opening 4 "c" "Grid".toList, .single 6 "d" "Text".toList, .closing 4 "Grid",
      .closing 2 "Card",
      .opening 2 "c" "Grid".toList, .single 4 "d" "Text".toList, .closing 2 "Grid",
      .closing 0 "Stack"] := by decide +kernel
  have unlimited : ∀ defect ∈ (tangled.emit 9 "a" 0).defects, defect.kind ≠ .depthLimit := by
    decide +kernel
  obtain ⟨first, types⟩ := emit_firstVisits emitted unlimited
  have used := (types "Card").mp ⟨"b", by simp [Line.writtenKey?], _, rfl, rfl⟩
  exact ⟨_, emitted, unlimited, first, used⟩

end UITree

end TreeExport
