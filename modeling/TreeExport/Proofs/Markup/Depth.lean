import TreeExport.Proofs.Markup.Event
import TreeExport.Proofs.Tree.Chain

/-!
How deep a walk goes. It comes to a key through every chain of pairwise different keys that the limit
admits, so it writes exactly the elements that short enough chains lead to, and it meets the limit exactly
when such a chain is as long as the limit.
-/

namespace TreeExport

namespace UITree

variable {tree : UITree} {limit : Int} {start key : String} {above : List String}

theorem events_child_subset {child : String} {element : Element}
    (resolved : tree.resolve limit above.reverse key = .ok element)
    (member : child ∈ element.childKeys) :
    tree.events limit child (above ++ [key]) ⊆ tree.events limit key above := by
  intro event inside
  have inner : element.childKeys ≠ [] := List.ne_nil_of_mem member
  have below : event ∈ element.childKeys.flatMap (tree.events limit · (above ++ [key])) :=
    List.mem_flatMap.mpr ⟨child, member, inside⟩
  rw [events_of_ok resolved, if_neg inner]
  exact List.mem_append_left _ (List.mem_cons_of_mem _ below)

/-- The walk comes to the end of every chain whose upper keys differ and fit under the limit. -/
theorem events_subset_of_chain (chain : tree.Chain start above key) (distinct : above.Nodup)
    (within : (above.length : Int) ≤ max limit 0) :
    tree.events limit key above ⊆ tree.events limit start [] := by
  induction chain with
  | here => exact List.Subset.refl _
  | @down above parent child upper link ih =>
      obtain ⟨element, found, member⟩ := link
      obtain ⟨distinctAbove, fresh⟩ := nodup_append_singleton.mp distinct
      simp only [List.length_append, List.length_singleton] at within
      have shallow : (above.length : Int) < limit := by omega
      have resolved := resolve_eq_ok_iff.mpr ⟨found, fresh, shallow⟩
      exact List.Subset.trans (events_child_subset resolved member)
        (ih distinctAbove (by omega))

theorem written_subset_of_chain (chain : tree.Chain start above key) (distinct : above.Nodup)
    (within : (above.length : Int) ≤ max limit 0) :
    tree.written limit key above ⊆ tree.written limit start [] :=
  List.filterMap_subset _ (events_subset_of_chain chain distinct within)

theorem met_subset_of_chain (chain : tree.Chain start above key) (distinct : above.Nodup)
    (within : (above.length : Int) ≤ max limit 0) :
    tree.met limit key above ⊆ tree.met limit start [] :=
  List.filterMap_subset _ (events_subset_of_chain chain distinct within)

theorem exists_chain_of_mem_written (chain : tree.Chain start above key) {other : String}
    (member : other ∈ tree.written limit key above) :
    ∃ longer, tree.Chain start longer other ∧ tree.Holds other ∧ (longer.length : Int) < limit := by
  induction key, above using tree.visit_induction limit with
  | skipped key above cause resolved => simp [written_of_error resolved] at member
  | entered key above element resolved ih =>
      obtain ⟨found, _, shallow⟩ := resolve_eq_ok_iff.mp resolved
      rw [written_of_ok resolved] at member
      rcases List.mem_cons.mp member with rfl | below
      · exact ⟨above, chain, ⟨element, found⟩, shallow⟩
      · obtain ⟨child, isChild, inside⟩ := List.mem_flatMap.mp below
        exact ih child (chain.down ⟨element, found, isChild⟩) inside

theorem exists_chain_of_mem_met (chain : tree.Chain start above key) (distinct : above.Nodup)
    (within : (above.length : Int) ≤ max limit 0) {defect : Defect}
    (member : defect ∈ tree.met limit key above) :
    ∃ longer other, tree.Chain start longer other ∧ longer.Nodup ∧
      (longer.length : Int) ≤ max limit 0 ∧
      tree.resolve limit longer.reverse other = .error defect := by
  induction key, above using tree.visit_induction limit with
  | skipped key above cause resolved =>
      rw [met_of_error resolved, List.mem_singleton] at member
      rw [← member] at resolved
      exact ⟨above, key, chain, distinct, within, resolved⟩
  | entered key above element resolved ih =>
      obtain ⟨found, fresh, shallow⟩ := resolve_eq_ok_iff.mp resolved
      rw [met_of_ok resolved] at member
      obtain ⟨child, isChild, inside⟩ := List.mem_flatMap.mp member
      apply ih child (chain.down ⟨element, found, isChild⟩) _ _ inside
      · exact nodup_append_singleton.mpr ⟨distinct, fresh⟩
      · simp only [List.length_append, List.length_singleton]
        omega

theorem mem_written_iff :
    key ∈ tree.written limit start [] ↔
      ∃ above, tree.Chain start above key ∧ tree.Holds key ∧ (above.length : Int) < limit := by
  constructor
  · exact exists_chain_of_mem_written .here
  · rintro ⟨above, chain, ⟨element, found⟩, shallow⟩
    -- A shortest chain repeats no key, so nothing on it is taken for a cycle.
    obtain ⟨short, chain, distinct, shorter⟩ := chain.exists_nodup
    obtain ⟨distinctAbove, fresh⟩ := nodup_append_singleton.mp distinct
    have resolved : tree.resolve limit short.reverse key = .ok element :=
      resolve_eq_ok_iff.mpr ⟨found, fresh, by omega⟩
    apply written_subset_of_chain chain distinctAbove (by omega)
    rw [written_of_ok resolved]
    exact List.mem_cons_self

theorem exists_depthLimit_iff :
    (∃ defect ∈ tree.met limit start [], defect.kind = .depthLimit) ↔
      ∃ above key, tree.Chain start above key ∧ tree.Holds key ∧ (above ++ [key]).Nodup ∧
        (above.length : Int) = max limit 0 := by
  constructor
  · rintro ⟨defect, member, kind⟩
    obtain ⟨above, key, chain, distinct, within, resolved⟩ :=
      exists_chain_of_mem_met .here List.nodup_nil (Int.le_max_right _ _) member
    rcases resolve_eq_error_iff.mp resolved with
      ⟨_, rfl⟩ | ⟨_, _, rfl⟩ | ⟨held, fresh, deep, _⟩
    · simp [Defect.kind] at kind
    · simp [Defect.kind] at kind
    · have distinct := nodup_append_singleton.mpr ⟨distinct, fresh⟩
      exact ⟨above, key, chain, Option.isSome_iff_exists.mp held, distinct, by omega⟩
  · rintro ⟨above, key, chain, ⟨element, found⟩, distinct, exact_⟩
    obtain ⟨distinctAbove, fresh⟩ := nodup_append_singleton.mp distinct
    have resolved : tree.resolve limit above.reverse key = .error (.depthLimit key limit) :=
      resolve_eq_error_iff.mpr (Or.inr (Or.inr ⟨by simp [found], fresh, by omega, rfl⟩))
    refine ⟨.depthLimit key limit, ?_, rfl⟩
    apply met_subset_of_chain chain distinctAbove (by omega)
    rw [met_of_error resolved]
    exact List.mem_singleton_self _

/-- A walk that ends well writes exactly the elements that a chain with fewer links than the limit leads
to, and meets the limit exactly if some chain of pairwise different elements has as many links. -/
theorem emit_covers_depth {column : Int} {lines : List Line}
    (emitted : (tree.emit limit start column).outcome = .ok lines) :
    (∀ key, (∃ line ∈ lines, line.writtenKey? = some key) ↔
      ∃ above, tree.Chain start above key ∧ tree.Holds key ∧ (above.length : Int) < limit) ∧
    ((∃ defect ∈ (tree.emit limit start column).defects, defect.kind = .depthLimit) ↔
      ∃ above key, tree.Chain start above key ∧ tree.Holds key ∧ (above ++ [key]).Nodup ∧
        (above.length : Int) = max limit 0) := by
  obtain ⟨defects, keys⟩ := emit_eq_ok emitted
  constructor
  · intro key
    rw [← mem_written_iff, ← keys, List.mem_filterMap]
  · rw [defects]
    exact exists_depthLimit_iff

/-- One way to the last element is too long for the limit and one is not. -/
theorem emit_covers_depth_tangled :
    ∃ lines, (tangled.emit 3 "a" 0).outcome = .ok lines ∧
      (∃ above, tangled.Chain "a" above "d" ∧ tangled.Holds "d" ∧ (above.length : Int) < 3) ∧
      ∃ above key, tangled.Chain "a" above key ∧ tangled.Holds key ∧ (above ++ [key]).Nodup ∧
        (above.length : Int) = max 3 0 := by
  have emitted : (tangled.emit 3 "a" 0).outcome = .ok [
      .opening 0 "a" "Stack".toList,
      .opening 2 "b" "Card title=\"x\"".toList,
      .opening 4 "c" "Grid".toList, .closing 4 "Grid",
      .closing 2 "Card",
      .opening 2 "c" "Grid".toList, .single 4 "d" "Text".toList, .closing 2 "Grid",
      .closing 0 "Stack"] := by decide +kernel
  obtain ⟨written, limited⟩ := emit_covers_depth emitted
  have short := (written "d").mp ⟨.single 4 "d" "Text".toList, by simp, rfl⟩
  have long := limited.mp ⟨.depthLimit "d" 3, by decide +kernel, rfl⟩
  exact ⟨_, emitted, short, long⟩

end UITree

end TreeExport
