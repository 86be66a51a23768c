import TreeExport.Proofs.Markup.Depth
import TreeExport.Proofs.Project.Output
import TreeExport.Proofs.Tree.Reachable

/-!
When a build meets no defect. The walk for the markup and the walk for the components cut a tree in
different ways, but together they miss nothing: without a defect every reachable key has an element, no
links lead back, no chain is too deep, and every reachable component is registered.
-/

namespace TreeExport

namespace UITree

variable {tree : UITree} {limit : Int} {start key : String} {above : List String}

theorem resolve_of_met_eq_nil (clean : tree.met limit start [] = [])
    (chain : tree.Chain start above key) :
    (∃ element, tree.resolve limit above.reverse key = .ok element) ∧
      tree.met limit key above = [] := by
  have resolved : ∀ {key above}, tree.met limit key above = [] →
      ∃ element, tree.resolve limit above.reverse key = .ok element := by
    intro key above nothing
    cases resolved : tree.resolve limit above.reverse key with
    | error cause => simp [met_of_error resolved] at nothing
    | ok element => exact ⟨element, rfl⟩
  -- A parent without defects was entered, so each of its children was visited, without defects too.
  induction chain with
  | here => exact ⟨resolved clean, clean⟩
  | @down above parent child upper link ih =>
      obtain ⟨⟨element, entered⟩, nothing⟩ := ih
      obtain ⟨other, found, isChild⟩ := link
      obtain rfl : element = other := by
        simpa [(resolve_eq_ok_iff.mp entered).1] using found
      rw [met_of_ok entered, List.flatMap_eq_nil_iff] at nothing
      exact ⟨resolved (nothing child isChild), nothing child isChild⟩

theorem met_eq_nil_iff :
    tree.met limit start [] = [] ↔
      (∀ key, tree.Reaches start key → tree.Holds key) ∧
      (∀ key, tree.Reaches start key → ¬Relation.TransGen tree.Link key key) ∧
      ∀ above key, tree.Chain start above key → tree.Holds key →
        (above.length + 1 : Int) ≤ limit := by
  constructor
  · intro clean
    -- Without defects every chain is entered, also one that goes around a loop.
    have entered : ∀ {above key}, tree.Chain start above key →
        tree.Holds key ∧ key ∉ above ∧ (above.length : Int) < limit := by
      intro above key chain
      obtain ⟨⟨element, resolved⟩, _⟩ := resolve_of_met_eq_nil clean chain
      obtain ⟨found, fresh, shallow⟩ := resolve_eq_ok_iff.mp resolved
      exact ⟨⟨element, found⟩, fresh, shallow⟩
    refine ⟨?_, ?_, ?_⟩
    · intro key reaches
      obtain ⟨above, chain⟩ := reaches.exists_chain
      exact (entered chain).1
    · intro key reaches back
      obtain ⟨above, chain⟩ := reaches.exists_chain
      obtain ⟨longer, chain, repeated⟩ := chain.extend back
      exact (entered chain).2.1 repeated
    · intro above key chain _
      have shallow := (entered chain).2.2
      omega
  · rintro ⟨complete, acyclic, shallow⟩
    rw [List.eq_nil_iff_forall_not_mem]
    intro defect member
    obtain ⟨above, key, chain, _, _, resolved⟩ :=
      exists_chain_of_mem_met .here List.nodup_nil (Int.le_max_right _ _) member
    obtain ⟨element, found⟩ := complete key chain.reaches
    rcases resolve_eq_error_iff.mp resolved with ⟨missing, _⟩ | ⟨_, inside, _⟩ | ⟨_, _, deep, _⟩
    · simp [missing] at found
    · exact acyclic key chain.reaches (chain.transGen_of_mem inside)
    · have bound := shallow above key chain ⟨element, found⟩
      omega

end UITree

namespace Project

variable {registry : Registry} {limit : Int} {tree : UITree} {options : GeneratorOptions}

/-- What a tree needs so that a build with some registry and depth limit meets no defect. -/
structure Sound (registry : Registry) (limit : Int) (tree : UITree) : Prop where
  complete : ∀ key, tree.Reaches tree.root key → tree.Holds key
  acyclic : ∀ key, tree.Reaches tree.root key → ¬Relation.TransGen tree.Link key key
  shallow : ∀ above key, tree.Chain tree.root above key → tree.Holds key →
    (above.length + 1 : Int) ≤ limit
  registered : ∀ key element, tree.Reaches tree.root key → tree.get? key = some element →
    registry.contains element.type

theorem partition_snd_eq_nil_iff {names : List String} :
    (registry.partition names).2 = [] ↔ ∀ name ∈ names, registry.contains name := by
  simp [Registry.partition, List.filter_eq_nil_iff]

theorem sound_iff :
    Sound registry limit tree ↔
      tree.met limit tree.root [] = [] ∧ (registry.partition tree.usedTypes).2 = [] := by
  rw [UITree.met_eq_nil_iff, partition_snd_eq_nil_iff]
  constructor
  · intro sound
    refine ⟨⟨sound.complete, sound.acyclic, sound.shallow⟩, ?_⟩
    intro type used
    obtain ⟨key, member, element, found, rfl⟩ := UITree.mem_usedTypes.mp used
    exact sound.registered key element (UITree.mem_reachableKeys.mp member).1 found
  · rintro ⟨⟨complete, acyclic, shallow⟩, registered⟩
    refine ⟨complete, acyclic, shallow, ?_⟩
    intro key element reaches found
    have member := UITree.mem_reachableKeys.mpr ⟨reaches, element, found⟩
    exact registered element.type (UITree.mem_usedTypes.mpr ⟨key, member, element, found, rfl⟩)

theorem defects_eq_nil_iff {output : Output}
    (built : outputOf registry limit tree options = .ok output) :
    output.defects = [] ↔ Sound registry limit tree := by
  obtain ⟨lines, _, _, _, emitted, _, _, _, _, defects⟩ := outputOf_eq_ok built
  rw [sound_iff, defects, (UITree.emit_eq_ok emitted).1, List.append_eq_nil_iff, List.map_eq_nil_iff]

/-- A tolerant build that can write all its values meets no defect exactly if the tree is sound. A strict
build gives the same project then, and else exactly the defects of the tolerant build. -/
theorem build_sound_iff
    (writable : ∀ cause,
      build registry limit false tree options ≠ .error (.unwritable (.literal cause))) :
    ∃ output, build registry limit false tree options = .ok output ∧
      (output.defects = [] ↔ Sound registry limit tree) ∧
      (Sound registry limit tree → build registry limit true tree options = .ok output) ∧
      (¬Sound registry limit tree →
        build registry limit true tree options = .error (.defective output.defects)) := by
  cases built : outputOf registry limit tree options with
  | error cause =>
      obtain ⟨failure, rfl, _⟩ := outputOf_eq_error built
      exact absurd (by simp [build_eq_accept, accept, built]) (writable failure)
  | ok output =>
      have clean := defects_eq_nil_iff built
      refine ⟨output, by simp [build_eq_accept, accept, built], clean, ?_, ?_⟩
      · intro sound
        simp [build_eq_accept, accept, built, clean.mpr sound]
      · intro unsound
        have met : output.defects ≠ [] := fun none => unsound (clean.mp none)
        simp [build_eq_accept, accept, built, met]

/-- The small tree has a link back to its root, so a strict build of it fails. -/
theorem build_sound_iff_tangled :
    (∀ cause, build ⟨[("Text", "text")]⟩ 3 false UITree.tangled default ≠
      .error (.unwritable (.literal cause))) ∧
    ∃ output, build ⟨[("Text", "text")]⟩ 3 false UITree.tangled default = .ok output ∧
      build ⟨[("Text", "text")]⟩ 3 true UITree.tangled default =
        .error (.defective output.defects) := by
  have used : UITree.tangled.usedTypes = ["Stack", "Card", "Grid", "Text"] := by cbv
  have written : (outputOf ⟨[("Text", "text")]⟩ 3 UITree.tangled default).isOk = true := by
    simp only [outputOf, outputListing, used]
    decide +kernel
  have writable : ∀ cause, build ⟨[("Text", "text")]⟩ 3 false UITree.tangled default ≠
      .error (.unwritable (.literal cause)) := by
    intro cause failed
    cases built : outputOf ⟨[("Text", "text")]⟩ 3 UITree.tangled default with
    | error cause => simp [built, Except.isOk, Except.toBool] at written
    | ok output => simp [build_eq_accept, accept, built] at failed
  have back : Relation.TransGen UITree.tangled.Link "a" "a" :=
    .tail (.single ⟨_, rfl, List.mem_cons_self⟩) (b := "b") ⟨_, rfl, by simp [Element.childKeys]⟩
  have unsound : ¬Sound ⟨[("Text", "text")]⟩ 3 UITree.tangled :=
    fun sound => sound.acyclic "a" .refl back
  obtain ⟨output, built, _, _, failed⟩ := build_sound_iff writable
  exact ⟨writable, output, built, failed unsound⟩

end Project

end TreeExport
