import TreeExport.Proofs.Project.Components
import Mathlib.Data.List.Perm.Basic

/-!
Builds do not depend on the order in which the used components are listed. A registry splits names into two
lists in the order of their code points, so only the set of the names counts, and with it the files and the
defects of a build are the same however that set is listed.
-/

namespace TreeExport

namespace Text

def codePoints (text : String) : List Nat := text.toList.map Char.toNat

/-- Whether the texts of a list ascend strictly, compared by their code points from the left. -/
def Ascends (names : List String) : Prop :=
  names.Pairwise fun first second => codePoints first < codePoints second

theorem map_toNat_lt_iff {first second : List Char} :
    first.map Char.toNat < second.map Char.toNat ↔ first < second := by
  induction first generalizing second with
  | nil => cases second <;> simp
  | cons c rest ih =>
      cases second with
      | nil => simp
      | cons d others =>
          have less : c.toNat < d.toNat ↔ c < d := by
            rw [Char.lt_def, UInt32.lt_iff_toNat_lt]
            rfl
          have same : c.toNat = d.toNat ↔ c = d := Char.toNat_inj
          rw [List.map_cons, List.map_cons, List.cons_lt_cons_iff, List.cons_lt_cons_iff, ih, less, same]

theorem codePoints_lt_iff {first second : String} : codePoints first < codePoints second ↔ first < second := by
  rw [codePoints, codePoints, map_toNat_lt_iff]
  rfl

theorem ascends_iff {names : List String} : Ascends names ↔ names.Pairwise (· < ·) := by
  simp only [Ascends, codePoints_lt_iff]

theorem eq_of_ascending {names others : List String} (ascending : names.Pairwise (· < ·))
    (ascendingToo : others.Pairwise (· < ·)) (same : ∀ name, name ∈ names ↔ name ∈ others) :
    names = others := by
  have distinct : names.Nodup := ascending.imp String.ne_of_lt
  have distinctToo : others.Nodup := ascendingToo.imp String.ne_of_lt
  apply List.Perm.eq_of_pairwise _ ascending ascendingToo
    ((List.perm_ext_iff_of_nodup distinct distinctToo).mpr same)
  intro first second _ _ below above
  exact absurd (String.lt_trans below above) (String.lt_irrefl first)

theorem sortedSet_congr {names others : List String} (same : ∀ name, name ∈ names ↔ name ∈ others) :
    sortedSet names = sortedSet others := by
  apply eq_of_ascending (pairwise_sortedSet names) (pairwise_sortedSet others)
  simpa using same

end Text

theorem Registry.partition_congr (registry : Registry) {names others : List String}
    (same : ∀ name, name ∈ names ↔ name ∈ others) :
    registry.partition names = registry.partition others := by
  rw [partition, partition, Text.sortedSet_congr same]

namespace Project

theorem buildListing_congr (registry : Registry) (limit : Int) (strict : Bool) (tree : UITree)
    (options : GeneratorOptions) {used others : List String} (same : ∀ name, name ∈ used ↔ name ∈ others) :
    buildListing registry limit strict tree options used =
      buildListing registry limit strict tree options others := by
  rw [buildListing, buildListing, outputListing, outputListing, registry.partition_congr same]

end Project

/-- A registry splits names into two ascending lists without a common name: the registered names and the
others. Lists of the same names are split alike, and so builds that list the components which the tree uses
in any order and with any repetitions give the same files and defects. -/
theorem Registry.partition_orders (registry : Registry) (names : List String) :
    Text.Ascends (registry.partition names).1 ∧ Text.Ascends (registry.partition names).2 ∧
    (registry.partition names).1.Disjoint (registry.partition names).2 ∧
    (∀ name, name ∈ (registry.partition names).1 ∨ name ∈ (registry.partition names).2 ↔ name ∈ names) ∧
    (∀ name, name ∈ (registry.partition names).1 ↔
      name ∈ names ∧ ∃ source, registry.get? name = some source) ∧
    (∀ others, (∀ name, name ∈ others ↔ name ∈ names) →
      registry.partition others = registry.partition names) ∧
    ∀ limit strict tree options used, (∀ name, name ∈ used ↔ tree.Uses name) →
      Project.buildListing registry limit strict tree options used =
        Project.build registry limit strict tree options := by
  obtain ⟨registered, unregistered⟩ := pairwise_partition registry names
  refine ⟨Text.ascends_iff.mpr registered, Text.ascends_iff.mpr unregistered, ?_, ?_, ?_, ?_, ?_⟩
  · intro name here there
    exact (mem_partition_snd.mp there).2 (mem_partition_fst.mp here).1
  · intro name
    rw [mem_partition_fst, mem_partition_snd]
    by_cases held : registry.contains name <;> simp [held]
  · intro name
    rw [mem_partition_fst, and_comm, contains, Keyed.has, Option.isSome_iff_exists]
    rfl
  · intro others same
    exact registry.partition_congr same
  · intro limit strict tree options used same
    apply Project.buildListing_congr
    intro name
    rw [same, UITree.mem_usedTypes_iff_uses]

end TreeExport
