import TreeExport.Tree.Basic
import Mathlib.Data.List.Nodup
import Mathlib.Logic.Relation

/-!
Links from elements to their children, and chains of links. A chain lists the keys above its last key, so
it has as many links as keys above; all of these have elements, and only its last key may lack one.
-/

namespace TreeExport

namespace UITree

def Holds (tree : UITree) (key : String) : Prop :=
  ∃ element, tree.get? key = some element

def Link (tree : UITree) (parent child : String) : Prop :=
  ∃ element, tree.get? parent = some element ∧ child ∈ element.childKeys

def Reaches (tree : UITree) : String → String → Prop :=
  Relation.ReflTransGen tree.Link

/-- A chain of links from a start to a key, with the keys above it from the start on. -/
inductive Chain (tree : UITree) (start : String) : (above : List String) → (key : String) → Prop
  | here : Chain tree start [] start
  | down {above parent child} : Chain tree start above parent → tree.Link parent child →
      Chain tree start (above ++ [parent]) child

theorem Link.holds {tree : UITree} {parent child : String} (link : tree.Link parent child) :
    tree.Holds parent := by
  obtain ⟨element, found, _⟩ := link
  exact ⟨element, found⟩

theorem get?_eq_none_of_not_holds {tree : UITree} {key : String} (missing : ¬tree.Holds key) :
    tree.get? key = none := by
  rw [Option.eq_none_iff_forall_ne_some]
  intro element found
  exact missing ⟨element, found⟩

theorem nodup_append_singleton {keys : List String} {key : String} :
    (keys ++ [key]).Nodup ↔ keys.Nodup ∧ key ∉ keys := by
  rw [← List.concat_eq_append, List.nodup_concat, and_comm]

namespace Chain

variable {tree : UITree} {start key other : String} {above : List String}

theorem reaches (chain : tree.Chain start above key) : tree.Reaches start key := by
  induction chain with
  | here => exact .refl
  | down _ link ih => exact ih.tail link

theorem exists_upTo (chain : tree.Chain start above key) {k : String} (member : k ∈ above) :
    ∃ before, tree.Chain start before k ∧ before ++ [k] <+: above := by
  induction chain with
  | here => simp at member
  | @down above parent child upper _ ih =>
      rcases List.mem_append.mp member with earlier | last
      · obtain ⟨before, chain, isBefore⟩ := ih earlier
        exact ⟨before, chain, isBefore.trans (List.prefix_append above [parent])⟩
      · rw [List.mem_singleton.mp last]
        exact ⟨above, upper, List.prefix_refl _⟩

theorem transGen_of_mem (chain : tree.Chain start above key) {k : String} (member : k ∈ above) :
    Relation.TransGen tree.Link k key := by
  induction chain with
  | here => simp at member
  | down upper link ih =>
      rcases List.mem_append.mp member with earlier | last
      · exact (ih earlier).tail link
      · rw [List.mem_singleton.mp last]
        exact .single link

theorem extend (chain : tree.Chain start above key) (further : Relation.TransGen tree.Link key other) :
    ∃ longer, tree.Chain start longer other ∧ key ∈ longer := by
  induction further with
  | single link => exact ⟨above ++ [key], chain.down link, by simp⟩
  | @tail parent child _ link ih =>
      obtain ⟨longer, upper, member⟩ := ih
      exact ⟨longer ++ [parent], upper.down link, List.mem_append_left _ member⟩

theorem exists_nodup (chain : tree.Chain start above key) :
    ∃ short, tree.Chain start short key ∧ (short ++ [key]).Nodup ∧ short.length ≤ above.length := by
  induction chain with
  | here => exact ⟨[], .here, by simp, by simp⟩
  | @down above parent child upper link ih =>
      obtain ⟨short, chain, distinct, shorter⟩ := ih
      by_cases repeated : child ∈ short ++ [parent]
      · -- The chain came past the child before, so it can stop there.
        obtain ⟨before, chain, isBefore⟩ := (chain.down link).exists_upTo repeated
        have bound := isBefore.length_le
        simp only [List.length_append, List.length_singleton] at bound ⊢
        exact ⟨before, chain, distinct.sublist isBefore.sublist, by omega⟩
      · have distinct := nodup_append_singleton.mpr ⟨distinct, repeated⟩
        exact ⟨short ++ [parent], chain.down link, distinct, by simpa using shorter⟩

end Chain

theorem Reaches.exists_chain {tree : UITree} {start key : String} (reaches : tree.Reaches start key) :
    ∃ above, tree.Chain start above key := by
  induction reaches with
  | refl => exact ⟨[], .here⟩
  | @tail parent child _ link ih =>
      obtain ⟨above, chain⟩ := ih
      exact ⟨above ++ [parent], chain.down link⟩

def tangled : UITree where
  root := "a"
  elements := [
    ("a", ⟨"a", "Stack", [], some ["b", "c"]⟩),
    ("b", ⟨"b", "Card", [("title", .text "x")], some ["c", "a"]⟩),
    ("c", ⟨"c", "Grid", [], some ["d", "ghost"]⟩),
    ("d", ⟨"d", "Text", [], none⟩)]

end UITree

end TreeExport
