import TreeExport.Proofs.Tree.Chain
import TreeExport.Tree.Reachable

/-!
The two walks over the reachable part of a tree: one lists exactly the keys of the elements that links
lead to from the root, the other collects exactly their types.
-/

namespace TreeExport

namespace UITree

variable {tree : UITree} {key : String} {stack reached : List String} {element : Element}

@[simp] theorem reachFrom_nil (tree : UITree) (reached : List String) :
    tree.reachFrom [] reached = reached := by
  rw [reachFrom]

theorem reachFrom_of_mem (member : key ∈ reached) :
    tree.reachFrom (key :: stack) reached = tree.reachFrom stack reached := by
  rw [reachFrom, dif_pos member]

theorem reachFrom_of_none (missing : tree.get? key = none) :
    tree.reachFrom (key :: stack) reached = tree.reachFrom stack reached := by
  by_cases member : key ∈ reached
  · exact reachFrom_of_mem member
  · rw [reachFrom, dif_neg member]
    split <;> simp_all

theorem reachFrom_of_some (found : tree.get? key = some element) (fresh : key ∉ reached) :
    tree.reachFrom (key :: stack) reached =
      tree.reachFrom (element.childKeys ++ stack) (key :: reached) := by
  rw [reachFrom, dif_neg fresh]
  split <;> simp_all

theorem subset_reachFrom (tree : UITree) (stack reached : List String) :
    reached ⊆ tree.reachFrom stack reached := by
  fun_induction reachFrom tree stack reached with
  | case1 reached => exact List.Subset.refl reached
  | case2 key stack reached member ih => exact ih
  | case3 key stack reached fresh missing ih => exact ih
  | case4 key stack reached fresh element found ih =>
      exact List.Subset.trans (List.subset_cons_self key reached) ih

theorem reaches_of_mem_reachFrom (member : key ∈ tree.reachFrom stack reached) :
    key ∈ reached ∨ tree.Holds key ∧ ∃ start ∈ stack, tree.Reaches start key := by
  fun_induction reachFrom tree stack reached with
  | case1 reached => exact Or.inl member
  | case2 top stack reached _ ih =>
      rcases ih member with before | ⟨held, start, inside, reaches⟩
      · exact Or.inl before
      · exact Or.inr ⟨held, start, List.mem_cons_of_mem top inside, reaches⟩
  | case3 top stack reached _ _ ih =>
      rcases ih member with before | ⟨held, start, inside, reaches⟩
      · exact Or.inl before
      · exact Or.inr ⟨held, start, List.mem_cons_of_mem top inside, reaches⟩
  | case4 top stack reached _ element found ih =>
      rcases ih member with before | ⟨held, start, inside, reaches⟩
      · rcases List.mem_cons.mp before with rfl | before
        · exact Or.inr ⟨⟨element, found⟩, key, by simp, .refl⟩
        · exact Or.inl before
      · rcases List.mem_append.mp inside with child | inside
        · have link : tree.Link top start := ⟨element, found, child⟩
          exact Or.inr ⟨held, top, by simp, reaches.head link⟩
        · exact Or.inr ⟨held, start, List.mem_cons_of_mem top inside, reaches⟩

def Pending (tree : UITree) (stack reached : List String) : Prop :=
  ∀ key ∈ reached, ∀ child, tree.Link key child → tree.Holds child →
    child ∈ reached ∨ child ∈ stack

theorem Pending.drop (pending : tree.Pending (key :: stack) reached)
    (known : tree.Holds key → key ∈ reached) : tree.Pending stack reached := by
  intro parent inside child link held
  rcases pending parent inside child link held with before | waiting
  · exact Or.inl before
  · rcases List.mem_cons.mp waiting with rfl | waiting
    · exact Or.inl (known held)
    · exact Or.inr waiting

theorem Pending.enter (pending : tree.Pending (key :: stack) reached)
    (found : tree.get? key = some element) :
    tree.Pending (element.childKeys ++ stack) (key :: reached) := by
  intro parent inside child link held
  rcases List.mem_cons.mp inside with rfl | inside
  · obtain ⟨other, same, isChild⟩ := link
    obtain rfl : element = other := by simpa [found] using same
    exact Or.inr (List.mem_append_left stack isChild)
  · rcases pending parent inside child link held with before | waiting
    · exact Or.inl (List.mem_cons_of_mem key before)
    · rcases List.mem_cons.mp waiting with rfl | waiting
      · exact Or.inl List.mem_cons_self
      · exact Or.inr (List.mem_append_right _ waiting)

/-- The walk ends with the elements of its stack and with all their descendants. -/
theorem reachFrom_closed (pending : tree.Pending stack reached) :
    (∀ key ∈ stack, tree.Holds key → key ∈ tree.reachFrom stack reached) ∧
      tree.Pending [] (tree.reachFrom stack reached) := by
  fun_induction reachFrom tree stack reached with
  | case1 reached => exact ⟨by simp, pending⟩
  | case2 top stack reached member ih =>
      obtain ⟨listed, closed⟩ := ih (pending.drop fun _ => member)
      refine ⟨?_, closed⟩
      intro key inside held
      rcases List.mem_cons.mp inside with rfl | inside
      · exact subset_reachFrom tree stack reached member
      · exact listed key inside held
  | case3 top stack reached fresh missing ih =>
      have absent : ¬tree.Holds top := by simp [Holds, missing]
      obtain ⟨listed, closed⟩ := ih (pending.drop fun held => absurd held absent)
      refine ⟨?_, closed⟩
      intro key inside held
      rcases List.mem_cons.mp inside with rfl | inside
      · exact absurd held absent
      · exact listed key inside held
  | case4 top stack reached fresh element found ih =>
      obtain ⟨listed, closed⟩ := ih (pending.enter found)
      refine ⟨?_, closed⟩
      intro key inside held
      rcases List.mem_cons.mp inside with rfl | inside
      · exact subset_reachFrom tree _ _ List.mem_cons_self
      · exact listed key (List.mem_append_right _ inside) held

theorem mem_reachableKeys :
    key ∈ tree.reachableKeys ↔ tree.Reaches tree.root key ∧ tree.Holds key := by
  have start : tree.Pending [tree.root] [] := by simp [Pending]
  obtain ⟨listed, closed⟩ := reachFrom_closed start
  rw [reachableKeys, List.mem_reverse]
  constructor
  · intro member
    rcases reaches_of_mem_reachFrom member with before | ⟨held, start, inside, reaches⟩
    · simp at before
    · rw [List.mem_singleton.mp inside] at reaches
      exact ⟨reaches, held⟩
  · rintro ⟨reaches, held⟩
    induction reaches with
    | refl => exact listed tree.root (by simp) held
    | tail _ link ih => simpa using closed _ (ih link.holds) _ link held

@[simp] theorem typesFrom_nil (tree : UITree) (visited types : List String) :
    tree.typesFrom [] visited types = types := by
  rw [typesFrom]

theorem typesFrom_of_mem {visited types : List String} (member : key ∈ visited) :
    tree.typesFrom (key :: stack) visited types = tree.typesFrom stack visited types := by
  rw [typesFrom, dif_pos member]

theorem typesFrom_of_none {visited types : List String} (missing : tree.get? key = none)
    (fresh : key ∉ visited) :
    tree.typesFrom (key :: stack) visited types = tree.typesFrom stack (key :: visited) types := by
  rw [typesFrom, dif_neg fresh]
  split <;> simp_all

theorem typesFrom_of_some {visited types : List String} (found : tree.get? key = some element)
    (fresh : key ∉ visited) :
    tree.typesFrom (key :: stack) visited types =
      tree.typesFrom (element.childKeys ++ stack) (key :: visited) (addNew types element.type) := by
  rw [typesFrom, dif_neg fresh]
  split <;> simp_all

theorem mem_addNew {items : List String} {item other : String} :
    other ∈ addNew items item ↔ other ∈ items ∨ other = item := by
  unfold addNew
  split
  · rename_i member
    constructor
    · exact Or.inl
    · rintro (inside | rfl)
      · exact inside
      · exact member
  · simp

theorem mem_typesFrom {visited types : List String} {type : String}
    (agree : ∀ key, tree.Holds key → (key ∈ visited ↔ key ∈ reached)) :
    type ∈ tree.typesFrom stack visited types ↔
      type ∈ types ∨ ∃ key ∈ tree.reachFrom stack reached, key ∉ reached ∧
        ∃ element, tree.get? key = some element ∧ element.type = type := by
  -- The walks need not agree on keys without an element: one marks them, the other does not.
  fun_induction typesFrom tree stack visited types generalizing reached with
  | case1 visited types =>
      constructor
      · exact Or.inl
      · rintro (before | ⟨key, member, later, _⟩)
        · exact before
        · rw [reachFrom_nil] at member
          exact absurd member later
  | case2 top stack visited types member ih =>
      rw [ih agree]
      by_cases held : tree.Holds top
      · rw [reachFrom_of_mem ((agree top held).mp member)]
      · rw [reachFrom_of_none (get?_eq_none_of_not_holds held)]
  | case3 top stack visited types fresh missing ih =>
      rw [reachFrom_of_none missing]
      apply ih
      intro key held
      have different : key ≠ top := by
        rintro rfl
        obtain ⟨element, found⟩ := held
        simp [missing] at found
      simp [different, agree key held]
  | case4 top stack visited types fresh element found ih =>
      have unreached : top ∉ reached := fun member => fresh ((agree top ⟨element, found⟩).mpr member)
      have known := subset_reachFrom tree (element.childKeys ++ stack) (top :: reached)
        List.mem_cons_self
      have entered : ∀ key, tree.Holds key → (key ∈ top :: visited ↔ key ∈ top :: reached) := by
        intro key held
        simp [agree key held]
      rw [reachFrom_of_some found unreached,
        ih entered, mem_addNew]
      constructor
      · rintro ((before | rfl) | ⟨key, member, later, rest⟩)
        · exact Or.inl before
        · exact Or.inr ⟨top, known, unreached, element, found, rfl⟩
        · exact Or.inr ⟨key, member, fun inside => later (List.mem_cons_of_mem top inside), rest⟩
      · rintro (before | ⟨key, member, later, other, same, rfl⟩)
        · exact Or.inl (Or.inl before)
        · by_cases here : key = top
          · subst here
            obtain rfl : element = other := by simpa [found] using same
            exact Or.inl (Or.inr rfl)
          · exact Or.inr ⟨key, member, by simp [here, later], other, same, rfl⟩

theorem mem_usedTypes {type : String} :
    type ∈ tree.usedTypes ↔
      ∃ key ∈ tree.reachableKeys, ∃ element, tree.get? key = some element ∧ element.type = type := by
  have fresh : ∀ key, tree.Holds key → (key ∈ ([] : List String) ↔ key ∈ ([] : List String)) :=
    fun _ _ => Iff.rfl
  rw [usedTypes, mem_typesFrom fresh]
  simp [reachableKeys]

end UITree

end TreeExport
