import TreeExport.Proofs.Markup.Line
import Mathlib.Data.List.Flatten

/-!
One tree under two depth limits. The walk with the lower limit goes where the other one goes until it comes
to a key as deep as its limit, where it meets the limit instead of the element. So it writes exactly the lines
above its limit, it meets no missing key and no cycle that the other walk does not meet, and if it never meets
its limit both walks are the same.
-/

namespace TreeExport

/-- Whether a defect lies in the tree, whatever the limit: a key without an element, or one that leads back. -/
def Defect.isInherent : Defect → Bool
  | .missingElement _ => true
  | .cycle _ _ => true
  | .depthLimit _ _ => false
  | .missingTemplate _ => false

namespace Event

def depth : Event → Nat
  | .defect ancestors _ _ => ancestors.length
  | .single ancestors _ _ => ancestors.length
  | .opening ancestors _ _ => ancestors.length
  | .closing ancestors _ _ => ancestors.length

def isLineAbove (limit : Int) (event : Event) : Bool :=
  event.element?.isSome && decide ((event.depth : Int) < limit)

theorem column_of_emission {margin : Int} {event : Event} {lines : List Line}
    (written : (event.emission margin).outcome = .ok lines) :
    ∀ line ∈ lines, line.column = margin + 2 * event.depth := by
  intro line member
  cases event with
  | defect ancestors key cause =>
      obtain rfl : [] = lines := by simpa [emission, Emission.ofDefect] using written
      simp at member
  | closing ancestors key element =>
      obtain rfl := by simpa [emission, Emission.ofLine] using written
      obtain rfl := List.mem_singleton.mp member
      rfl
  | single ancestors key element =>
      obtain ⟨tag, _, rfl⟩ := Emission.exists_of_ofTag written
      obtain rfl := List.mem_singleton.mp member
      rfl
  | opening ancestors key element =>
      obtain ⟨tag, _, rfl⟩ := Emission.exists_of_ofTag written
      obtain rfl := List.mem_singleton.mp member
      rfl

theorem outcome_of_no_line {event : Event} (silent : event.element? = none) (margin : Int) :
    (event.emission margin).outcome = .ok [] := by
  cases event with
  | defect ancestors key cause => rfl
  | _ => exact absurd silent nofun

theorem filter_of_emission {margin limit : Int} {event : Event} {lines : List Line}
    (written : (event.emission margin).outcome = .ok lines) :
    lines.filter (fun line => line.column < margin + 2 * limit) =
      if event.isLineAbove limit then lines else [] := by
  have columns := column_of_emission written
  by_cases shown : event.element?.isSome
  · by_cases shallow : (event.depth : Int) < limit
    · have kept : event.isLineAbove limit = true := by simp [isLineAbove, shown, shallow]
      rw [if_pos kept, List.filter_eq_self]
      intro line member
      rw [columns line member, decide_eq_true_eq]
      omega
    · have dropped : ¬event.isLineAbove limit = true := by simp [isLineAbove, shallow]
      rw [if_neg dropped, List.filter_eq_nil_iff]
      intro line member
      rw [columns line member, decide_eq_true_eq]
      omega
  · have silent : event.element? = none := by simpa using shown
    obtain rfl : lines = [] := Except.ok.inj (written.symm.trans (outcome_of_no_line silent margin))
    rw [List.filter_nil, ite_self]

end Event

namespace Emission

variable {margin limit : Int} {events : List Event}

theorem outcome_append_of_ok {first second : Emission} {before after : List Line}
    (written : first.outcome = .ok before) (further : second.outcome = .ok after) :
    (first ++ second).outcome = .ok (before ++ after) := by
  obtain ⟨defects, outcome⟩ := first
  subst written
  rw [ok_append, further]
  rfl

theorem outcome_append_congr {first second other : Emission} (same : second.outcome = other.outcome) :
    (first ++ second).outcome = (first ++ other).outcome := by
  obtain ⟨defects, outcome⟩ := first
  cases outcome with
  | error failure => rfl
  | ok lines => rw [ok_append, ok_append, same]

theorem outcome_append_of_nil {first second : Emission} (silent : first.outcome = .ok []) :
    (first ++ second).outcome = second.outcome := by
  obtain ⟨defects, outcome⟩ := first
  subst silent
  rw [ok_append]
  cases second.outcome <;> rfl

theorem outcome_filter_of_above
    (above : ∀ event ∈ events, event.element?.isSome → (event.depth : Int) < limit) :
    (ofEvents margin (events.filter (Event.isLineAbove limit))).outcome =
      (ofEvents margin events).outcome := by
  induction events with
  | nil => rfl
  | cons event events ih =>
      have others := ih fun other member => above other (List.mem_cons_of_mem event member)
      by_cases shown : event.element?.isSome
      · have kept : event.isLineAbove limit = true := by
          simpa [Event.isLineAbove, shown] using above event List.mem_cons_self shown
        rw [List.filter_cons_of_pos kept, ofEvents_cons, ofEvents_cons]
        exact outcome_append_congr others
      · have silent : event.element? = none := by simpa using shown
        have dropped : ¬event.isLineAbove limit = true := by simp [Event.isLineAbove, silent]
        rw [List.filter_cons_of_neg dropped, ofEvents_cons,
          outcome_append_of_nil (Event.outcome_of_no_line silent margin), others]

theorem outcome_filter_of_ok {lines : List Line} (written : (ofEvents margin events).outcome = .ok lines) :
    (ofEvents margin (events.filter (Event.isLineAbove limit))).outcome =
      .ok (lines.filter fun line => line.column < margin + 2 * limit) := by
  induction events generalizing lines with
  | nil =>
      obtain rfl : [] = lines := by simpa [ofEvents, empty] using written
      rfl
  | cons event events ih =>
      obtain ⟨before, after, first, others, rfl, _⟩ := append_eq_ok written
      rw [List.filter_append, Event.filter_of_emission first]
      by_cases kept : event.isLineAbove limit
      · rw [List.filter_cons_of_pos kept, if_pos kept, ofEvents_cons]
        exact outcome_append_of_ok first (ih others)
      · rw [List.filter_cons_of_neg kept, if_neg kept, List.nil_append, ih others]

end Emission

namespace UITree

variable {tree : UITree} {limit shallow deep : Int} {key : String} {above : List String}

theorem depth_of_mem_events {event : Event} (member : event ∈ tree.events limit key above) :
    above.length ≤ event.depth ∧ (event.element?.isSome → (event.depth : Int) < limit) := by
  induction key, above using tree.visit_induction limit with
  | skipped key above cause resolved =>
      rw [events_of_error resolved, List.mem_singleton] at member
      subst member
      exact ⟨Nat.le_refl _, nofun⟩
  | entered key above element resolved ih =>
      have within := (resolve_eq_ok_iff.mp resolved).2.2
      rw [events_of_ok resolved] at member
      split at member
      · rw [List.mem_singleton] at member
        subst member
        exact ⟨Nat.le_refl _, fun _ => within⟩
      · rcases List.mem_append.mp member with before | last
        · rcases List.mem_cons.mp before with rfl | below
          · exact ⟨Nat.le_refl _, fun _ => within⟩
          · obtain ⟨child, _, inside⟩ := List.mem_flatMap.mp below
            obtain ⟨lower, upper⟩ := ih child inside
            rw [List.length_append, List.length_singleton] at lower
            exact ⟨by omega, upper⟩
        · rw [List.mem_singleton] at last
          subst last
          exact ⟨Nat.le_refl _, fun _ => within⟩

/-- A lower limit changes nothing at a key but that the limit may be met there. -/
theorem resolve_of_le (le : shallow ≤ deep) (path : List String) (key : String) :
    tree.resolve shallow path key = tree.resolve deep path key ∨
      shallow ≤ path.length ∧ tree.resolve shallow path key = .error (.depthLimit key shallow) := by
  unfold resolve
  cases tree.get? key with
  | none => exact Or.inl rfl
  | some element =>
      by_cases repeated : key ∈ path
      · exact Or.inl (by simp [repeated])
      · by_cases low : shallow ≤ path.length
        · exact Or.inr ⟨low, by simp [repeated, low]⟩
        · have lower : ¬deep ≤ path.length := by omega
          exact Or.inl (by simp [repeated, low, lower])

/-- Above the lower limit both walks write the same. -/
theorem filter_events_of_le (le : shallow ≤ deep) :
    (tree.events shallow key above).filter (Event.isLineAbove shallow) =
      (tree.events deep key above).filter (Event.isLineAbove shallow) := by
  induction key, above using tree.visit_induction deep with
  | skipped key above cause resolved =>
      rcases resolve_of_le le above.reverse key with same | ⟨_, limited⟩
      · rw [events_of_error (same.trans resolved), events_of_error resolved]
      · rw [events_of_error limited, events_of_error resolved]
        rfl
  | entered key above element resolved ih =>
      rcases resolve_of_le le above.reverse key with same | ⟨low, limited⟩
      · rw [events_of_ok (same.trans resolved), events_of_ok resolved]
        by_cases leaf : element.childKeys = []
        · rw [if_pos leaf, if_pos leaf]
        · simp only [if_neg leaf, List.filter_append, List.filter_cons, List.filter_flatMap, ih]
      · -- The whole subtree lies below the lower limit.
        have none : (tree.events deep key above).filter (Event.isLineAbove shallow) = [] := by
          rw [List.filter_eq_nil_iff]
          intro event member
          have lower := (depth_of_mem_events member).1
          rw [List.length_reverse] at low
          have deeper : ¬(event.depth : Int) < shallow := by omega
          simp [Event.isLineAbove, deeper]
        rw [events_of_error limited, none]
        rfl

theorem met_sublist_of_le (le : shallow ≤ deep) :
    ((tree.met shallow key above).filter Defect.isInherent).Sublist
      ((tree.met deep key above).filter Defect.isInherent) := by
  induction key, above using tree.visit_induction deep with
  | skipped key above cause resolved =>
      rcases resolve_of_le le above.reverse key with same | ⟨_, limited⟩
      · rw [met_of_error (same.trans resolved), met_of_error resolved]
      · rw [met_of_error limited]
        exact List.nil_sublist _
  | entered key above element resolved ih =>
      rcases resolve_of_le le above.reverse key with same | ⟨_, limited⟩
      · rw [met_of_ok (same.trans resolved), met_of_ok resolved, List.filter_flatMap, List.filter_flatMap]
        exact List.Sublist.flatMap_right _ fun child _ => ih child
      · rw [met_of_error limited]
        exact List.nil_sublist _

theorem events_eq_of_le (le : shallow ≤ deep)
    (unlimited : ∀ defect ∈ tree.met shallow key above, defect.kind ≠ .depthLimit) :
    tree.events shallow key above = tree.events deep key above := by
  induction key, above using tree.visit_induction shallow with
  | skipped key above cause resolved =>
      rcases resolve_of_le le above.reverse key with same | ⟨_, limited⟩
      · rw [events_of_error resolved, events_of_error (same.symm.trans resolved)]
      · rw [met_of_error limited] at unlimited
        exact absurd rfl (unlimited _ List.mem_cons_self)
  | entered key above element resolved ih =>
      -- A key that the lower limit lets through the higher one does, too.
      have same : tree.resolve deep above.reverse key = .ok element := by
        rcases resolve_of_le le above.reverse key with same | ⟨_, limited⟩
        · exact same.symm.trans resolved
        · exact absurd (limited.symm.trans resolved) nofun
      have below : ∀ child ∈ element.childKeys,
          tree.events shallow child (above ++ [key]) = tree.events deep child (above ++ [key]) := by
        intro child member
        apply ih child
        intro defect met
        apply unlimited defect
        rw [met_of_ok resolved]
        exact List.mem_flatMap.mpr ⟨child, member, met⟩
      rw [events_of_ok resolved, events_of_ok same, List.flatMap_congr below]

/-- Under a lower limit a walk that ends well ends well too. It writes exactly the lines that stand left of
the column of the limit, in order; it meets some of the same missing keys and cycles; and if it does not meet
the limit it is the same walk. -/
theorem emit_truncates {column : Int} {lines : List Line} (le : shallow ≤ deep)
    (emitted : (tree.emit deep key column).outcome = .ok lines) :
    (tree.emit shallow key column).outcome =
        .ok (lines.filter fun line => line.column < column + 2 * shallow) ∧
      ((tree.emit shallow key column).defects.filter Defect.isInherent).Sublist
        ((tree.emit deep key column).defects.filter Defect.isInherent) ∧
      ((∀ defect ∈ (tree.emit shallow key column).defects, defect.kind ≠ .depthLimit) →
        tree.emit shallow key column = tree.emit deep key column) := by
  have written : (tree.emit shallow key column).outcome =
      .ok (lines.filter fun line => line.column < column + 2 * shallow) := by
    have within : ∀ event ∈ tree.events shallow key [], event.element?.isSome →
        (event.depth : Int) < shallow := fun _ member => (depth_of_mem_events member).2
    rw [emit_eq_ofEvents] at emitted ⊢
    rw [← Emission.outcome_filter_of_above within, filter_events_of_le le]
    exact Emission.outcome_filter_of_ok emitted
  have defects := (emit_eq_ok written).1
  refine ⟨written, ?_, ?_⟩
  · rw [defects, (emit_eq_ok emitted).1]
    exact met_sublist_of_le le
  · intro unlimited
    rw [defects] at unlimited
    rw [emit_eq_ofEvents, emit_eq_ofEvents, events_eq_of_le le unlimited]

/-- The lower limit cuts the children of the shared element, which stand at two columns, at one of them. -/
theorem emit_truncates_tangled :
    ∃ lines, (3 : Int) ≤ 4 ∧ (tangled.emit 4 "a" 0).outcome = .ok lines ∧
      (tangled.emit 3 "a" 0).outcome = .ok (lines.filter fun line => line.column < 0 + 2 * 3) ∧
      ((tangled.emit 3 "a" 0).defects.filter Defect.isInherent).Sublist
        ((tangled.emit 4 "a" 0).defects.filter Defect.isInherent) ∧
      ((∀ defect ∈ (tangled.emit 3 "a" 0).defects, defect.kind ≠ .depthLimit) →
        tangled.emit 3 "a" 0 = tangled.emit 4 "a" 0) ∧
      .single 6 "d" "Text".toList ∈ lines ∧ .single 4 "d" "Text".toList ∈ lines := by
  have emitted : (tangled.emit 4 "a" 0).outcome = .ok [
      .opening 0 "a" "Stack".toList,
      .opening 2 "b" "Card title=\"x\"".toList,
      .opening 4 "c" "Grid".toList, .single 6 "d" "Text".toList, .closing 4 "Grid",
      .closing 2 "Card",
      .opening 2 "c" "Grid".toList, .single 4 "d" "Text".toList, .closing 2 "Grid",
      .closing 0 "Stack"] := by decide +kernel
  obtain ⟨written, met, same⟩ := emit_truncates (by decide : (3 : Int) ≤ 4) emitted
  exact ⟨_, by decide, emitted, written, met, same, by simp, by simp⟩

end UITree

end TreeExport
