import TreeExport.Proofs.Markup.Event
import TreeExport.Proofs.Tree.Chain

/-!
Every line of a walk is a tag of an element that links lead to from the start of the walk, and every defect
that the walk itself meets is about a key, never about a template.
-/

namespace TreeExport

def Line.TagOf (line : Line) (element : Element) : Prop :=
  match line with
  | .opening _ _ tag => element.openTag = .ok tag
  | .single _ _ tag => element.openTag = .ok tag
  | .closing _ component => component = element.type

namespace Event

def element? : Event → Option Element
  | .defect .. => none
  | .single _ _ element => some element
  | .opening _ _ element => some element
  | .closing _ _ element => some element

theorem exists_element_of_mem_emission {margin : Int} {event : Event} {lines : List Line}
    (written : (event.emission margin).outcome = .ok lines) {line : Line} (member : line ∈ lines) :
    ∃ element, event.element? = some element ∧ line.TagOf element := by
  cases event with
  | defect ancestors key cause =>
      obtain rfl : [] = lines := by simpa [emission, Emission.ofDefect] using written
      simp at member
  | closing ancestors key element =>
      obtain rfl := by simpa [emission, Emission.ofLine] using written
      rw [List.mem_singleton] at member
      subst member
      exact ⟨element, rfl, rfl⟩
  | single ancestors key element =>
      obtain ⟨tag, made, rfl⟩ := Emission.exists_of_ofTag written
      obtain rfl := List.mem_singleton.mp member
      exact ⟨element, rfl, made⟩
  | opening ancestors key element =>
      obtain ⟨tag, made, rfl⟩ := Emission.exists_of_ofTag written
      obtain rfl := List.mem_singleton.mp member
      exact ⟨element, rfl, made⟩

end Event

namespace Emission

theorem exists_event_of_mem_lines {margin : Int} {events : List Event} {lines : List Line}
    (written : (ofEvents margin events).outcome = .ok lines) {line : Line} (member : line ∈ lines) :
    ∃ event ∈ events, ∃ element, event.element? = some element ∧ line.TagOf element := by
  induction events generalizing lines with
  | nil =>
      obtain rfl : [] = lines := by simpa [ofEvents, empty] using written
      simp at member
  | cons event events ih =>
      obtain ⟨before, after, first, others, rfl, _⟩ := append_eq_ok written
      rcases List.mem_append.mp member with here | later
      · exact ⟨event, List.mem_cons_self, Event.exists_element_of_mem_emission first here⟩
      · obtain ⟨other, inside, tagged⟩ := ih others later
        exact ⟨other, List.mem_cons_of_mem event inside, tagged⟩

end Emission

namespace UITree

variable {tree : UITree} {limit : Int} {start key : String} {ancestors : List String}

theorem reaches_of_mem_events {event : Event} {element : Element}
    (member : event ∈ tree.events limit key ancestors) (shown : event.element? = some element) :
    ∃ other, tree.Reaches key other ∧ tree.get? other = some element := by
  induction key, ancestors using tree.visit_induction limit with
  | skipped key ancestors defect resolved =>
      rw [events_of_error resolved, List.mem_singleton] at member
      subst member
      simp [Event.element?] at shown
  | entered key ancestors parent resolved ih =>
      have found := (resolve_eq_ok_iff.mp resolved).1
      have here : event.element? = some parent → ∃ other, tree.Reaches key other ∧
          tree.get? other = some element := by
        intro own
        obtain rfl : parent = element := Option.some.inj (own.symm.trans shown)
        exact ⟨key, .refl, found⟩
      rw [events_of_ok resolved] at member
      split at member
      · rw [List.mem_singleton] at member
        subst member
        exact here rfl
      · rcases List.mem_append.mp member with before | last
        · rcases List.mem_cons.mp before with rfl | below
          · exact here rfl
          · obtain ⟨child, isChild, inside⟩ := List.mem_flatMap.mp below
            obtain ⟨other, reaches, found'⟩ := ih child inside
            exact ⟨other, reaches.head ⟨parent, found, isChild⟩, found'⟩
        · rw [List.mem_singleton] at last
          subst last
          exact here rfl

theorem exists_element_of_mem_lines {column : Int} {lines : List Line}
    (emitted : (tree.emit limit start column).outcome = .ok lines) {line : Line}
    (member : line ∈ lines) :
    ∃ key element, tree.Reaches start key ∧ tree.get? key = some element ∧ line.TagOf element := by
  rw [emit_eq_ofEvents] at emitted
  obtain ⟨event, inside, element, shown, tagged⟩ := Emission.exists_event_of_mem_lines emitted member
  obtain ⟨key, reaches, found⟩ := reaches_of_mem_events inside shown
  exact ⟨key, element, reaches, found, tagged⟩

theorem kind_ne_missingTemplate_of_mem_met {defect : Defect}
    (member : defect ∈ tree.met limit key ancestors) : defect.kind ≠ .missingTemplate := by
  induction key, ancestors using tree.visit_induction limit with
  | skipped key ancestors cause resolved =>
      rw [met_of_error resolved, List.mem_singleton] at member
      subst member
      rcases resolve_eq_error_iff.mp resolved with ⟨_, rfl⟩ | ⟨_, _, rfl⟩ | ⟨_, _, _, rfl⟩
      · exact nofun
      · exact nofun
      · exact nofun
  | entered key ancestors element resolved ih =>
      rw [met_of_ok resolved] at member
      obtain ⟨child, _, inside⟩ := List.mem_flatMap.mp member
      exact ih child inside

end UITree

end TreeExport
