import TreeExport.Proofs.Markup.Rendering

/-!
The events of a walk that no tag can end: every defect and every line in order, each with the keys above
it. What a walk writes and meets follows from its events; when all tags can be written, the defects are
those of all events and the written keys are those of all lines.
-/

namespace TreeExport

/-- What is met at a key below its ancestors, outermost first. -/
inductive Event where
  | defect (ancestors : List String) (key : String) (cause : Defect)
  | single (ancestors : List String) (key : String) (element : Element)
  | opening (ancestors : List String) (key : String) (element : Element)
  | closing (ancestors : List String) (key : String) (element : Element)

namespace Event

def cause? : Event → Option Defect
  | .defect _ _ cause => some cause
  | .single .. => none
  | .opening .. => none
  | .closing .. => none

def writtenKey? : Event → Option String
  | .defect .. => none
  | .single _ key _ => some key
  | .opening _ key _ => some key
  | .closing .. => none

def emission (margin : Int) : Event → Emission
  | .defect _ _ cause => .ofDefect cause
  | .single ancestors key element =>
    .ofTag element (.single (margin + 2 * ancestors.length) key)
  | .opening ancestors key element =>
    .ofTag element (.opening (margin + 2 * ancestors.length) key)
  | .closing ancestors _ element =>
    .ofLine (.closing (margin + 2 * ancestors.length) element.type)

end Event

namespace Emission

def ofEvents (margin : Int) (events : List Event) : Emission :=
  concat (events.map (Event.emission margin))

theorem ofEvents_singleton (margin : Int) (event : Event) :
    ofEvents margin [event] = event.emission margin := by
  simp [ofEvents]

theorem ofEvents_cons (margin : Int) (event : Event) (events : List Event) :
    ofEvents margin (event :: events) = event.emission margin ++ ofEvents margin events := rfl

theorem ofEvents_append (margin : Int) (first second : List Event) :
    ofEvents margin (first ++ second) = ofEvents margin first ++ ofEvents margin second := by
  simp [ofEvents, concat_append]

theorem ofEvents_flatMap (margin : Int) (keys : List String) (events : String → List Event) :
    ofEvents margin (keys.flatMap events) =
      concat (keys.map fun key => ofEvents margin (events key)) := by
  induction keys with
  | nil => rfl
  | cons key keys ih => simp [ofEvents_append, ih]

theorem append_eq_ok {first second : Emission} {lines : List Line}
    (written : (first ++ second).outcome = .ok lines) :
    ∃ before after, first.outcome = .ok before ∧ second.outcome = .ok after ∧
      lines = before ++ after ∧ (first ++ second).defects = first.defects ++ second.defects := by
  obtain ⟨defects, outcome⟩ := first
  cases outcome with
  | error failure => simp [error_append] at written
  | ok before =>
      obtain ⟨others, outcome⟩ := second
      cases outcome with
      | error failure => simp [ok_append, Except.map] at written
      | ok after =>
          simp only [ok_append, Except.map, Except.ok.injEq] at written
          exact ⟨before, after, rfl, rfl, written.symm, rfl⟩

theorem emission_eq_ok {margin : Int} {event : Event} {lines : List Line}
    (written : (event.emission margin).outcome = .ok lines) :
    (event.emission margin).defects = event.cause?.toList ∧
      lines.filterMap Line.writtenKey? = event.writtenKey?.toList := by
  cases event with
  | defect ancestors key cause =>
      obtain rfl : [] = lines := by simpa [Event.emission, ofDefect] using written
      exact ⟨rfl, rfl⟩
  | closing ancestors key element =>
      obtain rfl := by simpa [Event.emission, ofLine] using written
      exact ⟨rfl, rfl⟩
  | single ancestors key element =>
      obtain ⟨tag, _, rfl⟩ := exists_of_ofTag written
      exact ⟨rfl, rfl⟩
  | opening ancestors key element =>
      obtain ⟨tag, _, rfl⟩ := exists_of_ofTag written
      exact ⟨rfl, rfl⟩

theorem ofEvents_eq_ok {margin : Int} {events : List Event} {lines : List Line}
    (written : (ofEvents margin events).outcome = .ok lines) :
    (ofEvents margin events).defects = events.filterMap Event.cause? ∧
      lines.filterMap Line.writtenKey? = events.filterMap Event.writtenKey? := by
  induction events generalizing lines with
  | nil =>
      obtain rfl : [] = lines := by simpa [ofEvents, empty] using written
      exact ⟨rfl, rfl⟩
  | cons event events ih =>
      obtain ⟨before, after, first, others, rfl, defects⟩ := append_eq_ok written
      obtain ⟨cause, key⟩ := emission_eq_ok first
      obtain ⟨causes, keys⟩ := ih others
      constructor
      · calc (ofEvents margin (event :: events)).defects
            = (event.emission margin).defects ++ (ofEvents margin events).defects := defects
          _ = event.cause?.toList ++ events.filterMap Event.cause? := by rw [cause, causes]
          _ = (event :: events).filterMap Event.cause? := by
            cases found : event.cause? <;> simp [found]
      · rw [List.filterMap_append, key, keys]
        cases found : event.writtenKey? <;> simp [found]

end Emission

namespace UITree

def events (tree : UITree) (limit : Int) (key : String) (ancestors : List String) : List Event :=
  match _resolved : tree.resolve limit ancestors.reverse key with
  | .error cause => [.defect ancestors key cause]
  | .ok element =>
    if element.childKeys = [] then [.single ancestors key element]
    else
      let children := element.childKeys.flatMap fun child =>
        events tree limit child (ancestors ++ [key])
      .opening ancestors key element :: children ++ [.closing ancestors key element]
  termination_by (tree.keysOutside ancestors).length
  decreasing_by
    obtain ⟨found, fresh, _⟩ := resolve_eq_ok_iff.mp ‹_›
    exact keysOutside_append_singleton_lt found fresh

theorem events_of_error {tree : UITree} {limit : Int} {key : String} {ancestors : List String}
    {cause : Defect} (resolved : tree.resolve limit ancestors.reverse key = .error cause) :
    tree.events limit key ancestors = [.defect ancestors key cause] := by
  rw [events]
  split <;> simp_all

theorem events_of_ok {tree : UITree} {limit : Int} {key : String} {ancestors : List String}
    {element : Element} (resolved : tree.resolve limit ancestors.reverse key = .ok element) :
    tree.events limit key ancestors =
      if element.childKeys = [] then [.single ancestors key element]
      else .opening ancestors key element ::
        element.childKeys.flatMap (tree.events limit · (ancestors ++ [key])) ++
          [.closing ancestors key element] := by
  rw [events]
  split <;> simp_all

theorem rendering_eq_ofEvents (tree : UITree) (limit : Int) (key : String)
    (ancestors : List String) (margin : Int) :
    tree.rendering limit key ancestors (margin + 2 * ancestors.length) =
      .ofEvents margin (tree.events limit key ancestors) := by
  induction key, ancestors using tree.visit_induction limit with
  | skipped key ancestors cause resolved =>
      rw [rendering_of_error resolved, events_of_error resolved, Emission.ofEvents_singleton]
      rfl
  | entered key ancestors element resolved ih =>
      rw [events_of_ok resolved]
      by_cases leaf : element.childKeys = []
      · rw [rendering_of_leaf resolved leaf, if_pos leaf, Emission.ofEvents_singleton]
        rfl
      · have deeper : margin + 2 * (ancestors.length : Int) + 2 =
            margin + 2 * ((ancestors ++ [key]).length : Int) := by
          simp only [List.length_append, List.length_singleton]
          omega
        rw [rendering_of_inner resolved leaf, if_neg leaf, deeper, Emission.ofEvents_append,
          Emission.ofEvents_cons, Emission.ofEvents_flatMap, Emission.ofEvents_singleton]
        simp only [ih]
        rfl

theorem emit_eq_ofEvents (tree : UITree) (limit : Int) (key : String) (column : Int) :
    tree.emit limit key column = .ofEvents column (tree.events limit key []) := by
  rw [emit_eq_rendering, ← rendering_eq_ofEvents]
  simp

/-- The keys of the elements that are written below a key, in order and with repetitions. -/
def written (tree : UITree) (limit : Int) (key : String) (ancestors : List String) : List String :=
  (tree.events limit key ancestors).filterMap Event.writtenKey?

def met (tree : UITree) (limit : Int) (key : String) (ancestors : List String) : List Defect :=
  (tree.events limit key ancestors).filterMap Event.cause?

theorem written_of_error {tree : UITree} {limit : Int} {key : String} {ancestors : List String}
    {cause : Defect} (resolved : tree.resolve limit ancestors.reverse key = .error cause) :
    tree.written limit key ancestors = [] := by
  simp [written, events_of_error resolved, Event.writtenKey?]

theorem written_of_ok {tree : UITree} {limit : Int} {key : String} {ancestors : List String}
    {element : Element} (resolved : tree.resolve limit ancestors.reverse key = .ok element) :
    tree.written limit key ancestors =
      key :: element.childKeys.flatMap (tree.written limit · (ancestors ++ [key])) := by
  rw [written, events_of_ok resolved]
  by_cases leaf : element.childKeys = []
  · simp [leaf, Event.writtenKey?]
  · simp [leaf, Event.writtenKey?, List.filterMap_flatMap, written]

theorem met_of_error {tree : UITree} {limit : Int} {key : String} {ancestors : List String}
    {cause : Defect} (resolved : tree.resolve limit ancestors.reverse key = .error cause) :
    tree.met limit key ancestors = [cause] := by
  simp [met, events_of_error resolved, Event.cause?]

theorem met_of_ok {tree : UITree} {limit : Int} {key : String} {ancestors : List String}
    {element : Element} (resolved : tree.resolve limit ancestors.reverse key = .ok element) :
    tree.met limit key ancestors =
      element.childKeys.flatMap (tree.met limit · (ancestors ++ [key])) := by
  rw [met, events_of_ok resolved]
  by_cases leaf : element.childKeys = []
  · simp [leaf, Event.cause?]
  · simp [leaf, List.filterMap_cons, Event.cause?, List.filterMap_flatMap, met]

theorem emit_eq_ok {tree : UITree} {limit : Int} {key : String} {column : Int} {lines : List Line}
    (emitted : (tree.emit limit key column).outcome = .ok lines) :
    (tree.emit limit key column).defects = tree.met limit key [] ∧
      lines.filterMap Line.writtenKey? = tree.written limit key [] := by
  rw [emit_eq_ofEvents] at emitted ⊢
  exact Emission.ofEvents_eq_ok emitted

end UITree

end TreeExport
