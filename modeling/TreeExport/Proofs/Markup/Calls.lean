import TreeExport.Proofs.Markup.Event

/-!
Many calls on one emitter. A call neither sees what the calls before it recorded nor what a failed one of them
left undone: it gives what it would give on an emitter of its own, and records that behind the rest. A call
that fails has come, in the order of the walk, up to the first element whose tag cannot be written.
-/

namespace TreeExport

namespace Event

def opened? : Event → Option Element
  | .defect .. => none
  | .single _ _ element => some element
  | .opening _ _ element => some element
  | .closing .. => none

def Breaks (event : Event) (failure : Literal.Error) : Prop :=
  ∃ element, event.opened? = some element ∧ element.openTag = .error failure

/-- How a walk along some events ends and what it records: all there is to record if every tag can be written,
and otherwise what there is before the first tag that cannot be. -/
inductive Recorded {α : Type} (events : List Event) : Except Literal.Error α → List Defect → Prop
  | whole {result : α} : (∀ event ∈ events, ∀ failure, ¬event.Breaks failure) →
      Recorded events (.ok result) (events.filterMap cause?)
  | broken {before after : List Event} {event : Event} {failure : Literal.Error} :
      events = before ++ event :: after → (∀ earlier ∈ before, ∀ other, ¬earlier.Breaks other) →
      event.Breaks failure → Recorded events (.error failure) (before.filterMap cause?)

theorem Recorded.map {α β : Type} {events : List Event} {outcome : Except Literal.Error α}
    {defects : List Defect} (recorded : Recorded events outcome defects) (change : α → β) :
    Recorded events (outcome.map change) defects := by
  cases recorded with
  | whole unbroken => exact .whole unbroken
  | broken split unbroken breaks => exact .broken split unbroken breaks

theorem emission_of_breaks {event : Event} {failure : Literal.Error} (breaks : event.Breaks failure)
    (margin : Int) : event.emission margin = ⟨[], .error failure⟩ := by
  obtain ⟨element, opened, failed⟩ := breaks
  cases event with
  | defect ancestors key cause => exact absurd opened nofun
  | closing ancestors key other => exact absurd opened nofun
  | single ancestors key other =>
      obtain rfl := Option.some.inj opened
      rw [emission, Emission.ofTag, failed]
      rfl
  | opening ancestors key other =>
      obtain rfl := Option.some.inj opened
      rw [emission, Emission.ofTag, failed]
      rfl

theorem emission_of_not_breaks {event : Event} (unbroken : ∀ failure, ¬event.Breaks failure) (margin : Int) :
    ∃ lines, event.emission margin = ⟨event.cause?.toList, .ok lines⟩ := by
  cases event with
  | defect ancestors key cause => exact ⟨[], rfl⟩
  | closing ancestors key element => exact ⟨_, rfl⟩
  | single ancestors key element =>
      cases written : element.openTag with
      | error failure => exact absurd ⟨element, rfl, written⟩ (unbroken failure)
      | ok tag =>
          rw [emission, Emission.ofTag, written]
          exact ⟨_, rfl⟩
  | opening ancestors key element =>
      cases written : element.openTag with
      | error failure => exact absurd ⟨element, rfl, written⟩ (unbroken failure)
      | ok tag =>
          rw [emission, Emission.ofTag, written]
          exact ⟨_, rfl⟩

theorem recorded_ofEvents (margin : Int) (events : List Event) :
    Recorded events (Emission.ofEvents margin events).outcome (Emission.ofEvents margin events).defects := by
  induction events with
  | nil => exact .whole nofun
  | cons event events ih =>
      rw [Emission.ofEvents_cons]
      -- The first tag without a text ends the record: the defects behind it are lost.
      by_cases breaks : ∃ failure, event.Breaks failure
      · obtain ⟨failure, breaks⟩ := breaks
        rw [emission_of_breaks breaks, Emission.error_append]
        exact .broken (List.nil_append _).symm nofun breaks
      · have unbroken : ∀ failure, ¬event.Breaks failure := not_exists.mp breaks
        obtain ⟨lines, written⟩ := emission_of_not_breaks unbroken margin
        rw [written, Emission.ok_append]
        have first : ∀ later : List Event,
            event.cause?.toList ++ later.filterMap cause? = (event :: later).filterMap cause? := by
          intro later
          cases cause : event.cause? <;> simp [cause]
        generalize Emission.ofEvents margin events = later at ih ⊢
        obtain ⟨defects, outcome⟩ := later
        dsimp only at ih ⊢
        cases ih with
        | whole others =>
            rw [first]
            exact .whole (List.forall_mem_cons.mpr ⟨unbroken, others⟩)
        | broken split others breaks =>
            rw [first, split]
            exact .broken (List.cons_append).symm (List.forall_mem_cons.mpr ⟨unbroken, others⟩) breaks

end Event

namespace Emitter

/-- Several calls on one emitter, each after the last one whatever came of it. -/
def emitAll (emitter : Emitter) : List (String × Int) → List (Except Literal.Error String) × Emitter
  | [] => ([], emitter)
  | call :: calls =>
    let (outcome, after) := emitter.emit call.1 call.2
    let (outcomes, last) := after.emitAll calls
    (outcome :: outcomes, last)

theorem emit_ofTree (tree : UITree) (limit : Int) (key : String) (column : Int) :
    (ofTree tree limit).emit key column = ((tree.emit limit key column).text,
      ⟨tree, limit, (tree.emit limit key column).defects⟩) :=
  emit_eq (ofTree tree limit) key column

theorem emitAll_eq (emitter : Emitter) (calls : List (String × Int)) :
    emitter.emitAll calls =
      (calls.map fun call => (emitter.tree.emit emitter.limit call.1 call.2).text,
        { emitter with defects := emitter.defects ++
            calls.flatMap fun call => (emitter.tree.emit emitter.limit call.1 call.2).defects }) := by
  induction calls generalizing emitter with
  | nil => simp [emitAll]
  | cons call calls ih =>
      rw [emitAll, emit_eq]
      simp only [ih, List.map_cons, List.flatMap_cons, List.append_assoc]

/-- Each of several calls gives what it gives on an emitter of its own, and the emitter records in the order of
the calls what each of them records there: all the defects on the way of a call, or those before the first
element whose tag cannot be written. -/
theorem emitAll_separately (emitter : Emitter) (calls : List (String × Int)) :
    let alone := fun call : String × Int => (ofTree emitter.tree emitter.limit).emit call.1 call.2
    emitter.emitAll calls = (calls.map fun call => (alone call).1,
        { emitter with defects := emitter.defects ++ calls.flatMap fun call => (alone call).2.defects }) ∧
      ∀ call ∈ calls, Event.Recorded (emitter.tree.events emitter.limit call.1 []) (alone call).1
        (alone call).2.defects := by
  simp only [emit_ofTree]
  refine ⟨emitAll_eq emitter calls, ?_⟩
  intro call _
  rw [UITree.emit_eq_ofEvents]
  exact (Event.recorded_ofEvents call.2 _).map Emission.joinLines

def halfWritable : UITree where
  root := "a"
  elements := [
    ("a", ⟨"a", "Stack", [], some ["ghost", "b", "phantom"]⟩),
    ("b", ⟨"b", "Text", [("at", .map [(.tuple [], .null)])], none⟩),
    ("c", ⟨"c", "Text", [], some []⟩)]

example : ((ofTree halfWritable 9).emitAll [("a", 0), ("phantom", 0), ("c", 2), ("a", 4)]).1 =
      [.error (.keyKind "tuple"), .ok "", .ok "  <Text />", .error (.keyKind "tuple")] ∧
    ((ofTree halfWritable 9).emitAll [("a", 0), ("phantom", 0), ("c", 2), ("a", 4)]).2.defects =
      [.missingElement "ghost", .missingElement "phantom", .missingElement "ghost"] := by
  constructor <;> cbv

end Emitter

end TreeExport
