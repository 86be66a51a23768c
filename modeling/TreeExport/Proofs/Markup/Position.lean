import TreeExport.Proofs.Markup.Event
import TreeExport.Proofs.Tree.Chain
import Mathlib.Data.List.Forall2
import Mathlib.Data.List.Induction

/-!
Where a walk writes. Child positions, taken from the start on, lead past some keys to a last one. A walk comes
to exactly those positions whose upper keys it enters, in lexicographic order, and at each of them it either
writes the element of the last key or meets a defect that the keys determine.
-/

namespace TreeExport

def Event.isStart : Event → Bool
  | .defect .. => true
  | .single .. => true
  | .opening .. => true
  | .closing .. => false

def Event.isWritten (event : Event) : Bool := event.writtenKey?.isSome

def Event.isDefect (event : Event) : Bool := event.cause?.isSome

def Line.isWritten (line : Line) : Bool := line.writtenKey?.isSome

namespace Emission

theorem forall₂_of_emission {margin : Int} {event : Event} {lines : List Line}
    (written : (event.emission margin).outcome = .ok lines) :
    List.Forall₂ (fun event line => (event.emission margin).outcome = .ok [line])
      ([event].filter Event.isWritten) (lines.filter Line.isWritten) := by
  cases event with
  | defect ancestors key cause =>
      obtain rfl : [] = lines := by simpa [Event.emission, ofDefect] using written
      exact .nil
  | closing ancestors key element =>
      obtain rfl := by simpa [Event.emission, ofLine] using written
      exact .nil
  | single ancestors key element =>
      obtain ⟨tag, _, rfl⟩ := exists_of_ofTag written
      exact .cons written .nil
  | opening ancestors key element =>
      obtain ⟨tag, _, rfl⟩ := exists_of_ofTag written
      exact .cons written .nil

theorem forall₂_of_ofEvents {margin : Int} {events : List Event} {lines : List Line}
    (written : (ofEvents margin events).outcome = .ok lines) :
    List.Forall₂ (fun event line => (event.emission margin).outcome = .ok [line])
      (events.filter Event.isWritten) (lines.filter Line.isWritten) := by
  induction events generalizing lines with
  | nil =>
      obtain rfl : [] = lines := by simpa [ofEvents, empty] using written
      exact .nil
  | cons event events ih =>
      obtain ⟨before, after, first, others, rfl, _⟩ := append_eq_ok written
      rw [← List.singleton_append, List.filter_append, List.filter_append]
      exact List.rel_append (forall₂_of_emission first) (ih others)

end Emission

namespace UITree

variable {tree : UITree} {limit : Int} {start key : String} {ancestors above keys : List String}
variable {positions : List Nat}

/-! ### Child positions -/

/-- The keys that child positions lead past, from the start on. Only the last one may have no element. -/
def keysAlong? (tree : UITree) (start : String) : List Nat → Option (List String)
  | [] => some [start]
  | position :: positions => do
    let element ← tree.get? start
    let child ← element.childKeys[position]?
    let keys ← keysAlong? tree child positions
    return start :: keys

theorem keysAlong?_cons {position : Nat} :
    tree.keysAlong? start (position :: positions) = some keys ↔
      ∃ element child below, tree.get? start = some element ∧
        element.childKeys[position]? = some child ∧
        tree.keysAlong? child positions = some below ∧ keys = start :: below := by
  simp only [keysAlong?, bind, pure, Option.bind_eq_some_iff, Option.some.injEq]
  constructor
  · rintro ⟨element, found, child, isChild, below, further, rfl⟩
    exact ⟨element, child, below, found, isChild, further, rfl⟩
  · rintro ⟨element, child, below, found, isChild, further, rfl⟩
    exact ⟨element, found, child, isChild, below, further, rfl⟩

theorem length_of_keysAlong? (along : tree.keysAlong? start positions = some keys) :
    keys.length = positions.length + 1 := by
  induction positions generalizing start keys with
  | nil =>
      obtain rfl := Option.some.inj along
      rfl
  | cons position positions ih =>
      obtain ⟨_, child, below, _, _, further, rfl⟩ := keysAlong?_cons.mp along
      rw [List.length_cons, ih further, List.length_cons]

theorem exists_of_keysAlong? (along : tree.keysAlong? start positions = some keys) :
    ∃ above key, keys = above ++ [key] := by
  have long := length_of_keysAlong? along
  rcases List.eq_nil_or_concat keys with rfl | ⟨above, key, rfl⟩
  · simp at long
  · exact ⟨above, key, List.concat_eq_append⟩

theorem keysAlong?_append {upper : List Nat} {position : Nat}
    (along : tree.keysAlong? start (upper ++ [position]) = some keys) :
    ∃ upperKeys child, tree.keysAlong? start upper = some upperKeys ∧ keys = upperKeys ++ [child] := by
  induction upper generalizing start keys with
  | nil =>
      obtain ⟨_, child, below, _, _, further, rfl⟩ := keysAlong?_cons.mp along
      obtain rfl := Option.some.inj further
      exact ⟨[start], child, rfl, rfl⟩
  | cons first upper ih =>
      obtain ⟨element, child, below, found, isChild, further, rfl⟩ := keysAlong?_cons.mp along
      obtain ⟨upperKeys, last, upperAlong, rfl⟩ := ih further
      exact ⟨start :: upperKeys, last,
        keysAlong?_cons.mpr ⟨element, child, upperKeys, found, isChild, upperAlong, rfl⟩, rfl⟩

/-! ### Keys that are entered one below the other -/

def Enters (tree : UITree) (limit : Int) : (ancestors keys : List String) → Prop
  | _, [] => True
  | ancestors, key :: keys =>
    (∃ element, tree.resolve limit ancestors.reverse key = .ok element) ∧
      Enters tree limit (ancestors ++ [key]) keys

theorem enters_append {last : String} : tree.Enters limit ancestors (above ++ [last]) ↔
    tree.Enters limit ancestors above ∧
      ∃ element, tree.resolve limit (ancestors ++ above).reverse last = .ok element := by
  induction above generalizing ancestors with
  | nil => simp [Enters]
  | cons key above ih =>
      rw [List.cons_append, Enters, Enters, ih, and_assoc, List.append_assoc, List.singleton_append]

theorem enters_iff : tree.Enters limit [] keys ↔
    (∀ key ∈ keys, tree.Holds key) ∧ keys.Nodup ∧ (keys ≠ [] → (keys.length : Int) ≤ limit) := by
  induction keys using List.reverseRecOn with
  | nil => simp [Enters]
  | append_singleton above last ih =>
      rw [enters_append, ih, List.nil_append, nodup_append_singleton]
      simp only [resolve_eq_ok_iff, List.forall_mem_append, List.forall_mem_singleton,
        List.length_append, List.length_singleton]
      constructor
      · rintro ⟨⟨held, distinct, _⟩, element, found, fresh, shallow⟩
        exact ⟨⟨held, element, found⟩, ⟨distinct, fresh⟩, fun _ => by omega⟩
      · rintro ⟨⟨held, element, found⟩, ⟨distinct, fresh⟩, few⟩
        have shallow := few (by simp)
        exact ⟨⟨held, distinct, fun _ => by omega⟩, element, found, fresh, by omega⟩

/-! ### The tour -/

def arrival (tree : UITree) (limit : Int) (key : String) (ancestors : List String) : Event :=
  match tree.resolve limit ancestors.reverse key with
  | .error cause => .defect ancestors key cause
  | .ok element =>
    if element.childKeys = [] then .single ancestors key element else .opening ancestors key element

/-- All that the walk meets at a key and below it, but for the ends of elements, with the child positions that
lead there. -/
def tour (tree : UITree) (limit : Int) (key : String) (ancestors : List String) :
    List (List Nat × Event) :=
  ([], tree.arrival limit key ancestors) ::
    match _ : tree.resolve limit ancestors.reverse key with
    | .error _ => []
    | .ok element => element.childKeys.zipIdx.flatMap fun child =>
      (tour tree limit child.1 (ancestors ++ [key])).map fun stop => (child.2 :: stop.1, stop.2)
  termination_by (tree.keysOutside ancestors).length
  decreasing_by
    obtain ⟨found, fresh, _⟩ := resolve_eq_ok_iff.mp ‹_›
    exact keysOutside_append_singleton_lt found fresh

theorem arrival_of_error {cause : Defect}
    (resolved : tree.resolve limit ancestors.reverse key = .error cause) :
    tree.arrival limit key ancestors = .defect ancestors key cause := by
  rw [arrival, resolved]

theorem arrival_of_ok {element : Element}
    (resolved : tree.resolve limit ancestors.reverse key = .ok element) :
    tree.arrival limit key ancestors =
      if element.childKeys = [] then .single ancestors key element
      else .opening ancestors key element := by
  rw [arrival, resolved]

theorem tour_of_error {cause : Defect}
    (resolved : tree.resolve limit ancestors.reverse key = .error cause) :
    tree.tour limit key ancestors = [([], tree.arrival limit key ancestors)] := by
  rw [tour]
  split <;> simp_all

theorem tour_of_ok {element : Element}
    (resolved : tree.resolve limit ancestors.reverse key = .ok element) :
    tree.tour limit key ancestors = ([], tree.arrival limit key ancestors) ::
      element.childKeys.zipIdx.flatMap fun child =>
        (tree.tour limit child.1 (ancestors ++ [key])).map fun stop => (child.2 :: stop.1, stop.2) := by
  rw [tour]
  split <;> simp_all

theorem pairwise_zipIdx (keys : List String) (first : Nat) :
    (keys.zipIdx first).Pairwise fun before after => before.2 < after.2 := by
  induction keys generalizing first with
  | nil => exact .nil
  | cons key keys ih =>
      rw [List.zipIdx_cons, List.pairwise_cons]
      exact ⟨fun _ member => List.le_snd_of_mem_zipIdx member, ih (first + 1)⟩

/-- Parents come before their children, and children from left to right. -/
theorem pairwise_tour : ((tree.tour limit key ancestors).map Prod.fst).Pairwise (List.Lex (· < ·)) := by
  induction key, ancestors using tree.visit_induction limit with
  | skipped key ancestors cause resolved => simp [tour_of_error resolved]
  | entered key ancestors element resolved ih =>
      rw [tour_of_ok resolved, List.map_cons, List.pairwise_cons, List.map_flatMap, List.pairwise_flatMap]
      simp only [List.map_map, Function.comp_def, List.mem_flatMap, List.mem_map]
      refine ⟨?_, ?_, ?_⟩
      · rintro _ ⟨child, _, stop, _, rfl⟩
        exact .nil
      · intro child _
        have below := List.pairwise_map.mp (ih child.1)
        exact List.pairwise_map.mpr (below.imp .cons)
      · refine (pairwise_zipIdx element.childKeys 0).imp ?_
        rintro before after lower _ ⟨stop, _, rfl⟩ _ ⟨other, _, rfl⟩
        exact .rel lower

theorem mem_tour_nil {event : Event} :
    ([], event) ∈ tree.tour limit key ancestors ↔ event = tree.arrival limit key ancestors := by
  rw [tour, List.mem_cons, Prod.mk.injEq, and_iff_right rfl, or_iff_left]
  split
  · exact List.not_mem_nil
  · simp

theorem mem_tour_cons {element : Element} {event : Event} {position : Nat}
    (resolved : tree.resolve limit ancestors.reverse key = .ok element) :
    (position :: positions, event) ∈ tree.tour limit key ancestors ↔
      ∃ child, element.childKeys[position]? = some child ∧
        (positions, event) ∈ tree.tour limit child (ancestors ++ [key]) := by
  rw [tour_of_ok resolved, List.mem_cons, or_iff_right (by simp), List.mem_flatMap]
  constructor
  · rintro ⟨⟨child, place⟩, listed, member⟩
    obtain ⟨⟨upper, other⟩, inside, same⟩ := List.mem_map.mp member
    simp only [Prod.mk.injEq, List.cons.injEq] at same
    obtain ⟨⟨rfl, rfl⟩, rfl⟩ := same
    exact ⟨child, List.mem_zipIdx_iff_getElem?.mp listed, inside⟩
  · rintro ⟨child, isChild, inside⟩
    exact ⟨(child, position), List.mem_zipIdx_iff_getElem?.mpr isChild,
      List.mem_map.mpr ⟨(positions, event), inside, rfl⟩⟩

/-- The walk comes to all positions whose upper keys it enters. -/
theorem mem_tour {event : Event} : (positions, event) ∈ tree.tour limit key ancestors ↔
    ∃ above last, tree.keysAlong? key positions = some (above ++ [last]) ∧
      tree.Enters limit ancestors above ∧ event = tree.arrival limit last (ancestors ++ above) := by
  induction positions generalizing key ancestors with
  | nil =>
      rw [mem_tour_nil]
      constructor
      · rintro rfl
        exact ⟨[], key, rfl, trivial, by rw [List.append_nil]⟩
      · rintro ⟨above, last, along, _, rfl⟩
        have same : above ++ [last] = [key] := (Option.some.inj along).symm
        obtain ⟨rfl, rfl⟩ : above = [] ∧ last = key := by
          simpa [List.append_eq_singleton_iff] using same
        rw [List.append_nil]
  | cons position positions ih =>
      constructor
      · intro member
        cases resolved : tree.resolve limit ancestors.reverse key with
        | error cause => simp [tour_of_error resolved] at member
        | ok element =>
            obtain ⟨child, isChild, inside⟩ := (mem_tour_cons resolved).mp member
            obtain ⟨above, last, along, enters, rfl⟩ := ih.mp inside
            have found := (resolve_eq_ok_iff.mp resolved).1
            refine ⟨key :: above, last, ?_, ⟨⟨element, resolved⟩, enters⟩, by simp⟩
            exact keysAlong?_cons.mpr ⟨element, child, _, found, isChild, along, rfl⟩
      · rintro ⟨above, last, along, enters, rfl⟩
        obtain ⟨element, child, below, found, isChild, further, same⟩ := keysAlong?_cons.mp along
        -- A further key follows, so the start is one of those that are entered.
        cases above with
        | nil =>
            have long := length_of_keysAlong? along
            simp at long
        | cons first above =>
            obtain ⟨rfl, rfl⟩ := List.cons.inj same
            obtain ⟨⟨other, resolved⟩, enters⟩ := enters
            obtain rfl : other = element := by
              simpa [found] using (resolve_eq_ok_iff.mp resolved).1.symm
            refine (mem_tour_cons resolved).mpr ⟨child, isChild, ih.mpr ⟨above, last, further, enters, ?_⟩⟩
            simp

/-- Without its positions a tour is what the walk meets, but for the ends of elements. -/
theorem map_snd_tour : (tree.tour limit key ancestors).map Prod.snd =
    (tree.events limit key ancestors).filter Event.isStart := by
  induction key, ancestors using tree.visit_induction limit with
  | skipped key ancestors cause resolved =>
      rw [tour_of_error resolved, events_of_error resolved, List.map_singleton,
        arrival_of_error resolved]
      rfl
  | entered key ancestors element resolved ih =>
      -- The tour numbers the children, and the walk does not.
      have below : (element.childKeys.zipIdx.flatMap fun child =>
          (tree.tour limit child.1 (ancestors ++ [key])).map Prod.snd) =
            (element.childKeys.flatMap (tree.events limit · (ancestors ++ [key]))).filter Event.isStart := by
        calc (element.childKeys.zipIdx.flatMap fun child =>
              (tree.tour limit child.1 (ancestors ++ [key])).map Prod.snd)
            = (element.childKeys.zipIdx.map Prod.fst).flatMap fun child =>
                (tree.tour limit child (ancestors ++ [key])).map Prod.snd := by rw [List.flatMap_map]
          _ = element.childKeys.flatMap fun child =>
                (tree.events limit child (ancestors ++ [key])).filter Event.isStart := by
            simp only [List.zipIdx_map_fst, ih]
          _ = _ := by rw [List.filter_flatMap]
      rw [tour_of_ok resolved, events_of_ok resolved, arrival_of_ok resolved, List.map_cons,
        List.map_flatMap]
      simp only [List.map_map, Function.comp_def]
      by_cases leaf : element.childKeys = []
      · simp [leaf, List.filter_cons, Event.isStart]
      · simp [leaf, List.filter_cons, Event.isStart, below]

/-! ### Lines and defects by position -/

/-- Whether the walk writes the element where child positions lead: all keys on the way have elements and
differ, and there are no more of them than the limit. -/
def WritesAt (tree : UITree) (limit : Int) (start : String) (positions : List Nat) : Prop :=
  ∃ keys, tree.keysAlong? start positions = some keys ∧ (∀ key ∈ keys, tree.Holds key) ∧
    keys.Nodup ∧ (keys.length : Int) ≤ limit

/-- Whether the walk comes to where child positions lead and writes nothing there: to the start, or to a
child of an element that it writes. -/
def SkipsAt (tree : UITree) (limit : Int) (start : String) (positions : List Nat) : Prop :=
  ¬tree.WritesAt limit start positions ∧
    (positions = [] ∨ ∃ upper position keys, positions = upper ++ [position] ∧
      tree.WritesAt limit start upper ∧ tree.keysAlong? start positions = some keys)

/-- Whether a line opens the element where child positions lead, or is all of it. -/
def ShowsAt (tree : UITree) (start : String) (column : Int) (positions : List Nat) (line : Line) : Prop :=
  ∃ above key element tag, tree.keysAlong? start positions = some (above ++ [key]) ∧
    tree.get? key = some element ∧ element.openTag = .ok tag ∧
    line = if element.childKeys = [] then .single (column + 2 * positions.length) key tag
      else .opening (column + 2 * positions.length) key tag

/-- Whether a defect says why nothing is written where child positions lead. -/
def ExplainsAt (tree : UITree) (limit : Int) (start : String) (positions : List Nat) (defect : Defect) :
    Prop :=
  ∃ above key, tree.keysAlong? start positions = some (above ++ [key]) ∧
    defect = if (tree.get? key).isNone then .missingElement key
      else if key ∈ above then .cycle above key
      else .depthLimit key limit

theorem writesAt_iff : tree.WritesAt limit start positions ↔
    ∃ keys, tree.keysAlong? start positions = some keys ∧ tree.Enters limit [] keys := by
  constructor
  · rintro ⟨keys, along, held, distinct, few⟩
    exact ⟨keys, along, enters_iff.mpr ⟨held, distinct, fun _ => few⟩⟩
  · rintro ⟨keys, along, enters⟩
    obtain ⟨held, distinct, few⟩ := enters_iff.mp enters
    have long := length_of_keysAlong? along
    exact ⟨keys, along, held, distinct, few (List.ne_nil_of_length_eq_add_one long)⟩

theorem skipsAt_iff : tree.SkipsAt limit start positions ↔
    ∃ above key cause, tree.keysAlong? start positions = some (above ++ [key]) ∧
      tree.Enters limit [] above ∧ tree.resolve limit above.reverse key = .error cause := by
  constructor
  · rintro ⟨unwritten, arrived⟩
    obtain ⟨above, key, along, enters⟩ : ∃ above key,
        tree.keysAlong? start positions = some (above ++ [key]) ∧ tree.Enters limit [] above := by
      rcases arrived with rfl | ⟨upper, position, keys, rfl, written, along⟩
      · exact ⟨[], start, rfl, trivial⟩
      · obtain ⟨upperKeys, child, upperAlong, rfl⟩ := keysAlong?_append along
        obtain ⟨entered, same, enters⟩ := writesAt_iff.mp written
        obtain rfl : upperKeys = entered := Option.some.inj (upperAlong.symm.trans same)
        exact ⟨upperKeys, child, along, enters⟩
    -- The key is arrived at below entered ones, so it fails to resolve or is written.
    cases resolved : tree.resolve limit above.reverse key with
    | error cause => exact ⟨above, key, cause, along, enters, resolved⟩
    | ok element =>
        have written := writesAt_iff.mpr ⟨_, along, enters_append.mpr ⟨enters, element, resolved⟩⟩
        exact absurd written unwritten
  · rintro ⟨above, key, cause, along, enters, resolved⟩
    constructor
    · intro written
      obtain ⟨keys, same, entered⟩ := writesAt_iff.mp written
      obtain rfl : above ++ [key] = keys := Option.some.inj (along.symm.trans same)
      obtain ⟨_, element, found⟩ := enters_append.mp entered
      rw [List.nil_append, resolved] at found
      exact absurd found nofun
    · rcases List.eq_nil_or_concat positions with rfl | ⟨upper, position, rfl⟩
      · exact Or.inl rfl
      · rw [List.concat_eq_append] at along ⊢
        obtain ⟨upperKeys, child, upperAlong, same⟩ := keysAlong?_append along
        obtain rfl : above = upperKeys := (List.append_inj' same rfl).1
        exact Or.inr ⟨upper, position, _, rfl, writesAt_iff.mpr ⟨above, upperAlong, enters⟩, along⟩

theorem explains_of_resolve {above : List String} {cause : Defect}
    (resolved : tree.resolve limit above.reverse key = .error cause) :
    cause = if (tree.get? key).isNone then .missingElement key
      else if key ∈ above then .cycle above key
      else .depthLimit key limit := by
  rcases resolve_eq_error_iff.mp resolved with ⟨missing, rfl⟩ | ⟨held, inside, rfl⟩ |
    ⟨held, fresh, _, rfl⟩
  · simp [missing]
  · simp [Option.isSome_iff_ne_none.mp held, inside]
  · simp [Option.isSome_iff_ne_none.mp held, fresh]

/-! ### The walk by position -/

theorem isDefect_arrival : (tree.arrival limit key above).isDefect ↔
    ∃ cause, tree.resolve limit above.reverse key = .error cause := by
  cases resolved : tree.resolve limit above.reverse key with
  | error cause => simp [arrival_of_error resolved, Event.isDefect, Event.cause?]
  | ok element =>
      rw [arrival_of_ok resolved]
      split <;> simp [Event.isDefect, Event.cause?]

theorem isWritten_arrival : (tree.arrival limit key above).isWritten ↔
    ∃ element, tree.resolve limit above.reverse key = .ok element := by
  cases resolved : tree.resolve limit above.reverse key with
  | error cause => simp [arrival_of_error resolved, Event.isWritten, Event.writtenKey?]
  | ok element =>
      rw [arrival_of_ok resolved]
      split <;> simp [Event.isWritten, Event.writtenKey?]

def stops (tree : UITree) (limit : Int) (start : String) (kind : Event → Bool) : List (List Nat × Event) :=
  (tree.tour limit start []).filter fun stop => kind stop.2

theorem pairwise_stops (kind : Event → Bool) :
    ((tree.stops limit start kind).map Prod.fst).Pairwise (List.Lex (· < ·)) :=
  pairwise_tour.sublist (List.filter_sublist.map Prod.fst)

theorem mem_stops {kind : Event → Bool} {event : Event} :
    (positions, event) ∈ tree.stops limit start kind ↔
      ∃ above key, tree.keysAlong? start positions = some (above ++ [key]) ∧
        tree.Enters limit [] above ∧ event = tree.arrival limit key above ∧ kind event := by
  rw [stops, List.mem_filter, mem_tour]
  constructor
  · rintro ⟨⟨above, key, along, enters, same⟩, isKind⟩
    exact ⟨above, key, along, enters, same, isKind⟩
  · rintro ⟨above, key, along, enters, same, isKind⟩
    exact ⟨⟨above, key, along, enters, same⟩, isKind⟩

theorem mem_map_stops {kind : Event → Bool} :
    positions ∈ (tree.stops limit start kind).map Prod.fst ↔
      ∃ above key, tree.keysAlong? start positions = some (above ++ [key]) ∧
        tree.Enters limit [] above ∧ kind (tree.arrival limit key above) := by
  rw [List.mem_map]
  constructor
  · rintro ⟨⟨_, event⟩, member, rfl⟩
    obtain ⟨above, key, along, enters, rfl, isKind⟩ := mem_stops.mp member
    exact ⟨above, key, along, enters, isKind⟩
  · rintro ⟨above, key, along, enters, isKind⟩
    exact ⟨_, mem_stops.mpr ⟨above, key, along, enters, rfl, isKind⟩, rfl⟩

theorem filter_events {kind : Event → Bool} (starts : ∀ event, kind event → event.isStart) :
    (tree.events limit start []).filter kind = (tree.stops limit start kind).map Prod.snd := by
  have only : ∀ event, (kind event && event.isStart) = kind event := by
    intro event
    by_cases isKind : kind event
    · rw [isKind, starts event isKind]
      rfl
    · rw [Bool.eq_false_iff.mpr isKind]
      rfl
  rw [stops, ← Function.comp_def kind, ← List.filter_map, map_snd_tour, List.filter_filter]
  simp only [only]

theorem forall₂_stops {α : Type} {kind : Event → Bool} {items : List α} {gives : Event → α → Prop}
    {holds : List Nat → α → Prop} (starts : ∀ event, kind event → event.isStart)
    (given : List.Forall₂ gives ((tree.events limit start []).filter kind) items)
    (each : ∀ positions above key item, tree.keysAlong? start positions = some (above ++ [key]) →
      kind (tree.arrival limit key above) → gives (tree.arrival limit key above) item →
      holds positions item) :
    List.Forall₂ holds ((tree.stops limit start kind).map Prod.fst) items := by
  rw [filter_events starts, List.forall₂_map_left_iff] at given
  rw [List.forall₂_map_left_iff]
  have stopped : ∀ stop ∈ tree.stops limit start kind, ∃ above key,
      tree.keysAlong? start stop.1 = some (above ++ [key]) ∧ stop.2 = tree.arrival limit key above ∧
        kind stop.2 := by
    rintro ⟨positions, event⟩ member
    obtain ⟨above, key, along, _, same, isKind⟩ := mem_stops.mp member
    exact ⟨above, key, along, same, isKind⟩
  refine ((List.forall₂_and_left _ _).mpr ⟨stopped, given⟩).imp ?_
  rintro stop item ⟨⟨above, key, along, same, isKind⟩, gives⟩
  rw [same] at isKind gives
  exact each _ above key item along isKind gives

theorem forall₂_filterMap {α β : Type} (f : α → Option β) (items : List α) :
    List.Forall₂ (fun item value => f item = some value) (items.filter fun item => (f item).isSome)
      (items.filterMap f) := by
  induction items with
  | nil => exact .nil
  | cons item items ih =>
      cases found : f item with
      | none => simpa [List.filter_cons, found] using ih
      | some value => simpa [List.filter_cons, found] using ih

theorem showsAt_of_arrival {column : Int} {line : Line}
    (along : tree.keysAlong? start positions = some (above ++ [key]))
    (isWritten : (tree.arrival limit key above).isWritten)
    (written : ((tree.arrival limit key above).emission column).outcome = .ok [line]) :
    tree.ShowsAt start column positions line := by
  obtain ⟨element, resolved⟩ := isWritten_arrival.mp isWritten
  have found := (resolve_eq_ok_iff.mp resolved).1
  have deep : above.length = positions.length := by simpa using length_of_keysAlong? along
  rw [arrival_of_ok resolved] at written
  by_cases leaf : element.childKeys = []
  · rw [if_pos leaf] at written
    obtain ⟨tag, made, same⟩ := Emission.exists_of_ofTag written
    refine ⟨above, key, element, tag, along, found, made, ?_⟩
    rw [if_pos leaf, ← deep]
    exact List.singleton_inj.mp same
  · rw [if_neg leaf] at written
    obtain ⟨tag, made, same⟩ := Emission.exists_of_ofTag written
    refine ⟨above, key, element, tag, along, found, made, ?_⟩
    rw [if_neg leaf, ← deep]
    exact List.singleton_inj.mp same

/-- How the lines and defects of a walk follow the positions where it writes and those where it does not. -/
structure Follows (tree : UITree) (limit : Int) (start : String) (column : Int) (lines : List Line)
    (defects : List Defect) (written skipped : List (List Nat)) : Prop where
  writtenAscends : written.Pairwise (List.Lex (· < ·))
  mem_written : ∀ positions, positions ∈ written ↔ tree.WritesAt limit start positions
  lines : List.Forall₂ (tree.ShowsAt start column) written (lines.filter Line.isWritten)
  skippedAscends : skipped.Pairwise (List.Lex (· < ·))
  mem_skipped : ∀ positions, positions ∈ skipped ↔ tree.SkipsAt limit start positions
  defects : List.Forall₂ (tree.ExplainsAt limit start) skipped defects
  children : ∀ upper ∈ written, ∀ position keys, tree.keysAlong? start (upper ++ [position]) = some keys →
    (upper ++ [position] ∈ skipped ↔ upper ++ [position] ∉ written)

/-- A walk that ends well writes an element for each sequence of child positions whose keys have elements,
differ and are few enough, and meets a defect for each other sequence that leads to the start or to a child of
an element that it writes; both in lexicographic order. -/
theorem emit_follows_positions {column : Int} {lines : List Line}
    (emitted : (tree.emit limit start column).outcome = .ok lines) :
    ∃ written skipped,
      tree.Follows limit start column lines (tree.emit limit start column).defects written skipped := by
  have mem_written : ∀ positions, positions ∈ (tree.stops limit start Event.isWritten).map Prod.fst ↔
      tree.WritesAt limit start positions := by
    intro positions
    simp only [mem_map_stops, isWritten_arrival, writesAt_iff]
    constructor
    · rintro ⟨above, key, along, enters, resolved⟩
      exact ⟨above ++ [key], along, enters_append.mpr ⟨enters, resolved⟩⟩
    · rintro ⟨keys, along, enters⟩
      obtain ⟨above, key, rfl⟩ := exists_of_keysAlong? along
      exact ⟨above, key, along, enters_append.mp enters⟩
  have mem_skipped : ∀ positions, positions ∈ (tree.stops limit start Event.isDefect).map Prod.fst ↔
      tree.SkipsAt limit start positions := by
    intro positions
    simp only [mem_map_stops, isDefect_arrival, skipsAt_iff, exists_and_left]
  have defects := (emit_eq_ok emitted).1
  rw [emit_eq_ofEvents] at emitted
  refine ⟨_, _, pairwise_stops Event.isWritten, mem_written, ?_, pairwise_stops Event.isDefect,
    mem_skipped, ?_, ?_⟩
  · apply forall₂_stops _ (Emission.forall₂_of_ofEvents emitted)
    · intro positions above key line along isWritten written
      exact showsAt_of_arrival along isWritten written
    · intro event isWritten
      cases event with
      | closing => exact absurd isWritten nofun
      | _ => rfl
  · rw [defects]
    apply forall₂_stops _ (forall₂_filterMap Event.cause? (tree.events limit start []))
    · intro positions above key defect along isDefect given
      obtain ⟨cause, resolved⟩ := isDefect_arrival.mp isDefect
      rw [arrival_of_error resolved] at given
      obtain rfl := Option.some.inj given
      exact ⟨above, key, along, explains_of_resolve resolved⟩
    · intro event isDefect
      cases event with
      | closing => exact absurd isDefect nofun
      | _ => rfl
  · intro upper member position keys along
    rw [mem_skipped, mem_written, SkipsAt]
    refine and_iff_left (Or.inr ⟨upper, position, keys, rfl, (mem_written upper).mp member, along⟩)

/-- The shared element is written at two positions, and what is below it only at the upper one. -/
theorem emit_follows_positions_tangled :
    ∃ lines written skipped, (tangled.emit 3 "a" 0).outcome = .ok lines ∧
      tangled.Follows 3 "a" 0 lines (tangled.emit 3 "a" 0).defects written skipped ∧
      [1, 0] ∈ written ∧ [0, 0, 0] ∈ skipped := by
  have emitted : (tangled.emit 3 "a" 0).outcome = .ok [
      .opening 0 "a" "Stack".toList,
      .opening 2 "b" "Card title=\"x\"".toList,
      .opening 4 "c" "Grid".toList, .closing 4 "Grid",
      .closing 2 "Card",
      .opening 2 "c" "Grid".toList, .single 4 "d" "Text".toList, .closing 2 "Grid",
      .closing 0 "Stack"] := by decide +kernel
  obtain ⟨written, skipped, follows⟩ := emit_follows_positions emitted
  have held : ∀ key ∈ ["a", "b", "c", "d"], tangled.Holds key := by
    intro key member
    simp only [List.mem_cons, List.not_mem_nil, or_false] at member
    rcases member with rfl | rfl | rfl | rfl <;> exact ⟨_, rfl⟩
  have writes : ∀ positions keys, tangled.keysAlong? "a" positions = some keys →
      keys.Sublist ["a", "b", "c", "d"] → keys.Nodup → keys.length ≤ 3 →
      tangled.WritesAt 3 "a" positions := by
    intro positions keys along among distinct few
    exact ⟨keys, along, fun key member => held key (among.subset member), distinct, by omega⟩
  have high : tangled.WritesAt 3 "a" [1, 0] :=
    writes _ ["a", "c", "d"] rfl (by decide) (by decide) (by decide)
  have upper : tangled.WritesAt 3 "a" [0, 0] :=
    writes _ ["a", "b", "c"] rfl (by decide) (by decide) (by decide)
  have low : tangled.SkipsAt 3 "a" [0, 0, 0] := by
    refine ⟨?_, Or.inr ⟨[0, 0], 0, ["a", "b", "c", "d"], rfl, upper, rfl⟩⟩
    rintro ⟨keys, along, _, _, few⟩
    obtain rfl : ["a", "b", "c", "d"] = keys := Option.some.inj along
    exact absurd few (by decide)
  exact ⟨_, written, skipped, emitted, follows, (follows.mem_written _).mpr high,
    (follows.mem_skipped _).mpr low⟩

end UITree

end TreeExport
