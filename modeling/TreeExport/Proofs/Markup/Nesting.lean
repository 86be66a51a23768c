import TreeExport.Proofs.Markup.LineFeed

/-!
How the lines of a walk nest. Every opening line has one closing line behind it at the same column, with only
lines of the children between them, which stand two columns further right. No value of a prop breaks a line,
so the text of a walk has exactly these lines.
-/

namespace TreeExport

namespace Line

theorem content_eq (line : Line) : ∃ rest, line.content = '<' :: rest := by
  cases line with
  | opening column key tag => exact ⟨_, rfl⟩
  | closing column component => exact ⟨_, rfl⟩
  | single column key tag => exact ⟨_, rfl⟩

theorem text_ne_nil (line : Line) : line.text ≠ [] := by
  obtain ⟨rest, content⟩ := line.content_eq
  simp [text, content]

end Line

namespace UITree

/-- Lines that nest below a column: one element after the other with its lines, each with the lines of some
of its children two columns further right. The keys are those of the elements at the column. -/
inductive Nested (tree : UITree) : (column : Int) → (keys : List String) → List Line → Prop
  | nil {column} : Nested tree column [] []
  | single {column key element tag keys rest} : tree.get? key = some element →
      element.openTag = .ok tag → Nested tree column keys rest →
      Nested tree column (key :: keys) (.single column key tag :: rest)
  | block {column key element tag children inner keys rest} : tree.get? key = some element →
      element.openTag = .ok tag → children.Sublist element.childKeys →
      Nested tree (column + 2) children inner → Nested tree column keys rest →
      Nested tree column (key :: keys)
        (.opening column key tag :: (inner ++ .closing column element.type :: rest))

/-- A line opens an element that a later line closes at the same column, and the lines between them are those
of its children, nested two columns further right. -/
structure Encloses (tree : UITree) (lines : List Line) (first last : Nat) (column : Int) (key : String)
    (element : Element) : Prop where
  found : tree.get? key = some element
  opens : ∃ tag, element.openTag = .ok tag ∧ lines[first]? = some (.opening column key tag)
  closes : lines[last]? = some (.closing column element.type)
  before : first < last
  deeper : ∀ place line, first < place → place < last → lines[place]? = some line → column + 2 ≤ line.column
  nested : ∃ children, children.Sublist element.childKeys ∧
    tree.Nested (column + 2) children ((lines.take last).drop (first + 1))

variable {tree : UITree} {limit column : Int} {start key : String} {ancestors keys others : List String}
variable {element : Element} {lines more : List Line} {first last : Nat}

theorem mem_block {line opening closing : Line} {inner rest : List Line} :
    line ∈ opening :: (inner ++ closing :: rest) ↔
      line = opening ∨ line ∈ inner ∨ line = closing ∨ line ∈ rest := by
  rw [List.mem_cons, List.mem_append, List.mem_cons]

namespace Nested

theorem append (nested : tree.Nested column keys lines) (behind : tree.Nested column others more) :
    tree.Nested column (keys ++ others) (lines ++ more) := by
  induction nested with
  | nil => exact behind
  | single found written _ ih => exact .single found written (ih behind)
  | block found written among inside _ _ ih =>
      rw [List.cons_append, List.cons_append, List.append_assoc, List.cons_append]
      exact .block found written among inside (ih behind)

theorem le_column (nested : tree.Nested column keys lines) : ∀ line ∈ lines, column ≤ line.column := by
  induction nested with
  | nil => exact nofun
  | @single column key _ tag _ _ _ _ _ ih =>
      have here : column ≤ (Line.single column key tag).column := Int.le_refl column
      exact List.forall_mem_cons.mpr ⟨here, ih⟩
  | @block column _ element _ _ inner _ rest _ _ _ _ _ ihInside ihBehind =>
      intro line member
      rcases mem_block.mp member with rfl | inside | rfl | behind
      · exact Int.le_refl column
      · have deeper := ihInside line inside
        omega
      · exact Int.le_refl column
      · exact ihBehind line behind

theorem exists_tagOf (nested : tree.Nested column keys lines) : ∀ line ∈ lines,
    ∃ key ∈ lines.filterMap Line.writtenKey?, ∃ element,
      tree.get? key = some element ∧ line.TagOf element := by
  induction nested with
  | nil => exact nofun
  | @single column key element tag _ rest found written _ ih =>
      intro line member
      rcases List.mem_cons.mp member with rfl | behind
      · exact ⟨key, List.mem_cons_self, element, found, written⟩
      · obtain ⟨other, inside, tagged⟩ := ih line behind
        exact ⟨other, List.mem_cons_of_mem key inside, tagged⟩
  | @block column key element tag _ inner _ rest found written _ _ _ ihInside ihBehind =>
      have keys_eq :
          (Line.opening column key tag :: (inner ++ .closing column element.type :: rest)).filterMap
            Line.writtenKey? =
          key :: (inner.filterMap Line.writtenKey? ++ rest.filterMap Line.writtenKey?) := by
        have closed : (Line.closing column element.type :: rest).filterMap Line.writtenKey? =
            rest.filterMap Line.writtenKey? := rfl
        rw [← closed, ← List.filterMap_append]
        rfl
      rw [keys_eq]
      intro line member
      rcases mem_block.mp member with rfl | inside | rfl | behind
      · exact ⟨key, List.mem_cons_self, element, found, written⟩
      · obtain ⟨other, listed, tagged⟩ := ihInside line inside
        exact ⟨other, List.mem_cons_of_mem key (List.mem_append_left _ listed), tagged⟩
      · exact ⟨key, List.mem_cons_self, element, found, rfl⟩
      · obtain ⟨other, listed, tagged⟩ := ihBehind line behind
        exact ⟨other, List.mem_cons_of_mem key (List.mem_append_right _ listed), tagged⟩

end Nested

/-! ### The walk nests -/

theorem nested_concat {children : List String} {part : String → Emission}
    (each : ∀ child lines, (part child).outcome = .ok lines →
      ∃ keys, keys.Sublist [child] ∧ tree.Nested column keys lines)
    (written : (Emission.concat (children.map part)).outcome = .ok lines) :
    ∃ keys, keys.Sublist children ∧ tree.Nested column keys lines := by
  induction children generalizing lines with
  | nil =>
      obtain rfl : [] = lines := by simpa [Emission.empty] using written
      exact ⟨[], List.Sublist.refl _, .nil⟩
  | cons child children ih =>
      obtain ⟨before, after, first, others, rfl, _⟩ := Emission.append_eq_ok written
      obtain ⟨keys, among, nested⟩ := each child before first
      obtain ⟨further, amongOthers, behind⟩ := ih others
      exact ⟨keys ++ further, among.append amongOthers, nested.append behind⟩

theorem nested_rendering (written : (tree.rendering limit key ancestors column).outcome = .ok lines) :
    ∃ keys, keys.Sublist [key] ∧ tree.Nested column keys lines := by
  induction key, ancestors using tree.visit_induction limit generalizing column lines with
  | skipped key ancestors defect resolved =>
      rw [rendering_of_error resolved] at written
      obtain rfl : [] = lines := by simpa [Emission.ofDefect] using written
      exact ⟨[], List.nil_sublist _, .nil⟩
  | entered key ancestors element resolved ih =>
      have found := (resolve_eq_ok_iff.mp resolved).1
      by_cases leaf : element.childKeys = []
      · rw [rendering_of_leaf resolved leaf] at written
        obtain ⟨tag, opens, rfl⟩ := Emission.exists_of_ofTag written
        exact ⟨[key], List.Sublist.refl _, .single found opens .nil⟩
      · rw [rendering_of_inner resolved leaf] at written
        obtain ⟨upper, closing, before, last, rfl, _⟩ := Emission.append_eq_ok written
        obtain ⟨opening, inner, own, others, rfl, _⟩ := Emission.append_eq_ok before
        obtain ⟨tag, opens, rfl⟩ := Emission.exists_of_ofTag own
        obtain rfl : [.closing column element.type] = closing := by simpa [Emission.ofLine] using last
        obtain ⟨children, among, inside⟩ := nested_concat (fun child _ => ih child) others
        refine ⟨[key], List.Sublist.refl _, ?_⟩
        simpa using Nested.block found opens among inside .nil

/-! ### Opening and closing lines -/

theorem Encloses.embed (encloses : tree.Encloses lines first last column key element)
    (upper lower : List Line) :
    tree.Encloses (upper ++ lines ++ lower) (upper.length + first) (upper.length + last) column key
      element := by
  obtain ⟨found, ⟨tag, written, opens⟩, closes, before, deeper, children, among, nested⟩ := encloses
  have within : last < lines.length := (List.getElem?_eq_some_iff.mp closes).1
  have shifted : ∀ place, place < lines.length →
      (upper ++ lines ++ lower)[upper.length + place]? = lines[place]? := by
    intro place inside
    rw [List.append_assoc, List.getElem?_append_right (by omega), List.getElem?_append_left (by omega)]
    congr 1
    omega
  have between : ((upper ++ lines ++ lower).take (upper.length + last)).drop (upper.length + first + 1) =
      (lines.take last).drop (first + 1) := by
    rw [List.append_assoc, List.take_append, List.take_of_length_le (by omega), List.drop_append,
      List.drop_eq_nil_of_le (by omega), List.nil_append, List.take_append_of_le_length (by omega)]
    congr 2 <;> omega
  refine ⟨found, ⟨tag, written, ?_⟩, ?_, by omega, ?_, children, among, ?_⟩
  · rw [shifted first (by omega), opens]
  · rw [shifted last within, closes]
  · intro place line after inside here
    obtain ⟨place, rfl⟩ : ∃ inner, place = upper.length + inner := ⟨place - upper.length, by omega⟩
    rw [shifted place (by omega)] at here
    exact deeper place line (by omega) (by omega) here
  · rw [between]
    exact nested

def Matched (tree : UITree) (lines : List Line) (place : Nat) : Prop :=
  (∃ column key tag, lines[place]? = some (.single column key tag)) ∨
    (∃ last column key element, tree.Encloses lines place last column key element) ∨
    ∃ first column key element, tree.Encloses lines first place column key element

theorem Matched.embed {place : Nat} (matched : tree.Matched lines place) (upper lower : List Line) :
    tree.Matched (upper ++ lines ++ lower) (upper.length + place) := by
  rcases matched with ⟨column, key, tag, here⟩ | ⟨last, column, key, element, encloses⟩ |
    ⟨first, column, key, element, encloses⟩
  · have within : place < lines.length := (List.getElem?_eq_some_iff.mp here).1
    refine Or.inl ⟨column, key, tag, ?_⟩
    rw [List.append_assoc, List.getElem?_append_right (by omega), Nat.add_sub_cancel_left,
      List.getElem?_append_left within, here]
  · exact Or.inr (Or.inl ⟨_, _, _, _, encloses.embed upper lower⟩)
  · exact Or.inr (Or.inr ⟨_, _, _, _, encloses.embed upper lower⟩)

theorem encloses_block {children : List String} {tag : List Char} {inner : List Line}
    (found : tree.get? key = some element) (written : element.openTag = .ok tag)
    (among : children.Sublist element.childKeys) (inside : tree.Nested (column + 2) children inner)
    (rest : List Line) :
    tree.Encloses (.opening column key tag :: (inner ++ .closing column element.type :: rest)) 0
      (inner.length + 1) column key element := by
  refine ⟨found, ⟨tag, written, rfl⟩, ?_, by omega, ?_, children, among, ?_⟩
  · simp
  · intro place line after before here
    obtain ⟨place, rfl⟩ : ∃ less, place = less + 1 := ⟨place - 1, by omega⟩
    rw [List.getElem?_cons_succ, List.getElem?_append_left (by omega)] at here
    exact inside.le_column line (List.mem_of_getElem? here)
  · simpa using inside

theorem Nested.matched (nested : tree.Nested column keys lines) :
    ∀ place < lines.length, tree.Matched lines place := by
  induction nested with
  | nil => exact nofun
  | @single column key element tag keys rest _ _ _ ih =>
      intro place within
      cases place with
      | zero => exact Or.inl ⟨column, key, tag, rfl⟩
      | succ place =>
          have matched := (ih place (by simpa using within)).embed [.single column key tag] []
          simpa [Nat.add_comm] using matched
  | @block column key element tag children inner keys rest found written among inside _ ihInside ihBehind =>
      have pair : tree.Encloses _ 0 (inner.length + 1) column key element :=
        encloses_block found written among inside rest
      intro place within
      simp only [List.length_cons, List.length_append] at within
      -- The place is that of the opening line, inside the block, that of the closing line, or behind it.
      by_cases atStart : place = 0
      · exact Or.inr (Or.inl ⟨_, _, _, _, atStart ▸ pair⟩)
      by_cases inInner : place ≤ inner.length
      · have matched := (ihInside (place - 1) (by omega)).embed [.opening column key tag]
          (.closing column element.type :: rest)
        have same : 1 + (place - 1) = place := by omega
        simpa [same] using matched
      by_cases atEnd : place = inner.length + 1
      · exact Or.inr (Or.inr ⟨_, _, _, _, atEnd ▸ pair⟩)
      · have matched := (ihBehind (place - (inner.length + 2)) (by omega)).embed
          (.opening column key tag :: (inner ++ [.closing column element.type])) []
        have same : inner.length + 1 + 1 + (place - (inner.length + 2)) = place := by omega
        simpa [same] using matched

theorem Nested.linesOf_joinLines (nested : tree.Nested column keys lines)
    (unbroken : ∀ key ∈ lines.filterMap Line.writtenKey?, ∀ element, tree.get? key = some element →
      element.Unbroken) : Text.linesOf (Emission.joinLines lines).toList = lines.map Line.text := by
  rw [Emission.joinLines, String.toList_ofList]
  apply Text.linesOf_intercalate
  · intro member
    obtain ⟨line, _, blank⟩ := List.mem_map.mp member
    exact line.text_ne_nil blank
  · rw [List.forall_mem_map]
    intro line member
    obtain ⟨key, written, element, found, tagged⟩ := nested.exists_tagOf line member
    exact Line.lineFeed_not_mem_text tagged (unbroken key written element found)

def layered : UITree where
  root := "a"
  elements := [
    ("a", ⟨"a", "Stack", [], some ["b", "ghost", "c"]⟩),
    ("b", ⟨"b", "Card", [("title", .text "x\ny")], some ["c"]⟩),
    ("c", ⟨"c", "Text", [], none⟩)]

def layeredLines : List Line := [
  .opening 4 "a" "Stack".toList,
  .opening 6 "b" "Card title=\x7b\"x\\ny\"\x7d".toList,
  .single 8 "c" "Text".toList,
  .closing 6 "Card",
  .single 6 "c" "Text".toList,
  .closing 4 "Stack"]

theorem outcome_layered : (layered.emit 3 "a" 4).outcome = .ok layeredLines := by
  decide +kernel

theorem unbroken_layered : ∀ key ∈ layeredLines.filterMap Line.writtenKey?, ∀ element,
    layered.get? key = some element → element.Unbroken := by
  intro key _ element found
  have listed : (key, element) ∈ layered.elements := by
    obtain ⟨before, after, split, _⟩ := List.lookup_eq_some_iff.mp found
    exact split ▸ List.mem_append_right before List.mem_cons_self
  simp only [layered, List.mem_cons, Prod.mk.injEq, List.not_mem_nil, or_false] at listed
  rcases listed with ⟨_, rfl⟩ | ⟨_, rfl⟩ | ⟨_, rfl⟩ <;> exact ⟨by decide, by decide⟩

end UITree

end TreeExport
