import TreeExport.Proofs.Json.Grammar

/-!
Literals of plain values. A value of the kinds that literals have syntax for is written, with any spacing, as
a text that spells it; and it stays so when all lines behind the first are moved to the right, since only
blanks between tokens hold line feeds.
-/

namespace TreeExport

/-- Values of the kinds that literals have syntax for: no integer is too long, every number is finite and is
equal to what its text is read as, and the names in a map are different texts. -/
inductive Value.IsJson : Value → Prop
  | null : IsJson .null
  | bool (value : Bool) : IsJson (.bool value)
  | int {n : Int} : (Nat.toDigits 10 n.natAbs).length ≤ 4300 → IsJson (.int n)
  | float {x : Binary64.Finite} : Json.ReadsBack x → IsJson (.float (.finite x))
  | text (value : String) : IsJson (.text value)
  | list {items : List Value} : (∀ item ∈ items, IsJson item) → IsJson (.list items)
  | map {entries : Keyed Value} : entries.keys.Nodup → (∀ entry ∈ entries, IsJson entry.2) →
      IsJson (.ofKeyed entries)

namespace Json

open Literal (quote)

theorem blank_lineBreak (spacing : Literal.Spacing) (depth : Nat) :
    Blank (spacing.lineBreak depth) := by
  intro c member
  cases spacing with
  | compact => simp [Literal.Spacing.lineBreak] at member
  | indented width =>
      rcases List.mem_cons.mp member with rfl | space
      · decide
      · rw [List.eq_of_mem_replicate space]
        decide

theorem blank_colon (spacing : Literal.Spacing) :
    ∃ gap, Blank gap ∧ spacing.colon = ':' :: gap := by
  cases spacing with
  | compact => exact ⟨[], nofun, rfl⟩
  | indented width => exact ⟨[' '], by simp [Blank, isSpace], rfl⟩

theorem bracket_eq_enclose (spacing : Literal.Spacing) (depth : Nat) (opening closing : Char)
    (pieces : List (List Char)) :
    Literal.bracket spacing depth opening closing pieces =
      enclose opening closing (spacing.lineBreak (depth + 1)) (spacing.lineBreak depth) pieces := by
  cases pieces with
  | nil => rfl
  | cons piece pieces => simp [Literal.bracket, enclose]

section Encoding

variable {spacing : Literal.Spacing} {depth : Nat}

def Written (spacing : Literal.Spacing) (value : Value) : Prop :=
  ∀ depth, ∃ text, Literal.encodeAt spacing depth value = .ok text ∧ Spells text value

theorem exists_encodeItems {items : List Value} (each : ∀ item ∈ items, Written spacing item)
    (depth : Nat) :
    ∃ pairs : List (List Char × Value), pairs.map Prod.snd = items ∧
      Literal.encodeItems spacing depth items = .ok (pairs.map Prod.fst) ∧
      ∀ pair ∈ pairs, Spells pair.1 pair.2 := by
  induction items with
  | nil => exact ⟨[], rfl, rfl, nofun⟩
  | cons item items ih =>
      obtain ⟨text, first, spells⟩ := each item List.mem_cons_self depth
      obtain ⟨pairs, values, others, all⟩ := ih fun other inside =>
        each other (List.mem_cons_of_mem item inside)
      refine ⟨(text, item) :: pairs, by rw [List.map_cons, values], ?_, ?_⟩
      · rw [Literal.encodeItems, bind_of_eq_ok first, bind_of_eq_ok others]
        rfl
      · intro pair inside
        rcases List.mem_cons.mp inside with rfl | later
        · exact spells
        · exact all pair later

theorem exists_encodeEntries {entries : Keyed Value} {gap : List Char} (colon : spacing.colon = ':' :: gap)
    (each : ∀ entry ∈ entries, Written spacing entry.2) (depth : Nat) :
    ∃ parts : List (String × List Char × Value),
      parts.map (fun part => (part.1, part.2.2)) = entries ∧
      Literal.encodeEntries spacing depth (textEntries entries) =
        .ok (parts.map fun part => member gap part.1 part.2.1) ∧
      ∀ part ∈ parts, Spells part.2.1 part.2.2 := by
  induction entries with
  | nil => exact ⟨[], rfl, rfl, nofun⟩
  | cons entry entries ih =>
      obtain ⟨text, first, spells⟩ := each entry List.mem_cons_self depth
      obtain ⟨parts, values, others, all⟩ := ih fun other inside =>
        each other (List.mem_cons_of_mem entry inside)
      refine ⟨(entry.1, text, entry.2) :: parts, by rw [List.map_cons, values], ?_, ?_⟩
      · have named : Literal.keyText spacing (.text entry.1) = .ok entry.1.toList := rfl
        have unfolded : textEntries (entry :: entries) =
          (.text entry.1, entry.2) :: textEntries entries := rfl
        rw [unfolded, Literal.encodeEntries, bind_of_eq_ok named, bind_of_eq_ok first,
          bind_of_eq_ok others, colon]
        simp [member]
        rfl
      · intro part inside
        rcases List.mem_cons.mp inside with rfl | later
        · exact spells
        · exact all part later

theorem written_of_isJson (spacing : Literal.Spacing) {value : Value} (json : value.IsJson) :
    Written spacing value := by
  induction json with
  | null => exact fun depth => ⟨_, rfl, .null⟩
  | bool value => exact fun depth => ⟨_, rfl, .bool value⟩
  | @int n short =>
      have bound : ∀ limit, 0 < limit → (Nat.toDigits 10 n.natAbs).length ≤ limit →
          n.natAbs < Nat.pow 10 limit :=
        fun limit positive => (Nat.length_toDigits_le_iff (by decide) positive).mp
      have few := bound Literal.digitLimit (by decide) short
      exact fun depth => ⟨_, by rw [Literal.encodeAt, Literal.integer, if_pos few], .int short⟩
  | float back => exact fun depth => ⟨_, rfl, .float back⟩
  | text value => exact fun depth => ⟨_, rfl, .text value⟩
  | @list items _ ih =>
      intro depth
      obtain ⟨pairs, rfl, written, each⟩ := exists_encodeItems ih (depth + 1)
      refine ⟨_, by rw [Literal.encodeAt, bind_of_eq_ok written]; rfl, ?_⟩
      rw [bracket_eq_enclose]
      exact .list pairs (blank_lineBreak spacing _) (blank_lineBreak spacing _) each
  | @map entries distinct _ ih =>
      intro depth
      obtain ⟨gap, isGap, colon⟩ := blank_colon spacing
      obtain ⟨parts, rfl, written, each⟩ := exists_encodeEntries colon ih (depth + 1)
      refine ⟨_, by rw [Value.ofKeyed, Literal.encodeAt, ← textEntries, bind_of_eq_ok written]; rfl, ?_⟩
      rw [bracket_eq_enclose]
      rw [Keyed.keys, List.map_map] at distinct
      exact .map parts (blank_lineBreak spacing _) (blank_lineBreak spacing _) isGap distinct each

end Encoding

def shift (margin text : List Char) : List Char :=
  text.flatMap fun c => if c = '\n' then '\n' :: margin else [c]

section Shift

variable {margin : List Char}

theorem shift_append (first second : List Char) :
    shift margin (first ++ second) = shift margin first ++ shift margin second :=
  List.flatMap_append

theorem shift_cons {c : Char} (visible : c ≠ '\n') (text : List Char) :
    shift margin (c :: text) = c :: shift margin text := by
  rw [shift, List.flatMap_cons, if_neg visible]
  rfl

theorem shift_of_not_mem {text : List Char} (single : '\n' ∉ text) : shift margin text = text := by
  induction text with
  | nil => rfl
  | cons c rest ih =>
      simp only [List.mem_cons, not_or] at single
      rw [shift_cons (Ne.symm single.1), ih single.2]

theorem shift_intercalate (separator : List Char) (pieces : List (List Char)) :
    shift margin (separator.intercalate pieces) =
      (shift margin separator).intercalate (pieces.map (shift margin)) := by
  induction pieces with
  | nil => rfl
  | cons piece pieces ih =>
      cases pieces with
      | nil => rw [List.map_singleton, List.intercalate_singleton, List.intercalate_singleton]
      | cons next others =>
          rw [List.map_cons] at ih ⊢
          rw [List.map_cons, List.intercalate_cons_cons, List.intercalate_cons_cons, shift_append,
            shift_append, ih]

theorem shift_enclose {opening closing : Char} (inner outer : List Char) (pieces : List (List Char))
    (start : opening ≠ '\n') (stop : closing ≠ '\n') :
    shift margin (enclose opening closing inner outer pieces) =
      enclose opening closing (shift margin inner) (shift margin outer) (pieces.map (shift margin)) := by
  cases pieces with
  | nil => simp [enclose, shift, start, stop]
  | cons piece pieces =>
      have comma : shift margin (',' :: inner) = ',' :: shift margin inner := shift_cons (by decide) inner
      have bracket : shift margin [closing] = [closing] := shift_cons stop []
      rw [List.map_cons, enclose, enclose, shift_cons start, shift_append, shift_append, shift_append,
        shift_intercalate, comma, bracket, List.map_cons]
      · simp
      · simp

theorem shift_member (gap : List Char) (name : String) (text : List Char) :
    shift margin (member gap name text) = member (shift margin gap) name (shift margin text) := by
  rw [member, shift_append, shift_of_not_mem (lineFeed_not_mem_quote name.toList),
    shift_cons (by decide), shift_append, member]

theorem blank_shift (isMargin : Blank margin) {blank : List Char} (isBlank : Blank blank) :
    Blank (shift margin blank) := by
  intro c inside
  obtain ⟨other, member, placed⟩ := List.mem_flatMap.mp inside
  split at placed
  · rcases List.mem_cons.mp placed with rfl | added
    · decide
    · exact isMargin c added
  · rw [List.mem_singleton.mp placed]
    exact isBlank other member

theorem Spells.shift {text : List Char} {value : Value} (isMargin : Blank margin)
    (spells : Spells text value) : Spells (Json.shift margin text) value := by
  -- Line feeds stand between the parts of a collection only, so no other text is moved.
  induction spells with
  | null => exact .null
  | bool value =>
      cases value with
      | true => exact .bool true
      | false => exact .bool false
  | @int n short =>
      rw [shift_of_not_mem fun inside => absurd (Numeral.isPlain_of_mem_integerText inside) (by decide)]
      exact .int short
  | float back =>
      rw [shift_of_not_mem fun inside => absurd (Numeral.isPlain_of_mem_render inside) (by decide)]
      exact .float back
  | text value =>
      rw [shift_of_not_mem (lineFeed_not_mem_quote value.toList)]
      exact .text value
  | list items isInner isOuter _ ih =>
      have each : ∀ item ∈ items.map fun item => (Json.shift margin item.1, item.2),
          Spells item.1 item.2 := by
        intro item inside
        obtain ⟨other, member, rfl⟩ := List.mem_map.mp inside
        exact ih other member
      have moved := Spells.list _ (blank_shift isMargin isInner) (blank_shift isMargin isOuter) each
      rw [List.map_map, List.map_map] at moved
      rw [shift_enclose _ _ _ (by decide) (by decide), List.map_map]
      exact moved
  | @map inner outer gap entries isInner isOuter isGap distinct _ ih =>
      have each : ∀ entry ∈ entries.map fun entry => (entry.1, Json.shift margin entry.2.1, entry.2.2),
          Spells entry.2.1 entry.2.2 := by
        intro entry inside
        obtain ⟨other, member, rfl⟩ := List.mem_map.mp inside
        exact ih other member
      have names : ((entries.map fun entry =>
          (entry.1, Json.shift margin entry.2.1, entry.2.2)).map Prod.fst).Nodup := by
        rw [List.map_map]
        exact distinct
      have moved := Spells.map _ (blank_shift isMargin isInner) (blank_shift isMargin isOuter)
        (blank_shift isMargin isGap) names each
      have members : (entries.map fun entry => member gap entry.1 entry.2.1).map (Json.shift margin) =
          entries.map fun entry => member (Json.shift margin gap) entry.1 (Json.shift margin entry.2.1) := by
        rw [List.map_map]
        exact List.map_congr_left fun entry _ => shift_member gap entry.1 entry.2.1
      rw [List.map_map, List.map_map] at moved
      rw [shift_enclose _ _ _ (by decide) (by decide), members]
      exact moved

end Shift

end Json

end TreeExport
