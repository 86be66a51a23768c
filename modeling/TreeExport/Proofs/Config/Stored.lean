import TreeExport.Config.Stored
import TreeExport.Proofs.Json.Refusal
import TreeExport.Proofs.Json.Writing

/-!
The parts of a settings file. A part is read as the value that its own parts are read as, and refused if one
of them is; the file has line feeds between its tokens and no other control characters.
-/

namespace TreeExport

namespace Config

namespace Stored

open Json (Reads Refuses enclose member blank_lineBreak bracket_eq_enclose)

inductive Printed : Stored → Prop
  | scalar {text : List Char} : (∀ c ∈ text, 0x20 ≤ c.toNat) → Printed (.scalar text)
  | list {items : List (List Char)} : (∀ item ∈ items, ∀ c ∈ item, 0x20 ≤ c.toNat) → Printed (.list items)
  | record {fields : List (String × Stored)} : (∀ field ∈ fields, Printed field.2) → Printed (.record fields)

/-- Which value a part stands for. -/
inductive Stands : Stored → Value → Prop
  | scalar {text : List Char} {value : Value} : Reads text value → Stands (.scalar text) value
  | list (items : List (List Char × Value)) : (∀ item ∈ items, Reads item.1 item.2) →
      Stands (.list (items.map Prod.fst)) (.list (items.map Prod.snd))
  | record (fields : List (String × Stored × Value)) : (fields.map Prod.fst).Nodup →
      (∀ field ∈ fields, Stands field.2.1 field.2.2) →
      Stands (.record (fields.map fun field => (field.1, field.2.1)))
        (.ofKeyed (fields.map fun field => (field.1, field.2.2)))

/-- Whether a part holds a scalar that is refused, and nothing wrong before it. -/
inductive Refused : Stored → Json.Failure → Prop
  | scalar {text : List Char} {failure : Json.Failure} : Refuses text failure → Refused (.scalar text) failure
  | record {part : Stored} {failure : Json.Failure} (before : List (String × Stored)) (name : String)
      (after : List (String × Stored)) : (∀ field ∈ before, ∃ value, Stands field.2 value) →
      Refused part failure → Refused (.record (before ++ (name, part) :: after)) failure

section Render

variable {part : Stored}

theorem renderFields_eq (depth : Nat) (fields : List (String × Stored)) :
    renderFields depth fields = fields.map fun field => member [' '] field.1 (render depth field.2) := by
  induction fields with
  | nil => rfl
  | cons field fields ih =>
      rw [renderFields, ih, List.map_cons, member]
      simp

theorem render_record (depth : Nat) (fields : List (String × Stored)) :
    render depth (.record fields) = enclose '\x7b' '\x7d' (lineBreak (depth + 1)) (lineBreak depth)
      (fields.map fun field => member [' '] field.1 (render (depth + 1) field.2)) := by
  rw [render, bracket_eq_enclose, renderFields_eq]
  rfl

theorem render_list (depth : Nat) (items : List (List Char)) :
    render depth (.list items) = enclose '[' ']' (lineBreak (depth + 1)) (lineBreak depth) items := by
  rw [render, bracket_eq_enclose]
  rfl

theorem blank_space : Json.Blank [' '] := by
  simp [Json.Blank, Json.isSpace]

theorem Stands.reads {value : Value} (stands : Stands part value) (depth : Nat) :
    Reads (render depth part) value := by
  induction stands generalizing depth with
  | scalar reads => exact reads
  | list items each =>
      rw [render_list]
      exact Json.reads_items (blank_lineBreak _ _) (blank_lineBreak _ _) each
  | record fields distinct _ ih =>
      have each : ∀ entry ∈ fields.map fun field => (field.1, render (depth + 1) field.2.1, field.2.2),
          Reads entry.2.1 entry.2.2 := by
        intro entry inside
        obtain ⟨field, listed, rfl⟩ := List.mem_map.mp inside
        exact ih field listed (depth + 1)
      have names : ((fields.map fun field =>
          (field.1, render (depth + 1) field.2.1, field.2.2)).map Prod.fst).Nodup := by
        rw [List.map_map]
        exact distinct
      have reads := Json.reads_members (blank_lineBreak (.indented 2) (depth + 1))
        (blank_lineBreak (.indented 2) depth) blank_space names each
      rw [List.map_map, List.map_map] at reads
      rw [render_record, List.map_map]
      exact reads

theorem Refused.refuses {failure : Json.Failure} (refused : Refused part failure) (depth : Nat) :
    Refuses (render depth part) failure := by
  induction refused generalizing depth with
  | scalar refuses => exact refuses
  | record before name after each _ ih =>
      have read : ∀ entry ∈ before.map fun field => (field.1, render (depth + 1) field.2),
          ∃ value, Reads entry.2 value := by
        intro entry inside
        obtain ⟨field, listed, rfl⟩ := List.mem_map.mp inside
        obtain ⟨value, stands⟩ := each field listed
        exact ⟨value, stands.reads (depth + 1)⟩
      have refuses := Json.refuses_members (blank_lineBreak (.indented 2) (depth + 1))
        (blank_lineBreak (.indented 2) depth) blank_space read name (ih (depth + 1))
        (after.map fun field => (field.1, render (depth + 1) field.2))
      rw [List.map_append, List.map_cons, List.map_map, List.map_map] at refuses
      rw [render_record, List.map_append, List.map_cons]
      exact refuses

theorem carriage_not_mem_enclose {opening closing : Char} (start : opening ≠ '\r') (stop : closing ≠ '\r')
    (depth : Nat) {pieces : List (List Char)} (each : ∀ piece ∈ pieces, '\r' ∉ piece) :
    '\r' ∉ enclose opening closing (lineBreak (depth + 1)) (lineBreak depth) pieces := by
  have breaks : ∀ depth, '\r' ∉ lineBreak depth := by
    intro depth
    simp [lineBreak, Literal.Spacing.lineBreak]
  cases pieces with
  | nil => simp [enclose, start.symm, stop.symm]
  | cons piece pieces =>
      intro inside
      simp only [enclose, List.mem_cons, List.mem_append, List.not_mem_nil, or_false] at inside
      rcases inside with same | inner | joined | outer | same
      · exact start same.symm
      · exact breaks _ inner
      · rcases Text.mem_of_mem_intercalate joined with between | ⟨other, listed, here⟩
        · rcases List.mem_cons.mp between with comma | inner
          · exact absurd comma (by decide)
          · exact breaks _ inner
        · exact each other listed here
      · exact breaks _ outer
      · exact stop same.symm

theorem carriage_not_mem {text : List Char} (printed : ∀ c ∈ text, 0x20 ≤ c.toNat) : '\r' ∉ text :=
  fun inside => absurd (printed '\r' inside) (by decide)

/-- Lines of a file end in one way only, so a reader that accepts several ways finds what was written. -/
theorem Printed.carriage_not_mem_render (printed : Printed part) (depth : Nat) :
    '\r' ∉ render depth part := by
  induction printed generalizing depth with
  | scalar printed => exact carriage_not_mem printed
  | list each =>
      rw [render_list]
      exact carriage_not_mem_enclose (by decide) (by decide) depth fun item listed =>
        carriage_not_mem (each item listed)
  | record _ ih =>
      rw [render_record]
      refine carriage_not_mem_enclose (by decide) (by decide) depth ?_
      intro piece inside
      obtain ⟨field, listed, rfl⟩ := List.mem_map.mp inside
      simp only [member, List.mem_append, List.mem_cons, List.not_mem_nil, or_false]
      rintro (quoted | colon | space | value)
      · exact absurd (Json.le_toNat_of_mem_quote quoted) (by decide)
      · exact absurd colon (by decide)
      · exact absurd space (by decide)
      · exact ih field listed (depth + 1) value

end Render

end Stored

end Config

end TreeExport
