/-!
Cutting a text at a separator.
-/

namespace TreeExport.Text

def split (separator : Char) : List Char → List (List Char)
  | [] => [[]]
  | c :: rest =>
    if c = separator then [] :: split separator rest
    else
      match split separator rest with
      | [] => [[c]]
      | piece :: pieces => (c :: piece) :: pieces

theorem split_ne_nil (separator : Char) (text : List Char) : split separator text ≠ [] := by
  cases text with
  | nil => simp [split]
  | cons c rest =>
    simp only [split]
    split
    · simp
    · split <;> simp

theorem length_split (separator : Char) (text : List Char) :
    (split separator text).length = text.count separator + 1 := by
  induction text with
  | nil => rfl
  | cons c rest ih =>
    rw [split, List.count_cons]
    by_cases cut : c = separator
    · rw [if_pos cut, if_pos (beq_iff_eq.mpr cut), List.length_cons, ih]
    · rw [if_neg cut, if_neg (mt beq_iff_eq.mp cut)]
      cases pieces : split separator rest with
      | nil => exact absurd pieces (split_ne_nil separator rest)
      | cons piece more => simpa [pieces] using ih

/-- Putting the separators back between the pieces gives the text. -/
theorem intercalate_split (separator : Char) (text : List Char) :
    [separator].intercalate (split separator text) = text := by
  induction text with
  | nil => rfl
  | cons c rest ih =>
    simp only [split]
    split
    · subst c
      cases pieces : split separator rest with
      | nil => exact absurd pieces (split_ne_nil separator rest)
      | cons piece more => simp_all [List.intercalate, List.intersperse]
    · cases pieces : split separator rest with
      | nil => exact absurd pieces (split_ne_nil separator rest)
      | cons piece more => cases more <;> simp_all [List.intercalate, List.intersperse]

theorem split_append_cons (separator : Char) (before after : List Char) :
    split separator (before ++ separator :: after) =
      split separator before ++ split separator after := by
  induction before with
  | nil => simp [split]
  | cons c before ih =>
      simp only [List.cons_append, split, ih]
      split
      · rfl
      · cases pieces : split separator before with
        | nil => exact absurd pieces (split_ne_nil separator before)
        | cons piece more => rfl

theorem split_of_not_mem {separator : Char} {text : List Char} (absent : separator ∉ text) :
    split separator text = [text] := by
  induction text with
  | nil => rfl
  | cons c rest ih =>
      simp only [List.mem_cons, not_or] at absent
      rw [split, if_neg (Ne.symm absent.1), ih absent.2]

theorem not_mem_of_mem_split {separator : Char} {text piece : List Char}
    (member : piece ∈ split separator text) : separator ∉ piece := by
  induction text generalizing piece with
  | nil =>
      rw [split, List.mem_singleton] at member
      simp [member]
  | cons c rest ih =>
      rw [split] at member
      split at member
      · rcases List.mem_cons.mp member with rfl | later
        · exact List.not_mem_nil
        · exact ih later
      · rename_i different
        cases pieces : split separator rest with
        | nil => exact absurd pieces (split_ne_nil separator rest)
        | cons first others =>
            rw [pieces] at member ih
            rcases List.mem_cons.mp member with rfl | later
            · simp [Ne.symm different, ih List.mem_cons_self]
            · exact ih (List.mem_cons_of_mem first later)

theorem split_intercalate {separator : Char} {pieces : List (List Char)} (filled : pieces ≠ [])
    (free : ∀ piece ∈ pieces, separator ∉ piece) : split separator ([separator].intercalate pieces) = pieces := by
  induction pieces with
  | nil => exact absurd rfl filled
  | cons piece pieces ih =>
      have here := split_of_not_mem (free piece List.mem_cons_self)
      cases pieces with
      | nil => rw [List.intercalate_singleton, here]
      | cons next others =>
          have behind := ih (by simp) fun other inside => free other (List.mem_cons_of_mem piece inside)
          rw [List.intercalate_cons_cons, List.append_assoc, List.singleton_append, split_append_cons, here,
            behind]
          rfl

/-- A text without separators at the start of another one is part of its first piece. -/
theorem exists_split_append {separator : Char} {text : List Char} (absent : separator ∉ text)
    (rest : List Char) :
    ∃ first others, split separator (text ++ rest) = (text ++ first) :: others := by
  induction text with
  | nil =>
      cases pieces : split separator rest with
      | nil => exact absurd pieces (split_ne_nil separator rest)
      | cons first others => exact ⟨first, others, pieces⟩
  | cons c text ih =>
      simp only [List.mem_cons, not_or] at absent
      obtain ⟨first, others, pieces⟩ := ih absent.2
      exact ⟨first, others, by rw [List.cons_append, split, if_neg (Ne.symm absent.1), pieces]; rfl⟩

/-- A text without separators at the end of another one is part of its last piece. -/
theorem exists_split_append_end {separator : Char} {ending : List Char} (absent : separator ∉ ending)
    (text : List Char) : ∃ upper last, split separator (text ++ ending) = upper ++ [last ++ ending] := by
  induction text with
  | nil => exact ⟨[], [], split_of_not_mem absent⟩
  | cons c text ih =>
      obtain ⟨upper, last, pieces⟩ := ih
      rw [List.cons_append, split, pieces]
      by_cases cut : c = separator
      · exact ⟨[] :: upper, last, if_pos cut⟩
      · rw [if_neg cut]
        cases upper with
        | nil => exact ⟨[], c :: last, rfl⟩
        | cons piece upper => exact ⟨(c :: piece) :: upper, last, rfl⟩

theorem intercalate_cons_eq_append {α : Type} (separator piece : List α) (pieces : List (List α)) :
    separator.intercalate (piece :: pieces) = piece ++ pieces.flatMap (separator ++ ·) := by
  induction pieces generalizing piece with
  | nil => rw [List.intercalate_singleton, List.flatMap_nil, List.append_nil]
  | cons next others ih =>
      rw [List.intercalate_cons_cons, ih, List.flatMap_cons, List.append_assoc, List.append_assoc]

/-- What is in joined pieces is in the separator or in one of the pieces. -/
theorem mem_of_mem_intercalate {α : Type} {separator : List α} {pieces : List (List α)} {c : α}
    (member : c ∈ separator.intercalate pieces) : c ∈ separator ∨ ∃ piece ∈ pieces, c ∈ piece := by
  induction pieces with
  | nil => simp [List.intercalate] at member
  | cons piece pieces ih =>
      cases pieces with
      | nil =>
          rw [List.intercalate_singleton] at member
          exact Or.inr ⟨piece, List.mem_cons_self, member⟩
      | cons next others =>
          rw [List.intercalate_cons_cons, List.append_assoc, List.mem_append, List.mem_append] at member
          rcases member with here | between | later
          · exact Or.inr ⟨piece, List.mem_cons_self, here⟩
          · exact Or.inl between
          · rcases ih later with between | ⟨other, inside, here⟩
            · exact Or.inl between
            · exact Or.inr ⟨other, List.mem_cons_of_mem piece inside, here⟩

theorem not_mem_intercalate {α : Type} {separator : List α} {pieces : List (List α)} {c : α}
    (apart : c ∉ separator) (each : ∀ piece ∈ pieces, c ∉ piece) : c ∉ separator.intercalate pieces := by
  intro member
  rcases mem_of_mem_intercalate member with between | ⟨piece, listed, inside⟩
  · exact apart between
  · exact each piece listed inside

end TreeExport.Text
