import TreeExport.Proofs.Json.Grammar

/-!
Texts that are written well and still not read: the reader takes no integer of too many digits, and so no map
with a member that holds one.
-/

namespace TreeExport

namespace Json

/-- Whether a text is refused with a failure whatever follows it. -/
structure Refuses (text : List Char) (failure : Failure) : Prop where
  opens : Opens text
  fails : ∀ fuel rest, text.length ≤ fuel → Ends rest → readValue fuel (text ++ rest) = .error failure

theorem refuses_integerText {n : Int} (long : digitLimit < (Nat.toDigits 10 n.natAbs).length) :
    Refuses (Value.integerText n) (.longInteger (Nat.toDigits 10 n.natAbs).length) := by
  have scalar := opensScalar_integerText n
  refine ⟨scalar.opens, ?_⟩
  intro fuel rest enough ends
  rw [scalar.readValue_eq enough, readScalar_integerText_eq n ends, if_pos long]

section Members

variable {inner outer gap text : List Char} {failure : Failure}

def membersText (inner gap : List Char) (entries : List (String × List Char)) : List Char :=
  (',' :: inner).intercalate (entries.map fun entry => member gap entry.1 entry.2)

theorem opens_membersText (inner gap : List Char) {entries : List (String × List Char)}
    (filled : entries ≠ []) : Opens (membersText inner gap entries) := by
  cases entries with
  | nil => exact absurd rfl filled
  | cons entry entries => exact (opens_member gap entry.1 entry.2).intercalate (',' :: inner) _

theorem membersText_cons (inner gap : List Char) (entry : String × List Char)
    {entries : List (String × List Char)} (filled : entries ≠ []) :
    membersText inner gap (entry :: entries) =
      member gap entry.1 entry.2 ++ ',' :: (inner ++ membersText inner gap entries) := by
  cases entries with
  | nil => exact absurd rfl filled
  | cons next others =>
      rw [membersText, membersText, List.map_cons, List.map_cons, List.intercalate_cons_cons]
      simp

theorem exists_membersText_cons (isOuter : Blank outer) (inner gap : List Char)
    (entry : String × List Char) (entries : List (String × List Char)) (rest : List Char) :
    ∃ behind, membersText inner gap (entry :: entries) ++ (outer ++ '\x7d' :: rest) =
      member gap entry.1 entry.2 ++ behind ∧ Ends behind := by
  cases entries with
  | nil =>
      refine ⟨outer ++ '\x7d' :: rest, by simp [membersText], ends_append isOuter ?_⟩
      exact ends_cons rest (by decide) (by decide) (by decide) (by decide)
  | cons next others =>
      rw [membersText_cons inner gap entry (by simp), List.append_assoc]
      exact ⟨_, rfl, ends_cons _ (by decide) (by decide) (by decide) (by decide)⟩

/-- The members before one that is refused are read, and nothing behind it is. -/
theorem readMembers_refuses (isInner : Blank inner) (isOuter : Blank outer) (isGap : Blank gap)
    {before : List (String × List Char)} (each : ∀ entry ∈ before, ∃ value, Reads entry.2 value)
    (name : String) (refuses : Refuses text failure) (after : List (String × List Char))
    (rest : List Char) (fuel : Nat)
    (enough : (membersText inner gap (before ++ (name, text) :: after)).length < fuel) :
    readMembers fuel (membersText inner gap (before ++ (name, text) :: after) ++ (outer ++ '\x7d' :: rest)) =
      .error failure := by
  -- The induction is on the members that are read before; each of them takes a unit of fuel.
  induction before generalizing fuel with
  | nil =>
      obtain ⟨fuel, rfl⟩ : ∃ less, fuel = less + 1 := ⟨fuel - 1, by omega⟩
      obtain ⟨behind, split, ends⟩ := exists_membersText_cons isOuter inner gap (name, text) after rest
      have whole : (member gap name text).length ≤ fuel := by
        rw [List.nil_append, membersText, List.map_cons, Text.intercalate_cons_eq_append,
          List.length_append] at enough
        simp only at enough
        omega
      rw [List.nil_append, split, readMembers_member isGap name refuses.opens,
        refuses.fails fuel behind (length_le_of_member whole) ends]
      rfl
  | cons entry before ih =>
      obtain ⟨fuel, rfl⟩ : ∃ less, fuel = less + 1 := ⟨fuel - 1, by omega⟩
      obtain ⟨value, reads⟩ := each entry List.mem_cons_self
      have filled : before ++ (name, text) :: after ≠ [] := by simp
      have opens := opens_membersText inner gap filled
      rw [List.cons_append, membersText_cons inner gap entry filled] at enough ⊢
      simp only [List.length_append, List.length_cons] at enough
      have behind := ih (fun other inside => each other (List.mem_cons_of_mem entry inside)) fuel (by omega)
      generalize membersText inner gap (before ++ (name, text) :: after) = tail at *
      rw [← opens.skipSpace_eq, ← skipSpace_append isInner] at behind
      have short : (member gap entry.1 entry.2).length ≤ fuel := by omega
      have comma : skipSpace (',' :: (inner ++ (tail ++ (outer ++ '\x7d' :: rest)))) =
          ',' :: (inner ++ (tail ++ (outer ++ '\x7d' :: rest))) := skipSpace_cons _ (by decide)
      rw [List.append_assoc, List.cons_append, List.append_assoc, readMembers_member isGap entry.1 reads.opens,
        bind_of_eq_ok (reads.read fuel _ (length_le_of_member short)
          (ends_cons _ (by decide) (by decide) (by decide) (by decide))), afterMember]
      simp only [comma, behind]
      rfl

theorem refuses_members (isInner : Blank inner) (isOuter : Blank outer) (isGap : Blank gap)
    {before : List (String × List Char)} (each : ∀ entry ∈ before, ∃ value, Reads entry.2 value)
    (name : String) (refuses : Refuses text failure) (after : List (String × List Char)) :
    Refuses (enclose '\x7b' '\x7d' inner outer
      ((before ++ (name, text) :: after).map fun entry => member gap entry.1 entry.2)) failure := by
  have filled : before ++ (name, text) :: after ≠ [] := by simp
  have opens := opens_membersText inner gap filled
  have inside := readMembers_refuses isInner isOuter isGap each name refuses after
  have bracketed : enclose '\x7b' '\x7d' inner outer
      ((before ++ (name, text) :: after).map fun entry => member gap entry.1 entry.2) =
      '\x7b' :: (inner ++ (membersText inner gap (before ++ (name, text) :: after) ++ (outer ++ ['\x7d']))) := by
    rw [enclose, membersText]
    simp
  rw [bracketed]
  refine ⟨⟨'\x7b', _, rfl, Or.inr (by decide)⟩, ?_⟩
  intro fuel rest enough _
  simp only [List.length_cons, List.length_append] at enough
  obtain ⟨fuel, rfl⟩ : ∃ less, fuel = less + 1 := ⟨fuel - 1, by omega⟩
  simp only [List.cons_append, List.append_assoc, List.nil_append]
  rw [readValue_members isInner opens, inside rest fuel (by omega)]
  rfl

end Members

theorem Refuses.read_eq {text : List Char} {failure : Failure} (refuses : Refuses text failure) :
    Json.read (String.ofList text) = .error (failure.locate text) := by
  have whole := refuses.fails (2 * text.length + 2) [] (by omega) ends_nil
  rw [List.append_nil] at whole
  have all : readAll text = .error failure := by
    rw [refuses.opens.readAll_eq, whole]
    rfl
  rw [Json.read, String.toList_ofList, all]

end Json

end TreeExport
