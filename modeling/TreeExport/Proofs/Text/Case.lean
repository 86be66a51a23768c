import TreeExport.Text.Case

/-!
Lower case keeps the marks before the letters: none but such a mark itself has it in its lower case, which is the
mark. So lower case stays on one line, and has as many colons and points as the text.
-/

namespace TreeExport.Text

variable {mark c : Char} {before text : List Char}

theorem mark_ne_ofNat (positive : 0 < mark.toNat) (low : mark.toNat < 0x41) {code : Nat}
    (above : 0x41 ≤ code) : mark ≠ Char.ofNat code := by
  have codes : (Char.ofNat code).toNat = code ∨ (Char.ofNat code).toNat = 0 := by
    by_cases valid : code.isValidChar
    · have kept : Char.ofNat code = Char.ofNatAux code valid := dif_pos valid
      exact Or.inl (congrArg Char.toNat kept)
    · have replaced : Char.ofNat code = ⟨0, by decide⟩ := dif_neg valid
      exact Or.inr (congrArg Char.toNat replaced)
  intro same
  rw [← same] at codes
  omega

theorem mark_ne_toLower (low : mark.toNat < 0x41) (different : c ≠ mark) : mark ≠ c.toLower := by
  by_cases upper : c.val ≥ 'A'.val ∧ c.val ≤ 'Z'.val
  · have code : c.toLower.val = c.val + 32 := congrArg Char.val (dif_pos upper)
    intro same
    have codes := congrArg UInt32.toNat ((congrArg Char.val same).trans code)
    have least : 65 ≤ c.val.toNat := upper.1
    have most : c.val.toNat ≤ 90 := upper.2
    have below : mark.val.toNat < 65 := low
    rw [UInt32.toNat_add] at codes
    have step : (32 : UInt32).toNat = 32 := rfl
    omega
  · have kept : c.toLower = c := dif_neg upper
    rw [kept]
    exact Ne.symm different

theorem mark_not_mem_lowerChar (positive : 0 < mark.toNat) (low : mark.toNat < 0x41) (different : c ≠ mark) :
    mark ∉ lowerChar c := by
  -- A character is lowered by the rule for letters, or by one of two tables that are checked whole.
  unfold lowerChar
  split
  · rw [List.mem_singleton]
    exact mark_ne_toLower low different
  · unfold mapByTable
    split
    · rename_i codes found
      have listed : ∀ expansion ∈ lowerExpansions, ∀ code ∈ expansion.2, 0x41 ≤ code := by
        decide
      obtain ⟨before, after, split, _⟩ := List.lookup_eq_some_iff.mp found
      have member : (c.toNat, codes) ∈ lowerExpansions := by simp [split]
      intro inside
      obtain ⟨code, isCode, same⟩ := List.mem_map.mp inside
      exact mark_ne_ofNat positive low (listed _ member code isCode) same.symm
    · dsimp only
      split
      · rename_i first last step shift found
        have listed : ∀ run ∈ lowerRuns, 0x41 ≤ (run.1 : Int) + run.2.2.2 := by decide +kernel
        have least := listed _ (List.mem_of_find?_eq_some found)
        have inside := List.find?_some found
        simp only [Bool.and_eq_true, decide_eq_true_eq] at inside least
        rw [List.mem_singleton]
        apply mark_ne_ofNat positive low
        omega
      · rw [List.mem_singleton]
        exact Ne.symm different

theorem lowerChar_mark (low : mark.toNat < 0x41) : lowerChar mark = [mark] := by
  have ascii : mark.toNat < 0x80 := Nat.lt_trans low (by decide)
  have kept : mark.toLower = mark := by
    apply dif_neg
    rintro ⟨least, _⟩
    exact absurd (show 65 ≤ mark.toNat from least) (Nat.not_le.mpr low)
  rw [lowerChar, if_pos ascii, kept]

theorem count_lowerFrom (positive : 0 < mark.toNat) (low : mark.toNat < 0x41) :
    (lowerFrom before text).count mark = text.count mark := by
  induction text generalizing before with
  | nil => rfl
  | cons c rest ih =>
      rw [lowerFrom, List.count_append, ih, List.count_cons, Nat.add_comm]
      congr 1
      by_cases same : c = mark
      · subst same
        have plain : (c.toNat = 0x3A3) = False := eq_false (by omega)
        simp [plain, lowerChar_mark low]
      · rw [if_neg (mt beq_iff_eq.mp same), List.count_eq_zero]
        split
        · rw [List.mem_singleton]
          exact mark_ne_ofNat positive low (by decide)
        · exact mark_not_mem_lowerChar positive low same

theorem count_lower (positive : 0 < mark.toNat) (low : mark.toNat < 0x41) (text : String) :
    (lower text).toList.count mark = text.toList.count mark := by
  rw [lower, String.toList_ofList, count_lowerFrom positive low]

theorem lineFeed_not_mem_lower {text : String} (absent : '\n' ∉ text.toList) :
    '\n' ∉ (lower text).toList := by
  rw [← List.count_eq_zero] at absent ⊢
  rw [count_lower (by decide) (by decide), absent]

theorem mem_lowerFrom {c : Char} (kept : lowerChar c = [c]) (plain : c.toNat ≠ 0x3A3) (member : c ∈ text) :
    c ∈ lowerFrom before text := by
  induction text generalizing before with
  | nil => exact absurd member List.not_mem_nil
  | cons first rest ih =>
      rw [lowerFrom, List.mem_append]
      rcases List.mem_cons.mp member with rfl | later
      · left
        simp [plain, kept]
      · exact .inr (ih later)

end TreeExport.Text
