import TreeExport.Proofs.Console.Emoji

/-!
Texts that fit on a line. A text without brackets, backslashes, colons and control characters stands for itself, and
if it fits on one line of a console, it is printed on that line as it is.
-/

namespace TreeExport

namespace Text

theorem foldl_add (counts : List Nat) (start : Nat) :
    counts.foldl (· + ·) start = start + counts.foldl (· + ·) 0 := by
  induction counts generalizing start with
  | nil => rfl
  | cons count counts ih =>
      rw [List.foldl_cons, List.foldl_cons, ih (start + count), ih (0 + count)]
      omega

theorem cellCount_append (first second : List Char) :
    cellCount (first ++ second) = cellCount first + cellCount second := by
  rw [cellCount, List.map_append, List.foldl_append, foldl_add]
  rfl

theorem cellCount_cons (c : Char) (text : List Char) :
    cellCount (c :: text) = cellWidth c + cellCount text := by
  rw [← List.singleton_append, cellCount_append]
  simp [cellCount]

end Text

namespace Console

open Text (cellCount cellCount_append)

variable {overflow : Overflow} {console : Console} {width : Nat} {line : List Char}

theorem cellCount_dropEndBlanks_le (word : List Char) : cellCount (dropEndBlanks word) ≤ cellCount word := by
  have split : word = dropEndBlanks word ++ (word.reverse.takeWhile Text.isBlank).reverse := by
    rw [dropEndBlanks, ← List.reverse_append, List.takeWhile_append_dropWhile, List.reverse_reverse]
  have counted := cellCount_append (dropEndBlanks word) (word.reverse.takeWhile Text.isBlank).reverse
  rw [← split] at counted
  omega

theorem takeWhile_append_drop (test : Char → Bool) (text : List Char) :
    text.takeWhile test ++ text.drop (text.takeWhile test).length = text :=
  List.prefix_iff_eq_append.mp (List.takeWhile_prefix test)

theorem exists_flatten_words (text : List Char) (fuel : Nat) :
    ∃ rest, text = (words text fuel).flatten ++ rest := by
  induction fuel generalizing text with
  | zero => exact ⟨text, rfl⟩
  | succ fuel ih =>
      rw [words]
      dsimp only
      split
      · exact ⟨text, rfl⟩
      · obtain ⟨rest, later⟩ := ih _
        refine ⟨rest, ?_⟩
        rw [List.flatten_cons, List.append_assoc, ← later, List.append_assoc, List.append_assoc,
          takeWhile_append_drop, takeWhile_append_drop, takeWhile_append_drop]

theorem breaks_eq_nil {words : List (List Char)} (start : Nat) {count : Nat}
    (fits : count + cellCount words.flatten ≤ width) : breaks overflow width start count words = [] := by
  induction words generalizing start count with
  | nil => rfl
  | cons word words ih =>
      rw [List.flatten_cons, cellCount_append] at fits
      have shorter := cellCount_dropEndBlanks_le word
      rw [breaks.eq_def]
      dsimp only
      rw [if_pos (by omega)]
      exact ih (start + word.length) (by omega)

theorem expandTabs_of_not_mem (untabbed : '\t' ∉ line) (count : Nat) : expandTabs count line = line := by
  induction line generalizing count with
  | nil => rfl
  | cons c rest ih =>
      rw [List.mem_cons, not_or] at untabbed
      rw [expandTabs, if_neg (Ne.symm untabbed.1), ih untabbed.2]

theorem wrap_of_narrow (single : '\n' ∉ line) (untabbed : '\t' ∉ line) (narrow : cellCount line ≤ width) :
    wrap overflow width true line = [dropExcessBlanks width line] := by
  obtain ⟨rest, split⟩ := exists_flatten_words line line.length
  have fits : 0 + cellCount (words line line.length).flatten ≤ width := by
    have counted := cellCount_append (words line line.length).flatten rest
    rw [← split] at counted
    omega
  simp only [wrap, Text.split_of_not_mem single, List.flatMap_cons, List.flatMap_nil, List.append_nil,
    expandTabs_of_not_mem untabbed, if_true, breaks_eq_nil 0 fits, cutAt, List.map_cons, List.map_nil]

theorem dropExcessBlanks_begins (width : Nat) (line : List Char) : dropExcessBlanks width line <+: line :=
  List.take_prefix _ _

theorem cellCount_le_of_begins {part : List Char} (begins : part <+: line) :
    cellCount part ≤ cellCount line := by
  obtain ⟨rest, rfl⟩ := begins
  rw [cellCount_append]
  exact Nat.le_add_right _ _

theorem print_of_narrow {text : String} (shown : printed console.emoji text = .ok line)
    (single : '\n' ∉ line) (untabbed : '\t' ∉ line) (narrow : cellCount line ≤ console.width) :
    console.print text = .ok (String.ofList (dropExcessBlanks console.width line ++ ['\n'])) := by
  have whole : truncate .fold console.width (dropExcessBlanks console.width line) =
      dropExcessBlanks console.width line := by
    have less := cellCount_le_of_begins (dropExcessBlanks_begins console.width line)
    rw [truncate, if_neg (by omega)]
  rw [print, bind_of_eq_ok shown, wrap_of_narrow single untabbed narrow]
  simp only [List.map_cons, List.map_nil, whole, List.flatMap_cons, List.flatMap_nil, List.append_nil]
  rfl

theorem print_of_fits {text : String} (shown : printed console.emoji text = .ok line) (single : '\n' ∉ line)
    (untabbed : '\t' ∉ line) (short : line.length ≤ console.width) (narrow : cellCount line ≤ console.width) :
    console.print text = .ok (String.ofList (line ++ ['\n'])) := by
  have none : line.length - console.width = 0 := by omega
  rw [print_of_narrow shown single untabbed narrow, dropExcessBlanks, none, Nat.min_zero, Nat.sub_zero,
    List.take_length]

/-! ### Simple texts -/

def isSimple (text : String) : Bool :=
  text.toList.all fun c => 0x20 ≤ c.toNat && c.toNat < 0x7F && c != '\\' && c != '[' && c != ':'

variable {text : String}

theorem isSimple_iff : isSimple text ↔
    ∀ c ∈ text.toList, 0x20 ≤ c.toNat ∧ c.toNat < 0x7F ∧ c ≠ '\\' ∧ c ≠ '[' ∧ c ≠ ':' := by
  simp [isSimple, and_assoc]

theorem pieces_of_isSimple (simple : isSimple text) : pieces text.toList = plainPiece text.toList.reverse := by
  have plain : text.toList.all (fun c => c != '\\' && c != '[') = true := by
    rw [List.all_eq_true]
    intro c member
    obtain ⟨_, _, noSlash, noBracket, _⟩ := isSimple_iff.mp simple c member
    simp [noSlash, noBracket]
  rw [pieces, ← List.append_nil text.toList, piecesFrom_lead plain, piecesFrom_nil, List.append_nil,
    List.append_nil]
  rfl

theorem escape_of_isSimple (simple : isSimple text) : escape text = text := by
  have noSlash : text.toList.getLast? ≠ some '\\' := by
    intro last
    exact (isSimple_iff.mp simple '\\' (List.mem_of_getLast? last)).2.2.1 rfl
  have chars : (pieces text.toList).flatMap Piece.escaped = text.toList := by
    rw [pieces_of_isSimple simple, flatMap_plainPiece, List.reverse_reverse]
  rw [escape, chars, if_neg (by simp [noSlash]), String.ofList_toList]

theorem unescapeBrackets_of_not_mem {text : List Char} (noSlash : '\\' ∉ text) :
    unescapeBrackets text = text := by
  induction text with
  | nil => rfl
  | cons c rest ih =>
      rw [List.mem_cons, not_or] at noSlash
      rw [unescapeBrackets, ih noSlash.2]
      rintro rest rfl
      exact absurd rfl noSlash.1

theorem printed_of_isSimple (emoji : Emoji) (simple : isSimple text) :
    printed emoji text = .ok text.toList := by
  have facts := isSimple_iff.mp simple
  have noSlash : '\\' ∉ text.toList := fun member => (facts '\\' member).2.2.1 rfl
  have noColon : ':' ∉ text.toList := fun member => (facts ':' member).2.2.2.2 rfl
  have rendered : renderPieces emoji.replace [] 0 (pieces text.toList) = .ok text.toList := by
    rw [pieces_of_isSimple simple, plainPiece, List.reverse_reverse]
    split
    · rename_i empty
      rw [List.isEmpty_reverse, List.isEmpty_iff] at empty
      rw [empty]
      rfl
    · rw [renderPieces, renderPieces, unescapeBrackets_of_not_mem noSlash,
        Emoji.replace_of_absent (Emoji.absent_of_not_mem noColon)]
      show Except.ok (text.toList ++ []) = _
      rw [List.append_nil]
  have visible : text.toList.filter (!isUnprinted ·) = text.toList := by
    rw [List.filter_eq_self]
    intro c member
    have above := (facts c member).1
    have other : ∀ control : Char, control.toNat < 0x20 → c ≠ control := by
      rintro control below rfl
      omega
    simp [isUnprinted, other '\x07' (by decide), other '\x08' (by decide), other '\x0b' (by decide),
      other '\x0c' (by decide), other '\r' (by decide)]
  rw [printed, bind_of_eq_ok rendered, visible]
  rfl

theorem cellCount_of_isSimple (simple : isSimple text) : cellCount text.toList = text.toList.length := by
  have facts := isSimple_iff.mp simple
  generalize text.toList = chars at facts
  induction chars with
  | nil => rfl
  | cons c rest ih =>
      obtain ⟨above, below, _, _⟩ := facts c List.mem_cons_self
      have one : Text.cellWidth c = 1 := by
        simp only [Text.cellWidth, if_neg (Nat.not_lt.mpr above), if_pos below]
      rw [Text.cellCount_cons, one, ih fun other member => facts other (List.mem_cons_of_mem c member),
        List.length_cons, Nat.add_comm]

theorem print_of_isSimple (simple : isSimple text) (fits : text.length ≤ console.width) :
    console.print text = .ok (text ++ "\n") := by
  have facts := isSimple_iff.mp simple
  have single : '\n' ∉ text.toList := fun member => absurd (facts '\n' member).1 (by decide)
  have untabbed : '\t' ∉ text.toList := fun member => absurd (facts '\t' member).1 (by decide)
  have short : text.toList.length ≤ console.width := by rwa [String.length_toList]
  rw [print_of_fits (printed_of_isSimple _ simple) single untabbed short
    (by rw [cellCount_of_isSimple simple]; exact short), String.ofList_append, String.ofList_toList]

end Console

end TreeExport
