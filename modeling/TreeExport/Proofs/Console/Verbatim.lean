import TreeExport.Text.Printable
import TreeExport.Proofs.Console.Fitting
import Mathlib.Data.List.Infix

/-!
Messages that come out as they are. Escaping makes every tag of a message plain and doubles a single backslash
at its end, but it leaves a backslash alone that stands in front of another bracket, or that ends the message
behind another one. Printing drops the former, and takes the latter for a part of the closing tag. A message
that fits on a line is printed as it is exactly if neither happens and no blank at its end is too much.
-/

namespace TreeExport

namespace Console

open Text (cellCount cellCount_append isPrintable)

def endSlashes (text : List Char) : Nat :=
  (text.reverse.takeWhile (· == '\\')).length

/-- Whether the backslashes of a text can be told from those that escape: one in front of a bracket stands in
front of a tag, and no two end the text. -/
structure KeepsSlashes (text : List Char) : Prop where
  brackets : ∀ rest ∈ text.tails, ['\\', '['] <+: rest → (tagAt? rest.tail).isSome
  ending : endSlashes text ≤ 1

/-- What backslashes at the end of a message become. A single one stands for itself, as it is doubled. Of more
only half are left, and an odd number makes the closing tag plain. -/
def Tone.ending (tone : Tone) (slashes : Nat) : List Char :=
  if slashes = 1 then ['\\']
  else List.replicate (slashes / 2) '\\' ++
    if slashes % 2 = 1 then Piece.bracketed ("/" ++ tone.style).toList else []

/-- How a text behind some backslashes is shown. -/
inductive Shows (tone : Tone) : Nat → List Char → List Char → Prop where
  | nil (slashes : Nat) : Shows tone slashes [] (tone.ending slashes)
  | slash {slashes : Nat} {rest shown : List Char} : Shows tone (slashes + 1) rest shown →
      Shows tone slashes ('\\' :: rest) shown
  | tag {slashes : Nat} {name behind shown : List Char} : IsTagName name → Shows tone 0 behind shown →
      Shows tone slashes ('[' :: (name ++ ']' :: behind))
        (List.replicate slashes '\\' ++ '[' :: (name ++ ']' :: shown))
  | bracket {slashes : Nat} {rest shown : List Char} : tagAt? ('[' :: rest) = none → Shows tone 0 rest shown →
      Shows tone slashes ('[' :: rest) (List.replicate (slashes - 1) '\\' ++ '[' :: shown)
  | char {slashes : Nat} {c : Char} {rest shown : List Char} : c ≠ '\\' → c ≠ '[' → Shows tone 0 rest shown →
      Shows tone slashes (c :: rest) (List.replicate slashes '\\' ++ c :: shown)

section Slashes

variable {before text rest name : List Char} {c : Char} {slashes : Nat}

theorem endSlashes_append_cons (noSlash : c ≠ '\\') : endSlashes (before ++ c :: rest) = endSlashes rest := by
  have stops : (c :: before.reverse).takeWhile (· == '\\') = [] := by
    rw [List.takeWhile_cons_of_neg]
    simpa using noSlash
  rw [endSlashes, endSlashes, List.reverse_append, List.reverse_cons, List.append_assoc,
    List.singleton_append, List.takeWhile_append]
  split
  · rename_i all
    rw [stops, List.append_nil, all]
  · rfl

theorem endSlashes_replicate (slashes : Nat) : endSlashes (List.replicate slashes '\\') = slashes := by
  rw [endSlashes, List.reverse_replicate, List.takeWhile_replicate]
  simp

theorem endSlashes_escapedFrom (slashes : Nat) (text : List Char) :
    endSlashes (escapedFrom slashes text) = endSlashes (List.replicate slashes '\\' ++ text) := by
  induction slashes, text using piece_induction with
  | nil slashes => rw [escapedFrom_nil, List.append_nil]
  | slash slashes rest ih => rw [escapedFrom_slash, ih, replicate_succ_append]
  | tag slashes name behind isTag ih =>
      rw [escapedFrom_tag isTag, endSlashes_append_cons (by decide), endSlashes_append_cons (by decide),
        endSlashes_append_cons (by decide), endSlashes_append_cons (by decide), ih]
      rfl
  | char slashes c rest noSlash noTag ih =>
      rw [escapedFrom_char noSlash noTag, endSlashes_append_cons noSlash, endSlashes_append_cons noSlash, ih]
      rfl

theorem endsSingly_iff (text : List Char) :
    (text.reverse.head? == some '\\' && text.reverse[1]? != some '\\') = true ↔ endSlashes text = 1 := by
  rw [endSlashes]
  match text.reverse with
  | [] => simp
  | [c] => by_cases isSlash : c = '\\' <;> simp [isSlash]
  | c :: next :: rest =>
      by_cases isSlash : c = '\\' <;> by_cases another : next = '\\' <;> simp [isSlash, another]

theorem toList_escape (text : String) :
    (escape text).toList = escapedFrom 0 text.toList ++
      List.replicate (if endSlashes text.toList = 1 then 1 else 0) '\\' := by
  have counted : endSlashes (escapedFrom 0 text.toList) = endSlashes text.toList :=
    endSlashes_escapedFrom 0 text.toList
  rw [escape, String.toList_ofList, ← counted]
  by_cases single : endSlashes (escapedFrom 0 text.toList) = 1
  · rw [if_pos single]
    exact if_pos ((endsSingly_iff _).mpr single)
  · rw [if_neg single, List.replicate_zero, List.append_nil]
    exact if_neg fun holds => single ((endsSingly_iff _).mp holds)

/-! ### Backslashes that are kept -/

theorem keepsBrackets_cons : (∀ tail ∈ (c :: rest).tails, ['\\', '['] <+: tail → (tagAt? tail.tail).isSome) ↔
    (['\\', '['] <+: c :: rest → (tagAt? rest).isSome) ∧
      ∀ tail ∈ rest.tails, ['\\', '['] <+: tail → (tagAt? tail.tail).isSome := by
  rw [List.tails_cons, List.forall_mem_cons]
  rfl

theorem keepsSlashes_cons (noSlash : c ≠ '\\') : KeepsSlashes (c :: rest) ↔ KeepsSlashes rest := by
  have counted : endSlashes (c :: rest) = endSlashes rest := @endSlashes_append_cons [] rest c noSlash
  have apart : ¬ ['\\', '['] <+: c :: rest := by
    simp [Ne.symm noSlash]
  constructor
  · rintro ⟨brackets, ending⟩
    exact ⟨(keepsBrackets_cons.mp brackets).2, counted ▸ ending⟩
  · rintro ⟨brackets, ending⟩
    exact ⟨keepsBrackets_cons.mpr ⟨fun before => absurd before apart, brackets⟩, counted ▸ ending⟩

theorem keepsSlashes_slash (counted : endSlashes ('\\' :: rest) = endSlashes rest) :
    KeepsSlashes ('\\' :: rest) ↔ (['['] <+: rest → (tagAt? rest).isSome) ∧ KeepsSlashes rest := by
  have before : ['\\', '['] <+: '\\' :: rest ↔ ['['] <+: rest := List.prefix_cons_inj '\\'
  constructor
  · rintro ⟨brackets, ending⟩
    obtain ⟨here, later⟩ := keepsBrackets_cons.mp brackets
    exact ⟨fun starts => here (before.mpr starts), later, counted ▸ ending⟩
  · rintro ⟨here, later, ending⟩
    exact ⟨keepsBrackets_cons.mpr ⟨fun starts => here (before.mp starts), later⟩, counted ▸ ending⟩

theorem keepsSlashes_append_cons (noSlash : c ≠ '\\') :
    KeepsSlashes (List.replicate slashes '\\' ++ c :: rest) ↔
      (slashes ≠ 0 → c = '[' → (tagAt? (c :: rest)).isSome) ∧ KeepsSlashes rest := by
  induction slashes with
  | zero =>
      rw [List.replicate_zero, List.nil_append, keepsSlashes_cons noSlash]
      simp
  | succ slashes ih =>
      have counted : endSlashes ('\\' :: (List.replicate slashes '\\' ++ c :: rest)) =
          endSlashes (List.replicate slashes '\\' ++ c :: rest) := by
        rw [← List.cons_append, endSlashes_append_cons noSlash, endSlashes_append_cons noSlash]
      rw [List.replicate_succ, List.cons_append, keepsSlashes_slash counted, ih]
      cases slashes with
      | zero =>
          have here : ['['] <+: c :: rest ↔ c = '[' := by
            rw [List.cons_prefix_cons, and_iff_left (List.nil_prefix), @eq_comm Char '[' c]
          rw [List.replicate_zero, List.nil_append, here]
          simp
      | succ slashes =>
          have apart : ¬ ['['] <+: List.replicate (slashes + 1) '\\' ++ c :: rest := by
            rw [List.replicate_succ, List.cons_append, List.prefix_cons_iff]
            simp
          rw [and_iff_right fun starts => absurd starts apart]
          simp only [ne_eq, Nat.add_one_ne_zero, not_false_eq_true]

theorem keepsSlashes_clean {more : List Char} (clean : ∀ c ∈ more, c ≠ '[') :
    KeepsSlashes (more ++ ']' :: rest) ↔ KeepsSlashes rest := by
  induction more with
  | nil => exact keepsSlashes_cons (by decide)
  | cons c more ih =>
      rw [List.forall_mem_cons] at clean
      rw [← ih clean.2]
      by_cases isSlash : c = '\\'
      · subst isSlash
        have counted : endSlashes ('\\' :: (more ++ ']' :: rest)) = endSlashes (more ++ ']' :: rest) := by
          rw [← List.cons_append, endSlashes_append_cons (by decide), endSlashes_append_cons (by decide)]
        have apart : ¬ ['['] <+: more ++ ']' :: rest := by
          cases more with
          | nil => simp
          | cons next more => simpa [eq_comm] using clean.2 next List.mem_cons_self
        rw [List.cons_append, keepsSlashes_slash counted, and_iff_right]
        exact fun starts => absurd starts apart
      · exact keepsSlashes_cons isSlash

theorem keepsSlashes_tag (isTag : IsTagName name) :
    KeepsSlashes (List.replicate slashes '\\' ++ '[' :: (name ++ ']' :: rest)) ↔ KeepsSlashes rest := by
  have found : (tagAt? ('[' :: (name ++ ']' :: rest))).isSome := by
    rw [tagAt?_of_isTagName isTag]
    rfl
  have clean : ∀ c ∈ name, c ≠ '[' := by
    obtain ⟨first, more, rfl, starts, clean⟩ := isTag
    rw [List.forall_mem_cons]
    refine ⟨?_, fun c member => (clean c member).2⟩
    rintro rfl
    exact absurd starts (by decide)
  rw [keepsSlashes_append_cons (by decide), keepsSlashes_clean clean]
  exact and_iff_right fun _ _ => found

theorem keepsSlashes_replicate : KeepsSlashes (List.replicate slashes '\\') ↔ slashes ≤ 1 := by
  constructor
  · rintro ⟨_, ending⟩
    rwa [endSlashes_replicate] at ending
  · intro few
    refine ⟨?_, by rwa [endSlashes_replicate]⟩
    intro tail ends starts
    have bracket : '[' ∈ tail := starts.subset (by decide)
    have member := ((List.mem_tails _ _).mp ends).subset bracket
    exact absurd (List.eq_of_mem_replicate member) (by decide)

end Slashes

/-! ### Shown texts -/

section Shown

variable {tone : Tone} {slashes : Nat} {text shown before rest : List Char}

theorem exists_shows (tone : Tone) (slashes : Nat) (text : List Char) :
    ∃ shown, Shows tone slashes text shown := by
  induction slashes, text using piece_induction with
  | nil slashes => exact ⟨_, .nil slashes⟩
  | slash slashes rest ih =>
      obtain ⟨shown, shows⟩ := ih
      exact ⟨shown, .slash shows⟩
  | tag slashes name behind isTag ih =>
      obtain ⟨shown, shows⟩ := ih
      exact ⟨_, .tag isTag shows⟩
  | char slashes c rest noSlash noTag ih =>
      obtain ⟨shown, shows⟩ := ih
      by_cases opening : c = '['
      · subst opening
        exact ⟨_, .bracket noTag shows⟩
      · exact ⟨_, .char noSlash opening shows⟩

theorem mem_ending {c : Char} (member : c ∈ tone.ending slashes) :
    c = '\\' ∨ c ∈ Piece.bracketed ("/" ++ tone.style).toList := by
  rw [Tone.ending] at member
  split at member
  · exact .inl (List.mem_singleton.mp member)
  · rcases List.mem_append.mp member with slash | closing
    · exact .inl (List.eq_of_mem_replicate slash)
    · split at closing
      · exact .inr closing
      · exact absurd closing List.not_mem_nil

theorem isPrintable_closing (tone : Tone) :
    ∀ c ∈ Piece.bracketed ("/" ++ tone.style).toList, isPrintable c := by
  cases tone <;> exact List.all_eq_true.mp rfl

theorem Shows.printable (shows : Shows tone slashes text shown) (printable : ∀ c ∈ text, isPrintable c) :
    ∀ c ∈ shown, isPrintable c := by
  have slash : ∀ count, ∀ c ∈ List.replicate count '\\', isPrintable c := by
    intro count c member
    rw [List.eq_of_mem_replicate member]
    rfl
  induction shows with
  | nil slashes =>
      intro c member
      rcases mem_ending member with rfl | closing
      · rfl
      · exact isPrintable_closing tone c closing
  | slash _ ih => exact ih (List.forall_mem_cons.mp printable).2
  | tag isTag _ ih =>
      simp only [List.forall_mem_cons, List.forall_mem_append] at printable ⊢
      exact ⟨slash _, printable.1, printable.2.1, printable.2.2.1, ih printable.2.2.2⟩
  | bracket noTag _ ih =>
      rw [List.forall_mem_cons] at printable
      rw [List.forall_mem_append, List.forall_mem_cons]
      exact ⟨slash _, printable.1, ih printable.2⟩
  | char noSlash noBracket _ ih =>
      rw [List.forall_mem_cons] at printable
      rw [List.forall_mem_append, List.forall_mem_cons]
      exact ⟨slash _, printable.1, ih printable.2⟩

theorem getLast?_of_append_cons {c : Char} (ends : (before ++ c :: rest).getLast? ≠ some '\\') :
    rest.getLast? ≠ some '\\' := by
  intro last
  rw [List.getLast?_append_cons, List.getLast?_cons, last] at ends
  exact ends rfl

theorem Shows.cellCount_le (shows : Shows tone slashes text shown)
    (ends : (List.replicate slashes '\\' ++ text).getLast? ≠ some '\\') :
    cellCount shown ≤ cellCount (List.replicate slashes '\\' ++ text) := by
  -- Only the closing tag could make a text longer, and it is shown behind a backslash at the end alone.
  induction shows with
  | nil slashes =>
      cases slashes with
      | zero => exact Nat.le_refl _
      | succ slashes =>
          rw [List.append_nil, List.replicate_succ', List.getLast?_concat] at ends
          exact absurd rfl ends
  | slash _ ih =>
      rw [← replicate_succ_append] at ends ⊢
      exact ih ends
  | tag isTag _ ih =>
      have narrow := ih (getLast?_of_append_cons (getLast?_of_append_cons ends))
      simp only [cellCount_append, Text.cellCount_cons, List.replicate_zero, List.nil_append] at narrow ⊢
      omega
  | @bracket slashes rest shown noTag _ ih =>
      have narrow := ih (getLast?_of_append_cons ends)
      have fewer :
          cellCount (List.replicate (slashes - 1) '\\') ≤ cellCount (List.replicate slashes '\\') := by
        cases slashes with
        | zero => exact Nat.le_refl _
        | succ slashes =>
            rw [List.replicate_succ, Text.cellCount_cons]
            exact Nat.le_add_left _ _
      simp only [cellCount_append, Text.cellCount_cons, List.replicate_zero, List.nil_append] at narrow ⊢
      omega
  | char noSlash noBracket _ ih =>
      have narrow := ih (getLast?_of_append_cons ends)
      simp only [cellCount_append, Text.cellCount_cons, List.replicate_zero, List.nil_append] at narrow ⊢
      omega

theorem Shows.eq_of_keepsSlashes (shows : Shows tone slashes text shown)
    (keeps : KeepsSlashes (List.replicate slashes '\\' ++ text)) :
    shown = List.replicate slashes '\\' ++ text := by
  induction shows with
  | nil slashes =>
      rw [List.append_nil] at keeps ⊢
      obtain rfl | rfl : slashes = 0 ∨ slashes = 1 := by
        have few := keepsSlashes_replicate.mp keeps
        omega
      · rfl
      · rfl
  | slash _ ih =>
      rw [← replicate_succ_append] at keeps ⊢
      exact ih keeps
  | tag isTag _ ih => rw [ih ((keepsSlashes_tag isTag).mp keeps)]; rfl
  | @bracket slashes rest shown noTag _ ih =>
      obtain ⟨opens, later⟩ := (keepsSlashes_append_cons (by decide)).mp keeps
      obtain rfl : slashes = 0 := by
        by_contra some
        exact absurd (opens some rfl) (by rw [noTag]; decide)
      rw [ih later]
      rfl
  | char noSlash noBracket _ ih =>
      rw [ih ((keepsSlashes_append_cons noSlash).mp keeps).2]
      rfl

theorem Shows.keepsSlashes (shows : Shows tone slashes text shown)
    (begins : List.replicate slashes '\\' ++ text <+: shown) :
    KeepsSlashes (List.replicate slashes '\\' ++ text) := by
  induction shows with
  | nil slashes =>
      rw [List.append_nil] at begins ⊢
      rw [keepsSlashes_replicate]
      by_contra many
      -- Half of the backslashes are gone, and what follows the others is no backslash.
      have halved : List.replicate slashes '\\' =
          List.replicate (slashes / 2) '\\' ++ '\\' :: List.replicate (slashes - slashes / 2 - 1) '\\' := by
        rw [← List.replicate_succ, List.replicate_append_replicate]
        congr 1
        omega
      rw [Tone.ending, if_neg (by omega), halved, List.prefix_append_right_inj] at begins
      split at begins
      · exact absurd (List.cons_prefix_cons.mp begins).1 (by decide)
      · exact absurd (List.prefix_nil.mp begins) (List.cons_ne_nil _ _)
  | slash _ ih =>
      rw [← replicate_succ_append] at begins ⊢
      exact ih begins
  | tag isTag _ ih =>
      rw [keepsSlashes_tag isTag]
      rw [List.prefix_append_right_inj, List.prefix_cons_inj, List.prefix_append_right_inj,
        List.prefix_cons_inj] at begins
      exact ih begins
  | @bracket slashes rest shown noTag _ ih =>
      cases slashes with
      | zero =>
          rw [keepsSlashes_append_cons (by decide)]
          exact ⟨fun some => absurd rfl some, ih ((List.prefix_cons_inj '[').mp begins)⟩
      | succ slashes =>
          rw [replicate_succ_append, Nat.add_sub_cancel, List.prefix_append_right_inj] at begins
          exact absurd (List.cons_prefix_cons.mp begins).1 (by decide)
  | char noSlash noBracket _ ih =>
      rw [List.prefix_append_right_inj, List.prefix_cons_inj] at begins
      rw [keepsSlashes_append_cons noSlash]
      exact ⟨fun _ opening => absurd opening noBracket, ih begins⟩

end Shown

/-! ### Rendering -/

section Rendering

variable {tone : Tone} {slashes : Nat} {text shown before rest : List Char}

theorem unescapeBrackets_append (apart : text.getLast? ≠ some '\\' ∨ rest.head? ≠ some '[') :
    unescapeBrackets (text ++ rest) = unescapeBrackets text ++ unescapeBrackets rest := by
  induction text using unescapeBrackets.induct with
  | case1 => rfl
  | case2 text ih =>
      have later : text.getLast? ≠ some '\\' ∨ rest.head? ≠ some '[' :=
        apart.imp_left fun ends last => ends (by rw [List.getLast?_cons, List.getLast?_cons, last]; rfl)
      rw [List.cons_append, List.cons_append, unescapeBrackets, unescapeBrackets, ih later]
      rfl
  | case3 c text plain ih =>
      have later : text.getLast? ≠ some '\\' ∨ rest.head? ≠ some '[' :=
        apart.imp_left fun ends last => ends (by rw [List.getLast?_cons, last]; rfl)
      have plain' : ∀ more, c = '\\' → text ++ rest = '[' :: more → False := by
        intro more slash starts
        cases text with
        | nil =>
            rcases apart with ends | other
            · exact ends (by rw [slash]; rfl)
            · exact other (by rw [← List.nil_append rest, starts]; rfl)
        | cons next text => exact plain text slash (by rw [(List.cons.inj starts).1])
      rw [List.cons_append, unescapeBrackets, unescapeBrackets, ih later]
      · rfl
      · exact plain
      · exact plain'

theorem unescapeBrackets_replicate (slashes : Nat) :
    unescapeBrackets (List.replicate slashes '\\') = List.replicate slashes '\\' := by
  induction slashes with
  | zero => rfl
  | succ slashes ih =>
      rw [List.replicate_succ', unescapeBrackets_append (.inr (by decide)), ih]
      rfl

theorem unescapeBrackets_replicate_append {c : Char} (noBracket : c ≠ '[') (slashes : Nat) :
    unescapeBrackets (List.replicate slashes '\\' ++ [c]) = List.replicate slashes '\\' ++ [c] := by
  rw [unescapeBrackets_append (.inr (by simpa using noBracket)), unescapeBrackets_replicate]
  congr 1
  rw [unescapeBrackets]
  · rfl
  · intro more _ starts
    cases starts

theorem unescapeBrackets_bracket (slashes : Nat) :
    unescapeBrackets (List.replicate slashes '\\' ++ ['[']) = List.replicate (slashes - 1) '\\' ++ ['['] := by
  cases slashes with
  | zero => rfl
  | succ slashes =>
      rw [replicate_succ_append, unescapeBrackets_append (.inr (by decide)), unescapeBrackets_replicate]
      rfl

theorem unescapeBrackets_reverse (ends : before.head? ≠ some '\\') (text : List Char) :
    unescapeBrackets (text.reverse ++ before).reverse =
      unescapeBrackets before.reverse ++ unescapeBrackets text := by
  have last : before.reverse.getLast? ≠ some '\\' := by
    rwa [List.getLast?_reverse]
  rw [List.reverse_append, List.reverse_reverse, unescapeBrackets_append (.inl last)]

theorem render_escapedFrom_char {opened : List (List String)} {behind : List Char} {c : Char}
    (noSlash : c ≠ '\\') (noTag : tagAt? (c :: rest) = none) (inert : Inert behind)
    (ends : before.head? ≠ some '\\') (position : Nat)
    (later : ∀ {before : List Char}, before.head? ≠ some '\\' → ∀ position,
      renderPieces id opened position (piecesFrom before 0 (escapedFrom 0 rest ++ behind)) =
        .ok (unescapeBrackets before.reverse ++ shown)) :
    renderPieces id opened position (piecesFrom before 0 (escapedFrom slashes (c :: rest) ++ behind)) =
      .ok (unescapeBrackets before.reverse ++
        (unescapeBrackets (List.replicate slashes '\\' ++ [c]) ++ shown)) := by
  have read : c :: List.replicate (0 + slashes) '\\' ++ before =
      (List.replicate slashes '\\' ++ [c]).reverse ++ before := by
    simp
  rw [escapedFrom_char noSlash noTag, List.append_assoc, piecesFrom_slashes, List.cons_append,
    piecesFrom_char noSlash (tagAt?_append_escapedFrom inert noTag), later (by simpa using noSlash) position,
    read, unescapeBrackets_reverse ends, List.append_assoc]

/-- Printing an escaped text between the tags of a message shows it. -/
theorem Shows.rendered (shows : Shows tone slashes text shown) (ends : before.head? ≠ some '\\')
    (position : Nat) :
    renderPieces id [styleName tone.style.toList] position
      (piecesFrom before 0 (escapedFrom slashes text ++
        (List.replicate (if endSlashes (List.replicate slashes '\\' ++ text) = 1 then 1 else 0) '\\' ++
          '[' :: (("/" ++ tone.style).toList ++ [']'])))) =
      .ok (unescapeBrackets before.reverse ++ shown) := by
  -- What is read already ends with no backslash at each step, so it is printed on its own.
  induction shows generalizing before position with
  | nil slashes =>
      rw [List.append_nil, endSlashes_replicate, escapedFrom_nil, piecesFrom_slashes, piecesFrom_slashes,
        render_closing rfl, Tone.ending]
      by_cases single : slashes = 1
      · rw [if_pos single, if_pos single, single]
        rfl
      · rw [if_neg single, if_neg single, Nat.zero_add, Nat.add_zero]
        rfl
  | slash _ ih =>
      rw [escapedFrom_slash, ← replicate_succ_append]
      exact ih ends position
  | @tag slashes name behind shown isTag _ ih =>
      have odd : (0 + (2 * slashes + 1)) % 2 = 1 := by omega
      have half : (0 + (2 * slashes + 1)) / 2 = slashes := by omega
      simp only [List.replicate_zero, List.nil_append] at ih
      rw [endSlashes_append_cons (by decide), endSlashes_append_cons (by decide), escapedFrom_tag isTag,
        List.append_assoc, piecesFrom_slashes, List.cons_append, List.append_assoc, List.cons_append,
        piecesFrom_tag isTag]
      apply render_plainPiece rfl
      rw [render_shownTag odd (ih (by simp) _), half, Piece.bracketed]
      simp [unescapeBrackets]
  | @bracket slashes rest shown noTag _ ih =>
      simp only [List.replicate_zero, List.nil_append] at ih
      rw [endSlashes_append_cons (by decide), render_escapedFrom_char (by decide) noTag
        (inert_slashes (inert_closing tone) _) ends position ih, unescapeBrackets_bracket, List.append_assoc]
      rfl
  | @char slashes c rest shown noSlash noBracket _ ih =>
      simp only [List.replicate_zero, List.nil_append] at ih
      rw [endSlashes_append_cons noSlash, render_escapedFrom_char noSlash (tagAt?_of_ne noBracket)
        (inert_slashes (inert_closing tone) _) ends position ih,
        unescapeBrackets_replicate_append noBracket, List.append_assoc]
      rfl

theorem isUnprinted_of_isPrintable {c : Char} (printable : isPrintable c) : isUnprinted c = false := by
  by_contra control
  simp only [isUnprinted, Bool.not_eq_false, Bool.or_eq_true, decide_eq_true_eq] at control
  rcases control with (((rfl | rfl) | rfl) | rfl) | rfl <;> exact absurd printable (by decide)

theorem printed_wrap {emoji : Emoji} {message : String} (shows : Shows tone 0 message.toList shown)
    (printable : ∀ c ∈ message.toList, isPrintable c) (absent : emoji.Absent message.toList) :
    printed emoji (tone.wrap message) = .ok shown := by
  have shape : (tone.wrap message).toList =
      '[' :: (tone.style.toList ++ ']' :: (escapedFrom 0 message.toList ++
        (List.replicate (if endSlashes message.toList = 1 then 1 else 0) '\\' ++
          '[' :: (("/" ++ tone.style).toList ++ [']'])))) := by
    simp [Tone.wrap, toList_escape]
  have rendered : renderPieces emoji.replace [] 0 (pieces (tone.wrap message).toList) = .ok shown := by
    rw [render_wrap_of_absent tone absent, shape, pieces, piecesFrom_tag (isTagName_style tone)]
    apply render_plainPiece rfl
    exact render_appliedTag (by decide) (applyTag_style tone _)
      (@Shows.rendered tone 0 message.toList shown [] shows (by simp) _)
  have visible : shown.filter (!isUnprinted ·) = shown := by
    rw [List.filter_eq_self]
    intro c member
    rw [isUnprinted_of_isPrintable (shows.printable printable c member)]
    rfl
  rw [printed, bind_of_eq_ok rendered, visible]
  rfl

end Rendering

/-! ### Lines -/

section Lines

variable {console : Console} {width : Nat} {line text : List Char}

theorem dropExcessBlanks_eq_iff : dropExcessBlanks width line = line ↔
    line.length ≤ width ∨ ∀ c ∈ line.getLast?, Text.isBlank c = false := by
  have blanks : (line.reverse.takeWhile Text.isBlank).length = 0 ↔
      ∀ c ∈ line.getLast?, Text.isBlank c = false := by
    rw [← List.head?_reverse]
    cases line.reverse with
    | nil => simp
    | cons c rest => by_cases blank : Text.isBlank c <;> simp [blank]
  have shorter : (line.reverse.takeWhile Text.isBlank).length ≤ line.reverse.length :=
    (List.takeWhile_prefix _).length_le
  rw [List.length_reverse] at shorter
  rw [dropExcessBlanks, List.take_eq_self_iff, ← blanks]
  omega

theorem exists_takeCells (width : Nat) (line : List Char) :
    ∃ kept count, kept <+: line ∧ takeCells width line = kept ++ List.replicate count ' ' := by
  induction line generalizing width with
  | nil => exact ⟨[], 0, List.nil_prefix, rfl⟩
  | cons c rest ih =>
      rw [takeCells]
      split
      · split
        · exact ⟨[], 0, List.nil_prefix, rfl⟩
        · obtain ⟨kept, count, begins, cut⟩ := ih (width - Text.cellWidth c)
          exact ⟨c :: kept, count, (List.prefix_cons_inj c).mpr begins, by rw [cut]; rfl⟩
      · exact ⟨[], width, List.nil_prefix, rfl⟩

theorem truncate_begins (solid : cellCount line ≤ width ∨ (truncate .fold width line).getLast? ≠ some ' ') :
    truncate .fold width line <+: line := by
  rw [truncate] at solid ⊢
  split at solid
  · rename_i wide
    rw [if_pos wide]
    simp only [fitCells, if_pos wide] at solid ⊢
    obtain ⟨kept, count, begins, cut⟩ := exists_takeCells width line
    rw [cut] at solid ⊢
    cases count with
    | zero => rwa [List.replicate_zero, List.append_nil]
    | succ count =>
        rw [List.replicate_succ', ← List.append_assoc, List.getLast?_concat] at solid
        exact absurd rfl (solid.resolve_left (Nat.not_le.mpr wide))
  · rename_i narrow
    rw [if_neg narrow]

theorem exists_cutAt (from_ : Nat) (text : List Char) (places : List Nat) :
    ∃ first rest, cutAt from_ text places = first :: rest ∧ first <+: text := by
  cases places with
  | nil => exact ⟨text, [], rfl, List.prefix_refl text⟩
  | cons place places => exact ⟨_, _, rfl, List.take_prefix _ _⟩

theorem eq_singleton_of_lines {lines : List (List Char)} (single : '\n' ∉ line)
    (output : lines.flatMap (· ++ ['\n']) = line ++ ['\n']) : lines = [line] := by
  match lines with
  | [] => exact absurd (congrArg List.length output) (by simp)
  | [only] =>
      rw [List.flatMap_singleton] at output
      rw [List.append_cancel_right output]
  | first :: second :: rest =>
      have counted := congrArg (List.count '\n') output
      simp only [List.flatMap_cons, List.count_append, List.count_eq_zero.mpr single] at counted
      simp only [List.count_cons_self, List.count_nil] at counted
      omega

/-- What is printed as a single line begins what there is to print. -/
theorem begins_of_print {source message : String} (shown : printed console.emoji source = .ok line)
    (single : '\n' ∉ line) (untabbed : '\t' ∉ line) (clean : '\n' ∉ message.toList)
    (solid : cellCount line ≤ console.width ∨ message.toList.getLast? ≠ some ' ')
    (prints : console.print source = .ok (message ++ "\n")) : message.toList <+: line := by
  rw [print, bind_of_eq_ok shown] at prints
  have output : ((wrap .fold console.width true line).map (truncate .fold console.width)).flatMap (· ++ ['\n']) =
      message.toList ++ ['\n'] := by
    have same := congrArg String.toList (Except.ok.inj prints)
    rwa [String.toList_ofList, String.toList_append] at same
  obtain ⟨first, rest, cut, begins⟩ :=
    exists_cutAt 0 line (breaks .fold console.width 0 0 (words line line.length))
  have lines := eq_singleton_of_lines clean output
  simp only [wrap, Text.split_of_not_mem single, List.flatMap_cons, List.flatMap_nil, List.append_nil,
    expandTabs_of_not_mem untabbed, if_true, cut, List.map_cons] at lines
  have here : truncate .fold console.width (dropExcessBlanks console.width first) = message.toList := (List.cons.inj lines).1
  have start := (dropExcessBlanks_begins console.width first).trans begins
  rw [← here] at solid ⊢
  exact (truncate_begins (solid.imp_left (cellCount_le_of_begins start).trans)).trans start

end Lines

theorem not_mem_of_hidden {text : List Char} {c : Char} (printable : ∀ c ∈ text, isPrintable c)
    (hidden : isPrintable c = false) : c ∉ text := by
  intro member
  rw [printable c member] at hidden
  exact absurd hidden (by decide)

/-- A message of printable characters without emoji codes that fits on a line is printed on that line, verbatim, exactly if its
backslashes are kept and it has no blank at its end that is too much. -/
theorem printMessage_verbatim_iff {console : Console} {message : String} (tone : Tone)
    (printable : ∀ c ∈ message.toList, isPrintable c) (absent : console.emoji.Absent message.toList)
    (fits : cellCount message.toList ≤ console.width) :
    console.printMessage tone message = .ok (message ++ "\n") ↔
      KeepsSlashes message.toList ∧
        (message.length ≤ console.width ∨ ∀ c ∈ message.toList.getLast?, Text.isBlank c = false) := by
  obtain ⟨shown, shows⟩ := exists_shows tone 0 message.toList
  have printed := printed_wrap shows printable absent
  have single : '\n' ∉ shown := not_mem_of_hidden (shows.printable printable) rfl
  have untabbed : '\t' ∉ shown := not_mem_of_hidden (shows.printable printable) rfl
  have clean : '\n' ∉ message.toList := not_mem_of_hidden printable rfl
  -- If the backslashes are kept, what is shown is the message, and only blanks at its end can be lost.
  have kept (keeps : KeepsSlashes message.toList) : console.printMessage tone message = .ok (message ++ "\n") ↔
      message.length ≤ console.width ∨ ∀ c ∈ message.toList.getLast?, Text.isBlank c = false := by
    have same : shown = message.toList := shows.eq_of_keepsSlashes keeps
    rw [same] at printed single untabbed
    rw [printMessage, print_of_narrow printed single untabbed fits, ← String.length_toList,
      ← dropExcessBlanks_eq_iff, Except.ok.injEq, ← String.toList_inj, String.toList_ofList,
      String.toList_append]
    exact List.append_left_inj _
  constructor
  · intro prints
    have solid : cellCount shown ≤ console.width ∨ message.toList.getLast? ≠ some ' ' := by
      by_cases slash : message.toList.getLast? = some '\\'
      · right
        rw [slash]
        decide
      · exact .inl ((shows.cellCount_le slash).trans fits)
    have begins := begins_of_print printed single untabbed clean solid prints
    have keeps : KeepsSlashes message.toList := shows.keepsSlashes begins
    exact ⟨keeps, (kept keeps).mp prints⟩
  · rintro ⟨keeps, blanks⟩
    exact (kept keeps).mpr blanks

theorem printMessage_verbatim_iff_bracketed :
    printMessage ⟨40, .smiling⟩ .warning "[cycle] a -> [/x], \\[b], [1] \\" =
      .ok "[cycle] a -> [/x], \\[b], [1] \\\n" :=
  (printMessage_verbatim_iff .warning (List.all_eq_true.mp rfl)
    (Emoji.absent_of_not_mem (by decide)) (by decide)).mpr
    ⟨⟨by decide, by decide⟩, .inl (by decide)⟩

/-- Half of the backslashes at the end of a message are lost, and an odd number of them prints the closing
tag. A backslash in front of a bracket that begins no tag is lost as well. -/
theorem printMessage_garbles :
    (∀ c ∈ "C:\\\\\\".toList, isPrintable c) ∧ cellCount "C:\\\\\\".toList ≤ 40 ∧
      printMessage ⟨40, .none⟩ .error "C:\\\\\\" = .ok "C:\\[/bold red]\n" ∧
      printMessage ⟨40, .none⟩ .success "C:\\\\" = .ok "C:\\\n" ∧
      printMessage ⟨40, .none⟩ .warning "a\\[1]" = .ok "a[1]\n" := by
  have odd : Shows .error 0 "C:\\\\\\".toList ("C:".toList ++ Tone.error.ending 3) :=
    .char (by decide) (by decide) (.char (by decide) (by decide) (.slash (.slash (.slash (.nil 3)))))
  have even : Shows .success 0 "C:\\\\".toList ("C:".toList ++ Tone.success.ending 2) :=
    .char (by decide) (by decide) (.char (by decide) (by decide) (.slash (.slash (.nil 2))))
  have bracket : Shows .warning 0 "a\\[1]".toList "a[1]".toList :=
    .char (by decide) (by decide) (.slash (.bracket rfl (.char (by decide) (by decide)
      (.char (by decide) (by decide) (.nil 0)))))
  have printable (message : String) (all : message.toList.all isPrintable = true) :
      ∀ c ∈ message.toList, isPrintable c := List.all_eq_true.mp all
  refine ⟨printable _ rfl, by decide, ?_, ?_, ?_⟩
  · exact print_of_narrow (printed_wrap odd (printable _ rfl) (Emoji.absent_none _)) (by decide) (by decide) (by decide)
  · exact print_of_narrow (printed_wrap even (printable _ rfl) (Emoji.absent_none _)) (by decide) (by decide) (by decide)
  · exact print_of_narrow (printed_wrap bracket (printable _ rfl) (Emoji.absent_none _)) (by decide) (by decide) (by decide)

end Console

end TreeExport
