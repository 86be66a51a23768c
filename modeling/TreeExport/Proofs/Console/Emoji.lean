import TreeExport.Proofs.Console.Escape
import TreeExport.Proofs.Text.Case
import Mathlib.Data.List.Infix

/-!
Texts without emoji codes. Such a text is shown as it is. Escaping a text and dropping its backslashes again bring
no codes into it, because the brackets that they are about stand in no code.
-/

namespace TreeExport

/-- A text without some character stands before it or behind it. -/
theorem infix_append_cons_iff {α : Type} {part before after : List α} {c : α} (absent : c ∉ part) :
    part <:+: before ++ c :: after ↔ part <:+: before ∨ part <:+: after := by
  have ends {front : List α} (starts : part <+: front ++ c :: after) : part <+: front := by
    rcases List.prefix_or_prefix_of_prefix starts (List.prefix_append front (c :: after)) with short | long
    · exact short
    · obtain ⟨rest, rfl⟩ := long
      cases rest with
      | nil => rw [List.append_nil]
      | cons d rest =>
          obtain ⟨rfl, _⟩ := List.cons_prefix_cons.mp ((List.prefix_append_right_inj front).mp starts)
          exact absurd (List.mem_append_right front List.mem_cons_self) absent
  constructor
  · induction before with
    | nil =>
        rw [List.nil_append, List.infix_cons_iff]
        exact Or.imp_left fun starts => (@ends [] starts).isInfix
    | cons d before ih =>
        rw [List.cons_append, List.infix_cons_iff, List.infix_cons_iff]
        rintro (starts | later)
        · exact .inl (.inl (@ends (d :: before) starts))
        · exact (ih later).imp_left .inr
  · rintro (inside | inside)
    · exact inside.trans (List.prefix_append _ _).isInfix
    · exact inside.trans ((List.suffix_cons c after).trans (List.suffix_append _ _)).isInfix

namespace Emoji

variable {emoji : Emoji} {code text before : List Char} {opened : Option (List Char)}

theorem replaceFrom_of_absent (absent : emoji.Absent (openText opened ++ text)) :
    emoji.replaceFrom opened text = openText opened ++ text := by
  induction text generalizing opened with
  | nil => rw [replaceFrom, List.append_nil]
  | cons c rest ih =>
      have closed : emoji.replaceFrom .none rest = rest := by
        refine ih fun code known inside => absent code known (inside.trans ?_)
        exact ((List.suffix_cons c rest).trans (List.suffix_append _ _)).isInfix
      cases opened with
      | none =>
          rw [replaceFrom]
          split
          · rename_i colon
            rw [ih (by rwa [colon] at absent), colon]
            rfl
          · rw [closed]
            rfl
      | some code =>
          rw [replaceFrom]
          split
          · rename_i colon
            have unknown : emoji.picture? code.reverse = .none := by
              by_contra known
              refine absent code.reverse (Option.isSome_iff_ne_none.mpr known) ⟨[], rest, ?_⟩
              rw [colon]
              simp [framed, openText]
            rw [unknown, closed, colon]
            simp [framed, openText]
          · split
            · rw [closed]
            · have moved : openText (some (c :: code)) ++ rest = openText (some code) ++ c :: rest := by
                simp [openText]
              rw [ih (by rwa [moved]), moved]

theorem replace_of_absent (absent : emoji.Absent text) : emoji.replace text = text :=
  replaceFrom_of_absent absent

def smiling : Emoji where
  named name := if name = "smile" then some "😄" else .none
  plain name known := by
    split at known
    · rename_i same
      rw [same]
      decide
    · exact absurd known (by decide)

example : smiling.replace ":Smile: a:b: :smile-text: :none:smile:".toList =
    "😄 a:b: 😄\ufe0e :none:smile:".toList := by decide +kernel

theorem Absent.mono {part : List Char} (absent : emoji.Absent text) (inside : part <:+: text) :
    emoji.Absent part :=
  fun code known found => absent code known (found.trans inside)

theorem absent_of_not_mem (noColon : ':' ∉ text) : emoji.Absent text :=
  fun _ _ inside => noColon (inside.subset List.mem_cons_self)

theorem absent_none (text : List Char) : none.Absent text :=
  fun _ known => absurd known (by simp [picture?, none])

/-! ### Codes beside brackets and backslashes -/

theorem exists_of_readCode (code : List Char) :
    ∃ ending, code = (readCode code).1 ++ ending ∧ '[' ∉ ending := by
  rw [readCode]
  split
  · rename_i ending selector found
    have listed := List.mem_of_find?_eq_some found
    have ends := List.find?_some found
    obtain ⟨name, rfl⟩ := List.isSuffixOf_iff_suffix.mp ends
    refine ⟨ending, ?_, ?_⟩
    · simp
    · have plain : ∀ form ∈ forms, '[' ∉ form.1 := by decide
      exact plain _ listed
  · exact ⟨[], (List.append_nil code).symm, List.not_mem_nil⟩

theorem bracket_not_mem_of_picture? (known : (emoji.picture? code).isSome) : '[' ∉ code := by
  obtain ⟨ending, split, plain⟩ := exists_of_readCode code
  rw [picture?, Option.isSome_map] at known
  have absent := emoji.plain _ known
  rw [split, List.mem_append, not_or]
  refine ⟨fun member => absent ?_, plain⟩
  rw [Text.lower, String.toList_ofList, String.toList_ofList]
  exact Text.mem_lowerFrom (by decide) (by decide) member

theorem framed_infix_of_append {lead : List Char} (noColon : ':' ∉ lead)
    (inside : framed code <:+: lead ++ text) : framed code <:+: text := by
  induction lead with
  | nil => exact inside
  | cons c lead ih =>
      rw [List.mem_cons, not_or] at noColon
      rcases List.infix_cons_iff.mp inside with starts | later
      · exact absurd (List.cons_prefix_cons.mp starts).1 noColon.1
      · exact ih noColon.2 later

theorem framed_infix_of_append_slashes (count : Nat)
    (inside : framed code <:+: text ++ List.replicate count '\\') : framed code <:+: text := by
  induction count with
  | zero => rwa [List.replicate_zero, List.append_nil] at inside
  | succ count ih =>
      rw [List.replicate_succ', ← List.append_assoc, List.infix_concat_iff] at inside
      rcases inside with ends | earlier
      · obtain ⟨lead, same⟩ := ends
        rw [framed, ← List.append_assoc] at same
        exact absurd (List.append_inj_right' same rfl) (by decide)
      · exact ih earlier

theorem framed_infix_bracket_iff {after : List Char} (plain : '[' ∉ code) :
    framed code <:+: before ++ '[' :: after ↔ framed code <:+: before ∨ framed code <:+: after :=
  infix_append_cons_iff (by simp [framed, plain])

end Emoji

namespace Console

open Emoji (framed framed_infix_bracket_iff framed_infix_of_append framed_infix_of_append_slashes)

variable {emoji : Emoji} {code : List Char}

theorem flatMap_source (before : List Char) (slashes : Nat) (text : List Char) :
    (piecesFrom before slashes text).flatMap Piece.source =
      before.reverse ++ (List.replicate slashes '\\' ++ text) := by
  have plain (before : List Char) : (plainPiece before).flatMap Piece.source = before.reverse := by
    cases before with
    | nil => rfl
    | cons c before => simp [plainPiece, Piece.source]
  induction slashes, text using piece_induction generalizing before with
  | nil slashes => simp [plain]
  | slash slashes rest ih => rw [piecesFrom_slash, ih, replicate_succ_append]
  | tag slashes name behind isTag ih =>
      rw [piecesFrom_tag isTag, List.flatMap_append, plain, List.flatMap_cons, ih]
      simp [Piece.source, Piece.bracketed]
  | char slashes c rest noSlash noTag ih =>
      rw [piecesFrom_char noSlash noTag, ih]
      simp

/-- Escaping brings no code into a text. -/
theorem framed_infix_of_escaped (plain : '[' ∉ code) (pieces : List Piece) (lead : List Char)
    (inside : framed code <:+: lead ++ pieces.flatMap Piece.escaped) :
    framed code <:+: lead ++ pieces.flatMap Piece.source := by
  -- A code may reach from one piece into the next unless a bracket stands between them.
  induction pieces generalizing lead with
  | nil => exact inside
  | cons piece pieces ih =>
      cases piece with
      | plain text =>
          rw [List.flatMap_cons, ← List.append_assoc] at inside ⊢
          exact ih _ inside
      | tag slashes name =>
          have escaped : lead ++ (Piece.tag slashes name :: pieces).flatMap Piece.escaped =
              (lead ++ List.replicate (2 * slashes + 1) '\\') ++
                '[' :: ((name ++ [']']) ++ pieces.flatMap Piece.escaped) := by
            simp [Piece.escaped, Piece.bracketed]
          have source : lead ++ (Piece.tag slashes name :: pieces).flatMap Piece.source =
              (lead ++ List.replicate slashes '\\') ++
                '[' :: ((name ++ [']']) ++ pieces.flatMap Piece.source) := by
            simp [Piece.source, Piece.bracketed]
          rw [escaped, framed_infix_bracket_iff plain] at inside
          rw [source, framed_infix_bracket_iff plain]
          rcases inside with earlier | later
          · exact .inl ((framed_infix_of_append_slashes _ earlier).trans (List.prefix_append _ _).isInfix)
          · exact .inr (ih _ later)

theorem framed_infix_of_unescapeBrackets (plain : '[' ∉ code) (lead text : List Char)
    (inside : framed code <:+: lead ++ unescapeBrackets text) : framed code <:+: lead ++ text := by
  induction text using unescapeBrackets.induct generalizing lead with
  | case1 => exact inside
  | case2 rest ih =>
      rw [unescapeBrackets, framed_infix_bracket_iff plain] at inside
      have split : lead ++ '\\' :: '[' :: rest = (lead ++ ['\\']) ++ '[' :: rest := by simp
      rw [split, framed_infix_bracket_iff plain]
      exact inside.imp (·.trans (List.prefix_append _ _).isInfix) (ih [])
  | case3 c rest notEscaped ih =>
      rw [unescapeBrackets.eq_3 c rest notEscaped, List.append_cons] at inside
      rw [List.append_cons]
      exact ih _ inside

/-- Pieces without codes are shown as they are. -/
theorem renderPieces_of_absent {pieces : List Piece} (absent : ∀ piece ∈ pieces, emoji.Absent piece.source)
    (opened : List (List String)) (position : Nat) :
    renderPieces emoji.replace opened position pieces = renderPieces id opened position pieces := by
  induction pieces generalizing opened position with
  | nil => rfl
  | cons piece pieces ih =>
      rw [List.forall_mem_cons] at absent
      have later := ih absent.2
      cases piece with
      | plain text =>
          have free : emoji.Absent (unescapeBrackets text) := fun code known inside =>
            absent.1 code known (framed_infix_of_unescapeBrackets
              (Emoji.bracket_not_mem_of_picture? known) [] text inside)
          rw [renderPieces, renderPieces, later, Emoji.replace_of_absent free]
          rfl
      | tag slashes name =>
          have free : emoji.Absent (Piece.bracketed name) :=
            absent.1.mono (List.suffix_append _ _).isInfix
          rw [renderPieces, renderPieces]
          simp only [later, Emoji.replace_of_absent free, id]

theorem absent_escape {text : String} (absent : emoji.Absent text.toList) : emoji.Absent (escape text).toList := by
  intro code known inside
  obtain ⟨count, escaped⟩ := exists_escape text
  rw [escaped] at inside
  have within := framed_infix_of_escaped (Emoji.bracket_not_mem_of_picture? known) (pieces text.toList) []
    (framed_infix_of_append_slashes count inside)
  rw [pieces, flatMap_source] at within
  exact absent code known within

theorem absent_wrap (tone : Tone) {message : String} (absent : emoji.Absent message.toList) :
    emoji.Absent (tone.wrap message).toList := by
  have style : ':' ∉ ("[" ++ tone.style ++ "]").toList ∧ ':' ∉ ("/" ++ tone.style ++ "]").toList := by
    cases tone <;> decide
  have split : (tone.wrap message).toList =
      ("[" ++ tone.style ++ "]").toList ++
        ((escape message).toList ++ '[' :: ("/" ++ tone.style ++ "]").toList) := by
    simp [Tone.wrap]
  intro code known inside
  rw [split] at inside
  rcases (framed_infix_bracket_iff (Emoji.bracket_not_mem_of_picture? known)).mp
    (framed_infix_of_append style.1 inside) with within | closing
  · exact absent_escape absent code known within
  · exact style.2 (closing.subset List.mem_cons_self)

theorem render_wrap_of_absent (tone : Tone) {message : String} (absent : emoji.Absent message.toList) :
    renderPieces emoji.replace [] 0 (pieces (tone.wrap message).toList) =
      renderPieces id [] 0 (pieces (tone.wrap message).toList) := by
  refine renderPieces_of_absent (fun piece member => ?_) [] 0
  have whole : (pieces (tone.wrap message).toList).flatMap Piece.source = (tone.wrap message).toList :=
    flatMap_source [] 0 _
  obtain ⟨before, after, split⟩ := List.append_of_mem member
  apply (absent_wrap tone absent).mono
  rw [← whole, split, List.flatMap_append, List.flatMap_cons]
  exact ⟨_, _, List.append_assoc ..⟩

end Console

end TreeExport
