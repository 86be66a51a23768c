import TreeExport.Console.Message
import TreeExport.Console.Summary
import TreeExport.Proofs.Outcome

/-!
Texts from outside can always be printed. Escaping puts an odd number of backslashes in front of every tag,
so none of them takes effect, and no bracket of the text makes a tag together with what stands behind the
text. The only tags in force are then those of the message itself, which open and close one style.
-/

namespace TreeExport

namespace Console

def closes (text : List Char) : Bool :=
  (text.drop (text.takeWhile fun c => c != ']' && c != '[').length).head? == some ']'

def IsTagName (name : List Char) : Prop :=
  ∃ first more, name = first :: more ∧ startsTag first = true ∧ ∀ c ∈ more, c ≠ ']' ∧ c ≠ '['

section Tags

variable {c : Char} {text rest name behind : List Char}

theorem closes_cons :
    closes (c :: rest) = if c = ']' then true else if c = '[' then false else closes rest := by
  by_cases close : c = ']'
  · subst close
    rfl
  · by_cases opening : c = '['
    · subst opening
      rfl
    · simp [closes, close, opening]

theorem closes_slashes (count : Nat) :
    closes (List.replicate count '\\' ++ text) = closes text := by
  induction count with
  | zero => rfl
  | succ count ih => rw [List.replicate_succ, List.cons_append, closes_cons, ih]; rfl

theorem exists_of_closes (shut : closes text = true) :
    ∃ more behind, text = more ++ ']' :: behind ∧ ∀ c ∈ more, c ≠ ']' ∧ c ≠ '[' := by
  induction text with
  | nil => exact absurd shut (by decide)
  | cons c rest ih =>
      rw [closes_cons] at shut
      by_cases close : c = ']'
      · exact ⟨[], rest, by rw [close]; rfl, nofun⟩
      · by_cases opening : c = '['
        · simp [opening] at shut
        · rw [if_neg close, if_neg opening] at shut
          obtain ⟨more, behind, split, clean⟩ := ih shut
          exact ⟨c :: more, behind, by rw [split]; rfl,
            List.forall_mem_cons.mpr ⟨⟨close, opening⟩, clean⟩⟩

theorem takeWhile_append_close (clean : ∀ c ∈ text, c ≠ ']' ∧ c ≠ '[') :
    (text ++ ']' :: behind).takeWhile (fun c => c != ']' && c != '[') = text := by
  rw [List.takeWhile_append_of_pos, List.takeWhile_cons_of_neg, List.append_nil]
  · simp
  · intro c member
    simpa using clean c member

theorem tagAt?_bracket (first : Char) (more : List Char) :
    tagAt? ('[' :: first :: more) =
      if startsTag first && closes more then
        some (first :: more.takeWhile fun c => c != ']' && c != '[')
      else none := rfl

theorem tagAt?_of_ne (different : c ≠ '[') : tagAt? (c :: rest) = none := by
  unfold tagAt?
  split
  · rename_i same
    injection same with same
    exact absurd same different
  · rfl

theorem tagAt?_of_isTagName (isTag : IsTagName name) :
    tagAt? ('[' :: (name ++ ']' :: behind)) = some name := by
  obtain ⟨first, more, rfl, starts, clean⟩ := isTag
  have shut : closes (more ++ ']' :: behind) = true := by
    rw [closes, takeWhile_append_close clean, List.drop_left]
    rfl
  simp only [List.cons_append]
  rw [tagAt?_bracket, takeWhile_append_close clean, starts, shut]
  rfl

theorem exists_of_tagAt?_eq_some (found : tagAt? text = some name) :
    IsTagName name ∧ ∃ behind, text = '[' :: (name ++ ']' :: behind) := by
  match text with
  | [] => exact absurd found nofun
  | [c] => exact absurd found (by cases c; simp [tagAt?])
  | c :: first :: rest =>
      by_cases opening : c = '['
      · subst opening
        rw [tagAt?_bracket] at found
        by_cases holds : (startsTag first && closes rest) = true
        · obtain ⟨starts, shut⟩ := Bool.and_eq_true_iff.mp holds
          obtain ⟨more, behind, rfl, clean⟩ := exists_of_closes shut
          rw [if_pos holds, takeWhile_append_close clean] at found
          obtain rfl := Option.some.inj found
          exact ⟨⟨first, more, rfl, starts, clean⟩, behind, rfl⟩
        · rw [if_neg holds] at found
          exact absurd found nofun
      · rw [tagAt?_of_ne opening] at found
        exact absurd found nofun

end Tags

/-! ### Pieces -/

section Pieces

variable {before : List Char} {slashes : Nat} {c : Char} {text rest name behind : List Char}

theorem replicate_succ_append (slashes : Nat) (text : List Char) :
    List.replicate (slashes + 1) '\\' ++ text = List.replicate slashes '\\' ++ '\\' :: text := by
  rw [List.replicate_succ', List.append_assoc]
  rfl

/-- A text ends, or goes on with a backslash, with a tag, or with a character that begins neither. -/
theorem piece_induction {motive : Nat → List Char → Prop}
    (nil : ∀ slashes, motive slashes [])
    (slash : ∀ slashes rest, motive (slashes + 1) rest → motive slashes ('\\' :: rest))
    (tag : ∀ slashes name behind, IsTagName name → motive 0 behind →
      motive slashes ('[' :: (name ++ ']' :: behind)))
    (char : ∀ slashes c rest, c ≠ '\\' → tagAt? (c :: rest) = none → motive 0 rest →
      motive slashes (c :: rest))
    (slashes : Nat) (text : List Char) : motive slashes text :=
  match text with
  | [] => nil slashes
  | c :: rest => by
      by_cases isSlash : c = '\\'
      · subst isSlash
        exact slash slashes rest (piece_induction nil slash tag char (slashes + 1) rest)
      · cases found : tagAt? (c :: rest) with
        | none => exact char slashes c rest isSlash found (piece_induction nil slash tag char 0 rest)
        | some name =>
            obtain ⟨isTag, behind, shape⟩ := exists_of_tagAt?_eq_some found
            have shorter : behind.length < (c :: rest).length := by simp [shape]; omega
            rw [shape]
            exact tag slashes name behind isTag (piece_induction nil slash tag char 0 behind)
termination_by text.length
decreasing_by
  · exact Nat.lt_succ_self _
  · exact Nat.lt_succ_self _
  · exact shorter

@[simp]
theorem piecesFrom_nil :
    piecesFrom before slashes [] = plainPiece (List.replicate slashes '\\' ++ before) := by
  rw [piecesFrom]

theorem piecesFrom_slash :
    piecesFrom before slashes ('\\' :: rest) = piecesFrom before (slashes + 1) rest := by
  rw [piecesFrom, if_pos rfl]

theorem piecesFrom_tag (isTag : IsTagName name) :
    piecesFrom before slashes ('[' :: (name ++ ']' :: behind)) =
      plainPiece before ++ .tag slashes name :: piecesFrom [] 0 behind := by
  have found : tagAt? ('[' :: (name ++ ']' :: behind)) = some name := tagAt?_of_isTagName isTag
  rw [piecesFrom, if_neg (by decide)]
  simp only [found]
  simp

theorem piecesFrom_char (noSlash : c ≠ '\\') (noTag : tagAt? (c :: rest) = none) :
    piecesFrom before slashes (c :: rest) =
      piecesFrom (c :: List.replicate slashes '\\' ++ before) 0 rest := by
  rw [piecesFrom, if_neg noSlash]
  simp only [noTag]

theorem piecesFrom_slashes (count : Nat) :
    piecesFrom before slashes (List.replicate count '\\' ++ rest) =
      piecesFrom before (slashes + count) rest := by
  induction count generalizing slashes with
  | zero => rfl
  | succ count ih =>
      rw [List.replicate_succ, List.cons_append, piecesFrom_slash, ih]
      congr 1
      omega

end Pieces

/-! ### Escaped texts -/

def escapedFrom (slashes : Nat) (text : List Char) : List Char :=
  (piecesFrom [] slashes text).flatMap Piece.escaped

section Escaped

variable {before : List Char} {slashes : Nat} {c : Char} {text rest name behind : List Char}

theorem flatMap_plainPiece : (plainPiece before).flatMap Piece.escaped = before.reverse := by
  cases before with
  | nil => rfl
  | cons c before => simp [plainPiece, Piece.escaped]

theorem flatMap_piecesFrom (before : List Char) (slashes : Nat) (text : List Char) :
    (piecesFrom before slashes text).flatMap Piece.escaped =
      before.reverse ++ escapedFrom slashes text := by
  unfold escapedFrom
  induction slashes, text using piece_induction generalizing before with
  | nil slashes => simp [flatMap_plainPiece]
  | slash slashes rest ih => rw [piecesFrom_slash, piecesFrom_slash, ih]
  | tag slashes name behind isTag _ =>
      rw [piecesFrom_tag isTag, piecesFrom_tag isTag, List.flatMap_append, flatMap_plainPiece]
      rfl
  | char slashes c rest noSlash noTag ih =>
      rw [piecesFrom_char noSlash noTag, piecesFrom_char noSlash noTag, ih, ih (_ :: _ ++ [])]
      simp

theorem escapedFrom_nil : escapedFrom slashes [] = List.replicate slashes '\\' := by
  simp [escapedFrom, flatMap_plainPiece]

theorem escapedFrom_slash : escapedFrom slashes ('\\' :: rest) = escapedFrom (slashes + 1) rest := by
  rw [escapedFrom, piecesFrom_slash, escapedFrom]

theorem escapedFrom_tag (isTag : IsTagName name) :
    escapedFrom slashes ('[' :: (name ++ ']' :: behind)) =
      List.replicate (2 * slashes + 1) '\\' ++ '[' :: (name ++ ']' :: escapedFrom 0 behind) := by
  rw [escapedFrom, piecesFrom_tag isTag, escapedFrom]
  simp [plainPiece, Piece.escaped, Piece.bracketed]

theorem escapedFrom_char (noSlash : c ≠ '\\') (noTag : tagAt? (c :: rest) = none) :
    escapedFrom slashes (c :: rest) = List.replicate slashes '\\' ++ c :: escapedFrom 0 rest := by
  rw [escapedFrom, piecesFrom_char noSlash noTag, flatMap_piecesFrom]
  simp

/-- A backslash at the end of a text is doubled unless another one stands before it. -/
theorem exists_escape (text : String) :
    ∃ count, (escape text).toList = escapedFrom 0 text.toList ++ List.replicate count '\\' := by
  rw [escape, String.toList_ofList]
  split
  · exact ⟨1, rfl⟩
  · exact ⟨0, (List.append_nil _).symm⟩

/-- Whether a text in front is not made part of a tag by this one. -/
def Inert (text : List Char) : Prop :=
  closes text = false ∧ ∀ c rest, text = c :: rest → startsTag c = false

theorem inert_slashes (inert : Inert text) (count : Nat) :
    Inert (List.replicate count '\\' ++ text) := by
  refine ⟨by rw [closes_slashes, inert.1], ?_⟩
  intro c rest split
  cases count with
  | zero => exact inert.2 c rest split
  | succ count =>
      obtain ⟨rfl, _⟩ := List.cons.inj split
      decide

theorem closes_escapedFrom (inert : Inert behind) :
    closes (escapedFrom slashes text ++ behind) = closes text := by
  induction slashes, text using piece_induction with
  | nil slashes => rw [escapedFrom_nil, closes_slashes, inert.1]; rfl
  | slash slashes rest ih => rw [escapedFrom_slash, ih, closes_cons]; rfl
  | tag slashes name rest isTag _ =>
      rw [escapedFrom_tag isTag, List.append_assoc, closes_slashes, List.cons_append, closes_cons,
        closes_cons]
      rfl
  | char slashes c rest noSlash noTag ih =>
      rw [escapedFrom_char noSlash noTag, List.append_assoc, closes_slashes, List.cons_append,
        closes_cons, closes_cons, ih]

theorem exists_escapedFrom_succ (slashes : Nat) (text : List Char) :
    ∃ more, escapedFrom (slashes + 1) text = '\\' :: more := by
  induction slashes, text using piece_induction with
  | nil slashes => exact ⟨_, escapedFrom_nil⟩
  | slash slashes rest ih => rwa [escapedFrom_slash]
  | tag slashes name rest isTag _ => exact ⟨_, escapedFrom_tag isTag⟩
  | char slashes c rest noSlash noTag _ => exact ⟨_, escapedFrom_char noSlash noTag⟩

theorem tagAt?_append_escapedFrom (inert : Inert behind) (noTag : tagAt? (c :: text) = none) :
    tagAt? (c :: (escapedFrom 0 text ++ behind)) = none := by
  by_cases opening : c = '['
  case neg => exact tagAt?_of_ne opening
  subst opening
  -- A bracket makes a tag only with what follows it at once: the text, or behind an empty text the rest.
  match text with
  | [] =>
      match behind with
      | [] => rw [escapedFrom_nil]; rfl
      | first :: rest => rw [escapedFrom_nil]; simp [tagAt?, inert.2 first rest rfl]
  | first :: more =>
      by_cases isSlash : first = '\\'
      · subst isSlash
        obtain ⟨rest, shape⟩ := exists_escapedFrom_succ 0 more
        rw [escapedFrom_slash, shape, List.cons_append, tagAt?_bracket]
        rfl
      · cases found : tagAt? (first :: more) with
        | some name =>
            obtain ⟨isTag, rest, shape⟩ := exists_of_tagAt?_eq_some found
            rw [shape, escapedFrom_tag isTag]
            rfl
        | none =>
            rw [escapedFrom_char isSlash found]
            show tagAt? ('[' :: first :: (escapedFrom 0 more ++ behind)) = none
            rw [tagAt?_bracket] at noTag ⊢
            rw [closes_escapedFrom inert]
            split at noTag
            · exact absurd noTag nofun
            · rename_i holds
              rw [if_neg holds]

end Escaped

/-! ### Printing -/

def Printable (emoji : Emoji) (opened : List (List String)) (pieces : List Piece) : Prop :=
  ∀ position, ∃ shown, renderPieces emoji.replace opened position pieces = .ok shown

section Printing

variable {display : List Char → List Char} {emoji : Emoji} {opened : List (List String)} {before lead behind : List Char} {slashes : Nat}
variable {name text : List Char} {rest : List Piece}

theorem printable_nil : Printable emoji opened [] :=
  fun _ => ⟨[], rfl⟩

theorem render_plainPiece (empty : display [] = []) {position : Nat} {shown : List Char}
    (rendered : renderPieces display opened (position + before.length) rest = .ok shown) :
    renderPieces display opened position (plainPiece before ++ rest) =
      .ok (display (unescapeBrackets before.reverse) ++ shown) := by
  cases before with
  | nil =>
      rw [List.reverse_nil, unescapeBrackets, empty]
      exact rendered
  | cons c before =>
      rw [← List.length_reverse] at rendered
      exact bind_of_eq_ok rendered fun shown => pure (display (unescapeBrackets (c :: before).reverse) ++ shown)

theorem render_shownTag {position : Nat} {shown : List Char} (odd : slashes % 2 = 1)
    (rendered : renderPieces display opened (position + (Piece.tag slashes name).source.length) rest = .ok shown) :
    renderPieces display opened position (.tag slashes name :: rest) =
      .ok (List.replicate (slashes / 2) '\\' ++ display (Piece.bracketed name) ++ shown) := by
  rw [renderPieces]
  simp only [odd, ↓reduceIte]
  exact bind_of_eq_ok rendered fun shown => pure _

theorem render_appliedTag {position : Nat} {inside : List (List String)} {shown : List Char}
    (even : slashes % 2 ≠ 1) (applied : applyTag opened (position + slashes) name = .ok inside)
    (rendered : renderPieces display inside (position + (Piece.tag slashes name).source.length) rest = .ok shown) :
    renderPieces display opened position (.tag slashes name :: rest) =
      .ok (List.replicate (slashes / 2) '\\' ++ shown) := by
  rw [renderPieces]
  simp only [even, ↓reduceIte, applied]
  exact bind_of_eq_ok rendered fun shown => pure _

theorem printable_plainPiece (printable : Printable emoji opened rest) :
    Printable emoji opened (plainPiece before ++ rest) := by
  intro position
  obtain ⟨shown, rendered⟩ := printable (position + before.length)
  exact ⟨_, render_plainPiece rfl rendered⟩

theorem printable_shownTag (odd : slashes % 2 = 1) (printable : Printable emoji opened rest) :
    Printable emoji opened (.tag slashes name :: rest) := by
  intro position
  obtain ⟨shown, rendered⟩ := printable (position + (Piece.tag slashes name).source.length)
  exact ⟨_, render_shownTag odd rendered⟩

theorem printable_appliedTag {inside : List (List String)} (even : slashes % 2 ≠ 1)
    (applied : ∀ position, applyTag opened position name = .ok inside)
    (printable : Printable emoji inside rest) : Printable emoji opened (.tag slashes name :: rest) := by
  intro position
  obtain ⟨shown, rendered⟩ := printable (position + (Piece.tag slashes name).source.length)
  exact ⟨_, render_appliedTag even (applied _) rendered⟩

theorem printable_escapedFrom (inert : Inert behind)
    (printable : ∀ before slashes, Printable emoji opened (piecesFrom before slashes behind)) :
    Printable emoji opened (piecesFrom before 0 (escapedFrom slashes text ++ behind)) := by
  -- The backslashes read so far belong to whatever comes next, so the induction keeps their number; the
  -- text that is read already plays no part.
  induction slashes, text using piece_induction generalizing before with
  | nil slashes =>
      rw [escapedFrom_nil, piecesFrom_slashes]
      exact printable before (0 + slashes)
  | slash slashes rest ih =>
      rw [escapedFrom_slash]
      exact ih
  | tag slashes name rest isTag ih =>
      rw [escapedFrom_tag isTag, List.append_assoc, piecesFrom_slashes, List.cons_append,
        List.append_assoc, List.cons_append, piecesFrom_tag isTag]
      exact printable_plainPiece (printable_shownTag (by omega) ih)
  | char slashes c rest noSlash noTag ih =>
      rw [escapedFrom_char noSlash noTag, List.append_assoc, piecesFrom_slashes, List.cons_append,
        piecesFrom_char noSlash (tagAt?_append_escapedFrom inert noTag)]
      exact ih

def isPlain (text : String) : Bool :=
  text.toList.all fun c => c != '\\' && c != '['

theorem exists_printed {text : String} (printable : Printable emoji [] (pieces text.toList)) :
    ∃ shown, printed emoji text = .ok shown := by
  obtain ⟨shown, rendered⟩ := printable 0
  exact ⟨_, bind_of_eq_ok rendered fun chars => pure _⟩

theorem piecesFrom_lead (plain : lead.all (fun c => c != '\\' && c != '[') = true) :
    piecesFrom before 0 (lead ++ text) = piecesFrom (lead.reverse ++ before) 0 text := by
  induction lead generalizing before with
  | nil => rfl
  | cons c lead ih =>
      simp only [List.all_cons, Bool.and_eq_true, bne_iff_ne] at plain
      obtain ⟨⟨noSlash, noBracket⟩, plain⟩ := plain
      rw [List.cons_append, piecesFrom_char noSlash (tagAt?_of_ne noBracket), ih plain]
      simp

theorem exists_printed_escape {lead : String} (plain : isPlain lead = true)
    (text : String) : ∃ shown, printed emoji (lead ++ escape text) = .ok shown := by
  apply exists_printed
  obtain ⟨count, escaped⟩ := exists_escape text
  rw [String.toList_append, escaped, pieces, piecesFrom_lead plain]
  have inert : Inert [] := ⟨rfl, nofun⟩
  have ends := inert_slashes inert count
  rw [List.append_nil] at ends
  apply printable_escapedFrom ends
  intro before slashes
  rw [← List.append_nil (List.replicate count '\\'), piecesFrom_slashes, piecesFrom_nil,
    ← List.append_nil (plainPiece _)]
  exact printable_plainPiece printable_nil

theorem exists_printed_plain {text : String} (plain : isPlain text = true) :
    ∃ shown, printed emoji text = .ok shown := by
  have empty : escape "" = "" := by
    rw [escape, pieces]
    simp [plainPiece]
  have printed : ∃ shown, printed emoji (text ++ escape "") = .ok shown := exists_printed_escape plain ""
  rwa [empty, String.append_empty] at printed

theorem unbracketed (inside : text.all (fun c => c != ']' && c != '[') = true) :
    ∀ c ∈ text, c ≠ ']' ∧ c ≠ '[' := by
  simpa using inside

theorem isTagName_closing (tone : Tone) : IsTagName ("/" ++ tone.style).toList := by
  refine ⟨'/', tone.style.toList, ?_, by decide, ?_⟩
  · simp
  · apply unbracketed
    cases tone <;> rfl

theorem isTagName_style (tone : Tone) : IsTagName tone.style.toList := by
  cases tone
  · exact ⟨'b', "old green".toList, rfl, by decide, unbracketed rfl⟩
  · exact ⟨'b', "old red".toList, rfl, by decide, unbracketed rfl⟩
  · exact ⟨'b', "old yellow".toList, rfl, by decide, unbracketed rfl⟩

theorem applyTag_style (tone : Tone) (position : Nat) :
    applyTag [] position tone.style.toList = .ok [styleName tone.style.toList] := by
  cases tone <;> rfl

theorem applyTag_closing (tone : Tone) (position : Nat) :
    applyTag [styleName tone.style.toList] position ("/" ++ tone.style).toList = .ok [] := by
  cases tone <;> rfl

/-- The style of a message is closed at its end, unless a backslash of the message made the closing tag
plain. -/
theorem render_closing (empty : display [] = []) (tone : Tone) (before : List Char) (slashes position : Nat) :
    renderPieces display [styleName tone.style.toList] position
      (piecesFrom before slashes ('[' :: (("/" ++ tone.style).toList ++ [']']))) =
      .ok (display (unescapeBrackets before.reverse) ++ (List.replicate (slashes / 2) '\\' ++
        if slashes % 2 = 1 then display (Piece.bracketed ("/" ++ tone.style).toList) else [])) := by
  rw [piecesFrom_tag (isTagName_closing tone), piecesFrom_nil]
  apply render_plainPiece empty
  by_cases odd : slashes % 2 = 1
  · rw [if_pos odd, render_shownTag odd rfl, List.append_nil]
  · rw [if_neg odd, render_appliedTag odd (applyTag_closing tone _) rfl]

theorem inert_closing (tone : Tone) : Inert ('[' :: (("/" ++ tone.style).toList ++ [']'])) := by
  refine ⟨by rw [closes_cons]; rfl, ?_⟩
  intro c rest split
  obtain ⟨rfl, _⟩ := List.cons.inj split
  decide

theorem exists_printed_wrap (tone : Tone) (message : String) :
    ∃ shown, printed emoji (tone.wrap message) = .ok shown := by
  apply exists_printed
  obtain ⟨count, escaped⟩ := exists_escape message
  have shape : (tone.wrap message).toList =
      '[' :: (tone.style.toList ++ ']' :: (escapedFrom 0 message.toList ++
        (List.replicate count '\\' ++ '[' :: (("/" ++ tone.style).toList ++ [']'])))) := by
    simp [Tone.wrap, escaped]
  rw [shape, pieces, piecesFrom_tag (isTagName_style tone)]
  apply printable_plainPiece
  apply printable_appliedTag (by decide) (applyTag_style tone)
  apply printable_escapedFrom (inert_slashes (inert_closing tone) count)
  intro before slashes position
  rw [piecesFrom_slashes]
  exact ⟨_, render_closing rfl tone before _ position⟩

/-- Every message can be printed, whatever stands in it. -/
theorem exists_printMessage (console : Console) (tone : Tone) (message : String) :
    ∃ text, console.printMessage tone message = .ok text := by
  obtain ⟨shown, printed⟩ := exists_printed_wrap tone message
  exact ⟨_, bind_of_eq_ok printed fun shown => pure _⟩

theorem exists_print_escape {lead : String} (plain : isPlain lead = true)
    (console : Console) (text : String) : ∃ shown, console.print (lead ++ escape text) = .ok shown := by
  obtain ⟨shown, printed⟩ := exists_printed_escape plain text
  exact ⟨_, bind_of_eq_ok printed fun shown => pure _⟩

theorem exists_rowOf (label value : String) : ∃ row, rowOf emoji (.text label, .text value) = .ok row := by
  have plain : isPlain "" = true := rfl
  obtain ⟨labelShown, first⟩ := exists_printed_escape plain label
  obtain ⟨valueShown, second⟩ := exists_printed_escape plain (String.ofList value.toList)
  rw [String.empty_append] at first second
  have displayed : (Literal.display (.text value)).mapError SummaryError.value = .ok value.toList := rfl
  have labelled : (printed emoji (escape label)).mapError SummaryError.title = .ok labelShown := by
    rw [first, mapError_ok]
  have valued : (printed emoji (escape (String.ofList value.toList))).mapError SummaryError.title =
      .ok valueShown := by
    rw [second, mapError_ok]
  refine ⟨(labelShown, valueShown), ?_⟩
  simp only [rowOf]
  rw [bind_of_eq_ok displayed, bind_of_eq_ok labelled, bind_of_eq_ok valued]
  rfl

theorem exists_summary {entries : List (Value × Value)} {title : String}
    (texts : ∀ entry ∈ entries, ∃ label value, entry = (.text label, .text value))
    {console : Console} (titled : ∃ shown, printed console.emoji title = .ok shown) :
    ∃ text, console.summary entries title = .ok text := by
  obtain ⟨rows, rendered⟩ : ∃ rows, entries.mapM (rowOf console.emoji) = .ok rows := by
    apply exists_mapM_eq_ok
    intro entry member
    obtain ⟨label, value, rfl⟩ := texts entry member
    exact exists_rowOf label value
  obtain ⟨shown, printed⟩ := titled
  rw [summary, bind_of_eq_ok rendered, printed]
  exact ⟨_, rfl⟩

end Printing

end Console

end TreeExport
