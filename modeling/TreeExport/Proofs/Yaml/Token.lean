import TreeExport.Yaml.Token
import TreeExport.Proofs.Yaml.Fault

/-!
Tokens come out of the text. A place in a text is only ever left for one further on, a tag is read only where
an exclamation mark stands, and the words of a plain scalar are pieces of the text, with blanks between them.
-/

namespace TreeExport

namespace Yaml

def Token.Within (source : List Char) : Token → Prop
  | .tag _ _ => '!' ∈ source
  | .scalar text true => PlainWithin source text.toList
  | _ => True

variable {source : List Char} {cursor : Cursor}

namespace Cursor

def In (source : List Char) (cursor : Cursor) : Prop :=
  cursor.rest <:+ source

theorem mem_of_peek {c : Char} (inside : cursor.In source) (next : cursor.peek = c) (inner : c ≠ endMark) :
    c ∈ source := by
  apply inside.subset
  rw [peek] at next
  cases rest : cursor.rest with
  | nil =>
      rw [rest] at next
      exact absurd next.symm inner
  | cons first others =>
      rw [rest] at next
      exact next ▸ List.mem_cons_self

theorem rest_step (cursor : Cursor) : cursor.step.rest = cursor.rest.tail := by
  rw [step]
  split
  · rename_i empty
    rw [empty, List.tail_nil]
  · rename_i split
    rw [split, List.tail_cons]
    split
    · rfl
    · split <;> rfl

theorem rest_skip (cursor : Cursor) (count : Nat) : (cursor.skip count).rest = cursor.rest.drop count := by
  induction count generalizing cursor with
  | zero => rfl
  | succ count ih => rw [skip, ih, rest_step, List.drop_tail]

theorem In.skip (inside : cursor.In source) (count : Nat) : (cursor.skip count).In source := by
  rw [In, rest_skip]
  exact (List.drop_suffix _ _).trans inside

theorem In.step (inside : cursor.In source) : cursor.step.In source :=
  inside.skip 1

theorem In.span (inside : cursor.In source) (test : Char → Bool) : (cursor.span test).2.In source :=
  inside.skip _

theorem In.skipWhile (inside : cursor.In source) (test : Char → Bool) : (cursor.skipWhile test).In source :=
  inside.skip _

theorem In.lineBreak (inside : cursor.In source) : cursor.lineBreak.2.In source := by
  rw [Cursor.lineBreak]
  split
  · exact inside.skip 2
  · split
    · exact inside.step
    · split
      · exact inside.step
      · exact inside

/-- Whether a reading at a place of a text fails within the text, or ends further on in it with a certain
value. -/
def Reads {α : Type} (source : List Char) (holds : α → Prop) (result : Except Error (α × Cursor)) : Prop :=
  Yields (Error.Within source) (fun read => holds read.1 ∧ read.2.In source) result

theorem yields_skipLineEnd (inside : cursor.In source) :
    Yields (Error.Within source) (In source) cursor.skipLineEnd := by
  rw [skipLineEnd]
  split
  · split
    · exact ((inside.skipWhile _).skipWhile _).lineBreak
    · trivial
  · split
    · exact (inside.skipWhile _).lineBreak
    · trivial

/-! ### Names and tags -/

theorem reads_name (inside : cursor.In source) (follows : Char → Bool) :
    Reads source (fun _ => True) (cursor.readName follows) := by
  rw [readName]
  dsimp only
  split
  · trivial
  · exact ⟨trivial, inside.span _⟩

theorem reads_anchor (inside : cursor.In source) : Reads source (fun _ => True) cursor.readAnchor :=
  reads_name inside.step _

theorem reads_escapedBytes (inside : cursor.In source) (fuel : Nat) :
    Reads source (fun _ => True) (cursor.readEscapedBytes fuel) := by
  induction fuel generalizing cursor with
  | zero => exact ⟨trivial, inside⟩
  | succ fuel ih =>
      rw [readEscapedBytes]
      split
      · split
        · exact (ih (inside.skip 3)).bind fun _ read => ⟨trivial, read.2⟩
        · trivial
      · exact ⟨trivial, inside⟩

theorem reads_uriPieces (inside : cursor.In source) (fuel : Nat) :
    Reads source (fun _ => True) (cursor.readUriPieces fuel) := by
  induction fuel generalizing cursor with
  | zero => exact ⟨trivial, inside⟩
  | succ fuel ih =>
      rw [readUriPieces]
      dsimp only
      split
      · apply (reads_escapedBytes (inside.span _) _).bind
        rintro ⟨bytes, later⟩ ⟨_, further⟩
        dsimp only
        split
        · trivial
        · exact (ih further).bind fun _ read => ⟨trivial, read.2⟩
      · exact ⟨trivial, inside.span _⟩

theorem reads_uri (inside : cursor.In source) : Reads source (fun _ => True) cursor.readUri := by
  rw [readUri]
  split
  · exact (reads_uriPieces inside _).bind fun _ read => ⟨trivial, read.2⟩
  · trivial

theorem reads_tagHandle (inside : cursor.In source) : Reads source (fun _ => True) cursor.readTagHandle := by
  rw [readTagHandle]
  split
  · trivial
  · split
    · exact ⟨trivial, inside.step⟩
    · dsimp only
      split
      · exact ⟨trivial, (inside.step.span _).step⟩
      · trivial

theorem reads_tag (inside : cursor.In source) (written : '!' ∈ source) :
    Reads source (Token.Within source) cursor.readTag := by
  have ends (handle : Option String) (suffix : String) {later : Cursor} (further : later.In source) :
      Reads source (Token.Within source) (if isSpaceOrEnd later.peek = true then
        pure (Token.tag handle suffix, later) else throw Error.malformed) := by
    split
    · exact ⟨written, further⟩
    · trivial
  rw [readTag]
  dsimp only
  split
  · apply (reads_uri (inside.skip 2)).bind
    rintro ⟨suffix, later⟩ ⟨_, further⟩
    dsimp only
    split
    · exact ends none suffix further.step
    · trivial
  · split
    · exact ends none "!" inside.step
    · split
      · apply (reads_tagHandle inside).bind
        rintro ⟨handle, later⟩ ⟨_, further⟩
        exact (reads_uri further).bind fun _ read => ends _ _ read.2
      · exact (reads_uri inside.step).bind fun _ read => ends _ _ read.2

theorem reads_versionNumber (inside : cursor.In source) :
    Reads source (fun _ => True) cursor.readVersionNumber := by
  rw [readVersionNumber]
  dsimp only
  split
  · trivial
  · split
    · trivial
    · exact ⟨trivial, inside.span _⟩

theorem reads_directive (inside : cursor.In source) :
    Reads source (Token.Within source) cursor.readDirective := by
  have ends (directive : Directive) {later : Cursor} (further : later.In source) :
      Reads source (Token.Within source) (do return (.directive directive, ← later.skipLineEnd)) :=
    (yields_skipLineEnd further).bind fun _ further => ⟨trivial, further⟩
  rw [readDirective]
  apply (reads_name inside.step _).bind
  rintro ⟨name, later⟩ ⟨_, further⟩
  dsimp only
  split
  · apply (reads_versionNumber (further.skipWhile _)).bind
    rintro ⟨major, later⟩ ⟨_, further⟩
    dsimp only
    split
    · trivial
    · apply (reads_versionNumber further.step).bind
      rintro ⟨minor, later⟩ ⟨_, further⟩
      dsimp only
      split
      · trivial
      · exact ends _ further
  · split
    · apply (reads_tagHandle (further.skipWhile _)).bind
      rintro ⟨handle, later⟩ ⟨_, further⟩
      dsimp only
      split
      · trivial
      · apply (reads_uri (further.skipWhile _)).bind
        rintro ⟨start, later⟩ ⟨_, further⟩
        dsimp only
        split
        · trivial
        · exact ends _ further
    · exact ends _ (further.skipWhile _)

/-! ### Block scalars -/

theorem yields_blockHeader (inside : cursor.In source) :
    Yields (Error.Within source) (fun read => read.2.2.In source) cursor.readBlockHeader := by
  have digit {later : Cursor} (further : later.In source) :
      Yields (Error.Within source) (fun read : Option Nat × Cursor => read.2.In source)
        (if later.peek = '0' then .error .malformed
        else if Json.isDigit later.peek then .ok (some (later.peek.toNat - '0'.toNat), later.step)
        else .ok (none, later)) := by
    split
    · trivial
    · split
      · exact further.step
      · exact further
  have ends (chomping : Chomping) (increment : Option Nat) {later : Cursor} (further : later.In source) :
      Yields (Error.Within source) (fun read : Chomping × Option Nat × Cursor => read.2.2.In source)
        (if isSpaceOrEnd later.peek then pure (chomping, increment, later) else throw Error.malformed) := by
    split
    · exact further
    · trivial
  rw [readBlockHeader]
  dsimp only
  split
  · exact (digit inside.step).bind fun _ further => ends _ _ further
  · apply (digit inside).bind
    rintro ⟨increment, later⟩ further
    dsimp only
    split
    · exact ends _ _ further.step
    · exact ends _ _ further

theorem readBlockIndent_in (inside : cursor.In source) (deepest : Nat) (breaks : List Char) (fuel : Nat) :
    (cursor.readBlockIndent deepest breaks fuel).2.2.In source := by
  induction fuel generalizing cursor deepest breaks with
  | zero => exact inside
  | succ fuel ih =>
      rw [readBlockIndent]
      dsimp only
      split
      · exact ih inside.step _ _
      · split
        · exact ih inside.lineBreak _ _
        · exact inside

theorem readBlockBreaks_in (inside : cursor.In source) (indent : Nat) (breaks : List Char) (fuel : Nat) :
    (cursor.readBlockBreaks indent breaks fuel).2.In source := by
  induction fuel generalizing cursor breaks with
  | zero => exact inside
  | succ fuel ih =>
      rw [readBlockBreaks]
      dsimp only
      split
      · exact ih (inside.skip _).lineBreak _
      · exact inside.skip _

theorem readBlockLines_in (folded : Bool) (indent : Nat) (inside : cursor.In source)
    (breaks lineBreak text : List Char) (fuel : Nat) :
    (readBlockLines folded indent cursor breaks lineBreak text fuel).2.2.2.In source := by
  induction fuel generalizing cursor breaks lineBreak text with
  | zero => exact inside
  | succ fuel ih =>
      rw [readBlockLines]
      have next := readBlockBreaks_in (inside.span (!isBreakOrEnd ·)).lineBreak
      split
      · dsimp only
        split
        · exact ih (next _ _ _) _ _ _
        · exact next _ _ _
      · exact inside

theorem reads_blockScalar (inside : cursor.In source) (folded : Bool) (indent : Int) :
    Reads source (Token.Within source) (cursor.readBlockScalar folded indent) := by
  rw [readBlockScalar]
  apply (yields_blockHeader inside.step).bind
  rintro ⟨chomping, increment, later⟩ further
  apply (yields_skipLineEnd further).bind
  intro start within
  have least := readBlockIndent_in within 0 [] (start.rest.length + 1)
  have given (increment : Nat) := readBlockBreaks_in within ((max (indent + 1) 1).toNat + increment - 1) []
    (start.rest.length + 1)
  dsimp only
  cases increment with
  | none =>
      generalize start.readBlockIndent 0 [] (start.rest.length + 1) = read at least ⊢
      have last := readBlockLines_in folded (max (max (indent + 1) 1).toNat read.2.1) least read.1 [] []
        (start.rest.length + 1)
      exact ⟨trivial, last⟩
  | some increment =>
      have last := readBlockLines_in folded ((max (indent + 1) 1).toNat + increment - 1) (given increment)
        (start.readBlockBreaks ((max (indent + 1) 1).toNat + increment - 1) [] (start.rest.length + 1)).1 [] []
        (start.rest.length + 1)
      exact ⟨trivial, last⟩

/-! ### Quoted scalars -/

theorem yields_charOfCode (escaped : '\\' ∈ source) (code : Nat) :
    Yields (Error.Within source) (fun _ => True) (charOfCode code) := by
  rw [charOfCode]
  split
  · trivial
  · split
    · trivial
    · exact escaped

theorem reads_quotedBreaks (inside : cursor.In source) (breaks : List Char) (fuel : Nat) :
    Reads source (fun _ => True) (cursor.readQuotedBreaks breaks fuel) := by
  induction fuel generalizing cursor breaks with
  | zero => exact ⟨trivial, inside⟩
  | succ fuel ih =>
      rw [readQuotedBreaks]
      split
      · trivial
      · dsimp only
        split
        · exact ih (inside.skipWhile _).lineBreak _
        · exact ⟨trivial, inside.skipWhile _⟩

theorem reads_quotedEscape (inside : cursor.In source) (escaped : '\\' ∈ source) :
    Reads source (fun _ => True) cursor.readQuotedEscape := by
  rw [readQuotedEscape]
  dsimp only
  split
  · exact ⟨trivial, inside.step⟩
  · split
    · exact (yields_charOfCode escaped _).bind fun _ _ => ⟨trivial, inside.skip _⟩
    · trivial
  · split
    · exact reads_quotedBreaks inside.lineBreak _ _
    · trivial

theorem reads_quotedSpaces (inside : cursor.In source) :
    Reads source (fun _ => True) cursor.readQuotedSpaces := by
  rw [readQuotedSpaces]
  dsimp only
  split
  · trivial
  · split
    · exact (reads_quotedBreaks (inside.span _).lineBreak _ _).bind fun _ read => ⟨trivial, read.2⟩
    · exact ⟨trivial, inside.span _⟩

theorem reads_quotedRest (double : Bool) (inside : cursor.In source) (text : List Char) (fuel : Nat) :
    Reads source (fun _ => True) (readQuotedRest double cursor text fuel) := by
  induction fuel generalizing cursor text with
  | zero => trivial
  | succ fuel ih =>
      have next := inside.span fun c => !(c = '\'' || c = '"' || c = '\\' || isBlankOrEnd c)
      rw [readQuotedRest]
      dsimp only
      split
      · exact ih (next.skip 2) _
      · split
        · exact ih next.step _
        · split
          · rename_i escape
            have escaped := mem_of_peek next (of_decide_eq_true (Bool.and_eq_true_iff.mp escape).2) (by decide)
            exact (reads_quotedEscape next.step escaped).bind fun _ read => ih read.2 _
          · generalize (if double = true then '"' else '\'') = mark
            split
            · exact ⟨trivial, next.step⟩
            · exact (reads_quotedSpaces next).bind fun _ read => ih read.2 _

theorem reads_quoted (inside : cursor.In source) (double : Bool) :
    Reads source (Token.Within source) (cursor.readQuoted double) := by
  rw [readQuoted]
  exact (reads_quotedRest double inside.step _ _).bind fun _ read => ⟨trivial, read.2⟩

/-! ### Plain scalars -/

theorem plainWord_begins (flow : Bool) (text : List Char) : plainWord flow text <+: text := by
  induction text with
  | nil => exact List.nil_prefix
  | cons c rest ih =>
      rw [plainWord]
      split
      · exact List.nil_prefix
      · exact (List.prefix_cons_inj c).mpr ih

theorem isBlankOrEnd_of_mem_plainWord {flow : Bool} {text : List Char} {c : Char}
    (member : c ∈ plainWord flow text) : isBlankOrEnd c = false := by
  induction text with
  | nil => exact absurd member List.not_mem_nil
  | cons first rest ih =>
      rw [plainWord] at member
      split at member
      · exact absurd member List.not_mem_nil
      · rename_i inner
        rcases List.mem_cons.mp member with rfl | later
        · simp only [Bool.or_eq_true, not_or, Bool.not_eq_true] at inner
          exact inner.1.1
        · exact ih later

theorem colon_not_mem_lineBreak (cursor : Cursor) : ':' ∉ cursor.lineBreak.1 := by
  have feed : ':' ∉ ['\n'] := by decide
  rw [Cursor.lineBreak]
  split
  · exact feed
  · split
    · exact feed
    · split
      · rename_i paragraph
        intro colon
        rw [← List.mem_singleton.mp colon] at paragraph
        exact absurd paragraph (by decide)
      · exact List.not_mem_nil

theorem readPlainBreaks_in (inside : cursor.In source) {breaks : List Char} (blank : ':' ∉ breaks) (fuel : Nat) :
    (∀ found, (cursor.readPlainBreaks breaks fuel).1 = some found → ':' ∉ found) ∧
      (cursor.readPlainBreaks breaks fuel).2.In source := by
  induction fuel generalizing cursor breaks with
  | zero =>
      refine ⟨?_, inside⟩
      rintro found ⟨⟩
      exact blank
  | succ fuel ih =>
      rw [readPlainBreaks]
      split
      · exact ih inside.step blank
      · split
        · dsimp only
          split
          · exact ⟨nofun, inside.lineBreak⟩
          · apply ih inside.lineBreak
            rw [List.mem_append, not_or]
            exact ⟨blank, colon_not_mem_lineBreak cursor⟩
        · refine ⟨?_, inside⟩
          rintro found ⟨⟩
          exact blank

theorem readPlainSpaces_in (inside : cursor.In source) :
    ':' ∉ cursor.readPlainSpaces.1 ∧ cursor.readPlainSpaces.2.2.In source := by
  have next := inside.span (· = ' ')
  have first := colon_not_mem_lineBreak (cursor.span (· = ' ')).2
  have read := readPlainBreaks_in next.lineBreak (List.not_mem_nil (a := ':'))
    ((cursor.span (· = ' ')).2.lineBreak.2.rest.length + 1)
  rw [readPlainSpaces]
  dsimp only
  split
  · split
    · exact ⟨List.not_mem_nil, next.lineBreak⟩
    · split
      · rename_i later found
        rw [found] at read
        exact ⟨List.not_mem_nil, read.2⟩
      · rename_i breaks later found
        rw [found] at read
        refine ⟨?_, read.2⟩
        rw [List.mem_append, not_or]
        refine ⟨?_, read.1 breaks rfl⟩
        split
        · exact first
        · split <;> decide
  · refine ⟨fun colon => ?_, next⟩
    exact absurd (List.all_eq_true.mp List.all_takeWhile ':' colon) (by decide)

theorem readPlainRest_in (flow : Bool) (indent : Int) (inside : cursor.In source) (text : List Char)
    {spaces : List Char} (blank : ':' ∉ spaces) (broken : Bool) (fuel : Nat) :
    (readPlainRest flow indent cursor text spaces broken fuel).2.2.In source ∧
      (readPlainRest flow indent cursor text spaces broken fuel).1.count ':' +
        (readPlainRest flow indent cursor text spaces broken fuel).2.2.rest.count ':' ≤
          text.count ':' + cursor.rest.count ':' ∧
      (text.getLast? ≠ some '\n' →
        (readPlainRest flow indent cursor text spaces broken fuel).1.getLast? ≠ some '\n') := by
  -- The colons read and those ahead are counted together: words are cut from what is ahead, and blanks add none.
  induction fuel generalizing cursor text spaces broken with
  | zero => exact ⟨inside, Nat.le_refl _, id⟩
  | succ fuel ih =>
      rw [readPlainRest]
      generalize read : (if cursor.peek = '#' then [] else plainWord flow cursor.rest) = word
      have begins : word <+: cursor.rest := by
        rw [← read]
        split
        · exact List.nil_prefix
        · exact plainWord_begins flow cursor.rest
      have inner : ∀ c ∈ word, isBlankOrEnd c = false := by
        rw [← read]
        split
        · exact nofun
        · exact fun c => isBlankOrEnd_of_mem_plainWord
      obtain ⟨more, whole⟩ := begins
      have left : (cursor.skip word.length).rest = more := by
        rw [rest_skip, ← whole, List.drop_left]
      have next := readPlainSpaces_in (inside.skip word.length)
      have start : (cursor.skip word.length).In more := by
        rw [In, left]
      have further := (readPlainSpaces_in start).2
      dsimp only
      split
      · exact ⟨inside, Nat.le_refl _, id⟩
      · rename_i nonempty
        have counted : (text ++ spaces ++ word).count ':' = text.count ':' + word.count ':' := by
          rw [List.count_append, List.count_append, List.count_eq_zero.mpr blank, Nat.add_zero]
        have fewer := further.sublist.count_le ':'
        have ended : (text ++ spaces ++ word).getLast? ≠ some '\n' := by
          intro feed
          rw [List.getLast?_append_of_ne_nil _ (by simpa using nonempty)] at feed
          exact absurd (inner '\n' (List.mem_of_getLast? feed)) (by decide)
        rw [← whole, List.count_append]
        have total : (text ++ spaces ++ word).count ':' +
            (cursor.skip word.length).readPlainSpaces.2.2.rest.count ':' ≤
              text.count ':' + (word.count ':' + more.count ':') := by
          omega
        split
        · exact ⟨next.2, total, fun _ => ended⟩
        · obtain ⟨within, bounded, closed⟩ := ih next.2 (text ++ spaces ++ word) next.1
            (cursor.skip word.length).readPlainSpaces.2.1
          exact ⟨within, bounded.trans total, fun _ => closed ended⟩

theorem readPlain_in (inside : cursor.In source) (flow : Bool) (indent : Int) :
    (cursor.readPlain flow indent).1.Within source ∧ (cursor.readPlain flow indent).2.2.In source := by
  obtain ⟨within, bounded, closed⟩ := readPlainRest_in flow (indent + 1) inside []
    (List.not_mem_nil (a := ':')) false (cursor.rest.length + 1)
  refine ⟨⟨?_, ?_⟩, within⟩
  · rw [String.toList_ofList]
    exact closed (by decide)
  · rw [String.toList_ofList]
    have fewer := inside.sublist.count_le ':'
    rw [List.count_nil, Nat.zero_add] at bounded
    exact (Nat.le_add_right _ _).trans (bounded.trans fewer)

end Cursor

end Yaml

end TreeExport
