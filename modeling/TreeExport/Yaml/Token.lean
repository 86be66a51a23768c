import TreeExport.Yaml.Cursor

/-!
The tokens of YAML and the ones that are recognised from the characters alone: names, tags and
directives, and scalars in all their styles.
-/

namespace TreeExport

namespace Yaml

inductive Directive where
  | version (major : Nat)
  | tag (handle start : String)
  | other
  deriving DecidableEq, Repr

inductive Token where
  | directive (directive : Directive)
  | documentStart
  | documentEnd
  | streamEnd
  | blockSequenceStart
  | blockMappingStart
  | blockEnd
  | flowSequenceStart
  | flowSequenceEnd
  | flowMappingStart
  | flowMappingEnd
  | blockEntry
  | flowEntry
  | key
  | value
  | alias (name : String)
  | anchor (name : String)
  | tag (handle : Option String) (suffix : String)
  | scalar (text : String) (plain : Bool)
  deriving DecidableEq, Repr

namespace Cursor

def readName (cursor : Cursor) (follows : Char → Bool) : Except Error (String × Cursor) :=
  let (name, cursor) := cursor.span isNameChar
  if name.isEmpty || !follows cursor.peek then .error .malformed
  else .ok (String.ofList name, cursor)

def followsAnchor (c : Char) : Bool := isBlankOrEnd c || "?:,]\x7d%@`".toList.contains c

def readAnchor (cursor : Cursor) : Except Error (String × Cursor) :=
  cursor.step.readName followsAnchor

def readEscapedBytes (cursor : Cursor) : (fuel : Nat) → Except Error (List UInt8 × Cursor)
  | 0 => .ok ([], cursor)
  | fuel + 1 =>
    if cursor.peek = '%' then
      match Json.hexValue? (cursor.peekAt 1), Json.hexValue? (cursor.peekAt 2) with
      | some high, some low => do
        let (bytes, cursor) ← (cursor.skip 3).readEscapedBytes fuel
        return ((high * 16 + low).toUInt8 :: bytes, cursor)
      | _, _ => .error .malformed
    else .ok ([], cursor)

def readUriPieces (cursor : Cursor) : (fuel : Nat) → Except Error (List Char × Cursor)
  | 0 => .ok ([], cursor)
  | fuel + 1 =>
    let (plain, cursor) := cursor.span fun c => isUriChar c && c != '%'
    if cursor.peek = '%' then do
      let (bytes, cursor) ← cursor.readEscapedBytes cursor.rest.length
      match Text.decodeUtf8 ⟨bytes.toArray⟩ with
      | .error _ => throw .malformed
      | .ok text =>
        let (more, cursor) ← cursor.readUriPieces fuel
        return (plain ++ text.toList ++ more, cursor)
    else .ok (plain, cursor)

def readUri (cursor : Cursor) : Except Error (String × Cursor) :=
  if isUriChar cursor.peek then do
    let (text, cursor) ← cursor.readUriPieces cursor.rest.length
    return (String.ofList text, cursor)
  else .error .malformed

def readTagHandle (cursor : Cursor) : Except Error (String × Cursor) :=
  if cursor.peek != '!' then .error .malformed
  else if cursor.peekAt 1 = ' ' then .ok ("!", cursor.step)
  else
    let (name, after) := cursor.step.span isNameChar
    if after.peek = '!' then .ok (String.ofList ('!' :: name ++ ['!']), after.step)
    else .error .malformed

def readTag (cursor : Cursor) : Except Error (Token × Cursor) := do
  let c := cursor.peekAt 1
  let (token, cursor) ←
    if c = '<' then
      let (suffix, cursor) ← (cursor.skip 2).readUri
      if cursor.peek = '>' then pure (Token.tag none suffix, cursor.step) else throw .malformed
    else if isBlankOrEnd c then pure (Token.tag none "!", cursor.step)
    else
      let word := (cursor.rest.drop 1).takeWhile (!isSpaceOrEnd ·)
      let (handle, cursor) ←
        if word.contains '!' then cursor.readTagHandle else pure ("!", cursor.step)
      let (suffix, cursor) ← cursor.readUri
      pure (Token.tag (some handle) suffix, cursor)
  if isSpaceOrEnd cursor.peek then return (token, cursor) else throw .malformed

def readVersionNumber (cursor : Cursor) : Except Error (Nat × Cursor) :=
  let (digits, cursor) := cursor.span Json.isDigit
  if digits.isEmpty then .error .malformed
  else if Json.digitLimit < digits.length then .error (.numeral (.longInteger digits.length))
  else .ok (Nat.ofDigitChars 10 digits 0, cursor)

def readDirective (cursor : Cursor) : Except Error (Token × Cursor) := do
  let (name, cursor) ← cursor.step.readName isSpaceOrEnd
  let (directive, cursor) ←
    if name = "YAML" then
      let (major, cursor) ← (cursor.skipWhile (· = ' ')).readVersionNumber
      if cursor.peek != '.' then throw .malformed
      let (_, cursor) ← cursor.step.readVersionNumber
      if !isSpaceOrEnd cursor.peek then throw .malformed
      pure (Directive.version major, cursor)
    else if name = "TAG" then
      let (handle, cursor) ← (cursor.skipWhile (· = ' ')).readTagHandle
      if cursor.peek != ' ' then throw .malformed
      let (start, cursor) ← (cursor.skipWhile (· = ' ')).readUri
      if !isSpaceOrEnd cursor.peek then throw .malformed
      pure (Directive.tag handle start, cursor)
    else pure (Directive.other, cursor.skipWhile (!isBreakOrEnd ·))
  return (.directive directive, ← cursor.skipLineEnd)

/-! ### Block scalars -/

inductive Chomping where
  | clip
  | strip
  | keep
  deriving DecidableEq

def chompingOf? (c : Char) : Option Chomping :=
  if c = '+' then some .keep else if c = '-' then some .strip else none

def readBlockHeader (cursor : Cursor) : Except Error (Chomping × Option Nat × Cursor) := do
  let digit (cursor : Cursor) : Except Error (Option Nat × Cursor) :=
    let c := cursor.peek
    if c = '0' then .error .malformed
    else if Json.isDigit c then .ok (some (c.toNat - '0'.toNat), cursor.step)
    else .ok (none, cursor)
  let (chomping, increment, cursor) ←
    match chompingOf? cursor.peek with
    | some chomping =>
      let (increment, cursor) ← digit cursor.step
      pure (chomping, increment, cursor)
    | none =>
      let (increment, cursor) ← digit cursor
      match increment, chompingOf? cursor.peek with
      | some increment, some chomping => pure (chomping, some increment, cursor.step)
      | increment, _ => pure (Chomping.clip, increment, cursor)
  if isSpaceOrEnd cursor.peek then return (chomping, increment, cursor) else throw .malformed

def readBlockIndent (cursor : Cursor) (deepest : Nat) (breaks : List Char) :
    (fuel : Nat) → List Char × Nat × Cursor
  | 0 => (breaks, deepest, cursor)
  | fuel + 1 =>
    if cursor.peek = ' ' then
      let cursor := cursor.step
      cursor.readBlockIndent (max deepest cursor.column) breaks fuel
    else if isBreak cursor.peek then
      let (lineBreak, cursor) := cursor.lineBreak
      cursor.readBlockIndent deepest (breaks ++ lineBreak) fuel
    else (breaks, deepest, cursor)

def readBlockBreaks (cursor : Cursor) (indent : Nat) (breaks : List Char) :
    (fuel : Nat) → List Char × Cursor
  | 0 => (breaks, cursor)
  | fuel + 1 =>
    let spaces := (cursor.rest.take (indent - cursor.column)).takeWhile (· = ' ')
    let cursor := cursor.skip spaces.length
    if isBreak cursor.peek then
      let (lineBreak, cursor) := cursor.lineBreak
      cursor.readBlockBreaks indent (breaks ++ lineBreak) fuel
    else (breaks, cursor)

/-- The lines of a block scalar. A folded break between two lines that start with other characters
than blanks is a space. Gives the text, the last break and the empty lines behind it. -/
def readBlockLines (folded : Bool) (indent : Nat) (cursor : Cursor) (breaks : List Char)
    (lineBreak : List Char) (text : List Char) :
    (fuel : Nat) → List Char × List Char × List Char × Cursor
  | 0 => (text, lineBreak, breaks, cursor)
  | fuel + 1 =>
    if cursor.column = indent ∧ cursor.peek ≠ endMark then
      let solid := cursor.peek ≠ ' ' ∧ cursor.peek ≠ '\t'
      let (line, cursor) := cursor.span (!isBreakOrEnd ·)
      let text := text ++ breaks ++ line
      let (lineBreak, cursor) := cursor.lineBreak
      let (breaks, cursor) := cursor.readBlockBreaks indent [] (cursor.rest.length + 1)
      if cursor.column = indent ∧ cursor.peek ≠ endMark then
        let nextSolid := cursor.peek ≠ ' ' ∧ cursor.peek ≠ '\t'
        let joint :=
          if folded ∧ lineBreak = ['\n'] ∧ solid ∧ nextSolid then
            (if breaks.isEmpty then [' '] else [])
          else lineBreak
        readBlockLines folded indent cursor breaks lineBreak (text ++ joint) fuel
      else (text, lineBreak, breaks, cursor)
    else (text, lineBreak, breaks, cursor)

def readBlockScalar (cursor : Cursor) (folded : Bool) (indent : Int) :
    Except Error (Token × Cursor) := do
  let (chomping, increment, cursor) ← cursor.step.readBlockHeader
  let cursor ← cursor.skipLineEnd
  let least := (max (indent + 1) 1).toNat
  let fuel := cursor.rest.length + 1
  let (breaks, indent, cursor) :=
    match increment with
    | none =>
      let (breaks, deepest, cursor) := cursor.readBlockIndent 0 [] fuel
      (breaks, max least deepest, cursor)
    | some increment =>
      let indent := least + increment - 1
      let (breaks, cursor) := cursor.readBlockBreaks indent [] fuel
      (breaks, indent, cursor)
  let (text, lineBreak, breaks, cursor) := readBlockLines folded indent cursor breaks [] [] fuel
  let text :=
    match chomping with
    | .strip => text
    | .clip => text ++ lineBreak
    | .keep => text ++ lineBreak ++ breaks
  return (.scalar (String.ofList text) false, cursor)

/-! ### Quoted scalars -/

def escapes : List (Char × Char) := [
  ('0', '\x00'), ('a', '\x07'), ('b', '\x08'), ('t', '\t'), ('\t', '\t'), ('n', '\n'),
  ('v', '\x0b'), ('f', '\x0c'), ('r', '\r'), ('e', '\x1b'), (' ', ' '), ('"', '"'),
  ('\\', '\\'), ('/', '/'), ('N', '\x85'), ('_', '\xa0'), ('L', '\u2028'), ('P', '\u2029')]

def codeLength? (c : Char) : Option Nat :=
  if c = 'x' then some 2 else if c = 'u' then some 4 else if c = 'U' then some 8 else none

def charOfCode (code : Nat) : Except Error Char :=
  if code < 0x110000 then .ok (Json.charOfUnit code)
  else if code < 0x80000000 then .error .codePoint
  else .error .hugeCodePoint

def readQuotedBreaks (cursor : Cursor) (breaks : List Char) :
    (fuel : Nat) → Except Error (List Char × Cursor)
  | 0 => .ok (breaks, cursor)
  | fuel + 1 =>
    if cursor.atDocumentMark then .error .malformed
    else
      let cursor := cursor.skipWhile fun c => c = ' ' || c = '\t'
      if isBreak cursor.peek then
        let (lineBreak, cursor) := cursor.lineBreak
        cursor.readQuotedBreaks (breaks ++ lineBreak) fuel
      else .ok (breaks, cursor)

def readQuotedEscape (cursor : Cursor) : Except Error (List Char × Cursor) :=
  let c := cursor.peek
  match escapes.lookup c, codeLength? c with
  | some value, _ => .ok ([value], cursor.step)
  | none, some length =>
    let digits := (cursor.rest.drop 1).take length
    let values := digits.filterMap Json.hexValue?
    if values.length = length then do
      let value ← charOfCode (values.foldl (fun code digit => code * 16 + digit) 0)
      return ([value], cursor.skip (length + 1))
    else .error .malformed
  | none, none =>
    if isBreak c then
      let (_, cursor) := cursor.lineBreak
      cursor.readQuotedBreaks [] (cursor.rest.length + 1)
    else .error .malformed

/-- The blanks and line breaks between two words of a quoted scalar. A single break is a space. -/
def readQuotedSpaces (cursor : Cursor) : Except Error (List Char × Cursor) := do
  let (spaces, cursor) := cursor.span fun c => c = ' ' || c = '\t'
  if cursor.peek = endMark then throw .malformed
  if isBreak cursor.peek then
    let (lineBreak, cursor) := cursor.lineBreak
    let (breaks, cursor) ← cursor.readQuotedBreaks [] (cursor.rest.length + 1)
    let first := if lineBreak ≠ ['\n'] then lineBreak else if breaks.isEmpty then [' '] else []
    return (first ++ breaks, cursor)
  return (spaces, cursor)

def readQuotedRest (double : Bool) (cursor : Cursor) (text : List Char) :
    (fuel : Nat) → Except Error (List Char × Cursor)
  | 0 => .error .malformed
  | fuel + 1 => do
    let (word, cursor) := cursor.span fun c =>
      !(c = '\'' || c = '"' || c = '\\' || isBlankOrEnd c)
    let text := text ++ word
    let c := cursor.peek
    if !double && c = '\'' && cursor.peekAt 1 = '\'' then
      readQuotedRest double (cursor.skip 2) (text ++ ['\'']) fuel
    else if (double && c = '\'') || (!double && (c = '"' || c = '\\')) then
      readQuotedRest double cursor.step (text ++ [c]) fuel
    else if double && c = '\\' then
      let (escaped, cursor) ← cursor.step.readQuotedEscape
      readQuotedRest double cursor (text ++ escaped) fuel
    else if c = (if double then '"' else '\'') then return (text, cursor.step)
    else
      let (spaces, cursor) ← cursor.readQuotedSpaces
      readQuotedRest double cursor (text ++ spaces) fuel

def readQuoted (cursor : Cursor) (double : Bool) : Except Error (Token × Cursor) := do
  let (text, cursor) ← readQuotedRest double cursor.step [] (cursor.rest.length + 1)
  return (.scalar (String.ofList text) false, cursor)

/-! ### Plain scalars -/

def startsPlain (cursor : Cursor) (flow : Bool) : Bool :=
  let c := cursor.peek
  let indicator := isBlankOrEnd c || "-?:,[]\x7b\x7d#&*!|>'\"%@`".toList.contains c
  !indicator ||
    (!isBlankOrEnd (cursor.peekAt 1) && (c = '-' || (!flow && (c = '?' || c = ':'))))

def isFlowMark (c : Char) : Bool := c = ',' || c = '[' || c = ']' || c = '\x7b' || c = '\x7d'

def plainWord (flow : Bool) : List Char → List Char
  | [] => []
  | c :: rest =>
    let next := rest.headD endMark
    if isBlankOrEnd c || (c = ':' && (isBlankOrEnd next || (flow && isFlowMark next))) ||
        (flow && (c = '?' || isFlowMark c)) then []
    else c :: plainWord flow rest

/-- Line breaks and spaces behind the first break inside a plain scalar; nothing where a document's
start or end comes. -/
def readPlainBreaks (cursor : Cursor) (breaks : List Char) :
    (fuel : Nat) → Option (List Char) × Cursor
  | 0 => (some breaks, cursor)
  | fuel + 1 =>
    if cursor.peek = ' ' then cursor.step.readPlainBreaks breaks fuel
    else if isBreak cursor.peek then
      let (lineBreak, cursor) := cursor.lineBreak
      if cursor.atDocumentMark then (none, cursor)
      else cursor.readPlainBreaks (breaks ++ lineBreak) fuel
    else (some breaks, cursor)

def readPlainSpaces (cursor : Cursor) : List Char × Bool × Cursor :=
  let (spaces, cursor) := cursor.span (· = ' ')
  if isBreak cursor.peek then
    let (lineBreak, cursor) := cursor.lineBreak
    if cursor.atDocumentMark then ([], true, cursor)
    else
      match cursor.readPlainBreaks [] (cursor.rest.length + 1) with
      | (none, cursor) => ([], true, cursor)
      | (some breaks, cursor) =>
        let first :=
          if lineBreak ≠ ['\n'] then lineBreak else if breaks.isEmpty then [' '] else []
        (first ++ breaks, true, cursor)
  else (spaces, false, cursor)

/-- The rest of a plain scalar: its text, whether it ended behind a line break, and the place behind
it. -/
def readPlainRest (flow : Bool) (indent : Int) (cursor : Cursor) (text spaces : List Char)
    (broken : Bool) : (fuel : Nat) → List Char × Bool × Cursor
  | 0 => (text, broken, cursor)
  | fuel + 1 =>
    let word := if cursor.peek = '#' then [] else plainWord flow cursor.rest
    if word.isEmpty then (text, broken, cursor)
    else
      let text := text ++ spaces ++ word
      let (spaces, broken, cursor) := (cursor.skip word.length).readPlainSpaces
      if spaces.isEmpty || cursor.peek = '#' || (!flow && (cursor.column : Int) < indent) then
        (text, broken, cursor)
      else readPlainRest flow indent cursor text spaces broken fuel

def readPlain (cursor : Cursor) (flow : Bool) (indent : Int) : Token × Bool × Cursor :=
  let (text, broken, cursor) :=
    readPlainRest flow (indent + 1) cursor [] [] false (cursor.rest.length + 1)
  (.scalar (String.ofList text) true, broken, cursor)

end Cursor

end Yaml

end TreeExport
