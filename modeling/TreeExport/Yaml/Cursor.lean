import TreeExport.Calendar
import TreeExport.Json
import TreeExport.Numeral
import TreeExport.Text.Encoding

/-!
A place in a YAML text with the classes of characters that the format tells apart, and the errors of
reading it. The text ends with an endless run of zero characters, which it cannot hold otherwise.
-/

namespace TreeExport

namespace Yaml

/-- Why a text is not read. A text that breaks the rules of the format is malformed; the others arise
from a single scalar. -/
inductive Error where
  | malformed
  | calendar (cause : CalendarError)
  | numeral (cause : Numeral.Error)
  | unknownBoolean (text : String)
  | emptyNumber
  | largeNumber
  | noTimestamp
  | timestampOfCollection
  | codePoint
  | hugeCodePoint
  deriving DecidableEq, Repr

def Error.message : Error → String
  | .malformed => ""
  | .calendar cause => cause.message
  | .numeral cause => cause.message
  | .unknownBoolean text => String.ofList (Text.quoted text.toList)
  | .emptyNumber => "string index out of range"
  | .largeNumber => "int too large to convert to float"
  | .noTimestamp => "'NoneType' object has no attribute 'groupdict'"
  | .timestampOfCollection => "expected string or bytes-like object, got 'list'"
  | .codePoint => "chr() arg not in range(0x110000)"
  | .hugeCodePoint => "Python int too large to convert to C int"

def endMark : Char := '\x00'

def isBreak (c : Char) : Bool :=
  c = '\n' || c = '\r' || c = '\x85' || c = '\u2028' || c = '\u2029'

def isBreakOrEnd (c : Char) : Bool := c = endMark || isBreak c

def isSpaceOrEnd (c : Char) : Bool := c = ' ' || isBreakOrEnd c

def isBlankOrEnd (c : Char) : Bool := c = '\t' || isSpaceOrEnd c

def isNameChar (c : Char) : Bool :=
  ('0' ≤ c && c ≤ '9') || ('A' ≤ c && c ≤ 'Z') || ('a' ≤ c && c ≤ 'z') || c = '-' || c = '_'

def uriMarks : List Char := ";/?:@&=+$,.!~*'()[]%".toList

def isUriChar (c : Char) : Bool := isNameChar c || uriMarks.contains c

def isAllowed (c : Char) : Bool :=
  let code := c.toNat
  code == 0x09 || code == 0x0A || code == 0x0D || (0x20 ≤ code && code ≤ 0x7E) || code == 0x85 ||
    (0xA0 ≤ code && code ≤ 0xD7FF) || (0xE000 ≤ code && code ≤ 0xFFFD) || 0x10000 ≤ code

structure Cursor where
  rest : List Char
  index : Nat
  line : Nat
  column : Nat

namespace Cursor

def start (text : List Char) : Cursor := ⟨text, 0, 0, 0⟩

def peekAt (cursor : Cursor) (ahead : Nat) : Char := (cursor.rest[ahead]?).getD endMark

def peek (cursor : Cursor) : Char := cursor.rest.headD endMark

def step (cursor : Cursor) : Cursor :=
  match cursor.rest with
  | [] => cursor
  | c :: rest =>
    if isBreak c && !(c = '\r' && rest.headD endMark = '\n') then
      ⟨rest, cursor.index + 1, cursor.line + 1, 0⟩
    else if c = '\uFEFF' then ⟨rest, cursor.index + 1, cursor.line, cursor.column⟩
    else ⟨rest, cursor.index + 1, cursor.line, cursor.column + 1⟩

def skip (cursor : Cursor) : (count : Nat) → Cursor
  | 0 => cursor
  | count + 1 => cursor.step.skip count

def span (cursor : Cursor) (inside : Char → Bool) : List Char × Cursor :=
  let run := cursor.rest.takeWhile inside
  (run, cursor.skip run.length)

def skipWhile (cursor : Cursor) (inside : Char → Bool) : Cursor := (cursor.span inside).2

def lineBreak (cursor : Cursor) : List Char × Cursor :=
  let c := cursor.peek
  if c = '\r' && cursor.peekAt 1 = '\n' then (['\n'], cursor.skip 2)
  else if c = '\r' || c = '\n' || c = '\x85' then (['\n'], cursor.step)
  else if c = '\u2028' || c = '\u2029' then ([c], cursor.step)
  else ([], cursor)

def atMarks (cursor : Cursor) (mark : Char) : Bool :=
  cursor.rest.take 3 == [mark, mark, mark] && isBlankOrEnd (cursor.peekAt 3)

def atDocumentMark (cursor : Cursor) : Bool := cursor.atMarks '-' || cursor.atMarks '.'

/-- The place behind spaces and a comment, which must be the rest of a line, and its break. -/
def skipLineEnd (cursor : Cursor) : Except Error Cursor :=
  let cursor := cursor.skipWhile (· = ' ')
  let cursor := if cursor.peek = '#' then cursor.skipWhile (!isBreakOrEnd ·) else cursor
  if isBreakOrEnd cursor.peek then .ok cursor.lineBreak.2 else .error .malformed

end Cursor

end Yaml

end TreeExport
