import TreeExport.Yaml.Token

/-!
The tokens of a whole text. Indentation becomes block starts and ends, and a key that is followed by a
colon on its own line is announced in front of what it starts with.
-/

namespace TreeExport

namespace Yaml

/-- A token that may turn out to start a key: its place among the tokens and in the text. A needed key
starts a line of a block. -/
structure PendingKey where
  token : Nat
  needed : Bool
  index : Nat
  line : Nat
  column : Nat

def keyLimit : Nat := 1024

structure TokenStream where
  tokens : List Token
  fault : Option Error

/-- The state of a scan: the place, the tokens before it, the columns of the open blocks from the
inside out, the pending key, and those of the brackets around. -/
structure Scan where
  cursor : Cursor
  tokens : Array Token
  indents : List Nat
  keyAllowed : Bool
  pending : Option PendingKey
  outer : List (Option PendingKey)

namespace Scan

def start (text : List Char) : Scan :=
  let cursor := Cursor.start text
  let cursor := if cursor.peek = '\uFEFF' then cursor.step else cursor
  ⟨cursor, #[], [], true, none, []⟩

def inFlow (scan : Scan) : Bool := !scan.outer.isEmpty

def indent (scan : Scan) : Int :=
  match scan.indents with
  | [] => -1
  | column :: _ => column

def push (scan : Scan) (token : Token) : Scan :=
  { scan with tokens := scan.tokens.push token }

/-- The place behind blanks, comments and line breaks. A key may stand on a new line. -/
def skipBlanks (scan : Scan) : (fuel : Nat) → Scan
  | 0 => scan
  | fuel + 1 =>
    let cursor := scan.cursor.skipWhile (· = ' ')
    let cursor := if cursor.peek = '#' then cursor.skipWhile (!isBreakOrEnd ·) else cursor
    if isBreak cursor.peek then
      skipBlanks { scan with
        cursor := cursor.lineBreak.2, keyAllowed := scan.keyAllowed || !scan.inFlow } fuel
    else { scan with cursor }

def isStale (scan : Scan) (key : PendingKey) : Bool :=
  key.line != scan.cursor.line || key.index + keyLimit < scan.cursor.index

def release (key : PendingKey) : Except Error (Option PendingKey) :=
  if key.needed then .error .malformed else .ok none

def refreshKey (scan : Scan) : Option PendingKey → Except Error (Option PendingKey)
  | none => .ok none
  | some key => if scan.isStale key then release key else .ok (some key)

def refreshKeys (scan : Scan) : Except Error Scan := do
  let outer ← scan.outer.mapM scan.refreshKey
  let pending ← scan.refreshKey scan.pending
  return { scan with pending, outer }

def dropKey (scan : Scan) : Except Error Scan := do
  match scan.pending with
  | none => return scan
  | some key => return { scan with pending := ← release key }

def saveKey (scan : Scan) : Except Error Scan := do
  if scan.keyAllowed then
    let scan ← scan.dropKey
    let cursor := scan.cursor
    let needed := !scan.inFlow && scan.indent == (cursor.column : Int)
    return { scan with
      pending := some ⟨scan.tokens.size, needed, cursor.index, cursor.line, cursor.column⟩ }
  else return scan

def unwind (scan : Scan) (inside : Nat → Bool) : Scan :=
  if scan.inFlow then scan
  else
    let ended := (scan.indents.takeWhile inside).length
    { scan with
      indents := scan.indents.drop ended
      tokens := scan.tokens ++ Array.replicate ended .blockEnd }

def openBlock (scan : Scan) (column place : Nat) (token : Token) : Scan :=
  if scan.indent < (column : Int) then
    { scan with
      indents := column :: scan.indents
      tokens := scan.tokens.insertIdxIfInBounds place token }
  else scan

/-- Starts a block at the current place if it is deeper than the innermost one. A block starts only
where a key may stand. -/
def openBlockHere (scan : Scan) (token : Token) : Except Error Scan :=
  if scan.inFlow then .ok scan
  else if scan.keyAllowed then .ok (scan.openBlock scan.cursor.column scan.tokens.size token)
  else .error .malformed

def mark (scan : Scan) (token : Token) (length : Nat) : Scan :=
  { scan with cursor := scan.cursor.skip length }.push token

def finish (scan : Scan) : Except Error Scan := do
  let scan ← (scan.unwind fun _ => true).dropKey
  return scan.push .streamEnd

def fetchOutside (scan : Scan) (read : Cursor → Except Error (Token × Cursor)) :
    Except Error Scan := do
  let scan ← (scan.unwind fun _ => true).dropKey
  let (token, cursor) ← read scan.cursor
  return { scan with cursor, keyAllowed := false }.push token

def fetchNode (scan : Scan) (read : Cursor → Except Error (Token × Cursor)) :
    Except Error Scan := do
  let scan ← scan.saveKey
  let (token, cursor) ← read scan.cursor
  return { scan with cursor, keyAllowed := false }.push token

def fetchOpening (scan : Scan) (token : Token) : Except Error Scan := do
  let scan ← scan.saveKey
  return { scan with
    keyAllowed := true, pending := none, outer := scan.pending :: scan.outer }.mark token 1

def fetchClosing (scan : Scan) (token : Token) : Except Error Scan := do
  let scan ← scan.dropKey
  match scan.outer with
  | [] => throw .malformed
  | pending :: outer => return { scan with keyAllowed := false, pending, outer }.mark token 1

def fetchFlowEntry (scan : Scan) : Except Error Scan := do
  let scan ← scan.dropKey
  return { scan with keyAllowed := true }.mark .flowEntry 1

def fetchBlockEntry (scan : Scan) : Except Error Scan := do
  let scan ← scan.openBlockHere .blockSequenceStart
  let scan ← scan.dropKey
  return { scan with keyAllowed := true }.mark .blockEntry 1

def fetchKey (scan : Scan) : Except Error Scan := do
  let scan ← scan.openBlockHere .blockMappingStart
  let scan ← scan.dropKey
  return { scan with keyAllowed := !scan.inFlow }.mark .key 1

/-- The colon behind a key. The pending key is one; without it, the key is empty. -/
def fetchValue (scan : Scan) : Except Error Scan := do
  match scan.pending with
  | some key =>
    let scan := { scan with
      pending := none
      keyAllowed := false
      tokens := scan.tokens.insertIdxIfInBounds key.token .key }
    let scan :=
      if scan.inFlow then scan else scan.openBlock key.column key.token .blockMappingStart
    return scan.mark .value 1
  | none =>
    let scan ← scan.openBlockHere .blockMappingStart
    return { scan with keyAllowed := !scan.inFlow }.mark .value 1

def fetchBlockScalar (scan : Scan) (folded : Bool) : Except Error Scan := do
  let scan ← scan.dropKey
  let (token, cursor) ← scan.cursor.readBlockScalar folded scan.indent
  return { scan with cursor, keyAllowed := true }.push token

/-- A plain scalar, behind which a key may stand if it is a new line. -/
def fetchPlain (scan : Scan) : Except Error Scan := do
  let scan ← scan.saveKey
  let (token, broken, cursor) := scan.cursor.readPlain scan.inFlow scan.indent
  return { scan with cursor, keyAllowed := broken }.push token

def fetch (scan : Scan) : Except Error Scan :=
  let cursor := scan.cursor
  let c := cursor.peek
  let beforeBlank := isBlankOrEnd (cursor.peekAt 1)
  let atLineStart := cursor.column == 0
  if atLineStart && c = '%' then scan.fetchOutside Cursor.readDirective
  else if atLineStart && cursor.atMarks '-' then
    scan.fetchOutside fun cursor => .ok (.documentStart, cursor.skip 3)
  else if atLineStart && cursor.atMarks '.' then
    scan.fetchOutside fun cursor => .ok (.documentEnd, cursor.skip 3)
  else if c = '[' then scan.fetchOpening .flowSequenceStart
  else if c = '\x7b' then scan.fetchOpening .flowMappingStart
  else if c = ']' then scan.fetchClosing .flowSequenceEnd
  else if c = '\x7d' then scan.fetchClosing .flowMappingEnd
  else if c = ',' then scan.fetchFlowEntry
  else if c = '-' && beforeBlank then scan.fetchBlockEntry
  else if c = '?' && (scan.inFlow || beforeBlank) then scan.fetchKey
  else if c = ':' && (scan.inFlow || beforeBlank) then scan.fetchValue
  else if c = '*' then
    scan.fetchNode fun cursor => (cursor.readAnchor).map fun (name, cursor) => (.alias name, cursor)
  else if c = '&' then
    scan.fetchNode fun cursor =>
      (cursor.readAnchor).map fun (name, cursor) => (.anchor name, cursor)
  else if c = '!' then scan.fetchNode Cursor.readTag
  else if c = '|' && !scan.inFlow then scan.fetchBlockScalar false
  else if c = '>' && !scan.inFlow then scan.fetchBlockScalar true
  else if c = '\'' then scan.fetchNode (·.readQuoted false)
  else if c = '"' then scan.fetchNode (·.readQuoted true)
  else if cursor.startsPlain scan.inFlow then scan.fetchPlain
  else .error .malformed

def next (scan : Scan) : Except Error Scan := do
  let scan ← (scan.skipBlanks (scan.cursor.rest.length + 1)).refreshKeys
  let column := scan.cursor.column
  let scan := scan.unwind (column < ·)
  if scan.cursor.peek = endMark then scan.finish else scan.fetch

def run (scan : Scan) : (fuel : Nat) → TokenStream
  | 0 => ⟨scan.tokens.toList, some .malformed⟩
  | fuel + 1 =>
    match scan.next with
    | .error error => ⟨scan.tokens.toList, some error⟩
    | .ok scan =>
      if scan.tokens.back? = some .streamEnd then ⟨scan.tokens.toList, none⟩ else scan.run fuel

end Scan

def TokenStream.ofText (text : List Char) : TokenStream :=
  if text.all isAllowed then (Scan.start text).run (text.length + 1) else ⟨[], some .malformed⟩

end Yaml

end TreeExport
