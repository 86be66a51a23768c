import TreeExport.Console.Emoji
import TreeExport.Text.Split
import TreeExport.Text.Blank

/-!
Style tags in console texts. A tag is a word in brackets; a backslash in front of it makes it plain
text, and two backslashes stand for one. Texts from outside are escaped, so that their brackets are
printed as they are.
-/

namespace TreeExport

namespace Console

inductive Piece where
  | plain (text : List Char)
  | tag (slashes : Nat) (name : List Char)
  deriving DecidableEq, Repr

def startsTag (c : Char) : Bool := ('a' ≤ c && c ≤ 'z') || c = '#' || c = '/' || c = '@'

def tagAt? : List Char → Option (List Char)
  | '[' :: c :: rest =>
    let more := rest.takeWhile fun c => c != ']' && c != '['
    if startsTag c && (rest.drop more.length).head? == some ']' then some (c :: more) else none
  | _ => none

def plainPiece (reversed : List Char) : List Piece :=
  if reversed.isEmpty then [] else [.plain reversed.reverse]

/-- The pieces of a text behind plain characters, which come reversed, and some backslashes. -/
def piecesFrom (before : List Char) (slashes : Nat) (text : List Char) : List Piece :=
  match text with
  | [] => plainPiece (List.replicate slashes '\\' ++ before)
  | c :: rest =>
    if c = '\\' then piecesFrom before (slashes + 1) rest
    else
      match tagAt? (c :: rest) with
      | some name => plainPiece before ++ .tag slashes name :: piecesFrom [] 0 (rest.drop (name.length + 1))
      | none => piecesFrom (c :: List.replicate slashes '\\' ++ before) 0 rest
termination_by text.length
decreasing_by all_goals simp_wf; try omega

def pieces (text : List Char) : List Piece := piecesFrom [] 0 text

namespace Piece

def bracketed (name : List Char) : List Char := '[' :: name ++ [']']

def source : Piece → List Char
  | .plain text => text
  | .tag slashes name => List.replicate slashes '\\' ++ bracketed name

def escaped : Piece → List Char
  | .plain text => text
  | .tag slashes name => List.replicate (2 * slashes + 1) '\\' ++ bracketed name

end Piece

/-- A text whose tags are made plain. A single backslash at its end is doubled, so that it does not
make a tag behind it plain. -/
def escape (text : String) : String :=
  let chars := (pieces text.toList).flatMap Piece.escaped
  let reversed := chars.reverse
  let single := reversed.head? == some '\\' && reversed[1]? != some '\\'
  String.ofList (if single then chars ++ ['\\'] else chars)

/-! ### Styles -/

def attributeNames : List (String × String) := [
  ("b", "bold"), ("d", "dim"), ("i", "italic"), ("u", "underline"), ("uu", "underline2"),
  ("r", "reverse"), ("c", "conceal"), ("s", "strike"), ("o", "overline")]

def attributeOrder : List String := [
  "bold", "dim", "italic", "underline", "blink", "blink2", "reverse", "conceal", "strike",
  "underline2", "frame", "encircle", "overline"]

def wordsOf (text : List Char) : List String :=
  let spaced := text.map fun c => if Text.isBlank c then ' ' else c
  ((Text.split ' ' spaced).filter (!·.isEmpty)).map String.ofList

def styleName (name : List Char) : List String :=
  let words := (wordsOf (name.map Char.toLower)).map fun word =>
    (attributeNames.lookup word).getD word
  attributeOrder.filter words.contains ++ words.filter (!attributeOrder.contains ·)

inductive MarkupError where
  | unopened (tag : String) (position : Nat)
  | nothingOpen (position : Nat)
  deriving DecidableEq, Repr

def MarkupError.message : MarkupError → String
  | .unopened tag position =>
    s!"closing tag '{tag}' at position {position} doesn't match any open tag"
  | .nothingOpen position => s!"closing tag '[/]' at position {position} has nothing to close"

def unescapeBrackets : List Char → List Char
  | [] => []
  | '\\' :: '[' :: rest => '[' :: unescapeBrackets rest
  | c :: rest => c :: unescapeBrackets rest

def applyTag (opened : List (List String)) (position : Nat) (name : List Char) :
    Except MarkupError (List (List String)) :=
  match name.takeWhile (· != '=') with
  | '/' :: closed =>
    let closed := Text.trimEnds Text.isBlank closed
    if closed.isEmpty then
      match opened with
      | [] => .error (.nothingOpen position)
      | _ :: outer => .ok outer
    else if opened.contains (styleName closed) then .ok (opened.erase (styleName closed))
    else .error (.unopened (String.ofList (Piece.bracketed name)) position)
  | word => .ok (styleName word :: opened)

/-- The printed characters of pieces from a position on, inside some open styles. What is plain in a piece
is shown in the way given. -/
def renderPieces (display : List Char → List Char) (opened : List (List String)) (position : Nat) :
    List Piece → Except MarkupError (List Char)
  | [] => .ok []
  | piece :: rest => do
    let next := position + piece.source.length
    match piece with
    | .plain text => return display (unescapeBrackets text) ++ (← renderPieces display opened next rest)
    | .tag slashes name =>
      let shown := List.replicate (slashes / 2) '\\'
      if slashes % 2 = 1 then
        return shown ++ display (Piece.bracketed name) ++ (← renderPieces display opened next rest)
      else
        let opened ← applyTag opened (position + slashes) name
        return shown ++ (← renderPieces display opened next rest)

def isUnprinted (c : Char) : Bool :=
  c = '\x07' || c = '\x08' || c = '\x0b' || c = '\x0c' || c = '\r'

def printed (emoji : Emoji) (text : String) : Except MarkupError (List Char) := do
  let chars ← renderPieces emoji.replace [] 0 (pieces text.toList)
  return chars.filter (!isUnprinted ·)

end Console

end TreeExport
