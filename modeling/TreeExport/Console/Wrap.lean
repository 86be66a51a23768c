import TreeExport.Text.Blank
import TreeExport.Text.Split
import TreeExport.Text.Width

/-!
Breaking texts into lines of a width. Lines break between words; a word that is wider than a line is
folded or cut.
-/

namespace TreeExport

namespace Console

inductive Overflow where
  | fold
  | ellipsis
  deriving DecidableEq, Repr

/-- The first cells of a text. A wide character that would stand half outside is a space. -/
def takeCells (width : Nat) : List Char → List Char
  | [] => []
  | c :: rest =>
    if Text.cellWidth c ≤ width then
      if width = 0 then [] else c :: takeCells (width - Text.cellWidth c) rest
    else List.replicate width ' '

def fitCells (width : Nat) (text : List Char) : List Char :=
  let count := Text.cellCount text
  if width < count then takeCells width text else text ++ List.replicate (width - count) ' '

def dropEndBlanks (text : List Char) : List Char :=
  (text.reverse.dropWhile Text.isBlank).reverse

/-- The words of a text, each with the blanks behind it and the first one with those before it. -/
def words (text : List Char) : (fuel : Nat) → List (List Char)
  | 0 => []
  | fuel + 1 =>
    let before := text.takeWhile Text.isBlank
    let rest := text.drop before.length
    let word := rest.takeWhile (!Text.isBlank ·)
    if word.isEmpty then []
    else
      let rest := rest.drop word.length
      let after := rest.takeWhile Text.isBlank
      (before ++ word ++ after) :: words (rest.drop after.length) fuel

def foldWord (width : Nat) (line : List Char) (count : Nat) : List Char → List (List Char)
  | [] => [line.reverse]
  | c :: rest =>
    let cells := Text.cellWidth c
    if width < count + cells then line.reverse :: foldWord width [c] cells rest
    else foldWord width (c :: line) (count + cells) rest

/-- The places where the pieces of a word start, of those that are not the start of the text, and the
cells of its last piece. -/
def foldBreaks (start : Nat) : List (List Char) → List Nat × Nat
  | [] => ([], 0)
  | [line] => (if start = 0 then [] else [start], Text.cellCount line)
  | line :: rest =>
    let (breaks, count) := foldBreaks (start + line.length) rest
    (if start = 0 then breaks else start :: breaks, count)

def breaks (overflow : Overflow) (width start count : Nat) : List (List Char) → List Nat
  | [] => []
  | word :: rest =>
    let length := Text.cellCount (dropEndBlanks word)
    let next := start + word.length
    if count + length ≤ width then
      breaks overflow width next (count + Text.cellCount word) rest
    else if width < length then
      match overflow with
      | .fold =>
        let (inner, count) := foldBreaks start (foldWord width [] 0 word)
        inner ++ breaks overflow width next count rest
      | .ellipsis =>
        let here := if start = 0 then [] else [start]
        here ++ breaks overflow width next (Text.cellCount word) rest
    else if count ≠ 0 ∧ start ≠ 0 then
      start :: breaks overflow width next (Text.cellCount word) rest
    else breaks overflow width next count rest

def cutAt (from_ : Nat) (text : List Char) : List Nat → List (List Char)
  | [] => [text]
  | place :: rest => text.take (place - from_) :: cutAt place (text.drop (place - from_)) rest

def dropExcessBlanks (width : Nat) (line : List Char) : List Char :=
  let blanks := (line.reverse.takeWhile Text.isBlank).length
  line.take (line.length - min blanks (line.length - width))

def truncate (overflow : Overflow) (width : Nat) (line : List Char) : List Char :=
  if width < Text.cellCount line then
    match overflow with
    | .fold => fitCells width line
    | .ellipsis => fitCells (width - 1) line ++ ['…']
  else line

def tabSize : Nat := 8

def expandTabs (count : Nat) : List Char → List Char
  | [] => []
  | c :: rest =>
    if c = '\t' then
      let next := (count / tabSize + 1) * tabSize
      List.replicate (next - count) ' ' ++ expandTabs next rest
    else c :: expandTabs (count + Text.cellWidth c) rest

def wrap (overflow : Overflow) (width : Nat) (breaking : Bool) (text : List Char) :
    List (List Char) :=
  let lines := (Text.split '\n' text).flatMap fun line =>
    let line := expandTabs 0 line
    if breaking then
      cutAt 0 line (breaks overflow width 0 0 (words line line.length))
    else [line]
  lines.map (dropExcessBlanks width)

end Console

end TreeExport
