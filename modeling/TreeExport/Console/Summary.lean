import TreeExport.Console.Markup
import TreeExport.Console.Wrap
import TreeExport.Literal

/-!
A table of two columns under a title. Labels keep their lines whole; values break between words. On a
narrow console the values give way first, and then the labels.
-/

namespace TreeExport

namespace Console

def endsLine (c : Char) : Bool :=
  let code := c.toNat
  code = 0x0A || (0x1C ≤ code && code ≤ 0x1E) || code = 0x85 || code = 0x2028 || code = 0x2029

def widestLine (text : List Char) : Nat :=
  let lines := (Text.split '\n' (text.map fun c => if endsLine c then '\n' else c))
  (lines.map Text.cellCount).foldl max 0

def padding : Nat := 2

def columnWidth (room : Nat) (cells : List (List Char)) : Nat :=
  if room ≤ padding then room
  else (cells.map fun cell => min (widestLine cell + padding) room).foldl max 0

def columnWidths (room : Nat) (labels values : List (List Char)) : Nat × Nat :=
  let label := max 1 (columnWidth room labels)
  let value := max 1 (columnWidth room values)
  if label + value ≤ room then (label, value)
  else
    let excess := label + value - room
    let fromValue := min excess value
    let fromLabel := min (excess - fromValue) label
    (columnWidth (label - fromLabel) labels, columnWidth (value - fromValue) values)

def cellLines (width : Nat) (breaking : Bool) (cell : List Char) : List (List Char) :=
  let room := width - padding
  if room = 0 then []
  else
    (wrap .ellipsis room breaking cell).map fun line =>
      ' ' :: fitCells room (truncate .ellipsis room line) ++ [' ']

def rowLines (widths : Nat × Nat) (left middle right : Char) (label value : List Char) :
    List (List Char) :=
  let labels := cellLines widths.1 false label
  let values := cellLines widths.2 true value
  let height := max 1 (max labels.length values.length)
  (List.range height).map fun index =>
    let lineOf (lines : List (List Char)) (width : Nat) : List Char :=
      fitCells width ((lines[index]?).getD [])
    left :: lineOf labels widths.1 ++ middle :: lineOf values widths.2 ++ [right]

def border (widths : Nat × Nat) (left line middle right : Char) : List Char :=
  left :: List.replicate widths.1 line ++ middle :: List.replicate widths.2 line ++ [right]

def center (width : Nat) (line : List Char) : List Char :=
  let line := truncate .fold width (dropEndBlanks line)
  fitCells width (List.replicate ((width - Text.cellCount line) / 2) ' ' ++ line)

def heads : List Char × List Char := ("Item".toList, "Value".toList)

def borderCells : Nat := 3

def tableLines (width : Nat) (rows : List (List Char × List Char)) (title : List Char) :
    List (List Char) :=
  let widths := columnWidths (width - borderCells) (heads.1 :: rows.map Prod.fst)
    (heads.2 :: rows.map Prod.snd)
  let full := widths.1 + widths.2 + borderCells
  let titles := if title.isEmpty then [] else (wrap .fold full true title).map (center full)
  let lines := titles
    ++ [border widths '┏' '━' '┳' '┓']
    ++ rowLines widths '┃' '┃' '┃' heads.1 heads.2
    ++ [border widths '┡' '━' '╇' '┩']
    ++ rows.flatMap (fun (label, value) => rowLines widths '│' '│' '│' label value)
    ++ [border widths '└' '─' '┴' '┘']
  lines.map fun line => if width < Text.cellCount line then fitCells width line else line

inductive SummaryError where
  | label (kind : String)
  | bytesLabel
  | value (cause : Literal.Error)
  | title (cause : MarkupError)
  deriving DecidableEq, Repr

def SummaryError.message : SummaryError → String
  | .label kind => s!"expected string or bytes-like object, got '{kind}'"
  | .bytesLabel => "cannot use a string pattern on a bytes-like object"
  | .value cause => cause.message
  | .title cause => cause.message

def rowOf (emoji : Emoji) (entry : Value × Value) : Except SummaryError (List Char × List Char) := do
  match entry.1 with
  | .text label =>
    let value ← (Literal.display entry.2).mapError .value
    let label ← (printed emoji (escape label)).mapError .title
    let value ← (printed emoji (escape (String.ofList value))).mapError .title
    return (label, value)
  | .bytes _ => throw .bytesLabel
  | key => throw (.label key.qualifiedKindName)

def defaultTitle : String := "Summary"

def summary (console : Console) (entries : List (Value × Value)) (title : String) :
    Except SummaryError String := do
  let rows ← entries.mapM (rowOf console.emoji)
  let title ← (printed console.emoji title).mapError .title
  let lines := tableLines console.width rows title
  return String.ofList (lines.flatMap (· ++ ['\n']) ++ ['\n'])

end Console

end TreeExport
