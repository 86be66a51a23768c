import TreeExport.Console.Markup
import TreeExport.Console.Wrap

/-!
Messages on a console. They are printed as they are, in a style of their own, on lines of its width.
-/

namespace TreeExport

namespace Console

def print (console : Console) (text : String) : Except MarkupError String := do
  let width := console.width
  let lines := (wrap .fold width true (← printed console.emoji text)).map (truncate .fold width)
  return String.ofList (lines.flatMap (· ++ ['\n']))

inductive Tone where
  | success
  | error
  | warning
  deriving DecidableEq, Repr

def Tone.style : Tone → String
  | .success => "bold green"
  | .error => "bold red"
  | .warning => "bold yellow"

def Tone.wrap (tone : Tone) (message : String) : String :=
  "[" ++ tone.style ++ "]" ++ escape message ++ "[/" ++ tone.style ++ "]"

def printMessage (console : Console) (tone : Tone) (message : String) : Except MarkupError String :=
  console.print (tone.wrap message)

end Console

end TreeExport
