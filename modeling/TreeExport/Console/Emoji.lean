import TreeExport.Text.Blank
import TreeExport.Text.Case

/-!
Emoji codes in console texts. A name between two colons stands for a picture, if there is one of that name. Which
names there are is left to the console.
-/

namespace TreeExport

/-- The pictures of a console. No name has the bracket that begins a style tag. -/
structure Emoji where
  named : String → Option String
  plain : ∀ name, (named name).isSome → '[' ∉ name.toList

namespace Emoji

def none : Emoji := ⟨fun _ => .none, nofun⟩

/-- The endings of a code that ask for a form of its picture, with the character that selects the form. -/
def forms : List (List Char × Char) := [("-emoji".toList, '\ufe0f'), ("-text".toList, '\ufe0e')]

def readCode (code : List Char) : List Char × List Char :=
  match forms.find? fun form => form.1.isSuffixOf code with
  | some (ending, selector) => (code.take (code.length - ending.length), [selector])
  | .none => (code, [])

def picture? (emoji : Emoji) (code : List Char) : Option (List Char) :=
  let (name, selector) := readCode code
  (emoji.named (Text.lower (String.ofList name))).map fun picture => picture.toList ++ selector

def framed (code : List Char) : List Char := ':' :: code ++ [':']

def openText : Option (List Char) → List Char
  | .none => []
  | some code => ':' :: code.reverse

/-- A text with its codes replaced, behind an open colon and the reversed characters since then. A colon
belongs to one code at most, whether the code has a picture or not, and no code contains a blank. -/
def replaceFrom (emoji : Emoji) (opened : Option (List Char)) : List Char → List Char
  | [] => openText opened
  | c :: rest =>
    match opened with
    | .none => if c = ':' then replaceFrom emoji (some []) rest else c :: replaceFrom emoji .none rest
    | some code =>
      if c = ':' then
        (emoji.picture? code.reverse).getD (framed code.reverse) ++ replaceFrom emoji .none rest
      else if Text.isBlank c then openText opened ++ c :: replaceFrom emoji .none rest
      else replaceFrom emoji (some (c :: code)) rest

def replace (emoji : Emoji) (text : List Char) : List Char := replaceFrom emoji .none text

/-- Whether a text has no code of a picture in it. -/
def Absent (emoji : Emoji) (text : List Char) : Prop :=
  ∀ code, (emoji.picture? code).isSome → ¬framed code <:+: text

end Emoji

structure Console where
  width : Nat
  emoji : Emoji

end TreeExport
