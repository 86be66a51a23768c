import TreeExport.Literal
import TreeExport.Tree.Basic

/-!
Opening tags: the component's name, the injected data attribute where the component reads data, and
the props as attributes. A plain text prop is written between quotes; every other value, and a text
that quotes could not hold, is written as a literal between braces. Props without a value are left out.
-/

namespace TreeExport

namespace Markup

/-- Whether a character may not stand between the quotes of an attribute: the quote ends it, an
ampersand starts an entity, and a backslash or line break would not be read as written. -/
def isUnsafe (c : Char) : Bool :=
  c = '"' || c = '\\' || c = '&' || c = '\n' || c = '\r'

def propText (name : String) (value : Value) : Except Literal.Error (List Char) :=
  let braced : Except Literal.Error (List Char) := do
    let literal ← Literal.encode .compact value
    return name.toList ++ '=' :: '\x7b' :: literal ++ ['\x7d']
  match value with
  | .text text =>
    if text.toList.any isUnsafe then braced
    else .ok (name.toList ++ '=' :: '"' :: text.toList ++ ['"'])
  | _ => braced

def valuedProps (props : Keyed Value) : Keyed Value :=
  props.filter fun (_, value) =>
    match value with
    | .null => false
    | _ => true

def propsText (props : Keyed Value) : Except Literal.Error (List Char) := do
  let written ← (valuedProps props).mapM fun (name, value) => propText name value
  return [' '].intercalate written

def isDataProp (name : String) : Bool :=
  "Path".toList.isSuffixOf name.toList || name == "bindPath" || name == "dataPath"

def dataComponents : List String := ["Chart", "Table", "Metric", "List"]

def needsData (component : String) (props : Keyed Value) : Bool :=
  dataComponents.contains component || props.any fun (name, _) => isDataProp name

def dataAttribute : List Char := "data=\x7bdata\x7d".toList

end Markup

def Element.openTag (element : Element) : Except Literal.Error (List Char) := do
  let props := Markup.valuedProps element.props
  let written ← Markup.propsText props
  let data := if Markup.needsData element.type props then [Markup.dataAttribute] else []
  let props := if written.isEmpty then [] else [written]
  return [' '].intercalate (element.type.toList :: (data ++ props))

end TreeExport
