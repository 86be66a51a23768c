import TreeExport.Keyed
import TreeExport.Schema.Scalar
import TreeExport.Value.Display

/-!
Reading collections and records. A record is read from a map; keys that it does not know are ignored.
-/

namespace TreeExport

namespace Schema

variable {α β : Type}

def placeOfKey : Value → Place
  | .text name => .name name
  | .bool value => .index (if value then 1 else 0)
  | .int value =>
    if -wordLimit ≤ value ∧ value < wordLimit then .index value
    else .name (String.ofList (Value.integerText value))
  | key => .name (String.ofList key.quoted)

def listOf (origin : Origin) (item : Value → Checked α) (value : Value) : Checked (List α) :=
  let readAll (items : List Value) : Checked (List α) :=
    Checked.all (items.zipIdx.map fun (value, index) => (item value).within (.index index))
  match value with
  | .list items => readAll items
  | .tuple items => readAll items
  | .set items => readAll items
  | _ => Checked.problem (.list origin)

/-- The entries of a map with texts as keys. A bad key does not keep its value from being read. -/
def mapOf (origin : Origin) (item : Value → Checked α) (value : Value) : Checked (Keyed α) :=
  match value with
  | .map entries =>
    let read := entries.map fun (key, value) =>
      let place := placeOfKey key
      let name := ((text key).within (.name "[key]")).within place
      Prod.mk <$> name <*> (item value).within place
    Keyed.ofList <$> Checked.all read
  | _ => Checked.problem (.map origin)

def fieldsOf (origin : Origin) (record : String) : Value → Checked (List (Value × Value))
  | .map entries => .valid entries
  | _ => Checked.problem (.record origin record)

def required (entries : List (Value × Value)) (name : String) (read : Value → Checked α) :
    Checked α :=
  Checked.within (.name name) <|
    match Value.lookup? entries name with
    | some value => read value
    | none => Checked.problem .missing

def optional (entries : List (Value × Value)) (name : String) (default : α)
    (read : Value → Checked α) : Checked α :=
  match Value.lookup? entries name with
  | some value => (read value).within (.name name)
  | none => .valid default

end Schema

end TreeExport
