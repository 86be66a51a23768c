import TreeExport.Binary64.Layout
import TreeExport.Config.Reading
import TreeExport.Disk
import TreeExport.Json
import TreeExport.Literal

/-!
Settings as files in JSON. A number that JSON cannot write is saved as null.
-/

namespace TreeExport

namespace Config

inductive Stored where
  | scalar (text : List Char)
  | list (items : List (List Char))
  | record (fields : List (String × Stored))

namespace Stored

def text (value : String) : Stored := .scalar (Literal.quote value.toList)

def lineBreak (depth : Nat) : List Char := Literal.Spacing.lineBreak (.indented 2) depth

mutual

def render (depth : Nat) : Stored → List Char
  | .scalar text => text
  | .list items => Literal.bracket (.indented 2) depth '[' ']' items
  | .record fields =>
    Literal.bracket (.indented 2) depth '\x7b' '\x7d' (renderFields (depth + 1) fields)

def renderFields (depth : Nat) : List (String × Stored) → List (List Char)
  | [] => []
  | (name, value) :: rest =>
    (Literal.quote name.toList ++ [':', ' '] ++ render depth value) :: renderFields depth rest

end

end Stored

def stored (config : Config) : Stored :=
  let integer (value : Int) : Stored := .scalar (Value.integerText value)
  let language := match config.providers.githubLanguage with
    | none => Stored.scalar "null".toList
    | some language => .text language
  .record [
    ("project_name", .text config.projectName),
    ("output_dir", .text config.outputDir.toString),
    ("generator", .record [
      ("max_depth", integer config.generator.maxDepth),
      ("strict", .scalar (if config.generator.strict then "true" else "false").toList)]),
    ("providers", .record [
      ("timeout", .scalar (config.providers.timeout.render .saved)),
      ("crypto_ids", .list (config.providers.cryptoIds.map fun id => Literal.quote id.toList)),
      ("weather_city", .text config.providers.weatherCity),
      ("github_language", language),
      ("github_per_page", integer config.providers.githubPerPage)])]

def render (config : Config) : String :=
  String.ofList (config.stored.render 0)

def save (config : Config) (path : Path) : Disk.Action Unit :=
  Disk.write path config.render

def ofText (text : String) : Except Schema.Failure Config :=
  match Json.read text with
  | .error _ => .error ⟨"Config", [⟨[], .malformed⟩]⟩
  | .ok value => (check .document value).named "Config"

inductive LoadError where
  | unreadable (cause : Disk.TextError)
  | invalid (failure : Schema.Failure)
  deriving DecidableEq

def load (disk : Disk) (path : Path) : Except LoadError Config := do
  let text ← (disk.readText path).mapError .unreadable
  (ofText text).mapError .invalid

end Config

end TreeExport
