import TreeExport.Text.Split

/-!
Addresses of documents, and references that are relative to an address.
-/

namespace TreeExport

namespace Http

/-- The parts of an address that tell where a request goes. A relative one lacks scheme and host. -/
structure Url where
  scheme : String
  authority : String
  path : String
  deriving DecidableEq, Repr

namespace Url

def isSchemeChar (c : Char) : Bool :=
  c.isAlphanum || c = '+' || c = '-' || c = '.'

def splitScheme (text : List Char) : List Char × List Char :=
  let scheme := text.takeWhile isSchemeChar
  match scheme, text.drop scheme.length with
  | first :: _, ':' :: rest => if first.isAlpha then (scheme, rest) else ([], text)
  | _, _ => ([], text)

def dropDots : (kept : List String) → List String → List String
  | kept, [] => kept
  | kept, name :: rest =>
    if name = "." then dropDots kept rest
    else if name = ".." then dropDots (if kept = [""] then kept else kept.dropLast) rest
    else dropDots (kept ++ [name]) rest

def pathNames (path : String) : List String :=
  (Text.split '/' path.toList).map String.ofList

def normalizePath (path : String) : String :=
  "/".intercalate (dropDots [] (pathNames path))

/-- The address that a text writes, without its query and its fragment. -/
def ofString (text : String) : Url :=
  let (scheme, rest) := splitScheme (text.toList.takeWhile fun c => c != '?' && c != '#')
  let (authority, path) :=
    match rest with
    | '/' :: '/' :: rest => (rest.takeWhile (· != '/'), rest.dropWhile (· != '/'))
    | rest => ([], rest)
  let path := String.ofList path
  let anchored := !scheme.isEmpty || !authority.isEmpty
  ⟨String.ofList (scheme.map Char.toLower), String.ofList authority,
    if anchored then normalizePath path else path⟩

def follow (base : Url) (reference : String) : Url :=
  let next := ofString reference
  if next.scheme ≠ "" then
    if next.authority = "" then { next with authority := base.authority } else next
  else if next.authority ≠ "" then { next with scheme := base.scheme }
  else if next.path = "" then base
  else if next.path.startsWith "/" then { base with path := normalizePath next.path }
  else
    let above := (pathNames base.path).dropLast
    let above := if above.isEmpty then [""] else above
    { base with path := "/".intercalate (dropDots [] (above ++ pathNames next.path)) }

end Url

end Http

end TreeExport
