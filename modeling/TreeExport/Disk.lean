import TreeExport.Path
import TreeExport.Text.Encoding

/-!
Files and directories below a working directory. Paths are followed name by name, so every directory on
the way has to be there, also where the path goes back up. An operation that fails keeps what it changed
before.
-/

namespace TreeExport

namespace Disk

/-- A place: the names that lead to it from the working directory. Places above the working directory
start with names `..`, and the root is the name `/`. -/
abbrev Place := List String

inductive Entry where
  | file (bytes : ByteArray)
  | directory

inductive Fault where
  | missing
  | taken
  | notDirectory
  | isDirectory
  | longName
  | zeroCharacter
  deriving DecidableEq, Repr

structure Error where
  fault : Fault
  path : Path
  deriving DecidableEq, Repr

def Fault.describe : Fault → String
  | .missing => "[Errno 2] No such file or directory"
  | .taken => "[Errno 17] File exists"
  | .notDirectory => "[Errno 20] Not a directory"
  | .isDirectory => "[Errno 21] Is a directory"
  | .longName => "[Errno 36] File name too long"
  | .zeroCharacter => "embedded null byte"

def Error.message (error : Error) : String :=
  if error.fault = .zeroCharacter then error.fault.describe
  else
    error.fault.describe ++ ": " ++ String.ofList (Text.quoted error.path.toString.toList)

end Disk

/-- The entries below a working directory. Each place has at most one. -/
structure Disk where
  entries : List (Disk.Place × Disk.Entry)

namespace Disk

def nameLimit : Nat := 255

/-- The bytes of a path that is one too long. -/
def pathLimit : Nat := 4096

def empty : Disk := ⟨[]⟩

/-- What stands at a place. The working directory, those above it and the root are there. -/
def entryAt? (disk : Disk) (place : Place) : Option Entry :=
  if place.all (· == "..") || place == ["/"] then some .directory
  else disk.entries.lookup place

def put (disk : Disk) (place : Place) (entry : Entry) : Disk :=
  ⟨(disk.entries.filter fun old => old.1 != place) ++ [(place, entry)]⟩

def above (place : Place) : Place :=
  if place == ["/"] then place
  else if place.all (· == "..") then place ++ [".."]
  else place.dropLast

def follow (disk : Disk) (place : Place) (name : String) : Except Fault Place :=
  match disk.entryAt? place with
  | none => .error .missing
  | some (.file _) => .error .notDirectory
  | some .directory =>
    if name = ".." then .ok (above place)
    else if nameLimit < name.utf8ByteSize then .error .longName
    else .ok (place ++ [name])

def startOf : PathRoot → Place
  | .none => []
  | _ => ["/"]

def locate (disk : Disk) (path : Path) : Except Fault Place :=
  if path.names.any (·.toList.contains '\x00') then .error .zeroCharacter
  else if pathLimit ≤ path.toString.utf8ByteSize then .error .longName
  else path.names.foldlM disk.follow (startOf path.root)

def isDirectory (disk : Disk) (path : Path) : Bool :=
  match (disk.locate path).toOption.bind disk.entryAt? with
  | some .directory => true
  | _ => false

def read (disk : Disk) (path : Path) : Except Error ByteArray :=
  match disk.locate path with
  | .error fault => .error ⟨fault, path⟩
  | .ok place =>
    match disk.entryAt? place with
    | none => .error ⟨.missing, path⟩
    | some .directory => .error ⟨.isDirectory, path⟩
    | some (.file bytes) => .ok bytes

/-- Changes of a disk. A failure keeps the changes before it. -/
abbrev Action := ExceptT Error (StateM Disk)

def makeDirectory (path : Path) : Action Unit := do
  let disk ← get
  match disk.locate path with
  | .error fault => throw ⟨fault, path⟩
  | .ok place =>
    if (disk.entryAt? place).isSome then throw ⟨.taken, path⟩
    else set (disk.put place .directory)

def ensureDirectory (path : Path) : Action Unit := do
  try makeDirectory path
  catch error =>
    if error.fault = .missing ∨ error.fault = .zeroCharacter ∨ !(← get).isDirectory path then
      throw error

def makeDirectories (path : Path) : Action Unit := do
  try ensureDirectory path
  catch error =>
    if _ : error.fault = .missing ∧ path.parts ≠ [] then
      makeDirectories path.parent
      ensureDirectory path
    else throw error
termination_by path.parts.length
decreasing_by
  rename_i given
  have := List.length_pos_iff.mpr given.2
  simp only [Path.parent, List.length_dropLast]
  omega

def writeFile (path : Path) (text : String) : Action Unit := do
  let disk ← get
  match disk.locate path with
  | .error fault => throw ⟨fault, path⟩
  | .ok place =>
    match disk.entryAt? place with
    | some .directory => throw ⟨.isDirectory, path⟩
    | _ => set (disk.put place (.file text.toUTF8))

def write (path : Path) (text : String) : Action Unit := do
  makeDirectories path.parent
  writeFile path text

def files (disk : Disk) : List (String × ByteArray) :=
  let files := disk.entries.filterMap fun (place, entry) =>
    match entry with
    | .file bytes =>
      if place.head? == some ".." || place.head? == some "/" then none
      else some ("/".intercalate place, bytes)
    | .directory => none
  files.mergeSort fun a b => a.1 ≤ b.1

def namesIn (disk : Disk) (path : Path) (ending : String) : List String :=
  match disk.locate path with
  | .error _ => []
  | .ok place =>
    let names := disk.entries.filterMap fun (inner, _) =>
      match inner.getLast? with
      | some name => if inner.dropLast == place && name.endsWith ending then some name else none
      | none => none
    names.mergeSort fun a b => a ≤ b

inductive TextError where
  | disk (cause : Error)
  | encoding (cause : Text.DecodeError)
  deriving DecidableEq, Repr

def TextError.message : TextError → String
  | .disk cause => cause.message
  | .encoding cause => cause.message

/-- The text of the file at a path, with every line break as a line feed. -/
def readText (disk : Disk) (path : Path) : Except TextError String := do
  let bytes ← (disk.read path).mapError .disk
  let text ← (Text.decodeUtf8 bytes).mapError .encoding
  return String.ofList (Text.universalNewlines text.toList)

end Disk

end TreeExport
