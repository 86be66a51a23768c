import TreeExport.Command.Run

/-!
The command line program. It reads the files that a run may look at, runs on their contents, writes what
the run changed, and prints. It has no network, so live data are demo data, and no pictures for emoji codes.
-/

namespace TreeExport

namespace Program

def entryAt? (path : Path) : IO (Option Disk.Entry) := do
  try
    return some (.file (← IO.FS.readBinFile path.toString))
  catch
    | .inappropriateType .. => return some .directory
    | _ => return none

def observeNames (disk : Disk) (above : Path) : List PathName → IO Disk
  | [] => return disk
  | name :: rest => do
    let path : Path := ⟨above.root, above.parts ++ [name]⟩
    match ← entryAt? path, disk.locate path with
    | some entry, .ok place => observeNames (disk.put place entry) path rest
    | _, _ => return disk

def observe (disk : Disk) (paths : List Path) : IO Disk :=
  paths.foldlM (fun disk path => observeNames disk ⟨path.root, []⟩ path.parts) disk

def pathOf : Disk.Place → Path
  | "/" :: names => ⟨.slash, names.filterMap PathName.ofString?⟩
  | names => ⟨.none, names.filterMap PathName.ofString?⟩

def changes (old new : Disk) : List (Path × Disk.Entry) :=
  new.entries.filterMap fun (place, entry) =>
    match old.entryAt? place, entry with
    | some .directory, .directory => none
    | some (.file before), .file bytes => if before == bytes then none else some (pathOf place, entry)
    | _, _ => some (pathOf place, entry)

def store (path : Path) : Disk.Entry → IO Unit
  | .directory => IO.FS.createDir path.toString
  | .file bytes => IO.FS.writeBinFile path.toString bytes

def environment : IO (Keyed String) := do
  let found ← Config.variableNames.mapM fun name => do
    return (← IO.getEnv name).map fun value => (name, value)
  return found.filterMap id

def consoleWidth : IO Nat := do
  return ((← IO.getEnv "COLUMNS").bind String.toNat?).getD 80

def inputs (words : List String) : List Path :=
  match Command.parse words with
  | .ok (.generate arguments) => (arguments.tree :: arguments.data.toList).map Path.ofString
  | _ => []

def run (words : List String) : IO UInt32 := do
  let setting : Command.Setting := {
    environment := ← environment
    network := fun _ => .error ⟨.connection, "no network"⟩
    console := ⟨← consoleWidth, .none⟩ }
  let disk ← observe Disk.empty (inputs words)
  let planned := Command.invoke setting words disk
  let disk ← observe disk ((changes disk planned.disk).map Prod.fst)
  let outcome := Command.invoke setting words disk
  for (path, entry) in changes disk outcome.disk do
    store path entry
  IO.print outcome.printed
  IO.eprint outcome.complaint
  match outcome.ending with
  | .exit status => return status.toUInt32
  | .failure cause =>
    IO.eprintln cause.message
    return 1

end Program

end TreeExport

def main (words : List String) : IO UInt32 := TreeExport.Program.run words
