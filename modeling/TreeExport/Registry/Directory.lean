import TreeExport.Disk
import TreeExport.Registry.Basic

/-!
Registries and templates that lie as files in a directory.
-/

namespace TreeExport

namespace Registry

def ofDirectory (disk : Disk) (directory : Path) : Except Disk.TextError Registry := do
  let templates ← (disk.namesIn directory ".tsx").mapM fun name => do
    let path := directory.join (Path.ofString name)
    return (path.stem, ← disk.readText path)
  return ⟨Keyed.ofList templates⟩

def templateNames (disk : Disk) (directory : Path) : List String :=
  disk.namesIn directory ".j2"

end Registry

end TreeExport
