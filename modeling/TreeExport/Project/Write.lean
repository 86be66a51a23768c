import TreeExport.Disk
import TreeExport.Project

/-!
Writing the files of a project to a disk.
-/

namespace TreeExport

namespace Project

/-- Writes files below a directory one after the other, and gives their paths. A failure keeps the files
before it. -/
def writeFiles (directory : Path) (files : List GeneratedFile) : Disk.Action (List Path) :=
  files.mapM fun file => do
    let path := directory.join (Path.ofString file.path)
    Disk.write path file.content
    return path

end Project

end TreeExport
