import TreeExport.Binary64.Basic
import TreeExport.Markup.Walk
import TreeExport.Project

/-!
Settings of an export and of the feeds that it may draw on.
-/

namespace TreeExport

structure GeneratorConfig where
  maxDepth : Int
  strict : Bool
  deriving DecidableEq

structure ProviderConfig where
  timeout : Binary64
  cryptoIds : List String
  weatherCity : String
  githubLanguage : Option String
  githubPerPage : Int
  deriving DecidableEq

structure Config where
  projectName : String
  outputDir : Path
  generator : GeneratorConfig
  providers : ProviderConfig
  deriving DecidableEq

instance : Inhabited GeneratorConfig := ⟨⟨defaultMaxDepth, false⟩⟩

instance : Inhabited ProviderConfig := ⟨{
  timeout := Binary64.ofInt 10
  cryptoIds := ["bitcoin", "ethereum", "cardano", "solana", "ripple"]
  weatherCity := "new-york"
  githubLanguage := none
  githubPerPage := 10 }⟩

instance : Inhabited Config := ⟨⟨defaultProjectName, Path.ofString "output", default, default⟩⟩

def Config.projectPath (config : Config) : Path :=
  config.outputDir.join (Path.ofString config.projectName)

end TreeExport
