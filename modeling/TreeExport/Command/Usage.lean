import TreeExport.Command.Arguments

/-!
What the command says about itself.
-/

namespace TreeExport

namespace Command

def commandName : String := "dashgen"

def lines (texts : List String) : String := String.join (texts.map (· ++ "\n"))

def usage : String := lines [
  "usage: " ++ commandName ++ " [-h] [--data DATA] [--live] [--output OUTPUT]",
  "               [--project-name PROJECT_NAME] [--strict] [--dry-run]",
  "               tree"]

def help : String := usage ++ lines [
  "",
  "Export a UI tree as a standalone Next.js project.",
  "",
  "positional arguments:",
  "  tree                  Path to the UI tree (JSON or YAML)",
  "",
  "options:",
  "  -h, --help            show this help message and exit",
  "  --data DATA, -d DATA  Path to the data object (JSON or YAML)",
  "  --live                Fetch crypto, weather, and GitHub data instead of",
  "                        reading --data",
  "  --output OUTPUT, -o OUTPUT",
  "                        Output directory (default: ./output, or",
  "                        DASHGEN_OUTPUT_DIR)",
  "  --project-name PROJECT_NAME",
  "                        Project name (default: generated-dashboard, or",
  "                        DASHGEN_PROJECT_NAME)",
  "  --strict              Fail on missing elements, missing templates, or cycles",
  "  --dry-run             List the files that would be generated without writing",
  "                        them"]

def refusal (cause : ArgumentError) : String :=
  usage ++ commandName ++ ": error: " ++ cause.message ++ "\n"

end Command

end TreeExport
