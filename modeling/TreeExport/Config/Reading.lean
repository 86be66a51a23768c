import TreeExport.Config.Basic
import TreeExport.Schema.Record
import TreeExport.Text.Case

/-!
Reading settings from values and from the environment. What is not set has its default; a bound that is
not kept is an issue.
-/

namespace TreeExport

open Schema

namespace GeneratorConfig

def checkDepth (depth : Checked Int) : Checked Int :=
  depth.ensure (1 ≤ ·) (.atLeast 1)

def check (origin : Origin) (value : Value) : Checked GeneratorConfig :=
  (fieldsOf origin "GeneratorConfig" value).andThen fun entries =>
    let base : GeneratorConfig := default
    GeneratorConfig.mk
      <$> optional entries "max_depth" base.maxDepth (fun value => checkDepth (integer value))
      <*> optional entries "strict" base.strict boolean

end GeneratorConfig

namespace ProviderConfig

def perPageLimit : Int := 100

def checkTimeout (timeout : Checked Binary64) : Checked Binary64 :=
  timeout.ensure ((Binary64.zero false).lt ·) (.above 0)

def checkPerPage (count : Checked Int) : Checked Int :=
  (count.ensure (1 ≤ ·) (.atLeast 1)).ensure (· ≤ perPageLimit) (.atMost perPageLimit)

def check (origin : Origin) (value : Value) : Checked ProviderConfig :=
  (fieldsOf origin "ProviderConfig" value).andThen fun entries =>
    let base : ProviderConfig := default
    ProviderConfig.mk
      <$> optional entries "timeout" base.timeout (fun value => checkTimeout (number origin value))
      <*> optional entries "crypto_ids" base.cryptoIds (listOf origin text)
      <*> optional entries "weather_city" base.weatherCity text
      <*> optional entries "github_language" base.githubLanguage optionalText
      <*> optional entries "github_per_page" base.githubPerPage
        (fun value => checkPerPage (integer value))

def ofValue (value : Value) : Except Failure ProviderConfig :=
  (check .value value).named "ProviderConfig"

end ProviderConfig

namespace Config

def check (origin : Origin) (value : Value) : Checked Config :=
  (fieldsOf origin "Config" value).andThen fun entries =>
    let base : Config := default
    Config.mk <$> optional entries "project_name" base.projectName text
      <*> optional entries "output_dir" base.outputDir path
      <*> optional entries "generator" base.generator (GeneratorConfig.check origin)
      <*> optional entries "providers" base.providers (ProviderConfig.check origin)

def ofValue (value : Value) : Except Failure Config :=
  (check .value value).named "Config"

/-! ### The environment -/

inductive EnvironmentError where
  | numeral (cause : Numeral.Error)
  | invalid (failure : Failure)
  deriving DecidableEq

def EnvironmentError.message : EnvironmentError → String
  | .numeral cause => cause.message
  | .invalid failure => failure.report

def variableStart : String := "DASHGEN_"

def variableNames : List String :=
  ["PROJECT_NAME", "OUTPUT_DIR", "MAX_DEPTH", "STRICT", "PROVIDER_TIMEOUT", "CRYPTO_IDS",
    "WEATHER_CITY", "GITHUB_LANGUAGE"].map (variableStart ++ ·)

def setting? (environment : Keyed String) (name : String) : Option String :=
  (environment.get? (variableStart ++ name)).filter (· != "")

def strictWords : List String := ["1", "true", "yes", "on"]

def splitNames (text : String) : List String :=
  let pieces := (Text.split ',' text.toList).map (Text.trimEnds Text.isBlank)
  (pieces.filter (!·.isEmpty)).map String.ofList

def readSetting? {α : Type} (environment : Keyed String) (name : String)
    (read : String → Except Numeral.Error α) : Except EnvironmentError (Option α) :=
  match setting? environment name with
  | none => .ok none
  | some text => (read text).map some |>.mapError .numeral

/-- The settings of an environment. Numbers are read first, and then their bounds are checked. -/
def ofEnvironment (environment : Keyed String) : Except EnvironmentError Config := do
  let base : Config := default
  let depth? ← readSetting? environment "MAX_DEPTH" (Numeral.integer 10)
  let timeout? ← readSetting? environment "PROVIDER_TIMEOUT" Numeral.float
  let setting := setting? environment
  let depth := GeneratorConfig.checkDepth (.valid (depth?.getD base.generator.maxDepth))
  let depth ← ((depth.within (.name "max_depth")).named "GeneratorConfig").mapError .invalid
  let timeout := ProviderConfig.checkTimeout (.valid (timeout?.getD base.providers.timeout))
  let timeout ← ((timeout.within (.name "timeout")).named "ProviderConfig").mapError .invalid
  return {
    projectName := (environment.get? (variableStart ++ "PROJECT_NAME")).getD base.projectName
    outputDir := ((environment.get? (variableStart ++ "OUTPUT_DIR")).map Path.ofString).getD
      base.outputDir
    generator := {
      maxDepth := depth
      strict := ((setting "STRICT").map (strictWords.contains <| Text.lower ·)).getD
        base.generator.strict }
    providers := {
      timeout
      cryptoIds := ((setting "CRYPTO_IDS").map splitNames).getD base.providers.cryptoIds
      weatherCity := (setting "WEATHER_CITY").getD base.providers.weatherCity
      githubLanguage := (setting "GITHUB_LANGUAGE").or base.providers.githubLanguage
      githubPerPage := base.providers.githubPerPage } }

end Config

end TreeExport
