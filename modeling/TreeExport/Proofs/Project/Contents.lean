import TreeExport.Proofs.Project.Output
import TreeExport.Proofs.Scaffold.Lines

/-!
What the files behind the components say. The index is one export line for each component, the page opens
with one import line for all of them, and the introduction closes with a list of them; where there are no
components, import line and list are left out.
-/

namespace TreeExport

namespace Project

open Registry (ofLines)
open Scaffold

variable {options : GeneratorOptions} {names : List String} {dataText markup : String}

def exportLine (name : String) : String :=
  "export \x7b " ++ name ++ " \x7d from \"./" ++ Scaffold.moduleName name ++ "\";"

def importLine (names : List String) : String :=
  "import \x7b " ++ ", ".intercalate names ++ " \x7d from \"@/components/ui\";"

def importLines (names : List String) : List String :=
  if names = [] then [] else [importLine names, ""]

def componentLine (name : String) : String :=
  "- `" ++ name ++ "` - `" ++ componentPath name ++ "`"

def componentLines (names : List String) : List String :=
  if names = [] then [] else ["", "## Components", ""] ++ names.map componentLine

def dataOpening : String := "const data = "

def pageShell (markup : String) : String :=
  ofLines [
    "",
    "export default function Page() \x7b",
    "  return (",
    "    <div style=\x7b\x7b maxWidth: 960, margin: \"0 auto\", padding: \"48px 24px\" \x7d\x7d>"] ++
  markup ++
  ofLines [
    "",
    "    </div>",
    "  );",
    "\x7d"]

def pageText (names : List String) (dataText markup : String) : String :=
  ofLines (["\"use client\";", ""] ++ importLines names) ++ dataOpening ++ dataText ++ ";\n" ++
    pageShell markup

theorem get?_bound (context : Context) (name : String) (value : Value) :
    Keyed.get? ((name, value) :: context) name = some value := by
  simp [Keyed.get?_cons]

theorem get?_components : Keyed.get? (context options names dataText markup) "components" =
    some (.list (names.map .text)) := rfl

theorem get?_data : Keyed.get? (context options names dataText markup) "data_literal" =
    some (.text dataText) := rfl

theorem get?_markup : Keyed.get? (context options names dataText markup) "markup" =
    some (.text markup) := rfl

theorem get?_projectName : Keyed.get? (context options names dataText markup) "project_name" =
    some (.text options.projectName) := rfl

theorem render_index :
    render (context options names dataText markup) index = .ok (ofLines (names.map exportLine)) := by
  have each : ∀ name, renderParts (("name", .text name) :: context options names dataText markup)
      [.text "export \x7b ", .shown "name", .text " \x7d from \"./", .moduleName "name",
        .lines ["\";"]] = .ok ((exportLine name).toList ++ ['\n']) := by
    intro name
    have bound := get?_bound (context options names dataText markup) "name" (.text name)
    simp only [renderParts, renderPart_text, renderPart_shown bound, renderPart_moduleName bound,
      renderPart_lines, bind, Except.bind, pure, Except.pure]
    simp only [exportLine, toList_ofLines, String.toList_append, List.append_assoc,
      List.flatMap_cons, List.flatMap_nil, List.append_nil]
  apply render_of_renderParts
  rw [index, renderParts_cons (renderPart_forEach get?_components each) renderParts_nil,
    List.append_nil]

theorem render_page :
    render (context options names dataText markup) page = .ok (pageText names dataText markup) := by
  have imports : renderParts (context options names dataText markup)
      [.text "import \x7b ", .joined "components" ", ",
        .lines [" \x7d from \"@/components/ui\";", ""]] =
      .ok (ofLines [importLine names, ""]).toList := by
    simp only [renderParts, renderPart_text, renderPart_joined get?_components, renderPart_lines,
      bind, Except.bind, pure, Except.pure]
    simp only [importLine, toList_ofLines, String.toList_append, List.append_assoc,
      List.flatMap_cons, List.flatMap_nil, List.append_nil]
  have terminator : ";\n".toList = ";".toList ++ ['\n'] := by decide
  apply render_of_renderParts
  rw [page]
  simp only [renderParts, renderPart_text, renderPart_whenTrue get?_components imports,
    renderPart_shown get?_data, renderPart_shown get?_markup, renderPart_lines, bind, Except.bind,
    pure, Except.pure]
  by_cases none : names = []
  · simp only [pageText, importLines, none, if_true, pageShell, dataOpening, terminator, toList_ofLines,
      String.toList_append, List.append_assoc, List.flatMap_cons, List.flatMap_nil,
      List.append_nil, List.nil_append]
  · simp only [pageText, importLines, none, if_false, pageShell, dataOpening, terminator, toList_ofLines,
      String.toList_append, List.append_assoc, List.flatMap_append, List.flatMap_cons,
      List.flatMap_nil, List.append_nil]

theorem render_readme (options : GeneratorOptions) (names : List String) (dataText markup : String) :
    ∃ fixed : List String, "## Components" ∉ fixed ∧ (∀ line ∈ fixed, '\n' ∉ line.toList) ∧
      render (context options names dataText markup) readme =
        .ok ("# " ++ options.projectName ++ ofLines fixed ++ ofLines (componentLines names)) := by
  have each : ∀ name, renderParts (("name", .text name) :: context options names dataText markup)
      [.text "- `", .shown "name", .text "` - `components/ui/", .moduleName "name",
        .lines [".tsx`"]] = .ok ((componentLine name).toList ++ ['\n']) := by
    intro name
    have bound := get?_bound (context options names dataText markup) "name" (.text name)
    have directory : "` - `components/ui/".toList =
        "` - `".toList ++ componentDirectory.toList ++ "/".toList := by decide
    have suffix : ".tsx`".toList = ".tsx".toList ++ "`".toList := by decide
    simp only [renderParts, renderPart_text, renderPart_shown bound, renderPart_moduleName bound,
      renderPart_lines, bind, Except.bind, pure, Except.pure]
    simp only [componentLine, componentPath, directory, suffix, toList_ofLines,
      String.toList_append, List.append_assoc, List.flatMap_cons, List.flatMap_nil,
      List.append_nil]
  obtain ⟨fixed, readme_eq, untitled, unbroken⟩ : ∃ fixed, readme = [.text "# ",
      .shown "project_name", .lines fixed, .whenTrue "components" [
        .lines ["", "## Components", ""],
        .forEach "name" "components" [.text "- `", .shown "name", .text "` - `components/ui/",
          .moduleName "name", .lines [".tsx`"]]]] ∧
      "## Components" ∉ fixed ∧ ∀ line ∈ fixed, '\n' ∉ line.toList :=
    ⟨_, rfl, by decide, by decide +kernel⟩
  have list := renderParts_cons (renderPart_lines ["", "## Components", ""])
    (renderParts_cons (renderPart_forEach get?_components each) renderParts_nil)
  refine ⟨fixed, untitled, unbroken, render_of_renderParts ?_⟩
  rw [readme_eq]
  simp only [renderParts, renderPart_text, renderPart_shown get?_projectName, renderPart_lines,
    renderPart_whenTrue get?_components list, bind, Except.bind, pure, Except.pure]
  by_cases none : names = []
  · simp only [componentLines, none, if_true, toList_ofLines, String.toList_append,
      List.append_assoc, List.flatMap_nil, List.append_nil]
  · simp only [componentLines, none, if_false, toList_ofLines, String.toList_append,
      List.append_assoc, List.flatMap_append, List.append_nil]

theorem renderFile_eq_ok {filled : Context} {entry : List Part × String} {file : GeneratedFile}
    (rendered : renderFile filled entry = .ok file) :
    file.path = entry.2 ∧ render filled entry.1 = .ok file.content := by
  obtain ⟨content, filledIn, rest⟩ := exists_of_bind_eq_ok rendered
  obtain rfl : (⟨entry.2, content⟩ : GeneratedFile) = file := Except.ok.inj rest
  exact ⟨rfl, filledIn⟩

theorem map_path_of_renderFiles {filled : Context} {entries : List (List Part × String)}
    {files : List GeneratedFile} (rendered : entries.mapM (renderFile filled) = .ok files) :
    files.map GeneratedFile.path = entries.map Prod.snd := by
  induction entries generalizing files with
  | nil =>
      obtain rfl : [] = files := Except.ok.inj rendered
      rfl
  | cons entry entries ih =>
      rw [List.mapM_cons] at rendered
      obtain ⟨file, first, rendered⟩ := exists_of_bind_eq_ok rendered
      obtain ⟨others, rest, rendered⟩ := exists_of_bind_eq_ok rendered
      obtain rfl : file :: others = files := Except.ok.inj rendered
      rw [List.map_cons, List.map_cons, ih rest, (renderFile_eq_ok first).1]

theorem renderFiles_trailing (options : GeneratorOptions) (names : List String)
    (dataText markup : String) :
    ∃ fixed : List String, "## Components" ∉ fixed ∧ (∀ line ∈ fixed, '\n' ∉ line.toList) ∧
      trailingFiles.mapM (renderFile (context options names dataText markup)) = .ok [
        ⟨"components/ui/index.ts", ofLines (names.map exportLine)⟩,
        ⟨"app/page.tsx", pageText names dataText markup⟩,
        ⟨"README.md", "# " ++ options.projectName ++ ofLines fixed ++
          ofLines (componentLines names)⟩] := by
  obtain ⟨fixed, untitled, unbroken, rendered⟩ := render_readme options names dataText markup
  refine ⟨fixed, untitled, unbroken, ?_⟩
  have directory : componentDirectory ++ "/index.ts" = "components/ui/index.ts" := by decide
  simp only [trailingFiles, renderFile, List.mapM_cons, List.mapM_nil, render_index, render_page,
    rendered, directory, bind, Except.bind, pure, Except.pure]

end Project

end TreeExport
