import TreeExport.Proofs.Json.Writing
import TreeExport.Proofs.Literal.Compact
import TreeExport.Proofs.Project.Contents

/-!
The name of a project in its files. The manifest is the indented literal of one fixed map with the name in it,
and the frame of the pages is a fixed text with the literal of the name in it. Whatever the name is, its literal
stays on its line, and a reader of it stops where the fixed text goes on.
-/

namespace TreeExport

namespace Json

theorem Reads.read_append_blank {text blank : List Char} {value : Value} (reads : Reads text value)
    (isBlank : Blank blank) : Json.read (String.ofList (text ++ blank)) = .ok value := by
  have ends : Ends blank := by simpa using ends_append isBlank ends_nil
  have whole := reads.read (2 * (text ++ blank).length + 2) blank (by simp; omega) ends
  have skipped : skipSpace blank = [] := by simpa [skipSpace] using skipSpace_append isBlank []
  have all : readAll (text ++ blank) = .ok value := by
    rw [(reads.opens.append blank).readAll_eq, bind_of_eq_ok whole, atEnd, skipped]
    rfl
  rw [Json.read, String.toList_ofList, all]

end Json

namespace Project

open Registry (ofLines)
open Scaffold (Part Context render renderPart renderParts toList_ofLines)

variable {registry : Registry} {limit : Int} {tree : UITree} {options : GeneratorOptions}
variable {names : List String} {dataText markup : String}

def textsValue (entries : List (String × String)) : Value :=
  .ofKeyed (entries.map fun entry => (entry.1, .text entry.2))

def manifestRest : Keyed Value := [
  ("version", .text "0.1.0"),
  ("private", .bool true),
  ("scripts", textsValue [("dev", "next dev"), ("build", "next build"), ("start", "next start"),
    ("lint", "next lint")]),
  ("dependencies", textsValue [("next", "^14.2.0"), ("react", "^18.3.0"), ("react-dom", "^18.3.0")]),
  ("devDependencies", textsValue [("@types/node", "^20.0.0"), ("@types/react", "^18.3.0"),
    ("@types/react-dom", "^18.3.0"), ("typescript", "^5.4.0")])]

def manifestValue (name : String) : Value := .ofKeyed (("name", .text name) :: manifestRest)

def nameLiteral (name : String) : String := String.ofList (Literal.quote name.toList)

def manifestTail : List String :=
  match Scaffold.manifest with
  | [_, _, _, .lines tail] => tail
  | _ => []

def manifestText (name : String) : String :=
  ofLines ["\x7b"] ++ "  \"name\": " ++ nameLiteral name ++ ofLines manifestTail

def frameHead : List String := [
  "import type \x7b Metadata \x7d from \"next\";",
  "import \"./globals.css\";",
  "",
  "export const metadata: Metadata = \x7b"]

def frameTail : List String := [
  "  description: \"Generated dashboard\",",
  "\x7d;",
  "",
  "export default function RootLayout(\x7b",
  "  children,",
  "\x7d: \x7b",
  "  children: React.ReactNode;",
  "\x7d) \x7b",
  "  return (",
  "    <html lang=\"en\">",
  "      <body>\x7bchildren\x7d</body>",
  "    </html>",
  "  );",
  "\x7d"]

def frameText (literal : String) : String :=
  ofLines frameHead ++ "  title: " ++ literal ++ ofLines ("," :: frameTail)

theorem renderPart_literal {context : Context} {name text : String}
    (found : Keyed.get? context name = some (.text text)) :
    renderPart context (.literal name) = .ok (nameLiteral text).toList := by
  rw [renderPart, found, nameLiteral, String.toList_ofList]
  rfl

/-- A template of lines, a text, the literal of the name, and lines. -/
theorem render_titled (head : List String) (before : String) (tail : List String) :
    render (context options names dataText markup)
      [.lines head, .text before, .literal "project_name", .lines tail] =
      .ok (ofLines head ++ before ++ nameLiteral options.projectName ++ ofLines tail) := by
  apply Scaffold.render_of_renderParts
  simp only [renderParts, Scaffold.renderPart_text, Scaffold.renderPart_lines,
    renderPart_literal get?_projectName, bind, Except.bind, pure, Except.pure, String.toList_append,
    List.append_assoc, List.append_nil]

theorem render_manifest : render (context options names dataText markup) Scaffold.manifest =
    .ok (manifestText options.projectName) :=
  render_titled ["\x7b"] "  \"name\": " manifestTail

theorem render_frame : render (context options names dataText markup) Scaffold.layout =
    .ok (frameText (nameLiteral options.projectName)) :=
  render_titled frameHead "  title: " ("," :: frameTail)

theorem bracket_cons (spacing : Literal.Spacing) (depth : Nat) (opening closing : Char) (piece : List Char)
    (pieces : List (List Char)) :
    Literal.bracket spacing depth opening closing (piece :: pieces) =
      opening :: spacing.lineBreak (depth + 1) ++ piece ++
        (pieces.flatMap ((',' :: spacing.lineBreak (depth + 1)) ++ ·) ++ spacing.lineBreak depth ++
          [closing]) := by
  simp [Literal.bracket, Text.intercalate_cons_eq_append]

set_option maxRecDepth 10000 in
theorem exists_encode_manifestRest :
    ∃ pieces, Literal.encodeEntries (.indented 2) 1 (Json.textEntries manifestRest) = .ok pieces ∧
      pieces.flatMap ([',', '\n', ' ', ' '] ++ ·) ++ ['\n', '\x7d', '\n'] = (ofLines manifestTail).toList := by
  refine ⟨_, rfl, ?_⟩
  rw [toList_ofLines]
  decide

theorem manifestText_eq (name : String) :
    ∃ written, Literal.encodeAt (.indented 2) 0 (manifestValue name) = .ok written ∧
      manifestText name = String.ofList (written ++ ['\n']) := by
  obtain ⟨pieces, encoded, tail⟩ := exists_encode_manifestRest
  have entries : Literal.encodeEntries (.indented 2) 1
      (Json.textEntries (("name", .text name) :: manifestRest)) =
        .ok ((Literal.quote "name".toList ++ [':', ' '] ++ Literal.quote name.toList) :: pieces) := by
    show (do
      let texts ← Literal.encodeEntries (.indented 2) 1 (Json.textEntries manifestRest)
      return (Literal.quote "name".toList ++ [':', ' '] ++ Literal.quote name.toList) :: texts) = _
    rw [encoded]
    rfl
  refine ⟨Literal.bracket (.indented 2) 0 '\x7b' '\x7d'
    ((Literal.quote "name".toList ++ [':', ' '] ++ Literal.quote name.toList) :: pieces), ?_, ?_⟩
  · show (do
      let pieces ← Literal.encodeEntries (.indented 2) 1
        (Json.textEntries (("name", .text name) :: manifestRest))
      return Literal.bracket (.indented 2) 0 '\x7b' '\x7d' pieces) = _
    rw [entries]
    rfl
  · rw [← String.toList_inj, String.toList_ofList, bracket_cons, manifestText]
    simp only [String.toList_append, ← tail, nameLiteral, String.toList_ofList]
    have head : (ofLines ["\x7b"]).toList ++ "  \"name\": ".toList =
        ['\x7b', '\n', ' ', ' '] ++ Literal.quote "name".toList ++ [':', ' '] := by decide
    have inner : (Literal.Spacing.indented 2).lineBreak 1 = ['\n', ' ', ' '] := rfl
    have outer : (Literal.Spacing.indented 2).lineBreak 0 = ['\n'] := rfl
    rw [head, inner, outer]
    simp only [List.append_assoc, List.cons_append, List.nil_append]

theorem count_lineFeed_ofLines {lines : List String} (each : ∀ line ∈ lines, '\n' ∉ line.toList) :
    (ofLines lines).toList.count '\n' = lines.length := by
  have pieces := congrArg List.length (Scaffold.split_ofLines_append each [])
  rw [List.append_nil, Text.length_split, List.length_append, List.length_map] at pieces
  exact Nat.add_right_cancel pieces

theorem length_split_titled {head tail : List String} {before : String} (name : String)
    (each : ∀ line ∈ head ++ before :: tail, '\n' ∉ line.toList) :
    (Text.split '\n' (ofLines head ++ before ++ nameLiteral name ++ ofLines tail).toList).length =
      head.length + tail.length + 1 := by
  have literal : (nameLiteral name).toList.count '\n' = 0 := by
    rw [nameLiteral, String.toList_ofList, List.count_eq_zero]
    exact Json.lineFeed_not_mem_quote name.toList
  have first := count_lineFeed_ofLines fun line member => each line (List.mem_append_left _ member)
  have last := count_lineFeed_ofLines fun line member =>
    each line (List.mem_append_right head (List.mem_cons_of_mem before member))
  have between : before.toList.count '\n' = 0 :=
    List.count_eq_zero.mpr (each before (List.mem_append_right head List.mem_cons_self))
  rw [Text.length_split]
  simp only [String.toList_append, List.count_append, first, between, literal, last]
  omega

theorem length_split_manifestText (name : String) :
    (Text.split '\n' (manifestText name).toList).length = 23 :=
  length_split_titled name (by decide_cbv)

theorem length_split_frameText (name : String) :
    (Text.split '\n' (frameText (nameLiteral name)).toList).length = 20 :=
  length_split_titled name (by decide_cbv)

theorem isJson_textsValue {entries : List (String × String)} (distinct : (entries.map Prod.fst).Nodup) :
    (textsValue entries).IsJson := by
  refine .map ?_ ?_
  · rw [Keyed.keys, List.map_map]
    exact distinct
  · intro entry member
    obtain ⟨pair, _, rfl⟩ := List.mem_map.mp member
    exact .text pair.2

theorem isJson_manifestValue (name : String) : (manifestValue name).IsJson := by
  have distinct : ["name", "version", "private", "scripts", "dependencies", "devDependencies"].Nodup := by
    decide
  refine .map distinct ?_
  intro entry member
  simp only [manifestRest, List.mem_cons, List.not_mem_nil, or_false] at member
  rcases member with rfl | rfl | rfl | rfl | rfl | rfl
  · exact .text name
  · exact .text "0.1.0"
  · exact .bool true
  · exact isJson_textsValue (by decide)
  · exact isJson_textsValue (by decide)
  · exact isJson_textsValue (by decide)

theorem read_manifestText (name : String) : Json.read (manifestText name) = .ok (manifestValue name) := by
  obtain ⟨written, encoded, text⟩ := manifestText_eq name
  obtain ⟨other, encodedToo, spells⟩ := Json.written_of_isJson (.indented 2) (isJson_manifestValue name) 0
  obtain rfl := Except.ok.inj (encoded.symm.trans encodedToo)
  rw [text]
  exact spells.reads.read_append_blank (by simp [Json.Blank, Json.isSpace])

theorem renderFile_of_render {filled : Context} {template : List Part} {path content : String}
    {file : GeneratedFile} (rendered : renderFile filled (template, path) = .ok file)
    (filledIn : render filled template = .ok content) : file = ⟨path, content⟩ := by
  obtain ⟨samePath, sameText⟩ := renderFile_eq_ok rendered
  obtain ⟨filePath, text⟩ := file
  obtain rfl : filePath = path := samePath
  obtain rfl : content = text := Except.ok.inj (filledIn.symm.trans sameText)
  rfl

theorem exists_leading {leading : List GeneratedFile}
    (rendered : leadingFiles.mapM (renderFile (context options names dataText markup)) = .ok leading) :
    ∃ settings compiler styles : GeneratedFile, leading = [
      ⟨"package.json", manifestText options.projectName⟩, settings, compiler, styles,
      ⟨"app/layout.tsx", frameText (nameLiteral options.projectName)⟩] ∧
      settings.path = "next.config.js" ∧ compiler.path = "tsconfig.json" ∧
      styles.path = "app/globals.css" := by
  have files := forall₂_of_mapM_eq_ok rendered
  rw [leadingFiles] at files
  rcases files with _ | ⟨first, _ | ⟨second, _ | ⟨third, _ | ⟨fourth, _ | ⟨fifth, _ | _⟩⟩⟩⟩⟩
  obtain rfl := renderFile_of_render first render_manifest
  obtain rfl := renderFile_of_render fifth render_frame
  exact ⟨_, _, _, rfl, (renderFile_eq_ok second).1, (renderFile_eq_ok third).1, (renderFile_eq_ok fourth).1⟩

theorem get?_manifest_frame {output : Output}
    (built : outputOf registry limit tree options = .ok output) :
    output.result.get? "package.json" = some ⟨"package.json", manifestText options.projectName⟩ ∧
      output.result.get? "app/layout.tsx" =
        some ⟨"app/layout.tsx", frameText (nameLiteral options.projectName)⟩ := by
  obtain ⟨lines, dataText, leading, trailing, _, _, rendered, _, files, _⟩ := outputOf_eq_ok built
  obtain ⟨settings, compiler, styles, rfl, second, third, fourth⟩ := exists_leading rendered
  rw [GenerationResult.get?, GenerationResult.get?, Output.result, files]
  simp [second, third, fourth]

/-- In a finished project the manifest is read as the fixed map with the project's name, and the frame is the
fixed text with a literal of the name as its title. A reader of the literal stops exactly at the comma behind
it, and neither file has other lines than with any other name. -/
theorem build_quotes_name {strict : Bool} {output : Output}
    (built : build registry limit strict tree options = .ok output) :
    ∃ manifest literal,
      output.result.get? "package.json" = some ⟨"package.json", manifest⟩ ∧
      Json.read manifest = .ok (manifestValue options.projectName) ∧
      (Text.split '\n' manifest.toList).length = 23 ∧
      output.result.get? "app/layout.tsx" = some ⟨"app/layout.tsx", frameText literal⟩ ∧
      Json.read literal = .ok (.text options.projectName) ∧
      (∀ rest, Json.readValue (literal.toList ++ ',' :: rest).length (literal.toList ++ ',' :: rest) =
        .ok (.text options.projectName, ',' :: rest)) ∧
      (∀ c ∈ literal.toList, 0x20 ≤ c.toNat) ∧
      (Text.split '\n' (frameText literal).toList).length = 20 := by
  obtain ⟨manifestFound, frameFound⟩ := get?_manifest_frame (outputOf_of_build built)
  have reads := Json.reads_quote options.projectName
  refine ⟨manifestText options.projectName, nameLiteral options.projectName, manifestFound,
    read_manifestText _, length_split_manifestText _, frameFound, reads.read_eq, ?_, ?_,
    length_split_frameText _⟩
  · intro rest
    have comma : Json.Ends (',' :: rest) :=
      Json.ends_cons rest (by decide) (by decide) (by decide) (by decide)
    rw [nameLiteral, String.toList_ofList]
    exact reads.read _ _ (by simp) comma
  · rw [nameLiteral, String.toList_ofList]
    exact Literal.visible_quote options.projectName.toList

def trickyName : String := "\",\n\\ \x7b\x7b name \x7d\x7d"

theorem build_quotes_name_tricky :
    ∃ output manifest literal,
      build ⟨[]⟩ 1 false ⟨"a", []⟩ ⟨trickyName, []⟩ = .ok output ∧
      output.result.get? "package.json" = some ⟨"package.json", manifest⟩ ∧
      Json.read manifest = .ok (manifestValue trickyName) ∧
      output.result.get? "app/layout.tsx" = some ⟨"app/layout.tsx", frameText literal⟩ ∧
      Json.read literal = .ok (.text trickyName) := by
  have emitted : (UITree.emit ⟨"a", []⟩ 1 "a" pageColumn).outcome = .ok [] := by
    rw [UITree.emit, Walk.run_of_next rfl, Walk.run_of_end rfl]
    rfl
  have encoded : dataLiteral (.ofKeyed []) = .ok "\x7b\x7d" := by decide
  obtain ⟨output, written⟩ := @exists_outputOf ⟨[]⟩ 1 ⟨"a", []⟩ ⟨trickyName, []⟩ _ _ emitted encoded
  have built : build ⟨[]⟩ 1 false ⟨"a", []⟩ ⟨trickyName, []⟩ = .ok output := by simp [build_eq_accept, accept, written]
  obtain ⟨manifest, literal, manifestFound, manifestRead, _, frameFound, read, _⟩ := build_quotes_name built
  exact ⟨output, manifest, literal, built, manifestFound, manifestRead, frameFound, read⟩

end Project

end TreeExport
