import TreeExport.Proofs.Json.Writing
import TreeExport.Proofs.Project.Components

/-!
The data in the page. The first line that starts like the data holds its literal, which goes on up to the
first semicolon at the end of a line: no semicolon inside the literal stands before a line feed, since a text
in it stays on its line and ends with a quote. What is cut out there reads back as the data.
-/

namespace TreeExport

namespace Json

open Literal (quote)

/-- Whether every semicolon of a text has something other than a line feed behind it. -/
def Settled : List Char → Prop
  | [] => True
  | c :: rest => (c = ';' → ∃ next others, rest = next :: others ∧ next ≠ '\n') ∧ Settled rest

theorem settled_append {first second : List Char} (before : Settled first) (behind : Settled second) :
    Settled (first ++ second) := by
  induction first with
  | nil => exact behind
  | cons c rest ih =>
      refine ⟨?_, ih before.2⟩
      intro semicolon
      obtain ⟨next, others, rfl, visible⟩ := before.1 semicolon
      exact ⟨next, others ++ second, rfl, visible⟩

theorem settled_of_not_mem {text : List Char} (absent : ';' ∉ text) : Settled text := by
  induction text with
  | nil => exact trivial
  | cons c rest ih =>
      simp only [List.mem_cons, not_or] at absent
      exact ⟨fun semicolon => absurd semicolon.symm absent.1, ih absent.2⟩

theorem settled_closed {text : List Char} {last : Char} (single : '\n' ∉ text ++ [last])
    (closing : last ≠ ';') : Settled (text ++ [last]) := by
  induction text with
  | nil => exact ⟨fun semicolon => absurd semicolon closing, trivial⟩
  | cons c rest ih =>
      simp only [List.cons_append, List.mem_cons, not_or] at single
      refine ⟨fun _ => ?_, ih single.2⟩
      cases rest with
      | nil =>
          refine ⟨last, [], rfl, ?_⟩
          rintro rfl
          exact single.2 (by simp)
      | cons next others =>
          refine ⟨next, others ++ [last], rfl, ?_⟩
          rintro rfl
          exact single.2 (by simp)

theorem settled_intercalate {separator : List Char} {pieces : List (List Char)}
    (between : Settled separator) (each : ∀ piece ∈ pieces, Settled piece) :
    Settled (separator.intercalate pieces) := by
  induction pieces with
  | nil => exact trivial
  | cons piece pieces ih =>
      have first := each piece List.mem_cons_self
      have later := ih fun other inside => each other (List.mem_cons_of_mem piece inside)
      cases pieces with
      | nil => rwa [List.intercalate_singleton]
      | cons next others =>
          rw [List.intercalate_cons_cons]
          exact settled_append (settled_append first between) later

theorem settled_quote (text : List Char) : Settled (quote text) :=
  settled_closed (lineFeed_not_mem_quote text) (by decide)

theorem settled_blank {blank : List Char} (isBlank : Blank blank) : Settled blank :=
  settled_of_not_mem fun inside => absurd (isBlank ';' inside) (by decide)

theorem settled_enclose {opening closing : Char} {inner outer : List Char} {pieces : List (List Char)}
    (start : opening ≠ ';') (stop : closing ≠ ';') (isInner : Blank inner) (isOuter : Blank outer)
    (each : ∀ piece ∈ pieces, Settled piece) :
    Settled (enclose opening closing inner outer pieces) := by
  have last : Settled [closing] := settled_of_not_mem (by simpa using Ne.symm stop)
  cases pieces with
  | nil => exact ⟨fun semicolon => absurd semicolon start, last⟩
  | cons piece pieces =>
      have comma : Settled (',' :: inner) := ⟨nofun, settled_blank isInner⟩
      exact ⟨fun semicolon => absurd semicolon start,
        settled_append (settled_blank isInner) (settled_append (settled_intercalate comma each)
          (settled_append (settled_blank isOuter) last))⟩

theorem Spells.settled {text : List Char} {value : Value} (spells : Spells text value) :
    Settled text := by
  induction spells with
  | null => exact settled_of_not_mem (by decide)
  | bool value => exact settled_of_not_mem (by cases value <;> decide)
  | int _ =>
      exact settled_of_not_mem fun inside =>
        absurd (Numeral.isPlain_of_mem_integerText inside) (by decide)
  | float _ =>
      exact settled_of_not_mem fun inside =>
        absurd (Numeral.isPlain_of_mem_render inside) (by decide)
  | text value => exact settled_quote value.toList
  | list items isInner isOuter _ ih =>
      refine settled_enclose (by decide) (by decide) isInner isOuter ?_
      intro piece inside
      obtain ⟨item, member, rfl⟩ := List.mem_map.mp inside
      exact ih item member
  | @map inner outer gap entries isInner isOuter isGap _ _ ih =>
      refine settled_enclose (by decide) (by decide) isInner isOuter ?_
      intro piece inside
      obtain ⟨entry, member, rfl⟩ := List.mem_map.mp inside
      have colon : Settled (':' :: (gap ++ entry.2.1)) :=
        ⟨nofun, settled_append (settled_blank isGap) (ih entry member)⟩
      exact settled_append (settled_quote entry.1.toList) colon

end Json

namespace Project

open Registry

variable {registry : Registry} {limit : Int} {tree : UITree} {options : GeneratorOptions}

def cutAtTerminator : List Char → Option (List Char × List Char)
  | ';' :: '\n' :: rest => some ([], rest)
  | c :: rest => (cutAtTerminator rest).map fun (before, behind) => (c :: before, behind)
  | [] => none

/-- The literal of the data in a page, and all that is behind its terminator. -/
def dataSection? (page : String) : Option (List Char × List Char) :=
  let lines := Text.split '\n' page.toList
  match lines.dropWhile fun line => !dataOpening.toList.isPrefixOf line with
  | [] => none
  | lines => cutAtTerminator ((['\n'].intercalate lines).drop dataOpening.toList.length)

theorem cutAtTerminator_settled {text : List Char} (settled : Json.Settled text) (rest : List Char) :
    cutAtTerminator (text ++ ';' :: '\n' :: rest) = some (text, rest) := by
  induction text with
  | nil => rfl
  | cons c text ih =>
      rw [List.cons_append, cutAtTerminator, ih settled.2]
      · rfl
      · rintro behind rfl split
        obtain ⟨next, others, rfl, visible⟩ := settled.1 rfl
        exact visible (List.cons.inj split).1

theorem not_isPrefixOf_pageHeader {names : List String} {line : String}
    (member : line ∈ pageHeader names) : dataOpening.toList.isPrefixOf line.toList = false := by
  have fixed : ∀ line ∈ ["\"use client\";", ""],
      dataOpening.toList.isPrefixOf line.toList = false := by decide
  rcases eq_of_mem_pageHeader member with first | rfl
  · exact fixed line first
  · rw [importLine, String.toList_append, String.toList_append]
    rfl

theorem dataSection?_eq {page : String} {header : List (List Char)} {literal behind : List Char}
    (split : Text.split '\n' page.toList = header ++
      Text.split '\n' (dataOpening.toList ++ (literal ++ ';' :: '\n' :: behind)))
    (other : ∀ line ∈ header, dataOpening.toList.isPrefixOf line = false)
    (settled : Json.Settled literal) : dataSection? page = some (literal, behind) := by
  have single : '\n' ∉ dataOpening.toList := by decide
  obtain ⟨first, others, start⟩ := Text.exists_split_append single (literal ++ ';' :: '\n' :: behind)
  have skipped : (Text.split '\n' page.toList).dropWhile
      (fun line => !dataOpening.toList.isPrefixOf line) =
        Text.split '\n' (dataOpening.toList ++ (literal ++ ';' :: '\n' :: behind)) := by
    rw [split, List.dropWhile_append_of_pos fun line inside => by simp [other line inside], start,
      List.dropWhile_cons_of_neg (by simp)]
  unfold dataSection?
  dsimp only
  rw [skipped]
  split
  · rename_i none
    exact absurd none (Text.split_ne_nil '\n' _)
  · rw [Text.intercalate_split, List.drop_left, cutAtTerminator_settled settled]

theorem componentPath_ne_page (name : String) : componentPath name ≠ "app/page.tsx" := by
  intro same
  have heads := congrArg (fun path => path.toList.head?) same
  simp [componentPath, componentDirectory] at heads

theorem path_of_mem_sources {components : List String} {sources : List GeneratedFile}
    (held : List.Forall₂ (SourceOf registry) components sources) {file : GeneratedFile}
    (member : file ∈ sources) : ∃ name, file.path = componentPath name := by
  induction held with
  | nil => simp at member
  | cons first _ ih =>
      rcases List.mem_cons.mp member with rfl | later
      · exact ⟨_, first.1⟩
      · exact ih later

theorem get?_page {output : Output} {parts : Parts} {components : List String} {markup : String}
    (files : output.files = parts.files) (lists : parts.Lists registry options markup components) :
    output.result.get? "app/page.tsx" = some ⟨"app/page.tsx", parts.page⟩ := by
  have scaffold : parts.scaffold.find? (·.path == "app/page.tsx") = none := by
    rw [List.find?_eq_none]
    intro file member
    have listed : file.path ∈ parts.scaffold.map GeneratedFile.path := List.mem_map_of_mem member
    rw [lists.scaffold] at listed
    have others : ∀ path ∈ ["package.json", "next.config.js", "tsconfig.json", "app/globals.css",
        "app/layout.tsx"], path ≠ "app/page.tsx" := by decide
    simpa using others file.path listed
  have sources : parts.sources.find? (·.path == "app/page.tsx") = none := by
    rw [List.find?_eq_none]
    intro file member
    obtain ⟨name, path⟩ := path_of_mem_sources lists.sources member
    simpa [path] using componentPath_ne_page name
  rw [GenerationResult.get?, Output.result, files, Parts.files, List.find?_append, List.find?_append,
    scaffold, sources]
  rfl

/-- The page of a successful build holds the data as a literal that reads back as the data, and behind it
nothing but the shell around the markup. -/
theorem build_embeds_data {strict : Bool} {output : Output}
    (unbroken : ∀ name, registry.contains name → '\n' ∉ name.toList)
    (distinct : options.data.keys.Nodup) (json : ∀ entry ∈ options.data, entry.2.IsJson)
    (built : build registry limit strict tree options = .ok output) :
    ∃ page literal lines,
      output.result.get? "app/page.tsx" = some ⟨"app/page.tsx", page⟩ ∧
      (tree.emit limit tree.root pageColumn).outcome = .ok lines ∧
      dataSection? page = some (literal, (pageShell (Emission.joinLines lines)).toList) ∧
      Json.read (String.ofList literal) = .ok (.ofKeyed options.data) := by
  obtain ⟨lines, parts, emitted, files, _, lists⟩ := exists_parts unbroken (outputOf_of_build built)
  obtain ⟨dataText, encoded, cut⟩ := lists.page
  obtain ⟨text, written, spells⟩ := Json.written_of_isJson (.indented 2) (.map distinct json) 0
  -- The page holds the written text with two blanks before every line but the first.
  have literal : dataText.toList = Json.shift [' ', ' '] text := by
    rw [dataLiteral, Literal.encode, bind_of_eq_ok written] at encoded
    rw [← Except.ok.inj encoded, String.toList_ofList]
    rfl
  have moved : Json.Spells dataText.toList (.ofKeyed options.data) := by
    rw [literal]
    exact spells.shift (by simp [Json.Blank, Json.isSpace])
  refine ⟨parts.page, dataText.toList, lines, get?_page files lists, emitted, ?_, moved.read_eq⟩
  have terminator : ";\n".toList = [';', '\n'] := by decide
  simp only [String.toList_append, terminator, List.append_assoc, List.cons_append,
    List.nil_append] at cut
  refine dataSection?_eq cut ?_ moved.settled
  intro line member
  obtain ⟨line, listed, rfl⟩ := List.mem_map.mp member
  exact not_isPrefixOf_pageHeader listed

def trickyData : Keyed Value := [
  ("a;\n", .text "const data = \x7b\x7d;\n\"\\ \x7b\x7b x \x7d\x7d"),
  ("b", .list [.null, .int (-12), .float (.finite ⟨false, 0x18000000000000, -52, by decide⟩)])]

/-- The page of a small tree gives the data back whose texts look like its end. -/
theorem build_embeds_data_tricky :
    (∀ name, contains ⟨[("Text", "text")]⟩ name → '\n' ∉ name.toList) ∧
    trickyData.keys.Nodup ∧ (∀ entry ∈ trickyData, entry.2.IsJson) ∧
    ∃ output page literal lines,
      build ⟨[("Text", "text")]⟩ 3 false UITree.tangled ⟨"tricky", trickyData⟩ = .ok output ∧
      output.result.get? "app/page.tsx" = some ⟨"app/page.tsx", page⟩ ∧
      dataSection? page = some (literal, (pageShell (Emission.joinLines lines)).toList) ∧
      Json.read (String.ofList literal) = .ok (.ofKeyed trickyData) := by
  have unbroken : ∀ name, contains ⟨[("Text", "text")]⟩ name → '\n' ∉ name.toList := by
    intro name held
    rw [eq_of_contains_singleton held]
    decide
  have distinct : trickyData.keys.Nodup := by decide
  have back : Json.ReadsBack ⟨false, 0x18000000000000, -52, by decide⟩ :=
    ⟨.finite ⟨false, 0x18000000000000, -52, by decide⟩, by decide +kernel, by decide +kernel⟩
  have items : ∀ item ∈ [Value.null, .int (-12), .float (.finite ⟨false, 0x18000000000000, -52, by decide⟩)],
      item.IsJson := by
    intro item member
    simp only [List.mem_cons, List.not_mem_nil, or_false] at member
    rcases member with rfl | rfl | rfl
    · exact .null
    · exact .int (by decide)
    · exact .float back
  have json : ∀ entry ∈ trickyData, entry.2.IsJson := by
    intro entry member
    simp only [trickyData, List.mem_cons, List.not_mem_nil, or_false] at member
    rcases member with rfl | rfl
    · exact .text _
    · exact .list items
  have used : UITree.tangled.usedTypes = ["Stack", "Card", "Grid", "Text"] := by cbv
  have written : (outputOf ⟨[("Text", "text")]⟩ 3 UITree.tangled ⟨"tricky", trickyData⟩).isOk =
      true := by
    simp only [outputOf, outputListing, used]
    decide +kernel
  obtain ⟨output, built⟩ := exists_build_of_isOk written
  obtain ⟨page, literal, lines, found, _, section_, read⟩ :=
    build_embeds_data unbroken distinct json built
  exact ⟨unbroken, distinct, json, output, page, literal, lines, built, found, section_, read⟩

end Project

end TreeExport
