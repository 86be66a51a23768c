import TreeExport.Registry.Basic
import TreeExport.Scaffold.Template

/-!
What the parts of a template give when their values are texts and lists of texts, and how a text of lines
is cut at its line feeds.
-/

namespace TreeExport

namespace Scaffold

open Registry (ofLines)

variable {context : Context}

theorem toList_ofLines (lines : List String) :
    (ofLines lines).toList = lines.flatMap fun line => line.toList ++ ['\n'] := by
  have lineFeed : "\n".toList = ['\n'] := by decide
  rw [ofLines, String.toList_join, List.flatMap_map]
  simp only [String.toList_append, lineFeed]

theorem split_ofLines_append {lines : List String} (each : ∀ line ∈ lines, '\n' ∉ line.toList)
    (rest : List Char) :
    Text.split '\n' ((ofLines lines).toList ++ rest) =
      lines.map String.toList ++ Text.split '\n' rest := by
  rw [toList_ofLines]
  induction lines with
  | nil => rfl
  | cons line lines ih =>
      have whole := Text.split_of_not_mem (each line List.mem_cons_self)
      have others := ih fun other member => each other (List.mem_cons_of_mem line member)
      rw [List.flatMap_cons, List.append_assoc, List.append_assoc, List.singleton_append,
        Text.split_append_cons, whole, others]
      rfl

theorem mapM_texts {ε β : Type} {texts : List String} {f : Value → Except ε β} {g : String → β}
    (each : ∀ text, f (.text text) = .ok (g text)) :
    (texts.map Value.text).mapM f = .ok (texts.map g) := by
  induction texts with
  | nil => rfl
  | cons text texts ih =>
      rw [List.map_cons, List.mapM_cons, each, ih]
      rfl

theorem renderParts_nil : renderParts context [] = .ok [] := rfl

theorem renderParts_cons {part : Part} {rest : List Part} {text more : List Char}
    (first : renderPart context part = .ok text) (others : renderParts context rest = .ok more) :
    renderParts context (part :: rest) = .ok (text ++ more) := by
  rw [renderParts, first, others]
  rfl

theorem renderPart_text (content : String) :
    renderPart context (.text content) = .ok content.toList := rfl

theorem renderPart_lines (lines : List String) :
    renderPart context (.lines lines) = .ok (ofLines lines).toList := by
  rw [renderPart, toList_ofLines]

theorem renderPart_shown {name text : String}
    (found : Keyed.get? context name = some (.text text)) :
    renderPart context (.shown name) = .ok text.toList := by
  rw [renderPart, found]
  rfl

theorem renderPart_moduleName {name text : String}
    (found : Keyed.get? context name = some (.text text)) :
    renderPart context (.moduleName name) = .ok (moduleName text).toList := by
  rw [renderPart, found]
  rfl

theorem renderPart_joined {name separator : String} {texts : List String}
    (found : Keyed.get? context name = some (.list (texts.map .text))) :
    renderPart context (.joined name separator) = .ok (separator.intercalate texts).toList := by
  have each : ∀ text, showValue (.text text) = .ok text.toList := fun _ => rfl
  rw [renderPart, found, itemsOf, String.toList_intercalate]
  simp only [bind, Except.bind]
  rw [mapM_texts each]
  rfl

theorem renderPart_whenTrue {name : String} {parts : List Part} {texts : List String}
    {text : List Char} (found : Keyed.get? context name = some (.list (texts.map .text)))
    (filled : renderParts context parts = .ok text) :
    renderPart context (.whenTrue name parts) = .ok (if texts = [] then [] else text) := by
  rw [renderPart, found]
  cases texts with
  | nil => rfl
  | cons first others => exact filled

theorem renderPart_forEach {item name : String} {parts : List Part} {texts : List String}
    {line : String → String} (found : Keyed.get? context name = some (.list (texts.map .text)))
    (filled : ∀ text, renderParts ((item, .text text) :: context) parts =
      .ok ((line text).toList ++ ['\n'])) :
    renderPart context (.forEach item name parts) = .ok (ofLines (texts.map line)).toList := by
  rw [renderPart, found, itemsOf, toList_ofLines, List.flatMap_map]
  simp only [bind, Except.bind]
  rw [mapM_texts filled]
  rfl

theorem render_of_renderParts {template : List Part} {text : String}
    (filled : renderParts context template = .ok text.toList) :
    render context template = .ok text := by
  rw [render, filled]
  simp [bind, Except.bind, pure, Except.pure]

end Scaffold

end TreeExport
