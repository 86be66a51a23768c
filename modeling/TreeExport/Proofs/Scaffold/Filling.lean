import TreeExport.Proofs.Outcome
import TreeExport.Scaffold.Template

/-!
When filling in a template cannot fail. Every text has a literal and a lower case, and all items of a list
of texts are texts, so it is enough that no list stands where a single text is needed.
-/

namespace TreeExport

namespace Scaffold

variable {lists : List String} {context : Context}

/-- Whether all values are texts, except for lists of texts under some names. -/
def Textual (lists : List String) (context : Context) : Prop :=
  ∀ name value, Keyed.get? context name = some value →
    (∃ text, value = .text text) ∨ name ∈ lists ∧ ∃ texts, value = .list (List.map .text texts)

theorem Textual.nil : Textual lists [] := by
  intro name value found
  simp at found

theorem Textual.bind {bound text : String} (textual : Textual lists context) :
    Textual lists ((bound, .text text) :: context) := by
  intro name value found
  rw [Keyed.get?_cons] at found
  split at found
  · exact Or.inl ⟨text, (Option.some.inj found).symm⟩
  · exact textual name value found

theorem Textual.bindList {bound : String} {texts : List String} (textual : Textual lists context)
    (listed : bound ∈ lists) : Textual lists ((bound, .list (texts.map .text)) :: context) := by
  intro name value found
  rw [Keyed.get?_cons] at found
  split at found
  · rename_i same
    rw [← same] at listed
    exact Or.inr ⟨listed, texts, (Option.some.inj found).symm⟩
  · exact textual name value found

theorem Textual.get? (textual : Textual lists context) {name : String} (single : name ∉ lists) :
    Keyed.get? context name = none ∨ ∃ text, Keyed.get? context name = some (.text text) := by
  cases found : Keyed.get? context name with
  | none => exact Or.inl rfl
  | some value =>
      rcases textual name value found with ⟨text, rfl⟩ | ⟨member, _⟩
      · exact Or.inr ⟨text, rfl⟩
      · exact absurd member single

theorem Textual.itemsOf_eq (textual : Textual lists context) (name : String) :
    ∃ texts, itemsOf (Keyed.get? context name) = .ok (List.map .text texts) := by
  cases found : Keyed.get? context name with
  | none => exact ⟨[], rfl⟩
  | some value =>
      rcases textual name value found with ⟨text, rfl⟩ | ⟨_, texts, rfl⟩
      · exact ⟨text.toList.map String.singleton, by simp [itemsOf]⟩
      · exact ⟨texts, rfl⟩

mutual

def Part.fits (lists : List String) : Part → Bool
  | .text _ => true
  | .lines _ => true
  | .shown name => !lists.contains name
  | .literal name => !lists.contains name
  | .joined _ _ => true
  | .moduleName name => !lists.contains name
  | .whenTrue _ parts => partsFit lists parts
  | .forEach _ _ parts => partsFit lists parts

def partsFit (lists : List String) : List Part → Bool
  | [] => true
  | part :: rest => part.fits lists && partsFit lists rest

end

mutual

theorem exists_renderPart {context : Context} (textual : Textual lists context) :
    ∀ part : Part, part.fits lists → ∃ text, renderPart context part = .ok text
  | .text content, _ => ⟨content.toList, rfl⟩
  | .lines contents, _ => ⟨_, rfl⟩
  | .shown name, fits => by
      have single : name ∉ lists := by simpa [Part.fits] using fits
      rcases textual.get? single with missing | ⟨text, found⟩
      · rw [renderPart, missing]
        exact ⟨_, rfl⟩
      · rw [renderPart, found]
        exact ⟨_, rfl⟩
  | .literal name, fits => by
      have single : name ∉ lists := by simpa [Part.fits] using fits
      rcases textual.get? single with missing | ⟨text, found⟩
      · rw [renderPart, missing]
        exact ⟨_, rfl⟩
      · rw [renderPart, found]
        exact ⟨_, rfl⟩
  | .joined name separator, _ => by
      obtain ⟨texts, items⟩ := textual.itemsOf_eq name
      have each : ∀ item ∈ List.map Value.text texts, ∃ shown, showValue item = .ok shown := by
        intro item member
        obtain ⟨text, _, rfl⟩ := List.mem_map.mp member
        exact ⟨_, rfl⟩
      obtain ⟨shown, all⟩ := exists_mapM_eq_ok each
      refine ⟨separator.toList.intercalate shown, ?_⟩
      rw [renderPart, items]
      simp only [bind, Except.bind, all, pure, Except.pure]
  | .moduleName name, fits => by
      have single : name ∉ lists := by simpa [Part.fits] using fits
      rcases textual.get? single with missing | ⟨text, found⟩
      · rw [renderPart, missing]
        exact ⟨_, rfl⟩
      · rw [renderPart, found]
        exact ⟨_, rfl⟩
  | .whenTrue name parts, fits => by
      obtain ⟨text, filled⟩ := exists_renderParts textual parts (by simpa [Part.fits] using fits)
      rw [renderPart]
      split
      · exact ⟨text, filled⟩
      · exact ⟨[], rfl⟩
  | .forEach bound name parts, fits => by
      have inner : partsFit lists parts := by simpa [Part.fits] using fits
      obtain ⟨texts, items⟩ := textual.itemsOf_eq name
      have each : ∀ item ∈ List.map Value.text texts,
          ∃ text, renderParts ((bound, item) :: context) parts = .ok text := by
        intro item member
        obtain ⟨text, _, rfl⟩ := List.mem_map.mp member
        -- An item hides whatever the context has under its name, a list too.
        exact exists_renderParts textual.bind parts inner
      obtain ⟨filled, all⟩ := exists_mapM_eq_ok each
      refine ⟨filled.flatten, ?_⟩
      rw [renderPart, items]
      simp only [bind, Except.bind, all, pure, Except.pure]

theorem exists_renderParts {context : Context} (textual : Textual lists context) :
    ∀ parts : List Part, partsFit lists parts → ∃ text, renderParts context parts = .ok text
  | [], _ => ⟨[], rfl⟩
  | part :: rest, fits => by
      obtain ⟨first, others⟩ : part.fits lists ∧ partsFit lists rest := by
        simpa [partsFit] using fits
      obtain ⟨text, filled⟩ := exists_renderPart textual part first
      obtain ⟨more, filledRest⟩ := exists_renderParts textual rest others
      refine ⟨text ++ more, ?_⟩
      rw [renderParts, filled, filledRest]
      rfl

end

theorem exists_render (textual : Textual lists context) {template : List Part}
    (fits : partsFit lists template) : ∃ content, render context template = .ok content := by
  obtain ⟨text, filled⟩ := exists_renderParts textual template fits
  exact ⟨String.ofList text, by rw [render, filled]; rfl⟩

end Scaffold

end TreeExport
