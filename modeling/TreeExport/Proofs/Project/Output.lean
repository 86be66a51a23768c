import TreeExport.Project
import TreeExport.Proofs.Markup.Event
import TreeExport.Proofs.Outcome
import TreeExport.Proofs.Scaffold.Filling

/-!
What a successful build consists of: the markup of the walk from the root, the literal of the data, the
filled-in scaffold around the registered components, and the defects of both walks. A build fails only
when some value in the markup or in the data has no literal; the scaffold can always be filled in.
-/

namespace TreeExport

namespace Project

variable {registry : Registry} {limit : Int} {tree : UITree} {options : GeneratorOptions}

theorem outputOf_of_build {strict : Bool} {output : Output}
    (built : build registry limit strict tree options = .ok output) :
    outputOf registry limit tree options = .ok output := by
  rw [build_eq_accept] at built
  unfold accept at built
  split at built
  · simp at built
  · rename_i other result
    split at built
    · simp at built
    · rw [result, Except.ok.inj built]

theorem exists_build_of_isOk (written : (outputOf registry limit tree options).isOk = true) :
    ∃ output, build registry limit false tree options = .ok output := by
  cases result : outputOf registry limit tree options with
  | error cause => simp [result, Except.isOk, Except.toBool] at written
  | ok output => exact ⟨output, by simp [build_eq_accept, accept, result]⟩

theorem outputOf_eq_ok {output : Output}
    (built : outputOf registry limit tree options = .ok output) :
    ∃ lines dataText leading trailing,
      (tree.emit limit tree.root pageColumn).outcome = .ok lines ∧
      dataLiteral (.ofKeyed options.data) = .ok dataText ∧
      let components := (registry.partition tree.usedTypes).1
      let filled := context options components dataText (Emission.joinLines lines)
      leadingFiles.mapM (renderFile filled) = .ok leading ∧
      trailingFiles.mapM (renderFile filled) = .ok trailing ∧
      output.files = leading ++ (components.map fun component =>
        ⟨componentPath component, (registry.get? component).getD ""⟩) ++ trailing ∧
      output.defects = (tree.emit limit tree.root pageColumn).defects ++
        (registry.partition tree.usedTypes).2.map .missingTemplate := by
  cases parts : registry.partition tree.usedTypes with
  | mk components missing =>
      simp only [outputOf, outputListing, parts] at built
      obtain ⟨markup, emitted, built⟩ := exists_of_bind_eq_ok built
      obtain ⟨dataText, encoded, built⟩ := exists_of_bind_eq_ok built
      obtain ⟨leading, first, built⟩ := exists_of_bind_eq_ok built
      obtain ⟨trailing, last, result⟩ := exists_of_bind_eq_ok built
      have written := mapError_eq_ok emitted
      cases outcome : (tree.emit limit tree.root pageColumn).outcome with
      | error failure => simp [Emission.text, outcome, Except.map] at written
      | ok lines =>
          obtain rfl : Emission.joinLines lines = markup := by
            simpa [Emission.text, outcome, Except.map] using written
          have output_eq := Except.ok.inj result
          subst output_eq
          exact ⟨lines, dataText, leading, trailing, rfl, mapError_eq_ok encoded, first, last,
            rfl, rfl⟩

theorem context_textual (options : GeneratorOptions) (components : List String)
    (dataText markup : String) :
    Scaffold.Textual ["components"] (context options components dataText markup) := by
  have texts : Scaffold.Textual ["components"]
      [("data_literal", .text dataText), ("markup", .text markup)] := Scaffold.Textual.nil.bind.bind
  exact (texts.bindList (List.mem_singleton_self _)).bind

theorem exists_renderFiles {lists : List String} {filled : Scaffold.Context}
    (textual : Scaffold.Textual lists filled) {entries : List (List Scaffold.Part × String)}
    (fits : ∀ entry ∈ entries, Scaffold.partsFit lists entry.1) :
    ∃ files, entries.mapM (renderFile filled) = .ok files := by
  apply exists_mapM_eq_ok
  intro entry member
  obtain ⟨content, rendered⟩ := Scaffold.exists_render textual (fits entry member)
  exact ⟨⟨entry.2, content⟩, by rw [renderFile, rendered]; rfl⟩

theorem exists_outputOf {lines : List Line} {dataText : String}
    (emitted : (tree.emit limit tree.root pageColumn).outcome = .ok lines)
    (encoded : dataLiteral (.ofKeyed options.data) = .ok dataText) :
    ∃ output, outputOf registry limit tree options = .ok output := by
  have written : (tree.emit limit tree.root pageColumn).text.mapError Scaffold.Error.literal =
      .ok (Emission.joinLines lines) := by
    rw [Emission.text, emitted]
    rfl
  have literal : (dataLiteral (.ofKeyed options.data)).mapError Scaffold.Error.literal =
      .ok dataText := by
    rw [encoded]
    rfl
  cases parts : registry.partition tree.usedTypes with
  | mk components missing =>
      have textual := context_textual options components dataText (Emission.joinLines lines)
      have leadingFit : ∀ entry ∈ leadingFiles, Scaffold.partsFit ["components"] entry.1 := by
        decide_cbv
      have trailingFit : ∀ entry ∈ trailingFiles, Scaffold.partsFit ["components"] entry.1 := by
        decide_cbv
      obtain ⟨leading, first⟩ := exists_renderFiles textual leadingFit
      obtain ⟨trailing, last⟩ := exists_renderFiles textual trailingFit
      refine ⟨⟨leading ++ (components.map fun component =>
          ⟨componentPath component, (registry.get? component).getD ""⟩) ++ trailing,
        (tree.emit limit tree.root pageColumn).defects ++ missing.map .missingTemplate⟩, ?_⟩
      simp only [outputOf, outputListing, parts]
      rw [bind_of_eq_ok written, bind_of_eq_ok literal, bind_of_eq_ok first, bind_of_eq_ok last]
      rfl

theorem outputOf_eq_error {cause : Scaffold.Error}
    (failed : outputOf registry limit tree options = .error cause) :
    ∃ failure, cause = .literal failure ∧
      ((tree.emit limit tree.root pageColumn).outcome = .error failure ∨
        dataLiteral (.ofKeyed options.data) = .error failure) := by
  cases emitted : (tree.emit limit tree.root pageColumn).outcome with
  | error failure =>
      simp only [outputOf, outputListing, Emission.text, emitted] at failed
      exact ⟨failure, (Except.error.inj failed).symm, Or.inl rfl⟩
  | ok lines =>
      cases encoded : dataLiteral (.ofKeyed options.data) with
      | error failure =>
          simp only [outputOf, outputListing, Emission.text, emitted, encoded] at failed
          exact ⟨failure, (Except.error.inj failed).symm, Or.inr rfl⟩
      | ok dataText =>
          obtain ⟨output, built⟩ : ∃ output, outputOf registry limit tree options = .ok output :=
            exists_outputOf emitted encoded
          simp [built] at failed

end Project

end TreeExport
