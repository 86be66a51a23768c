import TreeExport.Proofs.Markup.Writable
import TreeExport.Proofs.Project.Soundness
import TreeExport.Registry.Packaged

/-!
When a build gives a project. A tolerant build fails for one reason alone: something in a prop of an element
that it writes, or in the data, has no literal. For values that end and whose integers are not too long, this
is the case exactly if some map among them has a key that is no scalar.
-/

namespace TreeExport

namespace Project

variable {registry : Registry} {limit : Int} {tree : UITree} {options : GeneratorOptions}

theorem exists_dataLiteral_iff {data : Keyed Value} :
    (∃ text, dataLiteral (.ofKeyed data) = .ok text) ↔ ∀ entry ∈ data, entry.2.Writable := by
  simp only [dataLiteral, exists_bind_eq_ok_iff, exists_pure_eq_ok, and_true, Literal.encode,
    Literal.exists_encodeAt_iff, Value.ofKeyed, Value.writable_map, List.forall_mem_map]
  simp [Value.IsName, Value.IsShort]

theorem exists_outputOf_iff :
    (∃ output, outputOf registry limit tree options = .ok output) ↔
      (∃ lines, (tree.emit limit tree.root pageColumn).outcome = .ok lines) ∧
        ∃ text, dataLiteral (.ofKeyed options.data) = .ok text := by
  constructor
  · rintro ⟨output, built⟩
    obtain ⟨lines, text, _, _, emitted, encoded, _⟩ := outputOf_eq_ok built
    exact ⟨⟨lines, emitted⟩, text, encoded⟩
  · rintro ⟨⟨lines, emitted⟩, text, encoded⟩
    exact exists_outputOf emitted encoded

theorem build_eq_ok_iff {output : Output} :
    build registry limit false tree options = .ok output ↔
      outputOf registry limit tree options = .ok output := by
  rw [build_eq_accept]
  unfold accept
  cases outputOf registry limit tree options <;> simp

/-- Whether everything that a build writes a literal of satisfies a condition: the props of all elements
that chains with fewer links than the limit lead to, and the data. -/
def Literals (limit : Int) (tree : UITree) (options : GeneratorOptions) (holds : Value → Prop) : Prop :=
  (∀ above key element, tree.Chain tree.root above key → (above.length : Int) < limit →
    tree.get? key = some element → ∀ prop ∈ element.props, holds prop.2) ∧
  ∀ entry ∈ options.data, holds entry.2

theorem literals_of_forall {holds : Value → Prop}
    (props : ∀ entry ∈ tree.elements, ∀ prop ∈ entry.2.props, holds prop.2)
    (data : ∀ entry ∈ options.data, holds entry.2) : Literals limit tree options holds := by
  refine ⟨?_, data⟩
  intro above key element _ _ found prop member
  obtain ⟨before, after, split, _⟩ := List.lookup_eq_some_iff.mp found
  exact props (key, element) (by simp [split]) prop member

theorem exists_build_iff (registry : Registry) :
    (∃ output, build registry limit false tree options = .ok output) ↔
      Literals limit tree options Value.Writable := by
  simp only [build_eq_ok_iff]
  rw [exists_outputOf_iff, UITree.exists_emit_iff, exists_dataLiteral_iff, Literals]

/-- Strict or not, a build stops before it looks at the defects exactly if something has no literal. -/
theorem exists_unwritable_iff (registry : Registry) (strict : Bool) :
    (∃ cause, build registry limit strict tree options = .error (.unwritable cause)) ↔
      ¬ Literals limit tree options Value.Writable := by
  rw [← exists_build_iff registry]
  simp only [build_eq_accept, accept]
  cases outputOf registry limit tree options with
  | error cause => simp
  | ok output => by_cases fails : (strict && !output.defects.isEmpty) = true <;> simp [fails]

theorem literals_writable_iff (bounded : Literals limit tree options Value.Bounded) :
    Literals limit tree options Value.Writable ↔ Literals limit tree options Value.Named := by
  constructor
  · rintro ⟨props, data⟩
    refine ⟨?_, fun entry member => (data entry member).2⟩
    intro above key element chain shallow found prop member
    exact (props above key element chain shallow found prop member).2
  · rintro ⟨props, data⟩
    refine ⟨?_, fun entry member => ⟨bounded.2 entry member, data entry member⟩⟩
    intro above key element chain shallow found prop member
    exact ⟨bounded.1 above key element chain shallow found prop member,
      props above key element chain shallow found prop member⟩

/-- A tolerant build of values that end and whose integers are not too long gives a project exactly if the
keys of all maps that it writes are scalars. What is wrong with the tree only shows in the defects then, and
values without a syntax of their own are written as texts. -/
theorem build_returns_iff
    (props : ∀ entry ∈ tree.elements, ∀ prop ∈ entry.2.props, prop.2.Bounded)
    (data : ∀ entry ∈ options.data, entry.2.Bounded) :
    ((∃ output, build registry limit false tree options = .ok output) ↔
      Literals limit tree options Value.Named) ∧
    (∀ output, build registry limit false tree options = .ok output →
      (output.defects = [] ↔ Sound registry limit tree)) ∧
    ∀ value, value.IsOpaque → value.IsShort → ∀ spacing,
      Literal.encode spacing value = .ok (Literal.quote value.shown) := by
  have bounded : Literals limit tree options Value.Bounded := literals_of_forall props data
  refine ⟨?_, ?_, ?_⟩
  · rw [exists_build_iff, literals_writable_iff bounded]
  · exact fun output built => defects_eq_nil_iff (build_eq_ok_iff.mp built)
  · exact fun value isOpaque short spacing => Literal.encode_of_isOpaque isOpaque short spacing

def assorted : UITree where
  root := "a"
  elements := [
    ("a", ⟨"a", "Table", [
      ("since", .date ⟨2024, 1, 2⟩),
      ("raw", .list [.bytes [255], .set [.int 2, .text "x"]]),
      ("byYear", .map [(.int 2024, .tuple [.float .nan]), (.null, .map [(.bool true, .null)])])],
      some ["ghost"]⟩)]

def assortedOptions : GeneratorOptions where
  projectName := "p"
  data := [("at", .dateTime ⟨⟨2024, 1, 2⟩, 3, 4, 5, 0, some 60⟩), ("n", .map [(.int (-1), .text "")])]

theorem build_returns_iff_assorted :
    (∀ entry ∈ assorted.elements, ∀ prop ∈ entry.2.props, prop.2.Bounded) ∧
    (∀ entry ∈ assortedOptions.data, entry.2.Bounded) ∧
    ∃ output, build Registry.packaged 256 false assorted assortedOptions = .ok output ∧
      output.defects ≠ [] := by
  have name {value : Value} (isName : value.IsName) (short : value.IsShort) : value.Writable :=
    Value.writable_of_scalar (Or.inl isName) short
  have shown {value : Value} (isOpaque : value.IsOpaque) (short : value.IsShort) : value.Writable :=
    Value.writable_of_scalar (Or.inr isOpaque) short
  have year : Value.HasFewDigits 2024 := by decide
  have minus : Value.HasFewDigits (-1) := by decide
  have inSet : Value.IsShort (.set [.int 2, .text "x"]) := by
    intro n member
    obtain rfl : n = 2 := List.mem_singleton.mp member
    decide
  have props : ∀ entry ∈ assorted.elements, ∀ prop ∈ entry.2.props, prop.2.Writable := by
    simp only [assorted, List.forall_mem_cons, List.not_mem_nil, false_implies, implies_true, and_true,
      Value.writable_list, Value.writable_tuple, Value.writable_map]
    exact ⟨shown trivial trivial, ⟨shown trivial trivial, shown trivial inSet⟩,
      ⟨⟨trivial, year⟩, name trivial trivial⟩, ⟨trivial, trivial⟩, ⟨trivial, trivial⟩,
      name trivial trivial⟩
  have data : ∀ entry ∈ assortedOptions.data, entry.2.Writable := by
    simp only [assortedOptions, List.forall_mem_cons, List.not_mem_nil, false_implies, implies_true,
      and_true, Value.writable_map]
    exact ⟨shown trivial trivial, ⟨trivial, minus⟩, name trivial trivial⟩
  have bounded := fun entry member prop inside => (props entry member prop inside).1
  have boundedData := fun entry member => (data entry member).1
  obtain ⟨returns, defective, _⟩ := @build_returns_iff Registry.packaged 256 assorted assortedOptions
    bounded boundedData
  obtain ⟨output, built⟩ := returns.mpr (literals_of_forall
    (fun entry member prop inside => (props entry member prop inside).2)
    fun entry member => (data entry member).2)
  refine ⟨bounded, boundedData, output, built, ?_⟩
  intro clean
  have link : assorted.Link "a" "ghost" := ⟨_, rfl, List.mem_singleton_self _⟩
  obtain ⟨element, found⟩ := ((defective output built).mp clean).complete "ghost" (.single link)
  cases found

/-- A map with a day as its key has no literal, so there is no project for a tree that shows one. -/
theorem build_fails_of_date_key :
    build Registry.packaged 256 false
      ⟨"a", [("a", ⟨"a", "Text", [("p", .map [(.date ⟨2024, 1, 2⟩, .int 1)])], none⟩)]⟩ default =
        .error (.unwritable (.literal (.keyKind "datetime.date"))) := by
  have emitted : (UITree.emit
      ⟨"a", [("a", ⟨"a", "Text", [("p", .map [(.date ⟨2024, 1, 2⟩, .int 1)])], none⟩)]⟩
      256 "a" pageColumn).outcome = .error (.keyKind "datetime.date") := by decide +kernel
  simp only [build_eq_accept, accept, outputOf, outputListing, Emission.text, emitted]
  rfl

end Project

end TreeExport
