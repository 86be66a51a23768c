import TreeExport.Path
import Mathlib.Data.List.Basic

/-!
The text of a path. Every path is given again by its own text, although many texts give the same path; and the
text of a path is no shorter than those of the paths above it.
-/

namespace TreeExport

namespace Path

theorem ofString?_text (name : PathName) : PathName.ofString? name.text = some name :=
  dif_pos name.counts

theorem filterMap_names (path : Path) : path.names.filterMap PathName.ofString? = path.parts := by
  rw [names, List.filterMap_map]
  exact (List.filterMap_congr fun name _ => ofString?_text name).trans List.filterMap_some

theorem eq_of_names {path other : Path} (root : path.root = other.root) (names : path.names = other.names) :
    path = other := by
  have parts : path.parts = other.parts := by rw [← filterMap_names, names, filterMap_names]
  obtain ⟨_, _⟩ := path
  exact Path.mk.injEq .. ▸ ⟨root, parts⟩

theorem names_ofString (text : String) :
    (ofString text).names = ((Text.split '/' text.toList).map String.ofList).filter (IsPathName ·) := by
  rw [names, ofString, List.map_filterMap, ← List.filterMap_eq_filter]
  refine List.filterMap_congr fun piece _ => ?_
  by_cases counts : IsPathName piece <;> simp [PathName.ofString?, Option.guard, counts]

def joined (names : List String) : List Char :=
  ['/'].intercalate (names.map String.toList)

theorem toList_toString {path : Path} (given : path.root = .none → path.names ≠ []) :
    path.toString.toList = path.root.text.toList ++ joined path.names := by
  have slashes : ("/".intercalate path.names).toList = joined path.names := String.toList_intercalate
  unfold toString
  split
  · rename_i noRoot noNames
    exact absurd noNames (given noRoot)
  · rw [String.toList_append, slashes]

theorem isPathName_of_mem_names {path : Path} {text : String} (member : text ∈ path.names) :
    IsPathName text := by
  obtain ⟨name, _, rfl⟩ := List.mem_map.mp member
  exact name.counts

theorem filterMap_split_joined (path : Path) :
    ((Text.split '/' (joined path.names)).map String.ofList).filterMap PathName.ofString? = path.parts := by
  cases empty : path.names with
  | nil =>
      rw [List.map_eq_nil_iff.mp empty]
      decide
  | cons name names =>
      rw [← empty]
      have free : ∀ piece ∈ path.names.map String.toList, '/' ∉ piece := by
        intro piece inside
        obtain ⟨text, member, rfl⟩ := List.mem_map.mp inside
        exact (isPathName_of_mem_names member).single
      have back : (path.names.map String.toList).map String.ofList = path.names := by
        simp [Function.comp_def]
      rw [joined, Text.split_intercalate (by simp [empty]) free, back, filterMap_names]

theorem head?_joined_ne_slash (path : Path) : (joined path.names).head? ≠ some '/' := by
  cases names_eq : path.names with
  | nil => exact nofun
  | cons name names =>
      have first := isPathName_of_mem_names (names_eq ▸ List.mem_cons_self : name ∈ path.names)
      rw [joined, List.map_cons, Text.intercalate_cons_eq_append]
      cases letters : name.toList with
      | nil => exact absurd (String.toList_eq_nil_iff.mp letters) first.filled
      | cons c others =>
          intro slash
          have here : c = '/' := Option.some.inj slash
          exact first.single (by rw [letters, here]; exact List.mem_cons_self)

theorem ofChars_append (root : PathRoot) {rest : List Char} (ends : rest.head? ≠ some '/') :
    PathRoot.ofChars (root.text.toList ++ rest) = root := by
  cases rest with
  | nil => cases root <;> decide
  | cons c others =>
      have plain : c ≠ '/' := fun slash => ends (congrArg some slash)
      cases root with
      | none => simp [PathRoot.text, PathRoot.ofChars, plain]
      | slash => simp [PathRoot.text, PathRoot.ofChars, plain]
      | doubleSlash => simp [PathRoot.text, PathRoot.ofChars, plain]

theorem filterMap_split_append (root : PathRoot) (rest : List Char) :
    ((Text.split '/' (root.text.toList ++ rest)).map String.ofList).filterMap PathName.ofString? =
      ((Text.split '/' rest).map String.ofList).filterMap PathName.ofString? := by
  have empty : PathName.ofString? (String.ofList []) = none := by decide
  cases root with
  | none => simp [PathRoot.text]
  | slash => simp [PathRoot.text, Text.split, empty]
  | doubleSlash => simp [PathRoot.text, Text.split, empty]

theorem ofString_toString (path : Path) : ofString path.toString = path := by
  by_cases bare : path.root = .none ∧ path.names = []
  · obtain ⟨root, parts⟩ := path
    obtain ⟨rfl, empty⟩ := bare
    obtain rfl := List.map_eq_nil_iff.mp empty
    decide
  · rw [ofString, toList_toString (fun noRoot noNames => bare ⟨noRoot, noNames⟩),
      ofChars_append path.root (head?_joined_ne_slash path), filterMap_split_append, filterMap_split_joined]

theorem ofString_intercalate {names : List String} (filled : names ≠ [])
    (counts : ∀ name ∈ names, IsPathName name) :
    (ofString ("/".intercalate names)).root = .none ∧ (ofString ("/".intercalate names)).names = names := by
  have given (path : Path) (root : path.root = .none) (same : path.names = names) :
      ofString ("/".intercalate names) = path := by
    have text : path.toString = "/".intercalate names := by
      rw [toString, root, same]
      cases names with
      | nil => exact absurd rfl filled
      | cons name names => exact String.empty_append
    rw [← text, ofString_toString]
  have listed : Path.names ⟨.none, names.attach.map fun name => ⟨name.1, counts name.1 name.2⟩⟩ = names := by
    rw [Path.names, List.map_map]
    exact List.attach_map_subtype_val names
  rw [given _ rfl listed]
  exact ⟨rfl, listed⟩

/-! ### Lengths -/

theorem exists_joined_append (upper lower : List String) :
    ∃ rest, joined (upper ++ lower) = joined upper ++ rest := by
  cases upper with
  | nil => exact ⟨_, rfl⟩
  | cons name upper =>
      refine ⟨(lower.map String.toList).flatMap (['/'] ++ ·), ?_⟩
      rw [joined, joined, List.cons_append, List.map_cons, List.map_cons, Text.intercalate_cons_eq_append,
        Text.intercalate_cons_eq_append, List.map_append, List.flatMap_append, List.append_assoc]

theorem toString_ne_empty (path : Path) : path.toString ≠ "" := by
  intro empty
  have back := ofString_toString path
  rw [empty] at back
  rw [← back] at empty
  exact absurd empty (by decide)

theorem utf8ByteSize_toString_le (root : PathRoot) (upper lower : List PathName) :
    (toString ⟨root, upper⟩).utf8ByteSize ≤ (toString ⟨root, upper ++ lower⟩).utf8ByteSize := by
  by_cases bare : root = .none ∧ upper = []
  · -- The empty path has a text of its own, which is as short as a text can be.
    obtain ⟨rfl, rfl⟩ := bare
    exact Nat.pos_of_ne_zero fun none =>
      toString_ne_empty ⟨.none, [] ++ lower⟩ (String.utf8ByteSize_eq_zero_iff.mp none)
  · have filled (more : List PathName) : root = .none → (⟨root, upper ++ more⟩ : Path).names ≠ [] := by
      intro noRoot noNames
      exact bare ⟨noRoot, (List.append_eq_nil_iff.mp (List.map_eq_nil_iff.mp noNames)).1⟩
    obtain ⟨rest, longer⟩ := exists_joined_append (names ⟨root, upper⟩) (lower.map PathName.text)
    have short := @toList_toString ⟨root, upper ++ []⟩ (filled [])
    rw [List.append_nil] at short
    have grown : toString ⟨root, upper ++ lower⟩ = toString ⟨root, upper⟩ ++ String.ofList rest := by
      rw [← String.toList_inj, String.toList_append, String.toList_ofList, short,
        @toList_toString ⟨root, upper ++ lower⟩ (filled lower), names_append, longer, List.append_assoc]
    rw [grown, String.utf8ByteSize_append]
    exact Nat.le_add_right _ _

end Path

end TreeExport
