import TreeExport.Proofs.Json.WellFormed

/-!
Which values are refused for a key. A literal fails for the key of a map that it goes into and that is no scalar;
sets are shown as texts, so what is in them does not matter. All other values without endless collections and
overlong integers have a literal, and it is well formed.
-/

namespace TreeExport

namespace Value

theorem writable_of_single {value : Value} (single : ¬value.IsCollection) (bounded : value.Bounded) :
    value.Writable := by
  refine ⟨bounded, ?_⟩
  intro inner within
  cases within with
  | refl =>
      cases value with
      | map _ => exact absurd trivial single
      | _ => exact trivial
  | list _ _ | tuple _ _ | map _ _ => exact absurd trivial single

end Value

namespace Literal

open Value (Within)

variable {spacing : Spacing} {depth : Nat} {failure : Error}

theorem keyText_eq_error {key : Value} (unnamed : ¬key.IsName) (spacing : Spacing) :
    ∃ kind, keyText spacing key = .error (.keyKind kind) := by
  cases key with
  | text _ | null | bool _ | int _ | float _ => exact absurd trivial unnamed
  | _ => exact ⟨_, rfl⟩

theorem not_isName_of_keyText {key : Value} (short : key.IsShort)
    (refused : keyText spacing key = .error failure) : ¬key.IsName := by
  intro isName
  obtain ⟨text, written⟩ := (exists_keyText_iff spacing).mpr ⟨isName, short⟩
  exact absurd (written.symm.trans refused) nofun

theorem exists_of_encodeItems_error {items : List Value}
    (refused : encodeItems spacing depth items = .error failure) :
    ∃ item ∈ items, encodeAt spacing depth item = .error failure := by
  induction items with
  | nil => exact absurd refused nofun
  | cons item items ih =>
      rw [encodeItems, bind_eq_error_iff] at refused
      rcases refused with here | ⟨text, _, refused⟩
      · exact ⟨item, List.mem_cons_self, here⟩
      · obtain ⟨other, member, there⟩ := ih (bind_pure_eq_error_iff.mp refused)
        exact ⟨other, List.mem_cons_of_mem item member, there⟩

theorem exists_of_encodeEntries_error {entries : List (Value × Value)}
    (refused : encodeEntries spacing depth entries = .error failure) :
    ∃ entry ∈ entries, keyText spacing entry.1 = .error failure ∨
      encodeAt spacing depth entry.2 = .error failure := by
  induction entries with
  | nil => exact absurd refused nofun
  | cons entry entries ih =>
      rw [encodeEntries, bind_eq_error_iff] at refused
      rcases refused with key | ⟨name, _, refused⟩
      · exact ⟨entry, List.mem_cons_self, Or.inl key⟩
      · rcases bind_eq_error_iff.mp refused with value | ⟨text, _, refused⟩
        · exact ⟨entry, List.mem_cons_self, Or.inr value⟩
        · obtain ⟨other, member, there⟩ := ih (bind_pure_eq_error_iff.mp refused)
          exact ⟨other, List.mem_cons_of_mem entry member, there⟩

/-- Whether the literal of a value fails for the key of some map in it. -/
def RefusedFor (spacing : Spacing) (failure : Error) (value : Value) : Prop :=
  ∃ entries, Within (.map entries) value ∧
    ∃ entry ∈ entries, ¬entry.1.IsName ∧ keyText spacing entry.1 = .error failure

theorem RefusedFor.of_part {part value : Value} (bounded : value.Bounded)
    (enter : ∀ place, Within place part → Within place value)
    (refused : part.Bounded → RefusedFor spacing failure part) : RefusedFor spacing failure value := by
  have small : part.Bounded := fun place within => bounded place (enter place within)
  obtain ⟨entries, within, unnamed⟩ := refused small
  exact ⟨entries, enter _ within, unnamed⟩

/-- A literal fails for a key only, and that is the key of a map in it. -/
theorem refusedFor_of_encodeAt {value : Value} (bounded : value.Bounded)
    (refused : encodeAt spacing depth value = .error failure) : RefusedFor spacing failure value := by
  induction value using Value.inner_induction generalizing depth with
  | list items ih =>
      rw [encodeAt, bind_pure_eq_error_iff] at refused
      obtain ⟨item, member, there⟩ := exists_of_encodeItems_error refused
      exact .of_part bounded (fun _ => .list member) fun small => ih item member small there
  | tuple items ih =>
      rw [encodeAt, bind_pure_eq_error_iff] at refused
      obtain ⟨item, member, there⟩ := exists_of_encodeItems_error refused
      exact .of_part bounded (fun _ => .tuple member) fun small => ih item member small there
  | map entries ih =>
      rw [encodeAt, bind_pure_eq_error_iff] at refused
      obtain ⟨entry, member, key | there⟩ := exists_of_encodeEntries_error refused
      · have short : entry.1.IsShort := (Value.everywhere_map.mp bounded).1 entry member
        exact ⟨entries, .refl _, entry, member, not_isName_of_keyText short key, key⟩
      · exact .of_part bounded (fun _ => .map member) fun small => ih entry member small there
  | single value single =>
      obtain ⟨text, written⟩ :=
        (exists_encodeAt_iff depth value).mpr (Value.writable_of_single single bounded)
      exact absurd (written.symm.trans refused) nofun

theorem written_or_keyKind {value : Value} (bounded : value.Bounded) (spacing : Spacing) :
    (∃ text, encode spacing value = .ok text) ∨ ∃ kind, encode spacing value = .error (.keyKind kind) := by
  cases written : encode spacing value with
  | ok text => exact Or.inl ⟨text, rfl⟩
  | error failure =>
      obtain ⟨_, _, entry, _, unnamed, key⟩ := refusedFor_of_encodeAt bounded written
      obtain ⟨kind, same⟩ := keyText_eq_error unnamed spacing
      exact Or.inr ⟨kind, key.symm.trans same⟩

/-- A value without endless collections and overlong integers is refused for a key exactly if a map in it, reached
through items of lists and tuples and through values of maps, has a key that is no scalar. If it is not, it has a
literal, which is well formed. -/
theorem write_refuses_iff {value : Value} (bounded : value.Bounded) (spacing : Spacing) :
    ((∃ kind, write spacing value = .error (.keyKind kind)) ↔
      ∃ entries, Within (.map entries) value ∧ ∃ entry ∈ entries, ¬entry.1.IsName) ∧
    ((¬∃ kind, write spacing value = .error (.keyKind kind)) →
      ∃ text, write spacing value = .ok text ∧ Json.WellFormed text.toList) := by
  constructor
  · constructor
    · rintro ⟨kind, refused⟩
      obtain ⟨entries, within, entry, member, unnamed, _⟩ :=
        refusedFor_of_encodeAt bounded (write_eq_error_iff.mp refused)
      exact ⟨entries, within, entry, member, unnamed⟩
    · rintro ⟨entries, within, entry, member, unnamed⟩
      rcases written_or_keyKind bounded spacing with written | ⟨kind, refused⟩
      · have writable := (exists_encodeAt_iff 0 value).mp written
        exact absurd (writable.2 _ within entry member) unnamed
      · exact ⟨kind, write_eq_error_iff.mpr refused⟩
  · intro accepted
    rcases written_or_keyKind bounded spacing with ⟨text, written⟩ | ⟨kind, refused⟩
    · refine ⟨_, write_eq_ok written, ?_⟩
      rw [String.toList_ofList]
      exact (closed_wellFormed spacing).of_encodeAt written
    · exact absurd ⟨kind, write_eq_error_iff.mpr refused⟩ accepted

def dated : Value := .list [.set [.int 1], .map [(.text "at", .map [(.date ⟨2024, 2, 29⟩, .null)])]]

/-- The list is refused, and its set, which has no syntax of its own, is written. -/
theorem write_refuses_dated :
    dated.Bounded ∧ (∃ kind, write (.indented 2) dated = .error (.keyKind kind)) ∧
      (Value.set [.int 1]).Bounded ∧
      ∃ text, write .compact (.set [.int 1]) = .ok text ∧ Json.WellFormed text.toList := by
  have few : ∀ n ∈ [1], Value.HasFewDigits n := by decide
  have set : (Value.set [.int 1]).Writable := Value.writable_of_scalar (Or.inr trivial) few
  have null : Value.null.Writable := Value.writable_of_scalar (Or.inl trivial) trivial
  have inner : (Value.map [(.date ⟨2024, 2, 29⟩, .null)]).Bounded :=
    Value.everywhere_map.mpr ⟨List.forall_mem_singleton.mpr trivial, List.forall_mem_singleton.mpr null.1⟩
  have outer : (Value.map [(.text "at", .map [(.date ⟨2024, 2, 29⟩, .null)])]).Bounded :=
    Value.everywhere_map.mpr ⟨List.forall_mem_singleton.mpr trivial, List.forall_mem_singleton.mpr inner⟩
  have bounded : dated.Bounded :=
    Value.everywhere_list.mpr
      ⟨trivial, List.forall_mem_cons.mpr ⟨set.1, List.forall_mem_singleton.mpr outer⟩⟩
  have within : Within (.map [(.date ⟨2024, 2, 29⟩, .null)]) dated :=
    .list (List.mem_cons_of_mem _ List.mem_cons_self) (.map List.mem_cons_self (.refl _))
  have refused := (write_refuses_iff bounded (.indented 2)).1.mpr
    ⟨_, within, _, List.mem_cons_self, id⟩
  have kept : ¬∃ kind, write .compact (.set [.int 1]) = .error (.keyKind kind) := by
    rw [(write_refuses_iff set.1 .compact).1]
    rintro ⟨entries, ⟨⟩, _⟩
  exact ⟨bounded, refused, set.1, (write_refuses_iff set.1 .compact).2 kept⟩

end Literal

end TreeExport
