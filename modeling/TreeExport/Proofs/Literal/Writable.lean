import TreeExport.Literal
import TreeExport.Proofs.Outcome
import Mathlib.Logic.Basic

/-!
Which values have a literal. Writing goes into lists, tuples and the values of maps, and shows everything
else as a text, so it fails only where a collection holds itself without end, an integer is too long, or
the key of a map is no scalar.
-/

namespace TreeExport

namespace Value

/-- The values that the literal of a value is made of: the value itself, and those within the items of a
list or tuple and within the values of a map. -/
inductive Within : (inner outer : Value) → Prop
  | refl (value : Value) : Within value value
  | list {inner item : Value} {items : List Value} : item ∈ items → Within inner item →
      Within inner (.list items)
  | tuple {inner item : Value} {items : List Value} : item ∈ items → Within inner item →
      Within inner (.tuple items)
  | map {inner : Value} {entry : Value × Value} {entries : List (Value × Value)} : entry ∈ entries →
      Within inner entry.2 → Within inner (.map entries)

def IsCollection : Value → Prop
  | .list _ => True
  | .tuple _ => True
  | .map _ => True
  | _ => False

/-- Induction along the values that a literal is made of. -/
@[elab_as_elim]
theorem inner_induction {motive : Value → Prop}
    (list : ∀ items, (∀ item ∈ items, motive item) → motive (.list items))
    (tuple : ∀ items, (∀ item ∈ items, motive item) → motive (.tuple items))
    (map : ∀ entries, (∀ entry ∈ entries, motive entry.2) → motive (.map entries))
    (single : ∀ value, ¬value.IsCollection → motive value) (value : Value) : motive value := by
  generalize size : sizeOf value = n
  induction n using Nat.strongRecOn generalizing value with
  | ind n ih =>
      cases value with
      | list items =>
          apply list
          intro item member
          have smaller := List.sizeOf_lt_of_mem member
          simp only [Value.list.sizeOf_spec] at size
          exact ih (sizeOf item) (by omega) item rfl
      | tuple items =>
          apply tuple
          intro item member
          have smaller := List.sizeOf_lt_of_mem member
          simp only [Value.tuple.sizeOf_spec] at size
          exact ih (sizeOf item) (by omega) item rfl
      | map entries =>
          apply map
          rintro ⟨key, inner⟩ member
          have smaller := List.sizeOf_lt_of_mem member
          simp only [Value.map.sizeOf_spec, Prod.mk.sizeOf_spec] at size smaller
          exact ih (sizeOf inner) (by omega) inner rfl
      | _ => exact single _ id

def Everywhere (holds : Value → Prop) (value : Value) : Prop :=
  ∀ inner, Within inner value → holds inner

def HasFewDigits (n : Int) : Prop := (Nat.toDigits 10 n.natAbs).length ≤ 4300

instance (n : Int) : Decidable (HasFewDigits n) :=
  inferInstanceAs (Decidable (_ ≤ _))

def IsShort : Value → Prop
  | .int n => HasFewDigits n
  | .set items => ∀ n ∈ integersOf items, HasFewDigits n
  | _ => True

def IsName : Value → Prop
  | .text _ => True
  | .null => True
  | .bool _ => True
  | .int _ => True
  | .float _ => True
  | _ => False

def IsOpaque : Value → Prop
  | .set _ => True
  | .bytes _ => True
  | .date _ => True
  | .dateTime _ => True
  | .path _ => True
  | _ => False

def HasNames : Value → Prop
  | .map entries => ∀ entry ∈ entries, entry.1.IsName
  | _ => True

/-- Whether a value is no place where a collection goes on without end, and is, shows or has as key no
integer that is too long. -/
def IsMeasured : Value → Prop
  | .endless => False
  | .map entries => ∀ entry ∈ entries, entry.1.IsShort
  | value => value.IsShort

def Bounded (value : Value) : Prop := value.Everywhere IsMeasured

def Named (value : Value) : Prop := value.Everywhere HasNames

def Writable (value : Value) : Prop := value.Bounded ∧ value.Named

section Everywhere

variable {holds : Value → Prop} {value : Value}

theorem everywhere_of_alone (alone : ∀ inner, Within inner value → inner = value) :
    value.Everywhere holds ↔ holds value := by
  constructor
  · exact fun all => all value (.refl value)
  · intro here inner within
    rwa [alone inner within]

theorem everywhere_list {items : List Value} :
    (Value.list items).Everywhere holds ↔
      holds (.list items) ∧ ∀ item ∈ items, item.Everywhere holds := by
  constructor
  · intro all
    exact ⟨all _ (.refl _), fun item member inner within => all inner (.list member within)⟩
  · rintro ⟨here, each⟩ inner within
    cases within with
    | refl => exact here
    | list member within => exact each _ member inner within

theorem everywhere_tuple {items : List Value} :
    (Value.tuple items).Everywhere holds ↔
      holds (.tuple items) ∧ ∀ item ∈ items, item.Everywhere holds := by
  constructor
  · intro all
    exact ⟨all _ (.refl _), fun item member inner within => all inner (.tuple member within)⟩
  · rintro ⟨here, each⟩ inner within
    cases within with
    | refl => exact here
    | tuple member within => exact each _ member inner within

theorem everywhere_map {entries : List (Value × Value)} :
    (Value.map entries).Everywhere holds ↔
      holds (.map entries) ∧ ∀ entry ∈ entries, entry.2.Everywhere holds := by
  constructor
  · intro all
    exact ⟨all _ (.refl _), fun entry member inner within => all inner (.map member within)⟩
  · rintro ⟨here, each⟩ inner within
    cases within with
    | refl => exact here
    | map member within => exact each _ member inner within

end Everywhere

theorem writable_of_alone {value : Value} (alone : ∀ inner, Within inner value → inner = value) :
    value.Writable ↔ value.IsMeasured ∧ value.HasNames := by
  rw [Writable, Bounded, Named, everywhere_of_alone alone, everywhere_of_alone alone]

theorem writable_iff_isShort {value : Value} (scalar : value.IsName ∨ value.IsOpaque) :
    value.Writable ↔ value.IsShort := by
  cases value with
  | list _ => exact (scalar.elim id id).elim
  | tuple _ => exact (scalar.elim id id).elim
  | map _ => exact (scalar.elim id id).elim
  | endless => exact (scalar.elim id id).elim
  | _ => exact (writable_of_alone (by rintro inner ⟨⟩; rfl)).trans (and_iff_left trivial)

theorem writable_of_scalar {value : Value} (scalar : value.IsName ∨ value.IsOpaque)
    (short : value.IsShort) : value.Writable :=
  (writable_iff_isShort scalar).mpr short

theorem isShort_iff_of_isOpaque {value : Value} (isOpaque : value.IsOpaque) :
    value.IsShort ↔ ∀ n ∈ value.integers, HasFewDigits n := by
  cases value with
  | set items => exact Iff.rfl
  | bytes _ => exact iff_of_true trivial nofun
  | date _ => exact iff_of_true trivial nofun
  | dateTime _ => exact iff_of_true trivial nofun
  | path _ => exact iff_of_true trivial nofun
  | _ => exact isOpaque.elim

theorem writable_list {items : List Value} :
    (Value.list items).Writable ↔ ∀ item ∈ items, item.Writable := by
  simp only [Writable, Bounded, Named, everywhere_list, IsMeasured, IsShort, HasNames, true_and,
    forall₂_and]

theorem writable_tuple {items : List Value} :
    (Value.tuple items).Writable ↔ ∀ item ∈ items, item.Writable := by
  simp only [Writable, Bounded, Named, everywhere_tuple, IsMeasured, IsShort, HasNames, true_and,
    forall₂_and]

theorem writable_map {entries : List (Value × Value)} :
    (Value.map entries).Writable ↔
      ∀ entry ∈ entries, (entry.1.IsName ∧ entry.1.IsShort) ∧ entry.2.Writable := by
  simp only [Writable, Bounded, Named, everywhere_map, IsMeasured, HasNames]
  constructor
  · rintro ⟨⟨short, bounded⟩, names, named⟩ entry member
    exact ⟨⟨names entry member, short entry member⟩, bounded entry member, named entry member⟩
  · intro each
    exact ⟨⟨fun entry member => (each entry member).1.2, fun entry member => (each entry member).2.1⟩,
      fun entry member => (each entry member).1.1, fun entry member => (each entry member).2.2⟩

end Value

namespace Literal

variable {spacing : Spacing}

theorem hasFewDigits_iff {n : Int} : Value.HasFewDigits n ↔ n.natAbs < Nat.pow 10 digitLimit := by
  have bound : ∀ limit, 0 < limit →
      ((Nat.toDigits 10 n.natAbs).length ≤ limit ↔ n.natAbs < Nat.pow 10 limit) :=
    fun limit positive => Nat.length_toDigits_le_iff (by decide) positive
  exact bound digitLimit (by decide)

theorem display_eq_ok {value : Value} (few : ∀ n ∈ value.integers, Value.HasFewDigits n) :
    display value = .ok value.shown := by
  rw [display, if_pos]
  rw [List.all_eq_true]
  intro n member
  exact decide_eq_true (hasFewDigits_iff.mp (few n member))

theorem exists_display_iff {value : Value} :
    (∃ text, display value = .ok text) ↔ ∀ n ∈ value.integers, Value.HasFewDigits n := by
  refine ⟨?_, fun few => ⟨_, display_eq_ok few⟩⟩
  rintro ⟨text, displayed⟩ n member
  rw [display] at displayed
  split at displayed
  · rename_i all
    exact hasFewDigits_iff.mpr (of_decide_eq_true (List.all_eq_true.mp all n member))
  · exact absurd displayed nofun

theorem exists_integer_iff {n : Int} : (∃ text, integer n = .ok text) ↔ Value.HasFewDigits n := by
  rw [hasFewDigits_iff, integer]
  split
  · rename_i few
    exact ⟨fun _ => few, fun _ => ⟨_, rfl⟩⟩
  · rename_i many
    exact ⟨nofun, fun few => absurd few many⟩

theorem exists_keyText_iff (spacing : Spacing) {key : Value} :
    (∃ text, keyText spacing key = .ok text) ↔ key.IsName ∧ key.IsShort := by
  cases key with
  | int n => simp [keyText, Value.IsName, Value.IsShort, exists_integer_iff]
  | _ => simp [keyText, Value.IsName, Value.IsShort]

theorem encodeAt_of_isOpaque {value : Value} (isOpaque : value.IsOpaque) (depth : Nat) :
    encodeAt spacing depth value = do return quote (← display value) := by
  cases value with
  | set items => rfl
  | bytes _ => rfl
  | date _ => rfl
  | dateTime _ => rfl
  | path _ => rfl
  | _ => exact isOpaque.elim

theorem exists_encodeAt_iff_of_isOpaque {value : Value} (isOpaque : value.IsOpaque) (depth : Nat) :
    (∃ text, encodeAt spacing depth value = .ok text) ↔ value.Writable := by
  rw [encodeAt_of_isOpaque isOpaque, Value.writable_iff_isShort (Or.inr isOpaque),
    Value.isShort_iff_of_isOpaque isOpaque, ← exists_display_iff]
  simp only [exists_bind_eq_ok_iff, exists_pure_eq_ok, and_true]

mutual

theorem exists_encodeAt_iff : (depth : Nat) → (value : Value) →
    ((∃ text, encodeAt spacing depth value = .ok text) ↔ value.Writable)
  | depth, .list items => by
      rw [Value.writable_list, ← exists_encodeItems_iff (depth + 1) items, encodeAt]
      simp only [exists_bind_eq_ok_iff, exists_pure_eq_ok, and_true]
  | depth, .tuple items => by
      rw [Value.writable_tuple, ← exists_encodeItems_iff (depth + 1) items, encodeAt]
      simp only [exists_bind_eq_ok_iff, exists_pure_eq_ok, and_true]
  | depth, .map entries => by
      rw [Value.writable_map, ← exists_encodeEntries_iff (depth + 1) entries, encodeAt]
      simp only [exists_bind_eq_ok_iff, exists_pure_eq_ok, and_true]
  | depth, .int n => by
      have isName : (Value.int n).IsName := trivial
      rw [encodeAt, exists_integer_iff, Value.writable_iff_isShort (Or.inl isName)]
      rfl
  | depth, .endless => by
      rw [Value.writable_of_alone (by rintro inner ⟨⟩; rfl)]
      simp [encodeAt, Value.IsMeasured]
  | depth, .null | depth, .bool _ | depth, .float _ | depth, .text _ =>
      iff_of_true ⟨_, rfl⟩ (Value.writable_of_scalar (Or.inl trivial) trivial)
  | depth, .set _ | depth, .bytes _ | depth, .date _ | depth, .dateTime _ | depth, .path _ =>
      exists_encodeAt_iff_of_isOpaque (by trivial) depth

theorem exists_encodeItems_iff : (depth : Nat) → (items : List Value) →
    ((∃ texts, encodeItems spacing depth items = .ok texts) ↔ ∀ item ∈ items, item.Writable)
  | depth, [] => by simp [encodeItems]
  | depth, item :: rest => by
      rw [encodeItems, List.forall_mem_cons, ← exists_encodeAt_iff depth item,
        ← exists_encodeItems_iff depth rest]
      simp only [exists_bind_eq_ok_iff, exists_pure_eq_ok, and_true, exists_and_right]

theorem exists_encodeEntries_iff : (depth : Nat) → (entries : List (Value × Value)) →
    ((∃ texts, encodeEntries spacing depth entries = .ok texts) ↔
      ∀ entry ∈ entries, (entry.1.IsName ∧ entry.1.IsShort) ∧ entry.2.Writable)
  | depth, [] => by simp [encodeEntries]
  | depth, (key, value) :: rest => by
      rw [encodeEntries, List.forall_mem_cons, ← exists_keyText_iff spacing,
        ← exists_encodeAt_iff depth value, ← exists_encodeEntries_iff depth rest]
      simp only [exists_bind_eq_ok_iff, exists_pure_eq_ok, and_true, exists_and_right, and_assoc]

end

theorem encode_of_isOpaque {value : Value} (isOpaque : value.IsOpaque) (short : value.IsShort)
    (spacing : Spacing) : encode spacing value = .ok (quote value.shown) := by
  rw [encode, encodeAt_of_isOpaque isOpaque,
    display_eq_ok ((Value.isShort_iff_of_isOpaque isOpaque).mp short)]
  rfl

theorem write_eq_ok {value : Value} {text : List Char} (written : encode spacing value = .ok text) :
    write spacing value = .ok (String.ofList text) := by
  rw [write, bind_of_eq_ok written]
  rfl

theorem write_eq_error_iff {value : Value} {failure : Error} :
    write spacing value = .error failure ↔ encode spacing value = .error failure :=
  bind_pure_eq_error_iff

end Literal

end TreeExport
