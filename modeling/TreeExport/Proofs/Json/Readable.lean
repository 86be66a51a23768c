import TreeExport.Json
import TreeExport.Proofs.Literal.Writable
import Mathlib.Algebra.Group.Nat.Defs

/-!
What documents are made of. A reader gives no other values than null, truth values, numbers, texts, lists and
maps with texts as keys, and no integer with too many digits.
-/

namespace TreeExport

namespace Value

/-- Whether a value is of a kind that a document has, and no integer with too many digits. -/
def IsReadable : Value → Prop
  | .null => True
  | .bool _ => True
  | .int n => HasFewDigits n
  | .float _ => True
  | .text _ => True
  | .list _ => True
  | .map entries => ∀ entry ∈ entries, ∃ name, entry.1 = .text name
  | _ => False

variable {n : Int} {length : Nat} {entries : List (Value × Value)} {name : String} {value found : Value}

theorem hasFewDigits_of_lt (small : n.natAbs < 10 ^ length) (short : length ≤ 4300) : HasFewDigits n := by
  have bound : ∀ limit, 0 < limit → length ≤ limit → (Nat.toDigits 10 n.natAbs).length ≤ limit := by
    intro limit positive fits
    have small := Nat.lt_of_lt_of_le small (Nat.pow_le_pow_right (by decide) fits)
    exact (Nat.length_toDigits_le_iff (by decide) positive).mpr small
  exact bound 4300 (by decide) short

theorem everywhere_of_isName {holds : Value → Prop} (isName : value.IsName) (here : holds value) :
    value.Everywhere holds := by
  cases value with
  | list _ => exact isName.elim
  | tuple _ => exact isName.elim
  | map _ => exact isName.elim
  | _ =>
      rintro inner ⟨⟩
      exact here

/-! ### Parts -/

theorem mem_of_lookup? (present : lookup? entries name = some found) :
    ∃ entry ∈ entries, entry.2 = found := by
  fun_induction lookup? entries name with
  | case1 => exact absurd present nofun
  | case2 => exact ⟨_, List.mem_cons_self, Option.some.inj present⟩
  | case3 _ _ _ _ ih =>
      obtain ⟨entry, member, same⟩ := ih present
      exact ⟨entry, List.mem_cons_of_mem _ member, same⟩
  | case4 _ _ _ ih =>
      obtain ⟨entry, member, same⟩ := ih present
      exact ⟨entry, List.mem_cons_of_mem _ member, same⟩

theorem everywhere_lookup? {holds : Value → Prop} (all : (Value.map entries).Everywhere holds)
    (present : lookup? entries name = some found) : found.Everywhere holds := by
  obtain ⟨entry, member, rfl⟩ := mem_of_lookup? present
  exact (everywhere_map.mp all).2 entry member

end Value

namespace Json

open Value (IsReadable HasFewDigits hasFewDigits_of_lt everywhere_of_isName everywhere_list everywhere_map)

variable {text rest : List Char} {value : Value}

/-! ### Scalars -/

theorem ofDigitChars_lt (digits : ∀ c ∈ text, isDigit c = true) (start : Nat) :
    Nat.ofDigitChars 10 text start < (start + 1) * 10 ^ text.length := by
  induction text generalizing start with
  | nil => simp
  | cons c rest ih =>
      have digit := digits c List.mem_cons_self
      rw [isDigit, Bool.and_eq_true, decide_eq_true_eq, decide_eq_true_eq] at digit
      have high : c.toNat ≤ '9'.toNat := digit.2
      have nine : '9'.toNat = '0'.toNat + 9 := by decide
      have below := ih (fun other member => digits other (List.mem_cons_of_mem c member))
        (10 * start + (c.toNat - '0'.toNat))
      rw [Nat.ofDigitChars_cons]
      calc _ < (10 * start + (c.toNat - '0'.toNat) + 1) * 10 ^ rest.length := below
        _ ≤ (10 * (start + 1)) * 10 ^ rest.length := Nat.mul_le_mul_right _ (by omega)
        _ = (start + 1) * 10 ^ (c :: rest).length := by
            rw [List.length_cons, Nat.pow_succ, Nat.mul_comm 10, Nat.mul_assoc, Nat.mul_comm 10]

theorem hasFewDigits_of_digits (digits : ∀ c ∈ text, isDigit c = true) (short : text.length ≤ digitLimit)
    (negative : Bool) :
    HasFewDigits (if negative then -(Nat.ofDigitChars 10 text 0 : Int) else Nat.ofDigitChars 10 text 0) := by
  have below := ofDigitChars_lt digits 0
  rw [Nat.zero_add, Nat.one_mul] at below
  apply hasFewDigits_of_lt _ short
  cases negative <;> simpa using below

theorem isDigit_of_mem_wholeDigits {c : Char} (member : c ∈ wholeDigits text) : isDigit c = true := by
  cases text with
  | nil => exact absurd member List.not_mem_nil
  | cons first rest =>
      rw [wholeDigits] at member
      split at member
      · rw [List.mem_singleton.mp member]
        decide
      · split at member
        · rename_i digit
          rcases List.mem_cons.mp member with rfl | later
          · exact digit
          · exact List.all_eq_true.mp List.all_takeWhile c later
        · exact absurd member List.not_mem_nil

theorem everywhere_readMagnitude {negative : Bool} (read : readMagnitude negative text = .ok (value, rest)) :
    value.Everywhere IsReadable := by
  rw [readMagnitude] at read
  split at read
  · obtain ⟨rfl, _⟩ := Prod.mk.inj (Except.ok.inj read)
    exact everywhere_of_isName trivial trivial
  · split at read
    · split at read
      · exact absurd read nofun
      · rename_i short
        obtain ⟨rfl, _⟩ := Prod.mk.inj (Except.ok.inj read)
        refine everywhere_of_isName trivial ?_
        exact hasFewDigits_of_digits (fun c => isDigit_of_mem_wholeDigits) (Nat.le_of_not_lt short) negative
    · obtain ⟨rfl, _⟩ := Prod.mk.inj (Except.ok.inj read)
      exact everywhere_of_isName trivial trivial

theorem everywhere_names : ∀ entry ∈ names, entry.2.Everywhere IsReadable := by
  intro entry member
  rw [names] at member
  simp only [List.mem_cons, List.not_mem_nil, or_false] at member
  rcases member with rfl | rfl | rfl | rfl | rfl | rfl <;> exact everywhere_of_isName trivial trivial

theorem everywhere_readScalar (read : readScalar text = .ok (value, rest)) : value.Everywhere IsReadable := by
  rw [readScalar] at read
  split at read
  · rename_i name named found
    obtain ⟨rfl, _⟩ := Prod.mk.inj (Except.ok.inj read)
    exact everywhere_names _ (List.mem_of_find?_eq_some found)
  · split at read
    · split at read
      · exact absurd read nofun
      · exact everywhere_readMagnitude read
    · split at read
      · exact absurd read nofun
      · exact everywhere_readMagnitude read

/-! ### Collections -/

def IsReadableEntry (entry : Value × Value) : Prop :=
  (∃ name, entry.1 = .text name) ∧ entry.2.Everywhere IsReadable

theorem everywhere_of_entries {entries : List (Value × Value)} (each : ∀ entry ∈ entries, IsReadableEntry entry) :
    (Value.map entries).Everywhere IsReadable :=
  everywhere_map.mpr ⟨fun entry member => (each entry member).1, fun entry member => (each entry member).2⟩

theorem putEntry_readable {entries : List (Value × Value)} (each : ∀ entry ∈ entries, IsReadableEntry entry)
    {entry : Value × Value} (readable : IsReadableEntry entry) :
    ∀ other ∈ Value.putEntry entries entry.1 entry.2, IsReadableEntry other := by
  induction entries with
  | nil => simpa [Value.putEntry] using readable
  | cons first others ih =>
      obtain ⟨key, old⟩ := first
      obtain ⟨here, later⟩ := List.forall_mem_cons.mp each
      rw [Value.putEntry]
      split
      · exact List.forall_mem_cons.mpr ⟨⟨here.1, readable.2⟩, later⟩
      · exact List.forall_mem_cons.mpr ⟨here, ih later⟩

theorem everywhere_ofEntries {entries : List (Value × Value)} (each : ∀ entry ∈ entries, IsReadableEntry entry) :
    (Value.ofEntries entries).Everywhere IsReadable := by
  have folded : ∀ written, (∀ entry ∈ written, IsReadableEntry entry) →
      ∀ entry ∈ entries.foldl (fun map entry => Value.putEntry map entry.1 entry.2) written,
        IsReadableEntry entry := by
    induction entries with
    | nil => exact fun written known => known
    | cons entry entries ih =>
        obtain ⟨here, later⟩ := List.forall_mem_cons.mp each
        exact fun written known => ih later _ (putEntry_readable known here)
  exact everywhere_of_entries (folded [] nofun)

structure GivesReadable (fuel : Nat) : Prop where
  value : ∀ text value rest, readValue fuel text = .ok (value, rest) → value.Everywhere IsReadable
  items : ∀ text items rest, readItems fuel text = .ok (items, rest) → ∀ item ∈ items, item.Everywhere IsReadable
  members : ∀ text entries rest, readMembers fuel text = .ok (entries, rest) →
    ∀ entry ∈ entries, IsReadableEntry entry

section Step

variable {fuel : Nat} (less : GivesReadable fuel)

include less

theorem everywhere_readValue (read : readValue (fuel + 1) text = .ok (value, rest)) :
    value.Everywhere IsReadable := by
  cases text with
  | nil => exact absurd read nofun
  | cons c others =>
      rw [readValue] at read
      split at read
      · obtain ⟨⟨quoted, behind⟩, _, last⟩ := exists_of_bind_eq_ok read
        obtain ⟨rfl, _⟩ := Prod.mk.inj (Except.ok.inj last)
        exact everywhere_of_isName trivial trivial
      split at read
      · split at read
        · obtain ⟨rfl, _⟩ := Prod.mk.inj (Except.ok.inj read)
          exact everywhere_list.mpr ⟨trivial, nofun⟩
        · obtain ⟨⟨items, behind⟩, first, last⟩ := exists_of_bind_eq_ok read
          obtain ⟨rfl, _⟩ := Prod.mk.inj (Except.ok.inj last)
          exact everywhere_list.mpr ⟨trivial, less.items _ _ _ first⟩
      split at read
      · split at read
        · obtain ⟨rfl, _⟩ := Prod.mk.inj (Except.ok.inj read)
          exact everywhere_of_entries nofun
        · obtain ⟨⟨entries, behind⟩, first, last⟩ := exists_of_bind_eq_ok read
          obtain ⟨rfl, _⟩ := Prod.mk.inj (Except.ok.inj last)
          exact everywhere_ofEntries (less.members _ _ _ first)
      · exact everywhere_readScalar read

theorem everywhere_readItems {items : List Value} (read : readItems (fuel + 1) text = .ok (items, rest)) :
    ∀ item ∈ items, item.Everywhere IsReadable := by
  rw [readItems] at read
  obtain ⟨⟨item, behind⟩, first, further⟩ := exists_of_bind_eq_ok read
  have here := less.value _ _ _ first
  dsimp only at further
  split at further
  · obtain ⟨rfl, _⟩ := Prod.mk.inj (Except.ok.inj further)
    exact List.forall_mem_singleton.mpr here
  · obtain ⟨⟨others, behind⟩, later, last⟩ := exists_of_bind_eq_ok further
    obtain ⟨rfl, _⟩ := Prod.mk.inj (Except.ok.inj last)
    exact List.forall_mem_cons.mpr ⟨here, less.items _ _ _ later⟩
  · exact absurd further nofun

theorem readable_readMembers {entries : List (Value × Value)}
    (read : readMembers (fuel + 1) text = .ok (entries, rest)) : ∀ entry ∈ entries, IsReadableEntry entry := by
  unfold readMembers at read
  split at read
  · obtain ⟨⟨name, behind⟩, _, named⟩ := exists_of_bind_eq_ok read
    dsimp only at named
    split at named
    · obtain ⟨⟨value, behind⟩, first, further⟩ := exists_of_bind_eq_ok named
      have here : IsReadableEntry (.text (String.ofList name), value) :=
        ⟨⟨_, rfl⟩, less.value _ _ _ first⟩
      dsimp only at further
      split at further
      · obtain ⟨rfl, _⟩ := Prod.mk.inj (Except.ok.inj further)
        exact List.forall_mem_singleton.mpr here
      · obtain ⟨⟨others, behind⟩, later, last⟩ := exists_of_bind_eq_ok further
        obtain ⟨rfl, _⟩ := Prod.mk.inj (Except.ok.inj last)
        exact List.forall_mem_cons.mpr ⟨here, less.members _ _ _ later⟩
      · exact absurd further nofun
    · exact absurd named nofun
  · exact absurd read nofun

end Step

theorem givesReadable (fuel : Nat) : GivesReadable fuel := by
  induction fuel with
  | zero => exact ⟨fun _ _ _ => nofun, fun _ _ _ => nofun, fun _ _ _ => nofun⟩
  | succ fuel ih => exact ⟨fun _ _ _ => everywhere_readValue ih, fun _ _ _ => everywhere_readItems ih,
      fun _ _ _ => readable_readMembers ih⟩

theorem everywhere_of_read {text : String} (read : Json.read text = .ok value) :
    value.Everywhere IsReadable := by
  rw [Json.read] at read
  split at read
  · rename_i all
    obtain rfl := Except.ok.inj read
    unfold readAll at all
    split at all
    · exact absurd all nofun
    · obtain ⟨⟨value, behind⟩, first, last⟩ := exists_of_bind_eq_ok all
      dsimp only at last
      split at last
      · obtain rfl := Except.ok.inj last
        exact (givesReadable _).value _ _ _ first
      · exact absurd last nofun
  · exact absurd read nofun

end Json

end TreeExport
