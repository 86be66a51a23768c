import TreeExport.Proofs.Literal.Writable

/-!
What literals are made of: the names of null and of the truth values, numbers, quoted texts, and brackets
around pieces of these. What all parts have and every bracket keeps, all literals have.
-/

namespace TreeExport

namespace Literal

variable {spacing : Spacing} {depth : Nat} {text : List Char}

theorem integer_eq_ok {n : Int} (written : integer n = .ok text) : text = Value.integerText n := by
  unfold integer at written
  split at written
  · exact (Except.ok.inj written).symm
  · exact absurd written nofun

theorem forall_of_encodeItems {holds : List Char → Prop} {items : List Value} {texts : List (List Char)}
    (each : ∀ item ∈ items, ∀ text, encodeAt spacing depth item = .ok text → holds text)
    (written : encodeItems spacing depth items = .ok texts) : ∀ text ∈ texts, holds text := by
  induction items generalizing texts with
  | nil =>
      obtain rfl := Except.ok.inj written
      exact nofun
  | cons item items ih =>
      rw [encodeItems] at written
      obtain ⟨text, first, written⟩ := exists_of_bind_eq_ok written
      obtain ⟨texts, others, same⟩ := exists_of_bind_eq_ok written
      obtain rfl := Except.ok.inj same
      have later := ih (fun other member => each other (List.mem_cons_of_mem item member)) others
      exact List.forall_mem_cons.mpr ⟨each item List.mem_cons_self text first, later⟩

def member (spacing : Spacing) (name text : List Char) : List Char :=
  quote name ++ spacing.colon ++ text

theorem exists_of_encodeEntries {holds : List Char → Prop} {entries : List (Value × Value)}
    {texts : List (List Char)}
    (each : ∀ entry ∈ entries, ∀ text, encodeAt spacing depth entry.2 = .ok text → holds text)
    (written : encodeEntries spacing depth entries = .ok texts) :
    ∀ piece ∈ texts, ∃ name text, piece = member spacing name text ∧ holds text := by
  induction entries generalizing texts with
  | nil =>
      obtain rfl := Except.ok.inj written
      exact nofun
  | cons entry entries ih =>
      rw [encodeEntries] at written
      obtain ⟨name, _, written⟩ := exists_of_bind_eq_ok written
      obtain ⟨text, first, written⟩ := exists_of_bind_eq_ok written
      obtain ⟨texts, others, same⟩ := exists_of_bind_eq_ok written
      obtain rfl := Except.ok.inj same
      have later := ih (fun other inside => each other (List.mem_cons_of_mem entry inside)) others
      exact List.forall_mem_cons.mpr
        ⟨⟨name, text, rfl, each entry List.mem_cons_self text first⟩, later⟩

structure Basic (holds : List Char → Prop) : Prop where
  null : holds "null".toList
  bool : ∀ value : Bool, holds (if value then "true" else "false").toList
  integer : ∀ n, holds (Value.integerText n)
  number : ∀ x : Binary64, holds (x.render .literal)
  quoted : ∀ text, holds (quote text)

/-- A property of texts that single values have and that brackets keep. -/
structure Closed (spacing : Spacing) (holds : List Char → Prop) : Prop extends Basic holds where
  list : ∀ depth pieces, (∀ piece ∈ pieces, holds piece) → holds (bracket spacing depth '[' ']' pieces)
  map : ∀ depth pieces, (∀ piece ∈ pieces, ∃ name text, piece = member spacing name text ∧ holds text) →
    holds (bracket spacing depth '\x7b' '\x7d' pieces)

section Encoded

variable {holds : List Char → Prop} {value : Value}

theorem Basic.of_encodeAt (basic : Basic holds) (single : ¬value.IsCollection)
    (written : encodeAt spacing depth value = .ok text) : holds text := by
  cases value with
  | null =>
      obtain rfl := Except.ok.inj written
      exact basic.null
  | bool value =>
      obtain rfl := Except.ok.inj written
      exact basic.bool value
  | int n =>
      rw [encodeAt] at written
      rw [integer_eq_ok written]
      exact basic.integer n
  | float x =>
      obtain rfl := Except.ok.inj written
      exact basic.number x
  | text value =>
      obtain rfl := Except.ok.inj written
      exact basic.quoted value.toList
  | endless => exact absurd written nofun
  | list _ | tuple _ | map _ => exact absurd trivial single
  | set _ | bytes _ | date _ | dateTime _ | path _ =>
      rw [encodeAt_of_isOpaque (by trivial)] at written
      obtain ⟨shown, _, same⟩ := exists_of_bind_eq_ok written
      obtain rfl := Except.ok.inj same
      exact basic.quoted shown

theorem Closed.of_encodeAt (closed : Closed spacing holds)
    (written : encodeAt spacing depth value = .ok text) : holds text := by
  induction value using Value.inner_induction generalizing depth text with
  | list items ih | tuple items ih =>
      rw [encodeAt] at written
      obtain ⟨pieces, inner, same⟩ := exists_of_bind_eq_ok written
      obtain rfl := Except.ok.inj same
      exact closed.list depth pieces (forall_of_encodeItems (fun item inside _ => ih item inside) inner)
  | map entries ih =>
      rw [encodeAt] at written
      obtain ⟨pieces, inner, same⟩ := exists_of_bind_eq_ok written
      obtain rfl := Except.ok.inj same
      exact closed.map depth pieces (exists_of_encodeEntries (fun entry inside _ => ih entry inside) inner)
  | single value single => exact closed.toBasic.of_encodeAt single written

end Encoded

end Literal

end TreeExport
