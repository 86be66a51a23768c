import TreeExport.Proofs.Json.Float
import TreeExport.Proofs.Json.Quoted
import TreeExport.Proofs.Literal.Closure

/-!
Compact literals stand on one line. What has syntax of its own is written with visible characters, everything
else as a quoted text, whose control characters are escaped; and nothing stands between the tokens.
-/

namespace TreeExport

namespace Literal

def Visible (text : List Char) : Prop := ∀ c ∈ text, 0x20 ≤ c.toNat

variable {text : List Char}

theorem Visible.lineFeed_not_mem (visible : Visible text) : '\n' ∉ text :=
  fun member => absurd (visible _ member) (by decide)

theorem visible_of_all (shown : text.all (fun c => 0x20 ≤ c.toNat) = true) : Visible text :=
  fun c member => of_decide_eq_true (List.all_eq_true.mp shown c member)

theorem visible_append {first second : List Char} (before : Visible first) (after : Visible second) :
    Visible (first ++ second) := by
  intro c member
  rcases List.mem_append.mp member with here | later
  · exact before c here
  · exact after c later

theorem visible_quote (text : List Char) : Visible (quote text) :=
  fun _ => Json.le_toNat_of_mem_quote

theorem visible_render (x : Binary64) : Visible (x.render .literal) := by
  cases x with
  | nan => exact visible_of_all (by decide)
  | infinite negative => cases negative <;> exact visible_of_all (by decide)
  | finite x => exact fun _ inside => (Numeral.isPlain_of_mem_render inside).le_toNat

theorem visible_bracket {depth : Nat} {opening closing : Char} {pieces : List (List Char)}
    (start : 0x20 ≤ opening.toNat) (stop : 0x20 ≤ closing.toNat) (each : ∀ piece ∈ pieces, Visible piece) :
    Visible (bracket .compact depth opening closing pieces) := by
  have joined : Visible ([','].intercalate pieces) := by
    intro c member
    rcases Text.mem_of_mem_intercalate member with comma | ⟨piece, inside, here⟩
    · rw [List.mem_singleton.mp comma]
      decide
    · exact each piece inside c here
  have around : Visible (opening :: [','].intercalate pieces ++ [closing]) := by
    intro c member
    simp only [List.cons_append, List.mem_cons, List.mem_append, List.not_mem_nil, or_false] at member
    rcases member with rfl | inside | rfl
    · exact start
    · exact joined c inside
    · exact stop
  cases pieces with
  | nil => exact around
  | cons piece pieces => simpa [bracket, Spacing.lineBreak] using around

theorem closed_visible : Closed .compact Visible where
  null := visible_of_all (by decide)
  bool value := by cases value <;> exact visible_of_all (by decide)
  integer _ := fun _ inside => (Numeral.isPlain_of_mem_integerText inside).le_toNat
  number := visible_render
  quoted := visible_quote
  list _ _ := visible_bracket (by decide) (by decide)
  map _ pieces each := by
    apply visible_bracket (by decide) (by decide)
    intro piece inside
    obtain ⟨name, text, rfl, visible⟩ := each piece inside
    exact visible_append (visible_append (visible_quote name) (visible_of_all (by decide))) visible

theorem visible_encodeAt (depth : Nat) (value : Value) :
    ∀ text, encodeAt .compact depth value = .ok text → Visible text :=
  fun _ => closed_visible.of_encodeAt

end Literal

end TreeExport
