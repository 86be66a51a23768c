import TreeExport.Proofs.Json.Writing
import TreeExport.Proofs.Literal.Closure

/-!
The grammar of JSON texts, where beside the standard the names of infinity and of no number are numbers, and
that every literal of every value is made by it.
-/

namespace TreeExport

namespace Json

open Literal (escapeChar quote)

section Numbers

def IsDigits (text : List Char) : Prop := text ≠ [] ∧ ∀ c ∈ text, isDigit c

inductive IsWhole : List Char → Prop
  | zero : IsWhole ['0']
  | positive {first : Char} {others : List Char} : first ≠ '0' → IsDigits (first :: others) →
      IsWhole (first :: others)

inductive IsFraction : List Char → Prop
  | none : IsFraction []
  | digits {text : List Char} : IsDigits text → IsFraction ('.' :: text)

inductive IsExponent : List Char → Prop
  | none : IsExponent []
  | digits {letter : Char} {sign text : List Char} : letter ∈ ['e', 'E'] → sign ∈ [[], ['+'], ['-']] →
      IsDigits text → IsExponent (letter :: (sign ++ text))

inductive IsNumber : List Char → Prop
  | parts {sign whole fraction exponent : List Char} : sign ∈ [[], ['-']] → IsWhole whole →
      IsFraction fraction → IsExponent exponent → IsNumber (sign ++ (whole ++ (fraction ++ exponent)))

theorem Spelling.isWhole (spelling : Spelling) : IsWhole spelling.whole := by
  have digits := spelling.digitsWhole
  rcases spelling.shortWhole with zero | ⟨first, others, split, positive⟩
  · rw [zero]
    exact .zero
  · rw [split] at digits ⊢
    exact .positive positive ⟨List.cons_ne_nil first others, digits⟩

theorem Spelling.isFraction (spelling : Spelling) : IsFraction spelling.fractionText := by
  unfold fractionText
  split
  · exact .none
  · rename_i filled
    exact .digits ⟨filled, spelling.digitsFraction⟩

theorem Spelling.isExponent (spelling : Spelling) : IsExponent spelling.exponentText := by
  unfold exponentText
  split
  · exact .none
  · rename_i negative digits exponent
    have isDigits := spelling.digitsExponent negative digits exponent
    have signed : ∀ sign ∈ [[], ['+'], ['-']], IsExponent ('e' :: (sign ++ digits)) :=
      fun _ known => .digits (by decide) known isDigits
    cases negative with
    | false => exact signed ['+'] (by decide)
    | true => exact signed ['-'] (by decide)

theorem Spelling.isNumber (spelling : Spelling) (negative : Bool) :
    IsNumber ((if negative then ['-'] else []) ++ spelling.text) := by
  have sign : (if negative then ['-'] else []) ∈ [[], ['-']] := by
    cases negative <;> decide
  exact .parts sign spelling.isWhole spelling.isFraction spelling.isExponent

theorem isNumber_integerText (n : Int) : IsNumber (Value.integerText n) := by
  have number := (Spelling.ofNat n.natAbs).isNumber (decide (n < 0))
  simpa [Spelling.text, Spelling.ofNat, Spelling.fractionText, Spelling.exponentText,
    Value.integerText] using number

theorem isNumber_render (layout : Binary64.Layout) (x : Binary64.Finite) :
    IsNumber (Binary64.render layout (.finite x)) := by
  obtain ⟨spelling, written, _, _⟩ := Binary64.exists_spelling_renderMagnitude layout x
  rw [Binary64.render, written]
  exact spelling.isNumber x.negative

end Numbers

section Texts

inductive Unquoted : List Char → Prop
  | nil : Unquoted []
  | plain {c : Char} {rest : List Char} : 0x20 ≤ c.toNat → c ≠ '"' → c ≠ '\\' → Unquoted rest →
      Unquoted (c :: rest)
  | letter {letter : Char} {rest : List Char} : letter ∈ ['"', '\\', '/', 'b', 'f', 'n', 'r', 't'] →
      Unquoted rest → Unquoted ('\\' :: letter :: rest)
  | code {digits rest : List Char} : digits.length = 4 → (∀ c ∈ digits, (hexValue? c).isSome) →
      Unquoted rest → Unquoted ('\\' :: 'u' :: (digits ++ rest))

inductive IsQuoted : List Char → Prop
  | quotes {text : List Char} : Unquoted text → IsQuoted ('"' :: (text ++ ['"']))

theorem mem_of_escapedChar? {letter c : Char} (named : escapedChar? letter = some c) :
    letter ∈ ['"', '\\', '/', 'b', 'f', 'n', 'r', 't'] := by
  by_contra other
  simp only [List.mem_cons, List.not_mem_nil, or_false, not_or] at other
  simp [escapedChar?, other] at named

theorem unquoted_escapeChar (c : Char) {rest : List Char} (behind : Unquoted rest) :
    Unquoted (escapeChar c ++ rest) := by
  rcases escapeChar_cases c with ⟨letter, written, _, named⟩ | ⟨written, control⟩ |
    ⟨written, quote, backslash, visible⟩
  · rw [written]
    exact .letter (mem_of_escapedChar? named) behind
  · rw [written]
    exact .code (hexPadded_control control).1 (fun _ => isSome_hexValue?_of_mem_hexPadded control) behind
  · rw [written]
    exact .plain (by omega) quote backslash behind

theorem isQuoted_quote (text : List Char) : IsQuoted (quote text) := by
  have inside : Unquoted (text.flatMap escapeChar) := by
    induction text with
    | nil => exact .nil
    | cons c text ih => exact unquoted_escapeChar c ih
  exact .quotes inside

end Texts

inductive Padded (kind : List Char → Prop) : List Char → Prop
  | blanks {before text after : List Char} : Blank before → kind text → Blank after →
      Padded kind (before ++ (text ++ after))

inductive Separated (kind : List Char → Prop) : List Char → Prop
  | last {text : List Char} : kind text → Separated kind text
  | comma {text rest : List Char} : kind text → Separated kind rest → Separated kind (text ++ ',' :: rest)

inductive Bracketed (opening closing : Char) (kind : List Char → Prop) : List Char → Prop
  | empty {gap : List Char} : Blank gap → Bracketed opening closing kind (opening :: (gap ++ [closing]))
  | filled {inside : List Char} : Separated (Padded kind) inside →
      Bracketed opening closing kind (opening :: (inside ++ [closing]))

inductive IsMember (kind : List Char → Prop) : List Char → Prop
  | colon {name gap text : List Char} : IsQuoted name → Blank gap → Padded kind text →
      IsMember kind (name ++ (gap ++ ':' :: text))

/-- The JSON texts without the blanks that may stand around them. -/
inductive WellFormed : List Char → Prop
  | name {text : List Char} : text ∈ names.map Prod.fst → WellFormed text
  | number {text : List Char} : IsNumber text → WellFormed text
  | text {text : List Char} : IsQuoted text → WellFormed text
  | list {text : List Char} : Bracketed '[' ']' WellFormed text → WellFormed text
  | map {text : List Char} : Bracketed '\x7b' '\x7d' (IsMember WellFormed) text → WellFormed text

section Brackets

variable {kind : List Char → Prop} {inner outer : List Char} {pieces : List (List Char)}

theorem separated_intercalate (isInner : Blank inner) (isOuter : Blank outer) (filled : pieces ≠ [])
    (each : ∀ piece ∈ pieces, kind piece) :
    Separated (Padded kind) (inner ++ ((',' :: inner).intercalate pieces ++ outer)) := by
  induction pieces with
  | nil => exact absurd rfl filled
  | cons piece pieces ih =>
      have first := each piece List.mem_cons_self
      cases pieces with
      | nil =>
          rw [List.intercalate_singleton]
          exact .last (.blanks isInner first isOuter)
      | cons next others =>
          have alone : Padded kind (inner ++ (piece ++ [])) := .blanks isInner first nofun
          have later := ih (List.cons_ne_nil next others) fun other inside =>
            each other (List.mem_cons_of_mem piece inside)
          have both := Separated.comma alone later
          rw [List.intercalate_cons_cons]
          simpa only [List.append_assoc, List.append_nil, List.nil_append, List.cons_append] using both

theorem bracketed_enclose (opening closing : Char) (isInner : Blank inner) (isOuter : Blank outer)
    (each : ∀ piece ∈ pieces, kind piece) :
    Bracketed opening closing kind (enclose opening closing inner outer pieces) := by
  cases pieces with
  | nil =>
      have nothing : Blank [] := nofun
      exact .empty nothing
  | cons piece pieces =>
      have inside := separated_intercalate isInner isOuter (List.cons_ne_nil piece pieces) each
      have around : Bracketed opening closing kind (opening :: (_ ++ [closing])) := .filled inside
      simpa only [enclose, List.append_assoc] using around

end Brackets

end Json

namespace Literal

open Json (WellFormed)

variable {spacing : Spacing}

theorem wellFormed_render (x : Binary64) : WellFormed (x.render .literal) := by
  cases x with
  | nan => exact .name (by decide)
  | infinite negative => cases negative <;> exact .name (by decide)
  | finite x => exact .number (Json.isNumber_render .literal x)

theorem isMember_member (spacing : Spacing) (name : List Char) {text : List Char} (wellFormed : WellFormed text) :
    Json.IsMember WellFormed (member spacing name text) := by
  obtain ⟨gap, isGap, colon⟩ := Json.blank_colon spacing
  have nothing : Json.Blank [] := nofun
  have value := Json.Padded.blanks isGap wellFormed nothing
  have whole := Json.IsMember.colon (Json.isQuoted_quote name) nothing value
  rw [member, colon]
  simpa only [List.append_assoc, List.append_nil, List.nil_append, List.cons_append] using whole

theorem closed_wellFormed (spacing : Spacing) : Closed spacing WellFormed where
  null := .name (by decide)
  bool value := by cases value <;> exact .name (by decide)
  integer n := .number (Json.isNumber_integerText n)
  number := wellFormed_render
  quoted text := .text (Json.isQuoted_quote text)
  list depth pieces each := by
    rw [Json.bracket_eq_enclose]
    exact .list (Json.bracketed_enclose _ _ (Json.blank_lineBreak spacing _)
      (Json.blank_lineBreak spacing _) each)
  map depth pieces each := by
    have members : ∀ piece ∈ pieces, Json.IsMember WellFormed piece := by
      intro piece inside
      obtain ⟨name, text, rfl, wellFormed⟩ := each piece inside
      exact isMember_member spacing name wellFormed
    rw [Json.bracket_eq_enclose]
    exact .map (Json.bracketed_enclose _ _ (Json.blank_lineBreak spacing _)
      (Json.blank_lineBreak spacing _) members)

end Literal

end TreeExport
