import TreeExport.Proofs.Json.Writing
import TreeExport.Proofs.Literal.Compact

/-!
Literals of one value with different spacing. All that spacing adds are blanks between the tokens: without the
blanks outside its quoted texts every literal is the compact one. A literal of a plain value, with whatever
spacing, reads back as the value.
-/

namespace TreeExport

namespace Json

open Literal (escapeChar quote)

/-- A text without its blanks, except for those between quotes; a backslash there takes the next character
with it. -/
def squeeze : (quoted : Bool) → List Char → List Char
  | _, [] => []
  | true, '\\' :: c :: rest => '\\' :: c :: squeeze true rest
  | true, c :: rest => c :: squeeze (c != '"') rest
  | false, c :: rest => if isSpace c then squeeze false rest else c :: squeeze (c == '"') rest

def Squeezes (text tokens : List Char) : Prop :=
  ∀ rest, squeeze false (text ++ rest) = tokens ++ squeeze false rest

section Squeezing

variable {text tokens : List Char}

theorem Squeezes.squeeze_eq (squeezes : Squeezes text tokens) : squeeze false text = tokens := by
  have alone := squeezes []
  rwa [List.append_nil, squeeze, List.append_nil] at alone

theorem squeezes_append {more others : List Char} (first : Squeezes text tokens)
    (second : Squeezes more others) : Squeezes (text ++ more) (tokens ++ others) := by
  intro rest
  rw [List.append_assoc, first, second, List.append_assoc]

theorem squeezes_blank (isBlank : Blank text) : Squeezes text [] := by
  intro rest
  induction text with
  | nil => rfl
  | cons c text ih =>
      have later := ih fun other member => isBlank other (List.mem_cons_of_mem c member)
      rw [List.cons_append, squeeze, if_pos (isBlank c List.mem_cons_self), later]

theorem squeezes_solid (solid : ∀ c ∈ text, isSpace c = false ∧ c ≠ '"') : Squeezes text text := by
  intro rest
  induction text with
  | nil => rfl
  | cons c text ih =>
      obtain ⟨visible, unquoted⟩ := solid c List.mem_cons_self
      have later := ih fun other member => solid other (List.mem_cons_of_mem c member)
      rw [List.cons_append, squeeze, visible, beq_eq_false_iff_ne.mpr unquoted, later]
      rfl

theorem squeezes_of_all (solid : text.all (fun c => !isSpace c && c != '"') = true) : Squeezes text text := by
  apply squeezes_solid
  intro c member
  simpa using List.all_eq_true.mp solid c member

theorem squeeze_plain (plain : ∀ c ∈ text, c ≠ '"' ∧ c ≠ '\\') (rest : List Char) :
    squeeze true (text ++ rest) = text ++ squeeze true rest := by
  induction text with
  | nil => rfl
  | cons c text ih =>
      obtain ⟨quote, backslash⟩ := plain c List.mem_cons_self
      have later := ih fun other member => plain other (List.mem_cons_of_mem c member)
      rw [List.cons_append, squeeze, bne_iff_ne.mpr quote, later]
      · rfl
      · rintro next others rfl
        exact absurd rfl backslash

/-- What a character is written as keeps its blanks, and no quote in it ends the text. -/
theorem squeeze_escapeChar (c : Char) (rest : List Char) :
    squeeze true (escapeChar c ++ rest) = escapeChar c ++ squeeze true rest := by
  rcases escapeChar_cases c with ⟨letter, written, _⟩ | ⟨written, control⟩ |
    ⟨written, quote, backslash, _⟩
  · rw [written]
    rfl
  · have plain : ∀ digit ∈ Text.hexPadded 4 c.toNat, digit ≠ '"' ∧ digit ≠ '\\' := by
      intro digit member
      have hexadecimal := isSome_hexValue?_of_mem_hexPadded control member
      constructor
      · rintro rfl
        exact absurd hexadecimal (by decide)
      · rintro rfl
        exact absurd hexadecimal (by decide)
    rw [written, List.cons_append, List.cons_append, squeeze, squeeze_plain plain]
    rfl
  · rw [written]
    exact squeeze_plain (by simp [quote, backslash]) rest

theorem squeezes_quote (text : List Char) : Squeezes (quote text) (quote text) := by
  intro rest
  have inside : ∀ behind, squeeze true (text.flatMap escapeChar ++ behind) =
      text.flatMap escapeChar ++ squeeze true behind := by
    intro behind
    induction text with
    | nil => rfl
    | cons c text ih =>
        rw [List.flatMap_cons, List.append_assoc, squeeze_escapeChar, ih, List.append_assoc]
  have opening : squeeze false (quote text ++ rest) =
      '"' :: squeeze true (text.flatMap escapeChar ++ '"' :: rest) := by
    simp [quote, squeeze, isSpace]
  rw [opening, inside]
  simp [quote, squeeze]

theorem squeezes_intercalate {separator mark : List Char} {pieces others : List (List Char)}
    (between : Squeezes separator mark) (each : List.Forall₂ Squeezes pieces others) :
    Squeezes (separator.intercalate pieces) (mark.intercalate others) := by
  induction each with
  | nil => exact fun _ => rfl
  | cons first later ih =>
      cases later with
      | nil =>
          rw [List.intercalate_singleton, List.intercalate_singleton]
          exact first
      | cons next others =>
          rw [List.intercalate_cons_cons, List.intercalate_cons_cons]
          exact squeezes_append (squeezes_append first between) ih

theorem squeezes_enclose {opening closing : Char} {inner outer : List Char} {pieces others : List (List Char)}
    (start : isSpace opening = false ∧ opening ≠ '"') (stop : isSpace closing = false ∧ closing ≠ '"')
    (isInner : Blank inner) (isOuter : Blank outer) (each : List.Forall₂ Squeezes pieces others) :
    Squeezes (enclose opening closing inner outer pieces) (enclose opening closing [] [] others) := by
  have first : Squeezes [opening] [opening] := squeezes_solid (by simp [start])
  have last : Squeezes [closing] [closing] := squeezes_solid (by simp [stop])
  have comma : Squeezes [','] [','] := squeezes_of_all (by decide)
  have between := squeezes_append comma (squeezes_blank isInner)
  have joined := squeezes_intercalate between each
  cases each with
  | nil => exact squeezes_append first last
  | cons next later =>
      have inside := squeezes_append (squeezes_blank isInner)
        (squeezes_append joined (squeezes_append (squeezes_blank isOuter) last))
      exact squeezes_append first inside

end Squeezing

end Json

namespace Literal

open Json (Squeezes squeeze)

variable {spacing : Spacing}

theorem squeezes_of_isPlain {text : List Char} (plain : ∀ c ∈ text, Numeral.IsPlain c) :
    Squeezes text text := by
  apply Json.squeezes_solid
  intro c member
  have other : ∀ letter, ¬Numeral.IsPlain letter → c ≠ letter := by
    rintro letter unlike rfl
    exact unlike (plain c member)
  simp [Json.isSpace, other ' ' (by decide), other '\t' (by decide), other '\n' (by decide),
    other '\r' (by decide), other '"' (by decide)]

theorem squeezes_render (x : Binary64) : Squeezes (x.render .literal) (x.render .literal) := by
  cases x with
  | nan => exact Json.squeezes_of_all (by decide)
  | infinite negative => cases negative <;> exact Json.squeezes_of_all (by decide)
  | finite x => exact squeezes_of_isPlain fun _ => Numeral.isPlain_of_mem_render

theorem squeezes_bracket {depth : Nat} {opening closing : Char} {pieces others : List (List Char)}
    (start : Json.isSpace opening = false ∧ opening ≠ '"')
    (stop : Json.isSpace closing = false ∧ closing ≠ '"') (each : List.Forall₂ Squeezes pieces others)
    (other : Nat) :
    Squeezes (bracket spacing depth opening closing pieces) (bracket .compact other opening closing others) := by
  rw [Json.bracket_eq_enclose, Json.bracket_eq_enclose]
  exact Json.squeezes_enclose start stop (Json.blank_lineBreak spacing _) (Json.blank_lineBreak spacing _) each

theorem keyText_compact {key : Value} {name : List Char} (named : keyText spacing key = .ok name) :
    keyText .compact key = .ok name := by
  cases key with
  | text _ | null | bool _ | int _ | float _ => exact named
  | _ => exact absurd named nofun

/-- Whether the compact literal is what is left of a literal without its blanks. -/
def Condenses (literal compact : Except Error (List Char)) : Prop :=
  ∀ text, literal = .ok text → ∃ tokens, compact = .ok tokens ∧ Squeezes text tokens

def CondensesAll (literals compacts : Except Error (List (List Char))) : Prop :=
  ∀ texts, literals = .ok texts → ∃ tokens, compacts = .ok tokens ∧ List.Forall₂ Squeezes texts tokens

theorem condenses_bracket {depth : Nat} {opening closing : Char} {inner compact : Except Error (List (List Char))}
    (start : Json.isSpace opening = false ∧ opening ≠ '"')
    (stop : Json.isSpace closing = false ∧ closing ≠ '"') (each : CondensesAll inner compact) (other : Nat) :
    Condenses (do return bracket spacing depth opening closing (← inner))
      (do return bracket .compact other opening closing (← compact)) := by
  intro text written
  obtain ⟨pieces, succeeded, same⟩ := exists_of_bind_eq_ok written
  obtain rfl := Except.ok.inj same
  obtain ⟨tokens, short, squeezed⟩ := each pieces succeeded
  exact ⟨_, by rw [bind_of_eq_ok short]; rfl, squeezes_bracket start stop squeezed other⟩

theorem squeezes_member (spacing : Spacing) (name : List Char) {text tokens : List Char}
    (squeezes : Squeezes text tokens) :
    Squeezes (member spacing name text) (member .compact name tokens) := by
  obtain ⟨gap, isGap, colon⟩ := Json.blank_colon spacing
  have solid : Squeezes [':'] [':'] := Json.squeezes_of_all (by decide)
  have mark : Squeezes spacing.colon [':'] := by
    rw [colon]
    exact Json.squeezes_append solid (Json.squeezes_blank isGap)
  exact Json.squeezes_append (Json.squeezes_append (Json.squeezes_quote name) mark) squeezes

theorem condenses_encodeItems {items : List Value}
    (each : ∀ item ∈ items, ∀ depth other,
      Condenses (encodeAt spacing depth item) (encodeAt .compact other item)) (depth other : Nat) :
    CondensesAll (encodeItems spacing depth items) (encodeItems .compact other items) := by
  induction items with
  | nil =>
      rintro _ ⟨⟩
      exact ⟨[], rfl, .nil⟩
  | cons item items ih =>
      intro texts written
      rw [encodeItems] at written
      obtain ⟨text, first, written⟩ := exists_of_bind_eq_ok written
      obtain ⟨texts, others, same⟩ := exists_of_bind_eq_ok written
      obtain rfl := Except.ok.inj same
      have later := ih fun next inside => each next (List.mem_cons_of_mem item inside)
      obtain ⟨tokens, short, squeezes⟩ := each item List.mem_cons_self depth other text first
      obtain ⟨more, shorts, rest⟩ := later texts others
      refine ⟨tokens :: more, ?_, .cons squeezes rest⟩
      rw [encodeItems, bind_of_eq_ok short, bind_of_eq_ok shorts]
      rfl

theorem condenses_encodeEntries {entries : List (Value × Value)}
    (each : ∀ entry ∈ entries, ∀ depth other,
      Condenses (encodeAt spacing depth entry.2) (encodeAt .compact other entry.2)) (depth other : Nat) :
    CondensesAll (encodeEntries spacing depth entries) (encodeEntries .compact other entries) := by
  induction entries with
  | nil =>
      rintro _ ⟨⟩
      exact ⟨[], rfl, .nil⟩
  | cons entry entries ih =>
      intro texts written
      rw [encodeEntries] at written
      obtain ⟨name, named, written⟩ := exists_of_bind_eq_ok written
      obtain ⟨text, first, written⟩ := exists_of_bind_eq_ok written
      obtain ⟨texts, others, same⟩ := exists_of_bind_eq_ok written
      obtain rfl := Except.ok.inj same
      have later := ih fun next inside => each next (List.mem_cons_of_mem entry inside)
      obtain ⟨tokens, short, squeezes⟩ := each entry List.mem_cons_self depth other text first
      obtain ⟨more, shorts, rest⟩ := later texts others
      refine ⟨_, ?_, .cons (squeezes_member spacing name squeezes) rest⟩
      rw [encodeEntries, bind_of_eq_ok (keyText_compact named), bind_of_eq_ok short, bind_of_eq_ok shorts]
      rfl

theorem encodeAt_of_single {value : Value} (single : ¬value.IsCollection) (depth other : Nat) :
    encodeAt spacing depth value = encodeAt .compact other value := by
  cases value with
  | list _ | tuple _ | map _ => exact absurd trivial single
  | _ => rfl

theorem basic_squeezes : Basic fun text => Squeezes text text where
  null := Json.squeezes_of_all (by decide)
  bool value := by cases value <;> exact Json.squeezes_of_all (by decide)
  integer _ := squeezes_of_isPlain fun _ => Numeral.isPlain_of_mem_integerText
  number := squeezes_render
  quoted := Json.squeezes_quote

theorem condenses_encodeAt (depth other : Nat) (value : Value) :
    Condenses (encodeAt spacing depth value) (encodeAt .compact other value) := by
  induction value using Value.inner_induction generalizing depth other with
  | list items ih | tuple items ih =>
      have each := condenses_encodeItems ih (depth + 1) (other + 1)
      rw [encodeAt, encodeAt]
      exact condenses_bracket (by decide) (by decide) each other
  | map entries ih =>
      have each := condenses_encodeEntries ih (depth + 1) (other + 1)
      rw [encodeAt, encodeAt]
      exact condenses_bracket (by decide) (by decide) each other
  | single value single =>
      intro text written
      rw [encodeAt_of_single single depth other] at written
      exact ⟨text, written, basic_squeezes.of_encodeAt single written⟩

/-- A value of the kinds that literals have syntax for is read back from its literal, whatever the spacing. Its
compact literal stands on one line, and every other one differs from it in blanks outside quoted texts only. -/
theorem write_reads_back {value : Value} (json : value.IsJson) (spacing : Spacing) :
    ∃ text compact, write spacing value = .ok text ∧ write .compact value = .ok compact ∧
      Json.read text = .ok value ∧ '\n' ∉ compact.toList ∧ '\r' ∉ compact.toList ∧
      squeeze false text.toList = compact.toList := by
  obtain ⟨text, written, spells⟩ := Json.written_of_isJson spacing json 0
  obtain ⟨compact, short, squeezes⟩ := condenses_encodeAt 0 0 value text written
  have visible := visible_encodeAt 0 value compact short
  refine ⟨_, _, write_eq_ok written, write_eq_ok short, spells.read_eq, ?_, ?_, ?_⟩
  · rw [String.toList_ofList]
    exact visible.lineFeed_not_mem
  · rw [String.toList_ofList]
    exact fun member => absurd (visible _ member) (by decide)
  · rw [String.toList_ofList, String.toList_ofList]
    exact squeezes.squeeze_eq

def spaced : Keyed Value := [
  ("a \"\n", .list []),
  ("b", .list [.text ", : \\", .float (.finite ⟨false, 0x14000000000000, -51, by decide⟩), .bool true])]

/-- The indented literal of the map is read back, and loses the blanks outside its texts only. -/
theorem write_reads_back_spaced :
    (Value.ofKeyed spaced).IsJson ∧ ∃ text, write (.indented 1) (.ofKeyed spaced) = .ok text ∧
      Json.read text = .ok (.ofKeyed spaced) ∧
      squeeze false text.toList = "\x7b\"a \\\"\\n\":[],\"b\":[\", : \\\\\",2.5,true]\x7d".toList := by
  have items : ∀ item ∈ [Value.text ", : \\",
      .float (.finite ⟨false, 0x14000000000000, -51, by decide⟩), .bool true], item.IsJson := by
    intro item member
    simp only [List.mem_cons, List.not_mem_nil, or_false] at member
    rcases member with rfl | rfl | rfl
    · exact .text _
    · exact .float (Json.readsBack _)
    · exact .bool true
  have entries : ∀ entry ∈ spaced, entry.2.IsJson := by
    intro entry member
    simp only [spaced, List.mem_cons, List.not_mem_nil, or_false] at member
    rcases member with rfl | rfl
    · exact .list (List.forall_mem_nil _)
    · exact .list items
  have json : (Value.ofKeyed spaced).IsJson := .map (by decide) entries
  have short : write .compact (.ofKeyed spaced) =
      .ok "\x7b\"a \\\"\\n\":[],\"b\":[\", : \\\\\",2.5,true]\x7d" := by decide +kernel
  obtain ⟨text, compact, written, condensed, read, _, _, squeezed⟩ := write_reads_back json (.indented 1)
  obtain rfl := Except.ok.inj (short.symm.trans condensed)
  exact ⟨json, text, written, read, squeezed⟩

end Literal

end TreeExport
