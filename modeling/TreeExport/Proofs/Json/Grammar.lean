import TreeExport.Keyed
import TreeExport.Proofs.Json.Float
import TreeExport.Proofs.Json.Quoted
import TreeExport.Proofs.Outcome
import TreeExport.Text.Split

/-!
Which texts spell which values, with any blanks between the tokens. The reader takes from a spelling exactly
its value, and leaves whatever follows; so a text spells at most one value.
-/

namespace TreeExport

namespace Json

open Literal (quote)

def Blank (text : List Char) : Prop :=
  ∀ c ∈ text, isSpace c

def enclose (opening closing : Char) (inner outer : List Char) (pieces : List (List Char)) :
    List Char :=
  match pieces with
  | [] => [opening, closing]
  | pieces => opening :: (inner ++ ((',' :: inner).intercalate pieces ++ (outer ++ [closing])))

def member (gap : List Char) (name : String) (text : List Char) : List Char :=
  quote name.toList ++ ':' :: (gap ++ text)

inductive Spells : List Char → Value → Prop
  | null : Spells "null".toList .null
  | bool (value : Bool) : Spells (if value then "true" else "false").toList (.bool value)
  | int {n : Int} : (Nat.toDigits 10 n.natAbs).length ≤ digitLimit →
      Spells (Value.integerText n) (.int n)
  | float {x : Binary64.Finite} : ReadsBack x →
      Spells (Binary64.render .literal (.finite x)) (.float (.finite x))
  | text (value : String) : Spells (quote value.toList) (.text value)
  | list {inner outer : List Char} (items : List (List Char × Value)) :
      Blank inner → Blank outer → (∀ item ∈ items, Spells item.1 item.2) →
      Spells (enclose '[' ']' inner outer (items.map Prod.fst)) (.list (items.map Prod.snd))
  | map {inner outer gap : List Char} (entries : List (String × List Char × Value)) :
      Blank inner → Blank outer → Blank gap → (entries.map Prod.fst).Nodup →
      (∀ entry ∈ entries, Spells entry.2.1 entry.2.2) →
      Spells (enclose '\x7b' '\x7d' inner outer (entries.map fun entry => member gap entry.1 entry.2.1))
        (.ofKeyed (entries.map fun entry => (entry.1, entry.2.2)))

def Opens (text : List Char) : Prop :=
  ∃ c others, text = c :: others ∧ (isDigit c ∨ c ∈ ['-', 'n', 't', 'f', '"', '[', '\x7b'])

/-- Whether a text is read as a value whatever follows it. -/
structure Reads (text : List Char) (value : Value) : Prop where
  opens : Opens text
  read : ∀ fuel rest, text.length ≤ fuel → Ends rest →
    readValue fuel (text ++ rest) = .ok (value, rest)

theorem Opens.exists_eq_cons {text : List Char} (opens : Opens text) :
    ∃ c others, text = c :: others ∧ isSpace c = false ∧ c ≠ ']' ∧ c ≠ '\x7d' ∧ c ≠ '\uFEFF' := by
  obtain ⟨c, others, split, digit | mark⟩ := opens
  · have other : ∀ letter, isDigit letter = false → c ≠ letter := by
      rintro letter plain rfl
      simp [digit] at plain
    refine ⟨c, others, split, ?_, other _ (by decide), other _ (by decide), other _ (by decide)⟩
    simp [isSpace, other ' ' (by decide), other '\t' (by decide), other '\n' (by decide),
      other '\r' (by decide)]
  · refine ⟨c, others, split, ?_⟩
    simp only [List.mem_cons, List.not_mem_nil, or_false] at mark
    rcases mark with rfl | rfl | rfl | rfl | rfl | rfl | rfl <;> decide

theorem skipSpace_cons {c : Char} (rest : List Char) (solid : isSpace c = false) :
    skipSpace (c :: rest) = c :: rest := by
  rw [skipSpace, List.dropWhile_cons, solid]
  rfl

theorem skipSpace_append {blank : List Char} (isBlank : Blank blank) (rest : List Char) :
    skipSpace (blank ++ rest) = skipSpace rest :=
  List.dropWhile_append_of_pos isBlank

theorem Opens.append {text : List Char} (opens : Opens text) (rest : List Char) :
    Opens (text ++ rest) := by
  obtain ⟨c, others, rfl, start⟩ := opens
  exact ⟨c, others ++ rest, rfl, start⟩

theorem Opens.intercalate {piece : List Char} (opens : Opens piece) (separator : List Char)
    (pieces : List (List Char)) : Opens (separator.intercalate (piece :: pieces)) := by
  rw [Text.intercalate_cons_eq_append]
  exact opens.append _

theorem Opens.skipSpace_eq {text : List Char} (opens : Opens text) (rest : List Char) :
    skipSpace (text ++ rest) = text ++ rest := by
  obtain ⟨c, others, rfl, solid, _⟩ := opens.exists_eq_cons
  exact skipSpace_cons (others ++ rest) solid

theorem ends_append {blank rest : List Char} (isBlank : Blank blank) (ends : Ends rest) :
    Ends (blank ++ rest) := by
  cases blank with
  | nil => exact ends
  | cons c others =>
      have space := isBlank c List.mem_cons_self
      simp only [isSpace, Bool.or_eq_true, decide_eq_true_eq] at space
      rcases space with ((rfl | rfl) | rfl) | rfl <;>
        exact ends_cons _ (by decide) (by decide) (by decide) (by decide)

theorem skipSpace_closed {blank : List Char} (isBlank : Blank blank) {c : Char} (solid : isSpace c = false)
    (rest : List Char) : skipSpace (blank ++ c :: rest) = c :: rest := by
  rw [skipSpace_append isBlank, skipSpace_cons rest solid]

/-- What a reader of pieces does at one of them: behind it stands the closing bracket, or a comma and then
pieces that it reads with less fuel. -/
structure ReadsPiece {α : Type} (closing : Char) (read : Nat → List Char → Except Failure (List α × List Char))
    (piece : List Char) (result : α) : Prop where
  opens : Opens piece
  last : ∀ {fuel : Nat} {behind rest : List Char}, piece.length ≤ fuel → Ends behind →
    skipSpace behind = closing :: rest → read (fuel + 1) (piece ++ behind) = .ok ([result], rest)
  next : ∀ {fuel : Nat} {behind more rest : List Char} {results : List α}, piece.length ≤ fuel →
    Ends behind → skipSpace behind = ',' :: more → read fuel (skipSpace more) = .ok (results, rest) →
    read (fuel + 1) (piece ++ behind) = .ok (result :: results, rest)

section Pieces

variable {inner outer gap : List Char}

theorem read_intercalate {α : Type} {closing : Char} (bracket : closing ∈ [']', '\x7d'])
    {read : Nat → List Char → Except Failure (List α × List Char)} (isInner : Blank inner)
    (isOuter : Blank outer) {pieces : List (List Char × α)} (filled : pieces ≠ [])
    (each : ∀ piece ∈ pieces, ReadsPiece closing read piece.1 piece.2) (rest : List Char) (fuel : Nat)
    (enough : ((',' :: inner).intercalate (pieces.map Prod.fst)).length < fuel) :
    read fuel ((',' :: inner).intercalate (pieces.map Prod.fst) ++ (outer ++ closing :: rest)) =
      .ok (pieces.map Prod.snd, rest) := by
  -- One unit of fuel goes with each piece, and the comma behind it pays for that unit.
  induction pieces generalizing fuel with
  | nil => exact absurd rfl filled
  | cons piece pieces ih =>
      obtain ⟨fuel, rfl⟩ : ∃ less, fuel = less + 1 := ⟨fuel - 1, by omega⟩
      have here := each piece List.mem_cons_self
      cases pieces with
      | nil =>
          obtain ⟨solid, ends⟩ : isSpace closing = false ∧ Ends (closing :: rest) := by
            simp only [List.mem_cons, List.not_mem_nil, or_false] at bracket
            rcases bracket with rfl | rfl <;>
              exact ⟨by decide, ends_cons rest (by decide) (by decide) (by decide) (by decide)⟩
          rw [List.map_singleton, List.intercalate_singleton] at enough ⊢
          exact here.last (by omega) (ends_append isOuter ends) (skipSpace_closed isOuter solid rest)
      | cons next others =>
          have later := fun other inside => each other (List.mem_cons_of_mem piece inside)
          simp only [List.map_cons] at ih enough ⊢
          rw [List.intercalate_cons_cons] at enough ⊢
          have opens := (later next List.mem_cons_self).opens.intercalate (',' :: inner)
            (others.map Prod.fst)
          generalize (',' :: inner).intercalate (next.1 :: others.map Prod.fst) = tail at *
          simp only [List.length_append, List.length_cons] at enough
          have comma : Ends (',' :: (inner ++ (tail ++ (outer ++ closing :: rest)))) :=
            ends_cons _ (by decide) (by decide) (by decide) (by decide)
          have behind := ih (by simp) later fuel (by omega)
          rw [← opens.skipSpace_eq, ← skipSpace_append isInner] at behind
          simp only [List.append_assoc, List.cons_append]
          exact here.next (by omega) comma (skipSpace_cons _ (by decide)) behind

theorem Reads.item {text : List Char} {value : Value} (reads : Reads text value) :
    ReadsPiece ']' readItems text value where
  opens := reads.opens
  last := by
    intro fuel behind rest enough ends closing
    rw [readItems, bind_of_eq_ok (reads.read fuel behind enough ends)]
    simp only [closing]
    rfl
  next := by
    intro fuel behind more rest values enough ends comma others
    rw [readItems, bind_of_eq_ok (reads.read fuel behind enough ends)]
    simp only [comma, others]
    rfl

theorem opens_member (gap : List Char) (name : String) (text : List Char) :
    Opens (member gap name text) :=
  ⟨'"', _, rfl, Or.inr (by decide)⟩

def afterMember (fuel : Nat) (name : String) (result : Value × List Char) :
    Except Failure (List (Value × Value) × List Char) :=
  match skipSpace result.2 with
  | '\x7d' :: rest => return ([(.text name, result.1)], rest)
  | ',' :: rest => do
    let (entries, rest) ← readMembers fuel (skipSpace rest)
    return ((.text name, result.1) :: entries, rest)
  | rest => throw (.malformed .comma rest.length)

theorem readMembers_member (isGap : Blank gap) (name : String) {text : List Char} (opens : Opens text)
    (behind : List Char) (fuel : Nat) :
    readMembers (fuel + 1) (member gap name text ++ behind) =
      readValue fuel (text ++ behind) >>= afterMember fuel name := by
  have solid : isSpace ':' = false := by decide
  have text_eq : member gap name text ++ behind = '"' :: (name.toList.flatMap Literal.escapeChar ++
      '"' :: (':' :: (gap ++ (text ++ behind)))) := by
    simp only [member, quote, List.append_assoc, List.cons_append, List.nil_append]
  rw [text_eq, readMembers, readQuoted_quote, bind_of_eq_ok rfl]
  simp only [skipSpace_cons _ solid, skipSpace_append isGap, opens.skipSpace_eq]
  rw [List.reverse_nil, List.nil_append, String.ofList_toList]
  rfl

theorem length_le_of_member {gap text : List Char} {name : String} {fuel : Nat}
    (enough : (member gap name text).length ≤ fuel) : text.length ≤ fuel := by
  simp only [member, List.length_append, List.length_cons] at enough
  omega

theorem Reads.member (isGap : Blank gap) (name : String) {text : List Char} {value : Value}
    (reads : Reads text value) :
    ReadsPiece '\x7d' readMembers (member gap name text) (.text name, value) where
  opens := opens_member gap name text
  last := by
    intro fuel behind rest enough ends closing
    rw [readMembers_member isGap name reads.opens,
      bind_of_eq_ok (reads.read fuel behind (length_le_of_member enough) ends), afterMember]
    simp only [closing]
    rfl
  next := by
    intro fuel behind more rest entries enough ends comma others
    rw [readMembers_member isGap name reads.opens,
      bind_of_eq_ok (reads.read fuel behind (length_le_of_member enough) ends), afterMember]
    simp only [comma, others]
    rfl

end Pieces

def textEntries (entries : Keyed Value) : List (Value × Value) :=
  entries.map fun (key, value) => (.text key, value)

theorem putEntry_of_not_mem {entries : Keyed Value} {name : String} (value : Value)
    (fresh : name ∉ entries.keys) :
    Value.putEntry (textEntries entries) (.text name) value = textEntries (entries ++ [(name, value)]) := by
  induction entries with
  | nil => rfl
  | cons entry entries ih =>
      simp only [Keyed.keys, List.map_cons, List.mem_cons, not_or] at fresh
      have other : Value.sameKey (.text entry.1) (.text name) = false := by
        rw [Value.sameKey, beq_eq_false_iff_ne]
        exact Ne.symm fresh.1
      have behind := ih fresh.2
      simp only [textEntries, List.map_cons, Value.putEntry, other, List.cons_append] at behind ⊢
      rw [behind]
      rfl

theorem foldl_putEntry (written waiting : Keyed Value) (distinct : (written ++ waiting).keys.Nodup) :
    (textEntries waiting).foldl (fun map entry => Value.putEntry map entry.1 entry.2)
      (textEntries written) = textEntries (written ++ waiting) := by
  induction waiting generalizing written with
  | nil => rw [List.append_nil]; rfl
  | cons entry waiting ih =>
      have fresh : entry.1 ∉ written.keys := by
        rw [Keyed.keys, List.map_append, List.nodup_append] at distinct
        intro before
        exact distinct.2.2 entry.1 before entry.1 (by simp) rfl
      have moved : written ++ entry :: waiting = (written ++ [entry]) ++ waiting := by simp
      rw [moved] at distinct ⊢
      rw [← ih (written ++ [entry]) distinct, ← putEntry_of_not_mem entry.2 fresh]
      rfl

theorem ofEntries_textEntries {entries : Keyed Value} (distinct : entries.keys.Nodup) :
    Value.ofEntries (textEntries entries) = .ofKeyed entries := by
  have folded := foldl_putEntry [] entries distinct
  rw [Value.ofEntries]
  exact congrArg Value.map folded

theorem readValue_scalar {c : Char} (plain : c ∉ ['"', '[', '\x7b']) (rest : List Char) (fuel : Nat) :
    readValue (fuel + 1) (c :: rest) = readScalar (c :: rest) := by
  simp only [List.mem_cons, List.not_mem_nil, or_false, not_or] at plain
  rw [readValue, if_neg plain.1, if_neg plain.2.1, if_neg plain.2.2]

def OpensScalar (text : List Char) : Prop :=
  ∃ c others, text = c :: others ∧ (isDigit c ∨ c ∈ ['-', 'n', 't', 'f'])

theorem OpensScalar.opens {text : List Char} (scalar : OpensScalar text) : Opens text := by
  obtain ⟨c, others, split, start⟩ := scalar
  exact ⟨c, others, split, start.imp id (List.mem_append_left ['"', '[', '\x7b'])⟩

theorem OpensScalar.readValue_eq {text : List Char} (scalar : OpensScalar text) {fuel : Nat}
    (enough : text.length ≤ fuel) (rest : List Char) :
    readValue fuel (text ++ rest) = readScalar (text ++ rest) := by
  obtain ⟨c, others, rfl, start⟩ := scalar
  have plain : c ∉ ['"', '[', '\x7b'] := by
    intro bracket
    simp only [List.mem_cons, List.not_mem_nil, or_false] at bracket
    rcases bracket with rfl | rfl | rfl <;> exact absurd start (by decide)
  obtain ⟨fuel, rfl⟩ : ∃ less, fuel = less + 1 := ⟨fuel - 1, by simp at enough; omega⟩
  rw [List.cons_append, readValue_scalar plain]

theorem reads_of_readScalar {text : List Char} {value : Value} (scalar : OpensScalar text)
    (read : ∀ rest, Ends rest → readScalar (text ++ rest) = .ok (value, rest)) :
    Reads text value := by
  refine ⟨scalar.opens, ?_⟩
  intro fuel rest enough ends
  rw [scalar.readValue_eq enough, read rest ends]

theorem opensScalar_signed {text : List Char} {spelling : Spelling} {negative : Bool} {after : List Char}
    (split : text = (if negative then ['-'] else []) ++ (spelling.whole ++ after)) : OpensScalar text := by
  obtain ⟨first, others, start⟩ := spelling.exists_whole_eq_cons
  cases negative with
  | false =>
      have digit : isDigit first := spelling.digitsWhole first (by rw [start]; exact List.mem_cons_self)
      rw [start] at split
      exact ⟨first, others ++ after, split, Or.inl digit⟩
  | true => exact ⟨'-', spelling.whole ++ after, split, Or.inr (by decide)⟩

theorem reads_render (layout : Binary64.Layout) (x : Binary64.Finite) :
    Reads (Binary64.render layout (.finite x)) (.float (.finite x)) := by
  obtain ⟨spelling, written, _, _⟩ := Binary64.exists_spelling_renderMagnitude layout x
  have split : Binary64.render layout (.finite x) = (if x.negative then ['-'] else []) ++
      (spelling.whole ++ (spelling.fractionText ++ spelling.exponentText)) := by
    rw [Binary64.render, written, Spelling.text]
  exact reads_of_readScalar (opensScalar_signed split) fun rest ends => readScalar_render layout x ends

theorem opensScalar_integerText (n : Int) : OpensScalar (Value.integerText n) := by
  have split : Value.integerText n = (if decide (n < 0) then ['-'] else []) ++
      ((Spelling.ofNat n.natAbs).whole ++ []) := by
    simp [Value.integerText, Spelling.ofNat]
  exact opensScalar_signed split

theorem reads_integerText {n : Int} (short : (Nat.toDigits 10 n.natAbs).length ≤ digitLimit) :
    Reads (Value.integerText n) (.int n) :=
  reads_of_readScalar (opensScalar_integerText n) fun _ ends => readScalar_integerText ends short

theorem reads_null : Reads "null".toList .null := by
  refine reads_of_readScalar ⟨'n', ['u', 'l', 'l'], by decide, Or.inr (by decide)⟩ ?_
  intro rest _
  simp [readScalar, names]

theorem reads_bool (value : Bool) : Reads (if value then "true" else "false").toList (.bool value) := by
  cases value with
  | true =>
      refine reads_of_readScalar ⟨'t', ['r', 'u', 'e'], by decide, Or.inr (by decide)⟩ ?_
      intro rest _
      simp [readScalar, names]
  | false =>
      refine reads_of_readScalar ⟨'f', ['a', 'l', 's', 'e'], by decide, Or.inr (by decide)⟩ ?_
      intro rest _
      simp [readScalar, names]

theorem reads_quote (value : String) : Reads (quote value.toList) (.text value) := by
  refine ⟨⟨'"', _, rfl, Or.inr (by decide)⟩, ?_⟩
  intro fuel rest enough _
  have text_eq : quote value.toList ++ rest =
      '"' :: (value.toList.flatMap Literal.escapeChar ++ '"' :: rest) := by
    simp only [quote, List.append_assoc, List.cons_append, List.nil_append]
  obtain ⟨fuel, rfl⟩ : ∃ less, fuel = less + 1 := ⟨fuel - 1, by simp [quote] at enough; omega⟩
  rw [text_eq, readValue, if_pos rfl, readQuoted_quote, bind_of_eq_ok rfl, List.reverse_nil,
    List.nil_append]
  simp only [String.ofList_toList]
  rfl

section Brackets

variable {fuel : Nat} {inner outer gap text behind rest : List Char}

theorem readValue_items {values : List Value} (isInner : Blank inner) (opens : Opens text)
    (items : readItems fuel (text ++ behind) = .ok (values, rest)) :
    readValue (fuel + 1) ('[' :: (inner ++ (text ++ behind))) = .ok (.list values, rest) := by
  obtain ⟨c, others, rfl, solid, filled, _⟩ := opens.exists_eq_cons
  rw [readValue, if_neg (by decide), if_pos rfl, skipSpace_append isInner, List.cons_append,
    skipSpace_cons _ solid]
  split
  · rename_i closed
    exact absurd (List.cons.inj closed).1 filled
  · rw [← List.cons_append, bind_of_eq_ok items]
    rfl

theorem readValue_members (isInner : Blank inner) (opens : Opens text) (behind : List Char) (fuel : Nat) :
    readValue (fuel + 1) ('\x7b' :: (inner ++ (text ++ behind))) = (do
      let (entries, rest) ← readMembers fuel (text ++ behind)
      return (Value.ofEntries entries, rest)) := by
  obtain ⟨c, others, rfl, solid, _, filled, _⟩ := opens.exists_eq_cons
  rw [readValue, if_neg (by decide), if_neg (by decide), if_pos rfl, skipSpace_append isInner,
    List.cons_append, skipSpace_cons _ solid]
  split
  · rename_i closed
    exact absurd (List.cons.inj closed).1 filled
  · rw [← List.cons_append]

theorem reads_enclose {α : Type} {opening closing : Char} {value : List α → Value}
    {read : Nat → List Char → Except Failure (List α × List Char)} (start : opening ∈ ['[', '\x7b'])
    (stop : closing ∈ [']', '\x7d']) (isInner : Blank inner) (isOuter : Blank outer)
    {pieces : List (List Char × α)} (each : ∀ piece ∈ pieces, ReadsPiece closing read piece.1 piece.2)
    (empty : ∀ fuel rest, readValue (fuel + 1) (opening :: closing :: rest) = .ok (value [], rest))
    (filled : ∀ {fuel : Nat} {text behind rest : List Char} {results : List α}, Opens text →
      read fuel (text ++ behind) = .ok (results, rest) →
      readValue (fuel + 1) (opening :: (inner ++ (text ++ behind))) = .ok (value results, rest)) :
    Reads (enclose opening closing inner outer (pieces.map Prod.fst)) (value (pieces.map Prod.snd)) := by
  have opens : ∀ others, Opens (opening :: others) := fun others =>
    ⟨opening, others, rfl, Or.inr (List.mem_append_right ['-', 'n', 't', 'f', '"'] start)⟩
  cases pieces with
  | nil =>
      refine ⟨opens _, ?_⟩
      intro fuel rest enough _
      obtain ⟨fuel, rfl⟩ : ∃ less, fuel = less + 1 := ⟨fuel - 1, by simp [enclose] at enough; omega⟩
      exact empty fuel rest
  | cons piece pieces =>
      refine ⟨opens _, ?_⟩
      intro fuel rest enough _
      have first := (each piece List.mem_cons_self).opens.intercalate (',' :: inner)
        (pieces.map Prod.fst)
      have inside := read_intercalate stop isInner isOuter (List.cons_ne_nil piece pieces) each rest
      simp only [List.map_cons, enclose, List.length_cons, List.length_append] at enough inside ⊢
      obtain ⟨fuel, rfl⟩ : ∃ less, fuel = less + 1 := ⟨fuel - 1, by omega⟩
      simp only [List.cons_append, List.append_assoc, List.nil_append]
      exact filled first (inside fuel (by omega))

theorem reads_items (isInner : Blank inner) (isOuter : Blank outer)
    {items : List (List Char × Value)} (each : ∀ item ∈ items, Reads item.1 item.2) :
    Reads (enclose '[' ']' inner outer (items.map Prod.fst)) (.list (items.map Prod.snd)) :=
  reads_enclose (by decide) (by decide) isInner isOuter (fun item inside => (each item inside).item)
    (fun _ _ => rfl) (readValue_items isInner)

theorem reads_members (isInner : Blank inner) (isOuter : Blank outer) (isGap : Blank gap)
    {entries : List (String × List Char × Value)} (distinct : (entries.map Prod.fst).Nodup)
    (each : ∀ entry ∈ entries, Reads entry.2.1 entry.2.2) :
    Reads (enclose '\x7b' '\x7d' inner outer (entries.map fun entry => member gap entry.1 entry.2.1))
      (.ofKeyed (entries.map fun entry => (entry.1, entry.2.2))) := by
  have keyed : (Keyed.keys (entries.map fun entry => (entry.1, entry.2.2))).Nodup := by
    rw [Keyed.keys, List.map_map]
    exact distinct
  have pieces : ∀ piece ∈ entries.map fun entry =>
      (member gap entry.1 entry.2.1, Value.text entry.1, entry.2.2),
      ReadsPiece '\x7d' readMembers piece.1 piece.2 := by
    intro piece inside
    obtain ⟨entry, listed, rfl⟩ := List.mem_map.mp inside
    exact (each entry listed).member isGap entry.1
  have filled : ∀ {fuel : Nat} {text behind rest : List Char} {results : List (Value × Value)},
      Opens text → readMembers fuel (text ++ behind) = .ok (results, rest) →
      readValue (fuel + 1) ('\x7b' :: (inner ++ (text ++ behind))) = .ok (Value.ofEntries results, rest) := by
    intro fuel text behind rest results opens members
    rw [readValue_members isInner opens, bind_of_eq_ok members]
    rfl
  have reads := reads_enclose (by decide) (by decide) isInner isOuter pieces (fun _ _ => rfl) filled
  rw [List.map_map, List.map_map] at reads
  rw [← ofEntries_textEntries keyed, textEntries, List.map_map]
  exact reads

end Brackets

/-- A text is read as what it spells. -/
theorem Spells.reads {text : List Char} {value : Value} (spells : Spells text value) :
    Reads text value := by
  induction spells with
  | null => exact reads_null
  | bool value => exact reads_bool value
  | int short => exact reads_integerText short
  | float _ => exact reads_render .literal _
  | text value => exact reads_quote value
  | list items isInner isOuter _ ih => exact reads_items isInner isOuter ih
  | map entries isInner isOuter isGap distinct _ ih =>
      exact reads_members isInner isOuter isGap distinct ih

def atEnd (result : Value × List Char) : Except Failure Value :=
  match skipSpace result.2 with
  | [] => return result.1
  | rest => throw (.malformed .extraData rest.length)

theorem Opens.readAll_eq {text : List Char} (opens : Opens text) :
    readAll text = readValue (2 * text.length + 2) text >>= atEnd := by
  have front := opens.skipSpace_eq []
  rw [List.append_nil] at front
  obtain ⟨c, others, split, _, _, _, unmarked⟩ := opens.exists_eq_cons
  unfold readAll
  split
  · exact absurd (List.cons.inj split).1.symm unmarked
  · rw [front]
    rfl

theorem Reads.read_eq {text : List Char} {value : Value} (reads : Reads text value) :
    Json.read (String.ofList text) = .ok value := by
  have whole := reads.read (2 * text.length + 2) [] (by omega) ends_nil
  rw [List.append_nil] at whole
  have all : readAll text = .ok value := by
    rw [reads.opens.readAll_eq, bind_of_eq_ok whole]
    rfl
  rw [Json.read, String.toList_ofList, all]

theorem Spells.read_eq {text : List Char} {value : Value} (spells : Spells text value) :
    Json.read (String.ofList text) = .ok value :=
  spells.reads.read_eq

end Json

end TreeExport
