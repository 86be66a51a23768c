import TreeExport.Text.Quoted

/-!
Bytes as text. UTF-8 is the encoding of files; the documents of a server may also be in UTF-16 or
UTF-32, which their first bytes tell apart. An error names the bytes that could not be read.
-/

namespace TreeExport.Text

structure DecodeError where
  encoding : String
  start : Nat
  stop : Nat
  firstByte : UInt8
  reason : String
  deriving DecidableEq, Repr

def DecodeError.message (error : DecodeError) : String :=
  let place :=
    if error.stop = error.start + 1 then
      "byte 0x" ++ String.ofList (hexPadded 2 error.firstByte.toNat) ++
        s!" in position {error.start}"
    else s!"bytes in position {error.start}-{error.stop - 1}"
  s!"'{error.encoding}' codec can't decode {place}: {error.reason}"

inductive Utf8Fault where
  | start
  | continuation (read : Nat)
  | ending
  deriving DecidableEq, Repr

def isContinuation (byte : UInt8) : Bool :=
  0x80 ≤ byte && byte < 0xC0

def leadByte? (byte : UInt8) : Option (Nat × UInt8 × UInt8) :=
  if byte < 0x80 then some (1, 0, 0)
  else if byte < 0xC2 then none
  else if byte < 0xE0 then some (2, 0x80, 0xBF)
  else if byte = 0xE0 then some (3, 0xA0, 0xBF)
  else if byte = 0xED then some (3, 0x80, 0x9F)
  else if byte < 0xF0 then some (3, 0x80, 0xBF)
  else if byte = 0xF0 then some (4, 0x90, 0xBF)
  else if byte < 0xF4 then some (4, 0x80, 0xBF)
  else if byte = 0xF4 then some (4, 0x80, 0x8F)
  else none

def characterLength (lead : UInt8) (rest : List UInt8) : Except Utf8Fault Nat :=
  match leadByte? lead with
  | none => .error .start
  | some (1, _, _) => .ok 1
  | some (length, low, high) =>
    match rest with
    | [] => .error .ending
    | second :: rest =>
      if second < low || high < second then .error (.continuation 1)
      else
        let tail := rest.take (length - 2)
        let good := tail.takeWhile isContinuation
        if good.length < tail.length then .error (.continuation (good.length + 2))
        else if tail.length < length - 2 then .error .ending
        else .ok length

def firstFault? (fuel position : Nat) (bytes : List UInt8) : Option (Nat × Utf8Fault × UInt8) :=
  match fuel, bytes with
  | 0, _ => none
  | _, [] => none
  | fuel + 1, lead :: rest =>
    match characterLength lead rest with
    | .ok length => firstFault? fuel (position + length) (rest.drop (length - 1))
    | .error fault => some (position, fault, lead)

def describeFault (bytes : List UInt8) : DecodeError :=
  match firstFault? bytes.length 0 bytes with
  | some (position, .start, byte) =>
    ⟨"utf-8", position, position + 1, byte, "invalid start byte"⟩
  | some (position, .continuation read, byte) =>
    ⟨"utf-8", position, position + read, byte, "invalid continuation byte"⟩
  | some (position, .ending, byte) =>
    ⟨"utf-8", position, bytes.length, byte, "unexpected end of data"⟩
  | none => ⟨"utf-8", 0, bytes.length, 0, "unexpected end of data"⟩

def decodeUtf8 (bytes : ByteArray) : Except DecodeError String :=
  match String.fromUTF8? bytes with
  | some text => .ok text
  | none => .error (describeFault bytes.toList)

def unit16 (littleEndian : Bool) (a b : UInt8) : Nat :=
  if littleEndian then b.toNat * 0x100 + a.toNat else a.toNat * 0x100 + b.toNat

/-- The character of a code point. A surrogate without its partner stands for none. -/
def charOfCode (code : Nat) : Char :=
  if code.isValidChar then Char.ofNat code else '\ufffd'

def joinSurrogates (high low : Nat) : Char :=
  Char.ofNat (0x10000 + (high - 0xD800) * 0x400 + (low - 0xDC00))

def decodeUtf16 (littleEndian : Bool) (position : Nat) :
    List UInt8 → Except DecodeError (List Char)
  | [] => .ok []
  | [byte] =>
    let encoding := if littleEndian then "utf-16-le" else "utf-16-be"
    .error ⟨encoding, position, position + 1, byte, "truncated data"⟩
  | a :: b :: rest =>
    let unit := unit16 littleEndian a b
    match rest with
    | c :: d :: rest' =>
      let low := unit16 littleEndian c d
      if 0xD800 ≤ unit ∧ unit < 0xDC00 ∧ 0xDC00 ≤ low ∧ low < 0xE000 then
        (decodeUtf16 littleEndian (position + 4) rest').map (joinSurrogates unit low :: ·)
      else (decodeUtf16 littleEndian (position + 2) (c :: d :: rest')).map (charOfCode unit :: ·)
    | rest => (decodeUtf16 littleEndian (position + 2) rest).map (charOfCode unit :: ·)

def decodeUtf32 (littleEndian : Bool) (position : Nat) :
    List UInt8 → Except DecodeError (List Char)
  | [] => .ok []
  | a :: b :: c :: d :: rest =>
    let high := if littleEndian then unit16 true c d else unit16 false a b
    let low := if littleEndian then unit16 true a b else unit16 false c d
    let code := high * 0x10000 + low
    if 0x110000 ≤ code then
      let encoding := if littleEndian then "utf-32-le" else "utf-32-be"
      .error ⟨encoding, position, position + 4, a, "code point not in range(0x110000)"⟩
    else (decodeUtf32 littleEndian (position + 4) rest).map (charOfCode code :: ·)
  | bytes =>
    let encoding := if littleEndian then "utf-32-le" else "utf-32-be"
    .error ⟨encoding, position, position + bytes.length, bytes.headD 0, "truncated data"⟩

/-- The text of a document whose encoding its first bytes tell: a byte order mark, or the zero bytes
that the basic characters have in wider encodings. -/
def decodeDocument (bytes : List UInt8) : Except DecodeError String :=
  let utf16 (littleEndian : Bool) (skip : Nat) : Except DecodeError String :=
    (decodeUtf16 littleEndian skip (bytes.drop skip)).map String.ofList
  let utf32 (littleEndian : Bool) (skip : Nat) : Except DecodeError String :=
    (decodeUtf32 littleEndian skip (bytes.drop skip)).map String.ofList
  let utf8 (bytes : List UInt8) : Except DecodeError String := decodeUtf8 ⟨bytes.toArray⟩
  match bytes with
  | 0x00 :: 0x00 :: 0xFE :: 0xFF :: _ => utf32 false 4
  | 0xFF :: 0xFE :: 0x00 :: 0x00 :: _ => utf32 true 4
  | 0xFE :: 0xFF :: _ => utf16 false 2
  | 0xFF :: 0xFE :: _ => utf16 true 2
  | 0xEF :: 0xBB :: 0xBF :: rest => utf8 rest
  | [0x00, _] => utf16 false 0
  | [_, 0x00] => utf16 true 0
  | a :: b :: c :: d :: _ =>
    if a = 0 then (if b = 0 then utf32 false 0 else utf16 false 0)
    else if b = 0 then (if c = 0 ∧ d = 0 then utf32 true 0 else utf16 true 0)
    else utf8 bytes
  | _ => utf8 bytes

def universalNewlines : List Char → List Char
  | [] => []
  | '\r' :: '\n' :: rest => '\n' :: universalNewlines rest
  | '\r' :: rest => '\n' :: universalNewlines rest
  | c :: rest => c :: universalNewlines rest

end TreeExport.Text
