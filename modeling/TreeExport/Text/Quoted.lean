import TreeExport.Text.Printable

/-!
Texts and byte strings between quotes, as a reader is shown them. The quote is the single one, or the
double one where that saves escapes; what is not printable is written by its code.
-/

namespace TreeExport.Text

def hexPadded (width n : Nat) : List Char :=
  let digits := Nat.toDigits 16 n
  List.replicate (width - digits.length) '0' ++ digits

/-- The quote that surrounds a text: the double one only where the text holds single ones alone. -/
def quoteFor (text : List Char) : Char :=
  if text.contains '\'' && !text.contains '"' then '"' else '\''

def quotedChar (quote c : Char) : List Char :=
  if c = quote || c = '\\' then ['\\', c]
  else if c = '\n' then ['\\', 'n']
  else if c = '\r' then ['\\', 'r']
  else if c = '\t' then ['\\', 't']
  else if isPrintable c then [c]
  else if c.toNat < 0x100 then '\\' :: 'x' :: hexPadded 2 c.toNat
  else if c.toNat < 0x10000 then '\\' :: 'u' :: hexPadded 4 c.toNat
  else '\\' :: 'U' :: hexPadded 8 c.toNat

def quoted (text : List Char) : List Char :=
  let quote := quoteFor text
  quote :: text.flatMap (quotedChar quote) ++ [quote]

def quotedByte (quote : Char) (byte : UInt8) : List Char :=
  let c := Char.ofNat byte.toNat
  if byte.toNat < 0x80 then quotedChar quote c
  else '\\' :: 'x' :: hexPadded 2 byte.toNat

def quotedBytes (data : List UInt8) : List Char :=
  let quote := quoteFor (data.map fun byte => Char.ofNat byte.toNat)
  'b' :: quote :: data.flatMap (quotedByte quote) ++ [quote]

end TreeExport.Text
