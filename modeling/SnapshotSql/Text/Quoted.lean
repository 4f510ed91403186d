import SnapshotSql.Text.Printable

/-! # Quoted text

Two ways to write a text so that its ends can be seen. The ASCII form stands in double quotes and
writes every character outside printable ASCII as UTF-16 escapes; keys and messages between programs
use it. The display form keeps printable characters of every script and takes single quotes unless
the text holds a single quote and no double quote; error messages use it.
-/
namespace SnapshotSql.Text

/-- The lower-case hexadecimal digits of a number, filled with zeros up to a width. -/
def hexText (width n : Nat) : Text :=
  let digits := Nat.toDigits 16 n
  ofChars (List.replicate (width - digits.length) '0' ++ digits)

/-- The UTF-16 units of a code point; a surrogate is its own unit. -/
def utf16Units (c : CodePoint) : List Nat :=
  if c.toNat < 0x10000 then [c.toNat]
  else [0xD800 + (c.toNat - 0x10000) / 0x400, 0xDC00 + (c.toNat - 0x10000) % 0x400]

def escaped (c : CodePoint) : Text :=
  [.char '\\', c]

def asciiEscape (c : CodePoint) : Text :=
  if c = '"' ∨ c = '\\' then escaped c
  else if c = '\n' then escaped 'n'
  else if c = '\r' then escaped 'r'
  else if c = '\t' then escaped 't'
  else if c = '\x08' then escaped 'b'
  else if c = '\x0c' then escaped 'f'
  else if 0x20 ≤ c.toNat ∧ c.toNat < 0x7F then [c]
  else (utf16Units c).flatMap fun unit => escaped 'u' ++ hexText 4 unit

def asciiQuoted (text : Text) : Text :=
  "\"" ++ text.flatMap asciiEscape ++ "\""

def displayEscape (quote c : CodePoint) : Text :=
  if c = quote ∨ c = '\\' then escaped c
  else if c = '\n' then escaped 'n'
  else if c = '\r' then escaped 'r'
  else if c = '\t' then escaped 't'
  else if isPrintable c then [c]
  else if c.toNat < 0x100 then escaped 'x' ++ hexText 2 c.toNat
  else if c.toNat < 0x10000 then escaped 'u' ++ hexText 4 c.toNat
  else escaped 'U' ++ hexText 8 c.toNat

def displayQuoted (text : Text) : Text :=
  let quote : CodePoint := if text.contains '\'' && !text.contains '"' then '"' else '\''
  quote :: text.flatMap (displayEscape quote) ++ [quote]

end SnapshotSql.Text
