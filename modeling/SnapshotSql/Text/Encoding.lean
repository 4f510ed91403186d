import SnapshotSql.Text.CodePoint

/-! # Texts as bytes

UTF-8, UTF-16 and UTF-32. UTF-8 is read by a machine that takes one byte at a time and knows how many
continuation bytes are still missing; what cannot be read is reported piece by piece, a piece ending
before the first byte that does not fit. A text is either decoded whole or with replacement characters
for such pieces. Surrogates may be let through, as they are by those who exchange escaped texts.
-/
namespace SnapshotSql

abbrev Bytes := List UInt8

namespace Utf8

/-- The bytes of a code point; a surrogate has three. -/
def encodePoint (c : CodePoint) : Bytes :=
  let n := c.toNat
  let continuation (shift : Nat) : Nat := 0x80 + n / shift % 0x40
  let bytes :=
    if n < 0x80 then [n]
    else if n < 0x800 then [0xC0 + n / 0x40, continuation 1]
    else if n < 0x10000 then [0xE0 + n / 0x1000, continuation 0x40, continuation 1]
    else [0xF0 + n / 0x40000, continuation 0x1000, continuation 0x40, continuation 1]
  bytes.map .ofNat

def encode (text : Text) : Bytes :=
  text.flatMap encodePoint

/-- A code point of which bytes are missing: their number, the value of the bytes so far, and the range
of the next byte. -/
structure Pending where
  missing : Nat
  value : Nat
  low : Nat
  high : Nat

/-- What a byte above ASCII announces. The range of the next byte excludes numbers that have a shorter
form or are too large, and surrogates unless they may pass. -/
def announced? (surrogates : Bool) (byte : Nat) : Option Pending :=
  if 0xC2 ≤ byte ∧ byte ≤ 0xDF then some ⟨1, byte - 0xC0, 0x80, 0xBF⟩
  else if byte = 0xE0 then some ⟨2, 0, 0xA0, 0xBF⟩
  else if byte = 0xED ∧ !surrogates then some ⟨2, 0xD, 0x80, 0x9F⟩
  else if 0xE1 ≤ byte ∧ byte ≤ 0xEF then some ⟨2, byte - 0xE0, 0x80, 0xBF⟩
  else if byte = 0xF0 then some ⟨3, 0, 0x90, 0xBF⟩
  else if 0xF1 ≤ byte ∧ byte ≤ 0xF3 then some ⟨3, byte - 0xF0, 0x80, 0xBF⟩
  else if byte = 0xF4 then some ⟨3, 4, 0x80, 0x8F⟩
  else none

/-- A byte at the beginning of a code point: what it completes, and what it leaves pending. Nothing in
a list stands for a piece that cannot be read. -/
def first (surrogates : Bool) (byte : Nat) : List (Option CodePoint) × Option Pending :=
  if byte < 0x80 then ([some (.ofNat byte)], none)
  else match announced? surrogates byte with
    | some pending => ([], some pending)
    | none => ([none], none)

def step (surrogates : Bool) (pending : Option Pending) (byte : Nat) :
    List (Option CodePoint) × Option Pending :=
  match pending with
  | none => first surrogates byte
  | some ⟨missing, value, low, high⟩ =>
      if low ≤ byte ∧ byte ≤ high then
        let value := value * 0x40 + (byte - 0x80)
        if missing ≤ 1 then ([some (.ofNat value)], none)
        else ([], some ⟨missing - 1, value, 0x80, 0xBF⟩)
      else
        let (points, pending) := first surrogates byte
        (none :: points, pending)

/-- The code points of bytes, with nothing for each piece that cannot be read. -/
def points (surrogates : Bool) (pending : Option Pending) : Bytes → List (Option CodePoint)
  | [] => if pending.isSome then [none] else []
  | byte :: bytes =>
      let (done, pending) := step surrogates pending byte.toNat
      done ++ points surrogates pending bytes

def decode (bytes : Bytes) : Text :=
  (points false none bytes).map (·.getD '\uFFFD')

end Utf8

inductive ByteOrder where
  | bigEndian
  | littleEndian
  deriving DecidableEq

def ByteOrder.number (order : ByteOrder) (bytes : Bytes) : Nat :=
  let fromBig (bytes : Bytes) : Nat := bytes.foldl (fun value byte => 0x100 * value + byte.toNat) 0
  match order with
  | .bigEndian => fromBig bytes
  | .littleEndian => fromBig bytes.reverse

inductive Encoding where
  | utf8
  | utf16 (order : ByteOrder)
  | utf32 (order : ByteOrder)
  deriving DecidableEq

namespace Encoding

def numbers16? (order : ByteOrder) : Bytes → Option (List Nat)
  | [] => some []
  | a :: b :: bytes => (numbers16? order bytes).map (order.number [a, b] :: ·)
  | _ => none

def numbers32? (order : ByteOrder) : Bytes → Option (List Nat)
  | [] => some []
  | a :: b :: c :: d :: bytes => (numbers32? order bytes).map (order.number [a, b, c, d] :: ·)
  | _ => none

def joinUnits : List Nat → Text
  | [] => []
  | [unit] => [.ofNat unit]
  | high :: low :: units =>
      match CodePoint.ofPair? high low with
      | some c => c :: joinUnits units
      | none => .ofNat high :: joinUnits (low :: units)

def decode? (encoding : Encoding) (bytes : Bytes) : Option Text :=
  match encoding with
  | .utf8 => (Utf8.points true none bytes).mapM id
  | .utf16 order => (numbers16? order bytes).map joinUnits
  | .utf32 order => do
      let numbers ← numbers32? order bytes
      if numbers.all (· < 0x110000) then return numbers.map .ofNat else none

/-- The byte order marks; the one of UTF-16 is the beginning of one of UTF-32. -/
def marks : List (Bytes × Encoding) := [
  ([0x00, 0x00, 0xFE, 0xFF], .utf32 .bigEndian), ([0xFF, 0xFE, 0x00, 0x00], .utf32 .littleEndian),
  ([0xFE, 0xFF], .utf16 .bigEndian), ([0xFF, 0xFE], .utf16 .littleEndian),
  ([0xEF, 0xBB, 0xBF], .utf8)]

/-- The encoding of bytes without a mark whose first character is one of ASCII, as the zeros among the
first bytes show it. -/
def ofZeros (bytes : Bytes) : Encoding :=
  match bytes.map (· == 0) with
  | [true, _] => .utf16 .bigEndian
  | [false, true] => .utf16 .littleEndian
  | true :: true :: _ :: _ :: _ => .utf32 .bigEndian
  | true :: false :: _ :: _ :: _ => .utf16 .bigEndian
  | false :: true :: true :: true :: _ => .utf32 .littleEndian
  | false :: true :: _ :: _ :: _ => .utf16 .littleEndian
  | _ => .utf8

end Encoding

def Text.ofBytes? (bytes : Bytes) : Option Text :=
  match Encoding.marks.find? (·.1.isPrefixOf bytes) with
  | some (mark, encoding) => encoding.decode? (bytes.drop mark.length)
  | none => (Encoding.ofZeros bytes).decode? bytes

end SnapshotSql
