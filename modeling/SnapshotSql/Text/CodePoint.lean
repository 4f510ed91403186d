/-! # Code points and texts

A text is a list of Unicode code points. Surrogates may stand in it without a partner, because a text
can be written in escapes; they are code points of no class, neither letters nor blanks. Texts are
ordered by the numbers of their code points.
-/
namespace SnapshotSql

/-- A character, or one of the surrogates, counted from the first. -/
inductive CodePoint where
  | char (c : Char)
  | surrogate (index : Fin 2048)
  deriving DecidableEq

instance : Coe Char CodePoint := ⟨.char⟩

abbrev Text := List CodePoint

namespace CodePoint

def firstSurrogate : Nat := 0xD800

def toNat : CodePoint → Nat
  | .char c => c.toNat
  | .surrogate index => firstSurrogate + index

/-- The code point of a number, and the character zero for a number that is none. -/
def ofNat (n : Nat) : CodePoint :=
  if h : firstSurrogate ≤ n ∧ n < firstSurrogate + 2048 then
    .surrogate ⟨n - firstSurrogate, by omega⟩
  else .char (Char.ofNat n)

theorem ofNat_toNat (c : CodePoint) : ofNat c.toNat = c := by
  cases c with
  | char c =>
    have hvalid : c.toNat < 0xD800 ∨ 0xDFFF < c.toNat ∧ c.toNat < 0x110000 := c.valid
    have hno : ¬ (firstSurrogate ≤ c.toNat ∧ c.toNat < firstSurrogate + 2048) := by
      change ¬ (0xD800 ≤ c.toNat ∧ c.toNat < 0xD800 + 2048)
      omega
    rw [toNat, ofNat, dif_neg hno, Char.ofNat_toNat]
  | surrogate index =>
    have hyes : firstSurrogate ≤ firstSurrogate + index.val ∧ firstSurrogate + index.val < firstSurrogate + 2048 := by
      omega
    rw [toNat, ofNat, dif_pos hyes]
    simp

/-- The code point that two UTF-16 units make up together: a surrogate of the first half of them and
one of the second. -/
def ofPair? (high low : Nat) : Option CodePoint :=
  if 0xD800 ≤ high ∧ high < 0xDC00 ∧ 0xDC00 ≤ low ∧ low < 0xE000 then
    some (.ofNat (0x10000 + (high - 0xD800) * 0x400 + (low - 0xDC00)))
  else none

def toChar? : CodePoint → Option Char
  | .char c => some c
  | .surrogate _ => none

end CodePoint

namespace Text

def ofChars (chars : List Char) : Text :=
  chars.map .char

def ofString (s : String) : Text :=
  ofChars s.toList

/-- The characters of a text, a replacement character for each surrogate. -/
def toString (text : Text) : String :=
  String.ofList (text.map fun c => c.toChar?.getD '\uFFFD')

/-- The order of texts: the first code point that differs decides, and a beginning comes first. -/
def lt : Text → Text → Bool
  | _, [] => false
  | [], _ :: _ => true
  | a :: as, b :: bs => a.toNat < b.toNat || (a = b && lt as bs)

end Text

instance : Coe String Text := ⟨Text.ofString⟩

end SnapshotSql
