import SnapshotSql.Text.Letter

/-! # Blanks

White space in the sense of Unicode, with the four separators of ASCII. One set serves for skipping
between tokens, for trimming and for reading numbers.
-/
namespace SnapshotSql.Text

def blankRanges : List (Nat × Nat) := [
  (0x9, 0xD), (0x1C, 0x20), (0x85, 0x85), (0xA0, 0xA0), (0x1680, 0x1680), (0x2000, 0x200A),
  (0x2028, 0x2029), (0x202F, 0x202F), (0x205F, 0x205F), (0x3000, 0x3000)]

def isBlank (c : CodePoint) : Bool :=
  inRanges blankRanges c

def trimWhere (drops : CodePoint → Bool) (text : Text) : Text :=
  ((text.dropWhile drops).reverse.dropWhile drops).reverse

def trim (text : Text) : Text :=
  trimWhere isBlank text

end SnapshotSql.Text
