import SnapshotSql.Number.Binary64
import SnapshotSql.Text.CodePoint

/-! # The shortest decimal of a binary64 number

The digits written for a number are the fewest that read back as it and, of those, the nearest. All
bounds are kept in exact integers, in quarters of the unit: a decimal reads back when it lies between
the midpoints to the two neighbours, or on one of the midpoints if the significand is even.
-/
namespace SnapshotSql.Binary64

/-- A positive decimal `digits * 10 ^ exponent`. -/
structure Decimal where
  digits : Nat
  exponent : Int
  deriving DecidableEq, Repr

def digitCount (n : Nat) : Nat :=
  (Nat.toDigits 10 n).length

def leadingExponent (units : Nat) : Int :=
  if one ≤ units then digitCount (units / one) - 1
  else -(digitCount ((one - 1) / units))

/-- The distances to the midpoints below and above, in quarter units: a power of two has its lower
neighbour at half the distance, unless it is one of the smallest numbers. -/
def gaps (units : Nat) : Nat × Nat :=
  let upper := 2 * spacing units
  (if units = twoPow units.log2 ∧ 1 < spacing units then spacing units else upper, upper)

/-- The quarter units of a decimal are `num / den`. -/
def quarterUnits (d : Decimal) : Nat × Nat :=
  if 0 ≤ d.exponent then (d.digits * tenPow d.exponent.toNat * (4 * one), 1)
  else (d.digits * (4 * one), tenPow (-d.exponent).toNat)

def readsAs (units : Nat) (d : Decimal) : Bool :=
  let (num, den) := quarterUnits d
  let (below, above) := gaps units
  let low := (4 * units - below) * den
  let high := (4 * units + above) * den
  if units / spacing units % 2 = 0 then low ≤ num && num ≤ high else low < num && num < high

/-- The neighbour below or at a number on the grid of multiples of `10 ^ exponent`. -/
def gridFloor (units : Nat) (exponent : Int) : Nat :=
  if 0 ≤ exponent then units / (one * tenPow exponent.toNat)
  else units * tenPow (-exponent).toNat / one

/-- The lower of two grid neighbours is at least as near, an exact tie going to the even one. -/
def lowerIsNearer (units : Nat) (lower : Decimal) : Bool :=
  let (num, den) := quarterUnits ⟨2 * lower.digits + 1, lower.exponent⟩
  let twice := 8 * units * den
  twice < num || (twice = num && lower.digits % 2 = 0)

def onGrid? (units : Nat) (exponent : Int) : Option Decimal :=
  let lower : Decimal := ⟨gridFloor units exponent, exponent⟩
  let upper : Decimal := ⟨lower.digits + 1, exponent⟩
  let (first, second) := if lowerIsNearer units lower then (lower, upper) else (upper, lower)
  if readsAs units first then some first
  else if readsAs units second then some second
  else none

/-- The first grid with a hit, from the given one down by `steps` finer ones. -/
def firstOnGrid (units : Nat) (exponent : Int) : Nat → Decimal
  | 0 => ⟨gridFloor units exponent, exponent⟩
  | steps + 1 => (onGrid? units exponent).getD (firstOnGrid units (exponent - 1) steps)

/-- The shortest decimal of a positive number; seventeen digits always read back. -/
def shortest (units : Nat) : Decimal :=
  firstOnGrid units (leadingExponent units) 17

/-- Digits with a point after the first `whole` of them, and at least one digit on either side. -/
def positional (digits : List Char) (whole : Int) : List Char :=
  if whole ≤ 0 then '0' :: '.' :: List.replicate (-whole).toNat '0' ++ digits
  else if digits.length ≤ whole.toNat then
    digits ++ List.replicate (whole.toNat - digits.length) '0' ++ ['.', '0']
  else digits.take whole.toNat ++ '.' :: digits.drop whole.toNat

def exponentText (e : Int) : List Char :=
  'e' :: (if e < 0 then '-' else '+') ::
    (if e.natAbs < 10 then '0' :: Nat.toDigits 10 e.natAbs else Nat.toDigits 10 e.natAbs)

/-- Powers of ten from 10⁻⁴ up to below 10¹⁶ are written in positions, others with an exponent. -/
def decimalText (d : Decimal) : List Char :=
  let digits := ((Nat.toDigits 10 d.digits).reverse.dropWhile (· = '0')).reverse
  let leading := d.exponent + digitCount d.digits - 1
  if -4 ≤ leading ∧ leading < 16 then positional digits (leading + 1)
  else match digits with
    | first :: second :: rest => first :: '.' :: second :: rest ++ exponentText leading
    | _ => digits ++ exponentText leading

def text : Binary64 → Text
  | .nan => "nan"
  | .infinite negative => if negative then "-inf" else "inf"
  | .finite negative units _ =>
      let magnitude := if units = 0 then ['0', '.', '0'] else decimalText (shortest units)
      .ofChars (if negative then '-' :: magnitude else magnitude)

end SnapshotSql.Binary64
