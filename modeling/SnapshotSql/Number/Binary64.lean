/-! # Binary64 numbers as exact counts of a unit

A finite number is a sign and a count of units of 2⁻¹⁰⁷⁴, the smallest positive binary64 number. The
count has at most 53 significant binary digits and stays below 2¹⁰²⁴. Every operation forms its
result exactly and rounds it once, to the nearest number and to the even one of two, so comparison,
addition and conversion can be reasoned about in integers.
-/
namespace SnapshotSql

namespace Binary64

def twoPow (n : Nat) : Nat :=
  Nat.pow 2 n

def tenPow (n : Nat) : Nat :=
  Nat.pow 10 n

theorem twoPow_pos (n : Nat) : 0 < twoPow n :=
  Nat.two_pow_pos n

theorem twoPow_add (m n : Nat) : twoPow (m + n) = twoPow m * twoPow n :=
  Nat.pow_add 2 m n

theorem twoPow_dvd_twoPow {m n : Nat} (h : m ≤ n) : twoPow m ∣ twoPow n :=
  Nat.pow_dvd_pow 2 h

theorem log2_twoPow (n : Nat) : (twoPow n).log2 = n :=
  Nat.log2_two_pow

theorem log2_lt_iff {n k : Nat} (h : n ≠ 0) : n.log2 < k ↔ n < twoPow k :=
  Nat.log2_lt h

def fractionBits : Nat := 1074

def one : Nat := twoPow fractionBits

/-- The number of units in 2¹⁰²⁴, the first power of two that is out of range. -/
def bound : Nat := twoPow (fractionBits + 1024)

/-- At most 53 significant binary digits, and in range. -/
def Representable (units : Nat) : Prop :=
  units < bound ∧ twoPow (units.log2 - 52) ∣ units

instance (units : Nat) : Decidable (Representable units) :=
  inferInstanceAs (Decidable (_ ∧ _))

theorem representable_zero : Representable 0 :=
  ⟨twoPow_pos _, Nat.dvd_zero _⟩

end Binary64

inductive Binary64 where
  | nan
  | infinite (negative : Bool)
  | finite (negative : Bool) (units : Nat) (representable : Binary64.Representable units)
  deriving DecidableEq

namespace Binary64

/-- A quotient rounded to the nearest integer, an exact half to the even neighbour. -/
def roundHalfEven (num den : Nat) : Nat :=
  let quotient := num / den
  let twice := 2 * (num % den)
  if twice < den then quotient
  else if den < twice then quotient + 1
  else quotient + quotient % 2

theorem roundHalfEven_le (num den : Nat) : roundHalfEven num den ≤ num / den + 1 := by
  unfold roundHalfEven
  dsimp only
  split
  · omega
  · split <;> omega

/-- The distance of neighbouring binary64 numbers at a count of units. -/
def spacing (units : Nat) : Nat :=
  twoPow (units.log2 - 52)

def roundUnits (num den : Nat) : Nat :=
  roundHalfEven num (den * spacing (num / den)) * spacing (num / den)

theorem div_spacing_lt (units : Nat) : units / spacing units < twoPow 53 := by
  rw [spacing, Nat.div_lt_iff_lt_mul (twoPow_pos _), ← twoPow_add]
  by_cases h : units = 0
  · subst h; exact twoPow_pos _
  · exact (log2_lt_iff h).1 (by omega)

theorem roundUnits_dvd (num den : Nat) :
    twoPow ((roundUnits num den).log2 - 52) ∣ roundUnits num den := by
  have h := roundHalfEven_le num (den * spacing (num / den))
  rw [← Nat.div_div_eq_div_mul] at h
  have hlt := div_spacing_lt (num / den)
  unfold roundUnits
  generalize roundHalfEven num (den * spacing (num / den)) = count at h ⊢
  have hle : count ≤ twoPow 53 := Nat.le_trans h hlt
  rw [spacing]
  generalize (num / den).log2 - 52 = k
  by_cases hz : count = 0
  · subst hz; simp
  have hpos : count * twoPow k ≠ 0 := Nat.mul_ne_zero hz (Nat.ne_of_gt (twoPow_pos k))
  by_cases hc : count = twoPow 53
  · rw [hc, ← twoPow_add, log2_twoPow]
    exact twoPow_dvd_twoPow (by omega)
  · have hlog : (count * twoPow k).log2 < 53 + k := by
      rw [log2_lt_iff hpos, twoPow_add]
      exact Nat.mul_lt_mul_of_pos_right (Nat.lt_of_le_of_ne hle hc) (twoPow_pos k)
    exact Nat.dvd_trans (twoPow_dvd_twoPow (by omega)) (Nat.dvd_mul_left _ _)

def ofQuotient (negative : Bool) (num den : Nat) : Binary64 :=
  if h : roundUnits num den < bound then
    .finite negative (roundUnits num den) ⟨h, roundUnits_dvd num den⟩
  else
    .infinite negative

def zero : Binary64 :=
  .finite false 0 representable_zero

/-- The nearest number to an integer; integers beyond the range become infinite. -/
def ofInt (n : Int) : Binary64 :=
  ofQuotient (n < 0) (n.natAbs * one) 1

/-- The nearest number to `digits * 10 ^ exponent`. Exponents that are certain to overflow or to
vanish are settled first, so that no large power is formed. -/
def ofDecimal (negative : Bool) (digits : Nat) (exponent : Int) : Binary64 :=
  if digits = 0 then .finite negative 0 representable_zero
  else if exponent > 400 then .infinite negative
  else if exponent + (Nat.toDigits 10 digits).length < -400 then
    .finite negative 0 representable_zero
  else if 0 ≤ exponent then ofQuotient negative (digits * tenPow exponent.toNat * one) 1
  else ofQuotient negative (digits * one) (tenPow (-exponent).toNat)

def signed (negative : Bool) (units : Nat) : Int :=
  if negative then -(units : Int) else units

def isNan : Binary64 → Bool
  | .nan => true
  | _ => false

def isFinite : Binary64 → Bool
  | .finite .. => true
  | _ => false

def neg : Binary64 → Binary64
  | .nan => .nan
  | .infinite negative => .infinite (!negative)
  | .finite negative units h => .finite (!negative) units h

/-- A sum that vanishes is negative only if both terms are. -/
def add : Binary64 → Binary64 → Binary64
  | .nan, _ => .nan
  | _, .nan => .nan
  | .infinite s, .infinite t => if s = t then .infinite s else .nan
  | .infinite s, .finite .. => .infinite s
  | .finite .., .infinite t => .infinite t
  | .finite s m _, .finite t n _ =>
      let sum := signed s m + signed t n
      ofQuotient (if sum = 0 then s && t else decide (sum < 0)) sum.natAbs 1

def sub (x y : Binary64) : Binary64 :=
  add x (neg y)

def mul : Binary64 → Binary64 → Binary64
  | .nan, _ => .nan
  | _, .nan => .nan
  | .infinite s, .infinite t => .infinite (s != t)
  | .infinite s, .finite t n _ => if n = 0 then .nan else .infinite (s != t)
  | .finite s m _, .infinite t => if m = 0 then .nan else .infinite (s != t)
  | .finite s m _, .finite t n _ => ofQuotient (s != t) (m * n) one

/-- Division by zero gives an infinity, and zero by zero no number. -/
def div : Binary64 → Binary64 → Binary64
  | .nan, _ => .nan
  | _, .nan => .nan
  | .infinite _, .infinite _ => .nan
  | .infinite s, .finite t _ _ => .infinite (s != t)
  | .finite s _ _, .infinite t => .finite (s != t) 0 representable_zero
  | .finite s m _, .finite t n _ =>
      if n = 0 then if m = 0 then .nan else .infinite (s != t)
      else ofQuotient (s != t) (m * one) n

def whole? : Binary64 → Option Int
  | .finite negative units _ => if units % one = 0 then some (signed negative (units / one)) else none
  | _ => none

def truncate? : Binary64 → Option Int
  | .finite negative units _ => some (signed negative (units / one))
  | _ => none

def floor? : Binary64 → Option Int
  | .finite negative units _ => some (Int.fdiv (signed negative units) one)
  | _ => none

end Binary64

end SnapshotSql
