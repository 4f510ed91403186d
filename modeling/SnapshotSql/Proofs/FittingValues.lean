import SnapshotSql.Proofs.SuccessfulRuns
import Mathlib.Data.Nat.Log

/-! # Values that fit a type

A cast answers a value that fits the type it is cast to. This is read off the cast for all types but
DECIMAL, whose rounding must not leave the range of floats: a quotient is never rounded above a
representable number that it does not exceed, and the floor of a float does not exceed one. Whether all
values that fit one type fit another is told from the types alone.
-/
namespace SnapshotSql

namespace Binary64

variable {units num den : Nat}

theorem twoPow_succ (n : Nat) : twoPow (n + 1) = 2 * twoPow n :=
  Nat.pow_succ'

theorem twoPow_lt_twoPow {m n : Nat} (h : m < n) : twoPow m < twoPow n :=
  Nat.pow_lt_pow_right Nat.one_lt_two h

/-! ## Rounding stays below representable numbers -/

theorem roundHalfEven_le_of_le_mul {limit : Nat} (hden : 0 < den) (h : num ≤ limit * den) :
    roundHalfEven num den ≤ limit := by
  have hquotient : num / den ≤ limit := Nat.div_le_of_le_mul (by rwa [Nat.mul_comm])
  rcases Nat.lt_or_eq_of_le hquotient with hlt | heq
  · exact Nat.le_trans (roundHalfEven_le num den) hlt
  · have hsplit := Nat.div_add_mod num den
    rw [heq, Nat.mul_comm] at hsplit
    have hmod : num % den = 0 := by omega
    simp [roundHalfEven, hmod, heq, hden]

theorem spacing_dvd_spacing {other : Nat} (h : units ≤ other) : spacing units ∣ spacing other := by
  have hlog : units.log2 ≤ other.log2 := by
    rw [Nat.log2_eq_log_two, Nat.log2_eq_log_two]
    exact Nat.log_mono_right h
  exact twoPow_dvd_twoPow (Nat.sub_le_sub_right hlog 52)

theorem roundUnits_le (hden : 0 < den) (hunits : spacing units ∣ units) (h : num ≤ units * den) :
    roundUnits num den ≤ units := by
  have hquotient : num / den ≤ units := Nat.div_le_of_le_mul (by rwa [Nat.mul_comm])
  -- The spacing at the quotient divides the one at the greater number, and so the number itself.
  obtain ⟨count, hcount⟩ := Nat.dvd_trans (spacing_dvd_spacing hquotient) hunits
  have hspacing : 0 < spacing (num / den) := twoPow_pos _
  have hle : num ≤ count * (den * spacing (num / den)) :=
    calc num ≤ units * den := h
      _ = spacing (num / den) * count * den := by rw [← hcount]
      _ = count * (den * spacing (num / den)) := by
        rw [Nat.mul_comm (spacing _), Nat.mul_assoc, Nat.mul_comm (spacing _)]
  calc roundUnits num den ≤ count * spacing (num / den) :=
        Nat.mul_le_mul_right _ (roundHalfEven_le_of_le_mul (Nat.mul_pos hden hspacing) hle)
    _ = units := by rw [Nat.mul_comm, ← hcount]

/-- A quotient that does not exceed a representable number stays in range. -/
theorem isFinite_ofQuotient (negative : Bool) (hden : 0 < den) (hunits : Representable units)
    (h : num ≤ units * den) : (ofQuotient negative num den).isFinite = true := by
  have hlt : roundUnits num den < bound := Nat.lt_of_le_of_lt (roundUnits_le hden hunits.2 h) hunits.1
  rw [ofQuotient, dif_pos hlt]
  rfl

theorem representable_twoPow {n : Nat} (h : n < fractionBits + 1024) : Representable (twoPow n) := by
  constructor
  · rw [bound]
    exact twoPow_lt_twoPow h
  · rw [log2_twoPow]
    exact twoPow_dvd_twoPow (Nat.sub_le n 52)

/-! ## The floor of a float -/

/-- A number that is not whole is below 2⁵². -/
theorem units_lt_of_not_dvd (hunits : Representable units) (h : ¬ one ∣ units) :
    units < twoPow (fractionBits + 52) := by
  have hne : units ≠ 0 := fun hzero => h (hzero ▸ Nat.dvd_zero _)
  rw [← log2_lt_iff hne]
  by_contra hlarge
  exact h (Nat.dvd_trans (twoPow_dvd_twoPow (by omega)) hunits.2)

theorem natAbs_signed (negative : Bool) (units : Nat) : (signed negative units).natAbs = units := by
  cases negative <;> simp [signed]

theorem natAbs_fdiv_mul_le (value : Int) {unit : Nat} (hunit : 0 < unit) :
    (value.fdiv unit).natAbs * unit ≤ value.natAbs + unit := by
  have hlow := Int.mul_fdiv_self_le (x := value) (k := unit) (by omega)
  have hhigh := Int.lt_mul_fdiv_self_add (x := value) (k := unit) (by omega)
  have habs : (value.fdiv unit).natAbs * unit = ((unit : Int) * value.fdiv unit).natAbs := by
    rw [Int.natAbs_mul, Int.natAbs_natCast, Nat.mul_comm]
  rw [habs]
  generalize (unit : Int) * value.fdiv unit = floor at hlow hhigh ⊢
  omega

/-- The floor of a float does not exceed a representable number: itself if it is whole, and otherwise
a power of two. -/
theorem exists_floor_le (negative : Bool) (hunits : Representable units) :
    ∃ limit, Representable limit ∧ ((signed negative units).fdiv one).natAbs * one ≤ limit := by
  by_cases hwhole : one ∣ units
  · refine ⟨units, hunits, Nat.le_of_eq ?_⟩
    have hdvd : (one : Int) ∣ signed negative units :=
      Int.natAbs_dvd_natAbs.mp (by rwa [Int.natAbs_natCast, natAbs_signed])
    have hexact := congrArg Int.natAbs (Int.fdiv_mul_cancel_of_dvd hdvd)
    rwa [Int.natAbs_mul, Int.natAbs_natCast, natAbs_signed] at hexact
  · refine ⟨twoPow (fractionBits + 53), representable_twoPow (by omega), ?_⟩
    have hlt := units_lt_of_not_dvd hunits hwhole
    have hone : one ≤ twoPow (fractionBits + 52) := by
      rw [one]
      exact (twoPow_lt_twoPow (by omega)).le
    calc ((signed negative units).fdiv one).natAbs * one
        ≤ (signed negative units).natAbs + one := natAbs_fdiv_mul_le _ (twoPow_pos _)
      _ = units + one := by rw [natAbs_signed]
      _ ≤ twoPow (fractionBits + 52) + twoPow (fractionBits + 52) := Nat.add_le_add hlt.le hone
      _ = twoPow (fractionBits + 53) := by rw [twoPow_succ (fractionBits + 52), Nat.two_mul]

theorem exists_of_floor? {value : Binary64} {whole : Int} (h : value.floor? = some whole) :
    ∃ negative units, Representable units ∧ (signed negative units).fdiv one = whole := by
  unfold floor? at h
  split at h
  · next negative units hunits => exact ⟨negative, units, hunits, Option.some.inj h⟩
  · cases h

end Binary64

/-! ## Types and the values that fit them -/

/-- What a column of a type may hold: null, or a value of the kind that the type stands for. An INT may
be a float that has no integer part, and the text of a CHAR has just the length of the type. -/
def ColumnType.Fits : ColumnType → Scalar → Prop
  | _, .null => True
  | .int, .int _ => True
  | .int, .float value => value.isFinite = false
  | .real, .float _ => True
  | .decimal _ _, .float value => value.isFinite = true
  | .text, .text _ => True
  | .char length, .text value => value.length = length
  | .varchar length, .text value => value.length ≤ length
  | .boolean, .bool _ => True
  | _, _ => False

instance (type : ColumnType) (value : Scalar) : Decidable (type.Fits value) := by
  cases type <;> cases value <;>
    first
    | exact isTrue trivial
    | exact isFalse id
    | exact Nat.decEq _ _
    | exact Nat.decLe _ _
    | exact instDecidableEqBool _ _

/-- Whether all values that fit a type fit another one too. -/
def ColumnType.within : ColumnType → ColumnType → Bool
  | .int, .int => true
  | .real, .real => true
  | .decimal _ _, .real => true
  | .decimal _ _, .decimal _ _ => true
  | .text, .text => true
  | .char _, .text => true
  | .char length, .char other => length = other
  | .char length, .varchar other => length ≤ other
  | .varchar _, .text => true
  | .varchar length, .char other => length = 0 ∧ other = 0
  | .varchar length, .varchar other => length ≤ other
  | .boolean, .boolean => true
  | _, _ => false

theorem ColumnType.Fits.of_within {type other : ColumnType} (h : type.within other = true)
    {value : Scalar} (hfits : type.Fits value) : other.Fits value := by
  cases value with
  | null => cases other <;> trivial
  | int value => cases type <;> cases other <;> trivial
  | float value => cases type <;> cases other <;> trivial
  | bool value => cases type <;> cases other <;> trivial
  | text value =>
    cases type <;> cases other <;>
      simp only [within, Fits, decide_eq_true_eq, reduceCtorEq] at h hfits ⊢ <;> omega

/-- The test is exact: a type that it rejects has a value that does not fit the other type. -/
theorem ColumnType.within_iff {type other : ColumnType} :
    type.within other = true ↔ ∀ value, type.Fits value → other.Fits value := by
  refine ⟨fun h _ => Fits.of_within h, fun h => ?_⟩
  -- Any two types that differ are told apart by one of these values.
  have hint := h (.int 0)
  have hinfinite := h (.float (.infinite false))
  have hzero := h (.float .zero)
  have hempty := h (.text [])
  have hlong := fun length => h (.text (List.replicate length (.char ' ')))
  have htrue := h (.bool true)
  clear h
  cases type <;> cases other <;>
    simp [within, Fits, Binary64.isFinite, Binary64.zero] at hint hinfinite hzero hempty hlong htrue ⊢
  case text.char bound => exact absurd (hlong (bound + 1)) (by omega)
  case text.varchar bound => exact absurd (hlong (bound + 1)) (by omega)
  case char.char => exact hlong
  case char.varchar => exact hlong
  case varchar.char => exact ⟨(hlong _ (Nat.le_refl _)).trans hempty.symm, hempty.symm⟩
  case varchar.varchar => exact hlong _ (Nat.le_refl _)

namespace Scalar

variable {value result : Scalar}

theorem fits_asInt (value : Scalar) : ColumnType.int.Fits value.asInt := by
  have htext : ∀ text, ColumnType.int.Fits (leadingInt text).toScalar := by
    intro text
    unfold leadingInt
    split
    · trivial
    · rfl
  unfold asInt
  split
  · trivial
  · next number =>
    split
    · trivial
    · next hnone => cases number <;> first | rfl | cases hnone
  · exact htext _

theorem isFinite_roundToScale {number rounded : Binary64} {scale : Nat}
    (h : roundToScale number scale = .ok rounded) : rounded.isFinite = true := by
  unfold roundToScale at h
  split at h
  · cases h
  dsimp only at h
  generalize (number.mul _).add _ = scaled at h
  split at h
  · next whole hwhole =>
    obtain ⟨negative, units, hunits, rfl⟩ := Binary64.exists_of_floor? hwhole
    obtain ⟨limit, hlimit, hle⟩ := Binary64.exists_floor_le negative hunits
    have hpow : 0 < Binary64.tenPow scale := Nat.pow_pos (by decide)
    rw [← Except.ok.inj h]
    exact Binary64.isFinite_ofQuotient _ hpow hlimit
      (Nat.le_trans hle (Nat.le_mul_of_pos_right limit hpow))
  · cases h

theorem length_fit (length : Nat) (text : Text) : (fit length text).length = length := by
  simp only [fit, List.length_append, List.length_take, List.length_replicate]
  omega

/-- A cast answers a value that fits the type. -/
theorem fits_castTo {type : ColumnType} (h : value.castTo type = .ok result) : type.Fits result := by
  unfold castTo at h
  split at h
  · cases h
    cases type <;> trivial
  · cases h
    exact fits_asInt value
  · cases h
    trivial
  · next scale _ =>
    obtain ⟨rounded, hrounded, rfl⟩ := Check.map_eq_ok.mp h
    exact isFinite_roundToScale hrounded
  · cases h
    trivial
  · cases h
    exact length_fit _ _
  · cases h
    exact List.length_take_le _ _
  · cases h
    trivial

theorem fit_length (text : Text) : fit text.length text = text := by
  simp [fit]

theorem clip_of_length_le {length : Nat} {text : Text} (h : text.length ≤ length) : clip length text = text :=
  List.take_of_length_le h

/-- A value that fits a type is its own cast. A float that fits a DECIMAL may still be rounded. -/
theorem castTo_of_fits {type : ColumnType} (hdecimal : type.typeName ≠ .decimal) (h : type.Fits value) :
    value.castTo type = .ok value := by
  cases value with
  | null => cases type <;> rfl
  | int value => cases type <;> first | rfl | cases h
  | bool value => cases type <;> first | rfl | cases h
  | float value =>
    cases type with
    | real => rfl
    | int => cases value <;> first | rfl | cases h
    | decimal precision scale => exact absurd rfl hdecimal
    | text | char | varchar | boolean => cases h
  | text value =>
    cases type with
    | text => rfl
    | char length =>
      cases h
      exact congrArg (fun text => Except.ok (Scalar.text text)) (fit_length value)
    | varchar length => exact congrArg (fun text => Except.ok (Scalar.text text)) (clip_of_length_le h)
    | int | real | decimal | boolean => cases h

end Scalar

end SnapshotSql
