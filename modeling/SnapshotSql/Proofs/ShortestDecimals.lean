import Mathlib.Data.Nat.Log
import Mathlib.Tactic.Linarith
import Mathlib.Tactic.FieldSimp
import Mathlib.Tactic.Ring
import Mathlib.Algebra.Order.Field.Rat
import SnapshotSql.Number.Shortest
import SnapshotSql.Proofs.FittingValues

/-! # The shortest decimal is read back

Seventeen digits are enough: on the grid of the seventeenth digit a neighbour of a number is at most half a grid
step away, which is less than the distance to the midpoint below, even behind a power of two. So the search for
the shortest decimal ends with one that reads back. The decimals that read back as one number and those that read
back as another do not meet, because of two numbers side by side one has an odd significand and does not own the
midpoint. So a decimal tells its number.
-/
namespace SnapshotSql.Binary64

variable {units other : Nat} {exponent : Int}

/-! ## Distances in quarter units -/

theorem spacing_pos (units : Nat) : 0 < spacing units :=
  twoPow_pos _

theorem lt_spacing (units : Nat) : units < twoPow 53 * spacing units := by
  rw [← Nat.div_lt_iff_lt_mul (spacing_pos units)]
  exact div_spacing_lt units

theorem spacing_le (h : units ≠ 0) : spacing units ≤ units := by
  rw [spacing]
  calc twoPow (units.log2 - 52) ≤ twoPow units.log2 := Nat.pow_le_pow_right (by decide) (Nat.sub_le _ _)
    _ ≤ units := Nat.log2_self_le h

theorem gaps_snd (units : Nat) : (gaps units).2 = 2 * spacing units :=
  rfl

/-- The midpoint below is as far as the one above, or half as far. -/
theorem gaps_fst (units : Nat) :
    (gaps units).1 = 2 * spacing units ∨
      (gaps units).1 = spacing units ∧ units = twoPow units.log2 ∧ 1 < spacing units := by
  unfold gaps
  dsimp only
  split
  · next h => exact .inr ⟨rfl, h⟩
  · exact .inl rfl

theorem gaps_fst_le (units : Nat) : (gaps units).1 ≤ 2 * spacing units := by
  obtain h | ⟨h, -⟩ := gaps_fst units <;> omega

theorem gaps_fst_le_units (h : units ≠ 0) : (gaps units).1 ≤ 4 * units := by
  have hspacing := spacing_le h
  have hgap := gaps_fst_le units
  omega

/-- The distance to the midpoint below is at least the fraction 2⁻⁵⁴ of the number. -/
theorem le_gaps_fst (units : Nat) : units ≤ twoPow 52 * (gaps units).1 := by
  obtain h | ⟨h, hpower, hspacing⟩ := gaps_fst units
  · have hlt := lt_spacing units
    rw [h]
    change units < twoPow (52 + 1) * _ at hlt
    rw [twoPow_succ] at hlt
    nlinarith
  · have hlog : 52 ≤ units.log2 := by
      by_contra hlow
      rw [spacing, Nat.sub_eq_zero_of_le (by omega)] at hspacing
      exact absurd hspacing (by decide)
    rw [h, spacing, ← twoPow_add, Nat.add_sub_cancel' hlog, ← hpower]

/-! ## Grids -/

/-- One step of a grid is this many of the fractions of a quarter unit that the grid has. -/
def gridStep (exponent : Int) : Nat :=
  if 0 ≤ exponent then tenPow exponent.toNat * (4 * one) else 4 * one

/-- The grid divides a quarter unit into so many fractions. -/
def gridFractions (exponent : Int) : Nat :=
  if 0 ≤ exponent then 1 else tenPow (-exponent).toNat

theorem quarterUnits_eq (digits : Nat) (exponent : Int) :
    quarterUnits ⟨digits, exponent⟩ = (digits * gridStep exponent, gridFractions exponent) := by
  unfold quarterUnits gridStep gridFractions
  dsimp only
  split
  · rw [Nat.mul_assoc]
  · rfl

theorem tenPow_pos (n : Nat) : 0 < tenPow n :=
  Nat.pow_pos (by decide)

theorem tenPow_add (m n : Nat) : tenPow (m + n) = tenPow m * tenPow n :=
  Nat.pow_add 10 m n

theorem one_pos : 0 < one :=
  twoPow_pos _

theorem gridStep_pos (exponent : Int) : 0 < gridStep exponent := by
  have hone := one_pos
  unfold gridStep
  split
  · exact Nat.mul_pos (tenPow_pos _) (by omega)
  · omega

theorem gridFractions_pos (exponent : Int) : 0 < gridFractions exponent := by
  unfold gridFractions
  split
  · exact Nat.one_pos
  · exact tenPow_pos _

theorem gridFloor_eq (units : Nat) (exponent : Int) :
    gridFloor units exponent = 4 * units * gridFractions exponent / gridStep exponent := by
  unfold gridFloor gridStep gridFractions
  split
  · rw [Nat.mul_one, Nat.mul_comm (tenPow _), Nat.mul_assoc, Nat.mul_div_mul_left _ _ (by decide)]
  · rw [Nat.mul_assoc, Nat.mul_div_mul_left _ _ (by decide)]

/-- A number lies between two neighbours on the grid. -/
theorem gridFloor_spec (units : Nat) (exponent : Int) :
    gridFloor units exponent * gridStep exponent ≤ 4 * units * gridFractions exponent ∧
      4 * units * gridFractions exponent < (gridFloor units exponent + 1) * gridStep exponent := by
  rw [gridFloor_eq]
  exact ⟨Nat.div_mul_le_self _ _, Nat.lt_mul_of_div_lt (Nat.lt_succ_self _) (gridStep_pos _)⟩

theorem digitCount_pos (n : Nat) : 0 < digitCount n :=
  Nat.length_toDigits_pos

theorem lt_tenPow_digitCount (n : Nat) : n < tenPow (digitCount n) :=
  (Nat.length_toDigits_le_iff (by decide) (digitCount_pos n)).mp (Nat.le_refl _)

theorem tenPow_le_of_digitCount {n : Nat} (h : n ≠ 0) : tenPow (digitCount n - 1) ≤ n := by
  have hpos := digitCount_pos n
  by_cases hone : digitCount n - 1 = 0
  · rw [hone]
    exact Nat.pos_of_ne_zero h
  · by_contra hlt
    have hle : digitCount n ≤ digitCount n - 1 :=
      (Nat.length_toDigits_le_iff (by decide) (by omega)).mpr (Nat.not_le.mp hlt)
    omega

/-- A grid that is sixteen places below the leading digit has at least 10¹⁶ steps up to the number. -/
theorem tenPow_le_steps (h : units ≠ 0) :
    tenPow 16 * gridStep (leadingExponent units - 16) ≤ 4 * units * gridFractions (leadingExponent units - 16) := by
  have hsmall (count : Nat) : ¬ 0 ≤ -(count : Int) - 16 := by omega
  have hplaces (count : Nat) : (-(-(count : Int) - 16)).toNat = 16 + count := by omega
  unfold leadingExponent
  split
  · next hone =>
    have hquotient : units / one ≠ 0 := Nat.ne_of_gt (Nat.div_pos hone one_pos)
    have hpos := digitCount_pos (units / one)
    have hle : tenPow (digitCount (units / one) - 1) * one ≤ units :=
      Nat.le_trans (Nat.mul_le_mul_right _ (tenPow_le_of_digitCount hquotient)) (Nat.div_mul_le_self _ _)
    generalize digitCount (units / one) = count at hpos hle
    unfold gridStep gridFractions
    split
    · next hexponent =>
      have hsplit : tenPow (count - 1) = tenPow 16 * tenPow ((count : Int) - 1 - 16).toNat := by
        rw [← tenPow_add]
        congr 1
        omega
      rw [hsplit] at hle
      linarith
    · next hexponent =>
      have hsplit : tenPow 16 = tenPow (count - 1) * tenPow (-((count : Int) - 1 - 16)).toNat := by
        rw [← tenPow_add]
        congr 1
        omega
      rw [hsplit]
      generalize tenPow (-((count : Int) - 1 - 16)).toNat = fractions
      calc tenPow (count - 1) * fractions * (4 * one) = 4 * (tenPow (count - 1) * one) * fractions := by ring
        _ ≤ 4 * units * fractions := Nat.mul_le_mul_right _ (Nat.mul_le_mul_left _ hle)
  · have hlt : one - 1 < tenPow (digitCount ((one - 1) / units)) * units :=
      Nat.lt_mul_of_div_lt (lt_tenPow_digitCount _) (Nat.pos_of_ne_zero h)
    generalize digitCount ((one - 1) / units) = count at hlt
    have hle : one ≤ tenPow count * units := by
      generalize one = unit at hlt ⊢
      omega
    rw [gridStep, gridFractions, if_neg (hsmall count), if_neg (hsmall count), hplaces, tenPow_add]
    calc tenPow 16 * (4 * one) ≤ tenPow 16 * (4 * (tenPow count * units)) :=
          Nat.mul_le_mul_left _ (Nat.mul_le_mul_left _ hle)
      _ = 4 * units * (tenPow 16 * tenPow count) := by ring

/-- On this grid a step is shorter than twice the distance to the midpoint below. -/
theorem gridStep_lt (h : units ≠ 0) : gridStep (leadingExponent units - 16) <
    2 * (gaps units).1 * gridFractions (leadingExponent units - 16) := by
  have hsteps := tenPow_le_steps h
  have hgap := le_gaps_fst units
  have hstep := gridStep_pos (leadingExponent units - 16)
  generalize gridStep (leadingExponent units - 16) = step at hsteps hstep ⊢
  generalize gridFractions (leadingExponent units - 16) = fractions at hsteps ⊢
  generalize (gaps units).1 = gap at hgap ⊢
  have hpowers : 2 * twoPow 52 < tenPow 16 := by decide
  have hfar : 4 * units * fractions ≤ 2 * twoPow 52 * (2 * gap * fractions) := by
    calc 4 * units * fractions ≤ 4 * (twoPow 52 * gap) * fractions :=
          Nat.mul_le_mul_right _ (Nat.mul_le_mul_left _ hgap)
      _ = 2 * twoPow 52 * (2 * gap * fractions) := by ring
  by_contra hle
  have hback : 2 * twoPow 52 * (2 * gap * fractions) ≤ 2 * twoPow 52 * step :=
    Nat.mul_le_mul_left _ (Nat.not_lt.mp hle)
  have hless : 2 * twoPow 52 * step < tenPow 16 * step := Nat.mul_lt_mul_of_pos_right hpowers hstep
  omega

/-! ## The search -/

/-- A decimal that is read as a number lies between the midpoints, and on one of them only if the significand is
even. -/
theorem readsAs_iff (digits : Nat) : readsAs units ⟨digits, exponent⟩ = true ↔
    (4 * units - (gaps units).1) * gridFractions exponent ≤ digits * gridStep exponent ∧
      digits * gridStep exponent ≤ (4 * units + (gaps units).2) * gridFractions exponent ∧
        (units / spacing units % 2 ≠ 0 →
          (4 * units - (gaps units).1) * gridFractions exponent ≠ digits * gridStep exponent ∧
            digits * gridStep exponent ≠ (4 * units + (gaps units).2) * gridFractions exponent) := by
  unfold readsAs
  rw [quarterUnits_eq]
  dsimp only
  generalize (4 * units - (gaps units).1) * gridFractions exponent = low
  generalize (4 * units + (gaps units).2) * gridFractions exponent = high
  split
  · next heven => simp [heven]
  · next hodd =>
    simp only [Bool.and_eq_true, decide_eq_true_eq, ne_eq, hodd, not_false_eq_true, true_implies]
    omega

theorem readsAs_of_lt {digits : Nat}
    (hlow : (4 * units - (gaps units).1) * gridFractions exponent < digits * gridStep exponent)
    (hhigh : digits * gridStep exponent < (4 * units + (gaps units).2) * gridFractions exponent) :
    readsAs units ⟨digits, exponent⟩ = true :=
  (readsAs_iff digits).mpr ⟨hlow.le, hhigh.le, fun _ => ⟨hlow.ne, hhigh.ne⟩⟩

theorem readsAs_of_onGrid? {d : Decimal} (h : onGrid? units exponent = some d) : readsAs units d = true := by
  unfold onGrid? at h
  extract_lets lower upper at h
  split at h
  next first second heq =>
  split at h
  · next hfirst =>
    cases h
    exact hfirst
  · split at h
    · next hsecond =>
      cases h
      exact hsecond
    · cases h

/-- The lower of two neighbours on a grid is at most half a step away, or the upper one is. -/
theorem lowerIsNearer_spec (units digits : Nat) (exponent : Int) :
    (lowerIsNearer units ⟨digits, exponent⟩ = true →
      8 * units * gridFractions exponent ≤ (2 * digits + 1) * gridStep exponent) ∧
    (lowerIsNearer units ⟨digits, exponent⟩ = false →
      (2 * digits + 1) * gridStep exponent ≤ 8 * units * gridFractions exponent) := by
  unfold lowerIsNearer
  rw [quarterUnits_eq]
  dsimp only
  generalize 8 * units * gridFractions exponent = twice
  generalize (2 * digits + 1) * gridStep exponent = num
  simp only [Bool.or_eq_true, Bool.or_eq_false_iff, decide_eq_true_eq, decide_eq_false_iff_not, Bool.and_eq_true]
  omega

/-- Where a grid step is shorter than twice the distance to the midpoint below, the nearer neighbour reads back. -/
theorem exists_onGrid? (hunits : units ≠ 0)
    (h : gridStep exponent < 2 * (gaps units).1 * gridFractions exponent) : ∃ d, onGrid? units exponent = some d := by
  obtain ⟨hfloor, hceil⟩ := gridFloor_spec units exponent
  obtain ⟨hdown, hup⟩ := lowerIsNearer_spec units (gridFloor units exponent) exponent
  unfold onGrid?
  generalize gridFloor units exponent = lower at hfloor hceil hdown hup
  -- In fractions of quarter units everything is linear.
  have hwithin (digits : Nat) (hlow : 4 * units * gridFractions exponent <
        digits * gridStep exponent + (gaps units).1 * gridFractions exponent)
      (hhigh : digits * gridStep exponent <
        4 * units * gridFractions exponent + (gaps units).1 * gridFractions exponent) :
      readsAs units ⟨digits, exponent⟩ = true := by
    have hbelow : (gaps units).1 * gridFractions exponent ≤ 4 * units * gridFractions exponent :=
      Nat.mul_le_mul_right _ (gaps_fst_le_units hunits)
    have habove : (gaps units).1 * gridFractions exponent ≤ (gaps units).2 * gridFractions exponent :=
      Nat.mul_le_mul_right _ (gaps_fst_le units)
    apply readsAs_of_lt
    · rw [Nat.sub_mul]
      omega
    · rw [Nat.add_mul]
      omega
  have hstep : gridStep exponent < 2 * ((gaps units).1 * gridFractions exponent) := by rwa [← Nat.mul_assoc]
  have htwice : 8 * units * gridFractions exponent = 2 * (4 * units * gridFractions exponent) := by ring
  have hhalf : (2 * lower + 1) * gridStep exponent = 2 * (lower * gridStep exponent) + gridStep exponent := by ring
  have hnext : (lower + 1) * gridStep exponent = lower * gridStep exponent + gridStep exponent := Nat.succ_mul _ _
  cases hlower : lowerIsNearer units ⟨lower, exponent⟩ with
  | true =>
    have hread := hwithin lower (by have := hdown hlower; omega) (by omega)
    exact ⟨⟨lower, exponent⟩, by simp [hlower, hread]⟩
  | false =>
    have hread := hwithin (lower + 1) (by omega) (by have := hup hlower; omega)
    exact ⟨⟨lower + 1, exponent⟩, by simp [hlower, hread]⟩

theorem readsAs_firstOnGrid {steps : Nat} {d : Decimal} {depth : Nat} (hdepth : depth < steps)
    (h : onGrid? units (exponent - depth) = some d) : readsAs units (firstOnGrid units exponent steps) = true := by
  induction steps generalizing exponent depth with
  | zero => exact absurd hdepth (Nat.not_lt_zero _)
  | succ steps ih =>
    rw [firstOnGrid]
    cases hfirst : onGrid? units exponent with
    | some found => exact readsAs_of_onGrid? hfirst
    | none =>
      cases depth with
      | zero =>
        rw [Int.natCast_zero, Int.sub_zero, hfirst] at h
        cases h
      | succ depth =>
        have hfiner : exponent - (depth + 1 : Nat) = exponent - 1 - depth := by omega
        exact ih (Nat.lt_of_succ_lt_succ hdepth) (hfiner ▸ h)

/-- The shortest decimal of a number is read as this number. -/
theorem readsAs_shortest (h : units ≠ 0) : readsAs units (shortest units) = true := by
  obtain ⟨d, hd⟩ := exists_onGrid? h (gridStep_lt h)
  have hdepth : 16 < 17 := by decide
  exact readsAs_firstOnGrid hdepth hd

/-! ## Decimals of different numbers -/

/-- Between two numbers the midpoint above the one does not lie beyond the midpoint below the other, and only one of
the two owns it if they are the same. -/
def Apart (units other : Nat) : Prop :=
  4 * units + 2 * spacing units + (gaps other).1 ≤ 4 * other ∧
    (4 * units + 2 * spacing units + (gaps other).1 = 4 * other →
      units / spacing units % 2 ≠ 0 ∨ other / spacing other % 2 ≠ 0)

/-- Two numbers with the same spacing. -/
theorem apart_of_spacing_eq (hunits : spacing units ∣ units) (hother : spacing other ∣ other) (hlt : units < other)
    (hspacing : spacing units = spacing other) : Apart units other := by
  have hgap := gaps_fst_le other
  unfold Apart
  rw [hspacing] at hunits ⊢
  have hpos := spacing_pos other
  generalize spacing other = space at *
  generalize (gaps other).1 = gap at *
  obtain ⟨count, rfl⟩ := hunits
  obtain ⟨next, rfl⟩ := hother
  have hcount : count + 1 ≤ next := Nat.lt_of_mul_lt_mul_left hlt
  have hmul : space * (count + 1) ≤ space * next := Nat.mul_le_mul_left _ hcount
  rw [Nat.mul_succ] at hmul
  refine ⟨by omega, fun heq => ?_⟩
  rw [Nat.mul_div_cancel_left _ hpos, Nat.mul_div_cancel_left _ hpos]
  have hnext : next = count + 1 := by
    have hsame : space * next = space * (count + 1) := by
      rw [Nat.mul_succ]
      omega
    exact Nat.eq_of_mul_eq_mul_left hpos hsame
  omega

theorem add_le_of_dvd {space small large : Nat} (hsmall : space ∣ small) (hlarge : space ∣ large)
    (hlt : small < large) : small + space ≤ large := by
  obtain ⟨count, rfl⟩ := hsmall
  obtain ⟨next, rfl⟩ := hlarge
  have hmul : space * (count + 1) ≤ space * next := Nat.mul_le_mul_left _ (Nat.lt_of_mul_lt_mul_left hlt)
  rwa [Nat.mul_succ] at hmul

/-- The last number below a power of two has an odd significand. -/
theorem odd_of_add_eq_twoPow {bits : Nat} (heq : units + spacing units = twoPow bits)
    (hbits : spacing units * twoPow 53 = twoPow bits) : units / spacing units % 2 ≠ 0 := by
  have hpos := spacing_pos units
  generalize spacing units = space at *
  have hunits : units = space * (twoPow 53 - 1) := by
    rw [Nat.mul_sub, hbits, ← heq, Nat.mul_one, Nat.add_sub_cancel]
  rw [hunits, Nat.mul_div_cancel_left _ hpos]
  decide

/-- A power of two and a number below it, at the same or at a smaller spacing than the power's half. -/
theorem apart_twoPow (hunits : spacing units ∣ units) {bits : Nat} (hlog : units.log2 < bits) (hbits : 52 < bits)
    (hne : units ≠ 0) : Apart units (twoPow bits) := by
  have hspacing : spacing (twoPow bits) = twoPow (bits - 52) := by rw [spacing, log2_twoPow]
  have hgap : (gaps (twoPow bits)).1 = twoPow (bits - 52) := by
    have hone : 1 < twoPow (bits - 52) := Nat.one_lt_two_pow (by omega)
    rw [gaps, hspacing, log2_twoPow, if_pos ⟨rfl, hone⟩]
  have hpower : spacing units ∣ twoPow (units.log2 + 1) := twoPow_dvd_twoPow (by omega)
  have hnext := add_le_of_dvd hunits hpower ((log2_lt_iff hne).mp (Nat.lt_succ_self _))
  unfold Apart
  rw [hgap]
  by_cases hadjacent : units.log2 + 1 = bits
  · rw [hadjacent] at hnext
    have hdouble : twoPow (bits - 52) = 2 * spacing units := by
      rw [spacing, ← twoPow_succ]
      congr 1
      omega
    have hbinade : spacing units * twoPow 53 = twoPow bits := by
      rw [spacing, ← twoPow_add]
      congr 1
      omega
    exact ⟨by omega, fun heq => .inl (odd_of_add_eq_twoPow (by omega) hbinade)⟩
  · have hfar : 2 * twoPow (units.log2 + 1) ≤ twoPow bits := by
      rw [← twoPow_succ]
      exact Nat.pow_le_pow_right (by decide) (by omega)
    have hsmall : twoPow (bits - 52) ≤ twoPow bits := Nat.pow_le_pow_right (by decide) (Nat.sub_le _ _)
    have hpos := spacing_pos units
    omega

/-- Two numbers of which the greater one has the greater spacing: a power of two lies between them, or is one. -/
theorem apart_of_spacing_lt (hunits : spacing units ∣ units) (hother : spacing other ∣ other) (hlt : units < other)
    (hspacing : spacing units < spacing other) (hne : units ≠ 0) : Apart units other := by
  have hlog : units.log2 - 52 < other.log2 - 52 := (Nat.pow_lt_pow_iff_right (by decide)).mp hspacing
  have hpower : twoPow other.log2 ≤ other := Nat.log2_self_le (by omega)
  obtain heq | hgreater := Nat.eq_or_lt_of_le hpower
  · rw [← heq]
    exact apart_twoPow hunits (by omega) (by omega) hne
  · have hbelow : units + spacing units ≤ twoPow other.log2 :=
      add_le_of_dvd hunits (twoPow_dvd_twoPow (by omega)) ((log2_lt_iff hne).mp (by omega))
    have habove : twoPow other.log2 + spacing other ≤ other :=
      add_le_of_dvd (twoPow_dvd_twoPow (Nat.sub_le _ _)) hother hgreater
    have hgap := gaps_fst_le other
    have hpos := spacing_pos units
    unfold Apart
    omega

theorem apart_of_lt (hunits : Representable units) (hother : Representable other) (hlt : units < other)
    (hne : units ≠ 0) : Apart units other := by
  obtain heq | hless := Nat.eq_or_lt_of_le (Nat.le_of_dvd (spacing_pos other) (spacing_dvd_spacing hlt.le))
  · exact apart_of_spacing_eq hunits.2 hother.2 hlt heq
  · exact apart_of_spacing_lt hunits.2 hother.2 hlt hless hne

def Decimal.value (d : Decimal) : ℚ :=
  d.digits * 10 ^ d.exponent

theorem cast_tenPow (n : Nat) : (tenPow n : ℚ) = 10 ^ n := by
  simp [tenPow]

/-- The quarter units of a decimal, as a fraction of the grid. -/
theorem digits_mul_gridStep (d : Decimal) :
    (d.digits * gridStep d.exponent : ℚ) = 4 * one * d.value * gridFractions d.exponent := by
  unfold gridStep gridFractions Decimal.value
  split
  · next hexponent =>
    obtain ⟨n, hn⟩ := Int.eq_ofNat_of_zero_le hexponent
    rw [hn, Int.toNat_natCast, Nat.cast_mul, cast_tenPow, zpow_natCast]
    push_cast
    ring
  · next hexponent =>
    obtain ⟨n, hn⟩ := Int.eq_ofNat_of_zero_le (a := -d.exponent) (by omega)
    have hinverse : (10 : ℚ) ^ d.exponent * 10 ^ n = 1 := by
      rw [← zpow_natCast, ← zpow_add₀ (by norm_num), ← hn, add_neg_cancel, zpow_zero]
    rw [hn, Int.toNat_natCast, cast_tenPow]
    push_cast
    calc (d.digits * (4 * one) : ℚ) = 4 * one * d.digits * (10 ^ d.exponent * 10 ^ n) := by rw [hinverse]; ring
      _ = 4 * one * (d.digits * 10 ^ d.exponent) * 10 ^ n := by ring

/-- Two decimals of one value, measured on both grids. -/
theorem cross_of_value_eq {d d' : Decimal} (h : d.value = d'.value) :
    d.digits * gridStep d.exponent * gridFractions d'.exponent =
      d'.digits * gridStep d'.exponent * gridFractions d.exponent := by
  have hcast : (d.digits * gridStep d.exponent : ℚ) * gridFractions d'.exponent =
      d'.digits * gridStep d'.exponent * gridFractions d.exponent := by
    rw [digits_mul_gridStep, digits_mul_gridStep, h]
    ring
  exact_mod_cast hcast

/-- A fraction between two equal bounds is the bound. -/
theorem eq_of_cross {num num' fractions fractions' low high : Nat} (hpos : 0 < fractions) (hpos' : 0 < fractions')
    (hcross : num * fractions' = num' * fractions) (hhigh : num ≤ high * fractions) (hlow : low * fractions' ≤ num')
    (h : high ≤ low) : low = high ∧ num = high * fractions ∧ low * fractions' = num' := by
  have hmeet : low * (fractions' * fractions) ≤ high * (fractions' * fractions) := by
    calc low * (fractions' * fractions) = low * fractions' * fractions := (Nat.mul_assoc _ _ _).symm
      _ ≤ num' * fractions := Nat.mul_le_mul_right _ hlow
      _ = num * fractions' := hcross.symm
      _ ≤ high * fractions * fractions' := Nat.mul_le_mul_right _ hhigh
      _ = high * (fractions' * fractions) := by ring
  obtain rfl : low = high := Nat.le_antisymm (Nat.le_of_mul_le_mul_right hmeet (Nat.mul_pos hpos' hpos)) h
  refine ⟨rfl, Nat.le_antisymm hhigh ?_, Nat.le_antisymm hlow ?_⟩
  · refine Nat.le_of_mul_le_mul_right ?_ hpos'
    calc low * fractions * fractions' = low * fractions' * fractions := by ring
      _ ≤ num' * fractions := Nat.mul_le_mul_right _ hlow
      _ = num * fractions' := hcross.symm
  · refine Nat.le_of_mul_le_mul_right ?_ hpos
    calc num' * fractions = num * fractions' := hcross.symm
      _ ≤ low * fractions * fractions' := Nat.mul_le_mul_right _ hhigh
      _ = low * fractions' * fractions := by ring

theorem not_readsAs_of_apart {d d' : Decimal} (hapart : Apart units other) (hvalue : d.value = d'.value)
    (hd : readsAs units d = true) (hd' : readsAs other d' = true) : False := by
  obtain ⟨-, hhigh, hodd⟩ := (readsAs_iff d.digits).mp hd
  obtain ⟨hlow, -, hodd'⟩ := (readsAs_iff d'.digits).mp hd'
  obtain ⟨hle, hparity⟩ := hapart
  obtain ⟨hsame, hnum, hnum'⟩ := eq_of_cross (gridFractions_pos _) (gridFractions_pos _) (cross_of_value_eq hvalue)
    hhigh hlow (by rw [gaps_snd]; omega)
  -- Both numbers would own the midpoint between them.
  rw [gaps_snd] at hsame
  obtain hunits | hother := hparity (by omega)
  · exact (hodd hunits).2 hnum
  · exact (hodd' hother).1 hnum'

/-- Decimals of one value are not read as two numbers. -/
theorem eq_of_readsAs {d d' : Decimal} (hunits : Representable units) (hother : Representable other)
    (hne : units ≠ 0) (hne' : other ≠ 0) (hvalue : d.value = d'.value) (hd : readsAs units d = true)
    (hd' : readsAs other d' = true) : units = other := by
  obtain hlt | heq | hgt := Nat.lt_trichotomy units other
  · exact (not_readsAs_of_apart (apart_of_lt hunits hother hlt hne) hvalue hd hd').elim
  · exact heq
  · exact (not_readsAs_of_apart (apart_of_lt hother hunits hgt hne') hvalue.symm hd' hd).elim

/-- The digits of a decimal that is read as a number other than zero are not all zero. -/
theorem digits_ne_zero_of_readsAs {d : Decimal} (hne : units ≠ 0) (h : readsAs units d = true) : d.digits ≠ 0 := by
  intro hzero
  obtain ⟨hlow, -, -⟩ := (readsAs_iff d.digits).mp h
  have hspacing := spacing_le hne
  have hgap := gaps_fst_le units
  have hbelow : 0 < 4 * units - (gaps units).1 := by omega
  rw [hzero, Nat.zero_mul] at hlow
  exact absurd (Nat.le_zero.mp hlow) (Nat.ne_of_gt (Nat.mul_pos hbelow (gridFractions_pos _)))

end SnapshotSql.Binary64
