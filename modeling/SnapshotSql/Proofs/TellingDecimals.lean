import Mathlib.Data.List.DropRight
import SnapshotSql.Proofs.ExactKeys
import SnapshotSql.Proofs.ShortestDecimals
import SnapshotSql.Proofs.SpelledNumbers

/-! # A float is told by its text

The text of a decimal can be read as a number again, with its point and its exponent, and is then the value of the
decimal, wherever the point stands. Together with the search for the shortest decimal, which tells numbers apart,
no two floats have one text.
-/
namespace SnapshotSql

namespace Binary64

variable {whole fraction tail : List Char}

/-! ## Reading a text -/

def digitsValue (digits : List Char) : Nat :=
  Nat.ofDigitChars 10 digits 0

def exponentValue : List Char → Int
  | 'e' :: '-' :: digits => -(digitsValue digits : Int)
  | 'e' :: '+' :: digits => digitsValue digits
  | _ => 0

theorem exponentValue_nil : exponentValue [] = 0 :=
  rfl

def textValue (chars : List Char) : ℚ :=
  let mantissa := chars.takeWhile (· ≠ 'e')
  let fraction := (mantissa.dropWhile (· ≠ '.')).tail
  digitsValue (mantissa.takeWhile (· ≠ '.') ++ fraction) *
    10 ^ (exponentValue (chars.dropWhile (· ≠ 'e')) - fraction.length)

def EndsMantissa (tail : List Char) : Prop :=
  ∀ c ∈ tail.head?, c = 'e'

theorem span_of_forall {p : Char → Bool} {front : List Char} (hfront : ∀ c ∈ front, p c = true)
    (htail : ∀ c ∈ tail.head?, p c = false) :
    (front ++ tail).takeWhile p = front ∧ (front ++ tail).dropWhile p = tail := by
  rw [List.takeWhile_append_of_pos hfront, List.dropWhile_append_of_pos hfront]
  cases tail with
  | nil => simp
  | cons c tail => simp [htail c rfl]

theorem ne_marks_of_isDigit {c : Char} (h : c.isDigit = true) : c ≠ 'e' ∧ c ≠ '.' := by
  constructor <;> rintro rfl <;> cases h

theorem textValue_point (hwhole : ∀ c ∈ whole, c.isDigit = true) (hfraction : ∀ c ∈ fraction, c.isDigit = true)
    (htail : EndsMantissa tail) : textValue (whole ++ '.' :: fraction ++ tail) =
      digitsValue (whole ++ fraction) * 10 ^ (exponentValue tail - fraction.length) := by
  have hmantissa : ∀ c ∈ whole ++ '.' :: fraction, decide (c ≠ 'e') = true := by
    simp only [List.mem_append, List.mem_cons, decide_eq_true_eq]
    rintro c (hc | rfl | hc)
    · exact (ne_marks_of_isDigit (hwhole c hc)).1
    · decide
    · exact (ne_marks_of_isDigit (hfraction c hc)).1
  obtain ⟨htake, hdrop⟩ := span_of_forall hmantissa fun c hc => by simp [htail c hc]
  have hpoint : ∀ c ∈ whole, decide (c ≠ '.') = true := fun c hc => by
    simpa using (ne_marks_of_isDigit (hwhole c hc)).2
  have hstop : ∀ c ∈ ('.' :: fraction).head?, decide (c ≠ '.') = false := by simp
  obtain ⟨htake', hdrop'⟩ := span_of_forall hpoint hstop
  rw [textValue, htake, hdrop, htake', hdrop', List.tail_cons]

theorem textValue_plain (hwhole : ∀ c ∈ whole, c.isDigit = true) (htail : EndsMantissa tail) :
    textValue (whole ++ tail) = digitsValue whole * 10 ^ exponentValue tail := by
  have hmantissa : ∀ c ∈ whole, decide (c ≠ 'e') = true := fun c hc => by
    simpa using (ne_marks_of_isDigit (hwhole c hc)).1
  have hpoint : ∀ c ∈ whole, decide (c ≠ '.') = true := fun c hc => by
    simpa using (ne_marks_of_isDigit (hwhole c hc)).2
  obtain ⟨htake, hdrop⟩ := span_of_forall hmantissa fun c hc => by simp [htail c hc]
  rw [textValue, htake, hdrop, List.takeWhile_eq_self_iff.mpr hpoint, List.dropWhile_eq_nil_iff.mpr hpoint]
  simp

/-! ## Digits -/

theorem digitsValue_append (digits more : List Char) :
    digitsValue (digits ++ more) = digitsValue digits * 10 ^ more.length + digitsValue more := by
  rw [digitsValue, Nat.ofDigitChars_append, Nat.ofDigitChars_eq_ofDigitChars_zero, Nat.mul_comm]
  rfl

theorem digitsValue_zeros (count : Nat) : digitsValue (List.replicate count '0') = 0 := by
  simp [digitsValue]

theorem digitsValue_toDigits (n : Nat) : digitsValue (Nat.toDigits 10 n) = n :=
  Nat.ofDigitChars_ten_toDigits

theorem endsMantissa_exponentText (e : Int) : EndsMantissa (exponentText e) := by
  rintro c ⟨⟩
  rfl

theorem exponentValue_exponentText (e : Int) : exponentValue (exponentText e) = e := by
  have hdigits : digitsValue (if e.natAbs < 10 then '0' :: Nat.toDigits 10 e.natAbs else Nat.toDigits 10 e.natAbs) =
      e.natAbs := by
    split
    · exact digitsValue_toDigits _
    · exact digitsValue_toDigits _
  unfold exponentText
  split
  · rw [exponentValue, hdigits]
    omega
  · rw [exponentValue, hdigits]
    omega

/-- The digits of a number up to the last one that is not zero. -/
def significant (n : Nat) : List Char :=
  ((Nat.toDigits 10 n).reverse.dropWhile (· = '0')).reverse

theorem toDigits_eq_significant (n : Nat) : ∃ zeros, Nat.toDigits 10 n = significant n ++ List.replicate zeros '0' := by
  have hzeros : (Nat.toDigits 10 n).rtakeWhile (· = '0') =
      List.replicate ((Nat.toDigits 10 n).rtakeWhile (· = '0')).length '0' :=
    List.eq_replicate_iff.mpr ⟨rfl, fun c hc => by simpa using List.mem_rtakeWhile_imp hc⟩
  refine ⟨((Nat.toDigits 10 n).rtakeWhile (· = '0')).length, ?_⟩
  rw [← hzeros]
  exact List.rdropWhile_append_rtakeWhile.symm

theorem isDigit_significant (n : Nat) : ∀ c ∈ significant n, c.isDigit = true := by
  intro c hc
  obtain ⟨zeros, heq⟩ := toDigits_eq_significant n
  exact Numeral.isDigit_of_mem_toDigits n c (heq ▸ List.mem_append_left _ hc)

theorem isDigit_of_mem_zeros {count : Nat} {c : Char} (h : c ∈ List.replicate count '0') : c.isDigit = true := by
  rw [List.eq_of_mem_replicate h]
  decide

theorem digitsValue_zeros_append (count : Nat) (digits : List Char) :
    digitsValue (List.replicate count '0' ++ digits) = digitsValue digits := by
  rw [digitsValue_append, digitsValue_zeros, Nat.zero_mul, Nat.zero_add]

theorem digitsValue_append_zeros (digits : List Char) (count : Nat) :
    digitsValue (digits ++ List.replicate count '0') = digitsValue digits * 10 ^ count := by
  rw [digitsValue_append, digitsValue_zeros, Nat.add_zero, List.length_replicate]

/-- A number is its significant digits and zeros behind them. -/
theorem significant_spec {n : Nat} (h : n ≠ 0) : significant n ≠ [] ∧ ∃ zeros,
    digitCount n = (significant n).length + zeros ∧ n = digitsValue (significant n) * 10 ^ zeros := by
  obtain ⟨zeros, hzeros⟩ := toDigits_eq_significant n
  have hvalue : n = digitsValue (significant n) * 10 ^ zeros := by
    rw [← digitsValue_append_zeros, ← hzeros, digitsValue_toDigits]
  refine ⟨fun hnil => h ?_, zeros, ?_, hvalue⟩
  · rw [hvalue, hnil]
    exact Nat.zero_mul _
  · rw [digitCount, hzeros, List.length_append, List.length_replicate]

/-! ## The value of a text -/

theorem textValue_fraction (hwhole : ∀ c ∈ whole, c.isDigit = true) (hfraction : ∀ c ∈ fraction, c.isDigit = true) :
    textValue (whole ++ '.' :: fraction) = digitsValue (whole ++ fraction) * 10 ^ (-fraction.length : ℤ) := by
  have hnone : EndsMantissa [] := nofun
  have hvalue := textValue_point hwhole hfraction hnone
  rwa [List.append_nil, exponentValue_nil, zero_sub] at hvalue

/-- Digits in positions keep their value, whether the point stands before, among or behind them. -/
theorem textValue_positional {digits : List Char} (h : ∀ c ∈ digits, c.isDigit = true) (whole : Int) :
    textValue (positional digits whole) = digitsValue digits * 10 ^ (whole - digits.length) := by
  have hzero : ∀ c ∈ ['0'], c.isDigit = true := List.forall_mem_singleton.mpr (by decide)
  unfold positional
  split
  · next hbefore =>
    obtain ⟨zeros, hzeros⟩ := Int.eq_ofNat_of_zero_le (a := -whole) (by omega)
    obtain rfl : whole = -zeros := by omega
    have hfraction : ∀ c ∈ List.replicate zeros '0' ++ digits, c.isDigit = true := fun c hc =>
      (List.mem_append.mp hc).elim isDigit_of_mem_zeros (h c)
    have htext : '0' :: '.' :: List.replicate (- -(zeros : ℤ)).toNat '0' ++ digits =
        ['0'] ++ '.' :: (List.replicate zeros '0' ++ digits) := by simp
    have hdigits : ['0'] ++ (List.replicate zeros '0' ++ digits) = List.replicate (zeros + 1) '0' ++ digits := rfl
    rw [htext, textValue_fraction hzero hfraction, hdigits, digitsValue_zeros_append, List.length_append,
      List.length_replicate]
    congr 2
    omega
  · split
    · next hwhole hbehind =>
      obtain ⟨zeros, hzeros⟩ := Nat.exists_eq_add_of_le hbehind
      obtain rfl : whole = digits.length + zeros := by omega
      have hall : ∀ c ∈ digits ++ List.replicate zeros '0', c.isDigit = true := fun c hc =>
        (List.mem_append.mp hc).elim (h c) isDigit_of_mem_zeros
      have hdigits : digits ++ List.replicate zeros '0' ++ ['0'] = digits ++ List.replicate (zeros + 1) '0' := by
        rw [List.replicate_succ', List.append_assoc]
      rw [hzeros, Nat.add_sub_cancel_left, textValue_fraction hall hzero, hdigits, digitsValue_append_zeros]
      simp [pow_succ, mul_assoc]
    · next hwhole hamong =>
      rw [textValue_fraction (fun c hc => h c (List.mem_of_mem_take hc)) (fun c hc => h c (List.mem_of_mem_drop hc)),
        List.take_append_drop, List.length_drop]
      congr 2
      omega

/-- Digits with an exponent, and with a point behind the first of them, keep their value. -/
theorem textValue_scientific {first : Char} {rest : List Char} (h : ∀ c ∈ first :: rest, c.isDigit = true) (e : Int) :
    textValue (first :: '.' :: rest ++ exponentText e) = digitsValue (first :: rest) * 10 ^ (e - rest.length) := by
  obtain ⟨hfirst, hrest⟩ := List.forall_mem_cons.mp h
  have hwhole : ∀ c ∈ [first], c.isDigit = true := List.forall_mem_singleton.mpr hfirst
  have hvalue := textValue_point hwhole hrest (endsMantissa_exponentText e)
  rwa [exponentValue_exponentText] at hvalue

theorem textValue_exponent {digits : List Char} (h : ∀ c ∈ digits, c.isDigit = true) (e : Int) :
    textValue (digits ++ exponentText e) = digitsValue digits * 10 ^ e := by
  rw [textValue_plain h (endsMantissa_exponentText e), exponentValue_exponentText]

/-- The text of a decimal stands for its value. -/
theorem textValue_decimalText {d : Decimal} (h : d.digits ≠ 0) : textValue (decimalText d) = d.value := by
  obtain ⟨hne, zeros, hcount, hvalue⟩ := significant_spec h
  have hdigits := isDigit_significant d.digits
  have hshift : d.value = digitsValue (significant d.digits) * 10 ^ (d.exponent + zeros) := by
    rw [Decimal.value, zpow_add₀ (by norm_num), zpow_natCast]
    nth_rewrite 1 [hvalue]
    push_cast
    ring
  rw [hshift]
  -- The point stands behind the leading digit or moves from there by the leading exponent.
  unfold decimalText
  extract_lets digits leading
  have hleading : leading = d.exponent + zeros + digits.length - 1 := by
    change d.exponent + digitCount d.digits - 1 = d.exponent + zeros + (significant d.digits).length - 1
    omega
  change ∀ c ∈ digits, c.isDigit = true at hdigits
  change digits ≠ [] at hne
  change _ = (digitsValue digits : ℚ) * _
  clear_value digits leading
  split
  · rw [textValue_positional hdigits]
    congr 2
    omega
  · match digits, hne with
    | [digit], _ =>
      rw [textValue_exponent hdigits, hleading]
      simp
    | first :: second :: rest, _ =>
      refine (textValue_scientific hdigits leading).trans ?_
      congr 2
      simp only [hleading, List.length_cons]
      omega

/-! ## Floats and their texts -/

theorem magnitude_of_ne_zero {units : Nat} (h : units ≠ 0) : magnitude units = decimalText (shortest units) :=
  if_neg h

theorem textValue_magnitude {units : Nat} (h : units ≠ 0) : textValue (magnitude units) = (shortest units).value := by
  rw [magnitude_of_ne_zero h]
  exact textValue_decimalText (digits_ne_zero_of_readsAs h (readsAs_shortest h))

theorem textValue_magnitude_zero : textValue (magnitude 0) = 0 := by
  have hzeros : magnitude 0 = List.replicate 1 '0' ++ '.' :: List.replicate 1 '0' := rfl
  rw [hzeros, textValue_fraction (fun _ => isDigit_of_mem_zeros) fun _ => isDigit_of_mem_zeros,
    List.replicate_append_replicate, digitsValue_zeros, Nat.cast_zero, zero_mul]

theorem textValue_magnitude_eq_zero_iff {units : Nat} : textValue (magnitude units) = 0 ↔ units = 0 := by
  constructor
  · intro hzero
    by_contra hne
    have hdigits := digits_ne_zero_of_readsAs hne (readsAs_shortest hne)
    rw [textValue_magnitude hne] at hzero
    exact mul_ne_zero (Nat.cast_ne_zero.mpr hdigits) (zpow_ne_zero _ (by norm_num)) hzero
  · rintro rfl
    exact textValue_magnitude_zero

/-- The digits of a number with their point and their exponent tell the number. -/
theorem magnitude_injective {units other : Nat} (hunits : Representable units) (hother : Representable other)
    (h : magnitude units = magnitude other) : units = other := by
  have hvalue := congrArg textValue h
  have hzero : units = 0 ↔ other = 0 := by
    rw [← textValue_magnitude_eq_zero_iff, hvalue, textValue_magnitude_eq_zero_iff]
  by_cases hne : units = 0
  · rw [hne, hzero.mp hne]
  · have hne' : other ≠ 0 := mt hzero.mpr hne
    rw [textValue_magnitude hne, textValue_magnitude hne'] at hvalue
    exact eq_of_readsAs hunits hother hne hne' hvalue (readsAs_shortest hne) (readsAs_shortest hne')

def nonFinite : List Binary64 :=
  [.nan, .infinite false, .infinite true]

theorem finite_or_mem_nonFinite (value : Binary64) :
    (∃ negative units h, value = .finite negative units h) ∨ value ∈ nonFinite := by
  cases value with
  | nan => exact .inr (by decide)
  | infinite negative => exact .inr (by cases negative <;> decide)
  | finite negative units h => exact .inl ⟨negative, units, h, rfl⟩

/-- A function tells floats if it writes the finite ones as their texts and the others as three words. -/
theorem injective_of_words {write : Binary64 → Text}
    (hfinite : ∀ negative units h, write (.finite negative units h) = text (.finite negative units h))
    (hwords : ∀ value ∈ nonFinite, ¬ Numeral.IsNumeral (write value)) (hdistinct : (nonFinite.map write).Nodup) :
    Function.Injective write := by
  have hnumeral (negative : Bool) (units : Nat) (h : Representable units) :
      Numeral.IsNumeral (write (.finite negative units h)) := by
    rw [hfinite]
    exact text_isNumeral negative units h
  intro a b h
  obtain ⟨negative, units, hunits, rfl⟩ | ha := finite_or_mem_nonFinite a
  · obtain ⟨other, more, hother, rfl⟩ | hb := finite_or_mem_nonFinite b
    · rw [hfinite, hfinite] at h
      have hsigned := congrArg Numeral.takeSign h
      rw [Numeral.takeSign_text, Numeral.takeSign_text] at hsigned
      obtain ⟨rfl, hchars⟩ := Prod.mk.inj hsigned
      obtain rfl := magnitude_injective hunits hother (Text.ofChars_injective hchars)
      rfl
    · exact absurd (h ▸ hnumeral negative units hunits) (hwords b hb)
  · obtain ⟨other, more, hother, rfl⟩ | hb := finite_or_mem_nonFinite b
    · exact absurd (h ▸ hnumeral other more hother) (hwords a ha)
    · exact List.inj_on_of_nodup_map hdistinct ha hb h

end Binary64

theorem Numeral.IsNumeral.of_mem {text : Text} (h : IsNumeral text) {c : Char} (hc : .char c ∈ text) :
    isNumeral c = true := by
  obtain ⟨chars, rfl, -, hchars⟩ := h
  obtain ⟨d, hd, hdc⟩ := List.mem_map.mp hc
  cases hdc
  exact hchars c hd

end SnapshotSql
