import SnapshotSql.Proofs.TellingDecimals

/-! # Lists that share a key

A key writes a whole float as the integer that it equals and every other value as it is. Values that are equal
without conversion, and NaN and NaN, fold into one value in this way, and the folded values are told by what is
written for them: integers by their digits, texts by their units, other floats by their shortest decimals, and
each kind by characters that the others lack. So two lists share a key exactly if they agree place by place.
-/
namespace SnapshotSql

variable {n : Int} {value other : Binary64}

/-! ## Numbers and their places -/

namespace Binary64

theorem signed_mul (negative : Bool) (count unit : Nat) :
    signed negative (count * unit) = signed negative count * unit := by
  cases negative with
  | false => exact Int.natCast_mul _ _
  | true => simp [signed]

theorem whole_of_signed_eq (negative : Bool) {units : Nat} (h : signed negative units = n * one) :
    units % one = 0 ∧ signed negative (units / one) = n := by
  have hunits : units = n.natAbs * one := by
    rw [← natAbs_signed negative units, h, Int.natAbs_mul, Int.natAbs_natCast]
  rw [hunits, signed_mul] at h
  refine ⟨by rw [hunits, Nat.mul_mod_left], ?_⟩
  rw [hunits, Nat.mul_div_cancel _ one_pos]
  exact Int.eq_of_mul_eq_mul_right (Int.natCast_ne_zero.mpr (Nat.ne_of_gt one_pos)) h

theorem signed_injective {negative negative' : Bool} {units units' : Nat} (hne : units ≠ 0)
    (h : signed negative units = signed negative' units') : negative = negative' ∧ units = units' := by
  unfold signed at h
  cases negative <;> cases negative' <;> simp at h ⊢ <;> omega

end Binary64

namespace Number

theorem place?_int (n : Int) : (int n).place? = some (0, n * Binary64.one) :=
  rfl

theorem place?_nan : (float .nan).place? = none :=
  rfl

theorem place?_infinite (negative : Bool) :
    (float (.infinite negative)).place? = some (if negative then -1 else 1, 0) :=
  rfl

theorem place?_finite (negative : Bool) (units : Nat) (h : Binary64.Representable units) :
    (float (.finite negative units h)).place? = some (0, Binary64.signed negative units) :=
  rfl

/-- Infinite numbers are beside the finite ones. -/
theorem place?_infinite_ne (negative : Bool) (units : Int) :
    (float (.infinite negative)).place? ≠ some (0, units) := by
  intro h
  rw [place?_infinite] at h
  cases negative <;> cases (Prod.mk.inj (Option.some.inj h)).1

/-- The place of an integer is that of a float exactly if the float is this whole number. -/
theorem place?_float_eq_int_iff : (float value).place? = (int n).place? ↔ value.whole? = some n := by
  cases value with
  | nan => exact iff_of_false nofun nofun
  | infinite negative => exact iff_of_false (place?_infinite_ne negative _) nofun
  | finite negative units h =>
    -- Both places are among the finite ones, so only the counts of units decide.
    simp only [place?_int, place?_finite, Binary64.whole?, Option.some.injEq, Prod.mk.injEq, true_and,
      Option.ite_none_right_eq_some]
    constructor
    · exact Binary64.whole_of_signed_eq negative
    · rintro ⟨hwhole, rfl⟩
      rw [← Binary64.signed_mul, Nat.div_mul_cancel (Nat.dvd_of_mod_eq_zero hwhole)]

/-- A float that is not whole has a place of its own. -/
theorem eq_of_place?_eq (hwhole : value.whole? = none) (h : (float value).place? = (float other).place?) :
    value = other := by
  cases value with
  | nan =>
    cases other with
    | nan => rfl
    | infinite _ => cases h
    | finite _ _ _ => cases h
  | infinite negative =>
    cases other with
    | nan => cases h
    | infinite negative' =>
      rw [place?_infinite, place?_infinite] at h
      revert h
      cases negative <;> cases negative' <;> decide
    | finite _ _ _ => exact absurd h (place?_infinite_ne negative _)
  | finite negative units hunits =>
    cases other with
    | nan => cases h
    | infinite negative' => exact absurd h.symm (place?_infinite_ne negative' _)
    | finite negative' units' hunits' =>
      have hne : units ≠ 0 := by
        rintro rfl
        simp [Binary64.whole?] at hwhole
      simp only [place?_finite, Option.some.injEq, Prod.mk.injEq, true_and] at h
      obtain ⟨rfl, rfl⟩ := Binary64.signed_injective hne h
      rfl

/-- Equal numbers have one place, and NaN has none. -/
theorem eq_or_nan_iff (x y : Number) :
    (x.eq y = true ∨ (x.isNan = true ∧ y.isNan = true)) ↔ x.place? = y.place? := by
  have hnan (z : Number) : z.isNan = true ↔ z.place? = none := by
    cases z with
    | int n => exact iff_of_false nofun nofun
    | float value =>
      cases value with
      | nan => exact iff_of_true rfl place?_nan
      | infinite negative => exact iff_of_false nofun nofun
      | finite negative units h => exact iff_of_false nofun nofun
  rw [hnan, hnan, eq]
  cases x.place? <;> cases y.place? <;> simp

end Number

namespace Scalar

/-! ## Values folded together -/

/-- A value as a key knows it: a whole float is the integer that it equals. -/
def folded : Scalar → Scalar
  | .float value =>
      match value.whole? with
      | some whole => .int whole
      | none => .float value
  | value => value

/-- Equal without conversion, or both NaN. -/
def Agrees (a b : Scalar) : Prop :=
  a.strictEquals b = true ∨ (a.isNan = true ∧ b.isNan = true)

instance (a b : Scalar) : Decidable (Agrees a b) :=
  inferInstanceAs (Decidable (_ ∨ _))

@[simp] theorem folded_null : folded .null = .null :=
  rfl

@[simp] theorem folded_bool (flag : Bool) : folded (.bool flag) = .bool flag :=
  rfl

@[simp] theorem folded_int (n : Int) : folded (.int n) = .int n :=
  rfl

@[simp] theorem folded_text (chars : Text) : folded (.text chars) = .text chars :=
  rfl

theorem folded_float_of_whole (h : value.whole? = some n) : folded (.float value) = .int n := by
  rw [folded, h]

theorem folded_float_of_not_whole (h : value.whole? = none) : folded (.float value) = .float value := by
  rw [folded, h]

/-- What becomes of a float. -/
theorem folded_float (value : Binary64) :
    (∃ n, value.whole? = some n ∧ folded (.float value) = .int n) ∨
      (value.whole? = none ∧ folded (.float value) = .float value) := by
  cases h : value.whole? with
  | some n => exact .inl ⟨n, rfl, folded_float_of_whole h⟩
  | none => exact .inr ⟨rfl, folded_float_of_not_whole h⟩

theorem int_eq_folded_float_iff :
    .int n = folded (.float value) ↔ (Number.int n).place? = (Number.float value).place? := by
  rw [eq_comm (a := (Number.int n).place?), Number.place?_float_eq_int_iff]
  obtain ⟨m, hwhole, hfolded⟩ | ⟨hwhole, hfolded⟩ := folded_float value
  · rw [hwhole, hfolded]
    simp [eq_comm]
  · rw [hwhole, hfolded]
    simp

theorem folded_float_eq_iff : folded (.float value) = folded (.float other) ↔
    (Number.float value).place? = (Number.float other).place? := by
  obtain ⟨m, hwhole, hfolded⟩ | ⟨hwhole, hfolded⟩ := folded_float value
  · rw [hfolded, int_eq_folded_float_iff, Number.place?_float_eq_int_iff.mpr hwhole]
  · constructor
    · intro h
      obtain ⟨m, -, hinteger⟩ | ⟨-, hsame⟩ := folded_float other
      · rw [hfolded, hinteger] at h
        cases h
      · rw [hfolded, hsame] at h
        rw [Scalar.float.inj h]
    · intro h
      rw [Number.eq_of_place?_eq hwhole h]

theorem isNumber_folded (a : Scalar) : a.folded.isNumber = a.isNumber := by
  cases a with
  | float value =>
    obtain ⟨m, -, hfolded⟩ | ⟨-, hfolded⟩ := folded_float value
    · rw [hfolded]
      rfl
    · rw [hfolded]
  | _ => rfl

/-- Values fold into one exactly if they agree. -/
theorem folded_eq_iff (a b : Scalar) : a.folded = b.folded ↔ Agrees a b := by
  have hkinds {a b : Scalar} (h : a.isNumber ≠ b.isNumber) : a.folded ≠ b.folded := fun heq =>
    h (by rw [← isNumber_folded a, heq, isNumber_folded])
  cases a with
  | int m =>
    cases b with
    | float other => exact int_eq_folded_float_iff.trans (Number.eq_or_nan_iff (.int m) (.float other)).symm
    | _ => simp [Agrees, strictEquals, isNan]
  | float value =>
    cases b with
    | int n =>
      rw [eq_comm]
      exact int_eq_folded_float_iff.trans (eq_comm.trans (Number.eq_or_nan_iff (.float value) (.int n)).symm)
    | float other => exact folded_float_eq_iff.trans (Number.eq_or_nan_iff (.float value) (.float other)).symm
    | _ => exact iff_of_false (hkinds nofun) (by simp [Agrees, strictEquals, isNan])
  | _ =>
    cases b with
    | float other => exact iff_of_false (hkinds nofun) (by simp [Agrees, strictEquals, isNan])
    | _ => simp [Agrees, strictEquals, isNan]

def WithoutSurrogates : Scalar → Prop
  | .text chars => ∀ c ∈ chars, c.toChar?.isSome = true
  | _ => True

instance : DecidablePred WithoutSurrogates
  | .null => inferInstanceAs (Decidable True)
  | .bool _ => inferInstanceAs (Decidable True)
  | .int _ => inferInstanceAs (Decidable True)
  | .float _ => inferInstanceAs (Decidable True)
  | .text chars => inferInstanceAs (Decidable (∀ c ∈ chars, c.toChar?.isSome = true))

theorem joined_of_withoutSurrogates {chars : Text} (h : WithoutSurrogates (.text chars)) : chars.Joined := by
  refine (List.pairwise_of_forall_mem_list fun c hc d _ => ?_).isChain
  cases c with
  | surrogate index => exact absurd (h _ hc) (by simp [CodePoint.toChar?])
  | char c =>
    have hvalid : c.toNat < 0xD800 ∨ 0xDFFF < c.toNat ∧ c.toNat < 0x110000 := c.valid
    rw [CodePoint.ofPair?, CodePoint.toNat, if_neg]
    omega

/-- A folded value is told by its key among all values but floats, or is a float that is not whole. -/
theorem folded_cases {a : Scalar} (h : a.WithoutSurrogates) :
    a.folded.ToldByKey ∨ ∃ value, a.folded = .float value ∧ value.whole? = none := by
  cases a with
  | float value =>
    obtain ⟨n, -, hfolded⟩ | ⟨hwhole, hfolded⟩ := folded_float value
    · exact .inl (hfolded ▸ trivial)
    · exact .inr ⟨value, hfolded, hwhole⟩
  | text chars => exact .inl (joined_of_withoutSurrogates h)
  | _ => exact .inl trivial

end Scalar

namespace Key
open Scalar

/-! ## What is written for folded values -/

def floatPart (value : Binary64) : Text :=
  match value with
  | .infinite negative => if negative then "-Infinity" else "Infinity"
  | .nan => "NaN"
  | _ => value.text

theorem part_float_of_whole (h : value.whole? = some n) : part (.float value) = part (.int n) := by
  unfold part
  simp only [h]

theorem part_float_of_not_whole (h : value.whole? = none) : part (.float value) = floatPart value := by
  unfold part
  simp only [h]
  cases value <;> rfl

/-- A value is written as the value that it folds into. -/
theorem part_folded (a : Scalar) : part a.folded = part a := by
  cases a with
  | float value =>
    obtain ⟨n, hwhole, hfolded⟩ | ⟨-, hfolded⟩ := folded_float value
    · rw [hfolded, part_float_of_whole hwhole]
    · rw [hfolded]
  | _ => rfl

/-- What is written for a float has the characters of numerals and of a few words. -/
theorem mem_floatPart {c : Char} (h : .char c ∈ floatPart value) :
    Numeral.isNumeral c = true ∨ .char c ∈ ("NaN, Infinity" : Text) := by
  have hwords : ∀ value ∈ Binary64.nonFinite, ∀ c ∈ floatPart value, c = .char '-' ∨ c ∈ ("NaN, Infinity" : Text) := by
    decide
  obtain ⟨negative, units, hunits, rfl⟩ | hvalue := Binary64.finite_or_mem_nonFinite value
  · exact .inl ((Binary64.text_isNumeral negative units hunits).of_mem h)
  · obtain hsign | hletter := hwords value hvalue _ h
    · cases hsign
      exact .inl (by decide)
    · exact .inr hletter

/-- Something in what is written for a float that is not whole cannot stand in the text of an integer. -/
theorem exists_mark_mem_floatPart (value : Binary64) :
    ∃ c, ¬ (c.isDigit = true ∨ c = '-') ∧ .char c ∈ floatPart value := by
  cases value with
  | nan => exact ⟨'N', by decide, by decide⟩
  | infinite negative => exact ⟨'I', by decide, by cases negative <;> decide⟩
  | finite negative units h =>
    have hmem {c : Char} (hc : c ∈ Binary64.magnitude units) : .char c ∈ floatPart (.finite negative units h) := by
      change .char c ∈ Binary64.text (.finite negative units h)
      rw [Binary64.text_finite]
      refine List.mem_map_of_mem ?_
      split
      · exact List.mem_cons_of_mem _ hc
      · exact hc
    obtain hpoint | hexponent := Binary64.marked_magnitude units
    · exact ⟨'.', by decide, hmem hpoint⟩
    · exact ⟨'e', by decide, hmem hexponent⟩

theorem floatPart_injective : Function.Injective floatPart := by
  have hletter : ∀ value ∈ Binary64.nonFinite, .char 'N' ∈ floatPart value ∨ .char 'I' ∈ floatPart value := by decide
  have hother : ¬ Numeral.isNumeral 'N' = true ∧ ¬ Numeral.isNumeral 'I' = true := by decide
  refine Binary64.injective_of_words (fun _ _ _ => rfl) (fun value hvalue h => ?_) (by decide)
  obtain hmem | hmem := hletter value hvalue
  · exact hother.1 (h.of_mem hmem)
  · exact hother.2 (h.of_mem hmem)

theorem mem_wholeText {c : Char} (h : .char c ∈ Numeral.wholeText n) : c.isDigit = true ∨ c = '-' := by
  obtain ⟨d, hd, hdc⟩ := List.mem_map.mp h
  cases hdc
  split at hd
  · exact (List.mem_cons.mp hd).elim .inr fun hd => .inl (Numeral.isDigit_of_mem_toDigits _ c hd)
  · exact .inl (Numeral.isDigit_of_mem_toDigits _ c hd)

/-- What is written for a float that is not whole is written for no integer, text, boolean or null. -/
theorem floatPart_ne_part {a : Scalar} (h : a.ToldByKey) : floatPart value ≠ part a := by
  intro heq
  have hforeign {c : Char} (hnumeral : Numeral.isNumeral c = false) (hword : .char c ∉ ("NaN, Infinity" : Text)) :
      .char c ∉ part a := by
    intro hmem
    obtain hc | hc := mem_floatPart (heq ▸ hmem)
    · rw [hnumeral] at hc
      cases hc
    · exact hword hc
  cases a with
  | float other => exact h
  | int n =>
    obtain ⟨c, hmark, hmem⟩ := exists_mark_mem_floatPart value
    exact hmark (mem_wholeText (heq ▸ hmem))
  | null => exact hforeign (c := 'u') (by decide) (by decide) (by decide)
  | bool flag =>
    cases flag with
    | false => exact hforeign (c := 's') (by decide) (by decide) (by decide)
    | true => exact hforeign (c := 'u') (by decide) (by decide) (by decide)
  | text chars => exact hforeign (c := '"') (by decide) (by decide) List.mem_cons_self

/-- Values are written alike in a key exactly if they agree. -/
theorem part_eq_iff {a b : Scalar} (ha : a.WithoutSurrogates) (hb : b.WithoutSurrogates) :
    part a = part b ↔ Agrees a b := by
  rw [← folded_eq_iff]
  constructor
  · intro h
    -- Folded, a float is never whole, so it cannot be written like a value of another kind.
    rw [← part_folded a, ← part_folded b] at h
    obtain hfirst | ⟨value, hfirst, hwhole⟩ := folded_cases ha
    · obtain hsecond | ⟨other, hsecond, hwhole'⟩ := folded_cases hb
      · exact part_injective hfirst hsecond h
      · rw [hsecond, part_float_of_not_whole hwhole'] at h
        exact absurd h.symm (floatPart_ne_part hfirst)
    · rw [hfirst, part_float_of_not_whole hwhole] at h
      obtain hsecond | ⟨other, hsecond, hwhole'⟩ := folded_cases hb
      · exact absurd h (floatPart_ne_part hsecond)
      · rw [hsecond, part_float_of_not_whole hwhole'] at h
        rw [hfirst, hsecond, floatPart_injective h]
  · intro h
    rw [← part_folded a, h, part_folded]

/-- Two lists of values share a key exactly if they agree place by place. -/
theorem ofValues_eq_iff_agree {a b : List Scalar} (ha : ∀ value ∈ a, value.WithoutSurrogates)
    (hb : ∀ value ∈ b, value.WithoutSurrogates) : ofValues a = ofValues b ↔ List.Forall₂ Agrees a b := by
  rw [ofValues_eq_iff, ← List.forall₂_eq_eq_eq, List.forall₂_map_left_iff, List.forall₂_map_right_iff,
    List.forall₂_iff_zip, List.forall₂_iff_zip]
  refine and_congr_right fun _ => forall_congr' fun x => forall_congr' fun y => forall_congr' fun hmem => ?_
  obtain ⟨hx, hy⟩ := List.of_mem_zip hmem
  exact part_eq_iff (ha x hx) (hb y hy)

def half : Scalar :=
  .float (.ofDecimal false 5 (-1))

def mixedValues : List Scalar :=
  [.null, .bool true, .float (.ofInt 2), half, .float (.neg .zero), .float .nan, .text "1\", \"2"]

def respelledValues : List Scalar :=
  [.null, .bool true, .int 2, half, .int 0, .float .nan, .text "1\", \"2"]

/-- The text of two quoted digits with a comma between them, and the digits. -/
def quotedPair : List Scalar :=
  [.text "1\", \"2"]

def pairOfTexts : List Scalar :=
  [.text "1", .text "2"]

theorem ofValues_eq_iff_agree_mixed :
    (∀ value ∈ mixedValues, value.WithoutSurrogates) ∧ (∀ value ∈ respelledValues, value.WithoutSurrogates) ∧
      ofValues mixedValues = ofValues respelledValues ∧ ofValues quotedPair ≠ ofValues pairOfTexts := by
  have hmixed : ∀ value ∈ mixedValues, value.WithoutSurrogates := by decide +kernel
  have hrespelled : ∀ value ∈ respelledValues, value.WithoutSurrogates := by decide +kernel
  have hagree : List.Forall₂ Agrees mixedValues respelledValues := by decide +kernel
  have hdisagree : ¬ List.Forall₂ Agrees quotedPair pairOfTexts := by decide +kernel
  exact ⟨hmixed, hrespelled, (ofValues_eq_iff_agree hmixed hrespelled).mpr hagree,
    fun heq => hdisagree ((ofValues_eq_iff_agree (by decide +kernel) (by decide +kernel)).mp heq)⟩

end Key

end SnapshotSql
