import SnapshotSql.Proofs.KeyText
import SnapshotSql.Proofs.SpelledLexemes

/-! # Spelled numbers are read back

A numeral is a mantissa and perhaps an exponent. The lexer cuts these off a text by their characters and has
them read afterwards, as an integer or as a float. A float that is read back from its text in this way is so
without its sign, and it is never written as an integer.
-/
namespace SnapshotSql

variable {c : CodePoint} {cs rest : Text}

/-! ## Digits -/

namespace Numeral

/-- Decimal digits are taken up to where they end. -/
theorem takeDigits_eq {digits : List Nat} (h : takeDigits cs = (digits, rest)) :
    ∃ front, cs = front ++ rest ∧ front.length = digits.length ∧ ∀ c ∈ front, Text.isDecimal c = true := by
  induction cs generalizing digits with
  | nil =>
    cases h
    exact ⟨[], rfl, rfl, nofun⟩
  | cons c cs ih =>
    rw [takeDigits] at h
    split at h
    · cases h
      exact ⟨[], rfl, rfl, nofun⟩
    · next digit hdigit =>
      cases htaken : takeDigits cs with
      | mk taken tail =>
      rw [htaken] at h
      cases h
      obtain ⟨front, heq, hlength, hfront⟩ := ih htaken
      refine ⟨c :: front, by rw [List.cons_append, ← heq], by rw [List.length_cons, hlength, List.length_cons], ?_⟩
      exact List.forall_mem_cons.mpr ⟨by rw [Text.isDecimal, hdigit]; rfl, hfront⟩

theorem decimalValue?_digit {c : Char} (h : c.isDigit = true) :
    Text.decimalValue? (.char c) = some (c.toNat - '0'.toNat) := by
  obtain ⟨hzero, hnine⟩ : 48 ≤ c.toNat ∧ c.toNat ≤ 57 := Char.isDigit_iff_toNat.mp h
  rw [Text.decimalValue?, Text.decimalZeros, List.find?_cons_of_pos]
  · rfl
  · rw [Bool.and_eq_true]
    exact ⟨decide_eq_true hzero, decide_eq_true (Nat.lt_succ_of_le hnine)⟩

theorem takeDigits_ofChars {chars : List Char} (h : ∀ c ∈ chars, c.isDigit = true) :
    takeDigits (Text.ofChars chars) = (chars.map fun c => c.toNat - '0'.toNat, []) := by
  induction chars with
  | nil => rfl
  | cons c chars ih =>
    obtain ⟨hc, hchars⟩ := List.forall_mem_cons.mp h
    rw [Text.ofChars, List.map_cons, takeDigits, decimalValue?_digit hc]
    change (_ :: (takeDigits (Text.ofChars chars)).1, (takeDigits (Text.ofChars chars)).2) = _
    rw [ih hchars]
    rfl

theorem ofDigits_toDigits (n : Nat) : ofDigits ((Nat.toDigits 10 n).map fun c => c.toNat - '0'.toNat) = n := by
  rw [ofDigits, List.foldl_map]
  exact Nat.ofDigitChars_ten_toDigits

/-- An exponent, if there is one: the letter e, perhaps a sign, and digits. -/
def IsExponent (text : Text) : Prop :=
  text = [] ∨ ∃ letter sign digits, (letter = .char 'e' ∨ letter = .char 'E') ∧
    (sign = [] ∨ sign = [.char '+'] ∨ sign = [.char '-']) ∧
    (digits ≠ [] ∧ ∀ c ∈ digits, Text.isDecimal c = true) ∧ text = letter :: (sign ++ digits)

/-- Digits, and a point among or beside them if the flag is set. -/
def IsMantissa (point : Bool) (text : Text) : Prop :=
  ∃ whole fraction, (∀ c ∈ whole, Text.isDecimal c = true) ∧ (∀ c ∈ fraction, Text.isDecimal c = true) ∧
    (whole ≠ [] ∨ fraction ≠ []) ∧
    if point then text = whole ++ .char '.' :: fraction else fraction = [] ∧ text = whole

theorem isDigit_of_mem_toDigits (value : Nat) : ∀ c ∈ Nat.toDigits 10 value, c.isDigit = true :=
  fun _ hc => Nat.isDigit_of_mem_toDigits (by decide) (by decide) hc

/-- The digits of a number are a mantissa without point. -/
theorem isMantissa_toDigits (value : Nat) : IsMantissa false (Text.ofChars (Nat.toDigits 10 value)) := by
  refine ⟨_, [], fun c hc => ?_, List.forall_mem_nil _, .inl ?_, rfl, rfl⟩
  · obtain ⟨digit, hdigit, rfl⟩ := List.mem_map.mp hc
    rw [Text.isDecimal, decimalValue?_digit (isDigit_of_mem_toDigits value digit hdigit)]
    rfl
  · simp [Text.ofChars]

theorem not_blank_of_isDecimal (h : Text.isDecimal c = true) : Text.isBlank c = false :=
  Text.isBlank_eq_false (Text.isWordChar_of_isDigit (Text.isDigit_of_isDecimal h))

theorem IsExponent.not_blank {text : Text} (h : IsExponent text) (hc : c ∈ text) : Text.isBlank c = false := by
  obtain rfl | ⟨letter, sign, digits, hletter, hsign, ⟨-, hdigits⟩, rfl⟩ := h
  · cases hc
  rcases List.mem_cons.mp hc with rfl | hc
  · obtain rfl | rfl := hletter <;> decide
  rcases List.mem_append.mp hc with hc | hc
  · obtain rfl | rfl | rfl := hsign
    · cases hc
    · obtain rfl := List.mem_singleton.mp hc
      decide
    · obtain rfl := List.mem_singleton.mp hc
      decide
  · exact not_blank_of_isDecimal (hdigits c hc)

theorem IsMantissa.ne_nil {point : Bool} {text : Text} (h : IsMantissa point text) : text ≠ [] := by
  obtain ⟨whole, fraction, -, -, hne, h⟩ := h
  cases point with
  | false =>
    rw [h.2]
    exact hne.resolve_right fun hfraction => hfraction h.1
  | true =>
    rw [show text = whole ++ .char '.' :: fraction from h]
    exact List.append_ne_nil_of_right_ne_nil _ (List.cons_ne_nil _ _)

theorem IsMantissa.isDecimal {point : Bool} {text : Text} (h : IsMantissa point text) (hc : c ∈ text) :
    Text.isDecimal c = true ∨ c = .char '.' := by
  obtain ⟨whole, fraction, hwhole, hfraction, -, h⟩ := h
  cases point with
  | false =>
    rw [h.2] at hc
    exact .inl (hwhole c hc)
  | true =>
    rw [show text = whole ++ .char '.' :: fraction from h] at hc
    rcases List.mem_append.mp hc with hc | hc
    · exact .inl (hwhole c hc)
    rcases List.mem_cons.mp hc with rfl | hc
    · exact .inr rfl
    · exact .inl (hfraction c hc)

theorem IsMantissa.not_blank {point : Bool} {text : Text} (h : IsMantissa point text) (hc : c ∈ text) :
    Text.isBlank c = false := by
  obtain hdecimal | rfl := h.isDecimal hc
  · exact not_blank_of_isDecimal hdecimal
  · decide

theorem takeSign_eq (cs : Text) :
    ∃ sign, (sign = [] ∨ sign = [.char '+'] ∨ sign = [.char '-']) ∧ cs = sign ++ (takeSign cs).2 := by
  unfold takeSign
  split
  · exact ⟨_, .inr (.inl rfl), rfl⟩
  · exact ⟨_, .inr (.inr rfl), rfl⟩
  · exact ⟨_, .inl rfl, rfl⟩

theorem takeInt?_eq {value : Int} (h : takeInt? cs = some (value, rest)) :
    ∃ sign digits, (sign = [] ∨ sign = [.char '+'] ∨ sign = [.char '-']) ∧
      (digits ≠ [] ∧ ∀ c ∈ digits, Text.isDecimal c = true) ∧ cs = sign ++ digits ++ rest := by
  obtain ⟨sign, hsign, heq⟩ := takeSign_eq cs
  unfold takeInt? at h
  generalize takeSign cs = taken at h heq
  obtain ⟨negative, afterSign⟩ := taken
  dsimp only at h heq
  split at h
  · cases h
  · next digits tail hne htaken =>
    cases h
    obtain ⟨front, hfront, hlength, hdecimal⟩ := takeDigits_eq htaken
    refine ⟨sign, front, hsign, ⟨?_, hdecimal⟩, by rw [heq, hfront, List.append_assoc]⟩
    rintro rfl
    exact hne (List.eq_nil_of_length_eq_zero hlength.symm)

theorem takeExponent_eq (h : (takeExponent cs).2 = []) : IsExponent cs := by
  unfold takeExponent at h
  split at h
  · next c tail =>
    split at h
    · next hletter =>
      split at h
      · next value more htaken =>
        obtain rfl : more = [] := h
        obtain ⟨sign, digits, hsign, hdigits, rfl⟩ := takeInt?_eq htaken
        exact .inr ⟨c, sign, digits, hletter, hsign, hdigits, by rw [List.append_nil]⟩
      · cases h
    · cases h
  · exact .inl rfl

/-- A numeral that is read to its end. -/
theorem takeUnsigned?_eq {negative : Bool} {value : Binary64} (h : takeUnsigned? negative cs = some (value, [])) :
    ∃ point mantissa exponent, IsMantissa point mantissa ∧ IsExponent exponent ∧ cs = mantissa ++ exponent := by
  unfold takeUnsigned? at h
  cases htaken : takeDigits cs with
  | mk digits tail =>
  obtain ⟨whole, rfl, hlength, hwhole⟩ := takeDigits_eq htaken
  rw [htaken] at h
  dsimp only at h
  split at h
  · next afterPoint =>
    cases hfraction : takeDigits afterPoint with
    | mk fractionDigits more =>
    obtain ⟨fraction, rfl, hlength', hfraction'⟩ := takeDigits_eq hfraction
    rw [hfraction] at h
    by_cases hempty : (digits.isEmpty && fractionDigits.isEmpty) = true
    · rw [if_pos hempty, if_pos hempty] at h
      cases h
    · rw [if_neg hempty, if_neg hempty] at h
      have hexponent := takeExponent_eq (congrArg Prod.snd (Option.some.inj h))
      refine ⟨true, _, more, ⟨whole, fraction, hwhole, hfraction', ?_, rfl⟩, hexponent, by simp⟩
      rw [← not_and_or]
      rintro ⟨rfl, rfl⟩
      rw [List.eq_nil_of_length_eq_zero hlength.symm, List.eq_nil_of_length_eq_zero hlength'.symm] at hempty
      exact hempty rfl
  · by_cases hempty : digits.isEmpty = true
    · rw [if_pos (by rw [hempty]; rfl)] at h
      cases h
    · rw [if_neg (by simpa using hempty)] at h
      have hexponent := takeExponent_eq (congrArg Prod.snd (Option.some.inj h))
      refine ⟨false, whole, tail, ⟨whole, [], hwhole, nofun, .inl ?_, rfl, rfl⟩, hexponent, rfl⟩
      rintro rfl
      rw [List.eq_nil_of_length_eq_zero hlength.symm] at hempty
      exact hempty rfl

end Numeral

/-! ## Texts of floats -/

namespace Binary64

theorem ofDecimal_true (digits : Nat) (exponent : Int) :
    ofDecimal true digits exponent = (ofDecimal false digits exponent).neg := by
  have hquotient : ∀ num den, ofQuotient true num den = (ofQuotient false num den).neg := by
    intro num den
    unfold ofQuotient
    split <;> rfl
  unfold ofDecimal
  split
  · rfl
  · split
    · rfl
    · split
      · rfl
      · split <;> exact hquotient _ _

theorem neg_twice (value : Binary64) : value.neg.neg = value := by
  cases value <;> simp [neg]

def magnitude (units : Nat) : List Char :=
  if units = 0 then ['0', '.', '0'] else decimalText (shortest units)

theorem text_finite (negative : Bool) {units : Nat} (h : Representable units) :
    text (.finite negative units h) =
      Text.ofChars (if negative then '-' :: magnitude units else magnitude units) :=
  rfl

/-- A finite number is written with a point or an exponent. -/
theorem marked_magnitude (units : Nat) : '.' ∈ magnitude units ∨ 'e' ∈ magnitude units := by
  have hdecimal : ∀ d : Decimal, '.' ∈ decimalText d ∨ 'e' ∈ decimalText d := by
    intro d
    unfold decimalText
    dsimp only
    split
    · unfold positional
      split
      · simp
      · split <;> simp
    · split <;> simp [exponentText]
  unfold magnitude
  split
  · simp
  · exact hdecimal _

theorem mem_positional {digits : List Char} {whole : Int} {c : Char} (h : c ∈ positional digits whole) :
    c ∈ digits ∨ c = '0' ∨ c = '.' := by
  unfold positional at h
  split at h
  · simp only [List.cons_append, List.mem_cons, List.mem_append, List.mem_replicate] at h
    rcases h with h | h | ⟨-, h⟩ | h
    · exact .inr (.inl h)
    · exact .inr (.inr h)
    · exact .inr (.inl h)
    · exact .inl h
  · split at h
    · simp only [List.mem_append, List.mem_replicate, List.mem_cons, List.not_mem_nil, or_false] at h
      rcases h with (h | ⟨-, h⟩) | h | h
      · exact .inl h
      · exact .inr (.inl h)
      · exact .inr (.inr h)
      · exact .inr (.inl h)
    · simp only [List.mem_append, List.mem_cons] at h
      rcases h with h | h | h
      · exact .inl (List.mem_of_mem_take h)
      · exact .inr (.inr h)
      · exact .inl (List.mem_of_mem_drop h)

/-- Only a digit, a point or the exponent can come first, never a sign. -/
theorem head_decimalText (d : Decimal) {c : Char} (h : c ∈ (decimalText d).head?) : c ≠ '+' ∧ c ≠ '-' := by
  have hdigits : ∀ c ∈ ((Nat.toDigits 10 d.digits).reverse.dropWhile (· = '0')).reverse, c ≠ '+' ∧ c ≠ '-' := by
    intro c hc
    have hmem := List.mem_reverse.mp ((List.dropWhile_sublist _).mem (List.mem_reverse.mp hc))
    have hdigit := Nat.isDigit_of_mem_toDigits (by decide) (by decide) hmem
    constructor <;> rintro rfl <;> cases hdigit
  unfold decimalText at h
  dsimp only at h
  generalize ((Nat.toDigits 10 d.digits).reverse.dropWhile (· = '0')).reverse = digits at h hdigits
  split at h
  · rcases mem_positional (List.mem_of_mem_head? h) with hmem | rfl | rfl
    · exact hdigits c hmem
    · decide
    · decide
  · split at h
    · cases h
      exact hdigits _ List.mem_cons_self
    · cases digits with
      | nil =>
        cases h
        decide
      | cons digit digits =>
        cases h
        exact hdigits _ List.mem_cons_self

end Binary64

namespace Numeral
open Binary64

theorem takeUnsigned?_true (cs : Text) :
    takeUnsigned? true cs = (takeUnsigned? false cs).map fun taken => (taken.1.neg, taken.2) := by
  simp only [takeUnsigned?, ofDecimal_true]
  split
  · split <;> rfl
  · split <;> rfl

theorem takeSign_text (negative : Bool) {units : Nat} (h : Representable units) :
    takeSign (text (.finite negative units h)) = (negative, Text.ofChars (magnitude units)) := by
  rw [text_finite]
  cases negative with
  | true => rfl
  | false =>
    have hhead : ∀ c ∈ (magnitude units).head?, c ≠ '+' ∧ c ≠ '-' := by
      unfold magnitude
      split
      · rintro c ⟨⟩
        decide
      · exact fun c hc => head_decimalText _ hc
    rw [if_neg Bool.false_ne_true]
    generalize magnitude units = chars at hhead ⊢
    cases chars with
    | nil => rfl
    | cons c chars =>
      obtain ⟨hplus, hminus⟩ := hhead c rfl
      unfold takeSign
      split
      · next heq => cases heq; exact absurd rfl hplus
      · next heq => cases heq; exact absurd rfl hminus
      · rfl

/-- A float that is read back from its text is read back without its sign. -/
theorem takeUnsigned?_of_takeFloat? {negative : Bool} {units : Nat} {h : Representable units}
    (hread : takeFloat? (text (.finite negative units h)) = some (.finite negative units h, [])) :
    takeUnsigned? false (text (.finite false units h)) = some (.finite false units h, []) := by
  rw [takeFloat?, takeSign_text] at hread
  dsimp only at hread
  split at hread
  · cases hread
  · cases negative with
    | false => exact hread
    | true =>
      rw [takeUnsigned?_true] at hread
      obtain ⟨⟨value, rest⟩, htaken, heq⟩ := Option.map_eq_some_iff.mp hread
      obtain ⟨hvalue, rfl⟩ := Prod.mk.inj heq
      have hneg : value.neg.neg = .finite false units h := congrArg neg hvalue
      rw [neg_twice] at hneg
      rw [text_finite, if_neg Bool.false_ne_true, htaken, hneg]

end Numeral

namespace Lexer

theorem isDigit_point : Text.isDigit (.char '.') = false := by
  decide

theorem ne_point_of_isDigit (h : Text.isDigit c = true) : c ≠ .char '.' := by
  rintro rfl
  rw [isDigit_point] at h
  cases h

theorem takeMantissa_append {front : Text} (hfront : ∀ c ∈ front, Text.isDigit c = true) (point : Bool) :
    takeMantissa point (front ++ rest) =
      (takeMantissa point rest).map fun taken => (front ++ taken.1, taken.2) := by
  induction front with
  | nil => simp
  | cons c front ih =>
    obtain ⟨hc, hfront⟩ := List.forall_mem_cons.mp hfront
    rw [List.cons_append, takeMantissa, if_neg (ne_point_of_isDigit hc), if_pos hc, ih hfront, Option.map_map]
    rfl

/-- A number ends here: neither a digit nor a point goes on. -/
theorem takeMantissa_nil (point : Bool) (h : ∀ c ∈ rest.head?, c ≠ .char '.' ∧ Text.isDigit c = false) :
    takeMantissa point rest = some ([], point) := by
  cases rest with
  | nil => rfl
  | cons c rest =>
    obtain ⟨hpoint, hdigit⟩ := h c rfl
    rw [takeMantissa, if_neg hpoint, hdigit]
    rfl

theorem isDigit_of_forall {front : Text} (h : ∀ c ∈ front, Text.isDecimal c = true) :
    ∀ c ∈ front, Text.isDigit c = true :=
  fun c hc => Text.isDigit_of_isDecimal (h c hc)

/-- Behind a numeral neither a digit nor a word goes on, and behind a mantissa alone no point. -/
structure NumeralEnds (exponent rest : Text) : Prop where
  noDigit : ∀ c ∈ rest.head?, Text.isDigit c = false
  noPoint : exponent = [] → rest.head? ≠ some (.char '.')
  noWord : beginsWord rest = false

theorem numeralEnds_of_boundary (h : Boundary rest) (exponent : Text) : NumeralEnds exponent rest := by
  have hstops : ∀ c ∈ stops, c ≠ .char '.' ∧ Text.isDigit c = false := by decide
  exact ⟨fun c hc => (hstops c (h c hc)).2, fun _ hc => (hstops _ (h _ hc)).1 rfl, beginsWord_of_boundary h⟩

theorem takeMantissa_of_isMantissa {point : Bool} {mantissa : Text} (h : Numeral.IsMantissa point mantissa)
    (hrest : ∀ c ∈ rest.head?, c ≠ .char '.' ∧ Text.isDigit c = false) :
    takeMantissa false (mantissa ++ rest) = some (mantissa, point) := by
  obtain ⟨whole, fraction, hwhole, hfraction, -, h⟩ := h
  cases point with
  | false =>
    obtain ⟨-, rfl⟩ := h
    rw [takeMantissa_append (isDigit_of_forall hwhole), takeMantissa_nil false hrest]
    simp
  | true =>
    obtain rfl : mantissa = whole ++ .char '.' :: fraction := h
    rw [List.append_assoc, takeMantissa_append (isDigit_of_forall hwhole), List.cons_append, takeMantissa,
      if_pos rfl, if_neg Bool.false_ne_true, takeMantissa_append (isDigit_of_forall hfraction),
      takeMantissa_nil true hrest]
    simp

theorem takeWhile_isDigit {digits : Text} (h : ∀ c ∈ digits, Text.isDecimal c = true)
    (hrest : ∀ c ∈ rest.head?, Text.isDigit c = false) : (digits ++ rest).takeWhile Text.isDigit = digits := by
  rw [List.takeWhile_append_of_pos (isDigit_of_forall h)]
  cases rest with
  | nil => exact List.append_nil _
  | cons c rest => rw [List.takeWhile_cons_of_neg (by simp [hrest c rfl]), List.append_nil]

theorem takeExponent_nil (h : beginsWord rest = false) : takeExponent rest = [] := by
  match rest, h with
  | [], _ => rfl
  | [_], _ => rfl
  | c :: d :: rest, h =>
    have hletters : Text.isLetter (.char 'e') = true ∧ Text.isLetter (.char 'E') = true := by decide
    rw [takeExponent, if_neg]
    rintro (rfl | rfl)
    · simp [beginsWord, hletters.1] at h
    · simp [beginsWord, hletters.2] at h

theorem takeExponent_of_isExponent {exponent : Text} (h : Numeral.IsExponent exponent)
    (hrest : NumeralEnds exponent rest) : takeExponent (exponent ++ rest) = exponent := by
  obtain rfl | ⟨letter, sign, digits, hletter, hsign, ⟨hne, hdigits⟩, rfl⟩ := h
  · exact takeExponent_nil hrest.noWord
  obtain ⟨digit, digits, rfl⟩ := List.exists_cons_of_ne_nil hne
  obtain ⟨hdigit, hmore⟩ := List.forall_mem_cons.mp hdigits
  have htaken := takeWhile_isDigit hdigits hrest.noDigit
  have hsigned : ∀ {mark : CodePoint}, mark = .char '+' ∨ mark = .char '-' → Text.isDigit mark = false →
      takeExponent (letter :: mark :: (digit :: digits ++ rest)) = letter :: mark :: digit :: digits := by
    intro mark hmark hother
    rw [takeExponent, if_pos hletter, hother, if_neg Bool.false_ne_true, if_pos hmark, htaken]
  obtain rfl | rfl | rfl := hsign
  · change takeExponent (letter :: digit :: (digits ++ rest)) = _
    rw [takeExponent, if_pos hletter, if_pos (Text.isDigit_of_isDecimal hdigit), takeWhile_isDigit hmore hrest.noDigit]
    rfl
  · exact hsigned (.inl rfl) (by decide)
  · exact hsigned (.inr rfl) (by decide)

/-- Nothing that stands behind a mantissa makes it longer. -/
theorem stop_of_isExponent {exponent : Text} (h : Numeral.IsExponent exponent) (hrest : NumeralEnds exponent rest) :
    ∀ c ∈ (exponent ++ rest).head?, c ≠ .char '.' ∧ Text.isDigit c = false := by
  obtain rfl | ⟨letter, sign, digits, hletter, hsign, hdigits, rfl⟩ := h
  · intro c hc
    refine ⟨?_, hrest.noDigit c hc⟩
    rintro rfl
    exact hrest.noPoint rfl hc
  · rintro c ⟨⟩
    obtain rfl | rfl := hletter
    · decide
    · decide

/-- A numeral is taken as a whole. -/
theorem takeNumber_of_shape {point : Bool} {mantissa exponent : Text} {number : Number}
    (hmantissa : Numeral.IsMantissa point mantissa) (hexponent : Numeral.IsExponent exponent)
    (hrest : NumeralEnds exponent rest)
    (hread : readNumber (point || !exponent.isEmpty) (mantissa ++ exponent) = .ok number) :
    takeNumber (mantissa ++ exponent ++ rest) = .ok (number, (mantissa ++ exponent).length) := by
  have htaken := takeMantissa_of_isMantissa hmantissa (stop_of_isExponent hexponent hrest)
  rw [takeNumber, List.append_assoc, htaken]
  simp only [List.drop_left, takeExponent_of_isExponent hexponent hrest]
  rw [← List.append_assoc, ← List.length_append, List.drop_left, hrest.noWord,
    if_neg Bool.false_ne_true, hread]
  rfl

theorem beginsNumber_of_isMantissa {point : Bool} {mantissa : Text} (h : Numeral.IsMantissa point mantissa) :
    beginsNumber (mantissa ++ rest) = true := by
  obtain ⟨whole, fraction, hwhole, hfraction, hne, h⟩ := h
  have hdigit : ∀ {c : CodePoint} {cs : Text}, Text.isDecimal c = true → beginsNumber (c :: cs) = true := by
    intro c cs hc
    have hc := Text.isDigit_of_isDecimal hc
    rw [beginsNumber_cons (ne_point_of_isDigit hc), hc]
  cases whole with
  | nil =>
    obtain ⟨c, cs, rfl⟩ := List.exists_cons_of_ne_nil (hne.resolve_left fun h => h rfl)
    cases point with
    | false => cases h.1
    | true =>
      obtain rfl : mantissa = .char '.' :: c :: cs := h
      exact Text.isDigit_of_isDecimal (List.forall_mem_cons.mp hfraction).1
  | cons c cs =>
    have hc := (List.forall_mem_cons.mp hwhole).1
    cases point with
    | false =>
      obtain rfl : mantissa = c :: cs := h.2
      exact hdigit hc
    | true =>
      obtain rfl : mantissa = c :: cs ++ .char '.' :: fraction := h
      exact hdigit hc

theorem takeLexeme_eq_takeNumber (h : beginsNumber cs = true) :
    takeLexeme cs = (takeNumber cs).map fun (number, count) => (.number number, count) := by
  cases cs with
  | nil => cases h
  | cons c cs =>
    have hquote : ¬(c = '\'' ∨ c = '"') := by
      rintro (rfl | rfl)
      · rw [beginsNumber_cons (by decide)] at h
        revert h
        decide
      · rw [beginsNumber_cons (by decide)] at h
        revert h
        decide
    rw [takeLexeme, if_neg hquote, if_pos h]

theorem takeLexeme_of_beginsNumber {number : Number} {count : Nat} (h : beginsNumber cs = true)
    (htaken : takeNumber cs = .ok (number, count)) : takeLexeme cs = .ok (.number number, count) := by
  rw [takeLexeme_eq_takeNumber h, htaken]
  rfl

theorem solid_numeral {point : Bool} {mantissa exponent : Text} (hmantissa : Numeral.IsMantissa point mantissa)
    (hexponent : Numeral.IsExponent exponent) : Text.Solid (mantissa ++ exponent) := by
  apply Text.solid_of_forall (List.append_ne_nil_of_left_ne_nil hmantissa.ne_nil _)
  intro c hc
  exact (List.mem_append.mp hc).elim hmantissa.not_blank hexponent.not_blank

theorem spelled_number {number : Number} {point : Bool} {mantissa exponent : Text}
    (hspelling : (Lexeme.number number).spelling = mantissa ++ exponent)
    (hmantissa : Numeral.IsMantissa point mantissa) (hexponent : Numeral.IsExponent exponent)
    (hread : readNumber (point || !exponent.isEmpty) (mantissa ++ exponent) = .ok number) :
    (Lexeme.number number).Spelled := by
  refine ⟨?_, fun rest hrest => ?_⟩
  · rw [hspelling]
    exact solid_numeral hmantissa hexponent
  · rw [hspelling]
    have hends := numeralEnds_of_boundary hrest exponent
    refine takeLexeme_of_beginsNumber ?_ (takeNumber_of_shape hmantissa hexponent hends hread)
    rw [List.append_assoc]
    exact beginsNumber_of_isMantissa hmantissa

theorem spelled_int (value : Nat) : (Lexeme.number (.int value)).Spelled := by
  have hspelling : (Lexeme.number (.int value)).spelling = Text.ofChars (Nat.toDigits 10 value) ++ [] := by
    rw [Lexeme.spelling, Numeral.wholeText, if_neg (by omega), Int.natAbs_natCast, List.append_nil]
  refine spelled_number hspelling (Numeral.isMantissa_toDigits value) (.inl rfl) ?_
  simpa [readNumber, Numeral.takeDigits_ofChars (Numeral.isDigit_of_mem_toDigits value)] using
    congrArg (Nat.cast : Nat → Int) (Numeral.ofDigits_toDigits value)

theorem spelled_float {units : Nat} {h : Binary64.Representable units}
    (hread : Numeral.takeUnsigned? false (Binary64.text (.finite false units h)) =
      some (.finite false units h, [])) :
    (Lexeme.number (.float (.finite false units h))).Spelled := by
  obtain ⟨point, mantissa, exponent, hmantissa, hexponent, htext⟩ := Numeral.takeUnsigned?_eq hread
  refine spelled_number htext hmantissa hexponent ?_
  have hfractional : (point || !exponent.isEmpty) = true := by
    by_contra hplain
    obtain ⟨rfl, rfl⟩ : point = false ∧ exponent = [] := by simpa using hplain
    obtain ⟨whole, fraction, hwhole, -, -, -, rfl⟩ := hmantissa
    rw [List.append_nil] at htext
    have hdecimal : ∀ c ∈ Binary64.magnitude units, Text.isDecimal (.char c) = true := by
      intro c hc
      apply hwhole
      rw [← htext]
      exact List.mem_map_of_mem hc
    rcases Binary64.marked_magnitude units with hmark | hmark
    · exact absurd (hdecimal _ hmark) (by decide)
    · exact absurd (hdecimal _ hmark) (by decide)
  rw [hfractional, ← htext, readNumber, if_pos rfl, hread]

end Lexer

end SnapshotSql
