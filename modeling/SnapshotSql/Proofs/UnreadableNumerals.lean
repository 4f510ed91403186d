import SnapshotSql.Proofs.FailedRuns
import SnapshotSql.Proofs.SpelledNumbers

/-! # Numerals that cannot be read

The lexer cuts off a numeral by more characters than can be read: superscripts and other marks count as
digits but have no decimal value. A text has no tokens for this reason exactly if the lexer, lexeme by
lexeme, comes to a numeral with such a mark. All other obstacles are rejections.
-/
namespace SnapshotSql

variable {c : CodePoint} {cs rest : Text}

/-- A digit without decimal value, such as a superscript. -/
def Text.IsMark (c : CodePoint) : Prop :=
  Text.isDigit c = true ∧ Text.isDecimal c = false

namespace Numeral

/-! ## What can be read -/

theorem takeDigits_append (rest : Text) {front : Text} (h : ∀ c ∈ front, Text.isDecimal c = true) :
    ∃ digits, digits.length = front.length ∧
      takeDigits (front ++ rest) = (digits ++ (takeDigits rest).1, (takeDigits rest).2) := by
  induction front with
  | nil => exact ⟨[], rfl, rfl⟩
  | cons c front ih =>
    obtain ⟨hc, hfront⟩ := List.forall_mem_cons.mp h
    obtain ⟨digits, hlength, htaken⟩ := ih hfront
    obtain ⟨digit, hdigit⟩ := Option.isSome_iff_exists.mp hc
    refine ⟨digit :: digits, by rw [List.length_cons, hlength, List.length_cons], ?_⟩
    rw [List.cons_append, takeDigits, hdigit]
    simp only [htaken]
    rfl

/-- Digits are taken up to a character that is none. -/
theorem takeDigits_stop (rest : Text) {front : Text} (h : ∀ c ∈ front, Text.isDecimal c = true)
    (hrest : ∀ c ∈ rest.head?, Text.isDecimal c = false) :
    ∃ digits, (digits = [] ↔ front = []) ∧ takeDigits (front ++ rest) = (digits, rest) := by
  obtain ⟨digits, hlength, htaken⟩ := takeDigits_append rest h
  refine ⟨digits, by rw [← List.length_eq_zero_iff, hlength, List.length_eq_zero_iff], ?_⟩
  have hnone : takeDigits rest = ([], rest) := by
    cases rest with
    | nil => rfl
    | cons c rest =>
      have hc : Text.decimalValue? c = none := by simpa [Text.isDecimal] using hrest c rfl
      rw [takeDigits, hc]
  rw [htaken, hnone, List.append_nil]

theorem takeSign_of_isDecimal {digits : Text} (h : ∀ c ∈ digits, Text.isDecimal c = true) :
    takeSign digits = (false, digits) := by
  unfold takeSign
  split
  · exact absurd (List.forall_mem_cons.mp h).1 (by decide)
  · exact absurd (List.forall_mem_cons.mp h).1 (by decide)
  · rfl

theorem takeInt?_of_digits {sign digits : Text}
    (hsign : sign = [] ∨ sign = [.char '+'] ∨ sign = [.char '-']) (hne : digits ≠ [])
    (hdigits : ∀ c ∈ digits, Text.isDecimal c = true) :
    ∃ value, takeInt? (sign ++ digits) = some (value, []) := by
  obtain ⟨values, hempty, htaken⟩ := takeDigits_stop [] hdigits nofun
  rw [List.append_nil] at htaken
  have hvalues : values ≠ [] := fun hvalues => hne (hempty.mp hvalues)
  obtain ⟨negative, hafter⟩ : ∃ negative, takeSign (sign ++ digits) = (negative, digits) := by
    obtain rfl | rfl | rfl := hsign
    · exact ⟨false, takeSign_of_isDecimal hdigits⟩
    · exact ⟨false, rfl⟩
    · exact ⟨true, rfl⟩
  unfold takeInt?
  rw [hafter]
  dsimp only
  rw [htaken]
  cases values with
  | nil => exact absurd rfl hvalues
  | cons value values => exact ⟨_, rfl⟩

theorem takeExponent_of_isExponent {exponent : Text} (h : IsExponent exponent) :
    (takeExponent exponent).2 = [] := by
  obtain rfl | ⟨letter, sign, digits, hletter, hsign, ⟨hne, hdigits⟩, rfl⟩ := h
  · rfl
  · obtain ⟨value, htaken⟩ := takeInt?_of_digits hsign hne hdigits
    rw [takeExponent, if_pos hletter, htaken]

theorem IsExponent.head {exponent : Text} (h : IsExponent exponent) :
    ∀ c ∈ exponent.head?, Text.isDecimal c = false ∧ c ≠ .char '.' := by
  obtain rfl | ⟨letter, sign, digits, hletter, -, -, rfl⟩ := h
  · exact nofun
  · rintro c ⟨⟩
    obtain rfl | rfl := hletter
    · decide
    · decide

theorem IsExponent.isDecimal {exponent : Text} (h : IsExponent exponent) (hc : c ∈ exponent) :
    Text.isDecimal c = true ∨ c ∈ Text.ofString "eE+-" := by
  obtain rfl | ⟨letter, sign, digits, hletter, hsign, ⟨-, hdigits⟩, rfl⟩ := h
  · cases hc
  rcases List.mem_cons.mp hc with rfl | hc
  · exact Or.inr (by obtain rfl | rfl := hletter <;> decide)
  rcases List.mem_append.mp hc with hc | hc
  · refine Or.inr ?_
    obtain rfl | rfl | rfl := hsign
    · cases hc
    · rw [List.mem_singleton.mp hc]
      decide
    · rw [List.mem_singleton.mp hc]
      decide
  · exact Or.inl (hdigits c hc)

/-- A mantissa with an exponent is read to its end. -/
theorem takeUnsigned?_of_shape (negative : Bool) {point : Bool} {mantissa exponent : Text}
    (hmantissa : IsMantissa point mantissa) (hexponent : IsExponent exponent) :
    ∃ value, takeUnsigned? negative (mantissa ++ exponent) = some (value, []) := by
  obtain ⟨whole, fraction, hwhole, hfraction, hne, hshape⟩ := hmantissa
  have hend := takeExponent_of_isExponent hexponent
  cases point with
  | false =>
    obtain ⟨rfl, rfl⟩ := hshape
    obtain ⟨digits, hempty, htaken⟩ := takeDigits_stop _ hwhole fun c hc => (hexponent.head c hc).1
    have hsome : digits ≠ [] := fun hnil => hne.elim (fun h => h (hempty.mp hnil)) (fun h => h rfl)
    unfold takeUnsigned?
    rw [htaken]
    dsimp only
    split
    · next afterPoint =>
      exact absurd rfl (hexponent.head _ rfl).2
    · exact ⟨_, by rw [if_neg (by simpa using hsome), hend]⟩
  | true =>
    obtain rfl : mantissa = whole ++ .char '.' :: fraction := hshape
    have hpoint : Text.isDecimal (.char '.') = false := by decide
    obtain ⟨digits, hempty, htaken⟩ :=
      takeDigits_stop (.char '.' :: (fraction ++ exponent)) hwhole (by rintro c ⟨⟩; exact hpoint)
    obtain ⟨digits', hempty', htaken'⟩ := takeDigits_stop _ hfraction fun c hc => (hexponent.head c hc).1
    have hsome : ¬ (digits.isEmpty && digits'.isEmpty) = true := by
      simp only [Bool.and_eq_true, List.isEmpty_iff, hempty, hempty']
      exact fun h => hne.elim (fun hwhole => hwhole h.1) fun hfraction => hfraction h.2
    rw [List.append_assoc, List.cons_append]
    simp only [takeUnsigned?, htaken, htaken', if_neg hsome, hend]
    exact ⟨_, rfl⟩

end Numeral

namespace Lexer

/-! ## What the lexer cuts off -/

theorem takeMantissa_true {mantissa : Text} {point : Bool}
    (h : takeMantissa true cs = some (mantissa, point)) :
    point = true ∧ ∀ c ∈ mantissa, Text.isDigit c = true := by
  induction cs generalizing mantissa with
  | nil =>
    cases h
    exact ⟨rfl, nofun⟩
  | cons c cs ih =>
    rw [takeMantissa] at h
    split at h
    · cases h
    · split at h
      · next hdigit =>
        obtain ⟨⟨taken, point'⟩, htaken, heq⟩ := Option.map_eq_some_iff.mp h
        cases heq
        obtain ⟨hpoint, hdigits⟩ := ih htaken
        exact ⟨hpoint, List.forall_mem_cons.mpr ⟨hdigit, hdigits⟩⟩
      · cases h
        exact ⟨rfl, nofun⟩

/-- What is taken for a mantissa is digits, decimal or not, with one point if there is one. -/
theorem takeMantissa_false {mantissa : Text} {point : Bool}
    (h : takeMantissa false cs = some (mantissa, point)) : ∃ whole fraction,
      (∀ c ∈ whole ++ fraction, Text.isDigit c = true) ∧
      if point then mantissa = whole ++ .char '.' :: fraction else fraction = [] ∧ mantissa = whole := by
  induction cs generalizing mantissa with
  | nil =>
    cases h
    exact ⟨[], [], nofun, rfl, rfl⟩
  | cons c cs ih =>
    rw [takeMantissa] at h
    split at h
    · next hpoint =>
      subst hpoint
      obtain ⟨⟨fraction, point'⟩, htaken, heq⟩ := Option.map_eq_some_iff.mp h
      cases heq
      obtain ⟨rfl, hdigits⟩ := takeMantissa_true htaken
      exact ⟨[], fraction, hdigits, rfl⟩
    · split at h
      · next hdigit =>
        obtain ⟨⟨taken, point'⟩, htaken, heq⟩ := Option.map_eq_some_iff.mp h
        cases heq
        obtain ⟨whole, fraction, hdigits, hshape⟩ := ih htaken
        refine ⟨c :: whole, fraction, List.forall_mem_cons.mpr ⟨hdigit, hdigits⟩, ?_⟩
        cases point with
        | false => exact ⟨hshape.1, by rw [hshape.2]⟩
        | true => exact congrArg (c :: ·) hshape
      · cases h
        exact ⟨[], [], nofun, rfl, rfl⟩

theorem exists_digit_of_beginsNumber {mantissa : Text} {point : Bool} (hbegins : beginsNumber cs = true)
    (h : takeMantissa false cs = some (mantissa, point)) : ∃ c ∈ mantissa, Text.isDigit c = true := by
  cases cs with
  | nil => cases hbegins
  | cons c cs =>
    rw [takeMantissa] at h
    by_cases hpoint : c = .char '.'
    · subst hpoint
      obtain ⟨⟨fraction, point'⟩, htaken, heq⟩ := Option.map_eq_some_iff.mp (if_pos rfl ▸ h)
      cases heq
      cases cs with
      | nil => exact absurd hbegins (by decide)
      | cons d cs =>
        have hdigit : Text.isDigit d = true := hbegins
        rw [takeMantissa, if_neg (ne_point_of_isDigit hdigit), if_pos hdigit] at htaken
        obtain ⟨⟨digits, _⟩, -, heq⟩ := Option.map_eq_some_iff.mp htaken
        cases heq
        exact ⟨d, List.mem_cons_of_mem _ List.mem_cons_self, hdigit⟩
    · rw [beginsNumber_cons hpoint] at hbegins
      rw [if_neg hpoint, if_pos hbegins] at h
      obtain ⟨⟨digits, _⟩, -, heq⟩ := Option.map_eq_some_iff.mp h
      cases heq
      exact ⟨c, List.mem_cons_self, hbegins⟩

/-- What is taken for an exponent has digits, decimal or not. -/
theorem takeExponent_shape (cs : Text) : takeExponent cs = [] ∨
    ∃ letter sign digits, (letter = .char 'e' ∨ letter = .char 'E') ∧
      (sign = [] ∨ sign = [.char '+'] ∨ sign = [.char '-']) ∧ digits ≠ [] ∧
      (∀ c ∈ digits, Text.isDigit c = true) ∧ takeExponent cs = letter :: (sign ++ digits) := by
  have hdigits (more : Text) : ∀ c ∈ more.takeWhile Text.isDigit, Text.isDigit c = true :=
    List.all_eq_true.mp List.all_takeWhile
  unfold takeExponent
  split
  · next letter c more =>
    split
    · next hletter =>
      split
      · next hdigit =>
        exact Or.inr ⟨letter, [], c :: more.takeWhile Text.isDigit, hletter, Or.inl rfl,
          List.cons_ne_nil _ _, List.forall_mem_cons.mpr ⟨hdigit, hdigits more⟩, rfl⟩
      · split
        · next hsign =>
          have hsigns : [c] = [] ∨ [c] = [.char '+'] ∨ [c] = [.char '-'] :=
            hsign.elim (fun h => Or.inr (Or.inl (by rw [h]))) fun h => Or.inr (Or.inr (by rw [h]))
          have htaken := hdigits more
          generalize more.takeWhile Text.isDigit = digits at htaken ⊢
          cases digits with
          | nil => exact Or.inl rfl
          | cons digit digits =>
            exact Or.inr ⟨letter, [c], _, hletter, hsigns, List.cons_ne_nil _ _, htaken, rfl⟩
        · exact Or.inl rfl
    · exact Or.inl rfl
  · exact Or.inl rfl

theorem isDecimal_of_not_isMark (h : ¬ Text.IsMark c) (hdigit : Text.isDigit c = true) : Text.isDecimal c = true := by
  by_contra hother
  exact h ⟨hdigit, by simpa using hother⟩

theorem isExponent_takeExponent (hplain : ∀ c ∈ takeExponent rest, ¬ Text.IsMark c) :
    Numeral.IsExponent (takeExponent rest) := by
  rcases takeExponent_shape rest with hnone | ⟨letter, sign, digits, hletter, hsign, hne, hdigits, heq⟩
  · exact Or.inl hnone
  · refine Or.inr ⟨letter, sign, digits, hletter, hsign, ⟨hne, fun c hc => ?_⟩, heq⟩
    refine isDecimal_of_not_isMark (hplain c ?_) (hdigits c hc)
    rw [heq]
    exact List.mem_cons_of_mem _ (List.mem_append_right _ hc)

theorem isMantissa_of_takeMantissa {mantissa : Text} {point : Bool} (hbegins : beginsNumber cs = true)
    (hmantissa : takeMantissa false cs = some (mantissa, point)) (hplain : ∀ c ∈ mantissa, ¬ Text.IsMark c) :
    Numeral.IsMantissa point mantissa := by
  obtain ⟨whole, fraction, hdigits, heq⟩ := takeMantissa_false hmantissa
  have hmem : ∀ c ∈ whole ++ fraction, c ∈ mantissa := by
    intro c hc
    cases point with
    | false => rwa [heq.1, List.append_nil, ← heq.2] at hc
    | true =>
      rw [show mantissa = whole ++ .char '.' :: fraction from heq]
      exact (List.mem_append.mp hc).elim (List.mem_append_left _)
        fun hc => List.mem_append_right _ (List.mem_cons_of_mem _ hc)
  have hall : ∀ c ∈ whole ++ fraction, Text.isDecimal c = true :=
    fun c hc => isDecimal_of_not_isMark (hplain c (hmem c hc)) (hdigits c hc)
  refine ⟨whole, fraction, fun c hc => hall c (List.mem_append_left _ hc),
    fun c hc => hall c (List.mem_append_right _ hc), ?_, heq⟩
  obtain ⟨digit, hdigit, hmark⟩ := exists_digit_of_beginsNumber hbegins hmantissa
  rw [← not_and_or]
  rintro ⟨rfl, rfl⟩
  cases point with
  | false =>
    rw [heq.2] at hdigit
    cases hdigit
  | true =>
    rw [show mantissa = [.char '.'] from heq] at hdigit
    rw [List.mem_singleton.mp hdigit, isDigit_point] at hmark
    cases hmark

/-- A numeral without marks is read. -/
theorem exists_readNumber {mantissa : Text} {point : Bool} (hbegins : beginsNumber cs = true)
    (hmantissa : takeMantissa false cs = some (mantissa, point))
    (hplain : ∀ c ∈ mantissa ++ takeExponent rest, ¬ Text.IsMark c) :
    ∃ number, readNumber (point || !(takeExponent rest).isEmpty) (mantissa ++ takeExponent rest) =
      .ok number := by
  obtain ⟨hplain, hplain'⟩ := List.forall_mem_append.mp hplain
  have hexponent := isExponent_takeExponent hplain'
  have hshape := isMantissa_of_takeMantissa hbegins hmantissa hplain
  cases hfractional : point || !(takeExponent rest).isEmpty with
  | true =>
    obtain ⟨value, hread⟩ := Numeral.takeUnsigned?_of_shape false hshape hexponent
    exact ⟨.float value, by rw [readNumber, if_pos rfl, hread]⟩
  | false =>
    obtain ⟨rfl, hnone⟩ : point = false ∧ takeExponent rest = [] := by simpa using hfractional
    obtain ⟨whole, fraction, hwhole, -, -, -, rfl⟩ := hshape
    obtain ⟨digits, -, htaken⟩ := Numeral.takeDigits_stop [] hwhole (by simp)
    exact ⟨.int (Numeral.ofDigits digits),
      by rw [readNumber, if_neg Bool.false_ne_true, hnone, htaken]⟩

theorem not_isMark_of_readNumber {fractional : Bool} {number : Number}
    (h : readNumber fractional cs = .ok number) (hc : c ∈ cs) : ¬ Text.IsMark c := by
  have hdecimal (h : Text.isDecimal c = true) : ¬ Text.IsMark c := fun hmark => by
    rw [hmark.2] at h
    cases h
  unfold readNumber at h
  split at h
  · split at h
    · next value hread =>
      obtain ⟨point, mantissa, exponent, hmantissa, hexponent, rfl⟩ := Numeral.takeUnsigned?_eq hread
      rcases List.mem_append.mp hc with hmem | hmem
      · rcases hmantissa.isDecimal hmem with h | rfl
        · exact hdecimal h
        · exact fun hmark => absurd hmark.1 (by decide)
      · have hsigns : ∀ c ∈ Text.ofString "eE+-", Text.isDigit c = false := by decide
        rcases hexponent.isDecimal hmem with h | hsign
        · exact hdecimal h
        · exact fun hmark => Bool.false_ne_true ((hsigns c hsign).symm.trans hmark.1)
    · cases h
  · split at h
    · next digits htaken =>
      obtain ⟨front, rfl, -, hfront⟩ := Numeral.takeDigits_eq htaken
      rw [List.append_nil] at hc
      exact hdecimal (hfront c hc)
    · cases h

/-! ## Where the lexer stops -/

/-- A numeral begins a text, is cut off where no word goes on, and has a mark among its digits. -/
def UnreadableNumeral (chars : Text) : Prop :=
  beginsNumber chars = true ∧ ∃ mantissa point, takeMantissa false chars = some (mantissa, point) ∧
    beginsWord (chars.drop (mantissa ++ takeExponent (chars.drop mantissa.length)).length) = false ∧
    ∃ c ∈ mantissa ++ takeExponent (chars.drop mantissa.length), Text.IsMark c

theorem readNumber_eq_error {fractional : Bool} {obstacle : Obstacle}
    (h : readNumber fractional cs = .error obstacle) : obstacle = .unreadableDigits := by
  unfold readNumber at h
  split at h
  · split at h <;> cases h
    rfl
  · split at h <;> cases h
    rfl

theorem readNumber_eq_unreadable (rest : Text) {mantissa : Text} {point : Bool}
    (hbegins : beginsNumber cs = true)
    (hmantissa : takeMantissa false cs = some (mantissa, point)) :
    readNumber (point || !(takeExponent rest).isEmpty) (mantissa ++ takeExponent rest) =
        .error .unreadableDigits ↔ ∃ c ∈ mantissa ++ takeExponent rest, Text.IsMark c := by
  constructor
  · intro h
    by_contra hnone
    push Not at hnone
    obtain ⟨number, hread⟩ := exists_readNumber hbegins hmantissa hnone
    rw [hread] at h
    cases h
  · rintro ⟨c, hc, hmark⟩
    cases hread : readNumber (point || !(takeExponent rest).isEmpty) (mantissa ++ takeExponent rest) with
    | ok number => exact absurd hmark (not_isMark_of_readNumber hread hc)
    | error obstacle => rw [readNumber_eq_error hread]

theorem takeNumber_eq_unreadable (hbegins : beginsNumber cs = true) :
    takeNumber cs = .error .unreadableDigits ↔ UnreadableNumeral cs := by
  unfold takeNumber
  cases hmantissa : takeMantissa false cs with
  | none => simp [UnreadableNumeral, hmantissa]
  | some taken =>
    obtain ⟨mantissa, point⟩ := taken
    have hread := readNumber_eq_unreadable (cs.drop mantissa.length) hbegins hmantissa
    have hunreadable : UnreadableNumeral cs ↔
        beginsWord (cs.drop (mantissa ++ takeExponent (cs.drop mantissa.length)).length) = false ∧
          ∃ c ∈ mantissa ++ takeExponent (cs.drop mantissa.length), Text.IsMark c := by
      constructor
      · rintro ⟨-, _, _, htaken, hrest⟩
        cases hmantissa.symm.trans htaken
        exact hrest
      · exact fun hrest => ⟨hbegins, mantissa, point, hmantissa, hrest⟩
    rw [hunreadable, ← hread, List.length_append]
    dsimp only
    split
    · next hword => simp [hword]
    · next hword =>
      rw [Bool.not_eq_true] at hword
      simp only [hword, true_and]
      exact Check.map_eq_error

theorem not_isBlank_of_beginsNumber (h : beginsNumber (c :: cs) = true) : Text.isBlank c = false := by
  by_cases hpoint : c = .char '.'
  · rw [hpoint]
    decide
  · rw [beginsNumber_cons hpoint] at h
    exact Text.isBlank_eq_false (Text.isWordChar_of_isDigit h)

theorem takeLexeme_eq_unreadable : takeLexeme cs = .error .unreadableDigits ↔ UnreadableNumeral cs := by
  cases hbegins : beginsNumber cs with
  | true =>
    rw [← takeNumber_eq_unreadable hbegins, takeLexeme_eq_takeNumber hbegins]
    exact Check.map_eq_error
  | false =>
    refine iff_of_false (fun h => ?_) fun h => by rw [h.1] at hbegins; cases hbegins
    unfold takeLexeme at h
    split at h
    · cases h
    · split at h
      · split at h <;> cases h
      · rw [if_neg (by rw [hbegins]; exact Bool.false_ne_true)] at h
        split at h
        · cases h
        · split at h <;> cases h

/-- The lexer comes from a text to what is left of it, lexeme by lexeme. -/
inductive Reaches : Text → Text → Prop where
  | here (chars : Text) : Reaches chars chars
  | blank {c : CodePoint} {cs rest : Text} (hblank : Text.isBlank c = true) (h : Reaches cs rest) :
      Reaches (c :: cs) rest
  | lexeme {c : CodePoint} {cs rest : Text} {lexeme : Lexeme} {count : Nat}
      (hsolid : Text.isBlank c = false) (htaken : takeLexeme (c :: cs) = .ok (lexeme, count))
      (h : Reaches (cs.drop (count - 1)) rest) : Reaches (c :: cs) rest

theorem scan_drop (position skip : Nat) (cs : Text) :
    scan position skip cs = scan (position + min skip cs.length) 0 (cs.drop skip) := by
  induction cs generalizing position skip with
  | nil => simp [scan]
  | cons c cs ih =>
    cases skip with
    | zero => rw [Nat.zero_min, Nat.add_zero, List.drop_zero]
    | succ skip =>
      rw [scan, ih, List.length_cons, Nat.succ_min_succ, List.drop_succ_cons, Nat.add_assoc,
        Nat.add_comm 1]

/-- There are no tokens for want of decimal digits exactly if the lexer comes to such a numeral. -/
theorem scan_eq_unreadable {position : Nat} : scan position 0 cs = .error .unreadableDigits ↔
    ∃ rest, Reaches cs rest ∧ UnreadableNumeral rest := by
  constructor
  · intro h
    induction hlength : cs.length using Nat.strongRecOn generalizing cs position with
    | ind length ih =>
    cases cs with
    | nil => cases h
    | cons c cs =>
      rw [scan] at h
      cases hblank : Text.isBlank c with
      | true =>
        rw [if_pos hblank] at h
        obtain ⟨rest, hrest, hunreadable⟩ := ih cs.length (by rw [← hlength]; simp) h rfl
        exact ⟨rest, .blank hblank hrest, hunreadable⟩
      | false =>
        rw [hblank, if_neg Bool.false_ne_true] at h
        cases htaken : takeLexeme (c :: cs) with
        | error obstacle =>
          rw [htaken] at h
          have hobstacle : obstacle = .unreadableDigits := by
            cases obstacle <;> first | rfl | cases h
          exact ⟨_, .here _, takeLexeme_eq_unreadable.mp (hobstacle ▸ htaken)⟩
        | ok taken =>
          obtain ⟨lexeme, count⟩ := taken
          rw [htaken] at h
          have hrest := Check.map_eq_error.mp h
          rw [scan_drop] at hrest
          obtain ⟨rest, hreaches, hunreadable⟩ :=
            ih (cs.drop (count - 1)).length (by rw [← hlength, List.length_drop, List.length_cons]; omega)
              hrest rfl
          exact ⟨rest, .lexeme hblank htaken hreaches, hunreadable⟩
  · rintro ⟨rest, hreaches, hunreadable⟩
    induction hreaches generalizing position with
    | here chars =>
      cases chars with
      | nil => exact absurd hunreadable.1 Bool.false_ne_true
      | cons c cs =>
        rw [scan, not_isBlank_of_beginsNumber hunreadable.1, if_neg Bool.false_ne_true,
          takeLexeme_eq_unreadable.mpr hunreadable]
        rfl
    | blank hblank _ ih =>
      rw [scan, if_pos hblank]
      exact ih hunreadable
    | lexeme hsolid htaken _ ih =>
      rw [scan, hsolid, if_neg Bool.false_ne_true, htaken]
      exact Check.map_eq_error.mpr ((scan_drop ..).trans (ih hunreadable))

end Lexer

end SnapshotSql
