import SnapshotSql.Key
import Mathlib.Data.List.Basic

/-! # A key tells its parts

The parts of a key can be read back from its text: numbers and words hold no quote, comma or bracket,
and a quoted text ends at its first quote that no backslash precedes. Hence two lists of values have
one key only if they agree part by part, and only lists without a null share the key of such a list.
-/
namespace SnapshotSql

namespace Numeral

def isNumeral (c : Char) : Bool :=
  c.isDigit || c = '-' || c = '+' || c = '.' || c = 'e'

def IsNumeral (text : Text) : Prop :=
  ∃ chars : List Char, text = Text.ofChars chars ∧ chars ≠ [] ∧ ∀ c ∈ chars, isNumeral c

private theorem isNumeral_toDigits {n : Nat} {c : Char} (h : c ∈ Nat.toDigits 10 n) :
    isNumeral c := by
  have hdigit := Nat.isDigit_of_mem_toDigits (by decide) (by decide) h
  simp [isNumeral, hdigit]

theorem wholeText_isNumeral (n : Int) : IsNumeral (wholeText n) := by
  refine ⟨_, rfl, ?_, ?_⟩
  · split <;> simp [Nat.toDigits_ne_nil]
  · intro c hc
    split at hc
    · rcases List.mem_cons.mp hc with rfl | hc
      · decide
      · exact isNumeral_toDigits hc
    · exact isNumeral_toDigits hc

end Numeral

namespace Binary64
open Numeral

private theorem positional_numeral {digits : List Char} (h : ∀ c ∈ digits, isNumeral c) (whole : Int) :
    ∀ c ∈ positional digits whole, isNumeral c := by
  intro c hc
  unfold positional at hc
  split at hc
  · simp only [List.cons_append, List.mem_cons, List.mem_append, List.mem_replicate] at hc
    rcases hc with rfl | rfl | ⟨_, rfl⟩ | hc
    · decide
    · decide
    · decide
    · exact h c hc
  · split at hc
    · simp only [List.mem_append, List.mem_replicate, List.mem_cons, List.not_mem_nil, or_false] at hc
      rcases hc with (hc | ⟨_, rfl⟩) | rfl | rfl
      · exact h c hc
      · decide
      · decide
      · decide
    · simp only [List.mem_append, List.mem_cons] at hc
      rcases hc with hc | rfl | hc
      · exact h c (List.mem_of_mem_take hc)
      · decide
      · exact h c (List.mem_of_mem_drop hc)

private theorem exponentText_numeral (e : Int) : ∀ c ∈ exponentText e, isNumeral c := by
  intro c hc
  unfold exponentText at hc
  rcases List.mem_cons.mp hc with rfl | hc
  · decide
  · rcases List.mem_cons.mp hc with rfl | hc
    · split <;> decide
    · split at hc
      · rcases List.mem_cons.mp hc with rfl | hc
        · decide
        · exact isNumeral_toDigits hc
      · exact isNumeral_toDigits hc

private theorem decimalText_numeral (d : Decimal) : ∀ c ∈ decimalText d, isNumeral c := by
  have hdigits : ∀ c ∈ ((Nat.toDigits 10 d.digits).reverse.dropWhile (· = '0')).reverse,
      isNumeral c := by
    intro c hc
    have hmem := (List.dropWhile_sublist _).mem (List.mem_reverse.mp hc)
    exact isNumeral_toDigits (List.mem_reverse.mp hmem)
  intro c hc
  unfold decimalText at hc
  dsimp only at hc
  split at hc
  · exact positional_numeral hdigits _ c hc
  · split at hc
    · next first second rest heq =>
      rw [heq] at hdigits
      simp only [List.cons_append, List.mem_cons, List.mem_append] at hc
      rcases hc with rfl | rfl | rfl | hc | hc
      · exact hdigits _ (by simp)
      · decide
      · exact hdigits _ (by simp)
      · exact hdigits _ (by simp [hc])
      · exact exponentText_numeral _ c hc
    · rcases List.mem_append.mp hc with hc | hc
      · exact hdigits c hc
      · exact exponentText_numeral _ c hc

private theorem decimalText_ne_nil (d : Decimal) : decimalText d ≠ [] := by
  unfold decimalText positional exponentText
  dsimp only
  split
  · split
    · simp
    · split <;> simp
  · split <;> simp

theorem text_isNumeral (negative : Bool) (units : Nat) (h) :
    IsNumeral (Binary64.text (.finite negative units h)) := by
  refine ⟨_, rfl, ?_, ?_⟩
  · split <;> split <;> simp [decimalText_ne_nil]
  · have hmagnitude : ∀ c ∈ if units = 0 then ['0', '.', '0'] else decimalText (shortest units),
        isNumeral c := by
      intro c hc
      split at hc
      · simp only [List.mem_cons, List.not_mem_nil, or_false] at hc
        rcases hc with rfl | rfl | rfl <;> decide
      · exact decimalText_numeral _ c hc
    intro c hc
    split at hc
    · rcases List.mem_cons.mp hc with rfl | hc
      · decide
      · exact hmagnitude c hc
    · exact hmagnitude c hc

end Binary64

/-! ## Quoted texts -/

namespace Text

/-- The text behind the first quote that no backslash precedes. -/
def afterQuote : Text → Option Text
  | [] => none
  | [c] => if c = '"' then some [] else none
  | c :: d :: rest =>
      if c = '"' then some (d :: rest)
      else if c = '\\' then afterQuote rest
      else afterQuote (d :: rest)

theorem afterQuote_quote (rest : Text) : afterQuote (.char '"' :: rest) = some rest := by
  cases rest <;> simp [afterQuote]

theorem afterQuote_escaped (c : CodePoint) (rest : Text) :
    afterQuote (.char '\\' :: c :: rest) = afterQuote rest := by
  simp [afterQuote]

private theorem mem_toDigitsCore {base fuel n : Nat} {digits : List Char} {c : Char}
    (h : c ∈ Nat.toDigitsCore base fuel n digits) : c ∈ digits ∨ ∃ k, c = Nat.digitChar k := by
  induction fuel generalizing n digits with
  | zero => exact Or.inl h
  | succ fuel ih =>
    rw [Nat.toDigitsCore] at h
    split at h
    · rcases List.mem_cons.mp h with rfl | h
      · exact Or.inr ⟨_, rfl⟩
      · exact Or.inl h
    · rcases ih h with h | h
      · rcases List.mem_cons.mp h with rfl | h
        · exact Or.inr ⟨_, rfl⟩
        · exact Or.inl h
      · exact Or.inr h

/-- A character that neither ends a quoted text nor escapes the next one. -/
def IsPlain (c : CodePoint) : Prop :=
  c ≠ '"' ∧ c ≠ '\\'

private theorem hexText_plain {width n : Nat} {c : CodePoint} (h : c ∈ hexText width n) :
    IsPlain c := by
  simp only [hexText, ofChars, List.mem_map, List.mem_append, List.mem_replicate] at h
  obtain ⟨d, ⟨_, rfl⟩ | hd, rfl⟩ := h
  · exact ⟨by decide, by decide⟩
  · rcases mem_toDigitsCore hd with hd | ⟨k, rfl⟩
    · simp at hd
    · exact ⟨by simp, by simp⟩

theorem afterQuote_plain {c : CodePoint} (h : IsPlain c) (rest : Text) :
    afterQuote (c :: rest) = afterQuote rest := by
  cases rest <;> simp [afterQuote, h.1, h.2]

private theorem afterQuote_append_plain {text : Text} (h : ∀ c ∈ text, IsPlain c) (rest : Text) :
    afterQuote (text ++ rest) = afterQuote rest := by
  induction text with
  | nil => rfl
  | cons c cs ih =>
    rw [List.cons_append, afterQuote_plain (h c (by simp)), ih fun d hd => h d (by simp [hd])]

private theorem afterQuote_units (units : List Nat) (rest : Text) :
    afterQuote ((units.flatMap fun unit => escaped 'u' ++ hexText 4 unit) ++ rest) =
      afterQuote rest := by
  induction units with
  | nil => rfl
  | cons unit units ih =>
    simp only [List.flatMap_cons, escaped, List.append_assoc, List.cons_append, List.nil_append]
    rw [afterQuote_escaped, afterQuote_append_plain fun _ => hexText_plain]
    exact ih

private theorem afterQuote_asciiEscape (c : CodePoint) (rest : Text) :
    afterQuote (asciiEscape c ++ rest) = afterQuote rest := by
  have hescaped (d : CodePoint) : afterQuote (escaped d ++ rest) = afterQuote rest :=
    afterQuote_escaped d rest
  by_cases h : c = '"' ∨ c = '\\'
  · simp only [asciiEscape, h, if_true, hescaped]
  · have hplain : IsPlain c := not_or.mp h
    unfold asciiEscape
    rw [if_neg h]
    repeat' split
    all_goals first
      | exact hescaped _
      | exact afterQuote_plain hplain rest
      | exact afterQuote_units _ rest

/-- A quoted text ends where its reader says. -/
theorem afterQuote_asciiQuoted (text rest : Text) :
    afterQuote (asciiQuoted text ++ rest).tail = some rest := by
  have hbody : afterQuote (text.flatMap asciiEscape ++ .char '"' :: rest) = some rest := by
    induction text with
    | nil => exact afterQuote_quote rest
    | cons c cs ih => rw [List.flatMap_cons, List.append_assoc, afterQuote_asciiEscape, ih]
  have heq : (asciiQuoted text ++ rest).tail = text.flatMap asciiEscape ++ .char '"' :: rest := by
    simp [asciiQuoted, ofString, ofChars]
  rw [heq, hbody]

end Text

namespace Key

/-! ## The parts of a key -/

/-- A text that can be told from what stands around it in a key without quotes. -/
def IsBare (text : Text) : Prop :=
  text ≠ [] ∧ ∀ c ∈ text, c ≠ .char '"' ∧ c ≠ .char ',' ∧ c ≠ .char ']'

instance (text : Text) : Decidable (IsBare text) :=
  inferInstanceAs (Decidable (text ≠ [] ∧ ∀ c ∈ text, c ≠ .char '"' ∧ c ≠ .char ',' ∧ c ≠ .char ']'))

/-- What follows a part of a key: a comma or the closing bracket. -/
def FollowsPart : Text → Prop
  | [] => False
  | c :: _ => c = ',' ∨ c = ']'

private theorem isBare_of_isNumeral {text : Text} (h : Numeral.IsNumeral text) : IsBare text := by
  obtain ⟨chars, rfl, hne, hchars⟩ := h
  refine ⟨by simpa [Text.ofChars] using hne, ?_⟩
  intro c hc
  obtain ⟨d, hd, rfl⟩ := List.mem_map.mp hc
  have hnumeral := hchars d hd
  refine ⟨?_, ?_, ?_⟩ <;> rintro ⟨rfl⟩ <;> revert hnumeral <;> decide

private theorem part_float (value : Binary64) :
    Numeral.IsNumeral (part (.float value)) ∨
      part (.float value) ∈ (["NaN", "Infinity", "-Infinity"] : List Text) := by
  cases value with
  | nan => exact Or.inr (by decide)
  | infinite negative => exact Or.inr (by cases negative <;> decide)
  | finite negative units h =>
    left
    simp only [part]
    split
    · exact Numeral.wholeText_isNumeral _
    · exact Binary64.text_isNumeral negative units h

private theorem isBare_part {value : Scalar} (h : ∀ text, value ≠ .text text) :
    IsBare (part value) := by
  have hwords : ∀ text ∈ (["null", "true", "false", "NaN", "Infinity", "-Infinity"] : List Text),
      IsBare text := by decide
  cases value with
  | null => exact hwords _ (by decide)
  | bool value => exact hwords _ (by cases value <;> decide)
  | int value => exact isBare_of_isNumeral (Numeral.wholeText_isNumeral value)
  | float value =>
    rcases part_float value with hnumeral | hword
    · exact isBare_of_isNumeral hnumeral
    · exact hwords _ (List.mem_of_mem_drop (i := 3) hword)
  | text value => exact absurd rfl (h value)

/-- Only null is written as the word for it: numbers have other characters and texts have quotes. -/
theorem part_eq_null_iff (value : Scalar) : part value = "null" ↔ value = .null := by
  have hnumeral : ¬ Numeral.IsNumeral "null" := by
    rintro ⟨chars, heq, -, hchars⟩
    have hmem : CodePoint.char 'n' ∈ Text.ofChars chars := heq ▸ by decide
    obtain ⟨c, hc, hcn⟩ := List.mem_map.mp hmem
    cases hcn
    exact absurd (hchars 'n' hc) (by decide)
  constructor
  · intro h
    cases value with
    | null => rfl
    | bool value => cases value <;> exact absurd h (by decide)
    | int value => exact absurd (h ▸ Numeral.wholeText_isNumeral value) hnumeral
    | float value =>
      rcases part_float value with hfloat | hword
      · exact absurd (h ▸ hfloat) hnumeral
      · rw [h] at hword
        exact absurd hword (by decide)
    | text value => cases h
  · rintro rfl
    rfl

/-! ## Reading a key back -/

private theorem bare_append_inj {u v r s : Text} (hu : ∀ c ∈ u, c ≠ .char ',' ∧ c ≠ .char ']')
    (hv : ∀ c ∈ v, c ≠ .char ',' ∧ c ≠ .char ']') (hr : FollowsPart r) (hs : FollowsPart s)
    (h : u ++ r = v ++ s) : u = v ∧ r = s := by
  have hstop : ∀ {w t x : Text} {c : CodePoint}, FollowsPart t → c ≠ .char ',' ∧ c ≠ .char ']' →
      t ≠ c :: w ++ x := by
    rintro w t x c ht hc rfl
    exact ht.elim hc.1 hc.2
  induction u generalizing v with
  | nil =>
    cases v with
    | nil => exact ⟨rfl, h⟩
    | cons d v => exact absurd h (hstop hr (hv d (by simp)))
  | cons c u ih =>
    cases v with
    | nil => exact absurd h.symm (hstop hs (hu c (by simp)))
    | cons d v =>
      obtain ⟨rfl, htail⟩ := List.cons_eq_cons.mp h
      have hu' : ∀ e ∈ u, e ≠ .char ',' ∧ e ≠ .char ']' := fun e he => hu e (by simp [he])
      have hv' : ∀ e ∈ v, e ≠ .char ',' ∧ e ≠ .char ']' := fun e he => hv e (by simp [he])
      obtain ⟨rfl, rfl⟩ := ih hu' hv' htail
      exact ⟨rfl, rfl⟩

private theorem quoted_ne_bare {text bare r s : Text} (hbare : IsBare bare) :
    Text.asciiQuoted text ++ r ≠ bare ++ s := by
  obtain ⟨hne, hchars⟩ := hbare
  cases bare with
  | nil => exact absurd rfl hne
  | cons c bare =>
    intro h
    have hc : CodePoint.char '"' = c := (List.cons_eq_cons.mp h).1
    exact (hchars c (by simp)).1 hc.symm

/-- The first part of a text and what follows it can be told apart. -/
theorem part_append_inj {a b : Scalar} {r s : Text} (hr : FollowsPart r) (hs : FollowsPart s)
    (h : part a ++ r = part b ++ s) : part a = part b ∧ r = s := by
  by_cases ha : ∃ text, a = .text text
  · obtain ⟨text, rfl⟩ := ha
    by_cases hb : ∃ other, b = .text other
    · obtain ⟨other, rfl⟩ := hb
      have hrest : some r = some s := by
        rw [← Text.afterQuote_asciiQuoted text r, ← Text.afterQuote_asciiQuoted other s]
        exact congrArg (fun t => Text.afterQuote t.tail) h
      cases hrest
      exact ⟨List.append_cancel_right h, rfl⟩
    · exact absurd h (quoted_ne_bare (isBare_part fun text heq => hb ⟨text, heq⟩))
  · have hbare := isBare_part fun text heq => ha ⟨text, heq⟩
    by_cases hb : ∃ other, b = .text other
    · obtain ⟨other, rfl⟩ := hb
      exact absurd h.symm (quoted_ne_bare hbare)
    · have hbare' := isBare_part fun text heq => hb ⟨text, heq⟩
      exact bare_append_inj (fun c hc => (hbare.2 c hc).2) (fun c hc => (hbare'.2 c hc).2) hr hs h

private def restOf (values : List Scalar) : Text :=
  (values.flatMap fun value => .char ',' :: .char ' ' :: part value) ++ [.char ']']

private theorem followsPart_restOf (values : List Scalar) : FollowsPart (restOf values) := by
  cases values with
  | nil => exact Or.inr rfl
  | cons value values => exact Or.inl rfl

private theorem ofValues_cons (value : Scalar) (values : List Scalar) :
    ofValues (value :: values) = .char '[' :: (part value ++ restOf values) := by
  have hrest (first : Text) : List.intercalate ", " (first :: values.map part) ++ ("]" : Text) =
      first ++ restOf values := by
    induction values generalizing first with
    | nil => simp [restOf, Text.ofString, Text.ofChars]
    | cons next values ih =>
      simp only [List.map_cons, List.intercalate_cons_cons, List.append_assoc, ih]
      simp [restOf, Text.ofString, Text.ofChars]
  exact congrArg (CodePoint.char '[' :: ·) (hrest (part value))

private theorem restOf_inj {a b : List Scalar} (h : restOf a = restOf b) : a.map part = b.map part := by
  induction a generalizing b with
  | nil =>
    cases b with
    | nil => rfl
    | cons w b => simp [restOf] at h
  | cons v a ih =>
    cases b with
    | nil => simp [restOf] at h
    | cons w b =>
      have hcons : part v ++ restOf a = part w ++ restOf b := by simpa [restOf] using h
      obtain ⟨hpart, hrest⟩ := part_append_inj (followsPart_restOf a) (followsPart_restOf b) hcons
      rw [List.map_cons, List.map_cons, hpart, ih hrest]

private theorem part_ne_bracket (value : Scalar) (rest : Text) : part value ++ rest ≠ [.char ']'] := by
  by_cases h : ∃ text, value = .text text
  · obtain ⟨text, rfl⟩ := h
    intro heq
    have hquote : CodePoint.char '"' = .char ']' := (List.cons_eq_cons.mp heq).1
    exact absurd hquote (by decide)
  · obtain ⟨hne, hchars⟩ := isBare_part fun text heq => h ⟨text, heq⟩
    cases hpart : part value with
    | nil => exact absurd hpart hne
    | cons c cs =>
      intro heq
      have hc : c = .char ']' := (List.cons_eq_cons.mp heq).1
      exact (hchars c (by simp [hpart])).2.2 hc

/-- Lists of values share a key only if they agree part by part. -/
theorem ofValues_eq_iff (a b : List Scalar) : ofValues a = ofValues b ↔ a.map part = b.map part := by
  constructor
  · intro h
    cases a with
    | nil =>
      cases b with
      | nil => rfl
      | cons w b =>
        rw [ofValues_cons] at h
        exact absurd (List.cons_eq_cons.mp h).2.symm (part_ne_bracket w _)
    | cons v a =>
      cases b with
      | nil =>
        rw [ofValues_cons] at h
        exact absurd (List.cons_eq_cons.mp h).2 (part_ne_bracket v _)
      | cons w b =>
        rw [ofValues_cons, ofValues_cons] at h
        obtain ⟨hpart, hrest⟩ := part_append_inj (followsPart_restOf a) (followsPart_restOf b)
          (List.cons_eq_cons.mp h).2
        rw [List.map_cons, List.map_cons, hpart, restOf_inj hrest]
  · intro h
    simp only [ofValues, h]

/-- A key tells whether a null is in it. -/
theorem hasNull_eq_of_ofValues_eq {a b : List Scalar} (h : ofValues a = ofValues b) :
    hasNull a = hasNull b := by
  have hnull (values : List Scalar) : hasNull values = true ↔ ("null" : Text) ∈ values.map part := by
    simp only [hasNull, List.any_eq_true, List.mem_map, part_eq_null_iff]
    constructor
    · rintro ⟨value, hmem, hisNull⟩
      cases value <;> first | exact ⟨_, hmem, rfl⟩ | simp [Scalar.isNull] at hisNull
    · rintro ⟨value, hmem, rfl⟩
      exact ⟨_, hmem, rfl⟩
  rw [Bool.eq_iff_iff, hnull, hnull, (ofValues_eq_iff a b).mp h]

end Key

end SnapshotSql
