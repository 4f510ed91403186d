import SnapshotSql.Proofs.KeyText
import SnapshotSql.Proofs.OrderedScalars
import Mathlib.Data.List.Basic

/-! # Values that a key tells exactly

A quoted text is written by its UTF-16 units, and each unit can be read back from what is written for it. So
a key tells the units of a text, and with them the text, unless surrogates stand in it that belong together
but are not joined into one character. Integers are told by their digits. A float may share its key with an
integer, so floats are left out.
-/
namespace SnapshotSql

namespace CodePoint

theorem toNat_lt (c : CodePoint) : c.toNat < 0x110000 := by
  cases c with
  | char c =>
    have hvalid : c.toNat < 0xD800 ∨ 0xDFFF < c.toNat ∧ c.toNat < 0x110000 := c.valid
    change c.toNat < 0x110000
    omega
  | surrogate index =>
    change 0xD800 + index.val < 0x110000
    omega

theorem toNat_ofNat {n : Nat} (h : n < 0x110000) : (ofNat n).toNat = n := by
  unfold ofNat
  split
  · next hsurrogate =>
    change firstSurrogate + (n - firstSurrogate) = n
    omega
  · next hchar =>
    have hvalid : n.isValidChar := by
      change ¬ (0xD800 ≤ n ∧ n < 0xD800 + 2048) at hchar
      change n < 0xD800 ∨ 0xDFFF < n ∧ n < 0x110000
      omega
    rw [toNat, Char.ofNat, dif_pos hvalid]
    rfl

end CodePoint

namespace Text

theorem ofChars_injective : Function.Injective ofChars :=
  List.map_injective_iff.mpr fun _ _ h => CodePoint.char.inj h

/-- No two surrogates that make up a character together stand side by side. -/
def Joined (text : Text) : Prop :=
  text.IsChain fun a b => CodePoint.ofPair? a.toNat b.toNat = none

instance : DecidablePred Joined := fun text =>
  inferInstanceAs (Decidable (text.IsChain fun a b => CodePoint.ofPair? a.toNat b.toNat = none))

/-! ## Units -/

/-- Where no surrogates wait to be joined, the units of a text do not go on with the second half of a pair
behind the first half. -/
private theorem not_joined {c : CodePoint} {text : Text} {high low : Nat} {units : List Nat}
    (hhigh : high < 0x400) (hlow : low < 0x400) (hc : c.toNat = 0xD800 + high)
    (htext : text.flatMap utf16Units = (0xDC00 + low) :: units) : ¬ Joined (c :: text) := by
  intro hjoined
  cases text with
  | nil => cases htext
  | cons d text =>
    have hpair := (List.isChain_cons_cons.mp hjoined).1
    have hd := d.toNat_lt
    rw [List.flatMap_cons, utf16Units] at htext
    split at htext
    · have hunit : d.toNat = 0xDC00 + low := (List.cons.inj htext).1
      rw [hc, hunit, CodePoint.ofPair?, if_pos (by omega)] at hpair
      cases hpair
    · have hunit : 0xD800 + (d.toNat - 0x10000) / 0x400 = 0xDC00 + low := (List.cons.inj htext).1
      omega

theorem units_injective {a b : Text} (ha : a.Joined) (hb : b.Joined)
    (h : a.flatMap utf16Units = b.flatMap utf16Units) : a = b := by
  have hne : ∀ (c : CodePoint) (rest : List Nat), utf16Units c ++ rest ≠ [] := by
    intro c rest
    unfold utf16Units
    split <;> simp
  induction a generalizing b with
  | nil =>
    cases b with
    | nil => rfl
    | cons d b => exact absurd h.symm (hne d _)
  | cons c a ih =>
    cases b with
    | nil => exact absurd h (hne c _)
    | cons d b =>
      have hc := c.toNat_lt
      have hd := d.toNat_lt
      have hrest : a.flatMap utf16Units = b.flatMap utf16Units → a = b := ih ha.of_cons hb.of_cons
      rw [List.flatMap_cons, List.flatMap_cons, utf16Units, utf16Units] at h
      split at h <;> split at h
      · obtain ⟨hfirst, htail⟩ := List.cons.inj h
        rw [CodePoint.toNat_injective hfirst, hrest htail]
      · obtain ⟨hfirst, htail⟩ := List.cons.inj h
        exact absurd ha (not_joined (by omega) (by omega) hfirst htail)
      · obtain ⟨hfirst, htail⟩ := List.cons.inj h
        exact absurd hb (not_joined (by omega) (by omega) hfirst.symm htail.symm)
      · obtain ⟨hfirst, htail⟩ := List.cons.inj h
        obtain ⟨hsecond, htail⟩ := List.cons.inj htail
        have hnumber : c.toNat = d.toNat := by omega
        rw [CodePoint.toNat_injective hnumber, hrest htail]

/-! ## Escapes -/

def hexValue (text : Text) : Nat :=
  text.foldl (fun value c => 16 * value + (Numeral.hexValue? c).getD 0) 0

private theorem hexValue_toDigits (n : Nat) : hexValue (ofChars (Nat.toDigits 16 n)) = n := by
  have hdigit : ∀ digit : Fin 16, Numeral.hexValue? (.char (Nat.digitChar digit)) = some digit.val := by
    decide
  induction n using Nat.strongRecOn with
  | ind n ih =>
    by_cases hlt : n < 16
    · rw [Nat.toDigits_of_lt_base hlt]
      simp [hexValue, ofChars, hdigit ⟨n, hlt⟩]
    · have hlast := hdigit ⟨n % 16, Nat.mod_lt n (by omega)⟩
      have hfront : hexValue (ofChars (Nat.toDigits 16 (n / 16))) = n / 16 := ih _ (by omega)
      rw [Nat.toDigits_of_base_le (by omega) (Nat.not_lt.mp hlt)]
      simp only [hexValue, ofChars, List.map_append, List.foldl_append] at hfront ⊢
      simp only [List.map_cons, List.map_nil, List.foldl_cons, List.foldl_nil, hfront, hlast, Option.getD_some]
      omega

theorem hexValue_hexText (width n : Nat) : hexValue (hexText width n) = n := by
  have hzeros : ∀ count : Nat, hexValue (ofChars (List.replicate count '0')) = 0 := by
    intro count
    induction count with
    | zero => rfl
    | succ count ih => exact ih
  have hdigits := hexValue_toDigits n
  have hzero := hzeros (width - (Nat.toDigits 16 n).length)
  simp only [hexText, hexValue, ofChars, List.map_append, List.foldl_append] at hdigits hzero ⊢
  rw [hzero, hdigits]

theorem length_hexText {n : Nat} (h : n < 0x10000) : (hexText 4 n).length = 4 := by
  have hle : (Nat.toDigits 16 n).length ≤ 4 := (Nat.length_toDigits_le_iff (by omega) (by omega)).mpr h
  simp only [hexText, ofChars, List.length_map, List.length_append, List.length_replicate]
  omega

def escapedUnit? : Text → Option (Nat × Text)
  | [] => none
  | c :: rest =>
      if c = 'u' then some (hexValue (rest.take 4), rest.drop 4)
      else (Json.Reader.simpleEscape? c).map fun c => (c.toNat, rest)

/-- The unit that a quoted text goes on with, and the rest of the text. -/
def unit? : Text → Option (Nat × Text)
  | [] => none
  | c :: rest => if c = '\\' then escapedUnit? rest else some (c.toNat, rest)

theorem unit?_hexText {unit : Nat} (h : unit < 0x10000) (rest : Text) :
    unit? (escaped 'u' ++ hexText 4 unit ++ rest) = some (unit, rest) := by
  have hlength := length_hexText h
  change some (hexValue ((hexText 4 unit ++ rest).take 4), (hexText 4 unit ++ rest).drop 4) = _
  rw [List.take_left' hlength, List.drop_left' hlength, hexValue_hexText]

/-- A code point that is a unit is read back from its escape. -/
theorem unit?_asciiEscape {c : CodePoint} (h : c.toNat < 0x10000) (rest : Text) :
    unit? (asciiEscape c ++ rest) = some (c.toNat, rest) := by
  unfold asciiEscape
  split
  · next hquote => rcases hquote with rfl | rfl <;> rfl
  · next hquote =>
    have hplain : c ≠ .char '\\' := fun heq => hquote (.inr heq)
    iterate 5
      split
      · next heq => rw [heq]; rfl
    split
    · exact if_neg hplain
    · simpa [utf16Units, h] using unit?_hexText h rest

theorem asciiEscape_of_le {c : CodePoint} (h : 0x7F ≤ c.toNat) :
    asciiEscape c = (utf16Units c).flatMap fun unit => escaped 'u' ++ hexText 4 unit := by
  have hne : ∀ d : Char, d.toNat < 0x7F → c ≠ .char d := by
    rintro d hd rfl
    exact absurd h (Nat.not_le.mpr hd)
  have hhigh : ¬ (0x20 ≤ c.toNat ∧ c.toNat < 0x7F) := by omega
  simp [asciiEscape, hne, hhigh]

def unitText (unit : Nat) : Text :=
  asciiEscape (.ofNat unit)

theorem asciiEscape_eq_flatMap (c : CodePoint) : asciiEscape c = (utf16Units c).flatMap unitText := by
  have hc := c.toNat_lt
  by_cases hsingle : c.toNat < 0x10000
  · simp [utf16Units, hsingle, unitText, CodePoint.ofNat_toNat]
  · have hhalf : ∀ unit, 0x7F ≤ unit → unit < 0x10000 → unitText unit = escaped 'u' ++ hexText 4 unit := by
      intro unit hle hlt
      have hnumber : (CodePoint.ofNat unit).toNat = unit := CodePoint.toNat_ofNat (by omega)
      rw [unitText, asciiEscape_of_le (by omega), utf16Units, hnumber, if_pos hlt, List.flatMap_singleton]
    rw [asciiEscape_of_le (by omega), utf16Units, if_neg hsingle]
    simp only [List.flatMap_cons, List.flatMap_nil]
    rw [hhalf _ (by omega) (by omega), hhalf _ (by omega) (by omega)]

private theorem units_eq {units others : List Nat} (hunits : ∀ unit ∈ units, unit < 0x10000)
    (hothers : ∀ unit ∈ others, unit < 0x10000) (h : units.flatMap unitText = others.flatMap unitText) :
    units = others := by
  have hread : ∀ {unit rest}, unit < 0x10000 → unit? (unitText unit ++ rest) = some (unit, rest) := by
    intro unit rest hlt
    have hnumber : (CodePoint.ofNat unit).toNat = unit := CodePoint.toNat_ofNat (by omega)
    have hcode := unit?_asciiEscape (c := .ofNat unit) (by omega) rest
    rwa [hnumber] at hcode
  induction units generalizing others with
  | nil =>
    cases others with
    | nil => rfl
    | cons other others =>
      have hfirst := congrArg unit? h
      rw [List.flatMap_cons, hread (hothers other List.mem_cons_self)] at hfirst
      cases hfirst
  | cons unit units ih =>
    obtain ⟨hunit, hrestUnits⟩ := List.forall_mem_cons.mp hunits
    cases others with
    | nil =>
      have hfirst := congrArg unit? h
      rw [List.flatMap_cons, hread hunit] at hfirst
      cases hfirst
    | cons other others =>
      obtain ⟨hother, hrestOthers⟩ := List.forall_mem_cons.mp hothers
      have hfirst := congrArg unit? h
      rw [List.flatMap_cons, List.flatMap_cons, hread hunit, hread hother] at hfirst
      obtain ⟨hsame, hrest⟩ := Prod.mk.inj (Option.some.inj hfirst)
      rw [hsame, ih hrestUnits hrestOthers hrest]

/-- Texts in which surrogates that belong together are joined are told by their quoted form. -/
theorem asciiQuoted_injective {a b : Text} (ha : a.Joined) (hb : b.Joined)
    (h : asciiQuoted a = asciiQuoted b) : a = b := by
  have hlt : ∀ text : Text, ∀ unit ∈ text.flatMap utf16Units, unit < 0x10000 := by
    intro text unit hunit
    obtain ⟨c, -, hc⟩ := List.mem_flatMap.mp hunit
    have hc' := c.toNat_lt
    unfold utf16Units at hc
    split at hc
    · rw [List.mem_singleton.mp hc]
      assumption
    · simp only [List.mem_cons, List.not_mem_nil, or_false] at hc
      omega
  have hescapes : ∀ text : Text, text.flatMap asciiEscape = (text.flatMap utf16Units).flatMap unitText := by
    intro text
    rw [List.flatMap_assoc]
    exact List.flatMap_congr fun c _ => asciiEscape_eq_flatMap c
  have hbody : a.flatMap asciiEscape = b.flatMap asciiEscape :=
    List.append_cancel_left (List.append_cancel_right h)
  rw [hescapes, hescapes] at hbody
  exact units_injective ha hb (units_eq (hlt a) (hlt b) hbody)

end Text

namespace Numeral

theorem wholeText_injective : Function.Injective wholeText := by
  have hdigits : ∀ {n : Nat} {c : Char}, c ∈ Nat.toDigits 10 n → c.isDigit = true :=
    fun hc => Nat.isDigit_of_mem_toDigits (by decide) (by decide) hc
  have hsign : ∀ (n : Nat) (chars : List Char), Nat.toDigits 10 n ≠ '-' :: chars := by
    intro n chars heq
    have hminus := hdigits (heq ▸ List.mem_cons_self)
    exact absurd hminus (by decide)
  have hmagnitude : ∀ {m n : Nat}, Nat.toDigits 10 m = Nat.toDigits 10 n → m = n := by
    intro m n heq
    rw [← Nat.ofDigitChars_ten_toDigits (n := m), heq, Nat.ofDigitChars_ten_toDigits]
  intro a b h
  have hchars := Text.ofChars_injective h
  split at hchars <;> split at hchars
  · have habs := hmagnitude (List.cons.inj hchars).2
    omega
  · exact absurd hchars.symm (hsign _ _)
  · exact absurd hchars (hsign _ _)
  · have habs := hmagnitude hchars
    omega

end Numeral

namespace Scalar

/-- A value that its key tells from all other such values: no float, and no text with surrogates that wait
to be joined. -/
def ToldByKey : Scalar → Prop
  | .float _ => False
  | .text chars => chars.Joined
  | _ => True

instance : DecidablePred ToldByKey
  | .null => inferInstanceAs (Decidable True)
  | .bool _ => inferInstanceAs (Decidable True)
  | .int _ => inferInstanceAs (Decidable True)
  | .float _ => inferInstanceAs (Decidable False)
  | .text chars => inferInstanceAs (Decidable chars.Joined)

end Scalar

namespace Key

private theorem quote_ne_word {value : Bool} {text : Text} : part (.bool value) ≠ part (.text text) := by
  cases value <;> nofun

private theorem quote_not_numeral {n : Int} {text : Text} : part (.int n) ≠ part (.text text) := by
  intro h
  obtain ⟨chars, heq, -, hchars⟩ := Numeral.wholeText_isNumeral n
  have hmem : CodePoint.char '"' ∈ Text.ofChars chars := by
    rw [← heq, show Numeral.wholeText n = Text.asciiQuoted text from h]
    exact List.mem_cons_self
  obtain ⟨c, hc, hquote⟩ := List.mem_map.mp hmem
  cases hquote
  exact absurd (hchars '"' hc) (by decide)

private theorem word_not_numeral {value : Bool} {n : Int} : part (.bool value) ≠ part (.int n) := by
  intro h
  obtain ⟨chars, heq, -, hchars⟩ := Numeral.wholeText_isNumeral n
  have hletter : ∀ letter : Char, Numeral.isNumeral letter = false → .char letter ∉ part (.bool value) := by
    intro letter hletter hmem
    rw [show part (.bool value) = Text.ofChars chars from h.trans heq] at hmem
    obtain ⟨c, hc, hcode⟩ := List.mem_map.mp hmem
    cases hcode
    rw [hchars letter hc] at hletter
    cases hletter
  cases value
  · exact hletter 'f' (by decide) (by decide)
  · exact hletter 't' (by decide) (by decide)

/-- Values that their keys tell are equal if they are written alike in a key. -/
theorem part_injective {a b : Scalar} (ha : a.ToldByKey) (hb : b.ToldByKey) (h : part a = part b) : a = b := by
  cases a with
  | null => exact ((part_eq_null_iff b).mp h.symm).symm
  | float value => exact ha.elim
  | bool value =>
    cases b with
    | null => exact (part_eq_null_iff _).mp h
    | bool other =>
      revert h
      cases value <;> cases other <;> decide
    | int n => exact absurd h word_not_numeral
    | float other => exact hb.elim
    | text chars => exact absurd h quote_ne_word
  | int n =>
    cases b with
    | null => exact (part_eq_null_iff _).mp h
    | bool other => exact absurd h.symm word_not_numeral
    | int other => rw [Numeral.wholeText_injective h]
    | float other => exact hb.elim
    | text chars => exact absurd h quote_not_numeral
  | text chars =>
    cases b with
    | null => exact (part_eq_null_iff _).mp h
    | bool other => exact absurd h.symm quote_ne_word
    | int other => exact absurd h.symm quote_not_numeral
    | float other => exact hb.elim
    | text others => rw [Text.asciiQuoted_injective ha hb h]

end Key

end SnapshotSql
