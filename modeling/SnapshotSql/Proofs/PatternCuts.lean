import SnapshotSql.Like
import SnapshotSql.Proofs.ExactKeys
import Mathlib.Data.List.Forall2

/-! # Patterns and the cuts of a text

A text fits a pattern exactly if it can be cut into pieces, one for each character of the pattern, in order:
any piece of one line for a percent sign, one character of a line for an underscore, and one character that
is the same letter for every other character. Signs that mean something elsewhere mean themselves here.
-/
namespace SnapshotSql

namespace Text

/-! ## Letters without regard to case -/

/-- The same letter but for its case: the lower-case forms agree or look alike. What has no case is the same
as itself only. -/
inductive SameLetter (p : CodePoint) : CodePoint → Prop where
  | self : SameLetter p p
  | lower {c : CodePoint} (hcase : hasCase p = true) (h : lowerChar c = lowerChar p) : SameLetter p c
  | lookAlike {c : CodePoint} {letters : List Nat} (hcase : hasCase p = true) (hletters : letters ∈ lookAlikes)
      (hp : (lowerChar p).toNat ∈ letters) (hc : (lowerChar c).toNat ∈ letters) : SameLetter p c

/-- A letter stands in one group of look-alikes at most. -/
theorem eq_of_mem_lookAlikes {letters others : List Nat} {n : Nat} (h : letters ∈ lookAlikes) (hn : n ∈ letters)
    (h' : others ∈ lookAlikes) (hn' : n ∈ others) : letters = others := by
  have hapart : ∀ letters ∈ lookAlikes, ∀ others ∈ lookAlikes, ∀ n ∈ letters, n ∈ others → letters = others := by
    decide +kernel
  exact hapart letters h others h' n hn hn'

theorem mem_map_ofNat_iff {letters : List Nat} (h : letters ∈ lookAlikes) (c : CodePoint) :
    c ∈ letters.map CodePoint.ofNat ↔ c.toNat ∈ letters := by
  have hvalid : ∀ letters ∈ lookAlikes, ∀ n ∈ letters, n < 0x110000 := by decide +kernel
  constructor
  · intro hc
    obtain ⟨n, hn, rfl⟩ := List.mem_map.mp hc
    rwa [CodePoint.toNat_ofNat (hvalid letters h n hn)]
  · intro hc
    exact List.mem_map.mpr ⟨c.toNat, hc, c.ofNat_toNat⟩

theorem mem_lookAlikesOf_iff (p c : CodePoint) :
    c ∈ lookAlikesOf p ↔ c = p ∨ ∃ letters ∈ lookAlikes, p.toNat ∈ letters ∧ c.toNat ∈ letters := by
  unfold lookAlikesOf
  split
  · next letters hfound =>
    have hletters := List.mem_of_find?_eq_some hfound
    have hp : p.toNat ∈ letters := by simpa using List.find?_some hfound
    rw [mem_map_ofNat_iff hletters]
    constructor
    · intro hc
      exact .inr ⟨letters, hletters, hp, hc⟩
    · intro hsame
      obtain rfl | ⟨others, hothers, hp', hc⟩ := hsame
      · exact hp
      · rwa [eq_of_mem_lookAlikes hletters hp hothers hp']
  · next hnone =>
    rw [List.mem_singleton]
    constructor
    · exact .inl
    · intro hsame
      obtain hself | ⟨letters, hletters, hp, -⟩ := hsame
      · exact hself
      · have hmissing := List.find?_eq_none.mp hnone letters hletters
        exact absurd (by simpa using hp) hmissing

theorem alike_iff (p c : CodePoint) : alike p c = true ↔ SameLetter p c := by
  unfold alike
  split
  · next hcase =>
    rw [List.contains_iff_mem, mem_lookAlikesOf_iff]
    constructor
    · intro h
      obtain h | ⟨letters, hletters, hp, hc⟩ := h
      · exact .lower hcase h
      · exact .lookAlike hcase hletters hp hc
    · intro h
      cases h with
      | self => exact .inl rfl
      | lower _ h => exact .inl h
      | lookAlike _ hletters hp hc => exact .inr ⟨_, hletters, hp, hc⟩
  · next hcase =>
    rw [decide_eq_true_iff]
    constructor
    · intro h
      rw [h]
      exact .self
    · intro h
      cases h with
      | self => rfl
      | lower hcase' _ => exact absurd hcase' hcase
      | lookAlike hcase' _ _ _ => exact absurd hcase' hcase

theorem sameLetter_iff_of_not_hasCase {p : CodePoint} (h : hasCase p = false) (c : CodePoint) :
    SameLetter p c ↔ c = p := by
  rw [← alike_iff, alike, h, if_neg Bool.false_ne_true, decide_eq_true_iff]
  exact eq_comm

end Text

namespace Like

variable {pattern text piece : Text} {p : CodePoint}

/-! ## Pieces -/

/-- What a character of a pattern may stand for. -/
inductive StandsFor : CodePoint → Text → Prop where
  | run {piece : Text} (h : .char '\n' ∉ piece) : StandsFor '%' piece
  | one {c : CodePoint} (h : c ≠ '\n') : StandsFor '_' [c]
  | letter {p c : CodePoint} (hrun : p ≠ '%') (hone : p ≠ '_') (h : Text.SameLetter p c) : StandsFor p [c]

theorem standsFor_run : StandsFor '%' piece ↔ .char '\n' ∉ piece := by
  constructor
  · intro h
    cases h with
    | run h => exact h
    | letter hrun _ _ => exact absurd rfl hrun
  · exact .run

/-- What is no percent sign stands for one character. -/
theorem standsFor_char (hrun : p ≠ '%') :
    StandsFor p piece ↔ ∃ c, piece = [c] ∧ (if p = '_' then decide (c ≠ '\n') else Text.alike p c) = true := by
  constructor
  · intro h
    cases h with
    | run _ => exact absurd rfl hrun
    | one h => exact ⟨_, rfl, by simpa using h⟩
    | letter _ hone h => exact ⟨_, rfl, by rwa [if_neg hone, Text.alike_iff]⟩
  · intro h
    obtain ⟨c, rfl, h⟩ := h
    by_cases hone : p = '_'
    · subst hone
      exact .one (by simpa using h)
    · rw [if_neg hone, Text.alike_iff] at h
      exact .letter hrun hone h

def signs : Text :=
  Text.ofString "\\.^$*+?\x7b\x7d[]|()-#&~ \t\n\r\x0b\x0c"

/-- They mean themselves. -/
theorem standsFor_sign (h : p ∈ signs) : StandsFor p piece ↔ piece = [p] := by
  have hplain : ∀ p ∈ signs, p ≠ .char '%' ∧ p ≠ .char '_' ∧ Text.hasCase p = false := by decide +kernel
  obtain ⟨hrun, hone, hcase⟩ := hplain p h
  constructor
  · intro hpiece
    obtain ⟨c, rfl, hc⟩ := (standsFor_char hrun).mp hpiece
    rw [if_neg hone, Text.alike_iff, Text.sameLetter_iff_of_not_hasCase hcase] at hc
    rw [hc]
  · intro hpiece
    rw [hpiece]
    exact .letter hrun hone .self

/-! ## Cuts -/

/-- The text can be cut into pieces that the characters of the pattern stand for. -/
def Cuts (pattern text : Text) : Prop :=
  ∃ pieces : List Text, List.Forall₂ StandsFor pattern pieces ∧ pieces.flatten = text

theorem cuts_nil : Cuts [] text ↔ text = [] := by
  constructor
  · intro h
    obtain ⟨pieces, hpieces, rfl⟩ := h
    cases hpieces
    rfl
  · intro h
    exact ⟨[], .nil, h.symm⟩

theorem cuts_cons :
    Cuts (p :: pattern) text ↔ ∃ piece rest, StandsFor p piece ∧ Cuts pattern rest ∧ text = piece ++ rest := by
  constructor
  · intro h
    obtain ⟨pieces, hpieces, rfl⟩ := h
    cases hpieces with
    | cons hpiece hrest => exact ⟨_, _, hpiece, ⟨_, hrest, rfl⟩, List.flatten_cons⟩
  · intro h
    obtain ⟨piece, rest, hpiece, ⟨pieces, hpieces, rfl⟩, rfl⟩ := h
    exact ⟨piece :: pieces, .cons hpiece hpieces, List.flatten_cons⟩

/-- A tail is reached behind any beginning of the text that stays within its line. -/
theorem acceptsTail_iff {accepts : Text → Bool} :
    acceptsTail accepts text = true ↔
      ∃ piece rest, .char '\n' ∉ piece ∧ accepts rest = true ∧ text = piece ++ rest := by
  induction text with
  | nil =>
    constructor
    · intro h
      exact ⟨[], [], List.not_mem_nil, h, rfl⟩
    · intro h
      obtain ⟨piece, rest, -, hrest, hcut⟩ := h
      obtain ⟨-, rfl⟩ := List.nil_eq_append_iff.mp hcut
      exact hrest
  | cons c text ih =>
    rw [acceptsTail, Bool.or_eq_true, Bool.and_eq_true, decide_eq_true_iff, ih]
    constructor
    · intro h
      obtain hhere | ⟨hc, piece, rest, hpiece, hrest, rfl⟩ := h
      · exact ⟨[], c :: text, List.not_mem_nil, hhere, rfl⟩
      · refine ⟨c :: piece, rest, ?_, hrest, rfl⟩
        rw [List.mem_cons]
        intro hmem
        obtain heq | hmem := hmem
        · exact hc heq.symm
        · exact hpiece hmem
    · intro h
      obtain ⟨piece, rest, hpiece, hrest, hcut⟩ := h
      cases piece with
      | nil =>
        rw [List.nil_append] at hcut
        exact .inl (hcut ▸ hrest)
      | cons d piece =>
        obtain ⟨rfl, rfl⟩ := List.cons.inj hcut
        rw [List.mem_cons, not_or] at hpiece
        exact .inr ⟨Ne.symm hpiece.1, piece, rest, hpiece.2, hrest, rfl⟩

/-- The first character of a pattern takes a piece off the text. -/
theorem accepts_cons_iff :
    accepts (p :: pattern) text = true ↔
      ∃ piece rest, StandsFor p piece ∧ accepts pattern rest = true ∧ text = piece ++ rest := by
  rw [accepts.eq_def]
  dsimp only
  split
  · next hrun =>
    rw [hrun, acceptsTail_iff]
    simp only [standsFor_run]
  · next hrun =>
    simp only [standsFor_char hrun]
    cases text with
    | nil =>
      constructor
      · intro h
        cases h
      · intro h
        obtain ⟨_, rest, ⟨c, rfl, -⟩, -, hcut⟩ := h
        cases hcut
    | cons c text =>
      rw [Bool.and_eq_true]
      constructor
      · intro h
        exact ⟨[c], text, ⟨c, rfl, h.1⟩, h.2, rfl⟩
      · intro h
        obtain ⟨_, rest, ⟨d, rfl, hd⟩, hrest, hcut⟩ := h
        obtain ⟨rfl, rfl⟩ := List.cons.inj hcut
        exact ⟨hd, hrest⟩

/-- A text fits a pattern exactly if it can be cut into pieces for its characters, and among these characters
the signs of regular expressions stand for themselves. -/
theorem accepts_iff_cuts (pattern text : Text) :
    (accepts pattern text = true ↔ Cuts pattern text) ∧
      ∀ p ∈ signs, ∀ piece, StandsFor p piece ↔ piece = [p] := by
  constructor
  · induction pattern generalizing text with
    | nil => rw [accepts, List.isEmpty_iff, cuts_nil]
    | cons p pattern ih =>
      rw [accepts_cons_iff, cuts_cons]
      simp only [ih]
  · intro p hp piece
    exact standsFor_sign hp

example : accepts "%(_.c)%" "(K.c)\n(k.C)" = false ∧ accepts "%(_.c)%" "(kxc)" = false := by
  decide +kernel

theorem accepts_iff_cuts_parentheses : Cuts "%(_.c)%" "a (K.C) b" ∧ .char '(' ∈ signs ∧
    ∀ piece, StandsFor '(' piece ↔ piece = [.char '('] := by
  obtain ⟨hcut, hsigns⟩ := accepts_iff_cuts "%(_.c)%" "a (K.C) b"
  have hsign : .char '(' ∈ signs := by decide
  exact ⟨hcut.mp (by decide +kernel), hsign, hsigns _ hsign⟩

end Like

end SnapshotSql
