import SnapshotSql.Grammar.Statement
import SnapshotSql.Proofs.SuccessfulRuns

/-! # What parsers yield

What a parser yields is shown rule by rule along its steps. Most of it holds whatever tokens the parser is
given. That a name is not empty is known of the tokens only: the lexer makes no empty name, and a
parser leaves no tokens but those that it was given, so the next one finds them as they were made.
-/
namespace SnapshotSql

namespace Parser

variable {α β : Type} {parser : Parser α} {next : α → Parser β} {holds : α → Prop} {holds' : β → Prop}
  {tokens rest : List Token}

/-! ## One parser behind another -/

/-- Two parsers answer one behind the other where both do. -/
theorem bind_eq_ok {result : β × List Token} : (parser >>= next) tokens = .ok result ↔
    ∃ value rest, parser tokens = .ok (value, rest) ∧ next value rest = .ok result := by
  change (parser tokens >>= fun step => next step.1 step.2) = _ ↔ _
  rw [Check.bind_eq_ok]
  exact Prod.exists

theorem run_bind {value : α} (h : parser tokens = .ok (value, rest)) : (parser >>= next) tokens = next value rest := by
  change (parser tokens >>= fun step => next step.1 step.2) = _
  rw [h]
  rfl

theorem run_bind_error {error : SqlError} (h : parser tokens = .error error) :
    (parser >>= next) tokens = .error error := by
  change (parser tokens >>= fun step => next step.1 step.2) = _
  rw [h]
  rfl

theorem run_current {next : Token → Parser β} : (current >>= next) tokens = next (tokens.headD lastToken) tokens :=
  rfl

theorem run_advance {token : Token} (h : token.lexeme ≠ .endOfInput) : advance (token :: rest) = .ok ((), rest) := by
  simp [advance, h]

/-! ## Whatever the tokens -/

def Yields (parser : Parser α) (holds : α → Prop) : Prop :=
  ∀ tokens value rest, parser tokens = .ok (value, rest) → holds value

theorem Yields.bind (h : Yields parser holds) (hnext : ∀ value, holds value → Yields (next value) holds') :
    Yields (parser >>= next) holds' := by
  intro tokens value rest hrun
  obtain ⟨first, middle, hfirst, hsecond⟩ := bind_eq_ok.mp hrun
  exact hnext first (h tokens first middle hfirst) middle value rest hsecond

theorem Yields.andThen (hnext : ∀ value, Yields (next value) holds') : Yields (parser >>= next) holds' :=
  have hany : Yields parser fun _ => True := fun _ _ _ _ => trivial
  hany.bind fun value _ => hnext value

theorem yields_pure {value : α} (h : holds value) : Yields (pure value) holds := by
  rintro tokens _ _ ⟨⟩
  exact h

theorem yields_reject {error : SqlError} : Yields (reject error) holds := by
  intro tokens value rest hrun
  cases hrun

theorem yields_complain {complaint : Complaint} : Yields (complain complaint) holds :=
  Yields.andThen fun _ => yields_reject

theorem Yields.mono (h : Yields parser holds) {weaker : α → Prop}
    (hweaker : ∀ value, holds value → weaker value) : Yields parser weaker :=
  fun tokens value rest hrun => hweaker value (h tokens value rest hrun)

theorem Yields.ite {condition : Prop} [Decidable condition] {other : Parser α} (h : Yields parser holds)
    (h' : Yields other holds) : Yields (if condition then parser else other) holds := by
  split
  · exact h
  · exact h'

end Parser

/-! ## Tokens of a text -/

def Lexer.Named (tokens : List Token) : Prop :=
  ∀ token ∈ tokens, token.lexeme ≠ .name []

namespace Lexer

theorem ofWord_ne_name_nil {word : Text} (h : word ≠ []) : Lexeme.ofWord word ≠ .name [] := by
  unfold Lexeme.ofWord
  dsimp only
  split
  · exact nofun
  · simpa using h

theorem takeLexeme_ne_name_nil {chars : Text} {lexeme : Lexeme} {count : Nat}
    (h : takeLexeme chars = .ok (lexeme, count)) : lexeme ≠ .name [] := by
  unfold takeLexeme at h
  split at h
  · cases h
  · split at h
    · split at h <;> cases h
      exact nofun
    · split at h
      · obtain ⟨⟨number, taken⟩, -, heq⟩ := Check.map_eq_ok.mp h
        cases heq
        exact nofun
      · split at h
        · cases h
          exact ofWord_ne_name_nil (List.cons_ne_nil _ _)
        · split at h <;> cases h
          exact nofun

theorem named_scan {position skip : Nat} {text : Text} {tokens : List Token}
    (h : scan position skip text = .ok tokens) : Named tokens := by
  induction text generalizing position skip tokens with
  | nil =>
    cases h
    exact List.forall_mem_singleton.mpr nofun
  | cons c cs ih =>
    unfold scan at h
    split at h
    · exact ih h
    · split at h
      · exact ih h
      · split at h
        · cases h
        · next hlexeme =>
          obtain ⟨rest, hrest, rfl⟩ := Check.map_eq_ok.mp h
          exact List.forall_mem_cons.mpr ⟨takeLexeme_ne_name_nil hlexeme, ih hrest⟩

end Lexer

namespace Parser

variable {α β : Type} {parser : Parser α} {next : α → Parser β} {holds : α → Prop} {holds' : β → Prop}

/-! ## What parsers leave -/

def Consumes (parser : Parser α) : Prop :=
  ∀ tokens value rest, parser tokens = .ok (value, rest) → rest ⊆ tokens

theorem Consumes.bind (h : Consumes parser) (hnext : ∀ value, Consumes (next value)) :
    Consumes (parser >>= next) := by
  intro tokens value rest hrun
  obtain ⟨first, middle, hfirst, hsecond⟩ := bind_eq_ok.mp hrun
  exact List.Subset.trans (hnext first _ _ _ hsecond) (h _ _ _ hfirst)

theorem consumes_pure (value : α) : Consumes (pure value : Parser α) := by
  rintro tokens _ _ ⟨⟩
  exact List.Subset.refl _

theorem consumes_current : Consumes current := by
  rintro tokens _ _ ⟨⟩
  exact List.Subset.refl _

theorem consumes_following : Consumes following := by
  rintro tokens _ _ ⟨⟩
  exact List.Subset.refl _

theorem consumes_advance : Consumes advance := by
  intro tokens value rest hrun
  unfold advance at hrun
  split at hrun <;> cases hrun
  · exact List.Subset.refl _
  · split
    · exact List.Subset.refl _
    · exact List.subset_cons_self _ _

theorem Consumes.ite {condition : Prop} [Decidable condition] {other : Parser α}
    (h : Consumes parser) (h' : Consumes other) : Consumes (if condition then parser else other) := by
  split
  · exact h
  · exact h'

theorem consumes_reject (error : SqlError) : Consumes (reject error : Parser α) := by
  intro tokens value rest hrun
  cases hrun

theorem consumes_acceptIf (test : Lexeme → Bool) : Consumes (acceptIf test) :=
  consumes_current.bind fun _ => Consumes.ite (consumes_advance.bind fun _ => consumes_pure _) (consumes_pure _)

theorem consumes_complain (complaint : Complaint) : Consumes (complain complaint : Parser α) :=
  consumes_current.bind fun _ => consumes_reject _

theorem consumes_expectKeyword (word : String) : Consumes (expectKeyword word) :=
  (consumes_acceptIf _).bind fun _ => Consumes.ite (consumes_pure _) (consumes_complain _)

theorem consumes_expectWord (word : String) : Consumes (expectWord word) :=
  (consumes_acceptIf _).bind fun _ => Consumes.ite (consumes_pure _) (consumes_complain _)

/-! ## Tokens without empty names -/

/-- Whatever the parser answers on tokens that the lexer makes has the property. -/
def Reads (parser : Parser α) (holds : α → Prop) : Prop :=
  ∀ tokens value rest, Lexer.Named tokens → parser tokens = .ok (value, rest) → holds value

theorem Yields.reads (h : Yields parser holds) : Reads parser holds :=
  fun tokens value rest _ hrun => h tokens value rest hrun

/-- After a parser whose answer does not matter. -/
theorem Consumes.reads (h : Consumes parser) (hnext : ∀ value, Reads (next value) holds') :
    Reads (parser >>= next) holds' := by
  intro tokens value rest hnamed hrun
  obtain ⟨first, middle, hfirst, hsecond⟩ := bind_eq_ok.mp hrun
  refine hnext first middle value rest (fun token htoken => ?_) hsecond
  exact hnamed token (h tokens first middle hfirst htoken)

/-- Before a parser to which the tokens do not matter. -/
theorem Reads.bind (h : Reads parser holds) (hnext : ∀ value, holds value → Yields (next value) holds') :
    Reads (parser >>= next) holds' := by
  intro tokens value rest hnamed hrun
  obtain ⟨first, middle, hfirst, hsecond⟩ := bind_eq_ok.mp hrun
  exact hnext first (h tokens first middle hnamed hfirst) middle value rest hsecond

theorem Reads.ite {condition : Prop} [Decidable condition] {other : Parser α} (h : Reads parser holds)
    (h' : Reads other holds) : Reads (if condition then parser else other) holds := by
  split
  · exact h
  · exact h'

/-- The current token is one of them, or the end of input. -/
theorem reads_current {next : Token → Parser β}
    (hnext : ∀ token, token.lexeme ≠ .name [] → Reads (next token) holds') :
    Reads (current >>= next) holds' := by
  intro tokens value rest hnamed hrun
  refine hnext (tokens.headD lastToken) ?_ tokens value rest hnamed hrun
  cases tokens with
  | nil => exact nofun
  | cons token _ => exact hnamed token List.mem_cons_self

theorem reads_expectName (what : Text) : Reads (expectName what) (· ≠ []) := by
  refine reads_current fun token htoken => ?_
  split
  · next word hword =>
    refine (Yields.andThen fun _ => yields_pure ?_).reads
    rintro rfl
    exact htoken hword
  · exact yields_complain.reads

end Parser

end SnapshotSql
