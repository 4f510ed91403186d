import SnapshotSql.Proofs.ParserRules
import SnapshotSql.Proofs.ReadQueries

/-! # The shape of queries that are read

The grammar answers queries whose items have labels and whose conditions are chains from the left, whatever
the tokens are. The names of such a query are names among the tokens, or of aggregate functions. Both are
shown together along the steps of the parsers, which leave tokens whose names are still among the words.
-/
namespace SnapshotSql

def NamesIn (words : Text → Prop) (lexemes : List Lexeme) : Prop :=
  ∀ name, .name name ∈ lexemes → words name

section
variable {words : Text → Prop} {lexemes lexemes' : List Lexeme}

@[simp] theorem namesIn_nil : NamesIn words [] :=
  nofun

@[simp] theorem namesIn_cons {lexeme : Lexeme} :
    NamesIn words (lexeme :: lexemes) ↔ (∀ name, lexeme = .name name → words name) ∧ NamesIn words lexemes := by
  constructor
  · intro h
    exact ⟨fun name heq => h name (heq ▸ List.mem_cons_self),
      fun name hmem => h name (List.mem_cons_of_mem _ hmem)⟩
  · rintro ⟨h, h'⟩ name hmem
    rcases List.mem_cons.mp hmem with heq | hmem
    · exact h name heq.symm
    · exact h' name hmem

@[simp] theorem namesIn_append :
    NamesIn words (lexemes ++ lexemes') ↔ NamesIn words lexemes ∧ NamesIn words lexemes' := by
  simp only [NamesIn, List.mem_append, or_imp, forall_and]

theorem namesIn_flatMap {α : Type} {lexemesOf : α → List Lexeme} {items : List α}
    (h : ∀ item ∈ items, NamesIn words (lexemesOf item)) : NamesIn words (items.flatMap lexemesOf) := by
  intro name hmem
  obtain ⟨item, hitem, hname⟩ := List.mem_flatMap.mp hmem
  exact h item hitem name hname

theorem namesIn_separated {α : Type} {lexemesOf : α → List Lexeme} {items : List α}
    (h : ∀ item ∈ items, NamesIn words (lexemesOf item)) : NamesIn words (separated lexemesOf items) := by
  cases items with
  | nil => exact namesIn_nil
  | cons item items =>
    obtain ⟨hitem, hitems⟩ := List.forall_mem_cons.mp h
    exact namesIn_append.mpr ⟨hitem, namesIn_flatMap fun other hother => by simpa using hitems other hother⟩

@[simp] theorem namesIn_wordIf (word : String) (present : Bool) : NamesIn words (wordIf word present) := by
  cases present <;> simp [wordIf]

@[simp] theorem namesIn_scalar (value : Scalar) : NamesIn words value.lexemes := by
  cases value with
  | int value => rw [Scalar.lexemes]; split <;> simp
  | float value =>
    cases value with
    | finite negative units h => cases negative <;> simp [Scalar.lexemes]
    | _ => simp [Scalar.lexemes]
  | _ => simp [Scalar.lexemes]

theorem namesIn_boundLexemes (limit : Option Nat) (offset : Nat) : NamesIn words (boundLexemes limit offset) := by
  unfold boundLexemes
  refine namesIn_append.mpr ⟨?_, ?_⟩
  · cases limit <;> simp
  · split <;> simp

end

namespace Parser
open Condition

variable {α β : Type} {words : Text → Prop} {parser : Parser α} {next : α → Parser β} {holds : α → Prop}
  {holds' : β → Prop}

/-- Given tokens whose names are among the words, the parser leaves such tokens and what it answers has the
property. -/
def Takes (words : Text → Prop) (parser : Parser α) (holds : α → Prop) : Prop :=
  ∀ tokens value rest, NamesIn words (tokens.map (·.lexeme)) → parser tokens = .ok (value, rest) →
    holds value ∧ NamesIn words (rest.map (·.lexeme))

theorem Takes.bind (h : Takes words parser holds) (hnext : ∀ value, holds value → Takes words (next value) holds') :
    Takes words (parser >>= next) holds' := by
  intro tokens value rest hnamed hrun
  obtain ⟨first, middle, hfirst, hsecond⟩ := bind_eq_ok.mp hrun
  obtain ⟨hvalue, hrest⟩ := h tokens first middle hnamed hfirst
  exact hnext first hvalue middle value rest hrest hsecond

theorem takes_pure {value : α} (h : holds value) : Takes words (pure value) holds := by
  rintro tokens _ _ hnamed ⟨⟩
  exact ⟨h, hnamed⟩

theorem takes_reject {error : SqlError} : Takes words (reject error) holds := by
  intro tokens value rest _ hrun
  cases hrun

theorem Takes.mono (h : Takes words parser holds) {weaker : α → Prop}
    (hweaker : ∀ value, holds value → weaker value) : Takes words parser weaker :=
  fun tokens value rest hnamed hrun => (h tokens value rest hnamed hrun).imp_left (hweaker value)

theorem Takes.ite {condition : Prop} [Decidable condition] {other : Parser α} (h : Takes words parser holds)
    (h' : Takes words other holds) : Takes words (if condition then parser else other) holds := by
  split
  · exact h
  · exact h'

theorem takes_get {next : List Token → Parser β} (hnext : ∀ tokens, Takes words (next tokens) holds') :
    Takes words (get >>= next) holds' :=
  fun tokens value rest hnamed hrun => hnext tokens tokens value rest hnamed hrun

theorem takes_current {next : Token → Parser β}
    (hnext : ∀ token, (∀ name, token.lexeme = .name name → words name) → Takes words (next token) holds') :
    Takes words (current >>= next) holds' := by
  intro tokens value rest hnamed hrun
  refine hnext (tokens.headD lastToken) ?_ tokens value rest hnamed hrun
  cases tokens with
  | nil => exact nofun
  | cons token _ => exact (namesIn_cons.mp hnamed).1

theorem takes_following {next : Token → Parser β} (hnext : ∀ token, Takes words (next token) holds') :
    Takes words (following >>= next) holds' :=
  fun tokens value rest hnamed hrun => hnext _ tokens value rest hnamed hrun

theorem takes_complain {complaint : Complaint} : Takes words (complain complaint) holds :=
  takes_current fun _ _ => takes_reject

/-- Nothing is read after a complaint or a refusal. -/
theorem takes_rejected {error : SqlError} {next : α → Parser β} : Takes words (reject error >>= next) holds' := by
  intro tokens value rest _ hrun
  cases hrun

theorem takes_complained {complaint : Complaint} {next : α → Parser β} :
    Takes words (complain complaint >>= next) holds' := by
  intro tokens value rest _ hrun
  cases hrun

theorem takes_advance {next : Unit → Parser β} (hnext : Takes words (next ()) holds') :
    Takes words (advance >>= next) holds' := by
  have hadvance : Takes words advance fun _ => True := by
    intro tokens value rest hnamed hrun
    unfold advance at hrun
    split at hrun <;> cases hrun
    · exact ⟨trivial, hnamed⟩
    · split
      · exact ⟨trivial, hnamed⟩
      · exact ⟨trivial, (namesIn_cons.mp hnamed).2⟩
  exact hadvance.bind fun _ _ => hnext

theorem takes_acceptIf (test : Lexeme → Bool) : Takes words (acceptIf test) fun _ => True :=
  takes_current fun _ _ => Takes.ite (takes_advance (takes_pure trivial)) (takes_pure trivial)

theorem takes_accept {test : Lexeme → Bool} {next : Bool → Parser β}
    (hnext : ∀ accepted, Takes words (next accepted) holds') :
    Takes words (acceptIf test >>= next) holds' :=
  (takes_acceptIf test).bind fun accepted _ => hnext accepted

/-- A word or a sign that must be there. -/
theorem takes_expect {test : Lexeme → Bool} {complaint : Complaint} {next : Unit → Parser β}
    (hnext : Takes words (next ()) holds') :
    Takes words ((acceptIf test >>= fun accepted => if accepted then pure () else complain complaint) >>= next)
      holds' := by
  have hexpect : Takes words
      (acceptIf test >>= fun accepted => if accepted then pure () else complain complaint) fun _ => True :=
    takes_accept fun _ => Takes.ite (takes_pure trivial) takes_complain
  exact hexpect.bind fun _ _ => hnext

theorem takes_expectName (what : Text) : Takes words (expectName what) words := by
  refine takes_current fun token htoken => ?_
  split
  · next name hname => exact takes_advance (takes_pure (htoken name hname))
  · exact takes_complain

theorem takes_moreItems (h : Takes words parser holds) (fuel : Nat) :
    Takes words (moreItems parser fuel) fun items => ∀ item ∈ items, holds item := by
  induction fuel with
  | zero => exact takes_pure nofun
  | succ fuel ih =>
    refine takes_accept fun _ => Takes.ite (h.bind fun item hitem => ih.bind fun items hitems => ?_) ?_
    · exact takes_pure (List.forall_mem_cons.mpr ⟨hitem, hitems⟩)
    · exact takes_pure nofun

theorem takes_commaSeparated (h : Takes words parser holds) :
    Takes words (commaSeparated parser) fun items => items ≠ [] ∧ ∀ item ∈ items, holds item :=
  h.bind fun _ hitem => takes_get fun _ => (takes_moreItems h _).bind fun _ hitems =>
    takes_pure ⟨List.cons_ne_nil _ _, List.forall_mem_cons.mpr ⟨hitem, hitems⟩⟩

/-! ## Conditions -/

theorem takes_atSubquery {next : Bool → Parser β} (hnext : ∀ found, Takes words (next found) holds') :
    Takes words (atSubquery >>= next) holds' := by
  have hfound : Takes words atSubquery fun _ => True :=
    takes_current fun _ _ => takes_following fun _ => takes_pure trivial
  exact hfound.bind fun found _ => hnext found

theorem takes_operand : Takes words operand fun operand => NamesIn words operand.lexemes := by
  have hliteral : ∀ value : Scalar, NamesIn words (Operand.literal value).lexemes := namesIn_scalar
  refine takes_current fun token htoken => ?_
  split
  · next name hname =>
    refine takes_advance (takes_current fun _ _ => Takes.ite takes_reject (takes_pure ?_))
    simpa [Operand.lexemes] using htoken name hname
  · exact takes_advance (takes_pure (hliteral _))
  · exact takes_advance (takes_pure (hliteral _))
  · exact takes_advance (takes_pure (hliteral _))
  · exact takes_advance (takes_pure (hliteral _))
  · exact takes_advance (takes_pure (hliteral _))
  · refine takes_following fun _ => ?_
    split
    · exact takes_advance (takes_advance (takes_pure (hliteral _)))
    · exact takes_complain
  · refine takes_following fun _ => ?_
    split
    · exact takes_advance (takes_advance (takes_pure (hliteral _)))
    · exact takes_complain
  · exact takes_atSubquery fun _ => Takes.ite takes_reject takes_complain

theorem takes_inItems : Takes words inItems fun items => ∀ item ∈ items, NamesIn words item.lexemes := by
  refine takes_expect (takes_current fun _ _ => Takes.ite takes_reject (takes_current fun _ _ => ?_))
  have hnone : Takes words (pure []) fun items => ∀ item ∈ items, NamesIn words (Operand.lexemes item) :=
    takes_pure (List.forall_mem_nil _)
  have hsome : Takes words (commaSeparated operand) fun items => ∀ item ∈ items, NamesIn words item.lexemes :=
    (takes_commaSeparated takes_operand).mono fun _ hitems => hitems.2
  exact Takes.ite (hnone.bind fun _ hitems => takes_expect (takes_pure hitems))
    (hsome.bind fun _ hitems => takes_expect (takes_pure hitems))

theorem takes_comparison :
    Takes words comparison fun condition => condition.IsTest ∧ NamesIn words condition.lexemes := by
  refine takes_operand.bind fun left hleft => takes_accept fun _ => Takes.ite ?_ (takes_accept fun negated => ?_)
  · refine takes_accept fun negated => takes_accept fun _ => Takes.ite (takes_pure ⟨trivial, ?_⟩) takes_complain
    simpa [Condition.lexemes] using hleft
  refine takes_accept fun _ => Takes.ite (takes_current fun _ _ => ?_) (takes_accept fun _ => Takes.ite ?_ ?_)
  · split
    · exact takes_advance (takes_pure ⟨trivial, by simpa [Condition.lexemes] using hleft⟩)
    · exact takes_complain
  · refine takes_inItems.bind fun items hitems => takes_pure ⟨trivial, ?_⟩
    simpa [Condition.lexemes] using ⟨hleft, namesIn_separated hitems⟩
  refine takes_accept fun _ => Takes.ite ?_ (Takes.ite takes_complain (takes_current fun _ _ => ?_))
  · refine takes_operand.bind fun low hlow => takes_accept fun _ => Takes.ite ?_ takes_complain
    refine takes_operand.bind fun high hhigh => takes_pure ⟨trivial, ?_⟩
    simpa [Condition.lexemes] using ⟨hleft, hlow, hhigh⟩
  split
  · split
    · refine takes_advance (takes_operand.bind fun right hright => takes_pure ⟨trivial, ?_⟩)
      simpa [Condition.lexemes] using ⟨hleft, hright⟩
    · exact takes_complain
  · exact takes_complain

section
variable {join : Condition → Condition → Condition} {word : String} {item : Condition → Prop}
  {parser : Parser Condition}

theorem takes_chainTail (h : Takes words parser item) (fuel : Nat) (first : Condition) :
    Takes words (chainTail word join parser fuel first) fun condition =>
      ∃ rest : List Condition, (∀ part ∈ rest, item part) ∧ condition = rest.foldl join first := by
  induction fuel generalizing first with
  | zero => exact takes_pure ⟨[], nofun, rfl⟩
  | succ fuel ih =>
    refine takes_accept fun _ => Takes.ite ?_ (takes_pure ⟨[], nofun, rfl⟩)
    refine h.bind fun right hright => (ih _).mono ?_
    rintro _ ⟨rest, hrest, rfl⟩
    exact ⟨right :: rest, List.forall_mem_cons.mpr ⟨hright, hrest⟩, rfl⟩

theorem takes_chain (hjoin : JoinedBy word join)
    (h : Takes words parser fun part => item part ∧ NamesIn words part.lexemes) :
    Takes words (chain word join parser) fun condition =>
      Chained join item condition ∧ NamesIn words condition.lexemes := by
  refine h.bind fun first hfirst => takes_get fun _ => (takes_chainTail h _ first).mono ?_
  rintro _ ⟨rest, hrest, rfl⟩
  have hparts : ∀ part ∈ first :: rest, item part ∧ NamesIn words part.lexemes :=
    List.forall_mem_cons.mpr ⟨hfirst, hrest⟩
  refine ⟨⟨first, rest, fun part hpart => (hparts part hpart).1, rfl⟩, ?_⟩
  rw [lexemes_foldl hjoin]
  exact namesIn_append.mpr ⟨hfirst.2, namesIn_flatMap fun part hpart => by simpa using (hrest part hpart).2⟩

end

theorem takes_conditionWithin (depth : Nat) :
    Takes words (conditionWithin depth) fun condition =>
      Within depth condition ∧ NamesIn words condition.lexemes := by
  induction depth with
  | zero => exact takes_comparison
  | succ depth ih =>
    refine takes_chain joinedBy_or (takes_chain joinedBy_and (takes_current fun _ _ => Takes.ite ?_ ?_))
    · refine takes_atSubquery fun _ => Takes.ite takes_reject (takes_advance (ih.bind fun inner hinner => ?_))
      refine takes_expect (takes_pure ⟨.inr ⟨inner, hinner.1, rfl⟩, ?_⟩)
      simpa [Condition.lexemes] using hinner.2
    · exact takes_comparison.mono fun condition hcondition => ⟨.inl hcondition.1, hcondition.2⟩

theorem takes_condition : Takes words Parser.condition fun condition =>
    (∃ depth, Within depth condition) ∧ NamesIn words condition.lexemes :=
  takes_get fun tokens => (takes_conditionWithin tokens.length).mono fun _ h => ⟨⟨_, h.1⟩, h.2⟩

/-! ## Selected items -/

theorem labelOf_ne_nil {name : Text} (h : name ≠ []) : SourceText.labelOf name ≠ [] := by
  obtain ⟨c, cs, rfl⟩ := List.exists_cons_of_ne_nil h
  rw [SourceText.labelOf, SourceText.labelOf.collapse]
  split
  · exact List.cons_ne_nil _ _
  · exact List.cons_ne_nil _ _

theorem takes_itemLabel {default : Text} (h : default ≠ []) : Takes words (itemLabel default) (· ≠ []) := by
  have hlabel : ∀ chosen : Text,
      Takes words (pure (if chosen = Text.ofString "" then default else chosen)) (· ≠ []) := by
    intro chosen
    refine takes_pure ?_
    split
    · exact h
    · assumption
  refine takes_accept fun _ => Takes.ite (takes_current fun _ _ => ?_) (takes_current fun _ _ => ?_)
  · split
    · exact takes_advance (hlabel _)
    · exact takes_advance (hlabel _)
    · exact takes_complained
  · split
    · exact takes_advance (hlabel _)
    · exact hlabel _

theorem takes_aggregateArgument (function : AggregateFunction) :
    Takes words (aggregateArgument function) fun argument => argument = "*" ∨ words argument := by
  refine takes_current fun token htoken => ?_
  split
  · exact takes_advance (takes_pure (.inl rfl))
  · next name hname => exact takes_advance (takes_pure (.inr (htoken name hname)))
  · exact takes_reject
  · exact takes_complain

section
variable (hwords : ∀ word, words word → word ≠ [])
  (hfunctions : ∀ function : AggregateFunction, words function.name)
include hwords hfunctions

theorem takes_selectItem : Takes words selectItem fun item => item.Labelled ∧ NamesIn words item.lexemes := by
  refine takes_current fun token htoken => ?_
  split
  · exact takes_advance (takes_pure ⟨trivial, by simp [SelectItem.lexemes]⟩)
  · next name hname =>
    have hname := htoken name hname
    refine takes_following fun _ => ?_
    split
    · exact takes_advance (takes_advance (takes_pure ⟨trivial, by simpa [SelectItem.lexemes] using hname⟩))
    · split
      · next function _ =>
        refine takes_advance (takes_advance ((takes_aggregateArgument function).bind fun argument hargument => ?_))
        have hlabel : function.label ≠ [] := by cases function <;> nofun
        refine takes_expect ((takes_itemLabel hlabel).bind fun label hlabel => takes_pure ⟨hlabel, ?_⟩)
        have hfunction := hfunctions function
        by_cases hstar : argument = "*"
        · simpa [SelectItem.lexemes, hstar] using hfunction
        · simpa [SelectItem.lexemes, hstar] using ⟨hfunction, hargument.resolve_left hstar⟩
      · exact takes_complain
    · refine takes_advance ((takes_itemLabel (labelOf_ne_nil (hwords name hname))).bind fun label hlabel => ?_)
      exact takes_pure ⟨hlabel, by simpa [SelectItem.lexemes] using hname⟩
  · exact takes_complain

end

/-! ## Clauses -/

theorem takes_orderItem : Takes words orderItem fun item => NamesIn words item.lexemes := by
  refine (takes_expectName _).bind fun name hname => takes_accept fun _ => Takes.ite (takes_pure ?_) ?_
  · simpa [OrderItem.lexemes] using hname
  · exact takes_accept fun _ => takes_pure (by simpa [OrderItem.lexemes] using hname)

theorem takes_count (clause : Text) : Takes words (count clause) fun _ => True := by
  refine takes_current fun _ _ => ?_
  split
  · exact takes_advance (takes_pure trivial)
  · exact takes_complain

theorem takes_bounds : Takes words bounds fun _ => True := by
  refine takes_accept fun _ => Takes.ite ((takes_count _).bind fun _ _ => takes_accept fun _ => Takes.ite ?_ ?_) ?_
  · exact (takes_count _).bind fun _ _ => takes_pure trivial
  · refine takes_accept fun _ => Takes.ite ?_ (takes_pure trivial)
    exact (takes_count _).bind fun _ _ => takes_pure trivial
  · refine takes_accept fun _ => Takes.ite ?_ (takes_pure trivial)
    exact (takes_count _).bind fun _ _ => takes_pure trivial

theorem takes_conditionAfter (word : String) : Takes words (conditionAfter word) fun condition? =>
    Parsable condition? ∧ NamesIn words (conditionLexemes word condition?) := by
  refine takes_accept fun _ => Takes.ite (takes_condition.bind fun condition hcondition => takes_pure ⟨?_, ?_⟩) ?_
  · rintro _ ⟨⟩
    exact hcondition.1
  · simpa [conditionLexemes] using hcondition.2
  · exact takes_pure ⟨nofun, namesIn_nil⟩

theorem takes_listAfter (word : String) {lexemesOf : α → List Lexeme}
    (h : Takes words parser fun item => NamesIn words (lexemesOf item)) :
    Takes words (listAfter word parser) fun items => NamesIn words (listLexemes word lexemesOf items) := by
  refine takes_accept fun _ => Takes.ite (takes_expect ((takes_commaSeparated h).mono ?_)) (takes_pure namesIn_nil)
  rintro items ⟨hitems, hnamed⟩
  obtain ⟨item, items, rfl⟩ := List.exists_cons_of_ne_nil hitems
  simpa [listLexemes] using namesIn_separated hnamed

theorem takes_tableAlias : Takes words tableAlias fun alternative => NamesIn words (aliasLexemes alternative) := by
  refine takes_accept fun _ => Takes.ite ?_ (takes_current fun token htoken => ?_)
  · exact (takes_expectName _).bind fun name hname => takes_pure (by simpa [aliasLexemes] using hname)
  · split
    · next name hname => exact takes_advance (takes_pure (by simpa [aliasLexemes] using htoken name hname))
    · exact takes_pure namesIn_nil

theorem takes_select (hwords : ∀ word, words word → word ≠ [])
    (hfunctions : ∀ function : AggregateFunction, words function.name) :
    Takes words select fun query => query.Regular ∧ NamesIn words query.lexemes := by
  refine takes_expect (takes_accept fun distinct => ?_)
  refine (takes_commaSeparated (takes_selectItem hwords hfunctions)).bind fun items ⟨hitems, hitem⟩ => ?_
  refine takes_accept fun _ => Takes.ite (takes_get fun _ => Takes.ite takes_rejected ?_) takes_complained
  refine takes_current fun _ _ => Takes.ite takes_rejected ((takes_expectName _).bind fun table htable => ?_)
  refine takes_tableAlias.bind fun alternative halternative => takes_current fun _ _ => ?_
  refine Takes.ite takes_rejected ((takes_conditionAfter _).bind fun condition? hcondition => ?_)
  have hgroupingName : Takes words (expectName "GROUP BY column") fun name => NamesIn words [.name name] :=
    (takes_expectName _).mono fun name hname => by simpa using hname
  refine (takes_listAfter _ hgroupingName).bind fun groupBy hgroupBy => ?_
  refine (takes_conditionAfter _).bind fun having? hhaving => ?_
  refine (takes_listAfter _ takes_orderItem).bind fun orderBy horderBy => takes_bounds.bind fun bounds _ => ?_
  refine takes_pure ⟨⟨hitems, fun item hmem => (hitem item hmem).1, hcondition.1, hhaving.1⟩, ?_⟩
  have hlist := namesIn_separated fun item hmem => (hitem item hmem).2
  simp [Select.lexemes, Select.clauses, hlist, htable, halternative, hcondition.2, hgroupBy, hhaving.2, horderBy,
    namesIn_boundLexemes]

theorem takes_delete : Takes words delete fun deletion =>
    Parsable deletion.condition ∧ NamesIn words deletion.lexemes := by
  refine takes_expect (takes_expect ((takes_expectName _).bind fun table htable => ?_))
  refine (takes_conditionAfter "WHERE").bind fun condition? hcondition => takes_pure ⟨hcondition.1, ?_⟩
  simpa [Delete.lexemes] using ⟨htable, hcondition.2⟩

/-! ## Statements -/

/-- Given tokens whose names are among the words, what the parser answers has the property. -/
def Shows (words : Text → Prop) (parser : Parser α) (holds : α → Prop) : Prop :=
  ∀ tokens value rest, NamesIn words (tokens.map (·.lexeme)) → parser tokens = .ok (value, rest) → holds value

theorem Yields.shows (h : Yields parser holds) : Shows words parser holds :=
  fun tokens value rest _ hrun => h tokens value rest hrun

/-- Before a parser to which the tokens do not matter. -/
theorem Shows.bind (h : Shows words parser holds) (hnext : ∀ value, holds value → Yields (next value) holds') :
    Shows words (parser >>= next) holds' := by
  intro tokens value rest hnamed hrun
  obtain ⟨first, middle, hfirst, hsecond⟩ := bind_eq_ok.mp hrun
  exact hnext first (h tokens first middle hnamed hfirst) middle value rest hsecond

theorem Takes.shows (h : Takes words parser holds) : Shows words parser holds :=
  fun tokens value rest hnamed hrun => (h tokens value rest hnamed hrun).1

theorem shows_current {next : Token → Parser β} (hnext : ∀ token, Shows words (next token) holds') :
    Shows words (current >>= next) holds' :=
  fun tokens value rest hnamed hrun => hnext _ tokens value rest hnamed hrun

theorem shows_following {next : Token → Parser β} (hnext : ∀ token, Shows words (next token) holds') :
    Shows words (following >>= next) holds' :=
  fun tokens value rest hnamed hrun => hnext _ tokens value rest hnamed hrun

/-- Where the tokens do not matter. -/
theorem shows_of_forall (h : ∀ value, holds value) : Shows words parser holds :=
  fun _ value _ _ _ => h value

/-- What the parsers of all kinds of statements show is shown of the statement that the first words announce. -/
theorem shows_bareStatement {holds : Statement → Prop}
    (hcreateTable : Shows words createTable fun definition => holds (.createTable definition))
    (hcreateView : Shows words createView fun definition => holds (.createView definition))
    (hdropTable : Shows words dropTable fun drop => holds (.dropTable drop))
    (hinsert : Shows words insert fun insertion => holds (.insert insertion))
    (hupdate : Shows words update fun change => holds (.update change))
    (hdelete : Shows words delete fun deletion => holds (.delete deletion))
    (hselect : Shows words select fun query => holds (.select query)) : Shows words bareStatement holds := by
  refine shows_current fun token => ?_
  split
  · refine shows_following fun next => ?_
    split
    · exact hcreateTable.bind fun _ => yields_pure
    · exact hcreateView.bind fun _ => yields_pure
    · exact yields_reject.shows
  · refine shows_following fun next => ?_
    split
    · exact hdropTable.bind fun _ => yields_pure
    · exact yields_reject.shows
  · exact hinsert.bind fun _ => yields_pure
  · exact hupdate.bind fun _ => yields_pure
  · exact hdelete.bind fun _ => yields_pure
  · exact hselect.bind fun _ => yields_pure
  · exact yields_reject.shows
  · exact yields_reject.shows

/-- The queries among the statements are as the grammar makes them, and their names are among the words. -/
def QueryOf (words : Text → Prop) : Statement → Prop
  | .select query => query.Regular ∧ NamesIn words query.lexemes
  | .delete deletion => Parsable deletion.condition ∧ NamesIn words deletion.lexemes
  | _ => True

theorem bareStatement_shows (hwords : ∀ word, words word → word ≠ [])
    (hfunctions : ∀ function : AggregateFunction, words function.name) :
    Shows words bareStatement (QueryOf words) :=
  shows_bareStatement (shows_of_forall fun _ => trivial) (shows_of_forall fun _ => trivial)
    (shows_of_forall fun _ => trivial) (shows_of_forall fun _ => trivial) (shows_of_forall fun _ => trivial)
    takes_delete.shows (takes_select hwords hfunctions).shows

/-- What every statement has is left by the semicolon and the end behind it. -/
theorem Shows.statement {holds : Statement → Prop} (h : Shows words bareStatement holds) :
    Shows words Parser.statement holds :=
  h.bind fun _ hstatement => Yields.andThen fun _ => Yields.andThen fun _ =>
    Yields.ite (yields_pure hstatement) (Yields.ite yields_reject yields_complain)

end Parser

end SnapshotSql
