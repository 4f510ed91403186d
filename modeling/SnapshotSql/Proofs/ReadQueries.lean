import SnapshotSql.Grammar.Statement
import SnapshotSql.Proofs.ReadConditions

/-! # Reading printed queries

A query is read from its lexemes if its items have labels and its conditions have the shape that the grammar
gives them. Every optional clause begins with a word of its own, so a clause ends where the word of a later
one stands, or the end of the input.
-/
namespace SnapshotSql

/-- A label is not empty. The star has none. -/
def SelectItem.Labelled : SelectItem → Prop
  | .star _ => True
  | .column _ label => label ≠ []
  | .aggregate _ _ label => label ≠ []

def Parsable (condition? : Option Condition) : Prop :=
  ∀ condition ∈ condition?, ∃ depth, Condition.Within depth condition

structure Select.Regular (query : Select) : Prop where
  items_ne_nil : query.items ≠ []
  labelled : ∀ item ∈ query.items, item.Labelled
  condition : Parsable query.condition
  having : Parsable query.having

namespace Parser

variable {α β : Type} {parser : Parser α} {next : α → Parser β} {value : α} {answer : β}
  {lexeme : Lexeme} {lexemes lexemes' : List Lexeme} {follow follow' : List Lexeme → Prop}

/-! ## Selected items -/

theorem itemLabel_parses (default : Text) {label : Text} (hlabel : label ≠ []) :
    Parses (itemLabel default) [.keyword "AS", .text label] label follow := by
  refine parses_accepted (by simp) nofun (parses_current_cons fun token htoken => ?_)
  rw [htoken]
  have hchosen : Parses (pure (if label = Text.ofString "" then default else label)) [] label follow := by
    rw [if_neg (show label ≠ Text.ofString "" from hlabel)]
    exact parses_pure
  exact parses_advance nofun hchosen

theorem aggregateArgument_parses (function : AggregateFunction) (argument : Text) :
    Parses (aggregateArgument function) [if argument = "*" then .symbol .star else .name argument] argument
      follow := by
  refine parses_current_cons fun token htoken => ?_
  rw [htoken]
  by_cases hstar : argument = "*"
  · rw [if_pos hstar, hstar]
    exact parses_advance nofun parses_pure
  · rw [if_neg hstar]
    exact parses_advance nofun parses_pure

theorem aggregateOf?_name (function : AggregateFunction) : aggregateOf? function.name = some function := by
  cases function <;> decide +kernel

theorem selectItem_parses {item : SelectItem} (h : item.Labelled) :
    Parses selectItem item.lexemes item follow := by
  cases item with
  | star table =>
    cases table with
    | none =>
      refine parses_current_cons fun token htoken => ?_
      rw [htoken]
      exact parses_advance nofun parses_pure
    | some table =>
      refine parses_current_cons fun token htoken => ?_
      rw [htoken]
      refine parses_following fun token ⟨_, _, htoken⟩ => ?_
      have hnext : token.lexeme = .symbol .pointStar := htoken
      rw [hnext]
      exact parses_advance nofun (parses_advance nofun parses_pure)
  | column name label =>
    refine parses_current_cons fun token htoken => ?_
    rw [htoken]
    refine parses_following fun token ⟨_, _, htoken⟩ => ?_
    have hnext : token.lexeme = .keyword "AS" := htoken
    rw [hnext]
    exact parses_advance nofun ((itemLabel_parses _ h).make _)
  | aggregate function argument label =>
    refine parses_current_cons fun token htoken => ?_
    rw [htoken]
    refine parses_following fun token ⟨_, _, htoken⟩ => ?_
    have hnext : token.lexeme = .symbol .openParen := htoken
    rw [hnext]
    simp only [aggregateOf?_name]
    refine parses_advance nofun (parses_advance nofun ?_)
    have hargument : Parses (aggregateArgument function) _ argument fun _ => True :=
      aggregateArgument_parses function argument
    refine hargument.bind (parses_expectSymbol _ _ ?_) fun _ _ => trivial
    exact (itemLabel_parses function.label h).make _

/-! ## Clauses -/

def Opens (words : List String) (more : List Lexeme) : Prop :=
  firstOf more = .endOfInput ∨ ∃ word ∈ words, firstOf more = .keyword word

section
variable {words : List String} {more : List Lexeme} (h : Opens words more)
include h

theorem Opens.ne_keyword {word : String} (hword : word ∉ words) : firstOf more ≠ .keyword word := by
  rcases h with h | ⟨other, hother, h⟩
  · simp [h]
  · rw [h]
    rintro ⟨⟩
    exact hword hother

theorem Opens.ne_symbol (symbol : Symbol) : firstOf more ≠ .symbol symbol := by
  rcases h with h | ⟨_, _, h⟩ <;> simp [h]

theorem Opens.ne_name (name : Text) : firstOf more ≠ .name name := by
  rcases h with h | ⟨_, _, h⟩ <;> simp [h]

theorem Opens.cons (word : String) : Opens (word :: words) more := by
  obtain h | ⟨other, hother, h⟩ := h
  · exact .inl h
  · exact .inr ⟨other, List.mem_cons_of_mem _ hother, h⟩

end

/-- A clause is left out where the word of a later one stands. -/
theorem parses_absent {words : List String} {word : String} {next : Bool → Parser β} (hword : word ∉ words)
    (h : Parses (next false) [] answer (Opens words)) :
    Parses (acceptKeyword word >>= next) [] answer (Opens words) :=
  parses_declined (fun more hmore => by simpa using hmore.ne_keyword hword) h

theorem orderItem_parses (item : OrderItem) :
    Parses orderItem item.lexemes item fun more =>
      firstOf more ≠ .keyword "DESC" ∧ firstOf more ≠ .keyword "ASC" := by
  obtain ⟨column, descending⟩ := item
  refine parses_expectName _ _ ?_
  cases descending with
  | true => exact parses_accepted (by simp) nofun parses_pure
  | false =>
    refine parses_declined (fun more hmore => by simpa [wordIf] using hmore.1) ?_
    exact parses_declined (fun more hmore => by simpa [wordIf] using hmore.2) parses_pure

theorem count_parses (clause : Text) (value : Nat) :
    Parses (count clause) [.number (.int value)] value follow := by
  refine parses_current_cons fun token htoken => ?_
  rw [htoken]
  exact parses_advance nofun parses_pure

theorem bounds_parses (limit : Option Nat) (offset : Nat) :
    Parses bounds (boundLexemes limit offset) (limit, offset) (Opens []) := by
  cases limit with
  | none =>
    by_cases hoffset : offset = 0
    · rw [boundLexemes, if_pos hoffset, hoffset]
      exact parses_absent List.not_mem_nil (parses_absent List.not_mem_nil parses_pure)
    · rw [boundLexemes, if_neg hoffset]
      refine parses_declined (fun _ _ => by simp [firstOf]) ?_
      exact parses_accepted (by simp) (by simp) ((count_parses "OFFSET" offset).make _)
  | some limit =>
    have hlimit : Parses (count "LIMIT") [.number (.int limit)] limit fun _ => True := count_parses "LIMIT" limit
    by_cases hoffset : offset = 0
    · rw [boundLexemes, if_pos hoffset, hoffset]
      refine parses_accepted (by simp) (by simp) (hlimit.bind ?_ fun _ _ => trivial)
      refine parses_absent List.not_mem_nil ?_
      exact parses_declined (fun more hmore => by simpa using hmore.ne_symbol .comma) parses_pure
    · rw [boundLexemes, if_neg hoffset]
      refine parses_accepted (by simp) (by simp) (hlimit.bind ?_ fun _ _ => trivial)
      exact parses_accepted (by simp) (by simp) ((count_parses "OFFSET" offset).make _)

theorem conditionAfter_parses {word : String} {words : List String} {condition? : Option Condition}
    (hword : word ∉ words) (hand : "AND" ∉ words) (hor : "OR" ∉ words) (h : Parsable condition?) :
    Parses (conditionAfter word) (conditionLexemes word condition?) condition? (Opens words) := by
  cases condition? with
  | none => exact parses_absent hword parses_pure
  | some condition =>
    obtain ⟨depth, hwithin⟩ := h condition rfl
    have hcondition := (condition_parses hwithin).mono fun more (hmore : Opens words more) =>
      ⟨hmore.ne_symbol _, hmore.ne_keyword hand, hmore.ne_keyword hor⟩
    exact parses_accepted (by simp) nofun (hcondition.make some)

theorem listAfter_parses {word : String} {words : List String} {lexemesOf : α → List Lexeme} {items : List α}
    (hword : word ∉ words) (hcomma : ∀ more, follow (.symbol .comma :: more))
    (hend : ∀ more, Opens words more → follow more)
    (hitems : ∀ item ∈ items, Parses parser (lexemesOf item) item follow) :
    Parses (listAfter word parser) (listLexemes word lexemesOf items) items (Opens words) := by
  cases items with
  | nil => exact parses_absent hword parses_pure
  | cons item items =>
    refine parses_accepted (by simp) nofun (parses_expectKeyword _ ?_)
    exact commaSeparated_parses hcomma (fun more hmore => ⟨hend more hmore, hmore.ne_symbol _⟩) hitems

theorem tableAlias_parses {words : List String} (hwords : "AS" ∉ words) (alternative : Option Text) :
    Parses tableAlias (aliasLexemes alternative) alternative (Opens words) := by
  cases alternative with
  | none =>
    refine parses_absent hwords (parses_current fun token ⟨more, hmore, htoken⟩ => ?_)
    have hname : ∀ name, token.lexeme ≠ .name name := fun name => htoken ▸ hmore.ne_name name
    split
    · next name hlexeme => exact absurd hlexeme (hname name)
    · exact parses_pure
  | some name => exact parses_accepted (by simp) nofun ((expectName_parses name _).make some)

/-! ## Queries -/

section
variable {words words' : List String}

/-- If one of the later words opens what stands behind the lexemes, one of the words opens the whole. -/
def Leads (words : List String) (lexemes : List Lexeme) (later : List String) : Prop :=
  ∀ more, Opens later more → Opens words (lexemes ++ more)

theorem Leads.append {words'' : List String} (h : Leads words lexemes words')
    (h' : Leads words' lexemes' words'') : Leads words (lexemes ++ lexemes') words'' := by
  intro more hmore
  rw [List.append_assoc]
  exact h _ (h' more hmore)

theorem leads_word (word : String) (lexemes : List Lexeme) :
    Leads (word :: words) (.keyword word :: lexemes) words' :=
  fun _ _ => .inr ⟨word, List.mem_cons_self, rfl⟩

theorem leads_conditionLexemes (word : String) (condition? : Option Condition) :
    Leads (word :: words) (conditionLexemes word condition?) words := by
  cases condition? with
  | none => exact fun _ hmore => hmore.cons word
  | some condition => exact leads_word word _

theorem leads_listLexemes (word : String) (lexemesOf : α → List Lexeme) (items : List α) :
    Leads (word :: words) (listLexemes word lexemesOf items) words := by
  cases items with
  | nil => exact fun _ hmore => hmore.cons word
  | cons item items => exact leads_word word _

theorem leads_boundLexemes (limit : Option Nat) (offset : Nat) :
    Leads ["LIMIT", "OFFSET"] (boundLexemes limit offset) [] := by
  have hoffset : Leads ["OFFSET"] (if offset = 0 then [] else [.keyword "OFFSET", .number (.int offset)]) [] := by
    split
    · exact fun _ hmore => hmore.cons _
    · exact leads_word _ _
  cases limit with
  | none => exact fun more hmore => (hoffset more hmore).cons "LIMIT"
  | some limit => exact leads_word _ _

end

theorem leads_clauses (query : Select) :
    Leads ["WHERE", "GROUP", "HAVING", "ORDER", "LIMIT", "OFFSET"] query.clauses [] :=
  (leads_conditionLexemes _ _).append ((leads_listLexemes _ _ _).append
    ((leads_conditionLexemes _ _).append ((leads_listLexemes _ _ _).append (leads_boundLexemes _ _))))

theorem clauses_parses {query : Select} (hcondition : Parsable query.condition)
    (hhaving : Parsable query.having) :
    Parses (do
        let condition ← conditionAfter "WHERE"
        let groupBy ← listAfter "GROUP" (expectName "GROUP BY column")
        let having ← conditionAfter "HAVING"
        let orderBy ← listAfter "ORDER" orderItem
        let (limit, offset) ← bounds
        return ⟨query.items, query.table, query.tableAlias, query.distinct, condition, groupBy, having,
          orderBy, limit, offset⟩)
      query.clauses query (Opens []) := by
  have hbounds := leads_boundLexemes query.limit query.offset
  have horder := (leads_listLexemes "ORDER" OrderItem.lexemes query.orderBy).append hbounds
  have hhavingOn := (leads_conditionLexemes "HAVING" query.having).append horder
  have hgroup := (leads_listLexemes "GROUP" (fun name => [.name name]) query.groupBy).append hhavingOn
  refine (conditionAfter_parses (by simp) (by simp) (by simp) hcondition).bind ?_ hgroup
  refine (listAfter_parses (by simp) (fun _ => trivial) (fun _ _ => trivial)
    fun name _ => expectName_parses name _).bind ?_ hhavingOn
  refine (conditionAfter_parses (by simp) (by simp) (by simp) hhaving).bind ?_ horder
  refine (listAfter_parses (by simp) (fun _ => ⟨nofun, nofun⟩)
    (fun _ hmore => ⟨hmore.ne_keyword (by simp), hmore.ne_keyword (by simp)⟩)
    fun item _ => orderItem_parses item).bind ?_ hbounds
  exact (bounds_parses query.limit query.offset).make fun bounds =>
    ({ query with limit := bounds.1, offset := bounds.2 } : Select)

/-- The selected items begin with a star or a name. -/
theorem firstOf_items {items : List SelectItem} (hitems : items ≠ []) (word : String) (more : List Lexeme) :
    firstOf (separated SelectItem.lexemes items ++ more) ≠ .keyword word := by
  obtain ⟨item, items, rfl⟩ := List.exists_cons_of_ne_nil hitems
  cases item with
  | star table => cases table <;> nofun
  | _ => nofun

theorem items_parses {items : List SelectItem} (hitems : items ≠ []) (hlabels : ∀ item ∈ items, item.Labelled) :
    Parses (commaSeparated selectItem) (separated SelectItem.lexemes items) items (firstOf · = .keyword "FROM") := by
  obtain ⟨item, items, rfl⟩ := List.exists_cons_of_ne_nil hitems
  exact commaSeparated_parses (fun _ => trivial) (fun more hmore => ⟨trivial, by rw [hmore]; nofun⟩)
    fun item hitem => selectItem_parses (hlabels item hitem)

/-- A word is looked for in all tokens up to the end of the input. -/
theorem any_keyword_eq_false {word : String} {tokens : List Token} (hword : .keyword word ∉ lexemes)
    (htokens : tokens.map (·.lexeme) = lexemes ++ [.endOfInput]) :
    (tokens.any fun token => token.lexeme = .keyword word) = false := by
  rw [List.any_eq_false]
  intro token htoken hlexeme
  have hmem := List.mem_map_of_mem (f := (·.lexeme)) htoken
  rw [htokens, of_decide_eq_true hlexeme, List.mem_append] at hmem
  rcases hmem with hmem | hmem
  · exact hword hmem
  · cases List.mem_singleton.mp hmem

/-- What stands behind the selected items. Only the end of the input may follow it. -/
theorem parses_source {query : Select} (hcondition : Parsable query.condition) (hhaving : Parsable query.having)
    (hjoin : .keyword "JOIN" ∉ .name query.table :: (aliasLexemes query.tableAlias ++ query.clauses)) :
    Parses (do
        unless ← acceptKeyword "FROM" do complain .selectWithoutFrom
        if (← get).any (·.lexeme = .keyword "JOIN") then refuse .join
        if (← current).lexeme = .symbol .openParen then refuse .subquery
        let table ← expectName "table name"
        let alternative ← tableAlias
        if (← current).lexeme = .symbol .comma then refuse .severalTables
        let condition ← conditionAfter "WHERE"
        let groupBy ← listAfter "GROUP" (expectName "GROUP BY column")
        let having ← conditionAfter "HAVING"
        let orderBy ← listAfter "ORDER" orderItem
        let (limit, offset) ← bounds
        return ⟨query.items, table, alternative, query.distinct, condition, groupBy, having, orderBy, limit, offset⟩)
      (.keyword "FROM" :: .name query.table :: (aliasLexemes query.tableAlias ++ query.clauses)) query
      (· = [.endOfInput]) := by
  have hend : ∀ more, more = [.endOfInput] → Opens [] more := by
    rintro _ rfl
    exact .inl rfl
  -- The join is looked for in all tokens behind FROM, so what follows the query counts as well.
  refine parses_accepted (by simp) nofun (parses_get fun tokens ⟨more, hmore, htokens⟩ => ?_)
  rw [if_neg (by rw [any_keyword_eq_false hjoin (hmore ▸ htokens)]; nofun)]
  refine parses_current_cons fun token htoken => ?_
  rw [if_neg (by rw [htoken]; nofun)]
  refine parses_expectName _ _ ?_
  refine (tableAlias_parses (by simp) query.tableAlias).bind
    (parses_current fun token ⟨more, hmore, htoken⟩ => ?_)
    fun more hmore => leads_clauses query more (hend more hmore)
  rw [if_neg (htoken ▸ (leads_clauses query more (hend more hmore)).ne_symbol .comma)]
  exact (clauses_parses hcondition hhaving).mono hend

/-- Only the end of the input may follow a SELECT. -/
theorem select_parses {query : Select} (h : query.Regular) (hjoin : .keyword "JOIN" ∉ query.lexemes) :
    Parses select query.lexemes query (· = [.endOfInput]) := by
  obtain ⟨hitems, hlabels, hcondition, hhaving⟩ := h
  have hbehind : .keyword "JOIN" ∉ .name query.table :: (aliasLexemes query.tableAlias ++ query.clauses) :=
    fun hmem => hjoin (List.mem_cons_of_mem _ (List.mem_append_right _ (List.mem_append_right _
      (List.mem_cons_of_mem _ hmem))))
  refine parses_expectKeyword _ (parses_wordIf query.distinct (fun more _ => ?_) ?_)
  · rw [List.append_assoc]
    exact firstOf_items hitems _ _
  exact (items_parses hitems hlabels).bind (parses_source hcondition hhaving hbehind) fun _ _ => rfl

theorem delete_parses {deletion : Delete} (hcondition : Parsable deletion.condition) :
    Parses delete deletion.lexemes deletion (Opens []) := by
  refine parses_expectKeyword _ (parses_expectKeyword _ (parses_expectName _ _ ?_))
  exact (conditionAfter_parses (by simp) (by simp) (by simp) hcondition).make fun condition? =>
    ({ deletion with condition := condition? } : Delete)

/-- A statement whose first words announce it. -/
theorem statement_parses {statement : Statement}
    (h : Parses bareStatement lexemes statement (· = [.endOfInput])) :
    Parses Parser.statement lexemes statement (· = [.endOfInput]) := by
  have hend : Parses (acceptSymbol .semicolon >>= fun _ => current >>= fun next =>
      if next.lexeme = .endOfInput then pure statement
      else if (SourceText.kind? next.rest).isSome then malformed .severalStatements
      else complain .restOfStatement) [] statement (· = [.endOfInput]) := by
    refine parses_declined (fun more hmore => by rw [hmore]; rfl) ?_
    refine parses_current fun token ⟨more, hmore, htoken⟩ => ?_
    rw [if_pos (by rw [htoken, hmore]; rfl)]
    exact parses_pure
  have hstatement : Parses Parser.statement (lexemes ++ []) statement (· = [.endOfInput]) :=
    h.bind hend fun _ hmore => hmore
  rwa [List.append_nil] at hstatement

theorem statement_parses_select {query : Select} (h : query.Regular)
    (hjoin : .keyword "JOIN" ∉ query.lexemes) :
    Parses statement query.lexemes (.select query) (· = [.endOfInput]) := by
  refine statement_parses (parses_current_cons fun token htoken => ?_)
  rw [htoken]
  exact (select_parses h hjoin).make Statement.select

theorem statement_parses_delete {deletion : Delete} (hcondition : Parsable deletion.condition) :
    Parses statement deletion.lexemes (.delete deletion) (· = [.endOfInput]) := by
  refine statement_parses (parses_current_cons fun token htoken => ?_)
  rw [htoken]
  have hdelete : Parses delete deletion.lexemes deletion (· = [.endOfInput]) :=
    (delete_parses hcondition).mono fun more hmore => .inl (by rw [hmore]; rfl)
  exact hdelete.make Statement.delete

end Parser

end SnapshotSql
