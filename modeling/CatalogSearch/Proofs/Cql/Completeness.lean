import CatalogSearch.Cql.Parser
import CatalogSearch.Proofs.Cql.Grammar

/-!
# Reading what has a derivation

Tokens that the grammar derives a filter for are read as that filter, whatever
follows them.  Only a chain looks at what follows: it would go on at its keyword.
-/

namespace CatalogSearch.Cql.Grammar

open Step

/-! ## Single tokens -/

theorem property_of_names {token : Token} {name : String} (h : token.Names name)
    (rest : List Token) : property (token :: rest) = .ok (name, rest) := by
  obtain hkind | ⟨hkind, hreserved⟩ := h
  · simp [property, anyToken, hkind, bind, Except.bind]
  · simp [property, anyToken, hkind, hreserved, bind, Except.bind]

theorem literal_of_states {token : Token} {value : Literal} (h : token.States value)
    (rest : List Token) : literal (token :: rest) = .ok (value, rest) := by
  cases value with
  | text value =>
    have hkind : token.kind = .text value := h
    simp [literal, anyToken, hkind, bind, Except.bind]
  | number value =>
    have hkind : token.kind = .number value := h
    simp [literal, anyToken, hkind, bind, Except.bind]
  | bool value =>
    cases value with
    | true =>
      have hkeyword : token.isKeyword "TRUE" = true := h
      obtain ⟨name, hkind, -⟩ := Token.exists_word_of_isKeyword hkeyword
      simp [literal, anyToken, hkind, hkeyword, bind, Except.bind]
    | false =>
      have hkeyword : token.isKeyword "FALSE" = true := h
      have hother : token.isKeyword "TRUE" = false :=
        Token.isKeyword_other hkeyword (by decide)
      obtain ⟨name, hkind, -⟩ := Token.exists_word_of_isKeyword hkeyword
      simp [literal, anyToken, hkind, hkeyword, hother, bind, Except.bind]

theorem instant_of_tells {token : Token} {value : String} (h : token.Tells value)
    (rest : List Token) : instant (token :: rest) = .ok (value, rest) := by
  cases h with
  | instant hkind => simp [instant, anyToken, hkind, bind, Except.bind]
  | text hkind => simp [instant, anyToken, hkind, bind, Except.bind]
  | number hkind => simp [instant, anyToken, hkind, bind, Except.bind]

theorem pattern_of_text {token : Token} {text : String} (h : token.kind = .text text)
    (rest : List Token) : pattern (token :: rest) = .ok (.text text, rest) := by
  simp [pattern, anyToken, h, bind, Except.bind]

theorem keyword_of_isKeyword {token : Token} {word : String} (h : token.isKeyword word = true)
    (what : Expectation) (rest : List Token) :
    keyword word what (token :: rest) = .ok ((), rest) := by
  simp [keyword, anyToken, h, bind, Except.bind]

theorem punctuation_of_kind {token : Token} {kind : Token.Kind} (h : token.kind = kind)
    (what : Expectation) (rest : List Token) :
    punctuation kind what (token :: rest) = .ok ((), rest) := by
  simp [punctuation, anyToken, h, bind, Except.bind]

/-- A period is divided at its first slash. -/
theorem period_of_tells {token : Token} {start finish : String} (hstart : '/' ∉ start.toList)
    (h : token.Tells (String.ofList (start.toList ++ '/' :: finish.toList)))
    (rest : List Token) : period (token :: rest) = .ok ((start, finish), rest) := by
  have hbefore : ∀ c ∈ start.toList, (c != '/') = true := by
    intro c hc
    rw [bne_iff_ne]
    rintro rfl
    exact hstart hc
  have htake : (start.toList ++ '/' :: finish.toList).takeWhile (· != '/') = start.toList := by
    rw [List.takeWhile_append_of_pos hbefore]
    simp
  have hdrop : (start.toList ++ '/' :: finish.toList).dropWhile (· != '/') =
      '/' :: finish.toList := by
    rw [List.dropWhile_append_of_pos hbefore]
    simp
  simp [period, instant_of_tells h, htake, hdrop, bind, Except.bind]

/-! ## Geometries -/

theorem group_of_balanced {inner : List Token} (h : Balanced inner) (depth : Nat)
    (rest : List Token) :
    group depth (inner ++ rest) =
      (group depth rest).map fun (text, rest) => (Token.spelled inner ++ text, rest) := by
  induction h generalizing depth rest with
  | nil =>
    rw [List.nil_append]
    cases group depth rest <;> rfl
  | @plain token inner hopen hclose _ ih =>
    have htoken : group depth (token :: (inner ++ rest)) =
        (group depth (inner ++ rest)).map fun (text, rest) =>
          (token.blanks ++ token.lexeme ++ text, rest) := by
      simp [group]
    rw [List.cons_append, htoken, ih]
    cases group depth rest <;> simp [Except.map]
  | @nested opening closing inner more hopening _ hclosing _ ihinner ihmore =>
    have hclose : group (depth + 1) (closing :: (more ++ rest)) =
        (group depth (more ++ rest)).map fun (text, rest) =>
          (closing.blanks ++ closing.lexeme ++ text, rest) := by
      simp [group, hclosing]
    have hopen : group depth (opening :: (inner ++ closing :: (more ++ rest))) =
        (group (depth + 1) (inner ++ closing :: (more ++ rest))).map fun (text, rest) =>
          (opening.blanks ++ opening.lexeme ++ text, rest) := by
      simp [group, hopening]
    have hassoc : opening :: (inner ++ closing :: more) ++ rest =
        opening :: (inner ++ closing :: (more ++ rest)) := by simp
    rw [hassoc, hopen, ihinner, hclose, ihmore]
    cases group depth rest <;> simp [Except.map]

theorem geometry_of_outlines {shape : List Token} {text : String} (h : Outlines shape text)
    (rest : List Token) : geometry (shape ++ rest) = .ok (text, rest) := by
  obtain ⟨hhead, hopening, hinner, hclosing⟩ := h
  rename_i head opening closing name inner
  have hgroup : group 0 (inner ++ closing :: rest) =
      .ok (Token.spelled (inner ++ [closing]), rest) := by
    rw [group_of_balanced hinner]
    simp [group, hclosing, Except.map]
  simp [geometry, anyToken, hhead, hopening, hgroup, bind, Except.bind]

/-! ## Predicates -/

/-- Which keyword a token is decides what it is taken for. -/
theorem kind_of_isKeyword {token : Token} {word : String} (h : token.isKeyword word = true) :
    (∃ name, token.kind = .word name) ∧
      ∀ other, token.isKeyword other = Text.sameWord other.toList word.toList := by
  obtain ⟨name, hkind, hsame⟩ := Token.exists_word_of_isKeyword h
  constructor
  · exact ⟨name, hkind⟩
  · intro other
    rw [Text.sameWord, beq_iff_eq] at hsame
    rw [Token.isKeyword_of_word hkind, Text.sameWord, Text.sameWord, hsame]

/-- The reader knows the keywords of comparisons with wildcards. -/
theorem patternOperator?_eq_some_iff {token : Token} {comparison : Comparison} :
    patternOperator? token = some comparison ↔ token.Wildcards comparison := by
  unfold patternOperator?
  constructor
  · intro h
    split at h
    · cases h
      exact .like ‹_›
    · split at h
      · cases h
        exact .ilike ‹_›
      · cases h
  · rintro (hlike | hilike)
    · exact if_pos hlike
    · have hlike : token.isKeyword "LIKE" = false := Token.isKeyword_other hilike (by decide)
      rw [hlike, if_neg Bool.false_ne_true, if_pos hilike]

/-- The keyword of a comparison with wildcards does not negate. -/
theorem not_of_wildcards {token : Token} {comparison : Comparison}
    (h : token.Wildcards comparison) :
    (∃ name, token.kind = .word name) ∧ token.isKeyword "NOT" = false := by
  cases h with
  | like hword | ilike hword =>
    obtain ⟨hkind, hother⟩ := kind_of_isKeyword hword
    exact ⟨hkind, by rw [hother]; decide⟩

theorem predicate_of_derivation {property : String} {tokens : List Token} {filter : Filter}
    (h : Predicate property tokens filter) (rest : List Token) :
    predicate property (tokens ++ rest) = .ok (filter, rest) := by
  cases h with
  | comparison hoperator hvalue =>
    simp [predicate, anyToken, hoperator, literal_of_states hvalue, bind, Except.bind]
  | pattern hoperator hvalue =>
    obtain ⟨⟨name, hkind⟩, hnot⟩ := not_of_wildcards hoperator
    rw [← patternOperator?_eq_some_iff] at hoperator
    simp [predicate, anyToken, hkind, hnot, hoperator, pattern_of_text hvalue, bind, Except.bind]
  | notPattern hnegation hoperator hvalue =>
    obtain ⟨⟨name, hkind⟩, -⟩ := kind_of_isKeyword hnegation
    rw [← patternOperator?_eq_some_iff] at hoperator
    simp [predicate, anyToken, hkind, hnegation, hoperator, pattern_of_text hvalue, bind,
      Except.bind]
  | between hoperator hlower hconjunction hupper =>
    obtain ⟨⟨name, hkind⟩, hword⟩ := kind_of_isKeyword hoperator
    simp +decide [predicate, anyToken, patternOperator?, hkind, hword, literal_of_states hlower,
      keyword_of_isKeyword hconjunction, literal_of_states hupper, bind, Except.bind]
  | isNull hoperator hnull =>
    obtain ⟨⟨name, hkind⟩, hword⟩ := kind_of_isKeyword hoperator
    obtain ⟨-, hnull'⟩ := kind_of_isKeyword hnull
    simp +decide [predicate, anyToken, patternOperator?, hkind, hword, hnull',
      keyword_of_isKeyword hnull, bind, Except.bind]
  | isNotNull hoperator hnegation hnull =>
    obtain ⟨⟨name, hkind⟩, hword⟩ := kind_of_isKeyword hoperator
    simp +decide [predicate, anyToken, patternOperator?, hkind, hword, hnegation,
      keyword_of_isKeyword hnull, bind, Except.bind]
  | before hoperator hvalue =>
    obtain ⟨⟨name, hkind⟩, hword⟩ := kind_of_isKeyword hoperator
    simp +decide [predicate, anyToken, patternOperator?, hkind, hword, instant_of_tells hvalue,
      bind, Except.bind]
  | after hoperator hvalue =>
    obtain ⟨⟨name, hkind⟩, hword⟩ := kind_of_isKeyword hoperator
    simp +decide [predicate, anyToken, patternOperator?, hkind, hword, instant_of_tells hvalue,
      bind, Except.bind]
  | during hoperator hstart hvalue =>
    obtain ⟨⟨name, hkind⟩, hword⟩ := kind_of_isKeyword hoperator
    simp +decide [predicate, anyToken, patternOperator?, hkind, hword,
      period_of_tells hstart hvalue, bind, Except.bind]

theorem primary_of_derivation {tokens : List Token} {filter : Filter}
    (h : Primary tokens filter) (rest : List Token) :
    primary (tokens ++ rest) = .ok (filter, rest) := by
  cases h with
  | predicate hname hpredicate =>
    have hintersects := hname.not_isKeyword (show "INTERSECTS" ∈ keywords by decide)
    have hwithin := hname.not_isKeyword (show "DWITHIN" ∈ keywords by decide)
    simp [primary, hintersects, hwithin, property_of_names hname,
      predicate_of_derivation hpredicate, bind, Except.bind]
  | intersects hkeyword hopening hname hcomma hshape hclosing =>
    simp [primary, hkeyword, intersects, openParenthesis, comma, closeParenthesis,
      punctuation_of_kind hopening, property_of_names hname, punctuation_of_kind hcomma,
      geometry_of_outlines hshape, punctuation_of_kind hclosing, bind, Except.bind]
  | @within keyword opening name comma closing shape comma' distance comma'' units property
      geometry value unit hkeyword hopening hname hcomma hshape hcomma' hdistance hcomma''
      hunits hclosing =>
    have hother : keyword.isKeyword "INTERSECTS" = false :=
      Token.isKeyword_other hkeyword (by decide)
    simp [primary, hkeyword, hother, within, openParenthesis, Step.comma, closeParenthesis,
      punctuation_of_kind hopening, property_of_names hname, punctuation_of_kind hcomma,
      geometry_of_outlines hshape, punctuation_of_kind hcomma', Step.distance, anyToken,
      hdistance, punctuation_of_kind hcomma'', Step.units, hunits,
      punctuation_of_kind hclosing, bind, Except.bind]

/-! ## Chains -/

/-- No chain over one of some keywords goes on here. -/
def Stops (words : List String) (rest : List Token) : Prop :=
  ∀ token ∈ rest.head?, ∀ word ∈ words, token.isKeyword word = false

/-- A step reads what is derived, whatever follows that stops at some keywords. -/
def Completes (step : Step Filter) (words : List String)
    (derived : List Token → Filter → Prop) : Prop :=
  ∀ tokens filter, derived tokens filter → ∀ rest, Stops words rest →
    step (tokens ++ rest) = .ok (filter, rest)

theorem More.length_le {word : String} {operand : List Token → Filter → Prop}
    {tokens : List Token} {filters : List Filter} (h : More word operand tokens filters) :
    filters.length ≤ tokens.length := by
  induction h with
  | nil => exact Nat.le_refl _
  | cons _ _ _ ih =>
    simp only [List.length_cons, List.length_append]
    omega

/-- A chain stops where neither it nor what follows it goes on. -/
theorem More.stops {word : String} {words : List String} {operand : List Token → Filter → Prop}
    (hword : ∀ other ∈ words, Text.lower other.toList ≠ Text.lower word.toList)
    {tokens : List Token} {filters : List Filter} (h : More word operand tokens filters)
    {rest : List Token} (hrest : Stops (word :: words) rest) : Stops words (tokens ++ rest) := by
  cases h with
  | nil =>
    intro token htoken other hother
    exact hrest token htoken other (List.mem_cons_of_mem _ hother)
  | cons hkeyword _ _ =>
    intro token htoken other hother
    rw [List.cons_append, List.head?_cons, Option.mem_some_iff] at htoken
    subst htoken
    exact Token.isKeyword_other hkeyword (hword other hother)

theorem moreOperands_of_more {word : String} {words : List String} {step : Step Filter}
    {derived : List Token → Filter → Prop} (hstep : Completes step words derived)
    (hword : ∀ other ∈ words, Text.lower other.toList ≠ Text.lower word.toList)
    {tokens : List Token} {filters : List Filter} (h : More word derived tokens filters)
    {rest : List Token} (hrest : Stops (word :: words) rest) {steps : Nat}
    (hsteps : filters.length ≤ steps) :
    moreOperands word step steps (tokens ++ rest) = .ok (filters, rest) := by
  induction h generalizing steps with
  | nil =>
    cases steps with
    | zero => rfl
    | succ steps =>
      cases rest with
      | nil => rfl
      | cons token rest =>
        have hother : token.isKeyword word = false := hrest token rfl word List.mem_cons_self
        simp [moreOperands, hother]
  | @cons keyword tokens more filter filters hkeyword hoperand hmore ih =>
    cases steps with
    | zero => cases hsteps
    | succ steps =>
      have hfirst := hstep tokens filter hoperand (more ++ rest) (hmore.stops hword hrest)
      have hmore := ih (Nat.le_of_succ_le_succ hsteps)
      simp [moreOperands, hkeyword, hfirst, hmore, bind, Except.bind]

theorem chain_of_derivation {word : String} {words : List String} {step : Step Filter}
    {derived : List Token → Filter → Prop} (hstep : Completes step words derived)
    (hword : ∀ other ∈ words, Text.lower other.toList ≠ Text.lower word.toList)
    (join : List Filter → Filter) :
    Completes (chain word join step) (word :: words) (Chain word join derived) := by
  intro tokens filter h rest hrest
  cases h with
  | @intro tokens more first filters hoperand hmore =>
    have hfirst := hstep tokens first hoperand (more ++ rest) (hmore.stops hword hrest)
    have hsteps : filters.length ≤ (more ++ rest).length := by
      have := hmore.length_le
      rw [List.length_append]
      omega
    have hothers := moreOperands_of_more hstep hword hmore hrest hsteps
    rw [List.length_append] at hothers
    rw [List.append_assoc]
    cases filters <;> simp [chain, hfirst, hothers, gathered, bind, Except.bind]

theorem expression_of_derivation {step : Step Filter} {derived : List Token → Filter → Prop}
    (hstep : Completes step [] derived) :
    Completes (expression step) ["OR", "AND"] (Expression derived) := by
  apply chain_of_derivation (chain_of_derivation hstep nofun .and)
  simp +decide

/-- A predicate starts with a name or a keyword of its own. -/
theorem head_of_primary {tokens : List Token} {filter : Filter} (h : Primary tokens filter) :
    ∃ token rest, tokens = token :: rest ∧ token.isKeyword "NOT" = false ∧
      token.kind ≠ .openParenthesis := by
  cases h with
  | @predicate name property tokens filter hname _ =>
    have hkind : name.kind ≠ .openParenthesis := by
      obtain hkind | ⟨hkind, -⟩ := hname <;> simp [hkind]
    exact ⟨name, tokens, rfl, hname.not_isKeyword (by decide), hkind⟩
  | intersects hkeyword _ _ _ _ _ =>
    obtain ⟨⟨name, hkind⟩, -⟩ := kind_of_isKeyword hkeyword
    exact ⟨_, _, rfl, Token.isKeyword_other hkeyword (by decide), by simp [hkind]⟩
  | within hkeyword _ _ _ _ _ _ _ _ _ =>
    obtain ⟨⟨name, hkind⟩, -⟩ := kind_of_isKeyword hkeyword
    exact ⟨_, _, rfl, Token.isKeyword_other hkeyword (by decide), by simp [hkind]⟩

theorem operand_of_primary {tokens : List Token} {filter : Filter} (h : Primary tokens filter)
    (levels : Nat) (rest : List Token) :
    operand levels (tokens ++ rest) = .ok (filter, rest) := by
  have hread := primary_of_derivation h rest
  obtain ⟨token, more, rfl, hnot, hopen⟩ := head_of_primary h
  rw [List.cons_append] at hread
  cases levels <;> simp [operand, hnot, hopen, hread]

/-- What has a derivation within some levels is read within as many. -/
theorem operand_of_derivation (levels : Nat) :
    Completes (operand levels) [] (Operand levels) := by
  induction levels with
  | zero =>
    intro tokens filter h rest _
    exact operand_of_primary h 0 rest
  | succ levels ih =>
    intro tokens filter h rest _
    obtain h | ⟨negation, inner, filter, hnegation, hinner, rfl, rfl⟩ |
      ⟨opening, inner, closing, hopening, hinner, hclosing, rfl⟩ := h
    · exact operand_of_primary h (levels + 1) rest
    · have hread := ih inner filter hinner rest nofun
      simp [operand, hnegation, hread, bind, Except.bind]
    · have hnot : opening.isKeyword "NOT" = false :=
        Token.isKeyword_eq_false (by simp [hopening]) "NOT"
      have hstops : Stops ["OR", "AND"] (closing :: rest) := by
        intro token htoken word _
        cases htoken
        exact Token.isKeyword_eq_false (by simp [hclosing]) word
      have hread := expression_of_derivation ih inner filter hinner (closing :: rest) hstops
      simp [operand, hnot, hopening, hread, closeParenthesis, punctuation_of_kind hclosing, bind,
        Except.bind]

/-- Tokens with a derivation within the limit are read as the filter derived. -/
theorem query_of_derivation {tokens : List Token} {filter : Filter}
    (h : Expression (Operand nestingLimit) tokens filter) : query tokens = .ok filter := by
  have hread := expression_of_derivation (operand_of_derivation nestingLimit) tokens filter h []
    nofun
  rw [List.append_nil] at hread
  cases tokens with
  | nil => cases hread
  | cons token tokens => simp [query, hread, bind, Except.bind]

end CatalogSearch.Cql.Grammar
