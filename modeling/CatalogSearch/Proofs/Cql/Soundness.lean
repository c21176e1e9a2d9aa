import CatalogSearch.Proofs.Cql.Completeness
import Mathlib.Data.List.TakeWhile

/-!
# Deriving what was read

Whatever a step of the reader comes to, the grammar derives it from the tokens that the step
took.  Each step has one lemma, which says what those tokens are.
-/

namespace CatalogSearch.Cql

namespace Grammar

open Step

variable {tokens rest : List Token}

/-! ## Single tokens -/

theorem eq_cons_of_anyToken {token : Token} (h : anyToken tokens = .ok (token, rest)) :
    tokens = token :: rest := by
  cases tokens with
  | nil => cases h
  | cons first more =>
    cases h
    rfl

theorem kind_of_punctuation {kind : Token.Kind} {what : Expectation}
    (h : punctuation kind what tokens = .ok ((), rest)) :
    ∃ token, tokens = token :: rest ∧ token.kind = kind := by
  obtain ⟨⟨token, more⟩, htoken, h⟩ := bind_eq_ok h
  dsimp only at h
  split at h <;> cases h
  exact ⟨token, eq_cons_of_anyToken htoken, ‹_›⟩

theorem isKeyword_of_keyword {word : String} {what : Expectation}
    (h : keyword word what tokens = .ok ((), rest)) :
    ∃ token, tokens = token :: rest ∧ token.isKeyword word = true := by
  obtain ⟨⟨token, more⟩, htoken, h⟩ := bind_eq_ok h
  dsimp only at h
  split at h <;> cases h
  exact ⟨token, eq_cons_of_anyToken htoken, ‹_›⟩

theorem names_of_property {name : String} (h : property tokens = .ok (name, rest)) :
    ∃ token, tokens = token :: rest ∧ token.Names name := by
  obtain ⟨⟨token, more⟩, htoken, h⟩ := bind_eq_ok h
  dsimp only at h
  split at h
  · rename_i hkind
    cases h
    exact ⟨token, eq_cons_of_anyToken htoken, .inl hkind⟩
  · rename_i hkind
    split at h <;> cases h
    exact ⟨token, eq_cons_of_anyToken htoken, .inr ⟨hkind, Bool.eq_false_iff.2 ‹_›⟩⟩
  · cases h

theorem states_of_literal {value : Literal} (h : literal tokens = .ok (value, rest)) :
    ∃ token, tokens = token :: rest ∧ token.States value := by
  obtain ⟨⟨token, more⟩, htoken, h⟩ := bind_eq_ok h
  dsimp only at h
  split at h
  · rename_i hkind
    cases h
    exact ⟨token, eq_cons_of_anyToken htoken, hkind⟩
  · rename_i hkind
    cases h
    exact ⟨token, eq_cons_of_anyToken htoken, hkind⟩
  · split at h
    · cases h
      exact ⟨token, eq_cons_of_anyToken htoken, ‹_›⟩
    split at h <;> cases h
    exact ⟨token, eq_cons_of_anyToken htoken, ‹_›⟩

theorem text_of_pattern {value : Literal} (h : pattern tokens = .ok (value, rest)) :
    ∃ token text, tokens = token :: rest ∧ token.kind = .text text ∧ value = .text text := by
  obtain ⟨⟨token, more⟩, htoken, h⟩ := bind_eq_ok h
  dsimp only at h
  split at h <;> cases h
  exact ⟨token, _, eq_cons_of_anyToken htoken, ‹_›, rfl⟩

theorem tells_of_instant {value : String} (h : instant tokens = .ok (value, rest)) :
    ∃ token, tokens = token :: rest ∧ token.Tells value := by
  obtain ⟨⟨token, more⟩, htoken, h⟩ := bind_eq_ok h
  dsimp only at h
  split at h <;> cases h
  · exact ⟨token, eq_cons_of_anyToken htoken, .instant ‹_›⟩
  · exact ⟨token, eq_cons_of_anyToken htoken, .text ‹_›⟩
  · exact ⟨token, eq_cons_of_anyToken htoken, .number ‹_›⟩

theorem tells_of_period {start finish : String}
    (h : period tokens = .ok ((start, finish), rest)) :
    ∃ token, tokens = token :: rest ∧ '/' ∉ start.toList ∧
      token.Tells (String.ofList (start.toList ++ '/' :: finish.toList)) := by
  obtain ⟨⟨value, more⟩, hvalue, h⟩ := bind_eq_ok h
  dsimp only at h
  split at h <;> cases h
  rename_i first finish hdrop
  obtain ⟨token, htokens, htells⟩ := tells_of_instant hvalue
  have hfirst : first = '/' := by
    have hhead := List.head?_dropWhile_not (· != '/') value.toList
    rw [hdrop] at hhead
    simpa using hhead
  have hall : value.toList.takeWhile (· != '/') ++ '/' :: finish = value.toList := by
    rw [hfirst] at hdrop
    rw [← hdrop, List.takeWhile_append_dropWhile]
  refine ⟨token, htokens, ?_, ?_⟩
  · rw [String.toList_ofList]
    intro hslash
    simpa using List.mem_takeWhile_imp hslash
  · rwa [String.toList_ofList, String.toList_ofList, hall, String.ofList_toList]

theorem number_of_distance {value : Double} (h : distance tokens = .ok (value, rest)) :
    ∃ token, tokens = token :: rest ∧ token.kind = .number value := by
  obtain ⟨⟨token, more⟩, htoken, h⟩ := bind_eq_ok h
  dsimp only at h
  split at h <;> cases h
  exact ⟨token, eq_cons_of_anyToken htoken, ‹_›⟩

theorem word_of_units {unit : String} (h : units tokens = .ok (unit, rest)) :
    ∃ token, tokens = token :: rest ∧ token.kind = .word unit := by
  obtain ⟨⟨token, more⟩, htoken, h⟩ := bind_eq_ok h
  dsimp only at h
  split at h <;> cases h
  exact ⟨token, eq_cons_of_anyToken htoken, ‹_›⟩

/-! ## Geometries -/

/-- What is read of a group starts with tokens in which every parenthesis is closed, and then
has one that closes the group. -/
theorem exists_balanced_of_group {depth : Nat} {made : List Char × List Token} :
    ∀ {tokens : List Token}, group depth tokens = .ok made →
      ∃ inner closing more, tokens = inner ++ closing :: more ∧ Balanced inner ∧
        closing.kind = .closeParenthesis
  | [], h => by cases h
  | token :: tokens, h => by
    rw [group.eq_def] at h
    dsimp only at h
    split at h
    · rename_i hopening
      obtain ⟨origin, horigin, -⟩ := map_eq_ok h
      obtain ⟨inner, closing, more, rfl, hinner, hclosing⟩ := exists_balanced_of_group horigin
      -- Behind the group that is opened here, the outer one is still to be closed.
      have hmore : ∃ made, group depth more = .ok made := by
        rw [group_of_balanced hinner] at horigin
        obtain ⟨_, horigin, -⟩ := map_eq_ok horigin
        rw [group.eq_def] at horigin
        simp only [hclosing] at horigin
        obtain ⟨made, hmade, -⟩ := map_eq_ok horigin
        exact ⟨made, hmade⟩
      obtain ⟨made, hmade⟩ := hmore
      obtain ⟨inner', closing', more', rfl, hinner', hclosing'⟩ := exists_balanced_of_group hmade
      refine ⟨token :: (inner ++ closing :: inner'), closing', more', ?_,
        .nested hopening hinner hclosing hinner', hclosing'⟩
      simp
    · rename_i hclosing
      exact ⟨[], token, tokens, rfl, .nil, hclosing⟩
    · rename_i hopen hclose
      obtain ⟨origin, horigin, -⟩ := map_eq_ok h
      obtain ⟨inner, closing, more, rfl, hinner, hclosing⟩ := exists_balanced_of_group horigin
      exact ⟨token :: inner, closing, more, rfl, .plain hopen hclose hinner, hclosing⟩
termination_by tokens => tokens.length

theorem outlines_of_geometry {text : String} (h : geometry tokens = .ok (text, rest)) :
    ∃ shape, tokens = shape ++ rest ∧ Outlines shape text := by
  obtain ⟨⟨head, more⟩, hhead, h⟩ := bind_eq_ok h
  have htokens := eq_cons_of_anyToken hhead
  dsimp only at h
  split at h
  · rename_i name hkind
    obtain ⟨⟨opening, others⟩, hnext, h⟩ := bind_eq_ok h
    have hmore := eq_cons_of_anyToken hnext
    dsimp only at h
    split at h
    · rename_i hopening
      obtain ⟨⟨inside, left⟩, hgroup, h⟩ := bind_eq_ok h
      cases h
      obtain ⟨inner, closing, left, rfl, hinner, hclosing⟩ := exists_balanced_of_group hgroup
      rw [group_of_balanced hinner, group, hclosing] at hgroup
      cases hgroup
      have hshape := Outlines.intro hkind hopening hinner hclosing
      refine ⟨head :: opening :: (inner ++ [closing]), by simp [htokens, hmore], ?_⟩
      simpa using hshape
    · cases h
  · cases h

/-! ## Predicates -/

theorem derivation_of_predicate {property : String} {filter : Filter}
    (h : predicate property tokens = .ok (filter, rest)) :
    ∃ used, tokens = used ++ rest ∧ Predicate property used filter := by
  obtain ⟨⟨token, more⟩, htoken, h⟩ := bind_eq_ok h
  have htokens := eq_cons_of_anyToken htoken
  dsimp only at h
  split at h
  · rename_i hoperator
    obtain ⟨⟨value, left⟩, hvalue, h⟩ := bind_eq_ok h
    cases h
    obtain ⟨token', rfl, hstates⟩ := states_of_literal hvalue
    exact ⟨[token, token'], htokens, .comparison hoperator hstates⟩
  split at h
  · rename_i hnegation
    obtain ⟨⟨next, left⟩, hnext, h⟩ := bind_eq_ok h
    have hmore := eq_cons_of_anyToken hnext
    dsimp only at h
    split at h
    · rename_i hoperator
      obtain ⟨⟨value, left⟩, hvalue, h⟩ := bind_eq_ok h
      cases h
      obtain ⟨token', text, rfl, htext, rfl⟩ := text_of_pattern hvalue
      exact ⟨[token, next, token'], htokens.trans (congrArg _ hmore),
        .notPattern hnegation (patternOperator?_eq_some_iff.1 hoperator) htext⟩
    · cases h
  split at h
  · rename_i hoperator
    obtain ⟨⟨value, left⟩, hvalue, h⟩ := bind_eq_ok h
    cases h
    obtain ⟨token', text, rfl, htext, rfl⟩ := text_of_pattern hvalue
    exact ⟨[token, token'], htokens, .pattern (patternOperator?_eq_some_iff.1 hoperator) htext⟩
  split at h
  · rename_i hoperator
    obtain ⟨⟨lower, _⟩, hlower, h⟩ := bind_eq_ok h
    obtain ⟨⟨_, _⟩, hand, h⟩ := bind_eq_ok h
    obtain ⟨⟨upper, _⟩, hupper, h⟩ := bind_eq_ok h
    cases h
    obtain ⟨first, rfl, hfirst⟩ := states_of_literal hlower
    obtain ⟨conjunction, rfl, hconjunction⟩ := isKeyword_of_keyword hand
    obtain ⟨second, rfl, hsecond⟩ := states_of_literal hupper
    exact ⟨[token, first, conjunction, second], htokens,
      .between hoperator hfirst hconjunction hsecond⟩
  split at h
  · rename_i hoperator
    split at h
    · rename_i next left
      split at h
      · rename_i hnegation
        obtain ⟨⟨_, left⟩, hword, h⟩ := bind_eq_ok h
        cases h
        obtain ⟨null, rfl, hnull⟩ := isKeyword_of_keyword hword
        exact ⟨[token, next, null], htokens, .isNotNull hoperator hnegation hnull⟩
      · obtain ⟨⟨_, left⟩, hword, h⟩ := bind_eq_ok h
        cases h
        obtain ⟨null, heq, hnull⟩ := isKeyword_of_keyword hword
        exact ⟨[token, null], htokens.trans (congrArg _ heq), .isNull hoperator hnull⟩
    · cases h
  split at h
  · rename_i hoperator
    obtain ⟨⟨value, left⟩, hvalue, h⟩ := bind_eq_ok h
    cases h
    obtain ⟨token', rfl, htells⟩ := tells_of_instant hvalue
    exact ⟨[token, token'], htokens, .before hoperator htells⟩
  split at h
  · rename_i hoperator
    obtain ⟨⟨value, left⟩, hvalue, h⟩ := bind_eq_ok h
    cases h
    obtain ⟨token', rfl, htells⟩ := tells_of_instant hvalue
    exact ⟨[token, token'], htokens, .after hoperator htells⟩
  split at h
  · rename_i hoperator
    obtain ⟨⟨⟨start, finish⟩, left⟩, hvalue, h⟩ := bind_eq_ok h
    cases h
    obtain ⟨token', rfl, hstart, htells⟩ := tells_of_period hvalue
    exact ⟨[token, token'], htokens, .during hoperator hstart htells⟩
  · cases h

theorem derivation_of_intersects {keyword : Token} {filter : Filter}
    (hkeyword : keyword.isKeyword "INTERSECTS" = true)
    (h : intersects tokens = .ok (filter, rest)) :
    ∃ used, tokens = used ++ rest ∧ Primary (keyword :: used) filter := by
  obtain ⟨⟨_, _⟩, hopen, h⟩ := bind_eq_ok h
  obtain ⟨⟨property, _⟩, hproperty, h⟩ := bind_eq_ok h
  obtain ⟨⟨_, _⟩, hpart, h⟩ := bind_eq_ok h
  obtain ⟨⟨geometry, _⟩, hgeometry, h⟩ := bind_eq_ok h
  obtain ⟨⟨_, _⟩, hclose, h⟩ := bind_eq_ok h
  cases h
  obtain ⟨opening, rfl, hopening⟩ := kind_of_punctuation hopen
  obtain ⟨name, rfl, hname⟩ := names_of_property hproperty
  obtain ⟨comma, rfl, hcomma⟩ := kind_of_punctuation hpart
  obtain ⟨shape, rfl, hshape⟩ := outlines_of_geometry hgeometry
  obtain ⟨closing, rfl, hclosing⟩ := kind_of_punctuation hclose
  exact ⟨opening :: name :: comma :: (shape ++ [closing]), by simp,
    .intersects hkeyword hopening hname hcomma hshape hclosing⟩

theorem derivation_of_within {keyword : Token} {filter : Filter}
    (hkeyword : keyword.isKeyword "DWITHIN" = true) (h : within tokens = .ok (filter, rest)) :
    ∃ used, tokens = used ++ rest ∧ Primary (keyword :: used) filter := by
  obtain ⟨⟨_, _⟩, hopen, h⟩ := bind_eq_ok h
  obtain ⟨⟨property, _⟩, hproperty, h⟩ := bind_eq_ok h
  obtain ⟨⟨_, _⟩, hpart, h⟩ := bind_eq_ok h
  obtain ⟨⟨geometry, _⟩, hgeometry, h⟩ := bind_eq_ok h
  obtain ⟨⟨_, _⟩, hpart', h⟩ := bind_eq_ok h
  obtain ⟨⟨value, _⟩, hvalue, h⟩ := bind_eq_ok h
  obtain ⟨⟨_, _⟩, hpart'', h⟩ := bind_eq_ok h
  obtain ⟨⟨unit, _⟩, hunit, h⟩ := bind_eq_ok h
  obtain ⟨⟨_, _⟩, hclose, h⟩ := bind_eq_ok h
  cases h
  obtain ⟨opening, rfl, hopening⟩ := kind_of_punctuation hopen
  obtain ⟨name, rfl, hname⟩ := names_of_property hproperty
  obtain ⟨comma, rfl, hcomma⟩ := kind_of_punctuation hpart
  obtain ⟨shape, rfl, hshape⟩ := outlines_of_geometry hgeometry
  obtain ⟨comma', rfl, hcomma'⟩ := kind_of_punctuation hpart'
  obtain ⟨distance, rfl, hdistance⟩ := number_of_distance hvalue
  obtain ⟨comma'', rfl, hcomma''⟩ := kind_of_punctuation hpart''
  obtain ⟨units, rfl, hunits⟩ := word_of_units hunit
  obtain ⟨closing, rfl, hclosing⟩ := kind_of_punctuation hclose
  exact ⟨opening :: name :: comma ::
    (shape ++ [comma', distance, comma'', units, closing]), by simp,
    .within hkeyword hopening hname hcomma hshape hcomma' hdistance hcomma'' hunits hclosing⟩

theorem derivation_of_primary {filter : Filter} (h : primary tokens = .ok (filter, rest)) :
    ∃ used, tokens = used ++ rest ∧ Primary used filter := by
  cases tokens with
  | nil => cases h
  | cons token tokens =>
    rw [primary] at h
    split at h
    · obtain ⟨used, rfl, hused⟩ := derivation_of_intersects ‹_› h
      exact ⟨token :: used, rfl, hused⟩
    split at h
    · obtain ⟨used, rfl, hused⟩ := derivation_of_within ‹_› h
      exact ⟨token :: used, rfl, hused⟩
    · obtain ⟨⟨property, left⟩, hproperty, h⟩ := bind_eq_ok h
      obtain ⟨name, heq, hname⟩ := names_of_property hproperty
      obtain ⟨used, rfl, hused⟩ := derivation_of_predicate h
      exact ⟨name :: used, heq, .predicate hname hused⟩

/-! ## Chains -/

/-- A step reads only what is derived. -/
def Derives (step : Step Filter) (derived : List Token → Filter → Prop) : Prop :=
  ∀ tokens filter rest, step tokens = .ok (filter, rest) →
    ∃ used, tokens = used ++ rest ∧ derived used filter

theorem more_of_moreOperands {word : String} {step : Step Filter}
    {derived : List Token → Filter → Prop} (hstep : Derives step derived) {steps : Nat}
    {filters : List Filter} (h : moreOperands word step steps tokens = .ok (filters, rest)) :
    ∃ used, tokens = used ++ rest ∧ More word derived used filters := by
  induction steps generalizing tokens filters with
  | zero =>
    cases h
    exact ⟨[], rfl, .nil⟩
  | succ steps ih =>
    cases tokens with
    | nil =>
      cases h
      exact ⟨[], rfl, .nil⟩
    | cons token tokens =>
      rw [moreOperands] at h
      split at h
      · rename_i hkeyword
        obtain ⟨⟨first, left⟩, hfirst, h⟩ := bind_eq_ok h
        obtain ⟨⟨more, others⟩, hmore, h⟩ := bind_eq_ok h
        cases h
        obtain ⟨operand, rfl, hoperand⟩ := hstep _ _ _ hfirst
        obtain ⟨later, rfl, hlater⟩ := ih hmore
        exact ⟨token :: (operand ++ later), by simp, .cons hkeyword hoperand hlater⟩
      · cases h
        exact ⟨[], rfl, .nil⟩

theorem derives_chain {word : String} {step : Step Filter}
    {derived : List Token → Filter → Prop} (hstep : Derives step derived)
    (join : List Filter → Filter) : Derives (chain word join step) (Chain word join derived) := by
  intro tokens filter rest h
  obtain ⟨⟨first, left⟩, hfirst, h⟩ := bind_eq_ok h
  obtain ⟨⟨more, others⟩, hmore, h⟩ := bind_eq_ok h
  obtain ⟨operand, htokens, hoperand⟩ := hstep _ _ _ hfirst
  obtain ⟨later, hleft, hlater⟩ := more_of_moreOperands hstep hmore
  have heq : tokens = operand ++ later ++ others := by rw [htokens, hleft, List.append_assoc]
  cases more <;> cases h <;> exact ⟨operand ++ later, heq, .intro hoperand hlater⟩

theorem derives_expression {step : Step Filter} {derived : List Token → Filter → Prop}
    (hstep : Derives step derived) : Derives (expression step) (Expression derived) :=
  derives_chain (derives_chain hstep .and) .or

/-- What is read within some levels has a derivation within as many. -/
theorem derives_operand (levels : Nat) : Derives (operand levels) (Operand levels) := by
  induction levels with
  | zero =>
    intro tokens filter rest h
    cases tokens with
    | nil => cases h
    | cons token tokens =>
      rw [operand] at h
      split at h
      · cases h
      split at h
      · cases h
      · exact derivation_of_primary h
  | succ levels ih =>
    intro tokens filter rest h
    cases tokens with
    | nil => cases h
    | cons token tokens =>
      rw [operand] at h
      split at h
      · rename_i hnegation
        obtain ⟨⟨inner, left⟩, hinner, h⟩ := bind_eq_ok h
        cases h
        obtain ⟨used, rfl, hused⟩ := ih _ _ _ hinner
        exact ⟨token :: used, rfl, .inr (.inl ⟨token, used, inner, hnegation, hused, rfl, rfl⟩)⟩
      split at h
      · rename_i hopening
        obtain ⟨⟨inner, left⟩, hinner, h⟩ := bind_eq_ok h
        obtain ⟨⟨_, others⟩, hclose, h⟩ := bind_eq_ok h
        cases h
        obtain ⟨used, rfl, hused⟩ := derives_expression ih _ _ _ hinner
        obtain ⟨closing, rfl, hclosing⟩ := kind_of_punctuation hclose
        exact ⟨token :: (used ++ [closing]), by simp,
          .inr (.inr ⟨token, used, closing, hopening, hused, hclosing, rfl⟩)⟩
      · obtain ⟨used, heq, hused⟩ := derivation_of_primary h
        exact ⟨used, heq, .of_primary hused _⟩

/-- Tokens that are read as a filter, if there are any, have a derivation within the limit. -/
theorem derivation_of_query {filter : Filter} (h : query tokens = .ok filter) :
    tokens = [] ∧ filter = .and [] ∨ Expression (Operand nestingLimit) tokens filter := by
  cases tokens with
  | nil =>
    cases h
    exact .inl ⟨rfl, rfl⟩
  | cons token tokens =>
    obtain ⟨⟨read, rest⟩, hread, h⟩ := bind_eq_ok h
    obtain ⟨used, heq, hused⟩ := derives_expression (derives_operand nestingLimit) _ _ _ hread
    dsimp only at h
    split at h <;> cases h
    rw [List.append_nil] at heq
    exact .inr (heq ▸ hused)

end Grammar

end CatalogSearch.Cql
