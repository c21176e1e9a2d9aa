import CatalogSearch.Proofs.Cql.Depth

/-!
# The language of queries

The grammar as it stands in a reference: a query is a disjunction of conjunctions, an
operand of which is a negation, a query in parentheses or a predicate.  Every derivation
carries how deep its negations and parentheses nest, whatever the limit is.  A text is
read as a filter just if its tokens have such a derivation within the limit.
-/

namespace CatalogSearch.Cql.Language

/-! ## Derivations -/

mutual

/-- Conjunctions with `OR` between them, and the filters of these. -/
inductive Disjunction : Nat → List Token → List Filter → Prop
  | single {nesting : Nat} {made : List Token} {operands : List Filter}
      (hfirst : Conjunction nesting made operands) :
      Disjunction nesting made [.joined .and operands]
  | cons {nesting deeper : Nat} {keyword : Token} {made more : List Token}
      {operands filters : List Filter} (hfirst : Conjunction nesting made operands)
      (hkeyword : keyword.isKeyword "OR" = true) (hmore : Disjunction deeper more filters) :
      Disjunction (max nesting deeper) (made ++ keyword :: more)
        (.joined .and operands :: filters)

/-- Operands with `AND` between them, and the filters of these. -/
inductive Conjunction : Nat → List Token → List Filter → Prop
  | single {nesting : Nat} {made : List Token} {filter : Filter}
      (hfirst : Operand nesting made filter) : Conjunction nesting made [filter]
  | cons {nesting deeper : Nat} {keyword : Token} {made more : List Token} {filter : Filter}
      {filters : List Filter} (hfirst : Operand nesting made filter)
      (hkeyword : keyword.isKeyword "AND" = true) (hmore : Conjunction deeper more filters) :
      Conjunction (max nesting deeper) (made ++ keyword :: more) (filter :: filters)

inductive Operand : Nat → List Token → Filter → Prop
  | predicate {made : List Token} {filter : Filter} (h : Grammar.Primary made filter) :
      Operand 0 made filter
  | negation {nesting : Nat} {keyword : Token} {made : List Token} {filter : Filter}
      (hkeyword : keyword.isKeyword "NOT" = true) (hoperand : Operand nesting made filter) :
      Operand (nesting + 1) (keyword :: made) (.not filter)
  | parentheses {nesting : Nat} {opening closing : Token} {made : List Token}
      {operands : List Filter} (hopening : opening.kind = .openParenthesis)
      (hinner : Disjunction nesting made operands)
      (hclosing : closing.kind = .closeParenthesis) :
      Operand (nesting + 1) (opening :: (made ++ [closing])) (.joined .or operands)

end

/-! ## Operands with a keyword between them -/

/-- One or more operands with a keyword between them. -/
inductive Separated (word : String) (operand : List Token → Filter → Prop) :
    List Token → List Filter → Prop
  | single {made : List Token} {filter : Filter} (hfirst : operand made filter) :
      Separated word operand made [filter]
  | cons {keyword : Token} {made more : List Token} {filter : Filter} {filters : List Filter}
      (hfirst : operand made filter) (hkeyword : keyword.isKeyword word = true)
      (hmore : Separated word operand more filters) :
      Separated word operand (made ++ keyword :: more) (filter :: filters)

variable {word : String} {operand : List Token → Filter → Prop} {made others : List Token}
  {filter : Filter} {filters operands : List Filter} {nesting levels : Nat}

theorem gathered_eq_joined (join : List Filter → Filter) (first : Filter)
    (filters : List Filter) :
    Grammar.gathered join first filters = .joined join (first :: filters) := by
  cases filters <;> rfl

theorem Separated.of_more (hfirst : operand made filter)
    (hmore : Grammar.More word operand others filters) :
    Separated word operand (made ++ others) (filter :: filters) := by
  induction hmore generalizing made filter with
  | nil =>
    rw [List.append_nil]
    exact .single hfirst
  | cons hkeyword hoperand _ ih => exact .cons hfirst hkeyword (ih hoperand)

theorem Separated.exists_more (h : Separated word operand made operands) :
    ∃ before others first filters, made = before ++ others ∧ operands = first :: filters ∧
      operand before first ∧ Grammar.More word operand others filters := by
  induction h with
  | @single made filter hfirst =>
    exact ⟨made, [], filter, [], (List.append_nil made).symm, rfl, hfirst, .nil⟩
  | @cons keyword made more filter filters hfirst hkeyword _ ih =>
    obtain ⟨before, others, first, rest, rfl, rfl, hbefore, hothers⟩ := ih
    exact ⟨made, keyword :: (before ++ others), filter, first :: rest, rfl, rfl, hfirst,
      .cons hkeyword hbefore hothers⟩

/-- A chain gathers operands with a keyword between them. -/
theorem chain_iff {join : List Filter → Filter} :
    Grammar.Chain word join operand made filter ↔
      ∃ operands, Separated word operand made operands ∧ filter = .joined join operands := by
  constructor
  · rintro ⟨hfirst, hmore⟩
    exact ⟨_, .of_more hfirst hmore, gathered_eq_joined _ _ _⟩
  · rintro ⟨operands, h, rfl⟩
    obtain ⟨before, others, first, filters, rfl, rfl, hbefore, hothers⟩ := h.exists_more
    rw [← gathered_eq_joined]
    exact .intro hbefore hothers

/-! ## Derivations within some levels -/

/-- Operands that nest within some levels make a conjunction that does. -/
theorem Separated.exists_conjunction (h : Separated "AND" operand made operands)
    (hoperand : ∀ made filter, operand made filter →
      ∃ nesting ≤ levels, Operand nesting made filter) :
    ∃ nesting ≤ levels, Conjunction nesting made operands := by
  induction h with
  | single hfirst =>
    obtain ⟨nesting, hle, hfirst⟩ := hoperand _ _ hfirst
    exact ⟨nesting, hle, .single hfirst⟩
  | cons hfirst hkeyword _ ih =>
    obtain ⟨nesting, hle, hfirst⟩ := hoperand _ _ hfirst
    obtain ⟨deeper, hdeeper, hmore⟩ := ih
    exact ⟨max nesting deeper, Nat.max_le.2 ⟨hle, hdeeper⟩, .cons hfirst hkeyword hmore⟩

theorem Separated.exists_disjunction (h : Separated "OR" operand made operands)
    (hoperand : ∀ made filter, operand made filter →
      ∃ nesting ≤ levels, ∃ operands, Conjunction nesting made operands ∧
        filter = .joined .and operands) :
    ∃ nesting ≤ levels, Disjunction nesting made operands := by
  induction h with
  | single hfirst =>
    obtain ⟨nesting, hle, operands, hconjunction, rfl⟩ := hoperand _ _ hfirst
    exact ⟨nesting, hle, .single hconjunction⟩
  | cons hfirst hkeyword _ ih =>
    obtain ⟨nesting, hle, operands, hconjunction, rfl⟩ := hoperand _ _ hfirst
    obtain ⟨deeper, hdeeper, hmore⟩ := ih
    exact ⟨max nesting deeper, Nat.max_le.2 ⟨hle, hdeeper⟩, .cons hconjunction hkeyword hmore⟩

theorem exists_disjunction_of_expression
    (hoperand : ∀ made filter, operand made filter →
      ∃ nesting ≤ levels, Operand nesting made filter)
    (h : Grammar.Expression operand made filter) :
    ∃ nesting ≤ levels, ∃ operands, Disjunction nesting made operands ∧
      filter = .joined .or operands := by
  obtain ⟨operands, hoperands, rfl⟩ := chain_iff.1 h
  have hdisjunction : ∃ nesting ≤ levels, Disjunction nesting made operands := by
    refine hoperands.exists_disjunction fun made filter h => ?_
    obtain ⟨conjuncts, hconjuncts, rfl⟩ := chain_iff.1 h
    obtain ⟨nesting, hle, hconjunction⟩ := hconjuncts.exists_conjunction hoperand
    exact ⟨nesting, hle, conjuncts, hconjunction, rfl⟩
  obtain ⟨nesting, hle, hdisjunction⟩ := hdisjunction
  exact ⟨nesting, hle, operands, hdisjunction, rfl⟩

/-- What is derived within some levels has a derivation that nests no deeper. -/
theorem exists_operand (h : Grammar.Operand levels made filter) :
    ∃ nesting ≤ levels, Operand nesting made filter := by
  induction levels generalizing made filter with
  | zero => exact ⟨0, Nat.le_refl 0, .predicate h⟩
  | succ levels ih =>
    obtain h | ⟨keyword, rest, inner, hkeyword, hinner, rfl, rfl⟩ |
      ⟨opening, inner, closing, hopening, hinner, hclosing, rfl⟩ := h
    · exact ⟨0, Nat.zero_le _, .predicate h⟩
    · obtain ⟨nesting, hle, hoperand⟩ := ih hinner
      exact ⟨nesting + 1, Nat.succ_le_succ hle, .negation hkeyword hoperand⟩
    · obtain ⟨nesting, hle, operands, hdisjunction, rfl⟩ :=
        exists_disjunction_of_expression (fun _ _ => ih) hinner
      exact ⟨nesting + 1, Nat.succ_le_succ hle, .parentheses hopening hdisjunction hclosing⟩

mutual

theorem Disjunction.separated : ∀ {nesting levels : Nat} {made : List Token}
    {operands : List Filter}, Disjunction nesting made operands → nesting ≤ levels →
      Separated "OR" (Grammar.Chain "AND" .and (Grammar.Operand levels)) made operands
  | _, _, _, _, .single hfirst, hle => by
    have hoperands := hfirst.separated hle
    exact .single (chain_iff.2 ⟨_, hoperands, rfl⟩)
  | _, _, _, _, .cons hfirst hkeyword hmore, hle => by
    obtain ⟨hnesting, hdeeper⟩ := Nat.max_le.1 hle
    have hoperands := hfirst.separated hnesting
    exact .cons (chain_iff.2 ⟨_, hoperands, rfl⟩) hkeyword (hmore.separated hdeeper)

theorem Conjunction.separated : ∀ {nesting levels : Nat} {made : List Token}
    {operands : List Filter}, Conjunction nesting made operands → nesting ≤ levels →
      Separated "AND" (Grammar.Operand levels) made operands
  | _, _, _, _, .single hfirst, hle => .single (hfirst.within hle)
  | _, _, _, _, .cons hfirst hkeyword hmore, hle => by
    obtain ⟨hnesting, hdeeper⟩ := Nat.max_le.1 hle
    exact .cons (hfirst.within hnesting) hkeyword (hmore.separated hdeeper)

/-- What has a derivation is derived within as many levels as that nests deep. -/
theorem Operand.within : ∀ {nesting levels : Nat} {made : List Token} {filter : Filter},
    Operand nesting made filter → nesting ≤ levels → Grammar.Operand levels made filter
  | _, levels, _, _, .predicate h, _ => .of_primary h levels
  | nesting + 1, levels, _, _, .negation hkeyword hoperand, hle => by
    have hinner := hoperand.within (Nat.le_sub_of_add_le hle)
    exact (Grammar.operand_negation_iff hkeyword).2 ⟨levels - 1, by omega, hinner⟩
  | nesting + 1, levels, _, _, .parentheses hopening hinner hclosing, hle => by
    have hoperands := hinner.separated (Nat.le_sub_of_add_le hle)
    exact (Grammar.operand_parentheses_iff hopening hclosing).2
      ⟨levels - 1, by omega, chain_iff.2 ⟨_, hoperands, rfl⟩⟩

end

/-- To be derived within some levels is to have a derivation that nests no deeper. -/
theorem expression_iff :
    Grammar.Expression (Grammar.Operand levels) made filter ↔
      ∃ nesting ≤ levels, ∃ operands, Disjunction nesting made operands ∧
        filter = .joined .or operands := by
  constructor
  · exact exists_disjunction_of_expression fun _ _ => exists_operand
  · rintro ⟨nesting, hle, operands, h, rfl⟩
    exact chain_iff.2 ⟨operands, h.separated hle, rfl⟩

/-! ## What is read -/

theorem query_eq_ok_iff :
    Step.query made = .ok filter ↔ made = [] ∧ filter = .and [] ∨
      ∃ nesting ≤ nestingLimit, ∃ operands, Disjunction nesting made operands ∧
        filter = .joined .or operands := by
  rw [← expression_iff]
  constructor
  · exact Grammar.derivation_of_query
  · rintro (⟨rfl, rfl⟩ | h)
    · rfl
    · exact Grammar.query_of_derivation h

/-- A text is read as a filter just if it is cut into tokens and either has none, which is
the empty conjunction, or all of them together are derived as a disjunction that gives the
filter, whose negations and parentheses nest within the limit. -/
theorem parse_eq_ok_iff {text : String} {filter : Filter} :
    parse text = .ok filter ↔
      ∃ made, tokens 0 text.toList = .ok made ∧
        (made = [] ∧ filter = .and [] ∨
          ∃ nesting ≤ nestingLimit, ∃ operands, Disjunction nesting made operands ∧
            filter = .joined .or operands) := by
  simp only [← query_eq_ok_iff]
  rw [parse]
  cases tokens 0 text.toList with
  | error fault => simp [Except.bind]
  | ok made =>
    simp only [Except.bind, Except.ok.injEq, exists_eq_left']
    cases Step.query made with
    | error fault => simp
    | ok read => simp

/-- The first `AND` belongs to the range and the second joins the operands. -/
example :
    parse "size BETWEEN 1 and 2 AND NOT (name NOT LIKE 'x' Or DURING IS NULL)" =
        .error ⟨51, .expected .property⟩ ∧
      parse "size BETWEEN 1 and 2 AND NOT (name NOT LIKE 'x' Or \"DURING\" IS NULL)" =
        .ok (.and [.between "size" (.number (.ofInt 1)) (.number (.ofInt 2)),
          .not (.or [.not (.compare "name" .like (.text "x")), .isNull "DURING"])]) := by
  decide +kernel

end CatalogSearch.Cql.Language
