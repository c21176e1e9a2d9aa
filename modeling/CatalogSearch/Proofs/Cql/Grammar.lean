import CatalogSearch.Cql.Token

/-!
# The grammar of query text

What a run of tokens stands for, told without regard to how it is read.  A
derivation is bounded by the levels of nesting that it may use: a prefix `NOT` and a
pair of parentheses use one each.
-/

namespace CatalogSearch.Cql

section Results

variable {ε α β : Type}

theorem bind_eq_ok {step : Except ε α} {next : α → Except ε β} {result : β}
    (h : (step >>= next) = .ok result) : ∃ value, step = .ok value ∧ next value = .ok result := by
  cases step with
  | error error => cases h
  | ok value => exact ⟨value, rfl, h⟩

theorem map_eq_ok {step : Except ε α} {change : α → β} {result : β}
    (h : step.map change = .ok result) : ∃ value, step = .ok value ∧ change value = result := by
  cases step with
  | error error => cases h
  | ok value => exact ⟨value, rfl, Except.ok.inj h⟩

/-- A step that can only come to one value can be changed to one result only. -/
theorem map_eq_ok_iff {step : Except ε α} {change : α → β} {p : Prop} {value : α} {result : β}
    (h : ∀ other, step = .ok other ↔ p ∧ other = value) :
    step.map change = .ok result ↔ p ∧ result = change value := by
  constructor
  · intro hmap
    obtain ⟨other, hother, rfl⟩ := map_eq_ok hmap
    obtain ⟨hp, rfl⟩ := (h other).1 hother
    exact ⟨hp, rfl⟩
  · rintro ⟨hp, rfl⟩
    rw [(h value).2 ⟨hp, rfl⟩]
    rfl

end Results

namespace Token

/-- The token names a property: it is quoted, or a word that is no keyword. -/
def Names (token : Token) (name : String) : Prop :=
  token.kind = .quotedName name ∨ token.kind = .word name ∧ isReserved name.toList = false

/-- The token is a literal value. -/
def States (token : Token) : Literal → Prop
  | .text value => token.kind = .text value
  | .number value => token.kind = .number value
  | .bool true => token.isKeyword "TRUE" = true
  | .bool false => token.isKeyword "FALSE" = true

/-- The token is the keyword of a comparison with wildcards. -/
inductive Wildcards (token : Token) : Comparison → Prop
  | like (hword : token.isKeyword "LIKE" = true) : Wildcards token .like
  | ilike (hword : token.isKeyword "ILIKE" = true) : Wildcards token .ilike

/-- The token is a point in time or a period; a number counts as written. -/
inductive Tells (token : Token) : String → Prop
  | instant {value : String} (hkind : token.kind = .instant value) : Tells token value
  | text {value : String} (hkind : token.kind = .text value) : Tells token value
  | number {value : Double} (hkind : token.kind = .number value) :
      Tells token (String.ofList token.lexeme)

theorem exists_word_of_isKeyword {token : Token} {word : String}
    (h : token.isKeyword word = true) :
    ∃ name, token.kind = .word name ∧ Text.sameWord word.toList name.toList = true := by
  unfold isKeyword at h
  split at h
  · rename_i name hkind
    exact ⟨name, hkind, h⟩
  · cases h

theorem isKeyword_of_word {token : Token} {name : String} (h : token.kind = .word name)
    (word : String) : token.isKeyword word = Text.sameWord word.toList name.toList := by
  rw [isKeyword, h]

theorem isKeyword_eq_false {token : Token} (h : ∀ name, token.kind ≠ .word name)
    (word : String) : token.isKeyword word = false := by
  unfold isKeyword
  split
  · rename_i name hkind
    exact absurd hkind (h name)
  · rfl

/-- A keyword is no other keyword. -/
theorem isKeyword_other {token : Token} {word : String} (h : token.isKeyword word = true)
    {other : String} (hne : Text.lower other.toList ≠ Text.lower word.toList) :
    token.isKeyword other = false := by
  obtain ⟨name, hkind, hsame⟩ := exists_word_of_isKeyword h
  rw [isKeyword_of_word hkind, Text.sameWord]
  rw [Text.sameWord, beq_iff_eq] at hsame
  rwa [← hsame, beq_eq_false_iff_ne]

/-- The name of a property is no keyword. -/
theorem Names.not_isKeyword {token : Token} {name : String} (h : token.Names name)
    {word : String} (hword : word ∈ keywords) : token.isKeyword word = false := by
  obtain hkind | ⟨hkind, hreserved⟩ := h
  · exact isKeyword_eq_false (by simp [hkind]) word
  · rw [isKeyword_of_word hkind]
    rw [isReserved, List.any_eq_false] at hreserved
    exact Bool.eq_false_iff.2 (hreserved word hword)

/-- Tokens as they are written. -/
def spelled (tokens : List Token) : List Char :=
  tokens.flatMap fun token => token.blanks ++ token.lexeme

@[simp]
theorem spelled_nil : spelled [] = [] := rfl

@[simp]
theorem spelled_cons (token : Token) (tokens : List Token) :
    spelled (token :: tokens) = token.blanks ++ token.lexeme ++ spelled tokens := rfl

@[simp]
theorem spelled_append (first second : List Token) :
    spelled (first ++ second) = spelled first ++ spelled second := List.flatMap_append

end Token

namespace Grammar

/-- Tokens in which every parenthesis is closed. -/
inductive Balanced : List Token → Prop
  | nil : Balanced []
  | plain {token : Token} {rest : List Token} (hopen : token.kind ≠ .openParenthesis)
      (hclose : token.kind ≠ .closeParenthesis) (hrest : Balanced rest) :
      Balanced (token :: rest)
  | nested {opening closing : Token} {inner rest : List Token}
      (hopening : opening.kind = .openParenthesis) (hinner : Balanced inner)
      (hclosing : closing.kind = .closeParenthesis) (hrest : Balanced rest) :
      Balanced (opening :: (inner ++ closing :: rest))

/-- A geometry: a word and one group in parentheses. -/
inductive Outlines : List Token → String → Prop
  | intro {head opening closing : Token} {name : String} {inner : List Token}
      (hhead : head.kind = .word name) (hopening : opening.kind = .openParenthesis)
      (hinner : Balanced inner) (hclosing : closing.kind = .closeParenthesis) :
      Outlines (head :: opening :: (inner ++ [closing]))
        (String.ofList (head.lexeme ++ Token.spelled (opening :: (inner ++ [closing]))))

/-- What is said about a property. -/
inductive Predicate (property : String) : List Token → Filter → Prop
  | comparison {operator value : Token} {comparison : Comparison} {literal : Literal}
      (hoperator : operator.kind = .comparison comparison) (hvalue : value.States literal) :
      Predicate property [operator, value] (.compare property comparison literal)
  | pattern {operator value : Token} {comparison : Comparison} {text : String}
      (hoperator : operator.Wildcards comparison)
      (hvalue : value.kind = .text text) :
      Predicate property [operator, value] (.compare property comparison (.text text))
  | notPattern {negation operator value : Token} {comparison : Comparison} {text : String}
      (hnegation : negation.isKeyword "NOT" = true)
      (hoperator : operator.Wildcards comparison)
      (hvalue : value.kind = .text text) :
      Predicate property [negation, operator, value]
        (.not (.compare property comparison (.text text)))
  | between {operator lower conjunction upper : Token} {first second : Literal}
      (hoperator : operator.isKeyword "BETWEEN" = true) (hlower : lower.States first)
      (hconjunction : conjunction.isKeyword "AND" = true) (hupper : upper.States second) :
      Predicate property [operator, lower, conjunction, upper] (.between property first second)
  | isNull {operator null : Token} (hoperator : operator.isKeyword "IS" = true)
      (hnull : null.isKeyword "NULL" = true) :
      Predicate property [operator, null] (.isNull property)
  | isNotNull {operator negation null : Token} (hoperator : operator.isKeyword "IS" = true)
      (hnegation : negation.isKeyword "NOT" = true) (hnull : null.isKeyword "NULL" = true) :
      Predicate property [operator, negation, null] (.not (.isNull property))
  | before {operator value : Token} {instant : String}
      (hoperator : operator.isKeyword "BEFORE" = true) (hvalue : value.Tells instant) :
      Predicate property [operator, value] (.before property instant)
  | after {operator value : Token} {instant : String}
      (hoperator : operator.isKeyword "AFTER" = true) (hvalue : value.Tells instant) :
      Predicate property [operator, value] (.after property instant)
  | during {operator value : Token} {start finish : String}
      (hoperator : operator.isKeyword "DURING" = true) (hstart : '/' ∉ start.toList)
      (hvalue : value.Tells (String.ofList (start.toList ++ '/' :: finish.toList))) :
      Predicate property [operator, value] (.during property start finish)

/-- A predicate that is not in parentheses. -/
inductive Primary : List Token → Filter → Prop
  | predicate {name : Token} {property : String} {tokens : List Token} {filter : Filter}
      (hname : name.Names property) (hpredicate : Predicate property tokens filter) :
      Primary (name :: tokens) filter
  | intersects {keyword opening name comma closing : Token} {shape : List Token}
      {property geometry : String} (hkeyword : keyword.isKeyword "INTERSECTS" = true)
      (hopening : opening.kind = .openParenthesis) (hname : name.Names property)
      (hcomma : comma.kind = .comma) (hshape : Outlines shape geometry)
      (hclosing : closing.kind = .closeParenthesis) :
      Primary (keyword :: opening :: name :: comma :: (shape ++ [closing]))
        (.intersects property geometry)
  | within {keyword opening name comma closing : Token} {shape : List Token}
      {comma' distance comma'' units : Token} {property geometry : String} {value : Double}
      {unit : String} (hkeyword : keyword.isKeyword "DWITHIN" = true)
      (hopening : opening.kind = .openParenthesis) (hname : name.Names property)
      (hcomma : comma.kind = .comma) (hshape : Outlines shape geometry)
      (hcomma' : comma'.kind = .comma) (hdistance : distance.kind = .number value)
      (hcomma'' : comma''.kind = .comma) (hunits : units.kind = .word unit)
      (hclosing : closing.kind = .closeParenthesis) :
      Primary
        (keyword :: opening :: name :: comma ::
          (shape ++ [comma', distance, comma'', units, closing]))
        (.within property geometry value unit)

/-- Further operands, each after a keyword. -/
inductive More (word : String) (operand : List Token → Filter → Prop) :
    List Token → List Filter → Prop
  | nil : More word operand [] []
  | cons {keyword : Token} {tokens more : List Token} {filter : Filter} {filters : List Filter}
      (hkeyword : keyword.isKeyword word = true) (hoperand : operand tokens filter)
      (hmore : More word operand more filters) :
      More word operand (keyword :: (tokens ++ more)) (filter :: filters)

/-- Some operands as one group, unless there is just one. -/
def gathered (join : List Filter → Filter) (first : Filter) : List Filter → Filter
  | [] => first
  | more => join (first :: more)

/-- Operands with a keyword between them. -/
inductive Chain (word : String) (join : List Filter → Filter)
    (operand : List Token → Filter → Prop) : List Token → Filter → Prop
  | intro {tokens more : List Token} {first : Filter} {filters : List Filter}
      (hoperand : operand tokens first) (hmore : More word operand more filters) :
      Chain word join operand (tokens ++ more) (gathered join first filters)

/-- A disjunction of conjunctions of operands. -/
def Expression (operand : List Token → Filter → Prop) : List Token → Filter → Prop :=
  Chain "OR" .or (Chain "AND" .and operand)

/-- A negation, an expression in parentheses or a predicate, within some levels of
nesting. -/
def Operand : Nat → List Token → Filter → Prop
  | 0, tokens, filter => Primary tokens filter
  | levels + 1, tokens, filter =>
    Primary tokens filter ∨
    (∃ negation rest inner, negation.isKeyword "NOT" = true ∧ Operand levels rest inner ∧
      tokens = negation :: rest ∧ filter = .not inner) ∨
    ∃ opening inner closing, opening.kind = .openParenthesis ∧
      Expression (Operand levels) inner filter ∧ closing.kind = .closeParenthesis ∧
      tokens = opening :: (inner ++ [closing])

theorem Operand.of_primary {tokens : List Token} {filter : Filter} (h : Primary tokens filter)
    (levels : Nat) : Operand levels tokens filter := by
  cases levels with
  | zero => exact h
  | succ levels => exact .inl h

theorem Chain.single {word : String} {join : List Filter → Filter}
    {operand : List Token → Filter → Prop} {tokens : List Token} {filter : Filter}
    (h : operand tokens filter) : Chain word join operand tokens filter := by
  have hchain : Chain word join operand (tokens ++ []) (gathered join filter []) := .intro h .nil
  rwa [List.append_nil] at hchain

/-! ## What derivations pass on -/

section Passing

variable {run : List Token → Prop} {property : Filter → Prop}
variable {derived : List Token → Filter → Prop}

/-- What holds of tokens in a row holds of the first ones of them and of the last ones. -/
structure Hereditary (run : List Token → Prop) : Prop where
  left {first second : List Token} (h : run (first ++ second)) : run first
  right {first second : List Token} (h : run (first ++ second)) : run second

theorem Hereditary.tail (hrun : Hereditary run) {token : Token} {rest : List Token}
    (h : run (token :: rest)) : run rest := by
  have happend : run ([token] ++ rest) := h
  exact hrun.right happend

/-- What holds of filters holds of their negations and of groups of more than one of them. -/
structure Inherited (property : Filter → Prop) : Prop where
  not {filter : Filter} (h : property filter) : property (.not filter)
  and {first second : Filter} {operands : List Filter}
    (h : ∀ operand ∈ first :: second :: operands, property operand) :
    property (.and (first :: second :: operands))
  or {first second : Filter} {operands : List Filter}
    (h : ∀ operand ∈ first :: second :: operands, property operand) :
    property (.or (first :: second :: operands))

/-- What is derived from some tokens has a property if the tokens have one. -/
def Passes (run : List Token → Prop) (property : Filter → Prop)
    (derived : List Token → Filter → Prop) : Prop :=
  ∀ tokens filter, run tokens → derived tokens filter → property filter

theorem Passes.more (h : Passes run property derived) (hrun : Hereditary run) {word : String}
    {tokens : List Token} {filters : List Filter} (htokens : run tokens)
    (hmore : More word derived tokens filters) : ∀ filter ∈ filters, property filter := by
  induction hmore with
  | nil => nofun
  | cons _ hfirst _ ih =>
    have hrest := hrun.tail htokens
    exact List.forall_mem_cons.2 ⟨h _ _ (hrun.left hrest) hfirst, ih (hrun.right hrest)⟩

theorem Passes.chain (h : Passes run property derived) (hrun : Hereditary run) {word : String}
    {join : List Filter → Filter}
    (hjoin : ∀ first second operands, (∀ operand ∈ first :: second :: operands, property operand) →
      property (join (first :: second :: operands))) :
    Passes run property (Chain word join derived) := by
  rintro _ _ htokens ⟨hfirst, hmore⟩
  have hfirst := h _ _ (hrun.left htokens) hfirst
  have hmore := h.more hrun (hrun.right htokens) hmore
  rename_i filters
  cases filters with
  | nil => exact hfirst
  | cons second operands => exact hjoin _ _ _ (List.forall_mem_cons.2 ⟨hfirst, hmore⟩)

theorem Passes.expression (h : Passes run property derived) (hrun : Hereditary run)
    (hproperty : Inherited property) : Passes run property (Expression derived) := by
  have hand : Passes run property (Chain "AND" .and derived) :=
    h.chain hrun fun _ _ _ => hproperty.and
  exact hand.chain hrun fun _ _ _ => hproperty.or

/-- A property of predicates that negations and groups inherit is one of all operands. -/
theorem Passes.operand (h : Passes run property Primary) (hrun : Hereditary run)
    (hproperty : Inherited property) (levels : Nat) :
    Passes run property (Operand levels) := by
  induction levels with
  | zero => exact h
  | succ levels ih =>
    rintro tokens filter htokens (hprimary | ⟨negation, inner, filter, -, hinner, rfl, rfl⟩ |
      ⟨opening, inner, closing, -, hinner, -, rfl⟩)
    · exact h _ _ htokens hprimary
    · exact hproperty.not (ih _ _ (hrun.tail htokens) hinner)
    · exact ih.expression hrun hproperty _ _ (hrun.left (hrun.tail htokens)) hinner

end Passing

end Grammar

end CatalogSearch.Cql
