import CatalogSearch.Proofs.Cql.Spans

/-!
# Where faults stand

A step of the reader passes on the last ones of the tokens it is given, or its fault stands at
one of them or at the end of the text.  So the fault of a whole text stands at a character of it
or at its end, and so does a fault in cutting the text into tokens.
-/

namespace CatalogSearch.Cql

open Step
open Text (Boundary slice?)

section Placed

variable {α β : Type} {made rest : List Token} {token : Token}

/-- What a step comes to on some tokens: the last ones of them are left, or the fault stands at
one of them, unless it stands at the end of the text. -/
def Placed (made : List Token) : Except Fault (α × List Token) → Prop
  | .ok (_, rest) => rest <:+ made
  | .error fault => ∀ place, fault.place = some place → ∃ token ∈ made, token.start = place

/-- The step leaves and blames none but the tokens that it is given. -/
def Local (step : Step α) : Prop := ∀ made, Placed made (step made)

theorem placed_failAtEnd (problem : Problem) :
    Placed made (failAtEnd problem : Except Fault (α × List Token)) := nofun

theorem placed_failAt (hmem : token ∈ made) (problem : Problem) :
    Placed made (failAt token problem : Except Fault (α × List Token)) := by
  rintro place ⟨⟩
  exact ⟨token, hmem, rfl⟩

@[simp]
theorem placed_missing (token : Token) (rest : List Token) (what : Expectation) :
    Placed (token :: rest) (missing token what : Except Fault (α × List Token)) :=
  placed_failAt List.mem_cons_self (.expected what)

@[simp]
theorem placed_ok (token : Token) (rest : List Token) (value : α) :
    Placed (token :: rest) (.ok (value, rest)) := List.suffix_cons token rest

/-- What holds of some tokens holds of any that end with them. -/
theorem Placed.mono {result : Except Fault (α × List Token)} (h : Placed rest result)
    (hrest : rest <:+ made) : Placed made result := by
  cases result with
  | ok pair => exact List.IsSuffix.trans h hrest
  | error fault =>
    intro place hplace
    obtain ⟨token, hmem, hstart⟩ := h place hplace
    exact ⟨token, hrest.subset hmem, hstart⟩

theorem Placed.bind {result : Except Fault (α × List Token)} (h : Placed made result)
    {next : α × List Token → Except Fault (β × List Token)}
    (hnext : ∀ value rest, rest <:+ made → Placed made (next (value, rest))) :
    Placed made (result >>= next) := by
  cases result with
  | ok pair => exact hnext pair.1 pair.2 h
  | error fault => exact h

/-- A step may begin where others have left off. -/
theorem Local.bind {step : Step α} (h : Local step) (hrest : rest <:+ made)
    {next : α × List Token → Except Fault (β × List Token)}
    (hnext : ∀ value left, left <:+ made → Placed made (next (value, left))) :
    Placed made (step rest >>= next) :=
  ((h rest).mono hrest).bind hnext

theorem Placed.map {result : Except Fault (α × List Token)} (h : Placed made result)
    {change : α × List Token → β × List Token} (hchange : ∀ pair, (change pair).2 = pair.2) :
    Placed made (result.map change) := by
  cases result with
  | ok pair =>
    change (change pair).2 <:+ made
    rw [hchange]
    exact h
  | error fault => exact h

/-- A step may blame the token that it starts with and leave what comes after. -/
theorem placed_anyToken {next : Token × List Token → Except Fault (α × List Token)}
    (h : ∀ token rest, Placed (token :: rest) (next (token, rest))) :
    Placed made (anyToken made >>= next) := by
  cases made with
  | nil => exact placed_failAtEnd _
  | cons token rest => exact h token rest

end Placed

namespace Step

variable {token : Token} {rest : List Token}

/-! ## Single tokens -/

theorem local_punctuation (kind : Token.Kind) (what : Expectation) :
    Local (punctuation kind what) := by
  intro made
  apply placed_anyToken
  intro token rest
  dsimp only
  split <;> simp

theorem local_keyword (word : String) (what : Expectation) : Local (keyword word what) := by
  intro made
  apply placed_anyToken
  intro token rest
  dsimp only
  split <;> simp

theorem local_property : Local property := by
  intro made
  apply placed_anyToken
  intro token rest
  dsimp only
  split
  · simp
  · split <;> simp
  · simp

theorem local_literal : Local literal := by
  intro made
  apply placed_anyToken
  intro token rest
  dsimp only
  split
  · simp
  · simp
  · split
    · simp
    · split <;> simp

theorem local_pattern : Local pattern := by
  intro made
  apply placed_anyToken
  intro token rest
  dsimp only
  split <;> simp

theorem local_instant : Local instant := by
  intro made
  apply placed_anyToken
  intro token rest
  dsimp only
  split <;> simp

theorem local_distance : Local distance := by
  intro made
  apply placed_anyToken
  intro token rest
  dsimp only
  split <;> simp

theorem local_units : Local units := by
  intro made
  apply placed_anyToken
  intro token rest
  dsimp only
  split <;> simp

/-! ## Predicates -/

theorem local_period : Local period := by
  intro made
  apply (local_instant made).bind
  intro value rest hrest
  dsimp only
  split
  · exact hrest
  · intro place hplace
    obtain ⟨token, hhead, hstart⟩ := Option.map_eq_some_iff.1 hplace
    exact ⟨token, List.mem_of_head? hhead, hstart⟩

theorem local_group (depth : Nat) : Local (group depth) := by
  intro made
  induction made generalizing depth with
  | nil => exact placed_failAtEnd _
  | cons token rest ih =>
    have hmore (depth : Nat) : Placed (token :: rest) (group depth rest) :=
      (ih depth).mono (List.suffix_cons token rest)
    unfold group
    dsimp only
    split
    · exact (hmore _).map fun _ => rfl
    · split
      · exact List.suffix_cons token rest
      · exact (hmore _).map fun _ => rfl
    · exact (hmore _).map fun _ => rfl

theorem local_geometry : Local geometry := by
  intro made
  apply placed_anyToken
  intro head rest
  dsimp only
  split
  · apply Placed.mono _ (List.suffix_cons head rest)
    apply placed_anyToken
    intro opening more
    dsimp only
    split
    · apply (local_group 0).bind (List.suffix_cons opening more)
      intro text rest hrest
      exact hrest
    · exact placed_missing _ _ _
  · exact placed_missing _ _ _

theorem local_predicate (name : String) : Local (predicate name) := by
  intro made
  apply placed_anyToken
  intro token rest
  have hrest : rest <:+ token :: rest := List.suffix_cons token rest
  dsimp only
  split
  · apply local_literal.bind hrest
    intro value left hleft
    exact hleft
  split
  · apply Placed.mono _ hrest
    apply placed_anyToken
    intro next more
    dsimp only
    split
    · apply local_pattern.bind (List.suffix_cons next more)
      intro value left hleft
      exact hleft
    · exact placed_missing _ _ _
  split
  · apply local_pattern.bind hrest
    intro value left hleft
    exact hleft
  split
  · apply local_literal.bind hrest
    intro lower left hleft
    apply (local_keyword "AND" .conjunction).bind hleft
    rintro ⟨⟩ left hleft
    apply local_literal.bind hleft
    intro upper left hleft
    exact hleft
  split
  · split
    · rename_i next more
      have hmore : more <:+ token :: next :: more := (List.suffix_cons next more).trans hrest
      split
      · apply (local_keyword "NULL" .null).bind hmore
        rintro ⟨⟩ left hleft
        exact hleft
      · apply ((local_keyword "NULL" .null (next :: more)).mono hrest).bind
        rintro ⟨⟩ left hleft
        exact hleft
    · exact placed_failAtEnd _
  split
  · apply local_instant.bind hrest
    intro value left hleft
    exact hleft
  split
  · apply local_instant.bind hrest
    intro value left hleft
    exact hleft
  split
  · apply local_period.bind hrest
    intro value left hleft
    exact hleft
  · exact placed_missing _ _ _

theorem local_intersects : Local intersects := by
  intro made
  apply (local_punctuation .openParenthesis .openParenthesis made).bind
  rintro ⟨⟩ rest hrest
  apply local_property.bind hrest
  intro name rest hrest
  apply (local_punctuation .comma .comma).bind hrest
  rintro ⟨⟩ rest hrest
  apply local_geometry.bind hrest
  intro shape rest hrest
  apply (local_punctuation .closeParenthesis .closeParenthesis).bind hrest
  rintro ⟨⟩ rest hrest
  exact hrest

theorem local_within : Local within := by
  intro made
  apply (local_punctuation .openParenthesis .openParenthesis made).bind
  rintro ⟨⟩ rest hrest
  apply local_property.bind hrest
  intro name rest hrest
  apply (local_punctuation .comma .comma).bind hrest
  rintro ⟨⟩ rest hrest
  apply local_geometry.bind hrest
  intro shape rest hrest
  apply (local_punctuation .comma .comma).bind hrest
  rintro ⟨⟩ rest hrest
  apply local_distance.bind hrest
  intro distance rest hrest
  apply (local_punctuation .comma .comma).bind hrest
  rintro ⟨⟩ rest hrest
  apply local_units.bind hrest
  intro unit rest hrest
  apply (local_punctuation .closeParenthesis .closeParenthesis).bind hrest
  rintro ⟨⟩ rest hrest
  exact hrest

theorem local_primary : Local primary := by
  intro made
  cases made with
  | nil => exact placed_failAtEnd _
  | cons token rest =>
    unfold primary
    dsimp only
    split
    · exact (local_intersects rest).mono (List.suffix_cons token rest)
    split
    · exact (local_within rest).mono (List.suffix_cons token rest)
    · apply (local_property (token :: rest)).bind
      intro name left hleft
      exact (local_predicate name left).mono hleft

/-! ## Expressions -/

variable {read : Step Filter}

theorem local_moreOperands (word : String) (h : Local read) (steps : Nat) :
    Local (moreOperands word read steps) := by
  intro made
  induction steps generalizing made with
  | zero => exact List.suffix_refl made
  | succ steps ih =>
    cases made with
    | nil => exact List.suffix_refl []
    | cons token rest =>
      unfold moreOperands
      split
      · apply Local.bind h (List.suffix_cons token rest)
        intro first left hleft
        apply Local.bind ih hleft
        intro more left hleft
        exact hleft
      · exact List.suffix_refl (token :: rest)

theorem local_chain (word : String) (join : List Filter → Filter) (h : Local read) :
    Local (chain word join read) := by
  intro made
  apply (h made).bind
  intro first rest hrest
  apply (local_moreOperands word h rest.length).bind hrest
  intro more left hleft
  dsimp only
  split <;> exact hleft

theorem local_expression (h : Local read) : Local (expression read) :=
  local_chain "OR" .or (local_chain "AND" .and h)

theorem local_operand (levels : Nat) : Local (operand levels) := by
  intro made
  induction levels generalizing made with
  | zero =>
    cases made with
    | nil => exact placed_failAtEnd _
    | cons token rest =>
      unfold operand
      split
      · exact placed_failAt List.mem_cons_self _
      split
      · exact placed_failAt List.mem_cons_self _
      · exact local_primary (token :: rest)
  | succ levels ih =>
    cases made with
    | nil => exact placed_failAtEnd _
    | cons token rest =>
      unfold operand
      split
      · apply Local.bind ih (List.suffix_cons token rest)
        intro inner left hleft
        exact hleft
      split
      · apply (local_expression ih).bind (List.suffix_cons token rest)
        intro inner left hleft
        apply (local_punctuation .closeParenthesis .closeParenthesis).bind hleft
        rintro ⟨⟩ left hleft
        exact hleft
      · exact local_primary (token :: rest)

/-- The fault of a whole list of tokens stands at one of them or at the end of the text. -/
theorem exists_token_of_query {made : List Token} {fault : Fault} (h : query made = .error fault)
    {place : Nat} (hplace : fault.place = some place) : ∃ token ∈ made, token.start = place := by
  cases made with
  | nil => cases h
  | cons token more =>
    have hread := local_expression (local_operand nestingLimit) (token :: more)
    unfold query at h
    dsimp only at h
    cases hresult : expression (operand nestingLimit) (token :: more) with
    | error other =>
      rw [hresult] at h hread
      cases h
      exact hread place hplace
    | ok pair =>
      obtain ⟨filter, rest⟩ := pair
      rw [hresult] at h hread
      cases rest with
      | nil => cases h
      | cons first rest =>
        cases h
        cases hplace
        exact ⟨first, hread.subset List.mem_cons_self, rfl⟩

end Step

/-! ## Whole texts -/

/-- A text that is not cut into tokens has a character at which none starts. -/
theorem exists_place_of_tokens {position : Nat} {text : List Char} {fault : Fault}
    (h : tokens position text = .error fault) :
    ∃ before after, text = before ++ after ∧
      fault.place = some (position + Text.width before) := by
  induction text using induction_on_first generalizing position with
  | blank blanks hblanks =>
    rw [tokens_of_blank hblanks] at h
    cases h
  | first blanks first rest hblanks hfirst ih =>
    rw [tokens_of_first hblanks hfirst] at h
    cases hscan : Token.scan first rest with
    | error problem =>
      rw [hscan] at h
      cases h
      exact ⟨blanks, first :: rest, rfl, rfl⟩
    | ok made =>
      obtain ⟨kind, count⟩ := made
      rw [hscan] at h
      dsimp only at h
      cases hmore : tokens (position + Text.width blanks + Text.width (first :: rest.take count))
          (rest.drop count) with
      | ok more =>
        rw [hmore] at h
        cases h
      | error other =>
        rw [hmore] at h
        cases h
        obtain ⟨before, after, hrest, hplace⟩ := ih count hmore
        refine ⟨blanks ++ first :: rest.take count ++ before, after, ?_, ?_⟩
        · rw [List.append_assoc, ← hrest, List.append_assoc, List.cons_append,
            List.take_append_drop]
        · rw [hplace, Text.width_append, Text.width_append, Nat.add_assoc, Nat.add_assoc,
            Nat.add_assoc]

/-- A fault in cutting a text stands between two of its characters. -/
theorem exists_boundary_of_tokens {text : String} {fault : Fault}
    (h : tokens 0 text.toList = .error fault) :
    ∃ place, fault.place = some place ∧ Boundary text place := by
  obtain ⟨before, after, htext, hplace⟩ := exists_place_of_tokens h
  rw [Nat.zero_add] at hplace
  exact ⟨_, hplace, Text.boundary_width htext⟩

theorem boundary_utf8ByteSize (text : String) : Boundary text text.utf8ByteSize := by
  rw [← Text.width_toList]
  exact Text.boundary_width (List.append_nil _).symm

/-- An error in a text stands between two of its characters or at its end. -/
theorem boundary_of_parse {text : String} {error : TextError} (h : parse text = .error error) :
    Boundary text error.position := by
  rw [parse] at h
  split at h
  · cases h
  · rename_i fault hfault
    cases h
    cases hplace : fault.place with
    | none =>
      rw [Fault.within, hplace, Option.getD_none, Text.width_toList]
      exact boundary_utf8ByteSize text
    | some place =>
      rw [Fault.within, hplace, Option.getD_some]
      cases htokens : tokens 0 text.toList with
      | error other =>
        rw [htokens] at hfault
        cases hfault
        obtain ⟨found, hfound, hboundary⟩ := exists_boundary_of_tokens htokens
        rw [hplace] at hfound
        cases hfound
        exact hboundary
      | ok made =>
        rw [htokens] at hfault
        obtain ⟨token, hmem, rfl⟩ := Step.exists_token_of_query hfault hplace
        exact ((spans_of_tokens htokens).bounded token hmem).1

/-- The tokens of a text span it: none is empty, each starts and stops between two characters
and after the one before it, and a character outside all of them is white space, so that whatever
is copied from the text is a slice of it.  A text that is not cut into tokens and one that is not
read as a query are at fault between two characters or at the end. -/
theorem spans_and_faults_on_boundaries (text : String) :
    (∀ made, tokens 0 text.toList = .ok made → Spans text made) ∧
      (∀ fault, tokens 0 text.toList = .error fault →
        ∃ place, fault.place = some place ∧ place ≤ text.utf8ByteSize ∧ Boundary text place) ∧
      ∀ error, parse text = .error error →
        error.position ≤ text.utf8ByteSize ∧ Boundary text error.position := by
  refine ⟨fun made => spans_of_tokens, fun fault hfault => ?_, fun error herror => ?_⟩
  · obtain ⟨place, hplace, hboundary⟩ := exists_boundary_of_tokens hfault
    exact ⟨place, hplace, hboundary.le, hboundary⟩
  · have hboundary := boundary_of_parse herror
    exact ⟨hboundary.le, hboundary⟩

/-- Letters of two bytes, quoted and not, move the tokens and the faults after them. -/
theorem spans_and_faults_on_boundaries_accented :
    Spans "é < 'ü '' ('"
        [⟨0, [], ['é'], .word "é"⟩, ⟨3, [' '], ['<'], .comparison .less⟩,
          ⟨5, [' '], "'ü '' ('".toList, .text "ü ' ("⟩] ∧
      (∃ place, tokens 0 "é < 'ü".toList = .error ⟨some place, .unterminatedQuote⟩ ∧
        Boundary "é < 'ü" place) ∧
      parse "é < é (" = .error ⟨5, .expected .literal⟩ ∧ Boundary "é < é (" 5 ∧
      ¬Boundary "é < é (" 6 := by
  have hfault : tokens 0 "é < 'ü".toList = .error ⟨some 5, .unterminatedQuote⟩ := by
    decide +kernel
  have herror : parse "é < é (" = .error ⟨5, .expected .literal⟩ := by decide +kernel
  refine ⟨(spans_and_faults_on_boundaries _).1 _ (by decide +kernel), ⟨5, hfault, ?_⟩, herror,
    ((spans_and_faults_on_boundaries _).2.2 _ herror).2, by decide +kernel⟩
  obtain ⟨place, hplace, -, hboundary⟩ := (spans_and_faults_on_boundaries _).2.1 _ hfault
  cases hplace
  exact hboundary

end CatalogSearch.Cql
