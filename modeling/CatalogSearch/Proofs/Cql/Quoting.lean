import CatalogSearch.Proofs.Cql.Completeness
import CatalogSearch.Proofs.Cql.Verbatim

/-!
# Quoting

A name, a text and an instant are each written as one token that reads back as they were,
whatever characters they have.  What goes without quotes is chosen by classes of ASCII characters
and cut by wider ones; it lies in both, and what may come right after it lies in neither.
-/

namespace CatalogSearch.Cql

/-! ## Ends of written strings -/

theorem trim_quote {mark : Char} (hmark : Text.isBlank mark = false) (text : List Char) :
    Text.trim (quote mark text) = quote mark text :=
  Text.trim_cons_concat hmark hmark _

theorem not_isBlank_of_isLiteral {c : Char} (h : Token.isLiteral c = true) :
    Text.isBlank c = false := by
  simp only [Token.isLiteral, Bool.or_eq_true, beq_iff_eq] at h
  obtain ((((halphanum | rfl) | rfl) | rfl) | rfl) | rfl := h
  · exact not_isBlank_of_isAlphanum halphanum
  all_goals rfl

theorem trim_writeName (name : String) : Text.trim (writeName name) = writeName name := by
  unfold writeName
  split
  · rename_i hplain
    exact Text.trim_eq_self_of_forall (not_isBlank_of_isPlainName hplain)
  · exact trim_quote rfl name.toList

theorem trim_writeInstant (instant : List Char) :
    Text.trim (writeInstant instant) = writeInstant instant := by
  unfold writeInstant
  split
  · rename_i hbare
    cases instant with
    | nil => cases hbare
    | cons first tail =>
      simp only [isBareInstant, Bool.and_eq_true, List.all_eq_true] at hbare
      obtain ⟨hfirst, htail⟩ := hbare
      have hliteral : ∀ c ∈ first :: tail, Token.isLiteral c = true :=
        List.forall_mem_cons.2 ⟨isLiteral_of_isDigit hfirst, htail⟩
      exact Text.trim_eq_self_of_forall fun c hc => not_isBlank_of_isLiteral (hliteral c hc)
  · exact trim_quote rfl instant

/-! ## Single tokens -/

/-- Before some rest, text is one token of all its characters, with a property.  The tokens of the
rest come after it, as they are but further on, or else what is at fault in the rest. -/
def TokenBefore (rest text : List Char) (property : Token → Prop) : Prop :=
  ∃ token, token.start = 0 ∧ token.blanks = [] ∧ token.lexeme = text ∧ property token ∧
    tokens 0 (text ++ rest) = (further (Text.width text) (tokens 0 rest)).map (token :: ·)

namespace TokenBefore

variable {text rest : List Char} {p q : Token → Prop}

theorem imp (h : TokenBefore rest text p) (himp : ∀ token, p token → q token) :
    TokenBefore rest text q := by
  obtain ⟨token, hstart, hblanks, hlexeme, hp, htokens⟩ := h
  exact ⟨token, hstart, hblanks, hlexeme, himp token hp, htokens⟩

/-- What is cut out as one token is all of it, if there is no white space at its ends. -/
theorem of_yields (htrim : Text.trim text = text) (h : Yields text (One p)) (hrest : Apart rest) :
    TokenBefore rest text p := by
  obtain ⟨_, hcuts, token, rfl, hp⟩ := h apart_nil 0 [] blank_nil
  have halone : tokens 0 text = .ok [token] := hcuts.whole
  have hspelled : Token.spelled [token] = text := spelled_of_trim htrim halone
  have hblanks : token.blanks = [] := blanks_of_trim htrim halone
  have hlexeme : token.lexeme = text := by
    rw [Token.spelled_cons, hblanks, Token.spelled_nil, List.nil_append, List.append_nil]
      at hspelled
    exact hspelled
  have hstart : token.start = 0 := by
    obtain ⟨blanks, _, _, _, _, -, -, -, -, rfl, -⟩ := tokens_eq_ok_cons halone
    obtain rfl : blanks = [] := hblanks
    rfl
  have hbefore : Cuts 0 (Token.spelled [token]) rest [token] :=
    cuts_of_tokens (hspelled.symm ▸ halone) hrest
  rw [hspelled, Cuts, tokens_add 0] at hbefore
  exact ⟨token, hstart, hblanks, hlexeme, hp, hbefore⟩

end TokenBefore

/-- Whatever name, text or instant is written, it is one token if a space, a comma, a parenthesis
or nothing comes right after it, and that token is read as just the string that was written. -/
theorem written_strings_stay_whole (name text instant : String) {rest : List Char}
    (hrest : Apart rest) :
    TokenBefore rest (quoteProperty name).toList
        (fun token => ∀ more, Step.property (token :: more) = .ok (name, more)) ∧
      TokenBefore rest (writeLiteral (.text text)) (fun token => token.kind = .text text) ∧
      TokenBefore rest (writeInstant instant.toList)
        (fun token => ∀ more, Step.instant (token :: more) = .ok (instant, more)) := by
  have hname : TokenBefore rest (writeName name) fun token => token.Names name :=
    .of_yields (trim_writeName name) (yields_name name) hrest
  have htext : TokenBefore rest (writeLiteral (.text text)) fun token => token.kind = .text text :=
    .of_yields (trim_quote rfl text.toList) (yields_text text) hrest
  have hinstant : TokenBefore rest (writeInstant instant.toList) fun token =>
      token.Tells (String.ofList instant.toList) :=
    .of_yields (trim_writeInstant _) (yields_instant _) hrest
  rw [String.ofList_toList] at hinstant
  rw [quoteProperty, String.toList_ofList]
  refine ⟨hname.imp ?_, htext, hinstant.imp ?_⟩
  · intro token hnames more
    exact Grammar.property_of_names hnames more
  · intro token htells more
    exact Grammar.instant_of_tells htells more

/-- A keyword as a name, a text with both kinds of quote and a line break, and an instant without
characters, before a parenthesis; and the name again before a quote that is not closed. -/
theorem keyword_and_quotes_stay_whole :
    let text := "it's \"é\"\n"
    let rest := ") é".toList
    let torn := ", 'é".toList
    let namesNot := fun token => ∀ more, Step.property (token :: more) = .ok ("NoT", more)
    Apart rest ∧ Apart torn ∧
      TokenBefore rest (quoteProperty "NoT").toList namesNot ∧
      TokenBefore rest (writeLiteral (.text text)) (fun token => token.kind = .text text) ∧
      TokenBefore rest (writeInstant "".toList)
        (fun token => ∀ more, Step.instant (token :: more) = .ok ("", more)) ∧
      tokens 0 rest = .ok [⟨0, [], [')'], .closeParenthesis⟩, ⟨2, [' '], ['é'], .word "é"⟩] ∧
      TokenBefore torn (quoteProperty "NoT").toList namesNot ∧
      tokens 0 torn = .error ⟨some 2, .unterminatedQuote⟩ ∧
      tokens 0 ((quoteProperty "NoT").toList ++ torn) = .error ⟨some 7, .unterminatedQuote⟩ := by
  intro text rest torn namesNot
  have hrest : Apart rest := apart_cons (.inr (.inr (.inr rfl))) _
  have htorn : Apart torn := apart_cons (.inr (.inl rfl)) _
  obtain ⟨hname, htext, hinstant⟩ := written_strings_stay_whole "NoT" text "" hrest
  obtain ⟨hbefore, -⟩ := written_strings_stay_whole "NoT" text "" htorn
  refine ⟨hrest, htorn, hname, htext, hinstant, ?_, hbefore, ?_, ?_⟩
  · decide +kernel
  · decide +kernel
  · decide +kernel

end CatalogSearch.Cql
