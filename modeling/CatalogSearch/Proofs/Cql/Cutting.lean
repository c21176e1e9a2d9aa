import CatalogSearch.Cql.Writer
import CatalogSearch.Proofs.Cql.Lexing
import CatalogSearch.Proofs.Number.Shortest

/-!
# What pieces of text are cut into

Each piece that is written is cut out as one token of the kind that was meant, if
what follows it starts apart from it.
-/

namespace CatalogSearch

/-- Whether query text can hold the literal. -/
def Literal.IsFinite : Literal → Prop
  | .number value => value.isFinite = true
  | _ => True

namespace Cql

/-! ## Quotes -/

namespace Token

/-- Text with its quotes doubled is read back up to the closing quote. -/
theorem unquote_quoted (mark : Char) (text : List Char) :
    unquote mark ((text.flatMap fun c => if c = mark then [c, c] else [c]) ++ [mark]) =
      some (text, (text.flatMap fun c => if c = mark then [c, c] else [c]).length + 1) := by
  induction text with
  | nil => exact unquote_of_closing (by simp)
  | cons c text ih =>
    by_cases hc : c = mark
    · rw [List.flatMap_cons, if_pos hc, hc, List.append_assoc, List.cons_append,
        List.cons_append, List.nil_append, unquote_of_doubled, ih]
      simp
    · rw [List.flatMap_cons, if_neg hc, List.append_assoc, List.singleton_append,
        unquote_of_ne hc, ih]
      simp

theorem scan_quote {mark : Char} (hmark : mark = '\'' ∨ mark = '"') (text : List Char) :
    scan mark (quote mark text).tail =
      .ok (if mark = '\'' then .text (String.ofList text) else .quotedName (String.ofList text),
        (quote mark text).tail.length) := by
  have hunquote := unquote_quoted mark text
  obtain rfl | rfl := hmark
  · simp [scan, quote, hunquote]
  · simp [scan, quote, hunquote]

end Token

/-! ## Pieces -/

/-- Before some rest, text is cut into tokens with a property, whatever blanks come
before it. -/
def YieldsBefore (rest text : List Char) (property : List Token → Prop) : Prop :=
  ∀ position blanks, Blank blanks →
    ∃ made, Cuts position (blanks ++ text) rest made ∧ property made

/-- Text is cut into tokens with a property before anything that starts apart. -/
def Yields (text : List Char) (property : List Token → Prop) : Prop :=
  ∀ ⦃rest⦄, Apart rest → YieldsBefore rest text property

/-- A single token with a property. -/
def One (property : Token → Prop) (made : List Token) : Prop :=
  ∃ token, made = [token] ∧ property token

/-- One run of tokens after another. -/
def Both (first second : List Token → Prop) (made : List Token) : Prop :=
  ∃ before later, made = before ++ later ∧ first before ∧ second later

namespace YieldsBefore

variable {text more rest : List Char} {first second : List Token → Prop}

theorem mono (h : YieldsBefore rest text first) (himp : ∀ made, first made → second made) :
    YieldsBefore rest text second := by
  intro position blanks hblanks
  obtain ⟨made, hcuts, hmade⟩ := h position blanks hblanks
  exact ⟨made, hcuts, himp made hmade⟩

theorem append (h : YieldsBefore (more ++ rest) text first)
    (hmore : YieldsBefore rest more second) :
    YieldsBefore rest (text ++ more) (Both first second) := by
  intro position blanks hblanks
  obtain ⟨before, hcuts, hbefore⟩ := h position blanks hblanks
  obtain ⟨later, hcuts', hlater⟩ :=
    hmore (position + Text.width (blanks ++ text)) [] blank_nil
  refine ⟨before ++ later, ?_, before, later, rfl, hbefore, hlater⟩
  rw [← List.append_assoc]
  exact hcuts.append hcuts'

/-- A space before text belongs to its first token. -/
theorem space (h : YieldsBefore rest text first) : YieldsBefore rest (' ' :: text) first := by
  intro position blanks hblanks
  have hspaced : Blank (blanks ++ [' ']) := fun c hc =>
    (List.mem_append.1 hc).elim (hblanks c) (blank_space c)
  obtain ⟨made, hcuts, hmade⟩ := h position (blanks ++ [' ']) hspaced
  rw [List.append_assoc] at hcuts
  exact ⟨made, hcuts, hmade⟩

end YieldsBefore

namespace Yields

variable {text more : List Char} {first second : List Token → Prop}

theorem mono (h : Yields text first) (himp : ∀ made, first made → second made) :
    Yields text second := by
  intro rest hrest
  exact (h hrest).mono himp

/-- Text that comes after other text with a space between them. -/
theorem space (h : Yields text first) (hmore : Yields more second) :
    Yields (text ++ ' ' :: more) (Both first second) := by
  intro rest hrest
  have htext : YieldsBefore (' ' :: more ++ rest) text first := h (apart_cons (.inl rfl) _)
  exact htext.append (hmore hrest).space

theorem one {p q : Token → Prop} (h : Yields text (One p)) (himp : ∀ token, p token → q token) :
    Yields text (One q) := by
  apply h.mono
  rintro made ⟨token, rfl, htoken⟩
  exact ⟨token, rfl, himp token htoken⟩

end Yields

/-! ## Marks -/

/-- A mark is a token of its own, whatever follows it. -/
theorem yields_mark {mark : Char} (hmark : Text.isBlank mark = false) {kind : Token.Kind}
    (hscan : ∀ rest, Token.scan mark rest = .ok (kind, 0)) (rest : List Char) :
    YieldsBefore rest [mark] (One fun token => token.kind = kind) := by
  intro position blanks hblanks
  have hempty : Token.scan mark ([] ++ rest) = .ok (kind, ([] : List Char).length) :=
    hscan rest
  exact ⟨_, cuts_of_scan hblanks hmark hempty position, _, rfl, rfl⟩

theorem yields_open (rest : List Char) :
    YieldsBefore rest ['('] (One fun token => token.kind = .openParenthesis) :=
  yields_mark rfl (fun _ => rfl) rest

theorem yields_close (rest : List Char) :
    YieldsBefore rest [')'] (One fun token => token.kind = .closeParenthesis) :=
  yields_mark rfl (fun _ => rfl) rest

theorem yields_comma (rest : List Char) :
    YieldsBefore rest [','] (One fun token => token.kind = .comma) :=
  yields_mark rfl (fun _ => rfl) rest

/-! ## Words -/

theorem yields_of_scan {first : Char} (hfirst : Text.isBlank first = false)
    {tail : List Char} {kind : Token.Kind}
    (hscan : Token.scan first tail = .ok (kind, tail.length)) :
    Yields (first :: tail)
      (One fun token => token.kind = kind ∧ token.lexeme = first :: tail) := by
  intro rest hrest position blanks hblanks
  exact ⟨_, cuts_of_scan hblanks hfirst (Token.scan_append hscan hrest) position, _, rfl, rfl, rfl⟩

/-- Whether text is one word. -/
def isWord : List Char → Bool
  | [] => false
  | first :: tail =>
    Token.startsWord first && !Text.isBlank first && tail.all Token.continuesWord

theorem yields_word {text : List Char} (h : isWord text = true) :
    Yields text (One fun token => token.kind = .word (String.ofList text)) := by
  cases text with
  | nil => cases h
  | cons first tail =>
    simp only [isWord, Bool.and_eq_true, Bool.not_eq_true', List.all_eq_true] at h
    obtain ⟨⟨hfirst, hblank⟩, htail⟩ := h
    apply (yields_of_scan hblank (Token.scan_word hfirst htail)).one
    intro token htoken
    exact htoken.1

theorem yields_keyword {text : List Char} (htext : isWord text = true) {word : String}
    (hword : Text.sameWord word.toList text = true) :
    Yields text (One fun token => token.isKeyword word = true) := by
  apply (yields_word htext).one
  intro token hkind
  rw [Token.isKeyword_of_word hkind, String.toList_ofList, hword]

theorem yields_keyword_self {word : String} (h : isWord word.toList = true) :
    Yields word.toList (One fun token => token.isKeyword word = true) :=
  yields_keyword h (beq_self_eq_true _)

/-! ## Names and texts -/

theorem yields_quote {mark : Char} (hmark : mark = '\'' ∨ mark = '"') (text : List Char) :
    Yields (quote mark text) (One fun token => token.kind =
      if mark = '\'' then .text (String.ofList text) else .quotedName (String.ofList text)) := by
  have hblank : Text.isBlank mark = false := by
    obtain rfl | rfl := hmark <;> rfl
  apply (yields_of_scan hblank (Token.scan_quote hmark text)).one
  intro token htoken
  exact htoken.1

theorem continuesWord_of_isAlphanum {c : Char} (h : c.isAlphanum = true) :
    Token.continuesWord c = true := by
  simp [Token.continuesWord, Text.isAlphanumeric, isAscii_of_isAlphanum h, h]

/-- The characters of a plain name are letters, digits, underscores and points. -/
theorem forall_mem_of_isPlainName {name : List Char} (h : isPlainName name = true)
    {p : Char → Prop} (halphanum : ∀ c, c.isAlphanum = true → p c) (hunderscore : p '_')
    (hpoint : p '.') : ∀ c ∈ name, p c := by
  cases name with
  | nil => cases h
  | cons first tail =>
    simp only [isPlainName, Bool.and_eq_true, Bool.or_eq_true, beq_iff_eq, List.all_eq_true] at h
    obtain ⟨⟨hfirst, htail⟩, -⟩ := h
    have hstart : p first := by
      obtain halpha | rfl := hfirst
      · exact halphanum first (by simp [Char.isAlphanum, halpha])
      · exact hunderscore
    have hmore : ∀ c ∈ tail, p c := by
      intro c hc
      obtain (hc | rfl) | rfl := htail c hc
      · exact halphanum c hc
      · exact hunderscore
      · exact hpoint
    exact List.forall_mem_cons.2 ⟨hstart, hmore⟩

theorem not_isBlank_of_isPlainName {name : List Char} (h : isPlainName name = true) :
    ∀ c ∈ name, Text.isBlank c = false :=
  forall_mem_of_isPlainName h (fun _ => not_isBlank_of_isAlphanum) rfl rfl

/-- A plain name is a word that is no keyword. -/
theorem isWord_of_isPlainName {name : List Char} (h : isPlainName name = true) :
    isWord name = true ∧ isReserved name = false := by
  have hblank : ∀ c ∈ name, Text.isBlank c = false := not_isBlank_of_isPlainName h
  have hword : ∀ c ∈ name, Token.continuesWord c = true :=
    forall_mem_of_isPlainName h (fun _ => continuesWord_of_isAlphanum) rfl rfl
  cases name with
  | nil => cases h
  | cons first tail =>
    simp only [isPlainName, Bool.and_eq_true, Bool.or_eq_true, beq_iff_eq, Bool.not_eq_true'] at h
    obtain ⟨⟨hfirst, -⟩, hreserved⟩ := h
    have hstart : Token.startsWord first = true := by
      obtain halpha | rfl := hfirst
      · exact Token.startsWord_of_isAlpha halpha
      · rfl
    rw [List.forall_mem_cons] at hblank hword
    constructor
    · simp only [isWord, hstart, hblank.1, Bool.not_false, Bool.and_true, Bool.true_and,
        List.all_eq_true]
      exact hword.2
    · exact hreserved

/-- A property name is cut out as a token that names it, whatever characters it has. -/
theorem yields_name (name : String) :
    Yields (writeName name) (One fun token => token.Names name) := by
  unfold writeName
  split
  · rename_i hplain
    obtain ⟨hword, hreserved⟩ := isWord_of_isPlainName hplain
    apply (yields_word hword).one
    intro token hkind
    rw [String.ofList_toList] at hkind
    exact .inr ⟨hkind, hreserved⟩
  · apply (yields_quote (.inr rfl) name.toList).one
    intro token hkind
    exact .inl (by simpa using hkind)

/-- Text is cut out as a token that holds it, whatever characters it has. -/
theorem yields_text (text : String) :
    Yields (quote '\'' text.toList) (One fun token => token.kind = .text text) := by
  apply (yields_quote (.inl rfl) text.toList).one
  intro token hkind
  simpa using hkind

/-! ## Instants and numbers -/

theorem isLiteral_of_isDigit {c : Char} (h : c.isDigit = true) : Token.isLiteral c = true := by
  simp [Token.isLiteral, Char.isAlphanum, h]

/-- A run of literal characters that starts with a digit, or with a minus right before
one, is cut out as one number or instant. -/
theorem yields_literalKind {first : Char} {tail : List Char}
    (hfirst : first.isDigit = true ∨ first = '-' ∧ ∃ c ∈ tail.head?, c.isDigit = true)
    (htail : ∀ c ∈ tail, Token.isLiteral c = true) :
    Yields (first :: tail)
      (One fun token => token.kind = Token.literalKind (first :: tail) ∧
        token.lexeme = first :: tail) := by
  have hstarts : Token.startsLiteral first tail = true := by
    obtain hdigit | ⟨rfl, c, hc, hdigit⟩ := hfirst
    · simp [Token.startsLiteral, hdigit]
    · cases tail with
      | nil => cases hc
      | cons next tail =>
        cases hc
        simp [Token.startsLiteral, hdigit]
  have hblank : Text.isBlank first = false := by
    obtain hdigit | ⟨rfl, -⟩ := hfirst
    · exact not_isBlank_of_isAlphanum (by simp [Char.isAlphanum, hdigit])
    · rfl
  exact yields_of_scan hblank (Token.scan_literal hstarts htail)

/-- An instant is cut out as a token that tells it, whatever characters it has. -/
theorem yields_instant (instant : List Char) :
    Yields (writeInstant instant) (One fun token => token.Tells (String.ofList instant)) := by
  unfold writeInstant
  split
  · rename_i hbare
    cases instant with
    | nil => cases hbare
    | cons first tail =>
      simp only [isBareInstant, Bool.and_eq_true, List.all_eq_true] at hbare
      obtain ⟨hfirst, htail⟩ := hbare
      apply (yields_literalKind (.inl hfirst) htail).one
      rintro token ⟨hkind, hlexeme⟩
      have hnumber : ∀ value, token.kind = .number value →
          token.Tells (String.ofList (first :: tail)) := by
        intro value hvalue
        rw [← hlexeme]
        exact .number hvalue
      unfold Token.literalKind at hkind
      split at hkind
      · split at hkind
        · exact hnumber _ hkind
        · exact .instant hkind
      · exact .instant hkind
  · apply (yields_quote (.inl rfl) instant).one
    intro token hkind
    exact .text (by simpa using hkind)

/-- A finite number is cut out as a token that holds it. -/
theorem yields_number {x : Double} (hfinite : x.isFinite = true) :
    Yields x.plain (One fun token => token.kind = .number x) := by
  obtain ⟨whole, places, hspells⟩ := (x.shortest .away).exists_spells
  have hplain : x.plain = x.signText ++ Decimal.pointed whole places := by
    rw [Double.plain, if_pos hfinite, hspells.text]
  have hliteral : ∀ c ∈ Decimal.pointed whole places, Token.isLiteral c = true :=
    Decimal.pointed_forall (fun c hc => isLiteral_of_isDigit (hspells.isDigit c hc)) rfl
  obtain ⟨first, tail, hpointed, hdigit⟩ := hspells.exists_cons
  have hkind : Token.literalKind x.plain = .number x := by
    simp [Token.literalKind, Double.readDouble?_plain hfinite, hfinite]
  rw [hpointed] at hplain hliteral
  rw [hplain] at hkind ⊢
  unfold Double.signText at hkind ⊢
  revert hkind
  cases x.negative with
  | true =>
    intro hkind
    apply (yields_literalKind (.inr ⟨rfl, first, rfl, hdigit⟩) hliteral).one
    intro token htoken
    exact htoken.1.trans hkind
  | false =>
    intro hkind
    have htail : ∀ c ∈ tail, Token.isLiteral c = true := fun c hc =>
      hliteral c (List.mem_cons_of_mem _ hc)
    apply (yields_literalKind (.inl hdigit) htail).one
    intro token htoken
    exact htoken.1.trans hkind

/-! ## Literals and operators -/

/-- A literal is cut out as a token that states it. -/
theorem yields_literal {value : Literal} (h : value.IsFinite) :
    Yields (writeLiteral value) (One fun token => token.States value) := by
  cases value with
  | text value => exact yields_text value
  | number value => exact yields_number h
  | bool value =>
    cases value with
    | true => exact yields_keyword (by decide) (by decide)
    | false => exact yields_keyword (by decide) (by decide)

/-- An operator is cut out as a token that compares, or as a keyword for wildcards. -/
theorem yields_operator (comparison : Comparison) :
    Yields comparison.symbol.toList (One fun token =>
      token.kind = .comparison comparison ∨ token.Wildcards comparison) := by
  have hsymbol : ∀ first tail, Text.isBlank first = false →
      Token.scan first tail = .ok (.comparison comparison, tail.length) →
      Yields (first :: tail) (One fun token =>
        token.kind = .comparison comparison ∨ token.Wildcards comparison) := by
    intro first tail hfirst hscan
    apply (yields_of_scan hfirst hscan).one
    intro token htoken
    exact .inl htoken.1
  cases comparison with
  | equal => exact hsymbol _ _ rfl rfl
  | notEqual => exact hsymbol _ _ rfl rfl
  | less => exact hsymbol _ _ rfl rfl
  | lessOrEqual => exact hsymbol _ _ rfl rfl
  | greater => exact hsymbol _ _ rfl rfl
  | greaterOrEqual => exact hsymbol _ _ rfl rfl
  | like =>
    have hlike : Yields "LIKE".toList (One fun token => token.isKeyword "LIKE" = true) :=
      yields_keyword_self (by decide)
    apply hlike.one
    intro token hkeyword
    exact .inr (.like hkeyword)
  | ilike =>
    have hilike : Yields "ILIKE".toList (One fun token => token.isKeyword "ILIKE" = true) :=
      yields_keyword_self (by decide)
    apply hilike.one
    intro token hkeyword
    exact .inr (.ilike hkeyword)

end Cql

end CatalogSearch
