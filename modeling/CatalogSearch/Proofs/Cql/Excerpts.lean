import CatalogSearch.Proofs.Cql.Verbatim

/-!
# Excerpts of text

Tokens that were cut out of a text in a row are cut out of what they spell alone as well.  So
a geometry or a unit that was read is one by itself.
-/

namespace CatalogSearch.Cql

namespace Token

/-! ## Scanning less

What follows a token has no part in it. -/

variable {first : Char} {text more : List Char} {count : Nat}

theorem takeWhile_of_append {p : Char → Bool}
    (h : ((text ++ more).takeWhile p).length ≤ text.length) :
    (text ++ more).takeWhile p = text.takeWhile p := by
  induction text with
  | nil => exact List.eq_nil_of_length_eq_zero (Nat.le_zero.1 h)
  | cons c text ih =>
    rw [List.cons_append, List.takeWhile_cons] at h ⊢
    rw [List.takeWhile_cons]
    split at h
    · rw [ih (Nat.le_of_succ_le_succ h)]
    · rename_i hc
      rw [if_neg hc, if_neg hc]

theorem startsLiteral_of_append (h : startsLiteral first (text ++ more) = true)
    (hcount : ((text ++ more).takeWhile isLiteral).length ≤ text.length) :
    startsLiteral first text = true := by
  cases text with
  | cons c text => exact h
  | nil =>
    cases more with
    | nil => exact h
    | cons c more =>
      -- A digit that follows would be taken as well.
      have hliteral : isLiteral c = false := by
        rw [List.nil_append, List.takeWhile_cons] at hcount
        split at hcount
        · cases hcount
        · exact Bool.eq_false_iff.2 ‹_›
      have hdigit : c.isDigit = false := by
        rw [Bool.eq_false_iff]
        intro hdigit
        simp [isLiteral, Char.isAlphanum, hdigit] at hliteral
      simpa [startsLiteral, hdigit] using h

theorem comparison?_of_append {operator : Comparison}
    (h : comparison? first (text ++ more) = some (operator, count))
    (hcount : count ≤ text.length) : comparison? first text = some (operator, count) := by
  cases text with
  | cons c text => unfold comparison? at h ⊢; split at h <;> simp_all
  | nil =>
    obtain rfl := Nat.le_zero.1 hcount
    unfold comparison? at h ⊢
    split at h <;> simp_all

theorem pos_of_unquote {mark : Char} {value : List Char}
    (h : unquote mark text = some (value, count)) : 0 < count := by
  rw [unquote.eq_def] at h
  split at h
  · cases h
  split at h
  · split at h
    · split at h
      · obtain ⟨inner, -, heq⟩ := Option.map_eq_some_iff.1 h
        cases heq
        exact Nat.succ_pos _
      · cases h
        exact Nat.one_pos
    · cases h
      exact Nat.one_pos
  · obtain ⟨inner, -, heq⟩ := Option.map_eq_some_iff.1 h
    cases heq
    exact Nat.succ_pos _

theorem unquote_of_append {mark : Char} {value : List Char}
    (h : unquote mark (text ++ more) = some (value, count)) (hcount : count ≤ text.length) :
    unquote mark text = some (value, count) := by
  fun_induction unquote mark text generalizing value count with
  | case1 => exact absurd hcount (Nat.not_le.2 (pos_of_unquote h))
  | case2 text ih =>
    rw [List.cons_append, List.cons_append, unquote_of_doubled] at h
    obtain ⟨⟨inner, used⟩, hinner, heq⟩ := Option.map_eq_some_iff.1 h
    cases heq
    rw [ih hinner (by simpa using hcount)]
    rfl
  | case3 next text hnext =>
    have hhead : (next :: (text ++ more)).head? ≠ some mark := by simpa using hnext
    rwa [List.cons_append, List.cons_append, unquote_of_closing hhead] at h
  | case4 =>
    by_cases hhead : more.head? = some mark
    · -- The quote that follows would make it a doubled one.
      obtain ⟨more, rfl⟩ := List.head?_eq_some_iff.1 hhead
      rw [List.singleton_append, unquote_of_doubled] at h
      obtain ⟨inner, -, heq⟩ := Option.map_eq_some_iff.1 h
      cases heq
      rw [List.length_singleton] at hcount
      omega
    · rwa [List.singleton_append, unquote_of_closing hhead] at h
  | case5 c text hc ih =>
    rw [List.cons_append, unquote_of_ne hc] at h
    obtain ⟨⟨inner, used⟩, hinner, heq⟩ := Option.map_eq_some_iff.1 h
    cases heq
    rw [ih hinner (by simpa using hcount)]
    rfl

/-- A token that ends before some text is scanned in the same way without it. -/
theorem Scans.of_append {kind : Kind} (h : Scans first (text ++ more) kind count)
    (hcount : count ≤ text.length) : Scans first text kind count := by
  cases h with
  | mark hfirst => exact .mark hfirst
  | comparison hfirst h => exact .comparison hfirst (comparison?_of_append h hcount)
  | text hfirst h => exact .text hfirst (unquote_of_append h hcount)
  | quotedName hfirst h => exact .quotedName hfirst (unquote_of_append h hcount)
  | literal hfirst =>
    have hstarts := startsLiteral_of_append hfirst hcount
    rw [takeWhile_of_append hcount]
    exact .literal hstarts
  | word hfirst =>
    rw [takeWhile_of_append hcount]
    exact .word hfirst

end Token

/-! ## Cutting less -/

/-- The first tokens of a text are those of what they spell. -/
theorem tokens_of_append {made more : List Token} {position : Nat} {text : List Char}
    (h : tokens position text = .ok (made ++ more)) :
    tokens position (Token.spelled made) = .ok made := by
  induction made generalizing position text with
  | nil => exact tokens_of_blank blank_nil position
  | cons token made ih =>
    rw [List.cons_append] at h
    obtain ⟨blanks, first, tail, rest, kind, hblanks, hfirst, -, hscan, rfl, hrest⟩ :=
      tokens_eq_ok_cons h
    have hmade := ih hrest
    obtain ⟨ending, -, rfl⟩ := exists_eq_spelled hrest
    have hscan' : Token.scan first (tail ++ Token.spelled made) = .ok (kind, tail.length) := by
      have hscans := Token.scans_of_scan hscan
      rw [Token.spelled_append, List.append_assoc, ← List.append_assoc] at hscans
      exact (hscans.of_append (by simp)).scan_eq
    rw [Token.spelled_cons, List.append_assoc, List.cons_append, tokens_of_first hblanks hfirst,
      hscan']
    simp only [List.take_left, List.drop_left]
    exact congrArg (Except.map _) hmade

/-- The tokens of a text are those of what they spell. -/
theorem tokens_spelled {made : List Token} {position : Nat} {text : List Char}
    (h : tokens position text = .ok made) : tokens position (Token.spelled made) = .ok made := by
  rw [← List.append_nil made] at h
  exact tokens_of_append h

/-- Text further on has the same tokens, moved. -/
theorem exists_tokens_of_add {position distance : Nat} {text : List Char} {made : List Token}
    (h : tokens (position + distance) text = .ok made) :
    ∃ origin, tokens position text = .ok origin ∧ made = origin.map (Token.moved distance) := by
  rw [tokens_add] at h
  cases horigin : tokens position text with
  | error fault =>
    rw [horigin] at h
    cases h
  | ok origin =>
    rw [horigin] at h
    cases h
    exact ⟨origin, rfl, rfl⟩

/-- The tokens are those of some text. -/
def Cut (made : List Token) : Prop := ∃ position text, tokens position text = .ok made

/-- The token is scanned from its characters. -/
def Token.Genuine (token : Token) : Prop :=
  ∃ first tail, token.lexeme = first :: tail ∧ Text.isBlank first = false ∧
    Scans first tail token.kind tail.length

namespace Cut

variable {made more : List Token} {token : Token}

theorem left (h : Cut (made ++ more)) : Cut made := by
  obtain ⟨position, text, htokens⟩ := h
  exact ⟨position, _, tokens_of_append htokens⟩

theorem tail (h : Cut (token :: more)) : Cut more := by
  obtain ⟨position, text, htokens⟩ := h
  obtain ⟨_, _, _, rest, _, -, -, -, -, -, hrest⟩ := tokens_eq_ok_cons htokens
  exact ⟨_, rest, hrest⟩

theorem right (h : Cut (made ++ more)) : Cut more := by
  induction made with
  | nil => exact h
  | cons token made ih => exact ih h.tail

theorem genuine (h : Cut (token :: more)) : token.Genuine := by
  obtain ⟨position, text, htokens⟩ := h
  obtain ⟨blanks, first, tail, rest, kind, -, hfirst, -, hscan, rfl, -⟩ :=
    tokens_eq_ok_cons htokens
  exact ⟨first, tail, rfl, hfirst, (Token.scans_of_scan hscan).of_append (Nat.le_refl _)⟩

theorem genuine_of_mem (h : Cut made) (hmem : token ∈ made) : token.Genuine := by
  obtain ⟨before, later, rfl⟩ := List.append_of_mem hmem
  exact h.right.genuine

/-- Tokens without the blanks before them are cut out of their own text. -/
theorem exists_tokens (h : Cut (token :: more)) :
    ∃ head others distance, tokens 0 (token.lexeme ++ Token.spelled more) = .ok (head :: others) ∧
      head.kind = token.kind ∧ head.lexeme = token.lexeme ∧ head.blanks = [] ∧
      more = others.map (Token.moved distance) := by
  obtain ⟨position, text, htokens⟩ := h
  have hspelled := tokens_spelled htokens
  obtain ⟨blanks, first, tail, rest, kind, hblanks, hfirst, htext, hscan, rfl, hrest⟩ :=
    tokens_eq_ok_cons hspelled
  obtain rfl : Token.spelled more = rest := by simpa using htext
  have halone : tokens (position + Text.width blanks) (first :: (tail ++ Token.spelled more)) =
      .ok (⟨position + Text.width blanks, [], first :: tail, kind⟩ :: more) := by
    have hcut := tokens_of_first blank_nil hfirst (position + Text.width blanks)
      (tail ++ Token.spelled more)
    rw [List.nil_append, hscan, Text.width_nil, Nat.add_zero] at hcut
    rw [hcut]
    simp only [List.take_left, List.drop_left]
    exact congrArg (Except.map _) hrest
  rw [← Nat.zero_add (position + Text.width blanks)] at halone
  obtain ⟨origin, horigin, heq⟩ := exists_tokens_of_add halone
  obtain ⟨head, others, rfl, hhead, rfl⟩ := List.map_eq_cons_iff.1 heq.symm
  have hkind : head.kind = kind := congrArg Token.kind hhead
  have hlexeme : head.lexeme = first :: tail := congrArg Token.lexeme hhead
  have hblanks : head.blanks = [] := congrArg Token.blanks hhead
  exact ⟨head, others, _, horigin, hkind, hlexeme, hblanks, rfl⟩

end Cut

/-! ## Single tokens -/

namespace Token

theorem Scans.eq_of_close {first : Char} {text : List Char} {kind : Kind} {count : Nat}
    (h : Scans first text kind count) (hkind : kind = .closeParenthesis) :
    first = ')' ∧ count = 0 := by
  cases h with
  | mark hfirst =>
    subst hkind
    simpa [marks] using hfirst
  | comparison | text | quotedName | word => cases hkind
  | literal =>
    unfold literalKind at hkind
    split at hkind
    · split at hkind <;> cases hkind
    · cases hkind

/-- What reads as an infinite number is no number. -/
theorem Scans.isFinite {first : Char} {text : List Char} {kind : Kind} {count : Nat}
    (h : Scans first text kind count) {value : Double} (hkind : kind = .number value) :
    value.isFinite = true := by
  cases h with
  | mark hfirst =>
    subst hkind
    simp [marks] at hfirst
  | comparison | text | quotedName | word => cases hkind
  | literal =>
    unfold literalKind at hkind
    split at hkind
    · split at hkind <;> cases hkind
      exact ‹_›
    · cases hkind

/-- The operators with wildcards are words. -/
theorem Scans.not_wildcards {first : Char} {text : List Char} {kind : Kind} {count : Nat}
    (h : Scans first text kind count) {operator : Comparison}
    (hkind : kind = .comparison operator) : ¬(operator = .like ∨ operator = .ilike) := by
  cases h with
  | mark hfirst =>
    subst hkind
    simp [marks] at hfirst
    simp [hfirst]
  | comparison hfirst h =>
    cases hkind
    unfold comparison? at h
    split at h <;> cases h <;> simp
  | text | quotedName | word => cases hkind
  | literal =>
    unfold literalKind at hkind
    split at hkind
    · split at hkind <;> cases hkind
    · cases hkind

variable {token : Token}

theorem Genuine.lexeme_of_word (h : token.Genuine) {name : String}
    (hkind : token.kind = .word name) : token.lexeme = name.toList := by
  obtain ⟨first, tail, hlexeme, -, hscans⟩ := h
  rw [hlexeme, hscans.name_eq hkind, List.take_length, String.toList_ofList]

theorem Genuine.lexeme_of_close (h : token.Genuine) (hkind : token.kind = .closeParenthesis) :
    token.lexeme = [')'] := by
  obtain ⟨first, tail, hlexeme, -, hscans⟩ := h
  obtain ⟨rfl, htail⟩ := hscans.eq_of_close hkind
  rw [hlexeme, List.eq_nil_of_length_eq_zero htail]

theorem Genuine.isFinite (h : token.Genuine) {value : Double} (hkind : token.kind = .number value) :
    value.isFinite = true := by
  obtain ⟨_, _, -, -, hscans⟩ := h
  exact hscans.isFinite hkind

theorem Genuine.not_wildcards (h : token.Genuine) {operator : Comparison}
    (hkind : token.kind = .comparison operator) : ¬(operator = .like ∨ operator = .ilike) := by
  obtain ⟨_, _, -, -, hscans⟩ := h
  exact hscans.not_wildcards hkind

end Token

/-! ## Units and geometries -/

theorem isUnit_of_cut {token : Token} (h : Cut [token]) {name : String}
    (hkind : token.kind = .word name) : IsUnit name := by
  obtain ⟨head, others, distance, htokens, hhead, -, -, hothers⟩ := h.exists_tokens
  obtain rfl := List.map_eq_nil_iff.1 hothers.symm
  rw [h.genuine.lexeme_of_word hkind, Token.spelled_nil, List.append_nil] at htokens
  exact ⟨head, htokens, hhead.trans hkind⟩

namespace Grammar

theorem Balanced.of_moved {distance : Nat} {tokens made : List Token} (h : Balanced made)
    (hmade : made = tokens.map (Token.moved distance)) : Balanced tokens := by
  induction h generalizing tokens with
  | nil =>
    obtain rfl := List.map_eq_nil_iff.1 hmade.symm
    exact .nil
  | plain hopen hclose _ ih =>
    obtain ⟨token, rest, rfl, rfl, rfl⟩ := List.map_eq_cons_iff.1 hmade.symm
    exact .plain hopen hclose (ih rfl)
  | nested hopening _ hclosing _ ihinner ihrest =>
    obtain ⟨opening, others, rfl, rfl, hothers⟩ := List.map_eq_cons_iff.1 hmade.symm
    obtain ⟨inner, later, rfl, rfl, hlater⟩ := List.map_eq_append_iff.1 hothers
    obtain ⟨closing, rest, rfl, rfl, rfl⟩ := List.map_eq_cons_iff.1 hlater
    exact .nested hopening (ihinner rfl) hclosing (ihrest rfl)

end Grammar

/-- A geometry that was read is one by itself. -/
theorem isGeometry_of_cut {shape : List Token} {text : String} (h : Cut shape)
    (hshape : Grammar.Outlines shape text) : IsGeometry text := by
  cases hshape with
  | @intro head opening closing name inner hhead hopening hinner hclosing =>
    obtain ⟨head', others, distance, htokens, hkind, -, -, hothers⟩ := h.exists_tokens
    obtain ⟨opening', later, rfl, rfl, hlater⟩ := List.map_eq_cons_iff.1 hothers.symm
    obtain ⟨inner', ending, rfl, rfl, hending⟩ := List.map_eq_append_iff.1 hlater
    obtain ⟨closing', _, rfl, rfl, hnil⟩ := List.map_eq_cons_iff.1 hending
    obtain rfl := List.map_eq_nil_iff.1 hnil
    have hclose : closing'.lexeme = [')'] := by
      have hgenuine : (closing'.moved distance).Genuine := h.genuine_of_mem (by simp)
      exact hgenuine.lexeme_of_close hclosing
    obtain ⟨first, tail, hlexeme, hfirst, -⟩ := h.genuine
    constructor
    · rw [String.toList_ofList, hlexeme]
      have hlast : Text.isBlank ')' = false := rfl
      have htrim := Text.trim_cons_concat hfirst hlast (tail ++ opening'.blanks ++
        opening'.lexeme ++ Token.spelled inner' ++ closing'.blanks)
      simpa [hclose, Token.moved] using htrim
    · have hopening' : opening'.kind = .openParenthesis := hopening
      have hclosing' : closing'.kind = .closeParenthesis := hclosing
      refine ⟨_, _, ?_, .intro (hkind.trans hhead) hopening' (hinner.of_moved rfl) hclosing'⟩
      rw [String.toList_ofList]
      simpa [Token.moved] using htokens

end CatalogSearch.Cql
