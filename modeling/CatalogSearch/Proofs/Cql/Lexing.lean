import CatalogSearch.Proofs.Cql.Grammar
import Mathlib.Data.List.TakeWhile

/-!
# Cutting text into tokens

A token ends where the next one starts apart from it: with a space, a comma or a
parenthesis.  Text that has tokens of its own is cut into the same ones, only
moved, wherever it stands, and the tokens with the blanks before them are the text.
-/

namespace CatalogSearch.Cql

/-- Text is cut into some tokens, whatever becomes of what follows it. -/
def Cuts (position : Nat) (text rest : List Char) (made : List Token) : Prop :=
  tokens position (text ++ rest) =
    (tokens (position + Text.width text) rest).map (made ++ ·)

/-- Text that starts apart from a word, a number or a quote before it. -/
def Apart (rest : List Char) : Prop :=
  ∀ c ∈ rest.head?, c = ' ' ∨ c = ',' ∨ c = '(' ∨ c = ')'

theorem apart_nil : Apart [] := nofun

theorem apart_cons {c : Char} (h : c = ' ' ∨ c = ',' ∨ c = '(' ∨ c = ')') (rest : List Char) :
    Apart (c :: rest) := by
  intro first hfirst
  cases hfirst
  exact h

def Blank (blanks : List Char) : Prop := ∀ c ∈ blanks, Text.isBlank c = true

theorem blank_nil : Blank [] := nofun

theorem blank_space : Blank [' '] := by
  intro c hc
  rw [List.mem_singleton.1 hc]
  rfl

namespace Cuts

variable {position : Nat} {text more rest : List Char} {made others : List Token}

theorem nil (position : Nat) (rest : List Char) : Cuts position [] rest [] := by
  unfold Cuts
  simp only [List.nil_append, Text.width_nil, Nat.add_zero]
  cases tokens position rest <;> rfl

theorem append (h : Cuts position text (more ++ rest) made)
    (hmore : Cuts (position + Text.width text) more rest others) :
    Cuts position (text ++ more) rest (made ++ others) := by
  unfold Cuts at h hmore ⊢
  rw [List.append_assoc, h, hmore, Text.width_append, Nat.add_assoc]
  cases tokens (position + (Text.width text + Text.width more)) rest <;> simp [Except.map]

/-- Text without anything after it has just the tokens it is cut into. -/
theorem whole (h : Cuts position text [] made) : tokens position text = .ok made := by
  unfold Cuts at h
  rw [List.append_nil] at h
  rw [h, tokens]
  simp [Except.map]

end Cuts

/-- Text starts with a character that is not blank, unless it is blank altogether. -/
theorem blank_or_first (text : List Char) :
    Blank text ∨ ∃ blanks first rest, Blank blanks ∧ Text.isBlank first = false ∧
      text = blanks ++ first :: rest := by
  cases hdrop : text.dropWhile Text.isBlank with
  | nil => exact .inl (List.dropWhile_eq_nil_iff.1 hdrop)
  | cons first rest =>
    right
    have hfirst : Text.isBlank first = false := by
      have hhead := List.head?_dropWhile_not Text.isBlank text
      rw [hdrop] at hhead
      simpa using hhead
    refine ⟨text.takeWhile Text.isBlank, first, rest, fun c => List.mem_takeWhile_imp, hfirst, ?_⟩
    rw [← hdrop, List.takeWhile_append_dropWhile]

theorem tokens_of_blank {blanks : List Char} (h : Blank blanks) (position : Nat) :
    tokens position blanks = .ok [] := by
  rw [tokens]
  split
  · rfl
  · rename_i hcons
    rw [List.dropWhile_eq_nil_iff.2 h] at hcons
    cases hcons

/-- The first token of a text as it is scanned, and then the others. -/
theorem tokens_of_first {blanks : List Char} (hblanks : Blank blanks) {first : Char}
    (hfirst : Text.isBlank first = false) (position : Nat) (rest : List Char) :
    tokens position (blanks ++ first :: rest) =
      match Token.scan first rest with
      | .error problem => .error ⟨some (position + Text.width blanks), problem⟩
      | .ok (kind, count) =>
        (tokens (position + Text.width blanks + Text.width (first :: rest.take count))
          (rest.drop count)).map
            (⟨position + Text.width blanks, blanks, first :: rest.take count, kind⟩ :: ·) := by
  have hdrop : (blanks ++ first :: rest).dropWhile Text.isBlank = first :: rest := by
    rw [List.dropWhile_append_of_pos hblanks]
    simp [hfirst]
  have htake : (blanks ++ first :: rest).takeWhile Text.isBlank = blanks := by
    rw [List.takeWhile_append_of_pos hblanks]
    simp [hfirst]
  rw [tokens]
  split
  · rename_i hnil
    rw [hdrop] at hnil
    cases hnil
  · rename_i other others hcons
    rw [hdrop, List.cons.injEq] at hcons
    obtain ⟨rfl, rfl⟩ := hcons
    rw [htake]
    cases Token.scan first rest with
    | error problem => rfl
    | ok made =>
      simp only [Token.stop]
      split <;> rename_i hrest <;> rw [hrest] <;> rfl

/-- A piece is cut out as it is scanned, with the blanks before it. -/
theorem cuts_of_scan {blanks : List Char} (hblanks : Blank blanks) {first : Char}
    (hfirst : Text.isBlank first = false) {tail rest : List Char} {kind : Token.Kind}
    (hscan : Token.scan first (tail ++ rest) = .ok (kind, tail.length)) (position : Nat) :
    Cuts position (blanks ++ first :: tail) rest
      [⟨position + Text.width blanks, blanks, first :: tail, kind⟩] := by
  unfold Cuts
  rw [List.append_assoc, List.cons_append, tokens_of_first hblanks hfirst, hscan]
  simp only [List.take_left, List.drop_left, Text.width_append, Nat.add_assoc]
  rfl

/-! ## Classes of characters -/

theorem isAlpha_iff {c : Char} :
    c.isAlpha = true ↔ 65 ≤ c.toNat ∧ c.toNat ≤ 90 ∨ 97 ≤ c.toNat ∧ c.toNat ≤ 122 := by
  change (decide (65 ≤ c.val ∧ c.val ≤ 90) || (decide (97 ≤ c.val) && decide (c.val ≤ 122))) = true
    ↔ _
  simp only [Bool.or_eq_true, Bool.and_eq_true, decide_eq_true_eq, UInt32.le_iff_toNat_le]
  rfl

theorem toNat_of_isAlphanum {c : Char} (h : c.isAlphanum = true) :
    48 ≤ c.toNat ∧ c.toNat ≤ 122 := by
  obtain halpha | hdigit := Bool.or_eq_true_iff.1 h
  · have := isAlpha_iff.1 halpha
    omega
  · obtain ⟨hlow, hhigh⟩ := Char.isDigit_iff_toNat.1 hdigit
    have hhigh : c.toNat ≤ 57 := hhigh
    exact ⟨hlow, by omega⟩

theorem isAscii_of_isAlphanum {c : Char} (h : c.isAlphanum = true) : Text.isAscii c = true := by
  have := toNat_of_isAlphanum h
  simp only [Text.isAscii, decide_eq_true_eq]
  omega

/-- Printed ASCII characters are not white space. -/
theorem not_isBlank {c : Char} (hlow : 33 ≤ c.toNat) (hhigh : c.toNat ≤ 126) :
    Text.isBlank c = false := by
  simp only [Text.isBlank, Bool.or_eq_false_iff, Bool.and_eq_false_iff, decide_eq_false_iff_not,
    beq_eq_false_iff_ne]
  omega

theorem not_isBlank_of_isAlphanum {c : Char} (h : c.isAlphanum = true) :
    Text.isBlank c = false := by
  have := toNat_of_isAlphanum h
  exact not_isBlank (by omega) (by omega)

section Apart

variable {p : Char → Bool} {rest : List Char}

theorem not_head_apart (hspace : p ' ' = false) (hcomma : p ',' = false)
    (hopen : p '(' = false) (hclose : p ')' = false) (hrest : Apart rest) :
    ∀ c ∈ rest.head?, p c = false := by
  intro c hc
  obtain rfl | rfl | rfl | rfl := hrest c hc
  · exact hspace
  · exact hcomma
  · exact hopen
  · exact hclose

theorem takeWhile_append_apart (hspace : p ' ' = false) (hcomma : p ',' = false)
    (hopen : p '(' = false) (hclose : p ')' = false) (text : List Char) (hrest : Apart rest) :
    (text ++ rest).takeWhile p = text.takeWhile p := by
  induction text with
  | nil =>
    cases rest with
    | nil => rfl
    | cons c rest =>
      have hc : p c = false := not_head_apart hspace hcomma hopen hclose hrest c rfl
      simp [hc]
  | cons c text ih => rw [List.cons_append, List.takeWhile_cons, List.takeWhile_cons, ih]

end Apart

/-! ## Scanning -/

namespace Token

theorem startsWord_of_isAlpha {c : Char} (h : c.isAlpha = true) : startsWord c = true := by
  have hascii : Text.isAscii c = true := isAscii_of_isAlphanum (by simp [Char.isAlphanum, h])
  simp [startsWord, Text.isAlphabetic, hascii, h]

/-- A word starts neither with punctuation nor with a literal. -/
theorem ne_of_startsWord {first : Char} (h : startsWord first = true) {c : Char}
    (hc : startsWord c = false) : first ≠ c := by
  rintro rfl
  rw [h] at hc
  cases hc

theorem not_startsWord_of_isDigit {c : Char} (h : c.isDigit = true) : startsWord c = false := by
  have hascii : Text.isAscii c = true := isAscii_of_isAlphanum (by simp [Char.isAlphanum, h])
  have hhigh : c.toNat ≤ 57 := (Char.isDigit_iff_toNat.1 h).2
  have halpha : c.isAlpha = false := by
    rw [Bool.eq_false_iff]
    intro halpha
    have := isAlpha_iff.1 halpha
    omega
  have hunderscore : c ≠ '_' := by
    rintro rfl
    cases h
  simp [startsWord, Text.isAlphabetic, hascii, halpha, hunderscore]

/-- Only literals start with a digit, a sign or a point. -/
theorem not_startsLiteral {first : Char} (h : startsWord first = true) (rest : List Char) :
    startsLiteral first rest = false := by
  have hdigit : first.isDigit = false := by
    cases hdigit : first.isDigit with
    | false => rfl
    | true =>
      rw [not_startsWord_of_isDigit hdigit] at h
      cases h
  have hminus : first ≠ '-' := ne_of_startsWord h rfl
  have hplus : first ≠ '+' := ne_of_startsWord h rfl
  have hpoint : first ≠ '.' := ne_of_startsWord h rfl
  simp [startsLiteral, hdigit, hminus, hplus, hpoint]

theorem scan_of_startsWord {first : Char} (h : startsWord first = true) (rest : List Char) :
    scan first rest =
      .ok (.word (String.ofList (first :: rest.takeWhile continuesWord)),
        (rest.takeWhile continuesWord).length) := by
  have hne : ∀ c, startsWord c = false → first ≠ c := fun c => ne_of_startsWord h
  simp [scan, hne '(' rfl, hne ')' rfl, hne ',' rfl, hne '=' rfl, hne '<' rfl, hne '>' rfl,
    hne '!' rfl, hne '\'' rfl, hne '"' rfl, not_startsLiteral h, h]

theorem scan_word {first : Char} {tail : List Char} (hfirst : startsWord first = true)
    (htail : ∀ c ∈ tail, continuesWord c = true) :
    scan first tail = .ok (.word (String.ofList (first :: tail)), tail.length) := by
  rw [scan_of_startsWord hfirst, List.takeWhile_eq_self_iff.2 htail]

/-- What starts as a literal starts neither with punctuation nor with a quote. -/
theorem scan_of_startsLiteral {first : Char} {rest : List Char}
    (h : startsLiteral first rest = true) :
    scan first rest = .ok (literalKind (first :: rest.takeWhile isLiteral),
      (rest.takeWhile isLiteral).length) := by
  have hne : ∀ c, startsLiteral c rest = false → first ≠ c := by
    rintro c hc rfl
    rw [h] at hc
    cases hc
  simp [scan, hne '(' rfl, hne ')' rfl, hne ',' rfl, hne '=' rfl, hne '<' rfl, hne '>' rfl,
    hne '!' rfl, hne '\'' rfl, hne '"' rfl, h]

theorem scan_literal {first : Char} {tail : List Char} (hfirst : startsLiteral first tail = true)
    (htail : ∀ c ∈ tail, isLiteral c = true) :
    scan first tail = .ok (literalKind (first :: tail), tail.length) := by
  rw [scan_of_startsLiteral hfirst, List.takeWhile_eq_self_iff.2 htail]

theorem unquote_of_ne {mark c : Char} (h : c ≠ mark) (rest : List Char) :
    unquote mark (c :: rest) =
      (unquote mark rest).map fun (text, count) => (c :: text, count + 1) := by
  rw [unquote.eq_def]
  simp only [h, if_false]

theorem unquote_of_doubled (mark : Char) (rest : List Char) :
    unquote mark (mark :: mark :: rest) =
      (unquote mark rest).map fun (text, count) => (mark :: text, count + 2) := by
  rw [unquote.eq_def]
  simp only [if_true]

theorem unquote_of_closing {mark : Char} {rest : List Char} (h : rest.head? ≠ some mark) :
    unquote mark (mark :: rest) = some ([], 1) := by
  rw [unquote.eq_def]
  cases rest with
  | nil => simp only [if_true]
  | cons next rest =>
    have hnext : next ≠ mark := by
      rintro rfl
      exact h rfl
    simp only [hnext, if_true, if_false]

theorem startsLiteral_append (first : Char) (text : List Char) {rest : List Char}
    (hrest : Apart rest) : startsLiteral first (text ++ rest) = startsLiteral first text := by
  cases text with
  | nil =>
    cases rest with
    | nil => rfl
    | cons c rest =>
      have hc : c.isDigit = false := not_head_apart rfl rfl rfl rfl hrest c rfl
      simp [startsLiteral, hc]
  | cons c text => rfl

theorem comparison?_append (first : Char) (text : List Char) {rest : List Char}
    (hrest : Apart rest) : comparison? first (text ++ rest) = comparison? first text := by
  cases text with
  | nil =>
    cases rest with
    | nil => rfl
    | cons c rest =>
      obtain rfl | rfl | rfl | rfl := hrest c rfl <;> unfold comparison? <;> split <;> simp_all
  | cons c text => unfold comparison?; split <;> simp_all

theorem unquote_append {mark : Char} {text : List Char} {value : List Char × Nat}
    (h : unquote mark text = some value) {rest : List Char} (hrest : rest.head? ≠ some mark) :
    unquote mark (text ++ rest) = some value := by
  fun_induction unquote mark text generalizing value with
  | case1 => cases h
  | case2 text ih =>
    obtain ⟨inner, hinner, rfl⟩ := Option.map_eq_some_iff.1 h
    rw [List.cons_append, List.cons_append, unquote_of_doubled, ih hinner]
    rfl
  | case3 next text hnext =>
    have hhead : (next :: (text ++ rest)).head? ≠ some mark := by simpa using hnext
    rw [List.cons_append, List.cons_append, unquote_of_closing hhead, h]
  | case4 => rw [List.singleton_append, unquote_of_closing hrest, h]
  | case5 c text hc ih =>
    obtain ⟨inner, hinner, rfl⟩ := Option.map_eq_some_iff.1 h
    rw [List.cons_append, unquote_of_ne hc, ih hinner]
    rfl

theorem count_le_of_comparison? {first : Char} {text : List Char} {operator : Comparison}
    {count : Nat} (h : comparison? first text = some (operator, count)) :
    count ≤ text.length := by
  unfold comparison? at h
  split at h <;> simp_all <;> omega

theorem count_le_of_unquote {mark : Char} {text value : List Char} {count : Nat}
    (h : unquote mark text = some (value, count)) : count ≤ text.length := by
  fun_induction unquote mark text generalizing value count with
  | case1 => cases h
  | case2 text ih =>
    obtain ⟨⟨inner, used⟩, hinner, heq⟩ := Option.map_eq_some_iff.1 h
    cases heq
    have := ih hinner
    simp only [List.length_cons]
    omega
  | case3 => cases h; simp
  | case4 => cases h; simp
  | case5 c text hc ih =>
    obtain ⟨⟨inner, used⟩, hinner, heq⟩ := Option.map_eq_some_iff.1 h
    cases heq
    have := ih hinner
    simp only [List.length_cons]
    omega

theorem literalKind_ne_word (lexeme : List Char) (name : String) :
    literalKind lexeme ≠ .word name := by
  unfold literalKind
  split
  · split <;> simp
  · simp

/-- Characters that are tokens by themselves. -/
def marks : List (Char × Kind) :=
  [('(', .openParenthesis), (')', .closeParenthesis), (',', .comma), ('=', .comparison .equal)]

theorem scan_of_mem_marks {first : Char} {kind : Kind} (h : (first, kind) ∈ marks)
    (rest : List Char) : scan first rest = .ok (kind, 0) := by
  simp only [marks, List.mem_cons, Prod.mk.injEq, List.not_mem_nil, or_false] at h
  obtain ⟨rfl, rfl⟩ | ⟨rfl, rfl⟩ | ⟨rfl, rfl⟩ | ⟨rfl, rfl⟩ := h <;> rfl

/-- What can have been scanned, by the character that it starts with. -/
inductive Scans (first : Char) (text : List Char) : Kind → Nat → Prop
  | mark {kind : Kind} (hfirst : (first, kind) ∈ marks) : Scans first text kind 0
  | comparison {operator : Comparison} {count : Nat}
      (hfirst : (first = '<' || first = '>' || first = '!') = true)
      (h : comparison? first text = some (operator, count)) :
      Scans first text (.comparison operator) count
  | text {value : List Char} {count : Nat} (hfirst : first = '\'')
      (h : unquote '\'' text = some (value, count)) :
      Scans first text (.text (String.ofList value)) count
  | quotedName {value : List Char} {count : Nat} (hfirst : first = '"')
      (h : unquote '"' text = some (value, count)) :
      Scans first text (.quotedName (String.ofList value)) count
  | literal (hfirst : startsLiteral first text = true) :
      Scans first text (literalKind (first :: text.takeWhile isLiteral))
        (text.takeWhile isLiteral).length
  | word (hfirst : startsWord first = true) :
      Scans first text (.word (String.ofList (first :: text.takeWhile continuesWord)))
        (text.takeWhile continuesWord).length

theorem scans_of_scan {first : Char} {text : List Char} {kind : Kind} {count : Nat}
    (h : scan first text = .ok (kind, count)) : Scans first text kind count := by
  revert h
  fun_cases scan first text with
  | case1 hfirst | case2 _ hfirst | case3 _ _ hfirst | case4 _ _ _ hfirst =>
    rintro ⟨⟩
    exact .mark (by simp [marks, hfirst])
  | case5 _ _ _ _ hfirst operator count hvalue =>
    rintro ⟨⟩
    exact .comparison hfirst hvalue
  | case7 _ _ _ _ _ hfirst value count hvalue =>
    rintro ⟨⟩
    exact .text hfirst hvalue
  | case9 _ _ _ _ _ _ hfirst value count hvalue =>
    rintro ⟨⟩
    exact .quotedName hfirst hvalue
  | case11 _ _ _ _ _ _ _ hfirst =>
    rintro ⟨⟩
    exact .literal hfirst
  | case12 _ _ _ _ _ _ _ _ hfirst =>
    rintro ⟨⟩
    exact .word hfirst
  | case6 | case8 | case10 | case13 => rintro ⟨⟩

theorem scan_of_comparison {first : Char} {text : List Char} {operator : Comparison}
    {count : Nat} (hfirst : (first = '<' || first = '>' || first = '!') = true)
    (h : comparison? first text = some (operator, count)) :
    scan first text = .ok (.comparison operator, count) := by
  have hne : ∀ c, (c = '<' || c = '>' || c = '!') = false → first ≠ c := by
    rintro c hc rfl
    rw [hfirst] at hc
    cases hc
  simp only [scan, hne '(' rfl, hne ')' rfl, hne ',' rfl, hne '=' rfl, hfirst, h, if_true,
    if_false]

/-- What is scanned by the character that it starts with is scanned. -/
theorem Scans.scan_eq {first : Char} {text : List Char} {kind : Kind} {count : Nat}
    (h : Scans first text kind count) : scan first text = .ok (kind, count) := by
  cases h with
  | mark hfirst => exact scan_of_mem_marks hfirst text
  | comparison hfirst h => exact scan_of_comparison hfirst h
  | text hfirst h =>
    subst hfirst
    simp [scan, h]
  | quotedName hfirst h =>
    subst hfirst
    simp [scan, h]
  | literal hfirst => exact scan_of_startsLiteral hfirst
  | word hfirst => exact scan_of_startsWord hfirst text

theorem Scans.append {first : Char} {text : List Char} {kind : Kind} {count : Nat}
    (h : Scans first text kind count) {rest : List Char} (hrest : Apart rest) :
    Scans first (text ++ rest) kind count := by
  cases h with
  | mark hfirst => exact .mark hfirst
  | comparison hfirst h =>
    apply Scans.comparison hfirst
    rwa [comparison?_append first text hrest]
  | text hfirst h =>
    apply Scans.text hfirst
    apply unquote_append h
    exact fun hhead => by simpa using hrest _ hhead
  | quotedName hfirst h =>
    apply Scans.quotedName hfirst
    apply unquote_append h
    exact fun hhead => by simpa using hrest _ hhead
  | literal hfirst =>
    rw [← takeWhile_append_apart (p := isLiteral) rfl rfl rfl rfl text hrest]
    apply Scans.literal
    rwa [startsLiteral_append first text hrest]
  | word hfirst =>
    rw [← takeWhile_append_apart (p := continuesWord) rfl rfl rfl rfl text hrest]
    exact .word hfirst

/-- A token that ends its text is scanned in the same way before text apart from it. -/
theorem scan_append {first : Char} {text : List Char} {made : Kind × Nat}
    (h : scan first text = .ok made) {rest : List Char} (hrest : Apart rest) :
    scan first (text ++ rest) = .ok made :=
  ((scans_of_scan h).append hrest).scan_eq

/-- A token takes no more characters than there are. -/
theorem Scans.count_le {first : Char} {text : List Char} {kind : Kind} {count : Nat}
    (h : Scans first text kind count) : count ≤ text.length := by
  cases h with
  | mark => exact Nat.zero_le _
  | comparison _ h => exact count_le_of_comparison? h
  | text _ h | quotedName _ h => exact count_le_of_unquote h
  | literal | word => exact (List.takeWhile_sublist _).length_le

/-- A word is all of the characters that it takes. -/
theorem Scans.name_eq {first : Char} {text : List Char} {kind : Kind} {count : Nat}
    (h : Scans first text kind count) {name : String} (hname : kind = .word name) :
    name = String.ofList (first :: text.take count) := by
  cases h with
  | mark hfirst =>
    subst hname
    simp [marks] at hfirst
  | comparison | text | quotedName => cases hname
  | literal => exact absurd hname (literalKind_ne_word _ name)
  | word =>
    cases hname
    rw [← List.prefix_iff_eq_take.1 (List.takeWhile_prefix _)]

end Token

/-! ## Text and its tokens -/

/-- What holds of blank text, and of text with a token in front if it holds of all that can be
left behind that token, holds of every text. -/
@[elab_as_elim]
theorem induction_on_first {motive : List Char → Prop}
    (blank : ∀ blanks, Blank blanks → motive blanks)
    (first : ∀ blanks first rest, Blank blanks → Text.isBlank first = false →
      (∀ count, motive (rest.drop count)) → motive (blanks ++ first :: rest))
    (text : List Char) : motive text := by
  induction hlength : text.length using Nat.strong_induction_on generalizing text with
  | _ length ih =>
    subst hlength
    obtain hblank | ⟨blanks, c, rest, hblanks, hc, rfl⟩ := blank_or_first text
    · exact blank text hblank
    · apply first blanks c rest hblanks hc
      intro count
      apply ih (rest.drop count).length _ (rest.drop count) rfl
      simp only [List.length_drop, List.length_append, List.length_cons]
      omega

/-- The tokens of a text are its first one, as it is scanned, and those after it. -/
theorem tokens_eq_ok_cons {position : Nat} {text : List Char} {token : Token}
    {more : List Token} (h : tokens position text = .ok (token :: more)) :
    ∃ blanks first tail rest kind, Blank blanks ∧ Text.isBlank first = false ∧
      text = blanks ++ first :: (tail ++ rest) ∧
      Token.scan first (tail ++ rest) = .ok (kind, tail.length) ∧
      token = ⟨position + Text.width blanks, blanks, first :: tail, kind⟩ ∧
      tokens token.stop rest = .ok more := by
  obtain hblank | ⟨blanks, first, rest, hblanks, hfirst, rfl⟩ := blank_or_first text
  · rw [tokens_of_blank hblank] at h
    cases h
  rw [tokens_of_first hblanks hfirst] at h
  split at h
  · cases h
  · rename_i kind count hscan
    obtain ⟨others, hothers, heq⟩ := map_eq_ok h
    cases heq
    have hcount : (rest.take count).length = count :=
      List.length_take_of_le (Token.scans_of_scan hscan).count_le
    refine ⟨blanks, first, rest.take count, rest.drop count, kind, hblanks, hfirst, ?_, ?_, rfl,
      hothers⟩
    · rw [List.take_append_drop]
    · rw [List.take_append_drop, hcount, hscan]

/-- A text without tokens is blank. -/
theorem blank_of_tokens {position : Nat} {text : List Char} (h : tokens position text = .ok []) :
    Blank text := by
  obtain hblank | ⟨blanks, first, rest, hblanks, hfirst, rfl⟩ := blank_or_first text
  · exact hblank
  · rw [tokens_of_first hblanks hfirst] at h
    split at h
    · cases h
    · obtain ⟨others, -, heq⟩ := map_eq_ok h
      cases heq

/-- Tokens with the blanks before them are all of a text but the blanks at its end. -/
theorem exists_eq_spelled {made : List Token} {position : Nat} {text : List Char}
    (h : tokens position text = .ok made) :
    ∃ blanks, Blank blanks ∧ text = Token.spelled made ++ blanks := by
  induction made generalizing position text with
  | nil => exact ⟨text, blank_of_tokens h, rfl⟩
  | cons token more ih =>
    obtain ⟨blanks, first, tail, rest, kind, -, -, rfl, -, rfl, hmore⟩ := tokens_eq_ok_cons h
    obtain ⟨ending, hending, hrest⟩ := ih hmore
    apply Exists.intro ending
    constructor
    · exact hending
    · rw [Token.spelled_cons, List.append_assoc _ _ ending, ← hrest]
      simp

namespace Token

/-- The same token further on. -/
def moved (distance : Nat) (token : Token) : Token :=
  { token with start := token.start + distance }

/-- The token with more blanks before it. -/
def after (blanks : List Char) : List Token → List Token
  | [] => []
  | token :: more => { token with blanks := blanks ++ token.blanks } :: more

end Token

/-- The same fault further on; one without a place lies at the end wherever that is. -/
def Fault.moved (distance : Nat) (fault : Fault) : Fault :=
  { fault with place := fault.place.map (· + distance) }

/-- The tokens of a text further on, or what is at fault there. -/
def further (distance : Nat) (made : Except Fault (List Token)) : Except Fault (List Token) :=
  (made.map (List.map (Token.moved distance))).mapError (Fault.moved distance)

/-- Where a text starts changes nothing but the places in it. -/
theorem tokens_add (position distance : Nat) (text : List Char) :
    tokens (position + distance) text = further distance (tokens position text) := by
  induction text using induction_on_first generalizing position with
  | blank blanks hblanks =>
    rw [tokens_of_blank hblanks, tokens_of_blank hblanks]
    rfl
  | first blanks first rest hblanks hfirst ih =>
    rw [tokens_of_first hblanks hfirst, tokens_of_first hblanks hfirst]
    have hstart : position + distance + Text.width blanks =
        position + Text.width blanks + distance := Nat.add_right_comm _ _ _
    cases Token.scan first rest with
    | error problem =>
      rw [hstart]
      rfl
    | ok made =>
      have hstop : position + distance + Text.width blanks +
          Text.width (first :: rest.take made.2) =
          position + Text.width blanks + Text.width (first :: rest.take made.2) + distance := by
        omega
      dsimp only
      rw [hstop, ih made.2, hstart]
      cases tokens (position + Text.width blanks + Text.width (first :: rest.take made.2))
        (rest.drop made.2) <;> rfl

theorem Cuts.moved {position : Nat} {text rest : List Char} {made : List Token}
    (h : Cuts position text rest made) (distance : Nat) :
    Cuts (position + distance) text rest (made.map (Token.moved distance)) := by
  unfold Cuts at h ⊢
  rw [tokens_add, h, Nat.add_right_comm, tokens_add (position + Text.width text)]
  cases tokens (position + Text.width text) rest with
  | error fault => rfl
  | ok more => exact congrArg Except.ok List.map_append

/-- Text that has tokens is cut into them, if what follows is apart. -/
theorem cuts_of_tokens {made : List Token} {position : Nat}
    (h : tokens position (Token.spelled made) = .ok made) {rest : List Char}
    (hrest : Apart rest) : Cuts position (Token.spelled made) rest made := by
  induction made generalizing position with
  | nil => exact Cuts.nil _ _
  | cons token more ih =>
    obtain ⟨blanks, first, tail, others, kind, hblanks, hfirst, htext, hscan, rfl, hmore⟩ :=
      tokens_eq_ok_cons h
    have hothers : others = Token.spelled more := by
      rw [Token.spelled_cons, List.append_assoc, List.cons_append] at htext
      simpa using htext.symm
    subst others
    have hpiece : Cuts position (blanks ++ first :: tail) (Token.spelled more ++ rest)
        [⟨position + Text.width blanks, blanks, first :: tail, kind⟩] := by
      apply cuts_of_scan hblanks hfirst
      rw [← List.append_assoc]
      exact Token.scan_append hscan hrest
    have hlater := ih hmore
    rw [Token.stop, Nat.add_assoc, ← Text.width_append] at hlater
    exact hpiece.append hlater

/-- Blanks before text belong to its first token. -/
theorem tokens_blanks {blanks : List Char} (h : Blank blanks) (position : Nat)
    (text : List Char) :
    tokens position (blanks ++ text) =
      (tokens (position + Text.width blanks) text).map (Token.after blanks) := by
  obtain hblank | ⟨more, first, rest, hmore, hfirst, rfl⟩ := blank_or_first text
  · have hall : Blank (blanks ++ text) := fun c hc =>
      (List.mem_append.1 hc).elim (h c) (hblank c)
    rw [tokens_of_blank hall, tokens_of_blank hblank]
    rfl
  · have hall : Blank (blanks ++ more) := fun c hc =>
      (List.mem_append.1 hc).elim (h c) (hmore c)
    rw [← List.append_assoc, tokens_of_first hall hfirst, tokens_of_first hmore hfirst,
      Text.width_append, ← Nat.add_assoc]
    cases Token.scan first rest with
    | error problem => rfl
    | ok made =>
      dsimp only
      cases tokens _ (rest.drop made.2) <;> rfl

end CatalogSearch.Cql
