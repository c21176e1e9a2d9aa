import CatalogSearch.Proofs.Cql.Cutting
import CatalogSearch.Proofs.Trimming

/-!
# Text that is copied

Geometries and units are written as they stand.  Between other pieces they are cut
into the tokens that they have by themselves, so what was a geometry stays one.
-/

namespace CatalogSearch.Cql

theorem eq_nil_of_trimLeft {blanks text : List Char} (hblanks : Blank blanks)
    (h : Text.trimLeft (blanks ++ text) = blanks ++ text) : blanks = [] := by
  rw [Text.trimLeft_eq_self_iff] at h
  cases blanks with
  | nil => rfl
  | cons c blanks =>
    have hc : Text.isBlank c = true := hblanks c List.mem_cons_self
    rw [h c rfl] at hc
    cases hc

theorem eq_nil_of_trimRight {blanks text : List Char} (hblanks : Blank blanks)
    (h : Text.trimRight (text ++ blanks) = text ++ blanks) : blanks = [] := by
  rw [Text.trimRight_eq_self_iff] at h
  obtain rfl | ⟨before, c, rfl⟩ := blanks.eq_nil_or_concat
  · rfl
  · have hc : Text.isBlank c = true := hblanks c (by simp)
    rw [h c (by simp)] at hc
    cases hc

/-- Text without white space at its ends is the text of its tokens. -/
theorem spelled_of_trim {text : List Char} (htrim : Text.trim text = text) {made : List Token}
    {position : Nat} (h : tokens position text = .ok made) : Token.spelled made = text := by
  obtain ⟨blanks, hblanks, rfl⟩ := exists_eq_spelled h
  rw [eq_nil_of_trimRight hblanks (Text.trimRight_eq_self htrim), List.append_nil]

theorem blanks_of_trim {text : List Char} (htrim : Text.trim text = text) {first : Token}
    {more : List Token} {position : Nat} (h : tokens position text = .ok (first :: more)) :
    first.blanks = [] := by
  obtain ⟨blanks, c, tail, rest, kind, hblanks, -, rfl, -, rfl, -⟩ := tokens_eq_ok_cons h
  exact eq_nil_of_trimLeft hblanks (Text.trimLeft_eq_self htrim)

/-- Copied text is cut into the tokens that it has by itself, moved as a whole. -/
theorem yields_copied {text : List Char} {first : Token} {more : List Token}
    (hspelled : Token.spelled (first :: more) = text)
    (h : tokens 0 text = .ok (first :: more)) :
    Yields text fun made => ∃ head distance, made = head :: more.map (Token.moved distance) ∧
      head.kind = first.kind ∧ head.lexeme = first.lexeme := by
  intro rest hrest position blanks hblanks
  have hcuts := (cuts_of_tokens (hspelled.symm ▸ h) hrest).moved (position + Text.width blanks)
  rw [hspelled, Nat.zero_add] at hcuts
  refine ⟨Token.after blanks ((first :: more).map (Token.moved (position + Text.width blanks))),
    ?_, _, _, rfl, rfl, rfl⟩
  unfold Cuts at hcuts ⊢
  rw [List.append_assoc, tokens_blanks hblanks, hcuts, Text.width_append, Nat.add_assoc]
  cases tokens (position + (Text.width blanks + Text.width text)) rest <;> rfl

/-! ## Units -/

/-- The text is one word. -/
def IsUnit (text : String) : Prop :=
  ∃ token, tokens 0 text.toList = .ok [token] ∧ token.kind = .word text

theorem yields_unit {text : String} (h : IsUnit text) :
    Yields text.toList (One fun token => token.kind = .word text) := by
  obtain ⟨token, htokens, hkind⟩ := h
  have hspelled : Token.spelled [token] = text.toList := by
    obtain ⟨blanks, first, tail, others, kind, -, -, htext, hscan, rfl, hothers⟩ :=
      tokens_eq_ok_cons htokens
    cases hkind
    have hname := congrArg String.toList ((Token.scans_of_scan hscan).name_eq rfl)
    rw [String.toList_ofList, List.take_left] at hname
    rw [hname, Token.spelled_cons, Token.spelled_nil]
    have hlength := congrArg List.length (hname.symm.trans htext)
    simp only [List.length_cons, List.length_append] at hlength
    have hblanks : blanks = [] := List.eq_nil_of_length_eq_zero (by omega)
    rw [hblanks, List.nil_append, List.append_nil]
  apply (yields_copied hspelled htokens).mono
  rintro made ⟨head, distance, rfl, hhead, -⟩
  exact ⟨head, rfl, hhead.trans hkind⟩

/-! ## Geometries -/

/-- The text is a word and one group in parentheses, without white space around. -/
def IsGeometry (text : String) : Prop :=
  Text.trim text.toList = text.toList ∧
    ∃ shape outline, tokens 0 text.toList = .ok shape ∧ Grammar.Outlines shape outline

@[simp]
theorem Token.spelled_moved (distance : Nat) (tokens : List Token) :
    spelled (tokens.map (moved distance)) = spelled tokens := by
  induction tokens with
  | nil => rfl
  | cons token tokens ih => rw [List.map_cons, spelled_cons, spelled_cons, ih]; rfl

namespace Grammar

theorem Balanced.moved {tokens : List Token} (h : Balanced tokens) (distance : Nat) :
    Balanced (tokens.map (Token.moved distance)) := by
  induction h with
  | nil => exact .nil
  | plain hopen hclose _ ih => exact .plain hopen hclose ih
  | nested hopening _ hclosing _ ihinner ihrest =>
    rw [List.map_cons, List.map_append, List.map_cons]
    exact .nested hopening ihinner hclosing ihrest

/-- A geometry is one wherever it stands, with whatever before its first token. -/
theorem Outlines.moved {first head : Token} {more : List Token} {outline : String}
    (h : Outlines (first :: more) outline) (hkind : head.kind = first.kind)
    (hlexeme : head.lexeme = first.lexeme) (distance : Nat) :
    Outlines (head :: more.map (Token.moved distance)) outline := by
  cases h with
  | @intro _ opening closing name inner hhead hopening hinner hclosing =>
    have hmap : (opening :: (inner ++ [closing])).map (Token.moved distance) =
        opening.moved distance ::
          (inner.map (Token.moved distance) ++ [closing.moved distance]) := by
      rw [List.map_cons, List.map_append, List.map_singleton]
    have hmoved : Outlines (head :: opening.moved distance ::
        (inner.map (Token.moved distance) ++ [closing.moved distance])) _ :=
      .intro (hkind.trans hhead) hopening (hinner.moved distance) hclosing
    rw [← hmap, Token.spelled_moved, hlexeme] at hmoved
    exact hmoved

/-- The outline of a geometry is its text. -/
theorem Outlines.eq_spelled {first : Token} {more : List Token} {outline : String}
    (h : Outlines (first :: more) outline) (hblanks : first.blanks = []) :
    outline = String.ofList (Token.spelled (first :: more)) := by
  cases h
  rw [Token.spelled_cons first, hblanks, List.nil_append]

end Grammar

theorem yields_geometry {text : String} (h : IsGeometry text) :
    Yields text.toList fun made => Grammar.Outlines made text := by
  obtain ⟨htrim, shape, outline, htokens, houtlines⟩ := h
  cases shape with
  | nil => cases houtlines
  | cons first more =>
    have hspelled := spelled_of_trim htrim htokens
    have houtline := houtlines.eq_spelled (blanks_of_trim htrim htokens)
    rw [hspelled, String.ofList_toList] at houtline
    subst outline
    apply (yields_copied hspelled htokens).mono
    rintro made ⟨head, distance, rfl, hkind, hlexeme⟩
    exact houtlines.moved hkind hlexeme distance

end CatalogSearch.Cql
