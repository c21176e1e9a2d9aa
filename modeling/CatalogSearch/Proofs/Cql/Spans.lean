import CatalogSearch.Proofs.Cql.Excerpts
import CatalogSearch.Proofs.Cql.Soundness

/-!
# The bytes of tokens

The tokens of a text lie in it in a row, with nothing but white space around them.  So each
starts and stops between two characters of the text, and what is copied from the text, a word,
a number, an instant or a whole geometry, is the slice of it between two such places.
-/

namespace CatalogSearch

namespace Text

theorem width_eq (text : List Char) : width text = (String.ofList text).utf8ByteSize := by
  induction text with
  | nil => rfl
  | cons c text ih =>
    rw [width_cons, ih, ← List.singleton_append, String.ofList_append, String.utf8ByteSize_append,
      ← String.singleton_eq_ofList, String.utf8ByteSize_singleton]

theorem width_toList (text : String) : width text.toList = text.utf8ByteSize := by
  rw [width_eq, String.ofList_toList]

theorem width_pos {text : List Char} (h : text ≠ []) : 0 < width text := by
  obtain ⟨c, rest, rfl⟩ := List.exists_cons_of_ne_nil h
  exact Nat.add_pos_left c.utf8Size_pos _

/-- The byte stands between two characters of the text or at one of its ends. -/
def Boundary (text : String) (position : Nat) : Prop := String.Pos.Raw.IsValid text ⟨position⟩

instance (text : String) (position : Nat) : Decidable (Boundary text position) :=
  inferInstanceAs (Decidable (String.Pos.Raw.IsValid text ⟨position⟩))

/-- What a text holds from one byte to another.  There is nothing between bytes in the wrong
order, past the end or inside a character. -/
def slice? (text : String) (start stop : Nat) : Option String :=
  if h : Boundary text start ∧ Boundary text stop ∧ start ≤ stop then
    some (text.extract ⟨⟨start⟩, h.1⟩ ⟨⟨stop⟩, h.2.1⟩)
  else none

variable {text : String} {before piece after : List Char}

theorem boundary_width (h : text.toList = before ++ after) : Boundary text (width before) := by
  apply String.Pos.Raw.isValid_iff_exists_append.2
  refine ⟨String.ofList before, String.ofList after, ?_, ?_⟩
  · rw [← String.ofList_append, ← h, String.ofList_toList]
  · rw [width_eq]
    rfl

theorem Boundary.le {position : Nat} (h : Boundary text position) :
    position ≤ text.utf8ByteSize := String.Pos.Raw.IsValid.le_rawEndPos h

/-- A piece of a text is the slice that starts and stops where the piece does. -/
theorem slice?_eq_some (h : text.toList = before ++ (piece ++ after)) :
    slice? text (width before) (width before + width piece) = some (String.ofList piece) := by
  have hstart : Boundary text (width before) := boundary_width h
  have hstop : Boundary text (width before + width piece) := by
    have happend : text.toList = before ++ piece ++ after := by rw [h, List.append_assoc]
    rw [← width_append]
    exact boundary_width happend
  have hbytes : text.toByteArray = (String.ofList before).toByteArray ++
      ((String.ofList piece).toByteArray ++ (String.ofList after).toByteArray) := by
    rw [← String.toByteArray_append, ← String.toByteArray_append, ← String.ofList_append,
      ← String.ofList_append, ← h, String.ofList_toList]
  rw [slice?, dif_pos ⟨hstart, hstop, Nat.le_add_right _ _⟩, Option.some.injEq,
    ← String.toByteArray_inj, String.toByteArray_extract]
  calc
    text.toByteArray.extract (width before) (width before + width piece) =
        text.toByteArray.extract ((String.ofList before).toByteArray.size + 0)
          ((String.ofList before).toByteArray.size + (String.ofList piece).toByteArray.size) := by
      rw [width_eq, width_eq, String.size_toByteArray, String.size_toByteArray, Nat.add_zero]
    _ = ((String.ofList piece).toByteArray ++ (String.ofList after).toByteArray).extract 0
          (String.ofList piece).toByteArray.size := by
      rw [hbytes, ByteArray.extract_append_size_add]
    _ = (String.ofList piece).toByteArray := ByteArray.extract_append_eq_left rfl

end Text

namespace Cql

open Text (slice? Boundary)

/-! ## Tokens in a row -/

/-- The tokens lie in a text in a row, which starts at a byte, with white space around them. -/
inductive Laid : Nat → List Char → List Token → Prop
  | nil {position : Nat} {blanks : List Char} (hblanks : Blank blanks) : Laid position blanks []
  | cons {position : Nat} {token : Token} {rest : List Char} {more : List Token}
      (hblanks : Blank token.blanks) (hlexeme : token.lexeme ≠ [])
      (hstart : token.start = position + Text.width token.blanks)
      (hrest : Laid token.stop rest more) :
      Laid position (token.blanks ++ (token.lexeme ++ rest)) (token :: more)

theorem laid_of_tokens {position : Nat} {text : List Char} {made : List Token}
    (h : tokens position text = .ok made) : Laid position text made := by
  induction made generalizing position text with
  | nil => exact .nil (blank_of_tokens h)
  | cons token more ih =>
    obtain ⟨blanks, first, tail, rest, kind, hblanks, -, rfl, -, rfl, hrest⟩ :=
      tokens_eq_ok_cons h
    exact .cons hblanks (List.cons_ne_nil first tail) rfl (ih hrest)

namespace Token

/-- The token has the bytes from one to another. -/
def Covers (token : Token) (start stop : Nat) : Prop := token.start ≤ start ∧ stop ≤ token.stop

/-- The token has none of the bytes from one to another. -/
def Avoids (token : Token) (start stop : Nat) : Prop := stop ≤ token.start ∨ token.stop ≤ start

end Token

namespace Laid

variable {position : Nat} {text : List Char} {made more : List Token} {token : Token}

/-- Tokens after the first ones lie in the text after those. -/
theorem exists_spelled (h : Laid position text (made ++ more)) :
    ∃ rest, text = Token.spelled made ++ rest ∧
      Laid (position + Text.width (Token.spelled made)) rest more := by
  induction made generalizing position text with
  | nil => exact ⟨text, rfl, h⟩
  | cons token made ih =>
    cases h with
    | @cons _ _ rest _ hblanks hlexeme hstart hrest =>
      obtain ⟨ending, rfl, hending⟩ := ih hrest
      refine ⟨ending, by simp, ?_⟩
      have hstop : token.stop + Text.width (Token.spelled made) =
          position + Text.width (Token.spelled (token :: made)) := by
        simp only [Token.stop, hstart, Token.spelled_cons, Text.width_append]
        omega
      rwa [hstop] at hending

theorem start_lt_stop (h : Laid position text made) (hmem : token ∈ made) :
    token.start < token.stop := by
  obtain ⟨before, later, rfl⟩ := List.append_of_mem hmem
  obtain ⟨rest, -, hrest⟩ := h.exists_spelled
  cases hrest with
  | cons hblanks hlexeme hstart hrest =>
    exact Nat.lt_add_of_pos_right (Text.width_pos hlexeme)

theorem le_start (h : Laid position text made) (hmem : token ∈ made) : position ≤ token.start := by
  obtain ⟨before, later, rfl⟩ := List.append_of_mem hmem
  obtain ⟨rest, -, hrest⟩ := h.exists_spelled
  cases hrest with
  | cons hblanks hlexeme hstart hrest => omega

theorem pairwise (h : Laid position text made) :
    made.Pairwise fun token later => token.stop ≤ later.start := by
  induction h with
  | nil => exact .nil
  | cons hblanks hlexeme hstart hrest ih => exact .cons (fun later => hrest.le_start) ih

/-- A character stands in the first of two pieces or in the second. -/
theorem mem_piece {left right before after : List Char} {c : Char}
    (h : left ++ right = before ++ c :: after) :
    (∃ inner, left = before ++ c :: inner) ∨
      ∃ inner, before = left ++ inner ∧ right = inner ++ c :: after := by
  obtain ⟨inner, hbefore, hright⟩ | ⟨inner, hleft, hafter⟩ := List.append_eq_append_iff.1 h
  · exact .inr ⟨inner, hbefore, hright⟩
  · cases inner with
    | nil =>
      refine .inr ⟨[], ?_, hafter.symm⟩
      rw [hleft, List.append_nil, List.append_nil]
    | cons d inner =>
      cases hafter
      exact .inl ⟨inner, hleft⟩

/-- Each character of the text belongs to a token, unless it is white space between them. -/
theorem covers_or_avoids (h : Laid position text made) {before after : List Char} {c : Char}
    (htext : text = before ++ c :: after) :
    (∃ token ∈ made, token.Covers (position + Text.width before)
        (position + Text.width before + c.utf8Size)) ∨
      Text.isBlank c = true ∧ ∀ token ∈ made, token.Avoids (position + Text.width before)
        (position + Text.width before + c.utf8Size) := by
  induction h generalizing before with
  | nil hblanks =>
    right
    exact ⟨hblanks c (by simp [htext]), nofun⟩
  | @cons position token rest more hblanks hlexeme hstart hrest ih =>
    obtain ⟨inner, hinner⟩ | ⟨inner, rfl, hafter⟩ := mem_piece htext
    · -- In the white space before the first token, hence before all of them.
      right
      have hbefore : position + Text.width before + c.utf8Size ≤ token.start := by
        rw [hstart, hinner, Text.width_append, Text.width_cons]
        omega
      refine ⟨hblanks c (by simp [hinner]), fun other hmem => .inl ?_⟩
      obtain rfl | hmem := List.mem_cons.1 hmem
      · exact hbefore
      · have hle : token.start ≤ token.stop := Nat.le_add_right _ _
        exact hbefore.trans (hle.trans (hrest.le_start hmem))
    · obtain ⟨tail, htail⟩ | ⟨tail, rfl, hlater⟩ := mem_piece hafter
      · left
        refine ⟨token, List.mem_cons_self, ?_, ?_⟩
        · rw [hstart, Text.width_append]
          omega
        · rw [Token.stop, hstart, htail]
          simp only [Text.width_append, Text.width_cons]
          omega
      · have hplace : token.stop + Text.width tail =
            position + Text.width (token.blanks ++ (token.lexeme ++ tail)) := by
          simp only [Token.stop, hstart, Text.width_append]
          omega
        have hcase := ih hlater
        rw [hplace] at hcase
        obtain ⟨other, hmem, hcovers⟩ | ⟨hblank, havoids⟩ := hcase
        · exact .inl ⟨other, List.mem_cons_of_mem _ hmem, hcovers⟩
        · right
          refine ⟨hblank, fun other hmem => ?_⟩
          obtain rfl | hmem := List.mem_cons.1 hmem
          · exact .inr (by omega)
          · exact havoids other hmem

end Laid

/-! ## Slices -/

section Slices

variable {position : Nat} {text : String} {made earlier middle rest : List Token}
variable {token head closing : Token}

/-- What tokens in a row spell, but for the white space before them, stands in the text where
the first of them starts. -/
theorem Laid.slice?_run (h : Laid 0 text.toList (earlier ++ head :: (middle ++ rest))) :
    slice? text head.start
        (head.start + Text.width (head.lexeme ++ Token.spelled middle)) =
      some (String.ofList (head.lexeme ++ Token.spelled middle)) := by
  obtain ⟨found, htext, hhead⟩ := h.exists_spelled
  cases hhead with
  | cons _ _ hstart hmore =>
    obtain ⟨ending, rfl, -⟩ := hmore.exists_spelled
    have hfirst : head.start = Text.width (Token.spelled earlier ++ head.blanks) := by
      rw [hstart, Text.width_append, Nat.zero_add]
    have hpiece : text.toList = Token.spelled earlier ++ head.blanks ++
        (head.lexeme ++ Token.spelled middle ++ ending) := by
      rw [htext]
      simp
    rw [hfirst]
    exact Text.slice?_eq_some hpiece

theorem Laid.start_eq {text : List Char} (h : Laid position text (head :: rest)) :
    head.start = position + Text.width head.blanks := by
  cases h with
  | cons _ _ hstart _ => exact hstart

/-- A token stops where all that is spelled up to it does. -/
theorem Laid.stop_eq {text : List Char} (h : Laid position text (made ++ closing :: rest)) :
    closing.stop = position + Text.width (Token.spelled (made ++ [closing])) := by
  obtain ⟨found, -, hclosing⟩ := h.exists_spelled
  cases hclosing with
  | cons _ _ hstart _ =>
    rw [Token.stop, hstart]
    simp only [Token.spelled_append, Token.spelled_cons, Token.spelled_nil, Text.width_append,
      Text.width_nil]
    omega

/-- Tokens in a row are the slice of the text from the start of the first one to the end of the
last. -/
theorem Laid.slice?_row (h : Laid 0 text.toList (earlier ++ head :: (middle ++ closing :: rest))) :
    slice? text head.start closing.stop =
      some (String.ofList (head.lexeme ++ Token.spelled (middle ++ [closing]))) := by
  have hstop : closing.stop =
      head.start + Text.width (head.lexeme ++ Token.spelled (middle ++ [closing])) := by
    obtain ⟨found, -, hhead⟩ := h.exists_spelled
    cases hhead with
    | cons _ _ _ hmore => rw [hmore.stop_eq, Token.stop, Text.width_append, Nat.add_assoc]
  have hrow : Laid 0 text.toList (earlier ++ head :: (middle ++ [closing] ++ rest)) := by
    simpa using h
  rw [hstop]
  exact hrow.slice?_run

/-- The characters of a token are the slice of the text from its start to its end. -/
theorem Laid.slice?_token (h : Laid 0 text.toList made) (hmem : token ∈ made) :
    slice? text token.start token.stop = some (String.ofList token.lexeme) := by
  obtain ⟨before, later, rfl⟩ := List.append_of_mem hmem
  have halone : Laid 0 text.toList (before ++ token :: ([] ++ later)) := h
  have hslice := halone.slice?_run
  rwa [Token.spelled_nil, List.append_nil] at hslice

/-- A geometry is the slice of the text from the start of its word to the end of its group. -/
theorem Laid.slice?_outlines {shape : List Token} {outline : String}
    (h : Laid 0 text.toList (earlier ++ (shape ++ rest)))
    (hshape : Grammar.Outlines shape outline) :
    ∃ head middle closing, shape = head :: (middle ++ [closing]) ∧
      slice? text head.start closing.stop = some outline := by
  cases hshape with
  | @intro head opening closing name inner =>
    refine ⟨head, opening :: inner, closing, rfl, ?_⟩
    have hrow : earlier ++ (head :: opening :: (inner ++ [closing]) ++ rest) =
        earlier ++ head :: (opening :: inner ++ closing :: rest) := by simp
    rw [hrow] at h
    exact h.slice?_row

end Slices

namespace Token

/-- A number and an instant are told by their characters. -/
theorem Scans.kind_of_literal {first : Char} {text : List Char} {kind : Kind} {count : Nat}
    (h : Scans first text kind count)
    (hkind : (∃ value, kind = .number value) ∨ ∃ value, kind = .instant value) :
    kind = literalKind (first :: text.take count) := by
  cases h with
  | mark hfirst => obtain ⟨value, rfl⟩ | ⟨value, rfl⟩ := hkind <;> simp [marks] at hfirst
  | comparison | text | quotedName | word => obtain ⟨value, ⟨⟩⟩ | ⟨value, ⟨⟩⟩ := hkind
  | literal => rw [← List.prefix_iff_eq_take.1 (List.takeWhile_prefix _)]

variable {token : Token}

theorem Genuine.readDouble?_of_number (h : token.Genuine) {value : Double}
    (hkind : token.kind = .number value) : Decimal.readDouble? token.lexeme = some value := by
  obtain ⟨first, tail, hlexeme, -, hscans⟩ := h
  have hliteral := hscans.kind_of_literal (.inl ⟨value, hkind⟩)
  rw [List.take_length, ← hlexeme, hkind, literalKind] at hliteral
  split at hliteral
  · split at hliteral <;> cases hliteral
    assumption
  · cases hliteral

theorem Genuine.lexeme_of_instant (h : token.Genuine) {value : String}
    (hkind : token.kind = .instant value) : String.ofList token.lexeme = value := by
  obtain ⟨first, tail, hlexeme, -, hscans⟩ := h
  have hliteral := hscans.kind_of_literal (.inr ⟨value, hkind⟩)
  rw [List.take_length, ← hlexeme, hkind, literalKind] at hliteral
  split at hliteral
  · split at hliteral <;> cases hliteral
    rfl
  · cases hliteral
    rfl

end Token

/-! ## The spans of a text -/

/-- Where the tokens of a text stand in it, and what is copied from there. -/
structure Spans (text : String) (made : List Token) : Prop where
  nonempty : ∀ token ∈ made, token.start < token.stop
  increasing : made.Pairwise fun token later => token.stop ≤ later.start
  bounded : ∀ token ∈ made, Boundary text token.start ∧ Boundary text token.stop
  /-- Each character of the text is in a token, unless it is white space outside all of them. -/
  covering : ∀ before c after, text.toList = before ++ c :: after →
    (∃ token ∈ made,
        token.Covers (Text.width before) (Text.width before + c.utf8Size)) ∨
      Text.isBlank c = true ∧
        ∀ token ∈ made, token.Avoids (Text.width before) (Text.width before + c.utf8Size)
  lexeme : ∀ token ∈ made,
    slice? text token.start token.stop = some (String.ofList token.lexeme)
  word : ∀ token ∈ made, ∀ name, token.kind = .word name →
    slice? text token.start token.stop = some name
  number : ∀ token ∈ made, ∀ value, token.kind = .number value →
    (slice? text token.start token.stop).bind (fun raw => Decimal.readDouble? raw.toList) =
      some value
  /-- Points in time and periods are quoted or copied. -/
  instant : ∀ earlier later value rest, made = earlier ++ later →
    Step.instant later = .ok (value, rest) → ∃ token, later = token :: rest ∧
      (token.kind = .text value ∨ slice? text token.start token.stop = some value)
  /-- Geometries are copied from their first word to their last parenthesis. -/
  geometry : ∀ earlier later value rest, made = earlier ++ later →
    Step.geometry later = .ok (value, rest) → ∃ head middle closing,
      later = head :: (middle ++ closing :: rest) ∧
        slice? text head.start closing.stop = some value

theorem boundary_of_slice? {text : String} {start stop : Nat} {piece : String}
    (h : slice? text start stop = some piece) : Boundary text start ∧ Boundary text stop := by
  rw [slice?] at h
  split at h
  · rename_i hbounds
    exact ⟨hbounds.1, hbounds.2.1⟩
  · cases h

theorem spans_of_tokens {text : String} {made : List Token} (h : tokens 0 text.toList = .ok made) :
    Spans text made := by
  have hlaid : Laid 0 text.toList made := laid_of_tokens h
  have hcut : Cut made := ⟨0, _, h⟩
  have hgenuine : ∀ token ∈ made, token.Genuine := fun token => hcut.genuine_of_mem
  constructor
  case nonempty => exact fun token => hlaid.start_lt_stop
  case increasing => exact hlaid.pairwise
  case bounded => exact fun token hmem => boundary_of_slice? (hlaid.slice?_token hmem)
  case covering =>
    intro before c after htext
    simpa using hlaid.covers_or_avoids htext
  case lexeme => exact fun token => hlaid.slice?_token
  case word =>
    intro token hmem name hkind
    rw [hlaid.slice?_token hmem, (hgenuine token hmem).lexeme_of_word hkind, String.ofList_toList]
  case number =>
    intro token hmem value hkind
    rw [hlaid.slice?_token hmem, Option.bind_some, String.toList_ofList,
      (hgenuine token hmem).readDouble?_of_number hkind]
  case instant =>
    rintro earlier later value rest rfl hread
    obtain ⟨token, rfl, htells⟩ := Grammar.tells_of_instant hread
    have hmem : token ∈ earlier ++ token :: rest := by simp
    have hslice := hlaid.slice?_token hmem
    refine ⟨token, rfl, ?_⟩
    cases htells with
    | text hkind => exact .inl hkind
    | number => exact .inr hslice
    | instant hkind =>
      rw [(hgenuine token hmem).lexeme_of_instant hkind] at hslice
      exact .inr hslice
  case geometry =>
    rintro earlier later value rest rfl hread
    obtain ⟨shape, rfl, houtlines⟩ := Grammar.outlines_of_geometry hread
    obtain ⟨head, middle, closing, rfl, hslice⟩ := hlaid.slice?_outlines houtlines
    exact ⟨head, middle, closing, by simp, hslice⟩

end Cql

end CatalogSearch
