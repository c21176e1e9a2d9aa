import CatalogSearch.Proofs.Json.Numerals
import CatalogSearch.Proofs.Json.Quoting
import CatalogSearch.Proofs.Tables

/-!
# Values in structured text

What is written of a value is read as that value, provided that its numbers are read
as they are written and that the reader may go as deep as the value nests.  Where the
value nests deeper, nothing is read.
-/

namespace CatalogSearch.Json

/-! ## Depth -/

mutual

/-- How deep arrays and objects nest in a value. -/
def depth : Json → Nat
  | array items => itemsDepth items + 1
  | object fields => fieldsDepth fields + 1
  | _ => 0

def itemsDepth : List Json → Nat
  | [] => 0
  | item :: items => max (depth item) (itemsDepth items)

def fieldsDepth : List (String × Json) → Nat
  | [] => 0
  | (_, value) :: fields => max (depth value) (fieldsDepth fields)

end

theorem itemsDepth_le_iff {items : List Json} {levels : Nat} :
    itemsDepth items ≤ levels ↔ ∀ item ∈ items, item.depth ≤ levels := by
  induction items with
  | nil => simp [itemsDepth]
  | cons item items ih => rw [itemsDepth, Nat.max_le, ih, List.forall_mem_cons]

theorem fieldsDepth_le_iff {fields : List (String × Json)} {levels : Nat} :
    fieldsDepth fields ≤ levels ↔ ∀ field ∈ fields, field.2.depth ≤ levels := by
  induction fields with
  | nil => simp [fieldsDepth]
  | cons field fields ih => rw [fieldsDepth, Nat.max_le, ih, List.forall_mem_cons]

/-! ## Values that survive -/

/-- A value whose numbers read as they are written and whose fields are in order. -/
inductive Canonical : Json → Prop
  | null : Canonical null
  | bool (value : Bool) : Canonical (bool value)
  | number {value : Number} (h : readNumber? value.text = some (value, [])) :
      Canonical (number value)
  | string (value : String) : Canonical (string value)
  | array {items : List Json} (h : ∀ item ∈ items, Canonical item) : Canonical (array items)
  | object {fields : List (String × Json)} (hordered : Table.ofList fields = fields)
      (h : ∀ field ∈ fields, Canonical field.2) : Canonical (object fields)

theorem canonical_ofFields {fields : List (String × Json)}
    (h : ∀ field ∈ fields, field.2.Canonical) : (ofFields fields).Canonical :=
  .object (Table.ofList_ofList fields) fun field hfield => h field (Table.mem_of_mem_ofList hfield)

theorem depth_ofFields_le {fields : List (String × Json)} {levels : Nat}
    (h : ∀ field ∈ fields, field.2.depth ≤ levels) : (ofFields fields).depth ≤ levels + 1 :=
  Nat.succ_le_succ <| fieldsDepth_le_iff.2 fun field hfield =>
    h field (Table.mem_of_mem_ofList hfield)

/-- Text in front of which a value is over: nothing, or a mark that stands behind values. -/
def Closes (rest : List Char) : Prop := ∀ c ∈ rest.head?, c = ',' ∨ c = ']' ∨ c = '}'

theorem Closes.endsNumeral {rest : List Char} (h : Closes rest) : EndsNumeral rest := by
  intro c hc
  obtain rfl | rfl | rfl := h c hc <;> decide

/-! ## Sequences -/

section Sequences

variable {α : Type} {close : Char} {item : Reader α} {write : α → List Char → List Char}
  {fits : α → Prop} [DecidablePred fits]

/-- Items with commas between them; the first one has none before it. -/
def writeSequence (write : α → List Char → List Char) : Bool → List α → List Char → List Char
  | _, [], rest => rest
  | true, value :: values, rest => write value (writeSequence write false values rest)
  | false, value :: values, rest => ',' :: write value (writeSequence write false values rest)

theorem writeItems_eq (first : Bool) (items : List Json) (rest : List Char) :
    writeItems first items rest = writeSequence Json.write first items rest := by
  induction items generalizing first with
  | nil => simp [writeItems, writeSequence]
  | cons item items ih => cases first <;> simp [writeItems, writeSequence, ih]

/-- A key, a colon and a value. -/
def writeEntry (field : String × Json) (rest : List Char) : List Char :=
  writeString field.1 (':' :: Json.write field.2 rest)

theorem writeFields_eq (first : Bool) (fields : List (String × Json)) (rest : List Char) :
    writeFields first fields rest = writeSequence writeEntry first fields rest := by
  induction fields generalizing first with
  | nil => simp [writeFields, writeSequence]
  | cons field fields ih => cases first <;> simp [writeFields, writeSequence, writeEntry, ih]

/-- What is written of a value starts with a character that can neither be skipped nor
end a sequence, and is read as the value if that fits. -/
structure Legible (close : Char) (item : Reader α) (write : α → List Char → List Char)
    (fits : α → Prop) [DecidablePred fits] (value : α) : Prop where
  start : ∀ rest, ∃ c more, write value rest = c :: more ∧ isSpace c = false ∧ c ≠ close
  suffix : ∀ rest, rest <:+ write value rest
  read : ∀ rest, Closes rest → item (write value rest) =
    if fits value then some (value, rest) else none

theorem closes_writeSequence (write : α → List Char → List Char) {rest : List Char}
    (hrest : Closes rest) (values : List α) : Closes (writeSequence write false values rest) := by
  cases values with
  | nil => exact hrest
  | cons value values =>
    intro c hc
    cases hc
    exact .inl rfl

theorem length_lt_writeSequence {values : List α}
    (h : ∀ value ∈ values, Legible close item write fits value) (c : Char) (rest : List Char) :
    values.length < (writeSequence write false values (c :: rest)).length := by
  induction values with
  | nil => simp [writeSequence]
  | cons value values ih =>
    have hsuffix := (h value List.mem_cons_self).suffix
      (writeSequence write false values (c :: rest))
    have hmore := ih fun value hvalue => h value (List.mem_cons_of_mem _ hvalue)
    have hlength := hsuffix.length_le
    simp only [writeSequence, List.length_cons]
    omega

theorem suffix_writeSequence {values : List α}
    (h : ∀ value ∈ values, ∀ rest, rest <:+ write value rest) (first : Bool)
    (rest : List Char) : rest <:+ writeSequence write first values rest := by
  induction values generalizing first with
  | nil => cases first <;> exact List.suffix_rfl
  | cons value values ih =>
    have hmore := ih (fun value hvalue => h value (List.mem_cons_of_mem _ hvalue)) false
    have hvalue := hmore.trans (h value List.mem_cons_self _)
    cases first with
    | true => exact hvalue
    | false => exact hvalue.trans (List.suffix_cons _ _)

/-- A value and what is read behind it. -/
theorem bind_behind (next : Reader (List α)) {value : α} {values : List α}
    {text rest : List Char} (h : next text =
      if ∀ value ∈ values, fits value then some (values, rest) else none) :
    ((if fits value then some (value, text) else none).bind fun first =>
        (next first.2).bind fun more => some (first.1 :: more.1, more.2)) =
      if ∀ other ∈ value :: values, fits other then some (value :: values, rest) else none := by
  by_cases hfits : fits value
  · rw [if_pos hfits, Option.bind_some, h]
    by_cases hall : ∀ value ∈ values, fits value
    · rw [if_pos hall, if_pos (List.forall_mem_cons.2 ⟨hfits, hall⟩)]
      rfl
    · rw [if_neg hall, if_neg fun h => hall (List.forall_mem_cons.1 h).2]
      rfl
  · rw [if_neg hfits, if_neg fun h => hfits (List.forall_mem_cons.1 h).1]
    rfl

/-- Items behind the first are read if they all fit. -/
theorem readMore_writeSequence (hclose : close = ']' ∨ close = '}') {values : List α}
    (h : ∀ value ∈ values, Legible close item write fits value) {steps : Nat}
    (hsteps : values.length < steps) (rest : List Char) :
    readMore close item steps (writeSequence write false values (close :: rest)) =
      if ∀ value ∈ values, fits value then some (values, rest) else none := by
  have hskip : skipSpace (close :: rest) = close :: rest := by
    obtain rfl | rfl := hclose <;> rfl
  have hcomma : ',' ≠ close := by
    obtain rfl | rfl := hclose <;> decide
  have hcloses : Closes (close :: rest) := by
    rintro c ⟨⟩
    exact .inr hclose
  induction values generalizing steps with
  | nil =>
    obtain ⟨steps, rfl⟩ := Nat.exists_eq_add_of_lt hsteps
    simp [writeSequence, readMore, hskip]
  | cons value values ih =>
    obtain ⟨steps, rfl⟩ := Nat.exists_eq_add_one_of_ne_zero (Nat.ne_zero_of_lt hsteps)
    obtain ⟨hvalue, hvalues⟩ := List.forall_mem_cons.1 h
    have hmore := ih hvalues (Nat.lt_of_succ_lt_succ hsteps)
    have hread := hvalue.read _ (closes_writeSequence write hcloses values)
    have hfront : ∀ text, skipSpace (',' :: text) = ',' :: text := fun _ => rfl
    rw [writeSequence, readMore, hfront]
    dsimp only
    rw [if_neg hcomma, if_pos rfl, hread]
    exact bind_behind _ hmore

/-- A sequence is read if all that it holds fits. -/
theorem readSequence_writeSequence (hclose : close = ']' ∨ close = '}') {values : List α}
    (h : ∀ value ∈ values, Legible close item write fits value) (rest : List Char) :
    readSequence close item (writeSequence write true values (close :: rest)) =
      if ∀ value ∈ values, fits value then some (values, rest) else none := by
  cases values with
  | nil =>
    obtain rfl | rfl := hclose <;> simp [writeSequence, readSequence, skipSpace, isSpace]
  | cons value values =>
    obtain ⟨hvalue, hvalues⟩ := List.forall_mem_cons.1 h
    have hcloses : Closes (close :: rest) := by
      rintro c ⟨⟩
      exact .inr hclose
    have hread := hvalue.read _ (closes_writeSequence write hcloses values)
    have hmore := readMore_writeSequence hclose hvalues
      (Nat.lt_succ_of_lt (length_lt_writeSequence hvalues close rest)) rest
    obtain ⟨c, more, hstart, hspace, hne⟩ :=
      hvalue.start (writeSequence write false values (close :: rest))
    have hskip : skipSpace (c :: more) = c :: more := by
      rw [skipSpace, List.dropWhile_cons_of_neg (by simp [hspace])]
    rw [writeSequence, readSequence, hstart, hskip]
    dsimp only
    rw [if_neg hne, ← hstart, hread]
    exact bind_behind (fun text => readMore close item (text.length + 1) text) hmore

end Sequences

/-! ## Values -/

theorem ne_of_numeral {c other : Char} (h : c = '-' ∨ c.isDigit = true)
    (hminus : other ≠ '-') (hdigit : other.isDigit = false) : c ≠ other := by
  rintro rfl
  obtain rfl | h := h
  · exact hminus rfl
  · rw [hdigit] at h
    cases h

theorem isSpace_of_numeral {c : Char} (h : c = '-' ∨ c.isDigit = true) : isSpace c = false := by
  simp only [isSpace, Bool.or_eq_false_iff, beq_eq_false_iff_ne]
  exact ⟨⟨⟨ne_of_numeral h (by decide) rfl, ne_of_numeral h (by decide) rfl⟩,
    ne_of_numeral h (by decide) rfl⟩, ne_of_numeral h (by decide) rfl⟩

theorem skipSpace_cons {c : Char} (h : isSpace c = false) (text : List Char) :
    skipSpace (c :: text) = c :: text := by
  rw [skipSpace, List.dropWhile_cons_of_neg (by simp [h])]

/-- What is written of a value starts with a character that is no space and closes nothing. -/
theorem Canonical.start {value : Json} (h : value.Canonical) (rest : List Char) :
    ∃ c more, write value rest = c :: more ∧ isSpace c = false ∧ c ≠ ']' ∧ c ≠ '}' := by
  cases h with
  | null => exact ⟨_, _, rfl, by decide⟩
  | bool value => cases value <;> exact ⟨_, _, rfl, by decide⟩
  | number h =>
    obtain ⟨c, more, htext, hc⟩ := exists_cons_of_readNumber? h
    exact ⟨c, more ++ rest, by rw [write, htext]; rfl, isSpace_of_numeral hc,
      ne_of_numeral hc (by decide) rfl, ne_of_numeral hc (by decide) rfl⟩
  | string value => exact ⟨_, _, rfl, by decide⟩
  | array h => exact ⟨_, _, rfl, by decide⟩
  | object hordered h => exact ⟨_, _, rfl, by decide⟩

theorem suffix_writeString (value : String) (rest : List Char) :
    rest <:+ writeString value rest := by
  have hescaped : ∀ text : List Char, rest <:+ writeEscaped text ('"' :: rest) := by
    intro text
    induction text with
    | nil => exact List.suffix_cons _ _
    | cons c text ih => exact ih.trans (List.suffix_append _ _)
  exact (hescaped value.toList).trans (List.suffix_cons _ _)

theorem suffix_writeEntry {field : String × Json}
    (h : ∀ rest, rest <:+ write field.2 rest) (rest : List Char) :
    rest <:+ writeEntry field rest :=
  ((h rest).trans (List.suffix_cons _ _)).trans (suffix_writeString _ _)

/-- What is written of a value stands in front of what follows. -/
theorem Canonical.suffix {value : Json} (h : value.Canonical) (rest : List Char) :
    rest <:+ write value rest := by
  induction h generalizing rest with
  | null => exact List.suffix_append ['n', 'u', 'l', 'l'] rest
  | bool value =>
    cases value with
    | true => exact List.suffix_append ['t', 'r', 'u', 'e'] rest
    | false => exact List.suffix_append ['f', 'a', 'l', 's', 'e'] rest
  | number h => exact List.suffix_append _ _
  | string value => exact suffix_writeString value rest
  | array h ih =>
    rw [write, writeItems_eq]
    have hitems := suffix_writeSequence ih true (']' :: rest)
    exact ((List.suffix_cons _ _).trans hitems).trans (List.suffix_cons _ _)
  | object hordered h ih =>
    rw [write, writeFields_eq]
    have hfields := suffix_writeSequence (fun field hfield => suffix_writeEntry (ih field hfield))
      true ('}' :: rest)
    exact ((List.suffix_cons _ _).trans hfields).trans (List.suffix_cons _ _)

theorem readValue_numeral {levels : Nat} {text left : List Char} {value : Number}
    (h : readNumber? text = some (value, left)) :
    readValue levels text = some (number value, left) := by
  obtain ⟨c, text, rfl, hc⟩ := exists_cons_of_readNumber? h
  rw [readValue, skipSpace_cons (isSpace_of_numeral hc)]
  split <;> rename_i heq <;> cases heq
  case h_8 => rw [h]; rfl
  all_goals exact absurd rfl (ne_of_numeral hc (by decide) rfl)

theorem readEntry_quote (value : Reader Json) (text : List Char) :
    readEntry value ('"' :: text) = (readCharacters text).bind fun key =>
      match skipSpace key.2 with
      | ':' :: rest => (value rest).bind fun value =>
        some ((String.ofList key.1, value.1), value.2)
      | _ => none := rfl

theorem readEntry_writeString (value : Reader Json) (key : String) (rest : List Char) :
    readEntry value (writeString key (':' :: rest)) =
      (value rest).bind fun value => some ((key, value.1), value.2) := by
  rw [writeString, readEntry_quote, readCharacters_writeEscaped]
  change (value rest).bind (fun value => some ((String.ofList key.toList, value.1), value.2)) = _
  rw [String.ofList_toList]

theorem legible {value : Json} (h : value.Canonical) {levels : Nat}
    (hread : ∀ rest, Closes rest → readValue levels (write value rest) =
      if value.depth ≤ levels then some (value, rest) else none) :
    Legible ']' (readValue levels) write (fun value => value.depth ≤ levels) value where
  start rest := by
    obtain ⟨c, more, hstart, hspace, hsquare, -⟩ := h.start rest
    exact ⟨c, more, hstart, hspace, hsquare⟩
  suffix := h.suffix
  read := hread

/-- A field whose value is legible is legible, as its key starts with a quote. -/
theorem legible_entry {field : String × Json} (h : field.2.Canonical) {levels : Nat}
    (hread : ∀ rest, Closes rest → readValue levels (write field.2 rest) =
      if field.2.depth ≤ levels then some (field.2, rest) else none) :
    Legible '}' (readEntry (readValue levels)) writeEntry (fun field => field.2.depth ≤ levels)
      field where
  start rest := ⟨_, _, rfl, by decide⟩
  suffix := suffix_writeEntry h.suffix
  read rest hrest := by
    rw [writeEntry, readEntry_writeString, hread rest hrest]
    split <;> rfl

theorem readValue_quote (levels : Nat) (rest : List Char) :
    readValue levels ('"' :: rest) =
      (readCharacters rest).map fun (text, rest) => (string (String.ofList text), rest) := by
  rw [readValue]
  rfl

theorem readValue_succ_square (levels : Nat) (rest : List Char) :
    readValue (levels + 1) ('[' :: rest) =
      (readSequence ']' (readValue levels) rest).map fun (items, rest) => (array items, rest) := rfl

theorem readValue_succ_brace (levels : Nat) (rest : List Char) :
    readValue (levels + 1) ('{' :: rest) =
      (readSequence '}' (readEntry (readValue levels)) rest).map fun (fields, rest) =>
        (ofFields fields, rest) := rfl

/-- A value is read back where it does not nest too deep, and is refused elsewhere. -/
theorem Canonical.readValue_write {value : Json} (h : value.Canonical) (levels : Nat)
    {rest : List Char} (hrest : Closes rest) :
    readValue levels (write value rest) =
      if value.depth ≤ levels then some (value, rest) else none := by
  induction h generalizing levels rest with
  | null =>
    rw [readValue]
    rfl
  | bool value =>
    rw [readValue]
    cases value <;> rfl
  | number h =>
    rw [write, readValue_numeral (hrest.endsNumeral.readNumber? h)]
    rfl
  | string value =>
    rw [write, writeString, readValue_quote, readCharacters_writeEscaped, Option.map_some]
    dsimp only
    rw [String.ofList_toList]
    rfl
  | array h ih =>
    rw [write, writeItems_eq]
    cases levels with
    | zero => rfl
    | succ levels =>
      have hitems := readSequence_writeSequence (.inl rfl) (fun item hitem =>
        legible (h item hitem) fun rest hrest => ih item hitem levels hrest) rest
      rw [readValue_succ_square, hitems]
      simp only [← itemsDepth_le_iff, depth, Nat.add_le_add_iff_right]
      split <;> rfl
  | object hordered h ih =>
    rw [write, writeFields_eq]
    cases levels with
    | zero => rfl
    | succ levels =>
      have hfields := readSequence_writeSequence (.inr rfl) (fun field hfield =>
        legible_entry (h field hfield) fun rest hrest => ih field hfield levels hrest) rest
      rw [readValue_succ_brace, hfields]
      simp only [← fieldsDepth_le_iff, depth, Nat.add_le_add_iff_right]
      split
      · rw [Option.map_some, ofFields, hordered]
      · rfl

/-- The text of a value is read back where the value does not nest too deep, and is refused
elsewhere. -/
theorem Canonical.read?_compress {value : Json} (h : value.Canonical) (levels : Nat) :
    read? levels value.compress = if value.depth ≤ levels then some value else none := by
  have hend : Closes [] := by
    intro c hc
    cases hc
  rw [read?, compress, String.toList_ofList, h.readValue_write levels hend]
  split <;> rfl

end CatalogSearch.Json
