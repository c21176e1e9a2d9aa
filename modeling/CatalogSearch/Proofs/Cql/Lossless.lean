import CatalogSearch.Proofs.Cql.Depth
import CatalogSearch.Proofs.Cql.Excerpts

/-!
# Writing what was read

A filter that was read has no empty operands and no groups around one operand, and its leaves
can be written.  So its text reads as the same filter, as long as the text is not nested too
deep: a prefix `NOT` is read within one level of nesting, but written with two.
-/

namespace CatalogSearch

/-- A filter that is not empty and that query text can say just as it is. -/
structure Filter.Faithful (filter : Filter) : Prop where
  nonempty : filter.isEmpty = false
  normal : filter.normalForm = filter
  expressible : ∀ leaf ∈ filter.leaves, leaf.Expressible

namespace Filter

variable {filter : Filter} {operands : List Filter}

theorem Faithful.of_leaf (hempty : filter.isEmpty = false) (hnormal : filter.normalForm = filter)
    (hleaves : filter.leaves = [filter]) (h : filter.Expressible) : filter.Faithful := by
  refine ⟨hempty, hnormal, fun leaf hleaf => ?_⟩
  rw [hleaves, List.mem_singleton] at hleaf
  rwa [hleaf]

theorem Faithful.comparedText (property : String) (comparison : Comparison) (text : String) :
    (compare property comparison (.text text)).Faithful :=
  .of_leaf rfl rfl rfl ⟨trivial, fun _ => ⟨text, rfl⟩⟩

theorem Faithful.isNull (property : String) : (Filter.isNull property).Faithful :=
  .of_leaf rfl rfl rfl trivial

theorem Faithful.not (h : filter.Faithful) : (Filter.not filter).Faithful := by
  refine ⟨h.nonempty, ?_, h.expressible⟩
  rw [normalForm, if_neg (by simp [h.nonempty]), h.normal]

theorem normalForms_of_faithful (h : ∀ operand ∈ operands, operand.Faithful) :
    normalForms operands = operands := by
  induction operands with
  | nil => rfl
  | cons operand operands ih =>
    obtain ⟨hfirst, hmore⟩ := List.forall_mem_cons.1 h
    rw [normalForms, if_neg (by simp [hfirst.nonempty]), hfirst.normal, ih hmore]

theorem expressible_of_faithful (h : ∀ operand ∈ operands, operand.Faithful) :
    ∀ leaf ∈ allLeaves operands, leaf.Expressible := by
  induction operands with
  | nil => nofun
  | cons operand operands ih =>
    obtain ⟨hfirst, hmore⟩ := List.forall_mem_cons.1 h
    intro leaf hleaf
    obtain hleaf | hleaf := List.mem_append.1 hleaf
    · exact hfirst.expressible leaf hleaf
    · exact ih hmore leaf hleaf

/-- A group of two or more operands. -/
theorem Faithful.group {join : List Filter → Filter}
    (hempty : ∀ operands, (join operands).isEmpty = allEmpty operands)
    (hnormal : ∀ operands, (join operands).normalForm = joined join (normalForms operands))
    (hleaves : ∀ operands, (join operands).leaves = allLeaves operands) {first second : Filter}
    (h : ∀ operand ∈ first :: second :: operands, operand.Faithful) :
    (join (first :: second :: operands)).Faithful := by
  constructor
  · rw [hempty, allEmpty, (h first List.mem_cons_self).nonempty, Bool.false_and]
  · rw [hnormal, normalForms_of_faithful h]
    rfl
  · rw [hleaves]
    exact expressible_of_faithful h

end Filter

namespace Cql

open CatalogSearch.Filter (Faithful)

namespace Grammar

variable {tokens : List Token} {filter : Filter}

theorem finite_of_states {token : Token} {value : Literal} (hgenuine : token.Genuine)
    (h : token.States value) : value.IsFinite := by
  cases value with
  | number value => exact hgenuine.isFinite h
  | text | bool => trivial

theorem faithful_of_predicate {property : String} (hcut : Cut tokens)
    (h : Predicate property tokens filter) : filter.Faithful := by
  have hgenuine : ∀ token ∈ tokens, token.Genuine := fun token hmem => hcut.genuine_of_mem hmem
  cases h with
  | comparison hoperator hvalue =>
    refine .of_leaf rfl rfl rfl ⟨finite_of_states (hgenuine _ (by simp)) hvalue, fun h => ?_⟩
    exact absurd h ((hgenuine _ (by simp)).not_wildcards hoperator)
  | pattern => exact .comparedText property _ _
  | notPattern => exact (Faithful.comparedText property _ _).not
  | between hoperator hlower hconjunction hupper =>
    exact .of_leaf rfl rfl rfl ⟨finite_of_states (hgenuine _ (by simp)) hlower,
      finite_of_states (hgenuine _ (by simp)) hupper⟩
  | isNull => exact .isNull property
  | isNotNull => exact (Faithful.isNull property).not
  | before | after => exact .of_leaf rfl rfl rfl trivial
  | during hoperator hstart => exact .of_leaf rfl rfl rfl hstart

theorem faithful_of_primary (hcut : Cut tokens) (h : Primary tokens filter) : filter.Faithful := by
  cases h with
  | predicate hname hpredicate => exact faithful_of_predicate hcut.tail hpredicate
  | intersects _ _ _ _ hshape =>
    have hgeometry := isGeometry_of_cut hcut.tail.tail.tail.tail.left hshape
    exact .of_leaf rfl rfl rfl hgeometry
  | within _ _ _ _ hshape _ hdistance _ hunits =>
    have hrest := hcut.tail.tail.tail.tail
    have hgeometry := isGeometry_of_cut hrest.left hshape
    have hfinite := hrest.right.tail.genuine.isFinite hdistance
    have hunit := isUnit_of_cut (@Cut.left [_] _ hrest.right.tail.tail.tail) hunits
    exact .of_leaf rfl rfl rfl ⟨hgeometry, hfinite, hunit⟩

theorem hereditary_cut : Hereditary Cut := ⟨Cut.left, Cut.right⟩

theorem inherited_faithful : Inherited Faithful where
  not := Faithful.not
  and := Faithful.group (fun _ => rfl) (fun _ => rfl) fun _ => rfl
  or := Faithful.group (fun _ => rfl) (fun _ => rfl) fun _ => rfl

/-- What is derived from tokens that were cut is faithful. -/
theorem faithful_of_expression {levels : Nat} (hcut : Cut tokens)
    (h : Expression (Operand levels) tokens filter) : filter.Faithful := by
  have hprimary : Passes Cut Faithful Primary := fun _ _ => faithful_of_primary
  have hoperand := hprimary.operand hereditary_cut inherited_faithful levels
  exact hoperand.expression hereditary_cut inherited_faithful _ _ hcut h

end Grammar

/-- The tokens of a text that is read denote the filter, unless there are none. -/
theorem exists_tokens_of_parse {text : String} {filter : Filter} (h : parse text = .ok filter) :
    ∃ made, tokens 0 text.toList = .ok made ∧ (made = [] ∧ filter = .and [] ∨
      Grammar.Expression (Grammar.Operand nestingLimit) made filter) := by
  unfold parse at h
  split at h <;> cases h
  rename_i hread
  obtain ⟨made, hmade, hquery⟩ := bind_eq_ok hread
  exact ⟨made, hmade, Grammar.derivation_of_query hquery⟩

/-- What was read is an empty group, or it is faithful. -/
theorem faithful_of_parse {text : String} {filter : Filter} (h : parse text = .ok filter) :
    filter = .and [] ∨ filter.Faithful := by
  obtain ⟨made, hmade, ⟨-, rfl⟩ | hderived⟩ := exists_tokens_of_parse h
  · exact .inl rfl
  · exact .inr (Grammar.faithful_of_expression ⟨_, _, hmade⟩ hderived)

/-- The text of a filter that was read is never read as another filter.  It is read as the same
one just if it is not nested too deep. -/
theorem rereading {text : String} {filter : Filter} (h : parse text = .ok filter) :
    (parse (toText filter) = .ok filter ↔ filter.nesting ≤ nestingLimit) ∧
      ∀ other, parse (toText filter) = .ok other →
        other = filter ∧ toText other = toText filter := by
  have hread : ∀ other, parse (toText filter) = .ok other ↔
      filter.nesting ≤ nestingLimit ∧ other = filter := by
    obtain rfl | hfaithful := faithful_of_parse h
    · exact fun other => parse_toText_eq_ok_iff nofun
    · intro other
      have hiff : parse (toText filter) = .ok other ↔ _ :=
        parse_toText_eq_ok_iff hfaithful.expressible
      rwa [hfaithful.normal] at hiff
  constructor
  · rw [hread, and_iff_left rfl]
  · intro other hother
    obtain rfl := ((hread other).1 hother).2
    exact ⟨rfl, rfl⟩

theorem rereading_places :
    let text := "NOT title LIKE 'it''s' OR (here IS NOT NULL AND INTERSECTS(\"and\", POINT( 1 2 )))"
    let filter : Filter := .or [.not (.compare "title" .like (.text "it's")),
      .and [.not (.isNull "here"), .intersects "and" "POINT( 1 2 )"]]
    parse text = .ok filter ∧ filter.nesting ≤ nestingLimit ∧
      parse (toText filter) = .ok filter := by
  intro text filter
  have hparse : parse text = .ok filter := by decide +kernel
  have hnesting : filter.nesting ≤ nestingLimit := by decide
  exact ⟨hparse, hnesting, (rereading hparse).1.2 hnesting⟩

/-! ## Chains of negations -/

/-- A predicate behind a chain of negations. -/
def negated : Nat → Filter
  | 0 => .isNull "title"
  | count + 1 => .not (negated count)

/-- The shortest text of a chain of negations, which has no parentheses. -/
def negatedText : Nat → List Char
  | 0 => "title IS NULL".toList
  | count + 1 => "NOT".toList ++ ' ' :: negatedText count

theorem faithful_negated (count : Nat) : (negated count).Faithful := by
  induction count with
  | zero => exact .isNull "title"
  | succ count ih => exact ih.not

theorem nesting_negated (count : Nat) : (negated count).nesting = 2 * count := by
  induction count with
  | zero => rfl
  | succ count ih => rw [negated, Filter.nesting, ih, Nat.mul_succ]

theorem yields_negatedText (count : Nat) :
    Yields (negatedText count) fun made => Grammar.Operand count made (negated count) := by
  induction count with
  | zero =>
    apply ((reads_isNull "title").yields 0 (Nat.le_refl _)).mono
    exact fun made hmade => hmade
  | succ count ih =>
    have hnot : Yields "NOT".toList (One fun token => token.isKeyword "NOT" = true) :=
      yields_keyword_self (by decide)
    apply (hnot.space ih).mono
    rintro made ⟨_, rest, rfl, ⟨negation, rfl, hnegation⟩, hoperand⟩
    exact (Grammar.operand_negation_iff hnegation).2 ⟨count, rfl, hoperand⟩

theorem parse_negatedText {count : Nat} (h : count ≤ nestingLimit) :
    parse (String.ofList (negatedText count)) = .ok (negated count) := by
  obtain ⟨made, hcuts, hmade⟩ := yields_negatedText count apart_nil 0 [] blank_nil
  have hderived : Grammar.Expression (Grammar.Operand nestingLimit) made (negated count) :=
    Grammar.Chain.single (Grammar.Chain.single (hmade.mono h))
  have htokens : tokens 0 (negatedText count) = .ok made := hcuts.whole
  rw [parse, String.toList_ofList, htokens, Except.bind, Grammar.query_of_derivation hderived]

/-- Sixty-five negations are read, but what is written for them is refused: with parentheses
they are nested twice as deep. -/
theorem negations_are_lost :
    parse (String.ofList (negatedText 65)) = .ok (negated 65) ∧
      ∀ filter, parse (toText (negated 65)) ≠ .ok filter := by
  refine ⟨parse_negatedText (by decide), fun filter h => ?_⟩
  have hdeep := ((parse_toText_eq_ok_iff (faithful_negated 65).expressible).1 h).1
  rw [(faithful_negated 65).normal, nesting_negated] at hdeep
  exact absurd hdeep (by decide)

end Cql

end CatalogSearch
