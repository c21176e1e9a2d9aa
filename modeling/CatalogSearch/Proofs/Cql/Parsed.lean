import CatalogSearch.Proofs.Cql.Lossless
import CatalogSearch.Proofs.Cql.Spans
import CatalogSearch.Proofs.Cql.Stored

/-!
# What query text can say

A filter that was read from text is empty just if the text has no tokens.  Any other one has
two operands at least in each of its groups and sound values in its predicates.  A geometry is
copied from the text, and read by itself it is nothing but one geometry.
-/

namespace CatalogSearch

namespace Filter

/-- One filter is another one or an operand somewhere within it. -/
inductive HasPart : Filter → Filter → Prop
  | self (filter : Filter) : HasPart filter filter
  | operand {filter operand part : Filter} (hoperand : operand ∈ filter.operands)
      (hpart : HasPart operand part) : HasPart filter part

/-- A filter has a property wherever it is looked at. -/
def Throughout (property : Filter → Prop) (filter : Filter) : Prop :=
  ∀ part, filter.HasPart part → property part

section Throughout

variable {property : Filter → Prop} {filter part : Filter}

theorem Throughout.of_operands (h : property filter)
    (hoperands : ∀ operand ∈ filter.operands, operand.Throughout property) :
    filter.Throughout property := by
  intro part hpart
  cases hpart with
  | self => exact h
  | operand hoperand hpart => exact hoperands _ hoperand part hpart

theorem Throughout.of_leaf (h : property filter) (hleaf : filter.operands = []) :
    filter.Throughout property := by
  refine .of_operands h ?_
  rw [hleaf]
  nofun

theorem leaves_subset_of_hasPart (h : filter.HasPart part) : part.leaves ⊆ filter.leaves := by
  induction h with
  | self => exact List.Subset.refl _
  | operand hoperand _ ih => exact fun leaf hleaf => mem_leaves_of_mem_operands hoperand (ih hleaf)

/-- A part that is not made of others is one of the leaves. -/
theorem mem_leaves_of_hasPart (h : filter.HasPart part) (hleaf : part.leaves = [part]) :
    part ∈ filter.leaves := by
  apply leaves_subset_of_hasPart h
  rw [hleaf]
  exact List.mem_singleton_self part

end Throughout

end Filter

namespace Cql

open Text (slice?)

/-! ## Geometries -/

/-- The text is cut into a word and one group in parentheses, from its first byte to its last. -/
def Outlined (geometry : String) : Prop :=
  ∃ head opening inner closing name,
    tokens 0 geometry.toList = .ok (head :: opening :: (inner ++ [closing])) ∧
      head.kind = .word name ∧ opening.kind = .openParenthesis ∧ Grammar.Balanced inner ∧
      closing.kind = .closeParenthesis ∧ head.start = 0 ∧ closing.stop = geometry.utf8ByteSize

/-- The text stands in another one from one byte to another. -/
def CopiedFrom (text piece : String) : Prop := ∃ start stop, slice? text start stop = some piece

theorem IsGeometry.outlined {geometry : String} (h : IsGeometry geometry) : Outlined geometry := by
  obtain ⟨htrim, shape, outline, htokens, houtlines⟩ := h
  have hspelled := spelled_of_trim htrim htokens
  have hlaid := laid_of_tokens htokens
  cases houtlines with
  | @intro head opening closing name inner hhead hopening hinner hclosing =>
    have hstart : head.start = 0 := by
      rw [hlaid.start_eq, blanks_of_trim htrim htokens, Text.width_nil]
    have hstop : closing.stop = geometry.utf8ByteSize := by
      have hshape : head :: opening :: (inner ++ [closing]) =
          (head :: opening :: inner) ++ closing :: [] := rfl
      rw [hshape] at hlaid hspelled
      rw [hlaid.stop_eq, hspelled, Nat.zero_add, Text.width_toList]
    exact ⟨head, opening, inner, closing, name, htokens, hhead, hopening, hinner, hclosing, hstart,
      hstop⟩

end Cql

/-! ## Parts of filters -/

namespace Filter

/-- A group has more than one operand, and a geometry stands in a text. -/
def Grounded (text : String) : Filter → Prop
  | and operands | or operands => 2 ≤ operands.length
  | intersects _ geometry | within _ geometry _ _ => Cql.CopiedFrom text geometry
  | _ => True

/-- What a filter that was read from a text says at its top, other than the names of
properties. -/
def Sound (text : String) : Filter → Prop
  | and operands | or operands => 2 ≤ operands.length
  | compare _ comparison value =>
    value.IsFinite ∧ (comparison = .like ∨ comparison = .ilike → ∃ text, value = .text text)
  | between _ lower upper => lower.IsFinite ∧ upper.IsFinite
  | during _ start _ => '/' ∉ start.toList
  | intersects _ geometry => Cql.CopiedFrom text geometry ∧ Cql.Outlined geometry
  | within _ geometry distance units =>
    Cql.CopiedFrom text geometry ∧ Cql.Outlined geometry ∧ distance.isFinite = true ∧
      Cql.IsUnit units
  | not _ | isNull _ | before _ _ | after _ _ => True

variable {text : String} {filter part : Filter}

theorem sound_of_grounded (hgrounded : part.Grounded text)
    (hexpressible : part.leaves = [part] → part.Expressible) : part.Sound text := by
  cases part with
  | and | or => exact hgrounded
  | not | isNull | before | after => trivial
  | compare | between | during => exact hexpressible rfl
  | intersects => exact ⟨hgrounded, (hexpressible rfl).outlined⟩
  | within =>
    obtain ⟨hgeometry, hdistance, hunits⟩ := hexpressible rfl
    exact ⟨hgrounded, hgeometry.outlined, hdistance, hunits⟩

theorem not_isEmptyGroup_of_sound (h : filter.Sound text) : ¬filter.IsEmptyGroup := by
  rintro (rfl | rfl) <;> exact absurd h (by simp [Sound])

end Filter

namespace Cql

open CatalogSearch.Filter (Throughout Grounded Sound HasPart)

/-! ## Filters that were read -/

variable {text : String} {filter : Filter} {tokens : List Token}

/-- The tokens stand in a row among those of a text. -/
def RunOf (text : String) (run : List Token) : Prop :=
  ∃ earlier later, Laid 0 text.toList (earlier ++ (run ++ later))

namespace Grammar

theorem hereditary_runOf (text : String) : Hereditary (RunOf text) where
  left := by
    rintro first second ⟨earlier, later, h⟩
    refine ⟨earlier, second ++ later, ?_⟩
    rwa [← List.append_assoc first]
  right := by
    rintro first second ⟨earlier, later, h⟩
    refine ⟨earlier ++ first, later, ?_⟩
    rwa [List.append_assoc, ← List.append_assoc first]

theorem copiedFrom_of_outlines {shape : List Token} {outline : String} (hrun : RunOf text shape)
    (h : Outlines shape outline) : CopiedFrom text outline := by
  obtain ⟨earlier, later, hlaid⟩ := hrun
  obtain ⟨head, middle, closing, -, hslice⟩ := hlaid.slice?_outlines h
  exact ⟨head.start, closing.stop, hslice⟩

theorem grounded_of_predicate {property : String} (h : Predicate property tokens filter) :
    filter.Throughout (Grounded text) := by
  cases h with
  | comparison | pattern | between | isNull | before | after | during =>
    exact .of_leaf trivial rfl
  | notPattern | isNotNull =>
    refine .of_operands trivial fun operand hoperand => ?_
    rw [List.mem_singleton.1 hoperand]
    exact .of_leaf trivial rfl

theorem grounded_of_primary (hrun : RunOf text tokens) (h : Primary tokens filter) :
    filter.Throughout (Grounded text) := by
  have hruns := hereditary_runOf text
  cases h with
  | predicate hname hpredicate => exact grounded_of_predicate hpredicate
  | intersects _ _ _ _ hshape | within _ _ _ _ hshape =>
    have hrest := hruns.tail (hruns.tail (hruns.tail (hruns.tail hrun)))
    exact .of_leaf (copiedFrom_of_outlines (hruns.left hrest) hshape) rfl

theorem inherited_throughout_grounded (text : String) :
    Inherited (Throughout (Grounded text)) where
  not h := by
    refine .of_operands trivial fun operand hoperand => ?_
    rw [List.mem_singleton.1 hoperand]
    exact h
  and h := .of_operands (by simp [Grounded]) h
  or h := .of_operands (by simp [Grounded]) h

end Grammar

/-- What is derived from the tokens of a text is sound in all of its parts. -/
theorem sound_of_expression {levels : Nat} (hmade : Cql.tokens 0 text.toList = .ok tokens)
    (h : Grammar.Expression (Grammar.Operand levels) tokens filter) :
    filter.Throughout (Sound text) := by
  have hrun : RunOf text tokens := ⟨[], [], by simpa using laid_of_tokens hmade⟩
  have hruns := Grammar.hereditary_runOf text
  have hinherited := Grammar.inherited_throughout_grounded text
  have hprimary : Grammar.Passes (RunOf text) (Throughout (Grounded text)) Grammar.Primary :=
    fun _ _ => Grammar.grounded_of_primary
  have hgrounded : filter.Throughout (Grounded text) :=
    (hprimary.operand hruns hinherited levels).expression hruns hinherited _ _ hrun h
  have hfaithful : filter.Faithful := Grammar.faithful_of_expression ⟨_, _, hmade⟩ h
  intro part hpart
  apply Filter.sound_of_grounded (hgrounded part hpart)
  exact fun hleaf => hfaithful.expressible part (Filter.mem_leaves_of_hasPart hpart hleaf)

/-- A text without tokens is read as the empty conjunction, and only such a text is.  Whatever
else is read has no empty group, two operands in each group and sound values in its predicates,
so that it is in normal form and text can say each of its leaves. -/
theorem parsed_filters_are_sound (h : parse text = .ok filter) :
    (filter = .and [] ↔ Cql.tokens 0 text.toList = .ok []) ∧
      (filter ≠ .and [] →
        ∀ part, filter.HasPart part → ¬part.IsEmptyGroup ∧ part.Sound text) ∧
      filter.normalForm = filter ∧ ∀ leaf ∈ filter.leaves, leaf.Expressible := by
  obtain ⟨made, hmade, ⟨rfl, rfl⟩ | hderived⟩ := exists_tokens_of_parse h
  · refine ⟨iff_of_true rfl hmade, fun hne => absurd rfl hne, rfl, nofun⟩
  · have hfaithful : filter.Faithful := Grammar.faithful_of_expression ⟨_, _, hmade⟩ hderived
    have hne : filter ≠ .and [] := by
      rintro rfl
      cases hfaithful.nonempty
    have hsome : Cql.tokens 0 text.toList ≠ .ok [] := by
      rw [hmade]
      rintro ⟨⟩
      exact Grammar.ne_nil_of_expression hderived rfl
    refine ⟨iff_of_false hne hsome, fun _ part hpart => ?_, hfaithful.normal,
      hfaithful.expressible⟩
    have hsound := sound_of_expression hmade hderived part hpart
    exact ⟨Filter.not_isEmptyGroup_of_sound hsound, hsound⟩

/-- A geometry with a quoted parenthesis and white space in it is copied as it stands. -/
theorem parsed_filters_are_sound_quoted :
    let text := "é DURING 2020/2021 AND NOT (DWITHIN(\"ü\", POINT ( 1 ')' 2 ), 10, km) OR x <= 1)"
    let nearby := Filter.within "ü" "POINT ( 1 ')' 2 )" (.ofInt 10) "km"
    let filter := Filter.and [.during "é" "2020" "2021",
      .not (.or [nearby, .compare "x" .lessOrEqual (.number (.ofInt 1))])]
    parse text = .ok filter ∧ filter.HasPart nearby ∧ nearby.Sound text := by
  intro text nearby filter
  have hparse : parse text = .ok filter := by decide +kernel
  have hpart : filter.HasPart nearby := by
    have hgroup (other : Filter) : (Filter.or [nearby, other]).HasPart nearby :=
      .operand (.head _) (.self nearby)
    have hnegated (other : Filter) : (Filter.not (.or [nearby, other])).HasPart nearby :=
      .operand (.head _) (hgroup other)
    exact .operand (List.mem_cons_of_mem _ (.head _)) (hnegated _)
  have hne : filter ≠ .and [] := by decide
  exact ⟨hparse, hpart, ((parsed_filters_are_sound hparse).2.1 hne nearby hpart).2⟩

end Cql

end CatalogSearch
