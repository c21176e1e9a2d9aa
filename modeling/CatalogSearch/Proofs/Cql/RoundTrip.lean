import CatalogSearch.Proofs.Cql.Completeness
import CatalogSearch.Proofs.Cql.NormalForm
import Mathlib.Data.List.Forall2

/-!
# Reading what was written

The text of a filter reads as the normal form of the filter.  Each phrase is cut into
tokens from which the grammar derives that form, within the levels of nesting that it
needs; the phrase of a group is put together from those of its operands.
-/

namespace CatalogSearch.Cql

open Grammar

/-! ## Empty filters -/

theorem group?_eq_none_iff {separator : String} {phrases : List Phrase} :
    Phrase.group? separator phrases = none ↔ phrases = [] := by
  cases phrases with
  | nil => simp [Phrase.group?]
  | cons first more => cases more <;> simp [Phrase.group?]

mutual

/-- Just the empty filters have no phrase. -/
theorem phrase?_eq_none_iff : ∀ filter : Filter, phrase? filter = none ↔ filter.isEmpty = true
  | .and operands => by
    rw [phrase?, group?_eq_none_iff, phrases_eq_nil_iff operands, Filter.isEmpty]
  | .or operands => by
    rw [phrase?, group?_eq_none_iff, phrases_eq_nil_iff operands, Filter.isEmpty]
  | .not operand => by
    rw [phrase?, Option.map_eq_none_iff, phrase?_eq_none_iff operand, Filter.isEmpty]
  | .compare .. => by simp [phrase?, Filter.isEmpty]
  | .between .. => by simp [phrase?, Filter.isEmpty]
  | .isNull .. => by simp [phrase?, Filter.isEmpty]
  | .before .. => by simp [phrase?, Filter.isEmpty]
  | .after .. => by simp [phrase?, Filter.isEmpty]
  | .during .. => by simp [phrase?, Filter.isEmpty]
  | .intersects .. => by simp [phrase?, Filter.isEmpty]
  | .within .. => by simp [phrase?, Filter.isEmpty]

theorem phrases_eq_nil_iff : ∀ operands : List Filter,
    phrases operands = [] ↔ Filter.allEmpty operands = true
  | [] => by simp [phrases, Filter.allEmpty]
  | operand :: operands => by
    have hfirst := phrase?_eq_none_iff operand
    have hmore := phrases_eq_nil_iff operands
    rw [phrases, Filter.allEmpty, Bool.and_eq_true]
    cases hphrase : phrase? operand with
    | none => simp [← hfirst, hphrase, hmore]
    | some phrase => simp [← hfirst, hphrase]

end

theorem asOperand_ne_nil {phrase : Phrase} (h : phrase.text ≠ []) : phrase.asOperand ≠ [] := by
  unfold Phrase.asOperand
  split
  · exact List.cons_ne_nil _ _
  · exact h

theorem text_group_ne_nil {separator : String} {phrases : List Phrase}
    (h : ∀ phrase ∈ phrases, phrase.text ≠ []) {phrase : Phrase}
    (hphrase : Phrase.group? separator phrases = some phrase) : phrase.text ≠ [] := by
  cases phrases with
  | nil => cases hphrase
  | cons first more =>
    have hfirst := h first List.mem_cons_self
    cases more with
    | nil =>
      cases hphrase
      exact hfirst
    | cons second more =>
      cases hphrase
      simp only [List.map_cons, List.intercalate_cons_cons]
      exact List.append_ne_nil_of_left_ne_nil
        (List.append_ne_nil_of_left_ne_nil (asOperand_ne_nil hfirst) _) _

mutual

theorem text_ne_nil : ∀ {filter : Filter} {phrase : Phrase}, phrase? filter = some phrase →
    phrase.text ≠ []
  | .and operands, phrase, h => by
    rw [phrase?] at h
    exact text_group_ne_nil (texts_ne_nil operands) h
  | .or operands, phrase, h => by
    rw [phrase?] at h
    exact text_group_ne_nil (texts_ne_nil operands) h
  | .not operand, phrase, h => by
    rw [phrase?, Option.map_eq_some_iff] at h
    obtain ⟨inner, -, rfl⟩ := h
    simp
  | .compare .., phrase, h => by cases h; simp [writeLeaf]
  | .between .., phrase, h => by cases h; simp [writeLeaf]
  | .isNull .., phrase, h => by cases h; simp [writeLeaf]
  | .before .., phrase, h => by cases h; simp [writeLeaf]
  | .after .., phrase, h => by cases h; simp [writeLeaf]
  | .during .., phrase, h => by cases h; simp [writeLeaf]
  | .intersects .., phrase, h => by cases h; simp [writeCall]
  | .within .., phrase, h => by cases h; simp [writeCall]

theorem texts_ne_nil : ∀ (operands : List Filter), ∀ phrase ∈ phrases operands, phrase.text ≠ []
  | [], phrase, h => by cases h
  | operand :: operands, phrase, h => by
    rw [phrases] at h
    split at h
    · exact texts_ne_nil operands phrase h
    · rename_i first hfirst
      obtain rfl | hmore := List.mem_cons.1 h
      · exact text_ne_nil hfirst
      · exact texts_ne_nil operands phrase hmore

end

/-- Just the empty filters are written as no text. -/
theorem toText_eq_empty_iff (filter : Filter) : toText filter = "" ↔ filter.isEmpty = true := by
  rw [← phrase?_eq_none_iff, toText, write]
  cases hphrase : phrase? filter with
  | none => simp
  | some phrase => simp [text_ne_nil hphrase]

/-! ## Groups -/

/-- Operands one after another, each behind a keyword. -/
def behind (word : String) (texts : List (List Char)) : List Char :=
  texts.flatMap fun text => ' ' :: (word.toList ++ ' ' :: text)

theorem intercalate_cons (word : String) (first : List Char) (more : List (List Char)) :
    List.intercalate (' ' :: word.toList ++ [' ']) (first :: more) =
      first ++ behind word more := by
  induction more generalizing first with
  | nil => rw [List.intercalate_singleton, behind, List.flatMap_nil, List.append_nil]
  | cons second more ih =>
    rw [List.intercalate_cons_cons, ih, behind, behind, List.flatMap_cons]
    simp

/-- Operands behind keywords add to what comes before them. -/
theorem yields_behind {word : String} (hword : isWord word.toList = true)
    {derived : List Token → Filter → Prop} {texts : List (List Char)} {filters : List Filter}
    (h : List.Forall₂ (fun text filter => Yields text fun made => derived made filter) texts
      filters)
    {first : List Char} {property : List Token → Prop} (hfirst : Yields first property) :
    Yields (first ++ behind word texts)
      (Both property fun made => More word derived made filters) := by
  induction h generalizing first property with
  | nil =>
    rw [behind, List.flatMap_nil, List.append_nil]
    apply hfirst.mono
    intro made hmade
    exact ⟨made, [], (List.append_nil made).symm, hmade, .nil⟩
  | @cons text filter texts filters htext _ ih =>
    -- The operand joins what came before, and the induction goes on behind it.
    have hlonger : Yields (first ++ ' ' :: (word.toList ++ ' ' :: text)) (Both property
        (Both (One fun token => token.isKeyword word = true) fun made => derived made filter)) :=
      hfirst.space ((yields_keyword_self hword).space htext)
    have hall := ih hlonger
    rw [List.append_assoc] at hall
    apply hall.mono
    rintro made ⟨_, more, rfl, ⟨before, _, rfl, hbefore, _, later, rfl, ⟨keyword, rfl, hkeyword⟩,
      hlater⟩, hmore⟩
    refine ⟨before, keyword :: (later ++ more), ?_, hbefore, .cons hkeyword hlater hmore⟩
    simp

theorem yields_chain {word : String} (hword : isWord word.toList = true)
    (join : List Filter → Filter) {derived : List Token → Filter → Prop}
    {first : List Char} {filter : Filter} (hfirst : Yields first fun made => derived made filter)
    {texts : List (List Char)} {filters : List Filter}
    (h : List.Forall₂ (fun text filter => Yields text fun made => derived made filter) texts
      filters) :
    Yields (first ++ behind word texts) fun made =>
      Chain word join derived made (gathered join filter filters) := by
  apply (yields_behind hword h hfirst).mono
  rintro made ⟨before, more, rfl, hbefore, hmore⟩
  exact .intro hbefore hmore

/-! ## Phrases -/

/-- What the text of a phrase stands for within some levels of nesting. -/
def Stands (phrase : Phrase) (levels : Nat) (made : List Token) (filter : Filter) : Prop :=
  if phrase.joins then Expression (Operand levels) made filter else Operand levels made filter

/-- The phrase reads as the filter, which is in normal form. -/
structure Reads (phrase : Phrase) (filter : Filter) : Prop where
  joins : phrase.joins = filter.isGroup
  yields : ∀ levels, filter.nesting ≤ levels →
    Yields phrase.text fun made => Stands phrase levels made filter

namespace Reads

variable {phrase : Phrase} {filter : Filter} {levels : Nat}

theorem of_primary {text : List Char} (hgroup : filter.isGroup = false)
    (h : Yields text fun made => Primary made filter) : Reads ⟨text, false⟩ filter := by
  constructor
  · exact hgroup.symm
  · intro levels _
    apply h.mono
    intro made hmade
    exact Operand.of_primary hmade levels

theorem expression (h : Reads phrase filter) (hlevels : filter.nesting ≤ levels) :
    Yields phrase.text fun made => Expression (Operand levels) made filter := by
  apply (h.yields levels hlevels).mono
  intro made hmade
  unfold Stands at hmade
  split at hmade
  · exact hmade
  · exact Chain.single (Chain.single hmade)

end Reads

/-- An expression in parentheses is an operand. -/
theorem yields_inParentheses {text : List Char} {levels : Nat} {filter : Filter}
    (h : Yields text fun made => Expression (Operand levels) made filter) :
    Yields (Phrase.inParentheses text) fun made => Operand (levels + 1) made filter := by
  intro rest hrest
  have hclosed := (h (apart_cons (.inr (.inr (.inr rfl))) _)).append (yields_close rest)
  apply ((yields_open _).append hclosed).mono
  rintro made ⟨_, _, rfl, ⟨opening, rfl, hopening⟩, inner, _, rfl, hinner, closing, rfl, hclosing⟩
  exact .inr (.inr ⟨opening, inner, closing, hopening, hinner, hclosing, rfl⟩)

namespace Reads

variable {phrase : Phrase} {filter : Filter} {levels : Nat}

/-- As an operand a group needs one more level, for its parentheses. -/
theorem asOperand (h : Reads phrase filter)
    (hlevels : filter.nesting + (if filter.isGroup then 1 else 0) ≤ levels) :
    Yields phrase.asOperand fun made => Operand levels made filter := by
  unfold Phrase.asOperand
  have hjoins := h.joins
  split
  · rename_i hgroup
    rw [if_pos (hjoins.symm.trans hgroup)] at hlevels
    cases levels with
    | zero => omega
    | succ levels => exact yields_inParentheses (h.expression (by omega))
  · rename_i hgroup
    have hyields := h.yields levels (by omega)
    simpa only [Stands, if_neg hgroup] using hyields

theorem operands {phrases : List Phrase} {filters : List Filter}
    (h : List.Forall₂ Reads phrases filters)
    (hlevels : Filter.operandsNesting filters ≤ levels) :
    List.Forall₂ (fun text filter => Yields text fun made => Operand levels made filter)
      (phrases.map Phrase.asOperand) filters := by
  induction h with
  | nil => exact .nil
  | cons hfirst _ ih =>
    rw [Filter.operandsNesting, Nat.max_le] at hlevels
    exact .cons (hfirst.asOperand hlevels.1) (ih hlevels.2)

/-- The phrase of a group reads as the operands that are left, if those read. -/
theorem group {word separator : String} (hword : isWord word.toList = true)
    (hseparator : separator.toList = ' ' :: word.toList ++ [' ']) {join : List Filter → Filter}
    (hgroup : ∀ operands, (join operands).isGroup = true)
    (hnesting : ∀ operands, (join operands).nesting = Filter.operandsNesting operands)
    (hexpression : ∀ levels made filter, Chain word join (Operand levels) made filter →
      Expression (Operand levels) made filter)
    {phrases : List Phrase} {filters : List Filter} (h : List.Forall₂ Reads phrases filters)
    (hphrase : Phrase.group? separator phrases = some phrase) :
    Reads phrase (Filter.joined join filters) := by
  cases h with
  | nil => cases hphrase
  | @cons first filter more filters hfirst hmore =>
    cases hmore with
    | nil =>
      cases hphrase
      exact hfirst
    | @cons second filter' more filters hsecond hmore =>
      cases hphrase
      constructor
      · exact (hgroup _).symm
      · intro levels hlevels
        have hlevels' : Filter.operandsNesting (filter :: filter' :: filters) ≤ levels := by
          rw [← hnesting]
          exact hlevels
        have hoperands := Reads.operands (.cons hfirst (.cons hsecond hmore)) hlevels'
        rw [List.map_cons, List.forall₂_cons] at hoperands
        have hchain := yields_chain hword join hoperands.1 hoperands.2
        rw [← intercalate_cons, ← hseparator] at hchain
        apply hchain.mono
        intro made hmade
        exact hexpression levels made _ hmade

end Reads

theorem Chain.mono {word : String} {join : List Filter → Filter}
    {first second : List Token → Filter → Prop} (himp : ∀ made filter, first made filter →
      second made filter) {made : List Token} {filter : Filter}
    (h : Chain word join first made filter) : Chain word join second made filter := by
  have hmore : ∀ {made filters}, More word first made filters → More word second made filters := by
    intro made filters hmade
    induction hmade with
    | nil => exact .nil
    | cons hkeyword hoperand _ ih => exact .cons hkeyword (himp _ _ hoperand) ih
  cases h with
  | intro hoperand hrest => exact .intro (himp _ _ hoperand) (hmore hrest)

theorem reads_and {phrases : List Phrase} {filters : List Filter}
    (h : List.Forall₂ Reads phrases filters) {phrase : Phrase}
    (hphrase : Phrase.group? " AND " phrases = some phrase) :
    Reads phrase (Filter.joined .and filters) := by
  have hword : isWord "AND".toList = true := by decide
  have hseparator : " AND ".toList = ' ' :: "AND".toList ++ [' '] := rfl
  apply Reads.group hword hseparator (fun _ => rfl) (fun _ => rfl) _ h hphrase
  intro levels made filter hmade
  exact Chain.single hmade

theorem reads_or {phrases : List Phrase} {filters : List Filter}
    (h : List.Forall₂ Reads phrases filters) {phrase : Phrase}
    (hphrase : Phrase.group? " OR " phrases = some phrase) :
    Reads phrase (Filter.joined .or filters) := by
  have hword : isWord "OR".toList = true := by decide
  have hseparator : " OR ".toList = ' ' :: "OR".toList ++ [' '] := rfl
  apply Reads.group hword hseparator (fun _ => rfl) (fun _ => rfl) _ h hphrase
  intro levels made filter hmade
  exact Chain.mono (fun _ _ => Chain.single) hmade

theorem reads_not {phrase : Phrase} {filter : Filter} (h : Reads phrase filter) :
    Reads ⟨"NOT ".toList ++ Phrase.inParentheses phrase.text, false⟩ (.not filter) := by
  have hnot : Yields "NOT".toList (One fun token => token.isKeyword "NOT" = true) :=
    yields_keyword_self (by decide)
  constructor
  · rfl
  · intro levels hlevels
    rw [Filter.nesting] at hlevels
    obtain ⟨levels, rfl⟩ : ∃ fewer, levels = fewer + 2 := ⟨levels - 2, by omega⟩
    have hinner : filter.nesting ≤ levels := by omega
    apply (hnot.space (yields_inParentheses (h.expression hinner))).mono
    rintro made ⟨_, rest, rfl, ⟨negation, rfl, hnegation⟩, hoperand⟩
    exact .inr (.inl ⟨negation, rest, filter, hnegation, hoperand, rfl, rfl⟩)

/-! ## Leaves -/

/-- A leaf reads as what its operator and its value say about its property. -/
theorem reads_leaf {property operator : String} {value : List Char} {filter : Filter}
    {first second : List Token → Prop} (hgroup : filter.isGroup = false)
    (hoperator : Yields operator.toList first) (hvalue : Yields value second)
    (hpredicate : ∀ before later, first before → second later →
      Predicate property (before ++ later) filter) :
    Reads (writeLeaf property operator value) filter := by
  apply Reads.of_primary hgroup
  have hyields := ((yields_name property).space hoperator).space hvalue
  apply hyields.mono
  rintro made ⟨_, later, rfl, ⟨_, before, rfl, ⟨name, rfl, hname⟩, hbefore⟩, hlater⟩
  rw [List.append_assoc]
  exact .predicate hname (hpredicate before later hbefore hlater)

theorem like_or_ilike_of_wildcards {token : Token} {comparison : Comparison}
    (h : token.Wildcards comparison) : comparison = .like ∨ comparison = .ilike := by
  cases h with
  | like => exact .inl rfl
  | ilike => exact .inr rfl

theorem reads_compare {property : String} {comparison : Comparison} {value : Literal}
    (h : Filter.Expressible (.compare property comparison value)) :
    Reads (writeLeaf property comparison.symbol (writeLiteral value))
      (.compare property comparison value) := by
  obtain ⟨hfinite, hpattern⟩ := h
  apply reads_leaf rfl (yields_operator comparison) (yields_literal hfinite)
  rintro _ _ ⟨operator, rfl, hoperator | hoperator⟩ ⟨token, rfl, hvalue⟩
  · exact .comparison hoperator hvalue
  · obtain ⟨text, rfl⟩ := hpattern (like_or_ilike_of_wildcards hoperator)
    exact .pattern hoperator hvalue

theorem reads_between {property : String} {lower upper : Literal} (hlower : lower.IsFinite)
    (hupper : upper.IsFinite) :
    Reads (writeLeaf property "BETWEEN" (writeLiteral lower ++ " AND ".toList ++
      writeLiteral upper)) (.between property lower upper) := by
  have hand : Yields "AND".toList (One fun token => token.isKeyword "AND" = true) :=
    yields_keyword_self (by decide)
  have hvalue := ((yields_literal hlower).space hand).space (yields_literal hupper)
  have htext : writeLiteral lower ++ " AND ".toList ++ writeLiteral upper =
      writeLiteral lower ++ ' ' :: "AND".toList ++ ' ' :: writeLiteral upper := by simp
  rw [htext]
  apply reads_leaf rfl (yields_keyword_self (by decide)) hvalue
  rintro _ _ ⟨operator, rfl, hoperator⟩
    ⟨_, _, rfl, ⟨_, _, rfl, ⟨first, rfl, hfirst⟩, conjunction, rfl, hconjunction⟩,
      second, rfl, hsecond⟩
  exact .between hoperator hfirst hconjunction hsecond

theorem reads_isNull (property : String) :
    Reads (writeLeaf property "IS" "NULL".toList) (.isNull property) := by
  apply reads_leaf rfl (yields_keyword_self (by decide)) (yields_keyword_self (by decide))
  rintro _ _ ⟨operator, rfl, hoperator⟩ ⟨null, rfl, hnull⟩
  exact .isNull hoperator hnull

theorem reads_before (property instant : String) :
    Reads (writeLeaf property "BEFORE" (writeInstant instant.toList))
      (.before property instant) := by
  apply reads_leaf rfl (yields_keyword_self (by decide)) (yields_instant instant.toList)
  rintro _ _ ⟨operator, rfl, hoperator⟩ ⟨value, rfl, hvalue⟩
  rw [String.ofList_toList] at hvalue
  exact .before hoperator hvalue

theorem reads_after (property instant : String) :
    Reads (writeLeaf property "AFTER" (writeInstant instant.toList))
      (.after property instant) := by
  apply reads_leaf rfl (yields_keyword_self (by decide)) (yields_instant instant.toList)
  rintro _ _ ⟨operator, rfl, hoperator⟩ ⟨value, rfl, hvalue⟩
  rw [String.ofList_toList] at hvalue
  exact .after hoperator hvalue

theorem reads_during (property finish : String) {start : String} (h : '/' ∉ start.toList) :
    Reads (writeLeaf property "DURING" (writeInstant (start.toList ++ '/' :: finish.toList)))
      (.during property start finish) := by
  apply reads_leaf rfl (yields_keyword_self (by decide)) (yields_instant _)
  rintro _ _ ⟨operator, rfl, hoperator⟩ ⟨value, rfl, hvalue⟩
  exact .during hoperator h hvalue

/-! ## Calls -/

/-- Arguments with commas between them. -/
theorem Yields.comma {text more : List Char} {first second : List Token → Prop}
    (h : Yields text first) (hmore : Yields more second) :
    Yields (text ++ ',' :: ' ' :: more)
      (Both first (Both (One fun token => token.kind = .comma) second)) := by
  intro rest hrest
  have hargument := (yields_comma (' ' :: more ++ rest)).append (hmore hrest).space
  exact (h (apart_cons (.inr (.inl rfl)) _)).append hargument

/-- A function and its arguments in parentheses. -/
theorem yields_call {function : String} (hfunction : isWord function.toList = true)
    {arguments : List Char} {property : List Token → Prop} (h : Yields arguments property) :
    Yields (function.toList ++ Phrase.inParentheses arguments) fun made =>
      ∃ keyword opening inner closing, made = keyword :: opening :: (inner ++ [closing]) ∧
        keyword.isKeyword function = true ∧ opening.kind = .openParenthesis ∧ property inner ∧
        closing.kind = .closeParenthesis := by
  intro rest hrest
  have hclosed := (h (apart_cons (.inr (.inr (.inr rfl))) _)).append (yields_close rest)
  have hopened := (yields_open _).append hclosed
  have hword : YieldsBefore (Phrase.inParentheses arguments ++ rest) function.toList
      (One fun token => token.isKeyword function = true) :=
    yields_keyword_self hfunction (apart_cons (.inr (.inr (.inl rfl))) _)
  apply (hword.append hopened).mono
  rintro made ⟨_, _, rfl, ⟨keyword, rfl, hkeyword⟩, _, _, rfl, ⟨opening, rfl, hopening⟩, inner, _,
    rfl, hinner, closing, rfl, hclosing⟩
  exact ⟨keyword, opening, inner, closing, rfl, hkeyword, hopening, hinner, hclosing⟩

theorem reads_intersects (property : String) {geometry : String} (h : IsGeometry geometry) :
    Reads (writeCall "INTERSECTS" property [geometry.toList])
      (.intersects property geometry) := by
  apply Reads.of_primary rfl
  have harguments := (yields_name property).comma (yields_geometry h)
  have hkeyword : isWord "INTERSECTS".toList = true := by decide
  rw [List.intercalate_cons_cons, List.intercalate_singleton, List.append_assoc]
  apply (yields_call hkeyword harguments).mono
  rintro made ⟨keyword, opening, _, closing, rfl, hkeyword, hopening, hinner, hclosing⟩
  obtain ⟨_, _, rfl, ⟨name, rfl, hname⟩, _, shape, rfl, ⟨comma, rfl, hcomma⟩, hshape⟩ := hinner
  exact .intersects hkeyword hopening hname hcomma hshape hclosing

theorem reads_within (property : String) {geometry units : String} {distance : Double}
    (hgeometry : IsGeometry geometry) (hdistance : distance.isFinite = true)
    (hunits : IsUnit units) :
    Reads (writeCall "DWITHIN" property [geometry.toList, distance.plain, units.toList])
      (.within property geometry distance units) := by
  apply Reads.of_primary rfl
  have harguments := (yields_name property).comma ((yields_geometry hgeometry).comma
    ((yields_number hdistance).comma (yields_unit hunits)))
  have hkeyword : isWord "DWITHIN".toList = true := by decide
  simp only [List.intercalate_cons_cons, List.intercalate_singleton, List.append_assoc]
  apply (yields_call hkeyword harguments).mono
  rintro made ⟨keyword, opening, _, closing, rfl, hkeyword, hopening, hinner, hclosing⟩
  obtain ⟨_, _, rfl, ⟨name, rfl, hname⟩, _, _, rfl, ⟨comma, rfl, hcomma⟩, shape, _, rfl, hshape,
    _, _, rfl, ⟨comma', rfl, hcomma'⟩, _, _, rfl, ⟨distance, rfl, hdistance⟩, _, _, rfl,
    ⟨comma'', rfl, hcomma''⟩, units, rfl, hunits⟩ := hinner
  have hwithin := Primary.within hkeyword hopening hname hcomma hshape hcomma' hdistance hcomma''
    hunits hclosing
  simpa using hwithin

/-! ## Filters -/

mutual

/-- What is written of a filter reads as its normal form. -/
theorem reads_of_phrase? : ∀ {filter : Filter}, (∀ leaf ∈ filter.leaves, leaf.Expressible) →
    ∀ {phrase : Phrase}, phrase? filter = some phrase → Reads phrase filter.normalForm
  | .and operands, h, phrase, hphrase => by
    rw [phrase?] at hphrase
    rw [Filter.normalForm]
    exact reads_and (reads_of_phrases h) hphrase
  | .or operands, h, phrase, hphrase => by
    rw [phrase?] at hphrase
    rw [Filter.normalForm]
    exact reads_or (reads_of_phrases h) hphrase
  | .not operand, h, phrase, hphrase => by
    rw [phrase?, Option.map_eq_some_iff] at hphrase
    obtain ⟨inner, hinner, rfl⟩ := hphrase
    have hempty : ¬operand.isEmpty = true := by
      rw [← phrase?_eq_none_iff, hinner]
      simp
    have hoperand : ∀ leaf ∈ operand.leaves, leaf.Expressible := h
    rw [Filter.normalForm, if_neg hempty]
    exact reads_not (reads_of_phrase? hoperand hinner)
  | .compare property comparison value, h, phrase, hphrase => by
    cases hphrase
    exact reads_compare (h _ (List.mem_singleton_self _))
  | .between property lower upper, h, phrase, hphrase => by
    cases hphrase
    obtain ⟨hlower, hupper⟩ := h _ (List.mem_singleton_self _)
    exact reads_between hlower hupper
  | .isNull property, _, phrase, hphrase => by
    cases hphrase
    exact reads_isNull property
  | .before property instant, _, phrase, hphrase => by
    cases hphrase
    exact reads_before property instant
  | .after property instant, _, phrase, hphrase => by
    cases hphrase
    exact reads_after property instant
  | .during property start finish, h, phrase, hphrase => by
    cases hphrase
    exact reads_during property finish (h _ (List.mem_singleton_self _))
  | .intersects property geometry, h, phrase, hphrase => by
    cases hphrase
    exact reads_intersects property (h _ (List.mem_singleton_self _))
  | .within property geometry distance units, h, phrase, hphrase => by
    cases hphrase
    obtain ⟨hgeometry, hdistance, hunits⟩ := h _ (List.mem_singleton_self _)
    exact reads_within property hgeometry hdistance hunits

theorem reads_of_phrases : ∀ {operands : List Filter},
    (∀ leaf ∈ Filter.allLeaves operands, leaf.Expressible) →
    List.Forall₂ Reads (phrases operands) (Filter.normalForms operands)
  | [], _ => .nil
  | operand :: operands, h => by
    have hfirst : ∀ leaf ∈ operand.leaves, leaf.Expressible := fun leaf hleaf =>
      h leaf (List.mem_append_left _ hleaf)
    have hmore : ∀ leaf ∈ Filter.allLeaves operands, leaf.Expressible := fun leaf hleaf =>
      h leaf (List.mem_append_right _ hleaf)
    have hempty := phrase?_eq_none_iff operand
    rw [phrases, Filter.normalForms]
    split
    · rename_i hnone
      rw [if_pos (hempty.1 hnone)]
      exact reads_of_phrases hmore
    · rename_i phrase hsome
      rw [hsome] at hempty
      rw [if_neg (by simp [← hempty])]
      exact .cons (reads_of_phrase? hfirst hsome) (reads_of_phrases hmore)

end

/-- Text that is written within the limit of nesting is read as the normal form of what
was written. -/
theorem parse_toText {filter : Filter} (hleaves : ∀ leaf ∈ filter.leaves, leaf.Expressible)
    (hnesting : filter.normalForm.nesting ≤ nestingLimit) :
    parse (toText filter) = .ok filter.normalForm := by
  unfold parse toText write
  rw [String.toList_ofList]
  cases hphrase : phrase? filter with
  | none =>
    rw [Filter.normalForm_of_isEmpty ((phrase?_eq_none_iff filter).1 hphrase)]
    dsimp only
    rw [tokens_of_blank blank_nil]
    rfl
  | some phrase =>
    have hreads := reads_of_phrase? hleaves hphrase
    obtain ⟨made, hcuts, hmade⟩ := hreads.expression hnesting apart_nil 0 [] blank_nil
    have htokens : tokens 0 phrase.text = .ok made := hcuts.whole
    dsimp only
    rw [htokens, Except.bind, Grammar.query_of_derivation hmade]

/-- The reader and the writer agree on every filter that query text can say: what is
written reads as the normal form, and nothing is written just if the filter is empty. -/
theorem writer_reader_agree {filter : Filter} (hleaves : ∀ leaf ∈ filter.leaves, leaf.Expressible)
    (hnesting : filter.normalForm.nesting ≤ nestingLimit) :
    parse (toText filter) = .ok filter.normalForm ∧
      (toText filter = "" ↔ filter.isEmpty = true) := by
  constructor
  · exact parse_toText hleaves hnesting
  · exact toText_eq_empty_iff filter

/-- A distance in a negated group beside an empty group and groups around one operand. -/
def nearbyOrUntitled : Filter :=
  .or [.and [], .not (.or [.within "where" "POINT (1 2)" (.ofInt 1) "meters",
    .compare "title" .like (.text "it's")]), .and [.or [.isNull "and"]]]

theorem nearbyOrUntitled_agrees :
    (∀ leaf ∈ nearbyOrUntitled.leaves, leaf.Expressible) ∧
      nearbyOrUntitled.normalForm.nesting ≤ nestingLimit ∧
      parse (toText nearbyOrUntitled) = .ok nearbyOrUntitled.normalForm ∧
      (toText nearbyOrUntitled = "" ↔ nearbyOrUntitled.isEmpty = true) := by
  have hgeometry : IsGeometry "POINT (1 2)" := by
    have hinner : Balanced [⟨7, [], ['1'], .number (.ofInt 1)⟩,
        ⟨9, [' '], ['2'], .number (.ofInt 2)⟩] :=
      .plain nofun nofun (.plain nofun nofun .nil)
    have hshape : tokens 0 "POINT (1 2)".toList = .ok (⟨0, [], "POINT".toList, .word "POINT"⟩ ::
        ⟨6, [' '], ['('], .openParenthesis⟩ :: ([⟨7, [], ['1'], .number (.ofInt 1)⟩,
          ⟨9, [' '], ['2'], .number (.ofInt 2)⟩] ++ [⟨10, [], [')'], .closeParenthesis⟩])) := by
      decide +kernel
    exact ⟨rfl, _, _, hshape, .intro rfl rfl hinner rfl⟩
  have hunit : IsUnit "meters" :=
    ⟨⟨0, [], "meters".toList, .word "meters"⟩, by decide +kernel, rfl⟩
  have hdistance : (Double.ofInt 1).isFinite = true := by decide +kernel
  have hleaves : ∀ leaf ∈ nearbyOrUntitled.leaves, leaf.Expressible := by
    simp only [nearbyOrUntitled, Filter.leaves, Filter.allLeaves, List.append_nil, List.nil_append,
      List.cons_append, List.forall_mem_cons]
    exact ⟨⟨hgeometry, hdistance, hunit⟩, ⟨trivial, fun _ => ⟨_, rfl⟩⟩, trivial, nofun⟩
  have hnesting : nearbyOrUntitled.normalForm.nesting ≤ nestingLimit := by decide
  exact ⟨hleaves, hnesting, writer_reader_agree hleaves hnesting⟩

end CatalogSearch.Cql
