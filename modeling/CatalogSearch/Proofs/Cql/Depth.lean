import CatalogSearch.Proofs.Cql.RoundTrip
import CatalogSearch.Proofs.Cql.Soundness

/-!
# The depth of what was written

Text is read within just as many levels of nesting as its filter needs when it is written, and
not within fewer.  What decides it is that tokens have one derivation: as every operand takes the
same tokens at all levels, the levels of a group are those of its operands.
-/

namespace CatalogSearch.Cql

open Grammar

namespace Grammar

variable {levels more : Nat} {made rest rest' : List Token} {filter filter' : Filter}

/-! ## One derivation -/

theorem Operand.succ (h : Operand levels made filter) : Operand (levels + 1) made filter := by
  induction levels generalizing made filter with
  | zero => exact .inl h
  | succ levels ih =>
    obtain h | ⟨negation, rest, inner, hnegation, hinner, rfl, rfl⟩ |
      ⟨opening, inner, closing, hopening, hinner, hclosing, rfl⟩ := h
    · exact .inl h
    · exact .inr (.inl ⟨negation, rest, inner, hnegation, ih hinner, rfl, rfl⟩)
    · have hinner := Chain.mono (fun _ _ => Chain.mono fun _ _ => ih) hinner
      exact .inr (.inr ⟨opening, inner, closing, hopening, hinner, hclosing, rfl⟩)

theorem Operand.mono (h : Operand levels made filter) (hle : levels ≤ more) :
    Operand more made filter := by
  induction hle with
  | refl => exact h
  | step _ ih => exact ih.succ

/-- Whatever the levels are, what is derived ends in one place and stands for one filter, if it
may end before some words only. -/
def Definite (words : List String) (derived : Nat → List Token → Filter → Prop) : Prop :=
  ∀ {levels more : Nat} {made made' rest rest' : List Token} {filter filter' : Filter},
    derived levels made filter → derived more made' filter' → made ++ rest = made' ++ rest' →
      Stops words rest → Stops words rest' → made = made' ∧ filter = filter'

theorem definite_of_completes {words : List String} {derived : Nat → List Token → Filter → Prop}
    {step : Nat → Step Filter} (hstep : ∀ levels, Completes (step levels) words (derived levels))
    (hmono : ∀ {levels more made filter}, derived levels made filter → levels ≤ more →
      derived more made filter) : Definite words derived := by
  intro levels more made made' rest rest' filter filter' h h' heq hrest hrest'
  have hread := hstep (max levels more) _ _ (hmono h (Nat.le_max_left _ _)) rest hrest
  have hread' := hstep (max levels more) _ _ (hmono h' (Nat.le_max_right _ _)) rest' hrest'
  rw [heq, hread'] at hread
  cases hread
  exact ⟨List.append_cancel_right heq, rfl⟩

theorem definite_operand : Definite [] Operand :=
  definite_of_completes operand_of_derivation Operand.mono

/-- Operands with `AND` between them. -/
def Conjunction (levels : Nat) : List Token → Filter → Prop := Chain "AND" .and (Operand levels)

theorem definite_conjunction : Definite ["AND"] Conjunction :=
  definite_of_completes (fun levels => chain_of_derivation (operand_of_derivation levels) nofun .and)
    fun h hle => Chain.mono (fun _ _ h => h.mono hle) h

/-! ## Chains -/

theorem More.imp {word : String} {first second : List Token → Filter → Prop}
    {filters : List Filter} (h : More word first made filters)
    (himp : ∀ made, ∀ filter ∈ filters, first made filter → second made filter) :
    More word second made filters := by
  induction h with
  | nil => exact .nil
  | cons hkeyword hoperand _ ih =>
    exact .cons hkeyword (himp _ _ List.mem_cons_self hoperand)
      (ih fun made filter hmem => himp made filter (List.mem_cons_of_mem _ hmem))

theorem More.forall_mem {word : String} {derived : List Token → Filter → Prop}
    {filters : List Filter} {property : Filter → Prop} (h : More word derived made filters)
    (himp : ∀ made filter, derived made filter → property filter) :
    ∀ filter ∈ filters, property filter := by
  induction h with
  | nil => nofun
  | cons _ hoperand _ ih => exact List.forall_mem_cons.2 ⟨himp _ _ hoperand, ih⟩

section Chains

variable {words : List String} {derived : Nat → List Token → Filter → Prop} {word : String}
  {property : List Token → Filter → Prop} {first second : Filter} {filters : List Filter}
  {others : List Token}

theorem More.stops_nil {operand : List Token → Filter → Prop}
    (hword : ∀ other ∈ words, Text.lower other.toList ≠ Text.lower word.toList)
    (h : More word operand others filters) : Stops words others := by
  have hnil : Stops (word :: words) [] := nofun
  have hstops := h.stops hword hnil
  rwa [List.append_nil] at hstops

/-- What is derived by itself at some levels is no chain of more than one operand. -/
theorem Definite.of_chain (hderived : Definite words derived)
    (hword : ∀ other ∈ words, Text.lower other.toList ≠ Text.lower word.toList)
    {join : List Filter → Filter} (h : derived more made filter)
    (hchain : Chain word join (derived levels) made filter) : derived levels made filter := by
  cases hchain with
  | @intro tokens others first filters hfirst hothers =>
    cases hothers with
    | nil => exact (List.append_nil tokens).symm ▸ hfirst
    | cons hkeyword hoperand hrest =>
      have hstops := (More.cons hkeyword hoperand hrest).stops_nil hword
      obtain ⟨heq, -⟩ := hderived hfirst h (List.append_nil _).symm hstops nofun
      simp at heq

/-- The operands of a chain are the same at all levels. -/
theorem Definite.of_chain_join (hderived : Definite words derived)
    (hword : ∀ other ∈ words, Text.lower other.toList ≠ Text.lower word.toList)
    {join : List Filter → Filter} (hjoin : Function.Injective join)
    (hfirst : derived more made first) (hothers : More word property others (second :: filters))
    (h : Chain word join (derived levels) (made ++ others) (join (first :: second :: filters))) :
    derived levels made first ∧ More word (derived levels) others (second :: filters) := by
  generalize htokens : made ++ others = tokens at h
  generalize hfilter : join (first :: second :: filters) = filter at h
  cases h with
  | @intro made' others' first' filters' hfirst' hothers' =>
    obtain ⟨rfl, rfl⟩ :=
      hderived hfirst hfirst' htokens (hothers.stops_nil hword) (hothers'.stops_nil hword)
    obtain rfl := List.append_cancel_left htokens
    cases filters' with
    | nil => cases hothers'; cases hothers
    | cons second' filters' =>
      cases hjoin hfilter
      exact ⟨hfirst', hothers'⟩

/-- Where operands are derived both ways, the same tokens are derived for each. -/
theorem Definite.aligned (hderived : Definite words derived)
    (hword : ∀ other ∈ words, Text.lower other.toList ≠ Text.lower word.toList)
    (hproperty : ∀ made filter, property made filter → ∃ levels, derived levels made filter)
    (h : More word property others filters) (h' : More word (derived levels) others filters) :
    More word (fun made filter => property made filter ∧ derived levels made filter) others
      filters := by
  induction h with
  | nil => exact .nil
  | @cons keyword made others first filters hkeyword hfirst hothers ih =>
    generalize htokens : keyword :: (made ++ others) = tokens at h'
    cases h' with
    | @cons _ made' others' _ _ _ hfirst' hothers' =>
      obtain ⟨rfl, hrest⟩ := List.cons.inj htokens
      obtain ⟨more, hmore⟩ := hproperty _ _ hfirst
      obtain ⟨rfl, -⟩ :=
        hderived hmore hfirst' hrest (hothers.stops_nil hword) (hothers'.stops_nil hword)
      obtain rfl := List.append_cancel_left hrest
      exact .cons hkeyword ⟨hfirst, hfirst'⟩ (ih hothers')

/-- A chain is derived within the levels that each of its operands needs. -/
theorem Definite.chain_iff (hderived : Definite words derived)
    (hword : ∀ other ∈ words, Text.lower other.toList ≠ Text.lower word.toList)
    {join : List Filter → Filter} (hjoin : Function.Injective join) {need : Filter → Nat}
    (hfirst : ∀ levels, derived levels made first ↔ need first ≤ levels)
    (hothers : More word (fun made filter => ∀ levels, derived levels made filter ↔
      need filter ≤ levels) others (second :: filters)) (levels : Nat) :
    Chain word join (derived levels) (made ++ others) (join (first :: second :: filters)) ↔
      ∀ filter ∈ first :: second :: filters, need filter ≤ levels := by
  rw [List.forall_mem_cons]
  constructor
  · intro h
    obtain ⟨hfirst', hothers'⟩ :=
      hderived.of_chain_join hword hjoin ((hfirst _).2 (Nat.le_refl _)) hothers h
    have haligned := hderived.aligned hword (fun _ _ h => ⟨_, (h _).2 (Nat.le_refl _)⟩) hothers
      hothers'
    exact ⟨(hfirst levels).1 hfirst', haligned.forall_mem fun _ _ h => (h.1 levels).1 h.2⟩
  · rintro ⟨hneed, hneeds⟩
    have hmore : More word (derived levels) others (second :: filters) :=
      hothers.imp fun made filter hmem h => (h levels).2 (hneeds filter hmem)
    exact .intro ((hfirst levels).2 hneed) hmore

end Chains

theorem definite_expression :
    Definite ["OR", "AND"] fun levels => Expression (Operand levels) :=
  definite_of_completes (fun levels => expression_of_derivation (operand_of_derivation levels))
    fun h hle => Chain.mono (fun _ _ => Chain.mono fun _ _ h => h.mono hle) h

theorem ne_nil_of_expression (h : Expression (Operand levels) made filter) : made ≠ [] := by
  rintro rfl
  have hread := expression_of_derivation (operand_of_derivation levels) _ _ h [] nofun
  cases levels <;> cases hread

/-- A conjunction is no disjunction of more than one. -/
theorem expression_of_conjunction (h : Conjunction more made filter) :
    Expression (Operand levels) made filter ↔ Conjunction levels made filter :=
  ⟨definite_conjunction.of_chain (by simp +decide) h, Chain.single⟩

/-- An operand is no conjunction of more than one. -/
theorem conjunction_of_operand (h : Operand more made filter) :
    Conjunction levels made filter ↔ Operand levels made filter :=
  ⟨definite_operand.of_chain nofun h, Chain.single⟩

/-! ## Parentheses and negations -/

theorem operand_parentheses_iff {opening closing : Token} {inner : List Token}
    (hopening : opening.kind = .openParenthesis) (hclosing : closing.kind = .closeParenthesis) :
    Operand levels (opening :: (inner ++ [closing])) filter ↔
      ∃ fewer, levels = fewer + 1 ∧ Expression (Operand fewer) inner filter := by
  have hprimary : ¬Primary (opening :: (inner ++ [closing])) filter := by
    intro h
    obtain ⟨_, _, heq, -, hkind⟩ := head_of_primary h
    cases heq
    exact hkind hopening
  constructor
  · intro h
    cases levels with
    | zero => exact absurd h hprimary
    | succ levels =>
      obtain h | ⟨negation, rest, inner, hnegation, -, heq, -⟩ |
        ⟨opening', inner', closing', -, hinner, -, heq⟩ := h
      · exact absurd h hprimary
      · cases heq
        rw [Token.isKeyword_eq_false (by simp [hopening])] at hnegation
        cases hnegation
      · obtain rfl := List.append_inj_left' (List.cons.inj heq).2 rfl
        exact ⟨levels, rfl, hinner⟩
  · rintro ⟨fewer, rfl, hinner⟩
    exact .inr (.inr ⟨opening, inner, closing, hopening, hinner, hclosing, rfl⟩)

theorem operand_negation_iff {negation : Token} (hnegation : negation.isKeyword "NOT" = true) :
    Operand levels (negation :: made) (.not filter) ↔
      ∃ fewer, levels = fewer + 1 ∧ Operand fewer made filter := by
  have hprimary : ¬Primary (negation :: made) (.not filter) := by
    intro h
    obtain ⟨_, _, heq, hnot, -⟩ := head_of_primary h
    cases heq
    rw [hnegation] at hnot
    cases hnot
  constructor
  · intro h
    cases levels with
    | zero => exact absurd h hprimary
    | succ levels =>
      obtain h | ⟨_, rest, inner, -, hinner, heq, hfilter⟩ |
        ⟨opening, inner, closing, hopening, -, -, heq⟩ := h
      · exact absurd h hprimary
      · cases heq
        cases hfilter
        exact ⟨levels, rfl, hinner⟩
      · cases heq
        rw [Token.isKeyword_eq_false (by simp [hopening])] at hnegation
        cases hnegation
  · rintro ⟨fewer, rfl, hinner⟩
    exact .inr (.inl ⟨negation, made, filter, hnegation, hinner, rfl, rfl⟩)

end Grammar

/-! ## Phrases -/

/-- The phrase reads as the filter, which is in normal form, within the levels that the filter
needs and no fewer. -/
structure Fits (phrase : Phrase) (filter : Filter) : Prop where
  joins : phrase.joins = filter.isGroup
  yields : Yields phrase.text fun made =>
    ∀ levels, Stands phrase levels made filter ↔ filter.nesting ≤ levels

/-- The levels that a filter needs as an operand: a group needs one more, for its
parentheses. -/
def operandNesting (filter : Filter) : Nat := filter.nesting + if filter.isGroup then 1 else 0

theorem operandsNesting_le_iff {operands : List Filter} {levels : Nat} :
    Filter.operandsNesting operands ≤ levels ↔
      ∀ operand ∈ operands, operandNesting operand ≤ levels := by
  induction operands with
  | nil => simp [Filter.operandsNesting]
  | cons operand operands ih =>
    rw [Filter.operandsNesting, Nat.max_le, ih, List.forall_mem_cons, operandNesting]

theorem exists_succ_iff {derived : Nat → Prop} {need levels : Nat}
    (h : ∀ levels, derived levels ↔ need ≤ levels) :
    (∃ fewer, levels = fewer + 1 ∧ derived fewer) ↔ need + 1 ≤ levels := by
  constructor
  · rintro ⟨fewer, rfl, hfewer⟩
    exact Nat.succ_le_succ ((h fewer).1 hfewer)
  · intro hle
    exact ⟨levels - 1, by omega, (h _).2 (by omega)⟩

namespace Fits

variable {phrase : Phrase} {filter : Filter}

/-- What needs no levels fits as soon as it reads. -/
theorem of_reads (h : Reads phrase filter) (hnesting : filter.nesting = 0)
    (hgroup : filter.isGroup = false) : Fits phrase filter := by
  refine ⟨h.joins, (h.yields 0 (Nat.le_of_eq hnesting)).mono fun made hmade levels => ?_⟩
  have hjoins : ¬phrase.joins = true := by rw [h.joins, hgroup]; exact Bool.false_ne_true
  rw [Stands, if_neg hjoins] at hmade ⊢
  rw [hnesting]
  exact ⟨fun _ => Nat.zero_le _, fun hle => hmade.mono hle⟩

theorem expression (h : Fits phrase filter) : Yields phrase.text fun made =>
    ∀ levels, Expression (Operand levels) made filter ↔ filter.nesting ≤ levels := by
  apply h.yields.mono
  intro made hmade levels
  rw [← hmade levels, Stands]
  have hself := (hmade _).2 (Nat.le_refl _)
  unfold Stands at hself
  split at hself
  · rw [if_pos ‹_›]
  · rw [if_neg ‹_›, expression_of_conjunction (Chain.single hself), conjunction_of_operand hself]

/-- In parentheses it is an operand that needs one more level. -/
theorem inParentheses (h : Fits phrase filter) :
    Yields (Phrase.inParentheses phrase.text) fun made =>
      ∀ levels, Operand levels made filter ↔ filter.nesting + 1 ≤ levels := by
  intro rest hrest
  have hclosed := (h.expression (apart_cons (.inr (.inr (.inr rfl))) _)).append (yields_close rest)
  apply ((yields_open _).append hclosed).mono
  rintro made ⟨_, _, rfl, ⟨opening, rfl, hopening⟩, inner, _, rfl, hinner, closing, rfl, hclosing⟩
    levels
  rw [List.singleton_append, operand_parentheses_iff hopening hclosing]
  exact exists_succ_iff hinner

theorem asOperand (h : Fits phrase filter) : Yields phrase.asOperand fun made =>
    ∀ levels, Operand levels made filter ↔ operandNesting filter ≤ levels := by
  rw [Phrase.asOperand, operandNesting, ← h.joins]
  split
  · exact h.inParentheses
  · rename_i hjoins
    simpa only [Stands, if_neg hjoins, Nat.add_zero] using h.yields

theorem not (h : Fits phrase filter) :
    Fits ⟨"NOT ".toList ++ Phrase.inParentheses phrase.text, false⟩ (.not filter) := by
  have hnot : Yields "NOT".toList (One fun token => token.isKeyword "NOT" = true) :=
    yields_keyword_self (by decide)
  refine ⟨rfl, (hnot.space h.inParentheses).mono ?_⟩
  rintro made ⟨_, rest, rfl, ⟨negation, rfl, hnegation⟩, hoperand⟩ levels
  change Operand levels (negation :: rest) (.not filter) ↔ filter.nesting + 1 + 1 ≤ levels
  rw [operand_negation_iff hnegation]
  exact exists_succ_iff hoperand

theorem operands {phrases : List Phrase} {filters : List Filter}
    (h : List.Forall₂ Fits phrases filters) :
    List.Forall₂ (fun text filter => Yields text fun made =>
      ∀ levels, Operand levels made filter ↔ operandNesting filter ≤ levels)
      (phrases.map Phrase.asOperand) filters := by
  induction h with
  | nil => exact .nil
  | cons hfirst _ ih => exact .cons hfirst.asOperand ih

/-- A group fits if it is derived within the levels that its operands need. -/
theorem group {word separator : String} (hword : isWord word.toList = true)
    (hseparator : separator.toList = ' ' :: word.toList ++ [' ']) {join : List Filter → Filter}
    (hgroup : ∀ operands, (join operands).isGroup = true)
    (hnesting : ∀ operands, (join operands).nesting = Filter.operandsNesting operands)
    (hexpression : ∀ {made others first second filters levels},
      (∀ levels, Operand levels made first ↔ operandNesting first ≤ levels) →
      More word (fun made filter => ∀ levels, Operand levels made filter ↔
        operandNesting filter ≤ levels) others (second :: filters) →
      (Expression (Operand levels) (made ++ others) (join (first :: second :: filters)) ↔
        ∀ filter ∈ first :: second :: filters, operandNesting filter ≤ levels))
    {phrases : List Phrase} {filters : List Filter} (h : List.Forall₂ Fits phrases filters)
    (hphrase : Phrase.group? separator phrases = some phrase) :
    Fits phrase (Filter.joined join filters) := by
  cases h with
  | nil => cases hphrase
  | @cons first filter more filters hfirst hmore =>
    cases hmore with
    | nil =>
      cases hphrase
      exact hfirst
    | @cons second filter' more filters hsecond hmore =>
      cases hphrase
      refine ⟨(hgroup _).symm, ?_⟩
      have hoperands := Fits.operands (.cons hfirst (.cons hsecond hmore))
      rw [List.map_cons, List.forall₂_cons] at hoperands
      have hbehind := yields_behind hword hoperands.2 hoperands.1
      rw [← intercalate_cons, ← hseparator] at hbehind
      apply hbehind.mono
      rintro made ⟨before, later, rfl, hbefore, hlater⟩ levels
      change _ ↔ (join (filter :: filter' :: filters)).nesting ≤ levels
      rw [hnesting, operandsNesting_le_iff]
      exact hexpression hbefore hlater

end Fits

theorem fits_and {phrases : List Phrase} {filters : List Filter}
    (h : List.Forall₂ Fits phrases filters) {phrase : Phrase}
    (hphrase : Phrase.group? " AND " phrases = some phrase) :
    Fits phrase (Filter.joined .and filters) := by
  have hword : isWord "AND".toList = true := by decide
  apply Fits.group hword rfl (fun _ => rfl) (fun _ => rfl) _ h hphrase
  intro made others first second filters levels hfirst hothers
  have hchain := definite_operand.chain_iff nofun (fun _ _ => Filter.and.inj) hfirst hothers
  have hsome := (hchain _).2 (operandsNesting_le_iff.1 (Nat.le_refl _))
  rw [expression_of_conjunction hsome]
  exact hchain levels

theorem fits_or {phrases : List Phrase} {filters : List Filter}
    (h : List.Forall₂ Fits phrases filters) {phrase : Phrase}
    (hphrase : Phrase.group? " OR " phrases = some phrase) :
    Fits phrase (Filter.joined .or filters) := by
  have hword : isWord "OR".toList = true := by decide
  apply Fits.group hword rfl (fun _ => rfl) (fun _ => rfl) _ h hphrase
  intro made others first second filters levels hfirst hothers
  -- Each operand is a conjunction of one, which needs what the operand needs.
  have hconjunction : ∀ {made filter}, (∀ levels, Operand levels made filter ↔
      operandNesting filter ≤ levels) → ∀ levels, Conjunction levels made filter ↔
        operandNesting filter ≤ levels := fun hoperand levels =>
    (conjunction_of_operand ((hoperand _).2 (Nat.le_refl _))).trans (hoperand levels)
  exact definite_conjunction.chain_iff (by simp +decide) (fun _ _ => Filter.or.inj)
    (hconjunction hfirst) (hothers.imp fun _ _ _ => hconjunction) levels

mutual

theorem fits_of_phrase? : ∀ {filter : Filter}, (∀ leaf ∈ filter.leaves, leaf.Expressible) →
    ∀ {phrase : Phrase}, phrase? filter = some phrase → Fits phrase filter.normalForm
  | .and operands, h, phrase, hphrase => by
    rw [phrase?] at hphrase
    rw [Filter.normalForm]
    exact fits_and (fits_of_phrases h) hphrase
  | .or operands, h, phrase, hphrase => by
    rw [phrase?] at hphrase
    rw [Filter.normalForm]
    exact fits_or (fits_of_phrases h) hphrase
  | .not operand, h, phrase, hphrase => by
    rw [phrase?, Option.map_eq_some_iff] at hphrase
    obtain ⟨inner, hinner, rfl⟩ := hphrase
    have hempty : ¬operand.isEmpty = true := by
      rw [← phrase?_eq_none_iff, hinner]
      simp
    have hoperand : ∀ leaf ∈ operand.leaves, leaf.Expressible := h
    rw [Filter.normalForm, if_neg hempty]
    exact (fits_of_phrase? hoperand hinner).not
  | .compare .., h, _, hphrase => .of_reads (reads_of_phrase? h hphrase) rfl rfl
  | .between .., h, _, hphrase => .of_reads (reads_of_phrase? h hphrase) rfl rfl
  | .isNull .., h, _, hphrase => .of_reads (reads_of_phrase? h hphrase) rfl rfl
  | .before .., h, _, hphrase => .of_reads (reads_of_phrase? h hphrase) rfl rfl
  | .after .., h, _, hphrase => .of_reads (reads_of_phrase? h hphrase) rfl rfl
  | .during .., h, _, hphrase => .of_reads (reads_of_phrase? h hphrase) rfl rfl
  | .intersects .., h, _, hphrase => .of_reads (reads_of_phrase? h hphrase) rfl rfl
  | .within .., h, _, hphrase => .of_reads (reads_of_phrase? h hphrase) rfl rfl

theorem fits_of_phrases : ∀ {operands : List Filter},
    (∀ leaf ∈ Filter.allLeaves operands, leaf.Expressible) →
    List.Forall₂ Fits (phrases operands) (Filter.normalForms operands)
  | [], _ => .nil
  | operand :: operands, h => by
    have hfirst : ∀ leaf ∈ operand.leaves, leaf.Expressible := fun leaf hleaf =>
      h leaf (List.mem_append_left _ hleaf)
    have hmore : ∀ leaf ∈ Filter.allLeaves operands, leaf.Expressible := fun leaf hleaf =>
      h leaf (List.mem_append_right _ hleaf)
    have hempty := phrase?_eq_none_iff operand
    rw [phrases, Filter.normalForms]
    split
    · rename_i hnone
      rw [if_pos (hempty.1 hnone)]
      exact fits_of_phrases hmore
    · rename_i phrase hsome
      rw [hsome] at hempty
      rw [if_neg (by simp [← hempty])]
      exact .cons (fits_of_phrase? hfirst hsome) (fits_of_phrases hmore)

end

/-- The text of a filter that is not empty yields tokens from which its normal form derives,
just as deep as that is nested. -/
theorem exists_tokens_toText {filter : Filter} (hleaves : ∀ leaf ∈ filter.leaves, leaf.Expressible)
    (hempty : filter.isEmpty = false) :
    ∃ made, tokens 0 (toText filter).toList = .ok made ∧
      ∀ levels, Expression (Operand levels) made filter.normalForm ↔
        filter.normalForm.nesting ≤ levels := by
  cases hphrase : phrase? filter with
  | none =>
    rw [(phrase?_eq_none_iff filter).1 hphrase] at hempty
    cases hempty
  | some phrase =>
    obtain ⟨made, hcuts, hmade⟩ :=
      (fits_of_phrase? hleaves hphrase).expression apart_nil 0 [] blank_nil
    have htext : (toText filter).toList = phrase.text := by
      rw [toText, write, String.toList_ofList, hphrase]
    exact ⟨made, htext ▸ hcuts.whole, hmade⟩

theorem isBlankString_toText {filter : Filter} (hleaves : ∀ leaf ∈ filter.leaves, leaf.Expressible)
    (hempty : filter.isEmpty = false) : Text.isBlankString (toText filter) = false := by
  obtain ⟨made, htokens, hmade⟩ := exists_tokens_toText hleaves hempty
  cases hblank : Text.isBlankString (toText filter) with
  | false => rfl
  | true =>
    rw [tokens_of_blank (List.all_eq_true.1 hblank)] at htokens
    cases htokens
    exact absurd rfl (ne_nil_of_expression ((hmade _).2 (Nat.le_refl _)))

/-- The text of a filter is read just if its normal form is nested within the limit, and then
as that form. -/
theorem parse_toText_eq_ok_iff {filter other : Filter}
    (hleaves : ∀ leaf ∈ filter.leaves, leaf.Expressible) :
    parse (toText filter) = .ok other ↔
      filter.normalForm.nesting ≤ nestingLimit ∧ other = filter.normalForm := by
  constructor
  · intro h
    cases hempty : filter.isEmpty with
    | true =>
      have hnesting : filter.normalForm.nesting ≤ nestingLimit := by
        rw [Filter.normalForm_of_isEmpty hempty]
        exact Nat.zero_le _
      rw [parse_toText hleaves hnesting] at h
      exact ⟨hnesting, (Except.ok.inj h).symm⟩
    | false =>
      obtain ⟨made, htokens, hmade⟩ := exists_tokens_toText hleaves hempty
      have hself := (hmade _).2 (Nat.le_refl _)
      rw [parse, htokens, Except.bind] at h
      split at h <;> cases h
      rename_i hquery
      obtain ⟨rfl, -⟩ | hother := derivation_of_query hquery
      · exact absurd rfl (ne_nil_of_expression hself)
      · have hnil : Stops ["OR", "AND"] [] := nofun
        obtain ⟨-, rfl⟩ := definite_expression hself hother rfl hnil hnil
        exact ⟨(hmade _).1 hother, rfl⟩
  · rintro ⟨hnesting, rfl⟩
    exact parse_toText hleaves hnesting

end CatalogSearch.Cql
