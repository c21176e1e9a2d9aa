/-!
# Checked words

A sum or a product of sixty-four bit words that passes a word wraps around.  The functions
of this module give up instead.
-/

namespace CatalogSearch.Word

/-- A number as a word, if a word holds it. -/
def ofNat? (number : Nat) : Option UInt64 :=
  if number < UInt64.size then some (.ofNat number) else none

def add? (left right : UInt64) : Option UInt64 := ofNat? (left.toNat + right.toNat)

def mul? (left right : UInt64) : Option UInt64 := ofNat? (left.toNat * right.toNat)

/-- The sum of some words, formed from the first one on. -/
def sum? (words : List UInt64) : Option UInt64 := words.foldlM add? 0

theorem ofNat?_eq_some_iff {number : Nat} {word : UInt64} :
    ofNat? number = some word ↔ word.toNat = number := by
  unfold ofNat?
  split
  · rename_i hfits
    rw [Option.some.injEq, ← UInt64.toNat_inj, UInt64.toNat_ofNat_of_lt' hfits]
    exact eq_comm
  · rename_i hpasses
    refine ⟨nofun, ?_⟩
    rintro rfl
    exact absurd word.toNat_lt_size hpasses

theorem isSome_ofNat? {number : Nat} : (ofNat? number).isSome = true ↔ number < UInt64.size := by
  unfold ofNat?
  split
  · exact ⟨fun _ => ‹_›, fun _ => rfl⟩
  · exact ⟨nofun, fun h => absurd h ‹_›⟩

theorem ofNat?_toNat (word : UInt64) : ofNat? word.toNat = some word :=
  ofNat?_eq_some_iff.2 rfl

theorem add?_eq_some_iff {left right sum : UInt64} :
    add? left right = some sum ↔ left.toNat + right.toNat < UInt64.size ∧ sum = left + right := by
  rw [add?, ofNat?_eq_some_iff]
  constructor
  · intro hsum
    have hfits : left.toNat + right.toNat < UInt64.size := hsum ▸ sum.toNat_lt_size
    refine ⟨hfits, UInt64.toNat_inj.1 ?_⟩
    rw [hsum, UInt64.toNat_add, Nat.mod_eq_of_lt hfits]
  · rintro ⟨hfits, rfl⟩
    rw [UInt64.toNat_add, Nat.mod_eq_of_lt hfits]

/-- What has passed a word does not come back by adding to it. -/
theorem ofNat?_bind_add (number more : Nat) :
    ((ofNat? number).bind fun word => ofNat? (word.toNat + more)) = ofNat? (number + more) := by
  cases hnumber : ofNat? number with
  | some word =>
    rw [← ofNat?_eq_some_iff.1 hnumber]
    rfl
  | none =>
    have hpasses : ¬number < UInt64.size := by
      rw [← isSome_ofNat?, hnumber]
      exact Bool.false_ne_true
    rw [ofNat?, if_neg fun hfits => hpasses (Nat.lt_of_le_of_lt (Nat.le_add_right _ _) hfits)]
    rfl

end CatalogSearch.Word
