/-
  Lockjaw.Lib.Dyadic

  Families of dyadic blocks.  Block `(k, i)` is the set of numbers `p` with
  `p / 2 ^ k = i`: the `2 ^ k` numbers from `i * 2 ^ k` on.  Its buddy at the
  same order is the other half of the block `(k + 1, i / 2)`.

  A family is good below `total` when its blocks lie below `total`, no number
  is in two of them, and no block stands next to its buddy below the top order.
  `put` and `drop` keep a family good; merging and splitting are `drop` and
  `put` along a chain of parents or halves.
-/

import Mathlib.Data.Nat.Bitwise
import Mathlib.Order.Interval.Finset.Nat

namespace Lockjaw.Lib.Dyadic

/-! ## Blocks -/

/-- Index of the other half of the parent block. -/
def buddy (i : Nat) : Nat := i ^^^ 1

theorem buddy_div_two (i : Nat) : buddy i / 2 = i / 2 := by
  unfold buddy
  rw [Nat.xor_div_two]
  simp

theorem buddy_mod_two (i : Nat) : buddy i % 2 = (i + 1) % 2 := by
  unfold buddy
  rw [Nat.xor_mod_two_eq]

theorem buddy_ne (i : Nat) : buddy i ≠ i := by
  have h := buddy_mod_two i
  omega

theorem buddy_buddy (i : Nat) : buddy (buddy i) = i := by grind [buddy_div_two, buddy_mod_two]

variable {j : Nat} {F' : Family}

/-- A number of the parent is in the one half or in the other. -/
theorem eq_or_eq_buddy {i : Nat} (h : j / 2 = i / 2) : j = i ∨ j = buddy i := by
  have h1 := buddy_mod_two i
  have h2 := buddy_div_two i
  omega

theorem div_pow_succ (p k : Nat) : p / 2 ^ (k + 1) = p / 2 ^ k / 2 := by
  rw [Nat.pow_succ, Nat.div_div_eq_div_mul]

/-- The numbers of a block. -/
def pages (k i : Nat) : Finset Nat := Finset.Ico (i * 2 ^ k) ((i + 1) * 2 ^ k)

@[simp] theorem mem_pages {k i p : Nat} : p ∈ pages k i ↔ p / 2 ^ k = i := by
  have hpos : 0 < 2 ^ k := Nat.two_pow_pos k
  unfold pages
  rw [Finset.mem_Ico, ← Nat.le_div_iff_mul_le hpos, ← Nat.div_lt_iff_lt_mul hpos]
  omega

@[simp] theorem card_pages (k i : Nat) : (pages k i).card = 2 ^ k := by
  unfold pages
  rw [Nat.card_Ico, Nat.add_mul]
  omega

/-- The first number of a block. -/
theorem first_mem (k i : Nat) : i * 2 ^ k / 2 ^ k = i :=
  Nat.mul_div_cancel i (Nat.two_pow_pos k)

/-! ## Families -/

/-- A family of blocks: order and index. -/
abbrev Family := Nat → Nat → Prop

variable {F : Family} {k i p top total : Nat}

/-- Some block of the family contains `p`. -/
def Covers (F : Family) (p : Nat) : Prop := ∃ k, F k (p / 2 ^ k)

/-- No number is in two blocks. -/
def Separate (F : Family) : Prop := ∀ p k k', F k (p / 2 ^ k) → F k' (p / 2 ^ k') → k = k'

/-- Block `(k, i)` has no number in common with the family. -/
def Apart (F : Family) (k i : Nat) : Prop := ∀ p, p / 2 ^ k = i → ¬ Covers F p

def put (F : Family) (k i : Nat) : Family := fun k' i' => (k' = k ∧ i' = i) ∨ F k' i'

def drop (F : Family) (k i : Nat) : Family := fun k' i' => F k' i' ∧ ¬ (k' = k ∧ i' = i)

/-- A good family of orders up to `top` below `total`. -/
structure Good (top total : Nat) (F : Family) : Prop where
  inside : ∀ k i, F k i → k ≤ top ∧ (i + 1) * 2 ^ k ≤ total
  separate : Separate F
  coalesced : ∀ k i, k < top → F k i → ¬ F k (buddy i)

theorem covers_put : Covers (put F k i) p ↔ p / 2 ^ k = i ∨ Covers F p := by
  constructor
  · rintro ⟨k', ⟨rfl, hi⟩ | h⟩
    · exact .inl hi
    · exact .inr ⟨k', h⟩
  · rintro (hi | ⟨k', h⟩)
    · exact ⟨k, .inl ⟨rfl, hi⟩⟩
    · exact ⟨k', .inr h⟩

theorem put_drop (hi : F k i) : put (drop F k i) k i = F := by grind [drop, put]

theorem covers_drop (hs : Separate F) (hi : F k i) :
    Covers (drop F k i) p ↔ Covers F p ∧ p / 2 ^ k ≠ i := by
  constructor
  · rintro ⟨k', h, hne⟩
    refine ⟨⟨k', h⟩, fun heq => hne ?_⟩
    have hk : k' = k := hs p k' k h (by rw [heq]; exact hi)
    subst hk
    exact ⟨rfl, heq⟩
  · rintro ⟨⟨k', h⟩, hne⟩
    refine ⟨k', h, ?_⟩
    rintro ⟨rfl, heq⟩
    exact hne heq

/-- A block apart from the family is not in it. -/
theorem Apart.not_mem (ha : Apart F k i) : ¬ F k i := fun h =>
  ha (i * 2 ^ k) (first_mem k i) ⟨k, by rw [first_mem]; exact h⟩

section

variable (hg : Good top total F)
include hg

theorem Good.drop (k i : Nat) : Good top total (drop F k i) where
  inside k' i' h := hg.inside k' i' h.1
  separate p k1 k2 h₁ h₂ := hg.separate p k1 k2 h₁.1 h₂.1
  coalesced k' i' hk h hb := hg.coalesced k' i' hk h.1 hb.1

theorem Good.lt_of_covers (hc : Covers F p) : p < total := by
  obtain ⟨k, hk⟩ := hc
  have hle := (hg.inside k _ hk).2
  have hlt : p < (p / 2 ^ k + 1) * 2 ^ k := by
    rw [← Nat.div_lt_iff_lt_mul (Nat.two_pow_pos k)]
    omega
  omega

/-- After a block is dropped, it is apart from the rest. -/
theorem Good.apart_drop (hi : F k i) : Apart (Dyadic.drop F k i) k i :=
  fun _ hp hc => ((covers_drop hg.separate hi).mp hc).2 hp

theorem Good.put (hk : k ≤ top) (hle : (i + 1) * 2 ^ k ≤ total)
    (ha : Apart F k i) (hb : k < top → ¬ F k (buddy i)) : Good top total (put F k i) where
  inside k' i' h := by
    rcases h with ⟨rfl, rfl⟩ | h
    · exact ⟨hk, hle⟩
    · exact hg.inside k' i' h
  separate p k1 k2 h₁ h₂ := by
    rcases h₁ with ⟨rfl, hi1⟩ | h₁ <;> rcases h₂ with ⟨rfl, hi2⟩ | h₂
    · rfl
    · exact absurd ⟨k2, h₂⟩ (ha p hi1)
    · exact absurd ⟨k1, h₁⟩ (ha p hi2)
    · exact hg.separate p k1 k2 h₁ h₂
  coalesced k' i' hlt h hbud := by
    rcases h with ⟨rfl, rfl⟩ | h <;> rcases hbud with ⟨heq, hi'⟩ | hbud
    all_goals grind [hg.coalesced, buddy_buddy, buddy_ne]

end

/-! ## Parents and halves -/

/-- Merging: once its buddy is dropped, the parent is apart. -/
theorem Apart.merge (hs : Separate F) (ha : Apart F k i) (hb : F k (buddy i)) :
    Apart (drop F k (buddy i)) (k + 1) (i / 2) := by
  intro p hp hc
  rw [covers_drop hs hb] at hc
  rw [div_pow_succ] at hp
  rcases eq_or_eq_buddy hp with h | h
  · exact ha p h hc.1
  · exact hc.2 h

/-- The numbers of the parent, and those of the family without the buddy. -/
theorem merge_covers (hs : Separate F) (hb : F k (buddy i)) :
    p / 2 ^ (k + 1) = i / 2 ∨ Covers (drop F k (buddy i)) p ↔ p / 2 ^ k = i ∨ Covers F p := by
  rw [covers_drop hs hb, div_pow_succ]
  constructor
  · rintro (h | h)
    · rcases eq_or_eq_buddy h with h | h
      · exact .inl h
      · exact .inr ⟨k, by rw [h]; exact hb⟩
    · exact .inr h.1
  · grind [buddy_div_two]

/-- The parent of two blocks below `total` is below it. -/
theorem parent_inside (hi : (i + 1) * 2 ^ k ≤ total) (hb : (buddy i + 1) * 2 ^ k ≤ total) :
    (i / 2 + 1) * 2 ^ (k + 1) ≤ total := by
  have hmul : (i / 2 + 1) * 2 ^ (k + 1) = (i / 2 * 2 + 2) * 2 ^ k := by
    rw [Nat.pow_succ, Nat.mul_comm (2 ^ k) 2, ← Nat.mul_assoc, Nat.add_mul]
  grind [Nat.mod_two_eq_zero_or_one, buddy_div_two, buddy_mod_two]

/-- Splitting: a half of an apart block is apart from the family with the other half put into it. -/
theorem Apart.split (ha : Apart F (k + 1) i) : Apart (put F k (2 * i + 1)) k (2 * i) := by
  intro p hp hc
  rw [covers_put] at hc
  rcases hc with h | h
  · omega
  · exact ha p (by rw [div_pow_succ]; omega) h

theorem Apart.half (ha : Apart F (k + 1) i) (hj : j / 2 = i) : Apart F k j := by
  intro p hp
  apply ha p
  rw [div_pow_succ, hp, hj]

/-! ## A good family is determined by what it covers -/

/-- A block that is covered as a whole lies in one block of the family: two
    halves in the family would be buddies. -/
theorem Good.exists_block (hg : Good top total F) (hk : k ≤ top)
    (hall : ∀ p, p / 2 ^ k = i → Covers F p) : ∃ n, F (k + n) (i / 2 ^ n) := by
  induction k generalizing i with
  | zero =>
    obtain ⟨n, hn⟩ := hall i (by simp)
    exact ⟨n, by rwa [Nat.zero_add]⟩
  | succ k ih =>
    have hhalf : ∀ j, j / 2 = i → ∃ n, F (k + n) (j / 2 ^ n) := by
      intro j hj
      refine ih (by omega) fun p hp => hall p ?_
      rw [div_pow_succ, hp, hj]
    -- a block above a half is above the whole
    have hup : ∀ {j n}, j / 2 = i → F (k + (n + 1)) (j / 2 ^ (n + 1)) →
        F (k + 1 + n) (i / 2 ^ n) := by
      intro j n hj h
      rwa [Nat.pow_succ, Nat.mul_comm, ← Nat.div_div_eq_div_mul, hj,
        show k + (n + 1) = k + 1 + n by omega] at h
    obtain ⟨n, hn⟩ := hhalf (2 * i) (by omega)
    obtain ⟨m, hm⟩ := hhalf (2 * i + 1) (by omega)
    cases n with
    | succ n => exact ⟨n, hup (by omega) hn⟩
    | zero =>
      cases m with
      | succ m => exact ⟨m, hup (by omega) hm⟩
      | zero =>
        rw [Nat.pow_zero, Nat.div_one] at hn hm
        have hbud : 2 * i + 1 = buddy (2 * i) := by grind [buddy_div_two, buddy_mod_two]
        rw [hbud] at hm
        exact absurd hm (hg.coalesced k _ (by omega) hn)

section

variable (hg : Good top total F) (hg' : Good top total F') (hsame : ∀ p, Covers F p ↔ Covers F' p)
include hg hg' hsame

/-- A block of one good family is a block of every other that covers the same numbers. -/
theorem Good.mem_of_covers (h : F k i) : F' k i := by
  obtain ⟨n, hn⟩ := hg'.exists_block (hg.inside k i h).1 fun p hp =>
    (hsame p).mp ⟨k, by rw [hp]; exact h⟩
  obtain ⟨m, hm⟩ := hg.exists_block (hg'.inside _ _ hn).1 fun p hp =>
    (hsame p).mpr ⟨k + n, by rw [hp]; exact hn⟩
  -- the block of the first family above it is itself
  have hdiv : i / 2 ^ n / 2 ^ m = i * 2 ^ k / 2 ^ (k + n + m) := by
    rw [Nat.pow_add, Nat.pow_add, ← Nat.div_div_eq_div_mul, ← Nat.div_div_eq_div_mul, first_mem]
  have hsep := hg.separate (i * 2 ^ k) k (k + n + m) (by rw [first_mem]; exact h)
    (by rw [← hdiv]; exact hm)
  obtain rfl : n = 0 := by omega
  rwa [Nat.pow_zero, Nat.div_one] at hn

theorem Good.ext : F = F' := by
  funext k i
  exact propext ⟨hg.mem_of_covers hg' hsame, hg'.mem_of_covers hg fun p => (hsame p).symm⟩

end

end Lockjaw.Lib.Dyadic
