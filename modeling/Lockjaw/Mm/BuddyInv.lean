/-
  Lockjaw.Mm.BuddyInv

  The invariant of the buddy allocator.  The set bits of the bitmaps are a
  family of dyadic blocks; `Consistent` says that the family is good, that
  every added page is either in a free block or handed out, and that the free
  count is the number of pages in free blocks.

  Between the two ends of an operation one block is in the allocator's hands:
  `Pending`.  `free` merges the pending block upward and records it, `alloc`
  splits it downward and hands it out.
-/

import Lockjaw.Mm.Buddy

namespace Lockjaw.Mm

open Lib.Dyadic

/-! ## Positions of the bits -/

/-- The bit of block `i` lies in the bitmap of order `k`. -/
def Valid (k i : Nat) : Prop := i / 8 < bitmapBytesForOrder k

theorem valid_of_inside {k i : Nat} (h : (i + 1) * 2 ^ k ≤ maxPages) : Valid k i := by
  have hlt : i + 1 ≤ maxPages / 2 ^ k := (Nat.le_div_iff_mul_le (Nat.two_pow_pos k)).mpr h
  unfold Valid bitmapBytesForOrder
  rw [Nat.shiftRight_eq_div_pow]
  dsimp only
  omega

variable {k' : Nat}

theorem bitmapOffset_le {k : Nat} (h : k < k') :
    bitmapOffset k + bitmapBytesForOrder k ≤ bitmapOffset k' := by
  induction k' with
  | zero => omega
  | succ n ih => grind [bitmapOffset]

/-- Two blocks have different bits. -/
theorem bit_inj {k i i' : Nat} (hi : Valid k i) (hi' : Valid k' i') :
    (bitmapOffset k' + i' / 8 = bitmapOffset k + i / 8 ∧ i' % 8 = i % 8) ↔ (k' = k ∧ i' = i) := by
  unfold Valid at hi hi'
  constructor
  · rintro ⟨hoff, hmod⟩
    have hk : k' = k := by
      rcases Nat.lt_trichotomy k' k with h | h | h
      · have := bitmapOffset_le h
        omega
      · exact h
      · have := bitmapOffset_le h
        omega
    subst hk
    exact ⟨rfl, by omega⟩
  · rintro ⟨rfl, rfl⟩
    exact ⟨rfl, rfl⟩

namespace BuddyAllocator

variable {b : BuddyAllocator} {k i p n : Nat}

/-- The recorded free blocks. -/
def blocks (b : BuddyAllocator) : Family := fun k i =>
  k ≤ maxOrder ∧ Valid k i ∧ b.isFree k i = true

theorem blocks_setBit (hk : k ≤ maxOrder) (hi : Valid k i) :
    (b.setBit k i).blocks = put b.blocks k i := by
  funext k' i'
  apply propext
  unfold blocks put
  have hset : (b.setBit k i).isFree k' i' = (decide (bitmapOffset k' + i' / 8
      = bitmapOffset k + i / 8 ∧ i' % 8 = i % 8) || b.isFree k' i') :=
    Bytes.test_set _ (Nat.mod_lt _ (by omega)) (Nat.mod_lt _ (by omega))
  constructor
  · rintro ⟨hk', hi', hf⟩
    rw [hset, Bool.or_eq_true, decide_eq_true_iff, bit_inj hi hi'] at hf
    rcases hf with hf | hf
    · exact .inl hf
    · exact .inr ⟨hk', hi', hf⟩
  · grind

theorem blocks_clearBit (hi : Valid k i) : (b.clearBit k i).blocks = drop b.blocks k i := by
  funext k' i'
  apply propext
  unfold blocks drop
  have hclear : (b.clearBit k i).isFree k' i' = (b.isFree k' i' && !decide (bitmapOffset k' + i' / 8
      = bitmapOffset k + i / 8 ∧ i' % 8 = i % 8)) :=
    Bytes.test_clear _ (Nat.mod_lt _ (by omega)) (Nat.mod_lt _ (by omega))
  constructor
  · grind
  · rintro ⟨⟨hk', hi', hf⟩, hne⟩
    refine ⟨hk', hi', ?_⟩
    rw [hclear, hf, Bool.true_and, Bool.not_eq_true', decide_eq_false_iff_not, bit_inj hi hi']
    exact hne

theorem isAllocated_setAllocated (q : Nat) :
    (b.setAllocated p).isAllocated q = (decide (q = p) || b.isAllocated q) := by
  have hset : (b.setAllocated p).isAllocated q
      = (decide (q / 8 = p / 8 ∧ q % 8 = p % 8) || b.isAllocated q) :=
    Bytes.test_set _ (Nat.mod_lt _ (by omega)) (Nat.mod_lt _ (by omega))
  grind

theorem isAllocated_clearAllocated (q : Nat) :
    (b.clearAllocated p).isAllocated q = (b.isAllocated q && !decide (q = p)) := by
  have hclear : (b.clearAllocated p).isAllocated q
      = (b.isAllocated q && !decide (q / 8 = p / 8 ∧ q % 8 = p % 8)) :=
    Bytes.test_clear _ (Nat.mod_lt _ (by omega)) (Nat.mod_lt _ (by omega))
  grind

/-- Nothing but the allocated bitmap changes, and there the range is set. -/
theorem setAllocatedRange_spec (n : Nat) : ∀ (b : BuddyAllocator) (p : Nat),
    ∃ m, b.setAllocatedRange n p = { b with allocated := m } ∧
      ∀ q, (b.setAllocatedRange n p).isAllocated q
        = (decide (p ≤ q ∧ q < p + n) || b.isAllocated q) := by
  induction n with
  | zero =>
    intro b p
    refine ⟨b.allocated, rfl, fun q => ?_⟩
    have hno : ¬ (p ≤ q ∧ q < p + 0) := by omega
    rw [setAllocatedRange, decide_eq_false hno, Bool.false_or]
  | succ n ih =>
    intro b p
    obtain ⟨m, heq, hq⟩ := ih (b.setAllocated p) (p + 1)
    refine ⟨m, heq, fun q => ?_⟩
    grind [isAllocated_setAllocated, setAllocatedRange]

/-- Unmarking succeeds on marked pages only, and unmarks exactly the range. -/
theorem clearAllocatedRange_spec (n : Nat) : ∀ (b : BuddyAllocator) (p : Nat) {b' : BuddyAllocator},
    b.clearAllocatedRange n p = some b' →
    ∃ m, b' = { b with allocated := m } ∧ (∀ q, p ≤ q → q < p + n → b.isAllocated q = true) ∧
      ∀ q, b'.isAllocated q = (b.isAllocated q && !decide (p ≤ q ∧ q < p + n)) := by
  induction n with
  | zero =>
    intro b p b' h
    cases h
    grind
  | succ n ih =>
    intro b p b' h
    rw [clearAllocatedRange] at h
    split at h
    · rename_i hp
      obtain ⟨m, heq, hall, hq⟩ := ih _ _ h
      refine ⟨m, heq, fun q h1 h2 => ?_, fun q => ?_⟩
      · by_cases hqp : q = p
        · rw [hqp]; exact hp
        · have := hall q (by omega) (by omega)
          rw [isAllocated_clearAllocated, Bool.and_eq_true] at this
          exact this.1
      · grind [isAllocated_clearAllocated]
    · cases h

/-- Unmarking a range of marked pages succeeds. -/
theorem clearAllocatedRange_isSome (n : Nat) : ∀ (b : BuddyAllocator) (p : Nat),
    (∀ q, p ≤ q → q < p + n → b.isAllocated q = true) →
    (b.clearAllocatedRange n p).isSome := by
  induction n with
  | zero => intro b p _; rfl
  | succ n ih =>
    intro b p h
    rw [clearAllocatedRange, if_pos (h p (by omega) (by omega))]
    grind [isAllocated_clearAllocated]

/-! ## Pages in free blocks -/

/-- Page `p` lies in a recorded free block. -/
def isCovered (b : BuddyAllocator) (p : Nat) : Bool :=
  (List.range (maxOrder + 1)).any fun k => b.isFree k (p >>> k)

/-- The pages in free blocks. -/
def coveredPages (b : BuddyAllocator) : Finset Nat :=
  (Finset.range b.totalPages).filter fun p => b.isCovered p = true

theorem valid_of_page (hk : k ≤ maxOrder) (hp : p < maxPages) : Valid k (p / 2 ^ k) := by
  have hdvd : 2 ^ k ∣ maxPages := Nat.pow_dvd_pow 2 hk
  apply valid_of_inside
  obtain ⟨c, hc⟩ := hdvd
  have hlt : p / 2 ^ k < c := Nat.div_lt_of_lt_mul (hc ▸ hp)
  calc (p / 2 ^ k + 1) * 2 ^ k ≤ c * 2 ^ k := Nat.mul_le_mul_right _ hlt
    _ = maxPages := by rw [hc, Nat.mul_comm]

theorem isCovered_iff (hp : p < maxPages) : b.isCovered p = true ↔ Covers b.blocks p := by
  unfold isCovered Covers blocks
  simp only [List.any_eq_true, List.mem_range, Nat.shiftRight_eq_div_pow]
  grind [valid_of_page]

theorem mem_coveredPages (ht : b.totalPages ≤ maxPages) (hg : Good maxOrder b.totalPages b.blocks) :
    p ∈ b.coveredPages ↔ Covers b.blocks p := by
  grind [hg.lt_of_covers, coveredPages, isCovered_iff]

variable {b' : BuddyAllocator}

section

variable (ht : b.totalPages ≤ maxPages) (hsame : b'.totalPages = b.totalPages)
  (hg : Good maxOrder b.totalPages b.blocks)
include ht hsame hg

/-- Recording a block adds its pages to the free ones. -/
theorem card_coveredPages_put
    (hg' : Good maxOrder b.totalPages b'.blocks) (hblocks : b'.blocks = put b.blocks k i)
    (ha : Apart b.blocks k i) : b'.coveredPages.card = b.coveredPages.card + 2 ^ k := by
  have hunion : b'.coveredPages = b.coveredPages ∪ pages k i := by
    ext p
    rw [Finset.mem_union, mem_coveredPages (hsame ▸ ht) (hsame ▸ hg'), mem_coveredPages ht hg,
      hblocks, covers_put, mem_pages]
    exact or_comm
  have hdisj : Disjoint b.coveredPages (pages k i) := by
    rw [Finset.disjoint_left]
    intro p hp hmem
    rw [mem_coveredPages ht hg] at hp
    exact ha p (mem_pages.mp hmem) hp
  rw [hunion, Finset.card_union_of_disjoint hdisj, card_pages]

/-- Taking a block removes its pages from the free ones. -/
theorem card_coveredPages_drop (hblocks : b'.blocks = drop b.blocks k i) (hi : b.blocks k i) :
    b'.coveredPages.card + 2 ^ k = b.coveredPages.card := by
  have hg' : Good maxOrder b'.totalPages b'.blocks := by
    rw [hsame, hblocks]
    exact hg.drop k i
  have hback : b.blocks = put b'.blocks k i := by
    rw [hblocks]
    exact (put_drop hi).symm
  rw [← card_coveredPages_put (hsame ▸ ht) hsame.symm hg' (hsame ▸ hg) hback]
  rw [hblocks]
  exact hg.apart_drop hi

end

/-! ## The invariant -/

/-- The pages `added` so far are the ones in the allocator's `hands`, those in
    free blocks and those handed out, each in one of the three. -/
structure Holds (added hands : Nat → Prop) (b : BuddyAllocator) : Prop where
  total : b.totalPages ≤ maxPages
  good : Good maxOrder b.totalPages b.blocks
  inside : ∀ p, added p → p < b.totalPages
  added_iff : ∀ p, added p ↔ hands p ∨ Covers b.blocks p ∨ b.isAllocated p = true
  hands_apart : ∀ p, hands p → ¬ Covers b.blocks p ∧ b.isAllocated p = false
  free_apart : ∀ p, Covers b.blocks p → b.isAllocated p = false
  count : b.freeCount = b.coveredPages.card

/-- Between two operations nothing is in the allocator's hands. -/
abbrev Consistent (added : Nat → Prop) (b : BuddyAllocator) : Prop := Holds added (fun _ => False) b

/-- Block `(k, i)` is in the allocator's hands. -/
structure Pending (added : Nat → Prop) (k i : Nat) (b : BuddyAllocator) : Prop
    extends Holds added (fun p => p / 2 ^ k = i) b where
  order : k ≤ maxOrder
  block : (i + 1) * 2 ^ k ≤ b.totalPages

variable {added hands : Nat → Prop}

theorem Pending.apart (h : Pending added k i b) : Apart b.blocks k i :=
  fun p hp => (h.hands_apart p hp).1

theorem Pending.valid (h : Pending added k i b) : Valid k i :=
  valid_of_inside (Nat.le_trans h.block h.total)

/-- The block in hands is recorded, when its buddy is not free. -/
theorem Pending.place (h : Pending added k i b) (hb : k < maxOrder → ¬ b.blocks k (buddy i)) :
    Consistent added { b.setBit k i with freeCount := b.freeCount + 2 ^ k } := by
  have hblocks : (b.setBit k i).blocks = put b.blocks k i := blocks_setBit h.order h.valid
  have hgood : Good maxOrder b.totalPages (b.setBit k i).blocks := by
    rw [hblocks]
    exact h.good.put h.order h.block h.apart hb
  have hcovers : ∀ p, Covers (b.setBit k i).blocks p ↔ p / 2 ^ k = i ∨ Covers b.blocks p := by
    intro p
    rw [hblocks, covers_put]
  constructor
  · exact h.total
  · exact hgood
  · exact h.inside
  · intro p
    rw [h.added_iff p]
    change _ ↔ False ∨ Covers (b.setBit k i).blocks p ∨ b.isAllocated p = true
    rw [hcovers p, false_or, or_assoc]
  · intro p hp
    exact hp.elim
  · intro p hp
    change b.isAllocated p = false
    rcases (hcovers p).mp hp with hp | hp
    · exact (h.hands_apart p hp).2
    · exact h.free_apart p hp
  · have hcard : (b.setBit k i).coveredPages.card = b.coveredPages.card + 2 ^ k :=
      card_coveredPages_put h.total rfl h.good hgood hblocks h.apart
    change b.freeCount + 2 ^ k = (b.setBit k i).coveredPages.card
    rw [hcard, h.count]

/-- A free block is taken into the hands. -/
theorem Holds.take (h : Consistent added b) (hi : b.blocks k i) :
    Pending added k i { b.clearBit k i with freeCount := b.freeCount - 2 ^ k } := by
  have hblocks : (b.clearBit k i).blocks = drop b.blocks k i := blocks_clearBit hi.2.1
  have hcovers : ∀ p, Covers (b.clearBit k i).blocks p ↔ Covers b.blocks p ∧ p / 2 ^ k ≠ i := by
    intro p
    rw [hblocks, covers_drop h.good.separate hi]
  have hmem : ∀ p, p / 2 ^ k = i → Covers b.blocks p := fun p hp => ⟨k, by rw [hp]; exact hi⟩
  refine ⟨⟨h.total, ?_, h.inside, ?_, ?_, ?_, ?_⟩, hi.1, (h.good.inside k i hi).2⟩
  · change Good maxOrder b.totalPages (b.clearBit k i).blocks
    rw [hblocks]
    exact h.good.drop k i
  · intro p
    rw [h.added_iff p]
    change _ ↔ p / 2 ^ k = i ∨ Covers (b.clearBit k i).blocks p ∨ b.isAllocated p = true
    rw [hcovers p]
    have := hmem p
    tauto
  · intro p hp
    refine ⟨?_, h.free_apart p (hmem p hp)⟩
    change ¬ Covers (b.clearBit k i).blocks p
    rw [hcovers p]
    exact fun hc => hc.2 hp
  · intro p hp
    exact h.free_apart p ((hcovers p).mp hp).1
  · have hcard : (b.clearBit k i).coveredPages.card + 2 ^ k = b.coveredPages.card :=
      card_coveredPages_drop h.total rfl h.good hblocks hi
    change b.freeCount - 2 ^ k = (b.clearBit k i).coveredPages.card
    rw [h.count]
    omega

/-- The free buddy of the block in hands joins it. -/
theorem Pending.merge (h : Pending added k i b) (hlt : k < maxOrder) (hb : b.blocks k (buddy i)) :
    Pending added (k + 1) (i / 2)
      { b.clearBit k (buddy i) with freeCount := b.freeCount - 2 ^ k } := by
  have hblocks : (b.clearBit k (buddy i)).blocks = drop b.blocks k (buddy i) :=
    blocks_clearBit hb.2.1
  have hsub : ∀ p, Covers (b.clearBit k (buddy i)).blocks p → Covers b.blocks p := by
    intro p hc
    rw [hblocks, covers_drop h.good.separate hb] at hc
    exact hc.1
  have hbuddy : ∀ p, p / 2 ^ k = buddy i → Covers b.blocks p :=
    fun p hp => ⟨k, by rw [hp]; exact hb⟩
  refine ⟨⟨h.total, ?_, h.inside, ?_, ?_, ?_, ?_⟩, hlt,
    parent_inside h.block (h.good.inside k _ hb).2⟩
  · change Good maxOrder b.totalPages (b.clearBit k (buddy i)).blocks
    rw [hblocks]
    exact h.good.drop k _
  · intro p
    rw [h.added_iff p]
    change _ ↔ p / 2 ^ (k + 1) = i / 2 ∨ Covers (b.clearBit k (buddy i)).blocks p ∨
      b.isAllocated p = true
    rw [← or_assoc, ← or_assoc, hblocks, merge_covers h.good.separate hb]
  · intro p hp
    constructor
    · change ¬ Covers (b.clearBit k (buddy i)).blocks p
      rw [hblocks]
      exact h.apart.merge h.good.separate hb p hp
    · rw [div_pow_succ] at hp
      rcases eq_or_eq_buddy hp with hp | hp
      · exact (h.hands_apart p hp).2
      · exact h.free_apart p (hbuddy p hp)
  · intro p hp
    exact h.free_apart p (hsub p hp)
  · have hcard : (b.clearBit k (buddy i)).coveredPages.card + 2 ^ k = b.coveredPages.card :=
      card_coveredPages_drop h.total rfl h.good hblocks hb
    change b.freeCount - 2 ^ k = (b.clearBit k (buddy i)).coveredPages.card
    rw [h.count]
    omega

theorem buddy_right (i : Nat) : buddy (2 * i + 1) = 2 * i := by
  have h1 := buddy_div_two (2 * i + 1)
  have h2 := buddy_mod_two (2 * i + 1)
  omega

/-- The right half of the block in hands becomes a free block. -/
theorem Pending.split (h : Pending added (k + 1) i b) :
    Pending added k (2 * i) { b.setBit k (2 * i + 1) with freeCount := b.freeCount + 2 ^ k } := by
  have hend : (2 * i + 1 + 1) * 2 ^ k = (i + 1) * 2 ^ (k + 1) := by
    rw [Nat.pow_succ, Nat.mul_comm (2 ^ k) 2, ← Nat.mul_assoc]
    congr 1
    omega
  have hright : (2 * i + 1 + 1) * 2 ^ k ≤ b.totalPages := hend ▸ h.block
  have hleft : (2 * i + 1) * 2 ^ k ≤ b.totalPages :=
    Nat.le_trans (Nat.mul_le_mul_right _ (by omega)) hright
  have hk : k ≤ maxOrder := Nat.le_of_succ_le h.order
  have hblocks : (b.setBit k (2 * i + 1)).blocks = put b.blocks k (2 * i + 1) :=
    blocks_setBit hk (valid_of_inside (Nat.le_trans hright h.total))
  have hrightApart : Apart b.blocks k (2 * i + 1) := h.apart.half (by omega)
  have hgood : Good maxOrder b.totalPages (b.setBit k (2 * i + 1)).blocks := by
    rw [hblocks]
    refine h.good.put hk hright hrightApart fun _ => ?_
    rw [buddy_right]
    exact (h.apart.half (by omega)).not_mem
  -- the pages of the block are those of its two halves
  have hparent : ∀ p, p / 2 ^ (k + 1) = i ↔ p / 2 ^ k = 2 * i ∨ p / 2 ^ k = 2 * i + 1 := by
    intro p
    rw [div_pow_succ]
    omega
  refine ⟨⟨h.total, hgood, h.inside, ?_, ?_, ?_, ?_⟩, hk, hleft⟩
  · intro p
    rw [h.added_iff p, hparent p]
    change _ ↔ p / 2 ^ k = 2 * i ∨ Covers (b.setBit k (2 * i + 1)).blocks p ∨
      b.isAllocated p = true
    rw [hblocks, covers_put, or_assoc, or_assoc]
  · intro p hp
    constructor
    · change ¬ Covers (b.setBit k (2 * i + 1)).blocks p
      rw [hblocks]
      exact h.apart.split p hp
    · exact (h.hands_apart p ((hparent p).mpr (.inl hp))).2
  · intro p hp
    change Covers (b.setBit k (2 * i + 1)).blocks p at hp
    rw [hblocks, covers_put] at hp
    rcases hp with hp | hp
    · exact (h.hands_apart p ((hparent p).mpr (.inr hp))).2
    · exact h.free_apart p hp
  · have hcard : (b.setBit k (2 * i + 1)).coveredPages.card = b.coveredPages.card + 2 ^ k :=
      card_coveredPages_put h.total rfl h.good hgood hblocks hrightApart
    change b.freeCount + 2 ^ k = (b.setBit k (2 * i + 1)).coveredPages.card
    rw [hcard, h.count]

/-- The pages of a block are a range. -/
theorem mem_block_iff (q : Nat) : (i * 2 ^ k ≤ q ∧ q < i * 2 ^ k + 2 ^ k) ↔ q / 2 ^ k = i := by
  have h : q ∈ pages k i ↔ q / 2 ^ k = i := mem_pages
  rw [← h, pages, Finset.mem_Ico, Nat.add_mul, Nat.one_mul]

/-- A change of the allocated bitmap alone. -/
theorem Holds.of_allocated {m : Bytes} {added' hands' : Nat → Prop} (h : Holds added hands b)
    (hinside : ∀ p, added' p → p < b.totalPages)
    (hadded : ∀ p, added' p ↔ hands' p ∨ Covers b.blocks p ∨
      ({ b with allocated := m } : BuddyAllocator).isAllocated p = true)
    (hhands : ∀ p, hands' p → ¬ Covers b.blocks p ∧
      ({ b with allocated := m } : BuddyAllocator).isAllocated p = false)
    (hfree : ∀ p, Covers b.blocks p →
      ({ b with allocated := m } : BuddyAllocator).isAllocated p = false) :
    Holds added' hands' { b with allocated := m } :=
  ⟨h.total, h.good, hinside, hadded, hhands, hfree, h.count⟩

/-- The block in hands is handed out. -/
theorem Pending.handOut (h : Pending added k i b) :
    Consistent added (b.setAllocatedRange (2 ^ k) (i * 2 ^ k)) := by
  obtain ⟨m, heq, hq⟩ := setAllocatedRange_spec (2 ^ k) b (i * 2 ^ k)
  rw [heq] at hq ⊢
  simp only [mem_block_iff] at hq
  apply h.toHolds.of_allocated h.inside
  · intro p
    rw [h.added_iff p, hq p, Bool.or_eq_true, decide_eq_true_iff]
    tauto
  · intro p hp
    exact hp.elim
  · intro p hp
    rw [hq p, h.free_apart p hp, Bool.or_false, decide_eq_false_iff_not]
    exact fun heq => h.apart p heq hp

/-- Pages handed out come back as one block. -/
theorem Holds.release (h : Consistent added b) (hk : k ≤ maxOrder)
    (hle : (i + 1) * 2 ^ k ≤ b.totalPages)
    (hclear : b.clearAllocatedRange (2 ^ k) (i * 2 ^ k) = some b') : Pending added k i b' := by
  obtain ⟨m, rfl, hall, hq⟩ := clearAllocatedRange_spec _ _ _ hclear
  simp only [mem_block_iff] at hq
  have hmarked : ∀ p, p / 2 ^ k = i → b.isAllocated p = true := by
    intro p hp
    obtain ⟨h1, h2⟩ := mem_block_iff p |>.mpr hp
    exact hall p h1 h2
  refine ⟨h.of_allocated h.inside ?_ ?_ ?_, hk, hle⟩
  all_goals grind [h.added_iff, h.free_apart]

/-- Pages that were never added are handed out at once. -/
theorem Holds.grow (h : Consistent added b) (n s : Nat) (hle : s + n ≤ b.totalPages)
    (hnew : ∀ p, s ≤ p → p < s + n → ¬ added p) :
    Consistent (fun p => added p ∨ s ≤ p ∧ p < s + n) (b.setAllocatedRange n s) := by
  obtain ⟨m, heq, hq⟩ := setAllocatedRange_spec n b s
  rw [heq] at hq ⊢
  apply h.of_allocated
  · rintro p (hp | hp)
    · exact h.inside p hp
    · omega
  all_goals grind [h.added_iff, h.free_apart]

end BuddyAllocator

end Lockjaw.Mm
