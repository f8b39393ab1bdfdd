/-
  Lockjaw.Mm.BuddyCanon

  What the buddy allocator can allocate, and why its state is canonical.

  The recorded free blocks are a good family, and a good family is determined
  by the pages it covers.  So `alloc` finds a block whenever the free pages
  contain an aligned run of that size, and two states of a run with the same
  free pages have the same bitmaps, whatever the order of the operations.
-/

import Lockjaw.Mm.BuddyRun

namespace Lockjaw.Mm

open Lib.Dyadic Option

namespace BuddyAllocator

variable {b : BuddyAllocator} {k i p n page order : Nat} {added : Nat → Prop}

/-! ## The search is complete -/

theorem getLsbD_of_isFree {idx : Nat} (h : b.isFree order idx = true) :
    (b.bitmap (bitmapOffset order + idx / 8)).getLsbD (idx % 8) = true := by
  rwa [isFree, Bytes.test_eq _ _ (Nat.mod_lt _ (by omega))] at h

theorem scanBytes_none (n : Nat) : ∀ {byteIdx : Nat},
    b.scanBytes (bitmapOffset order) n byteIdx = none →
    ∀ idx, byteIdx * 8 ≤ idx → idx < (byteIdx + n) * 8 → b.isFree order idx = false := by
  induction n with
  | zero => intro byteIdx _ idx h1 h2; omega
  | succ n ih =>
    intro byteIdx h idx h1 h2
    rw [scanBytes] at h
    split at h
    · cases h
    · rename_i hx
      rw [Decidable.not_not] at hx
      by_cases hidx : idx / 8 = byteIdx
      · apply Bool.eq_false_iff.mpr
        intro hfree
        have := getLsbD_of_isFree hfree
        rw [hidx, hx] at this
        simp at this
      · exact ih h idx (by omega) (by omega)

/-- What `find_free` does not find is not there. -/
theorem findFree_none {maxBlocks idx : Nat} (h : b.findFree order maxBlocks = none)
    (hlt : idx < maxBlocks) : b.isFree order idx = false := by
  have hmask : ∀ r j : Fin 8, ((1#8 <<< r.val) - 1#8).getLsbD j.val = decide (j.val < r.val) := by
    decide
  unfold findFree at h
  dsimp only at h
  split at h
  · cases h
  · rename_i hscan
    by_cases hbyte : idx < maxBlocks / 8 * 8
    · exact scanBytes_none _ hscan idx (by omega) (by omega)
    · -- the block is in the last, partial byte
      rw [if_pos (by omega)] at h
      split at h
      · cases h
      · rename_i hx
        rw [Decidable.not_not] at hx
        apply Bool.eq_false_iff.mpr
        intro hfree
        have hbit := getLsbD_of_isFree hfree
        rw [show idx / 8 = maxBlocks / 8 by omega] at hbit
        have hand : (b.bitmap (bitmapOffset order + maxBlocks / 8) &&&
            ((1#8 <<< (maxBlocks % 8)) - 1#8)).getLsbD (idx % 8) = true := by
          rw [BitVec.getLsbD_and, hbit, hmask ⟨maxBlocks % 8, Nat.mod_lt _ (by omega)⟩
            ⟨idx % 8, Nat.mod_lt _ (by omega)⟩]
          simp only [Bool.true_and, decide_eq_true_eq]
          omega
        rw [hx] at hand
        simp at hand

/-- The search fails only if no order from the one asked for on has a block. -/
theorem searchUp_none (hg : Good maxOrder b.totalPages b.blocks) (fuel : Nat) :
    ∀ {order : Nat}, b.searchUp fuel order = none →
    ∀ found idx, order ≤ found → found < order + fuel → ¬ b.blocks found idx := by
  induction fuel with
  | zero => intro order _ found idx h1 h2; omega
  | succ fuel ih =>
    intro order h found idx h1 h2 hblock
    rw [searchUp] at h
    split at h
    · cases h
    · rename_i hfind
      by_cases heq : found = order
      · subst heq
        have hlt : idx < b.totalPages >>> found := by
          rw [Nat.shiftRight_eq_div_pow]
          exact (Nat.le_div_iff_mul_le (Nat.two_pow_pos found)).mpr (hg.inside _ _ hblock).2
        have hno := findFree_none hfind hlt
        rw [hblock.2.2] at hno
        cases hno
      · exact ih h found idx (by omega) (by omega) hblock

/-! ## The effect of an allocation -/

theorem splitDown_fields (n : Nat) : ∀ (b : BuddyAllocator) (page order : Nat),
    (b.splitDown page order n).allocated = b.allocated ∧
      (b.splitDown page order n).totalPages = b.totalPages := by
  induction n with
  | zero => intro b page order; exact ⟨rfl, rfl⟩
  | succ n ih =>
    intro b page order
    rw [splitDown]
    exact ih _ page order

/-- An allocation returns the first part of a free block of its order or more,
    and marks the pages of that part. -/
theorem alloc_some (ht : b.totalPages ≤ maxPages) (h : (b.alloc order).2 = some page) :
    order ≤ maxOrder ∧ (∃ n idx, b.blocks (order + n) idx ∧ page = idx * 2 ^ n * 2 ^ order) ∧
      (b.alloc order).1.totalPages = b.totalPages ∧
      ∀ q, (b.alloc order).1.isAllocated q
        = (decide (page ≤ q ∧ q < page + 2 ^ order) || b.isAllocated q) := by
  unfold alloc at h ⊢
  split at h
  · cases h
  · rename_i horder
    rw [if_neg horder]
    cases hsearch : b.searchUp (maxOrder + 1 - order) order with
    | none =>
      rw [hsearch] at h
      cases h
    | some found =>
      obtain ⟨found, idx⟩ := found
      rw [hsearch] at h
      cases h
      obtain ⟨hle, hblock⟩ := searchUp_some ht _ _ (by omega) hsearch
      obtain ⟨n, rfl⟩ := Nat.exists_eq_add_of_le hle
      dsimp only
      obtain ⟨m, heq, hq⟩ := setAllocatedRange_spec (1 <<< order)
        (splitDown { b.clearBit (order + n) idx with
          freeCount := b.freeCount - 1 <<< (order + n) } (idx <<< (order + n)) order
          (order + n - order)) (idx <<< (order + n))
      have hfields := splitDown_fields (order + n - order) { b.clearBit (order + n) idx with
          freeCount := b.freeCount - 1 <<< (order + n) } (idx <<< (order + n)) order
      refine ⟨by omega, ⟨n, idx, hblock, ?_⟩, ?_, fun q => ?_⟩
      · rw [Nat.shiftLeft_eq, Nat.pow_add, Nat.mul_comm (2 ^ order), Nat.mul_assoc]
      · rw [heq]
        exact hfields.2
      · rw [hq, Nat.one_shiftLeft]
        congr 1
        unfold isAllocated
        rw [hfields.1]
        rfl

/-- Pages of a consistent state are free exactly when they are added and not allocated. -/
theorem Holds.covers_iff (h : Consistent added b) :
    Covers b.blocks p ↔ added p ∧ b.isAllocated p = false := by grind [h.added_iff, h.free_apart]

theorem Holds.mem_coveredPages (h : Consistent added b) :
    p ∈ b.coveredPages ↔ added p ∧ b.isAllocated p = false := by
  rw [BuddyAllocator.mem_coveredPages h.total h.good, h.covers_iff]

theorem mem_pages_iff_range {q : Nat} : q ∈ pages k i ↔ i * 2 ^ k ≤ q ∧ q < i * 2 ^ k + 2 ^ k := by
  unfold pages
  rw [Finset.mem_Ico, Nat.add_mul, Nat.one_mul]

/-- The first part of a block of the family is covered and inside the total. -/
theorem Holds.first_part (h : Consistent added b) (hblock : b.blocks (order + n) i) :
    (i * 2 ^ n + 1) * 2 ^ order ≤ b.totalPages ∧ pages order (i * 2 ^ n) ⊆ b.coveredPages := by
  constructor
  · calc (i * 2 ^ n + 1) * 2 ^ order ≤ (i + 1) * 2 ^ n * 2 ^ order := by
          refine Nat.mul_le_mul_right _ ?_
          rw [Nat.add_mul, Nat.one_mul]
          exact Nat.add_le_add_left (Nat.two_pow_pos n) _
      _ = (i + 1) * 2 ^ (order + n) := by
          rw [Nat.pow_add, Nat.mul_comm (2 ^ order), Nat.mul_assoc]
      _ ≤ b.totalPages := (h.good.inside _ _ hblock).2
  · intro q hq
    rw [BuddyAllocator.mem_coveredPages h.total h.good]
    refine ⟨order + n, ?_⟩
    rw [Nat.pow_add, ← Nat.div_div_eq_div_mul, mem_pages.mp hq, first_mem]
    exact hblock

theorem alloc_none (h : (b.alloc order).2 = none) :
    (b.alloc order).1 = b ∧
      (maxOrder < order ∨ b.searchUp (maxOrder + 1 - order) order = none) := by
  unfold alloc at h ⊢
  grind

/-- A free aligned run is enough for `alloc`. -/
theorem Holds.alloc_isSome (h : Consistent added b) (hle : (i + 1) * 2 ^ order ≤ b.totalPages)
    (hfree : pages order i ⊆ b.coveredPages) : (b.alloc order).2.isSome := by
  have horder : order ≤ maxOrder := by
    by_contra hgt
    have h1 : 2 ^ (maxOrder + 1) ≤ 2 ^ order := Nat.pow_le_pow_right (by omega) (by omega)
    have h2 : 2 ^ order ≤ (i + 1) * 2 ^ order := Nat.le_mul_of_pos_left _ (by omega)
    have h3 : maxPages < 2 ^ (maxOrder + 1) := by decide
    have h4 := h.total
    omega
  obtain ⟨n, hn⟩ := h.good.exists_block horder fun p hp =>
    (BuddyAllocator.mem_coveredPages h.total h.good).mp (hfree (mem_pages.mpr hp))
  by_contra hnone
  rw [not_isSome_iff_eq_none] at hnone
  rcases (alloc_none hnone).2 with hgt | hsearch
  · omega
  · have hn' := (h.good.inside _ _ hn).1
    exact searchUp_none h.good _ hsearch _ _ (by omega) (by omega) hn

end BuddyAllocator

open BuddyAllocator

/-- In every state of a run, `alloc` succeeds exactly when the free pages contain an aligned run of
    `2 ^ order` pages inside the total.  The block it returns is such a run, and exactly its pages
    go from free to allocated; a failed `alloc` changes nothing. -/
theorem alloc_isSome_iff_free_run {total : Nat} {added : Nat → Prop} {b : BuddyAllocator}
    (h : BuddyRun total added b) (order : Nat) :
    ((b.alloc order).2.isSome ↔
      ∃ i, (i + 1) * 2 ^ order ≤ b.totalPages ∧ pages order i ⊆ b.coveredPages) ∧
    (∀ page, (b.alloc order).2 = some page →
      ∃ i, page = i * 2 ^ order ∧ (i + 1) * 2 ^ order ≤ b.totalPages ∧
        pages order i ⊆ b.coveredPages ∧
        (b.alloc order).1.coveredPages = b.coveredPages \ pages order i ∧
        ∀ q, (b.alloc order).1.isAllocated q = true ↔ q ∈ pages order i ∨ b.isAllocated q = true) ∧
    ((b.alloc order).2 = none → (b.alloc order).1 = b) := by
  have hc := h.consistent
  have hsome : ∀ page, (b.alloc order).2 = some page →
      ∃ i, page = i * 2 ^ order ∧ (i + 1) * 2 ^ order ≤ b.totalPages ∧
        pages order i ⊆ b.coveredPages ∧
        (b.alloc order).1.coveredPages = b.coveredPages \ pages order i ∧
        ∀ q, (b.alloc order).1.isAllocated q = true ↔
          q ∈ pages order i ∨ b.isAllocated q = true := by
    intro page hpage
    -- the page is the first of a free block `n` orders larger
    obtain ⟨-, ⟨n, idx, hblock, rfl⟩, -, halloc⟩ := alloc_some hc.total hpage
    obtain ⟨hle, hsub⟩ := hc.first_part hblock
    refine ⟨idx * 2 ^ n, rfl, hle, hsub, ?_, fun q => ?_⟩
    · ext q
      rw [(hc.alloc order).mem_coveredPages, halloc, Finset.mem_sdiff, hc.mem_coveredPages,
        mem_pages_iff_range]
      simp only [Bool.or_eq_false_iff, decide_eq_false_iff_not]
      exact ⟨fun hq => ⟨⟨hq.1, hq.2.2⟩, hq.2.1⟩, fun hq => ⟨hq.1.1, hq.2, hq.1.2⟩⟩
    · rw [halloc, mem_pages_iff_range]
      simp only [Bool.or_eq_true, decide_eq_true_eq]
  refine ⟨⟨fun hs => ?_, fun ⟨i, hle, hfree⟩ => hc.alloc_isSome hle hfree⟩, hsome,
    fun hnone => (alloc_none hnone).1⟩
  obtain ⟨page, hpage⟩ := isSome_iff_exists.mp hs
  obtain ⟨i, -, hle, hsub, -⟩ := hsome page hpage
  exact ⟨i, hle, hsub⟩

/-- Four free pages: an order of two fits, an order of three does not. -/
theorem alloc_isSome_iff_free_run_four :
    ∃ b, BuddyRun 4 (fun p => False ∨ 0 ≤ p ∧ p < 0 + 4) b ∧
      (∃ i, (i + 1) * 2 ^ 2 ≤ b.totalPages ∧ pages 2 i ⊆ b.coveredPages) ∧
      ¬ ∃ i, (i + 1) * 2 ^ 3 ≤ b.totalPages ∧ pages 3 i ⊆ b.coveredPages := by
  have heval : (((init 4).bind fun b => b.addRange 0 4).map fun b =>
      ((b.alloc 2).2.isSome, (b.alloc 3).2.isSome)) = some (true, false) := by
    decide +kernel
  obtain ⟨b, hb, hval⟩ := map_eq_some_iff.mp heval
  obtain ⟨b₀, hinit, hadd⟩ := bind_eq_some_iff.mp hb
  have hrun : BuddyRun 4 (fun p => False ∨ 0 ≤ p ∧ p < 0 + 4) b :=
    .addRange (.init hinit) (fun _ _ _ h => h) hadd
  rw [Prod.mk.injEq] at hval
  refine ⟨b, hrun, (alloc_isSome_iff_free_run hrun 2).1.mp hval.1, fun hrun3 => ?_⟩
  have := (alloc_isSome_iff_free_run hrun 3).1.mpr hrun3
  rw [hval.2] at this
  cases this

/-! ## From the free pages to the bytes -/

namespace BuddyAllocator

variable {b b' : BuddyAllocator} {k i p n page order : Nat} {added : Nat → Prop}

/-- The bytes behind the last bitmap are zero. -/
def Padded (b : BuddyAllocator) : Prop :=
  ∀ o, bitmapOffset (maxOrder + 1) ≤ o → b.bitmap o = 0#8

/-- A bit of a block lies before the padding. -/
theorem offset_lt (hk : k ≤ maxOrder) (hi : Valid k i) :
    bitmapOffset k + i / 8 < bitmapOffset (maxOrder + 1) := by
  have := bitmapOffset_le (show k < maxOrder + 1 by omega)
  unfold Valid at hi
  omega

theorem Padded.setBit (h : b.Padded) (hk : k ≤ maxOrder) (hi : Valid k i) :
    (b.setBit k i).Padded := by
  intro o ho
  have hlt := offset_lt hk hi
  exact (if_neg (by omega)).trans (h o ho)

theorem Padded.clearBit (h : b.Padded) (hk : k ≤ maxOrder) (hi : Valid k i) :
    (b.clearBit k i).Padded := by
  intro o ho
  have hlt := offset_lt hk hi
  exact (if_neg (by omega)).trans (h o ho)

theorem valid_shiftRight (hk : k ≤ maxOrder) (hp : p < maxPages) : Valid k (p >>> k) := by
  rw [Nat.shiftRight_eq_div_pow]
  exact valid_of_page hk hp

theorem Padded.mergeUp (fuel : Nat) : ∀ {b : BuddyAllocator} {page order : Nat}, b.Padded →
    b.totalPages ≤ maxPages → page < maxPages → order + fuel = maxOrder + 1 →
    (b.mergeUp fuel page order).Padded := by
  induction fuel with
  | zero => intro b page order h _ _ _; exact h
  | succ fuel ih =>
    intro b page order h ht hpage hfuel
    have hplaced : (b.setBit order (page >>> order)).Padded :=
      h.setBit (by omega) (valid_shiftRight (by omega) hpage)
    rw [BuddyAllocator.mergeUp]
    dsimp only
    split
    · exact hplaced
    · split
      · rename_i hfree
        have hbuddy : Valid order (page >>> order ^^^ 1) := by
          have hlt := Nat.lt_of_lt_of_le hfree.1 ht
          have := valid_shiftRight (k := order) (by omega) hlt
          rwa [Nat.shiftLeft_shiftRight] at this
        exact ih (h.clearBit (by omega) hbuddy) ht (by omega) (by omega)
      · exact hplaced

theorem Padded.splitDown (n : Nat) : ∀ {b : BuddyAllocator} {page order : Nat}, b.Padded →
    page + 2 ^ (order + n) ≤ maxPages → order + n ≤ maxOrder →
    (b.splitDown page order n).Padded := by
  induction n with
  | zero => intro b page order h _ _; exact h
  | succ n ih =>
    intro b page order h hpage horder
    have hlt : page + 1 <<< (order + n) < maxPages := by
      rw [Nat.one_shiftLeft]
      have hpow : 2 ^ (order + (n + 1)) = 2 * 2 ^ (order + n) := by
        rw [← Nat.add_assoc, Nat.pow_succ, Nat.mul_comm]
      have hpos := Nat.two_pow_pos (order + n)
      omega
    rw [BuddyAllocator.splitDown]
    refine ih (h.setBit (by omega) (valid_shiftRight (by omega) hlt)) ?_ (by omega)
    rw [Nat.one_shiftLeft] at hlt
    omega

theorem Padded.alloc (h : b.Padded) (hc : Consistent added b) (order : Nat) :
    (b.alloc order).1.Padded := by
  unfold BuddyAllocator.alloc
  split
  · exact h
  · split
    · exact h
    · rename_i found idx hsearch
      obtain ⟨hle, hblock⟩ := searchUp_some hc.total _ _ (by omega) hsearch
      obtain ⟨n, rfl⟩ := Nat.exists_eq_add_of_le hle
      dsimp only
      obtain ⟨m, heq, -⟩ := setAllocatedRange_spec (1 <<< order)
        (BuddyAllocator.splitDown { b.clearBit (order + n) idx with
          freeCount := b.freeCount - 1 <<< (order + n) } (idx <<< (order + n)) order
          (order + n - order)) (idx <<< (order + n))
      rw [heq]
      have hin := hc.good.inside _ _ hblock
      rw [Nat.add_sub_cancel_left, Nat.shiftLeft_eq]
      refine Padded.splitDown n (h.clearBit hin.1 hblock.2.1) ?_ hin.1
      rw [Nat.shiftLeft_eq, ← Nat.succ_mul]
      exact Nat.le_trans hin.2 hc.total

/-- What an accepted `free` is made of. -/
theorem free_some (hok : b.free page order = some b') :
    order ≤ maxOrder ∧ page + 2 ^ order ≤ b.totalPages ∧ page % 2 ^ order = 0 ∧
      (∀ q, page ≤ q → q < page + 2 ^ order → b.isAllocated q = true) ∧
      ∃ m, b' = { b with allocated := m }.mergeUp (maxOrder + 1 - order) page order := by
  unfold free at hok
  rw [Nat.one_shiftLeft] at hok
  split at hok
  · cases hok
  · split at hok
    · cases hok
    · split at hok
      · cases hok
      · obtain ⟨b₁, hclear, rfl⟩ := map_eq_some_iff.mp hok
        obtain ⟨m, rfl, hall, -⟩ := clearAllocatedRange_spec _ _ _ hclear
        exact ⟨by omega, by omega, by omega, hall, m, rfl⟩

theorem Padded.free (h : b.Padded) (ht : b.totalPages ≤ maxPages)
    (hok : b.free page order = some b') : b'.Padded := by
  obtain ⟨horder, hend, -, -, m, rfl⟩ := free_some hok
  have hpos := Nat.two_pow_pos order
  exact Padded.mergeUp (b := { b with allocated := m }) _ h ht (by omega) (by omega)

theorem Padded.freeRange (n : Nat) : ∀ {b b' : BuddyAllocator} {page : Nat}, b.Padded →
    b.totalPages ≤ maxPages → b.freeRange n page = some b' → b'.Padded := by
  induction n with
  | zero =>
    intro b b' page h _ hok
    cases hok
    exact h
  | succ n ih =>
    intro b b' page h ht hok
    rw [BuddyAllocator.freeRange] at hok
    obtain ⟨b₁, hfree, hrest⟩ := bind_eq_some_iff.mp hok
    exact ih (h.free ht hfree) (by rw [(free_fields hfree).1]; exact ht) hrest

/-- Every bit of the bitmaps belongs to a block. -/
theorem exists_bit {o : Nat} (ho : o < bitmapOffset n) :
    ∃ k, k < n ∧ bitmapOffset k ≤ o ∧ o < bitmapOffset k + bitmapBytesForOrder k := by
  induction n with
  | zero => cases ho
  | succ n ih =>
    by_cases hlt : o < bitmapOffset n
    · obtain ⟨k, hk, h⟩ := ih hlt
      exact ⟨k, by omega, h⟩
    · exact ⟨n, by omega, by omega, ho⟩

/-- Two allocators with the same blocks have the same bitmaps. -/
theorem bitmap_ext (hblocks : b.blocks = b'.blocks) (hpad : b.Padded) (hpad' : b'.Padded) :
    b.bitmap = b'.bitmap := by
  funext o
  by_cases ho : o < bitmapOffset (maxOrder + 1)
  · obtain ⟨k, hk, hle, hlt⟩ := exists_bit ho
    apply BitVec.eq_of_getLsbD_eq
    intro j hj
    -- bit `j` of byte `o` is the bit of one block of order `k`
    have hdiv : ((o - bitmapOffset k) * 8 + j) / 8 = o - bitmapOffset k := by omega
    have hmod : ((o - bitmapOffset k) * 8 + j) % 8 = j := by omega
    have hoff : bitmapOffset k + (o - bitmapOffset k) = o := by omega
    have hvalid : Valid k ((o - bitmapOffset k) * 8 + j) := by
      unfold Valid
      omega
    have hbit : ∀ c : BuddyAllocator, c.blocks k ((o - bitmapOffset k) * 8 + j) ↔
        (c.bitmap o).getLsbD j = true := by
      intro c
      unfold blocks
      rw [isFree, hdiv, hmod, hoff, Bytes.test_eq _ _ hj]
      exact ⟨fun h => h.2.2, fun h => ⟨by omega, hvalid, h⟩⟩
    rw [Bool.eq_iff_iff, ← hbit b, ← hbit b', hblocks]
  · rw [hpad o (by omega), hpad' o (by omega)]

theorem allocated_ext (h : ∀ q, b.isAllocated q = b'.isAllocated q) :
    b.allocated = b'.allocated := by
  funext o
  apply BitVec.eq_of_getLsbD_eq
  intro j hj
  have hdiv : (o * 8 + j) / 8 = o := by omega
  have hmod : (o * 8 + j) % 8 = j := by omega
  have := h (o * 8 + j)
  rwa [isAllocated, isAllocated, hdiv, hmod, Bytes.test_eq _ _ hj, Bytes.test_eq _ _ hj] at this

end BuddyAllocator

variable {added : Nat → Prop} {total : Nat}

theorem BuddyRun.padded {b : BuddyAllocator}
    (h : BuddyRun total added b) : b.Padded := by
  induction h with
  | init h =>
    unfold BuddyAllocator.init at h
    split at h
    · cases h
      exact fun _ _ => rfl
    · cases h
  | @addRange added b b' s n hrun hnew hok ih =>
    unfold BuddyAllocator.addRange at hok
    split at hok
    · cases hok
    · obtain ⟨m, heq, -⟩ := setAllocatedRange_spec n b s
      rw [heq] at hok
      exact Padded.freeRange (b := { b with allocated := m }) n ih hrun.consistent.total hok
  | alloc hrun order ih => exact ih.alloc hrun.consistent order
  | free hrun hok ih => exact ih.free hrun.consistent.total hok

theorem BuddyRun.totalPages {b : BuddyAllocator}
    (h : BuddyRun total added b) : b.totalPages = total := by
  induction h with
  | init h =>
    unfold BuddyAllocator.init at h
    split at h
    · cases h
      rfl
    · cases h
  | @addRange added b b' s n hrun hnew hok ih =>
    have hend : s + n ≤ b.totalPages := by
      unfold BuddyAllocator.addRange at hok
      split at hok
      · cases hok
      · omega
    obtain ⟨b₁, hadd, htotal, -⟩ := addRange_isSome hend
    obtain rfl : b₁ = b' := some.inj (hadd.symm.trans hok)
    exact htotal.trans ih
  | @alloc added b hrun order ih =>
    cases hpage : (b.alloc order).2 with
    | none => rw [(alloc_none hpage).1, ih]
    | some page => rw [(alloc_some hrun.consistent.total hpage).2.2.1, ih]
  | free hrun hok ih => exact (free_fields hok).1.trans ih

/-- The bitmaps and the free count of a state depend on its free pages only. -/
theorem BuddyRun.bitmap_eq {total total' : Nat} {added added' : Nat → Prop} {b b' : BuddyAllocator}
    (h : BuddyRun total added b) (h' : BuddyRun total' added' b')
    (htotal : b.totalPages = b'.totalPages) (hfree : b.coveredPages = b'.coveredPages) :
    b.bitmap = b'.bitmap ∧ b.freeCount = b'.freeCount := by
  have hc := h.consistent
  have hc' := h'.consistent
  refine ⟨bitmap_ext ?_ h.padded h'.padded, by rw [hc.count, hc'.count, hfree]⟩
  refine hc.good.ext (htotal ▸ hc'.good) fun p => ?_
  rw [← mem_coveredPages hc.total hc.good, hfree,
    mem_coveredPages hc'.total hc'.good]

/-- Two states of runs over the same pages are equal if the same pages are allocated. -/
theorem BuddyRun.state_eq {b b' : BuddyAllocator}
    (h : BuddyRun total added b) (h' : BuddyRun total added b')
    (htotal : b.totalPages = b'.totalPages) (halloc : ∀ q, b.isAllocated q = b'.isAllocated q) :
    b = b' := by
  have hfree : b.coveredPages = b'.coveredPages := by
    ext p
    rw [h.consistent.mem_coveredPages, h'.consistent.mem_coveredPages, halloc]
  obtain ⟨hbitmap, hcount⟩ := h.bitmap_eq h' htotal hfree
  have hallocated := allocated_ext halloc
  cases b
  cases b'
  simp only at *
  subst hbitmap hallocated htotal hcount
  rfl

section Canon

variable {total : Nat} {added : Nat → Prop} {b b₁ b₂ : BuddyAllocator} {page order : Nat}

/-- An allocated block can be given back, and that undoes the allocation. -/
theorem BuddyRun.free_alloc (h : BuddyRun total added b) (hpage : (b.alloc order).2 = some page) :
    (b.alloc order).1.free page order = some b := by
  have hc := h.consistent
  obtain ⟨horder, ⟨n, idx, hblock, rfl⟩, htotal, halloc⟩ := alloc_some hc.total hpage
  obtain ⟨hle, hsub⟩ := hc.first_part hblock
  have hsome : ((b.alloc order).1.free (idx * 2 ^ n * 2 ^ order) order).isSome := by
    refine free_isSome horder ?_ (Nat.mul_mod_left _ _) fun q h1 h2 => ?_
    · rw [htotal, ← Nat.succ_mul]
      exact hle
    · rw [halloc, decide_eq_true ⟨h1, h2⟩, Bool.true_or]
  obtain ⟨b', hfree⟩ := isSome_iff_exists.mp hsome
  obtain ⟨htotal', halloc'⟩ := free_fields hfree
  rw [hfree, (BuddyRun.free (.alloc h order) hfree).state_eq h (htotal'.trans htotal) fun q => ?_]
  rw [halloc', halloc]
  by_cases hq : idx * 2 ^ n * 2 ^ order ≤ q ∧ q < idx * 2 ^ n * 2 ^ order + 2 ^ order
  · -- its pages were free before
    have hcov := hsub (mem_pages_iff_range.mpr hq)
    rw [(hc.mem_coveredPages.mp hcov).2, decide_eq_true hq]
    rfl
  · rw [decide_eq_false hq, Bool.false_or, Bool.not_false, Bool.and_true]

/-- The blocks `free` accepts. -/
theorem free_isSome_iff : (b.free page order).isSome ↔
    order ≤ maxOrder ∧ page + 2 ^ order ≤ b.totalPages ∧ page % 2 ^ order = 0 ∧
      ∀ q, page ≤ q → q < page + 2 ^ order → b.isAllocated q = true := by
  constructor
  · intro hsome
    obtain ⟨b', hok⟩ := isSome_iff_exists.mp hsome
    obtain ⟨h1, h2, h3, h4, -⟩ := free_some hok
    exact ⟨h1, h2, h3, h4⟩
  · rintro ⟨h1, h2, h3, h4⟩
    exact free_isSome h1 h2 h3 h4

/-- A block that is accepted after another one is accepted before it, and
    leaves the other one acceptable. -/
theorem free_swap {page' order' : Nat} {b12 : BuddyAllocator} (h₁ : b.free page order = some b₁)
    (h12 : b₁.free page' order' = some b12) :
    ∃ b₂ b21, b.free page' order' = some b₂ ∧ b₂.free page order = some b21 := by
  obtain ⟨horder, hend, halign, hall, -⟩ := free_some h₁
  obtain ⟨horder', hend', halign', hall', -⟩ := free_some h12
  obtain ⟨htotal, halloc⟩ := free_fields h₁
  -- no page is in both blocks
  have hapart : ∀ q, page' ≤ q → q < page' + 2 ^ order' → b.isAllocated q = true ∧
      ¬ (page ≤ q ∧ q < page + 2 ^ order) := by
    intro q h1 h2
    have := hall' q h1 h2
    rw [halloc, Bool.and_eq_true, Bool.not_eq_true', decide_eq_false_iff_not] at this
    exact this
  obtain ⟨b₂, h₂⟩ := isSome_iff_exists.mp (free_isSome_iff.mpr
    ⟨horder', htotal ▸ hend', halign', fun q h1 h2 => (hapart q h1 h2).1⟩)
  obtain ⟨htotal2, halloc2⟩ := free_fields h₂
  obtain ⟨b21, h21⟩ := isSome_iff_exists.mp (free_isSome_iff.mpr
    ⟨horder, htotal2 ▸ hend, halign, fun q h1 h2 => by
      have hnot : ¬ (page' ≤ q ∧ q < page' + 2 ^ order') :=
        fun hq => (hapart q hq.1 hq.2).2 ⟨h1, h2⟩
      rw [halloc2, hall q h1 h2, decide_eq_false hnot]
      rfl⟩)
  exact ⟨b₂, b21, h₂, h21⟩

/-- Two blocks given back in either order: the same blocks are accepted, with the same result. -/
theorem BuddyRun.free_comm (h : BuddyRun total added b) (page order page' order' : Nat) :
    ((b.free page order).bind fun b₁ => b₁.free page' order')
      = (b.free page' order').bind fun b₂ => b₂.free page order := by
  have hone : ∀ {p o p' o' : Nat} {c : BuddyAllocator},
      ((b.free p o).bind fun b₁ => b₁.free p' o') = some c →
      ((b.free p' o').bind fun b₂ => b₂.free p o) = some c := by
    intro p o p' o' c hc
    obtain ⟨b₁, h₁, h12⟩ := bind_eq_some_iff.mp hc
    obtain ⟨b₂, b21, h₂, h21⟩ := free_swap h₁ h12
    obtain ⟨ht1, ha1⟩ := free_fields h₁
    obtain ⟨ht12, ha12⟩ := free_fields h12
    obtain ⟨ht2, ha2⟩ := free_fields h₂
    obtain ⟨ht21, ha21⟩ := free_fields h21
    rw [h₂, bind_some, h21, BuddyRun.state_eq ((h.free h₂).free h21) ((h.free h₁).free h12)
      (by rw [ht21, ht2, ht12, ht1]) fun q => ?_]
    rw [ha21, ha2, ha12, ha1, Bool.and_assoc, Bool.and_assoc]
    congr 1
    exact Bool.and_comm _ _
  cases hc : (b.free page order).bind fun b₁ => b₁.free page' order' with
  | some c => exact (hone hc).symm
  | none =>
    cases hc' : (b.free page' order').bind fun b₂ => b₂.free page order with
    | none => rfl
    | some c =>
      rw [hone hc'] at hc
      cases hc

/-- A block given back whole or as its two halves. -/
theorem BuddyRun.free_halves (h : BuddyRun total added b)
    (hok : b.free page (order + 1) = some b₁) :
    ((b.free page order).bind fun b₂ => b₂.free (page + 2 ^ order) order) = some b₁ := by
  obtain ⟨horder, hend, halign, hall, -⟩ := free_some hok
  have hpow : 2 ^ (order + 1) = 2 ^ order + 2 ^ order := by rw [Nat.pow_succ]; omega
  rw [hpow] at hend hall
  have hdvd : 2 ^ order ∣ page :=
    Nat.dvd_trans (Nat.pow_dvd_pow 2 (Nat.le_succ order)) (Nat.dvd_of_mod_eq_zero halign)
  obtain ⟨b₂, h₂⟩ := isSome_iff_exists.mp (free_isSome_iff.mpr
    ⟨by omega, by omega, Nat.mod_eq_zero_of_dvd hdvd, fun q h1 h2 => hall q h1 (by omega)⟩)
  obtain ⟨ht2, ha2⟩ := free_fields h₂
  obtain ⟨b3, h₃⟩ := isSome_iff_exists.mp (free_isSome_iff.mpr
    ⟨by omega, by omega, Nat.mod_eq_zero_of_dvd (Nat.dvd_add hdvd (Nat.dvd_refl _)),
      fun q h1 h2 => by
        have hnot : ¬ (page ≤ q ∧ q < page + 2 ^ order) := by omega
        rw [ha2, hall q (by omega) (by omega), decide_eq_false hnot]
        rfl⟩ : (b₂.free (page + 2 ^ order) order).isSome)
  obtain ⟨ht3, ha3⟩ := free_fields h₃
  obtain ⟨ht1, ha1⟩ := free_fields hok
  rw [h₂, bind_some, h₃, BuddyRun.state_eq ((h.free h₂).free h₃) (h.free hok)
    (by rw [ht3, ht2, ht1]) fun q => ?_]
  rw [ha3, ha2, ha1, Bool.and_assoc]
  congr 1
  rw [← Bool.not_or, ← Bool.decide_or]
  congr 1
  apply decide_eq_decide.mpr
  omega

end Canon

/-- The state of the allocator is canonical in its free pages: two states of
    runs with the same free pages have the same bitmaps and free count;
    allocating a block and giving it back restores the state; two blocks may be
    given back in either order; a block may be given back as its two halves. -/
theorem buddy_state_canonical {total : Nat} {added : Nat → Prop} {b : BuddyAllocator}
    (h : BuddyRun total added b) :
    (∀ added' b', BuddyRun total added' b' → b.coveredPages = b'.coveredPages →
      b.bitmap = b'.bitmap ∧ b.freeCount = b'.freeCount) ∧
    (∀ order page, (b.alloc order).2 = some page →
      (b.alloc order).1.free page order = some b) ∧
    (∀ page order page' order',
      ((b.free page order).bind fun b₁ => b₁.free page' order')
        = (b.free page' order').bind fun b₂ => b₂.free page order) ∧
    ∀ page order b₁, b.free page (order + 1) = some b₁ →
      ((b.free page order).bind fun b₂ => b₂.free (page + 2 ^ order) order) = some b₁ :=
  ⟨fun _ _ h' hfree => h.bitmap_eq h' (h.totalPages.trans h'.totalPages.symm) hfree,
    fun _ _ => h.free_alloc, h.free_comm, fun _ _ _ => h.free_halves⟩

/-- Four free pages: a block of two is handed out and given back as two single pages. -/
theorem buddy_state_canonical_four :
    ∃ b, BuddyRun 4 (fun p => False ∨ 0 ≤ p ∧ p < 0 + 4) b ∧ (b.alloc 1).2 = some 0 ∧
      (((b.alloc 1).1.free 0 0).bind fun b₂ => b₂.free (0 + 2 ^ 0) 0) = some b := by
  have heval : (((init 4).bind fun b => b.addRange 0 4).map fun b =>
      (b.alloc 1).2) = some (some 0) := by
    decide +kernel
  obtain ⟨b, hb, hval⟩ := map_eq_some_iff.mp heval
  obtain ⟨b₀, hinit, hadd⟩ := bind_eq_some_iff.mp hb
  have hrun : BuddyRun 4 (fun p => False ∨ 0 ≤ p ∧ p < 0 + 4) b :=
    .addRange (.init hinit) (fun _ _ _ h => h) hadd
  have hback := (buddy_state_canonical hrun).2.1 1 0 hval
  exact ⟨b, hrun, hval, (buddy_state_canonical (.alloc hrun 1)).2.2.2 0 0 b hback⟩

end Lockjaw.Mm
