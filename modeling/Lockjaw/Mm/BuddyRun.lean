/-
  Lockjaw.Mm.BuddyRun

  Every operation of the buddy allocator keeps its invariant, and so does
  every run of them.
-/

import Lockjaw.Mm.BuddyInv

namespace Lockjaw.Mm

open Lib.Dyadic Option

namespace BuddyAllocator

variable {b : BuddyAllocator} {k i p n : Nat} {added : Nat → Prop}

/-! ## Searching -/

theorem trailingZeros_spec {x : BitVec 8} (hx : x ≠ 0#8) :
    trailingZeros x < 8 ∧ x.getLsbD (trailingZeros x) = true := by
  have h : ∀ x : BitVec 8, x ≠ 0#8 → trailingZeros x < 8 ∧ x.getLsbD (trailingZeros x) = true := by
    decide
  exact h x hx

variable {order : Nat} {b' : BuddyAllocator} {page s : Nat}

theorem isFree_of_getLsbD {byteIdx bit : Nat} (hbit : bit < 8)
    (h : (b.bitmap (bitmapOffset order + byteIdx)).getLsbD bit = true) :
    b.isFree order (byteIdx * 8 + bit) = true := by grind [Bytes.test_eq, isFree]

theorem scanBytes_some (n : Nat) : ∀ (byteIdx : Nat) {idx : Nat},
    b.scanBytes (bitmapOffset order) n byteIdx = some idx →
    idx < (byteIdx + n) * 8 ∧ b.isFree order idx = true := by
  induction n with
  | zero => intro byteIdx idx h; cases h
  | succ n ih => grind [isFree_of_getLsbD, scanBytes, trailingZeros_spec]

/-- What `find_free` finds is free and among the blocks searched. -/
theorem findFree_some {maxBlocks idx : Nat} (h : b.findFree order maxBlocks = some idx) :
    idx < maxBlocks ∧ b.isFree order idx = true := by
  have hmask : ∀ r j : Fin 8, ((1#8 <<< r.val) - 1#8).getLsbD j.val = decide (j.val < r.val) := by
    decide
  unfold findFree at h
  dsimp only at h
  split at h
  · rename_i idx' hscan
    cases h
    obtain ⟨hlt, hfree⟩ := scanBytes_some _ _ hscan
    exact ⟨by omega, hfree⟩
  · split at h
    · split at h
      · rename_i hx
        obtain ⟨hlt, hbit⟩ := trailingZeros_spec hx
        cases h
        rw [BitVec.getLsbD_and, Bool.and_eq_true,
          hmask ⟨maxBlocks % 8, Nat.mod_lt _ (by omega)⟩ ⟨_, hlt⟩, decide_eq_true_iff] at hbit
        exact ⟨by have := hbit.2; dsimp only at this; omega, isFree_of_getLsbD hlt hbit.1⟩
      · cases h
    · cases h

/-- The search goes up from the order asked for and ends at a free block. -/
theorem searchUp_some (ht : b.totalPages ≤ maxPages) (fuel : Nat) :
    ∀ (order : Nat) {found idx : Nat}, order + fuel = maxOrder + 1 →
    b.searchUp fuel order = some (found, idx) → order ≤ found ∧ b.blocks found idx := by
  induction fuel with
  | zero => intro order found idx _ h; cases h
  | succ fuel ih =>
    intro order found idx hfuel h
    rw [searchUp] at h
    split at h
    · rename_i idx' hfind
      cases h
      obtain ⟨hlt, hfree⟩ := findFree_some hfind
      rw [Nat.shiftRight_eq_div_pow] at hlt
      have hinside : (idx + 1) * 2 ^ order ≤ b.totalPages :=
        (Nat.le_div_iff_mul_le (Nat.two_pow_pos order)).mp hlt
      exact ⟨Nat.le_refl _, by omega, valid_of_inside (Nat.le_trans hinside ht), hfree⟩
    · obtain ⟨hle, hblock⟩ := ih (order + 1) (by omega) h
      exact ⟨by omega, hblock⟩

/-! ## The two loops -/

theorem mul_pow_shiftRight (k i : Nat) : (i * 2 ^ k) >>> k = i := by
  rw [Nat.shiftRight_eq_div_pow]
  exact first_mem k i

/-- `page & !(1 << order)` is the first page of the parent. -/
theorem parent_page (k i : Nat) : i * 2 ^ k - (i * 2 ^ k &&& 1 <<< k) = i / 2 * 2 ^ (k + 1) := by
  rw [Nat.one_shiftLeft, Nat.and_two_pow, Nat.testBit_eq_decide_div_mod_eq, first_mem,
    Nat.pow_succ, Nat.mul_comm (2 ^ k) 2, ← Nat.mul_assoc]
  rcases Nat.mod_two_eq_zero_or_one i with h | h
  · rw [h]
    simp only [Nat.zero_ne_one, decide_false, Bool.toNat_false, Nat.zero_mul, Nat.sub_zero]
    congr 1
    omega
  · rw [h]
    simp only [decide_true, Bool.toNat_true, Nat.one_mul]
    rw [← Nat.sub_one_mul]
    congr 1
    omega

/-- Splitting keeps the invariant; the leftmost part stays in hands. -/
theorem Pending.splitDown (n : Nat) : ∀ {b : BuddyAllocator} {i : Nat}, Pending added (k + n) i b →
    Pending added k (i * 2 ^ n) (b.splitDown (i * 2 ^ (k + n)) k n) := by
  induction n with
  | zero =>
    intro b i h
    rw [Nat.pow_zero, Nat.mul_one]
    exact h
  | succ n ih =>
    intro b i h
    have hpage : i * 2 ^ (k + (n + 1)) = 2 * i * 2 ^ (k + n) := by
      rw [← Nat.add_assoc, Nat.pow_succ, Nat.mul_comm (2 ^ (k + n)) 2, ← Nat.mul_assoc,
        Nat.mul_comm i 2]
    have hright : (i * 2 ^ (k + (n + 1)) + 1 <<< (k + n)) >>> (k + n) = 2 * i + 1 := by
      rw [hpage, Nat.one_shiftLeft, ← Nat.succ_mul]
      exact mul_pow_shiftRight _ _
    have hidx : i * 2 ^ (n + 1) = 2 * i * 2 ^ n := by
      rw [Nat.pow_succ, Nat.mul_comm (2 ^ n) 2, ← Nat.mul_assoc, Nat.mul_comm i 2]
    rw [BuddyAllocator.splitDown]
    dsimp only
    rw [hright, hidx, hpage, Nat.one_shiftLeft]
    exact ih h.split

/-- Merging ends with the block in hands recorded. -/
theorem Pending.mergeUp (fuel : Nat) : ∀ {b : BuddyAllocator} {k i : Nat},
    Pending added k i b → k + fuel = maxOrder + 1 →
    Consistent added (b.mergeUp fuel (i * 2 ^ k) k) := by
  induction fuel with
  | zero =>
    intro b k i h hfuel
    have := h.order
    omega
  | succ fuel ih =>
    intro b k i h hfuel
    rw [BuddyAllocator.mergeUp]
    dsimp only
    rw [mul_pow_shiftRight, parent_page, Nat.one_shiftLeft]
    split
    · -- the top order has no buddy
      exact h.place fun hlt => by omega
    · rename_i htop
      have hlt : k < maxOrder := Nat.lt_of_le_of_ne h.order htop
      split
      · rename_i hfree
        have hvalid : Valid k (buddy i) := by
          have hpage : buddy i * 2 ^ k < maxPages := by
            have := hfree.1
            rw [Nat.shiftLeft_eq] at this
            exact Nat.lt_of_lt_of_le this h.total
          have := valid_of_page (Nat.le_of_lt hlt) hpage
          rwa [first_mem] at this
        exact ih (h.merge hlt ⟨h.order, hvalid, hfree.2⟩) (by omega)
      · rename_i hnot
        refine h.place fun _ hblock => hnot ⟨?_, hblock.2.2⟩
        have hinside := (h.good.inside k _ hblock).2
        rw [Nat.shiftLeft_eq]
        have hpos := Nat.two_pow_pos k
        rw [Nat.add_mul, Nat.one_mul] at hinside
        change buddy i * 2 ^ k < b.totalPages
        omega

/-! ## The operations -/

theorem Holds.alloc (h : Consistent added b) (order : Nat) :
    Consistent added (b.alloc order).1 := by
  unfold BuddyAllocator.alloc
  split
  · exact h
  · rename_i horder
    split
    · exact h
    · rename_i found idx hsearch
      obtain ⟨hle, hblock⟩ := searchUp_some h.total _ _ (by omega) hsearch
      obtain ⟨n, rfl⟩ := Nat.exists_eq_add_of_le hle
      have htaken := h.take hblock
      have hsplit := htaken.splitDown (k := order)
      dsimp only
      rw [Nat.add_sub_cancel_left, Nat.one_shiftLeft, Nat.one_shiftLeft, Nat.shiftLeft_eq]
      have hpage : idx * 2 ^ (order + n) = idx * 2 ^ n * 2 ^ order := by
        rw [Nat.pow_add, Nat.mul_comm (2 ^ order), Nat.mul_assoc]
      rw [hpage] at hsplit ⊢
      exact hsplit.handOut

theorem Holds.free (h : Consistent added b)
    (hok : b.free page order = some b') : Consistent added b' := by
  unfold BuddyAllocator.free at hok
  split at hok
  · cases hok
  · rename_i horder
    split at hok
    · cases hok
    · rename_i hend
      split at hok
      · cases hok
      · rename_i halign
        rw [Nat.one_shiftLeft] at hend halign hok
        obtain ⟨i, rfl⟩ := Nat.dvd_of_mod_eq_zero (Decidable.not_not.mp halign)
        rw [Nat.mul_comm] at hend hok
        obtain ⟨b₁, hclear, rfl⟩ := map_eq_some_iff.mp hok
        have hpending := h.release (by omega) (by rw [Nat.add_mul]; omega) hclear
        exact hpending.mergeUp _ (by omega)

theorem Holds.freeRange (n : Nat) : ∀ {b b' : BuddyAllocator} {page : Nat}, Consistent added b →
    b.freeRange n page = some b' → Consistent added b' := by
  induction n with
  | zero =>
    intro b b' page h hok
    cases hok
    exact h
  | succ n ih =>
    intro b b' page h hok
    rw [BuddyAllocator.freeRange] at hok
    obtain ⟨b₁, hfree, hrest⟩ := bind_eq_some_iff.mp hok
    exact ih (h.free hfree) hrest

theorem Holds.addRange (h : Consistent added b)
    (hnew : ∀ p, s ≤ p → p < s + n → ¬ added p) (hok : b.addRange s n = some b') :
    Consistent (fun p => added p ∨ s ≤ p ∧ p < s + n) b' := by
  unfold BuddyAllocator.addRange at hok
  split at hok
  · cases hok
  · rename_i hend
    exact (h.grow n s (by omega) hnew).freeRange n hok

/-- `free` accepts the aligned blocks of allocated pages. -/
theorem free_isSome (horder : order ≤ maxOrder)
    (hend : page + 2 ^ order ≤ b.totalPages) (halign : page % 2 ^ order = 0)
    (hall : ∀ q, page ≤ q → q < page + 2 ^ order → b.isAllocated q = true) :
    (b.free page order).isSome := by
  unfold free
  rw [Nat.one_shiftLeft, if_neg (by omega), if_neg (by omega), if_neg (by omega), isSome_map]
  exact clearAllocatedRange_isSome _ _ _ hall

theorem mergeUp_fields (fuel : Nat) : ∀ (b : BuddyAllocator) (page order : Nat),
    (b.mergeUp fuel page order).allocated = b.allocated ∧
      (b.mergeUp fuel page order).totalPages = b.totalPages := by
  induction fuel with
  | zero => intro b page order; exact ⟨rfl, rfl⟩
  | succ fuel ih =>
    intro b page order
    rw [mergeUp]
    dsimp only
    split
    · exact ⟨rfl, rfl⟩
    · split
      · obtain ⟨h1, h2⟩ := ih { b.clearBit order (page >>> order ^^^ 1) with
          freeCount := b.freeCount - 1 <<< order } (page - (page &&& 1 <<< order)) (order + 1)
        exact ⟨h1, h2⟩
      · exact ⟨rfl, rfl⟩

/-- An accepted `free` takes its pages out of the allocated ones. -/
theorem free_fields (hok : b.free page order = some b') :
    b'.totalPages = b.totalPages ∧ ∀ q, b'.isAllocated q
      = (b.isAllocated q && !decide (page ≤ q ∧ q < page + 2 ^ order)) := by
  unfold free at hok
  split at hok
  · cases hok
  · split at hok
    · cases hok
    · split at hok
      · cases hok
      · obtain ⟨b₁, hclear, rfl⟩ := map_eq_some_iff.mp hok
        obtain ⟨m, rfl, -, hq⟩ := clearAllocatedRange_spec _ _ _ hclear
        obtain ⟨h1, h2⟩ :=
          mergeUp_fields (maxOrder + 1 - order) { b with allocated := m } page order
        refine ⟨h2, fun q => ?_⟩
        rw [Nat.one_shiftLeft] at hq
        rw [← hq q]
        unfold isAllocated
        rw [h1]

theorem freeRange_isSome (n : Nat) : ∀ (b : BuddyAllocator) (page : Nat),
    page + n ≤ b.totalPages → (∀ q, page ≤ q → q < page + n → b.isAllocated q = true) →
    ∃ b', b.freeRange n page = some b' ∧ b'.totalPages = b.totalPages ∧
      ∀ q, b'.isAllocated q = (b.isAllocated q && !decide (page ≤ q ∧ q < page + n)) := by
  induction n with
  | zero =>
    intro b page _ _
    refine ⟨b, rfl, rfl, fun q => ?_⟩
    have hno : ¬ (page ≤ q ∧ q < page + 0) := by omega
    rw [decide_eq_false hno, Bool.not_false, Bool.and_true]
  | succ n ih =>
    intro b page hend hall
    have hsome : (b.free page 0).isSome :=
      free_isSome (by omega) (by omega) (Nat.mod_one _) fun q h1 h2 => hall q h1 (by omega)
    obtain ⟨b₁, hfree⟩ := isSome_iff_exists.mp hsome
    obtain ⟨htotal, halloc⟩ := free_fields hfree
    obtain ⟨b2, hrest, htotal2, halloc2⟩ := ih b₁ (page + 1) (by omega) fun q h1 h2 => by
      have hne : ¬ (page ≤ q ∧ q < page + 2 ^ 0) := by omega
      rw [halloc, hall q (by omega) (by omega), decide_eq_false hne]
      rfl
    refine ⟨b2, ?_, by omega, fun q => ?_⟩
    · rw [freeRange, hfree]
      exact hrest
    · rw [halloc2, halloc, Bool.and_assoc]
      congr 1
      rw [← Bool.not_or, ← Bool.decide_or]
      congr 1
      apply decide_eq_decide.mpr
      omega

/-- `add_range` accepts every range inside the total, and leaves none of its pages allocated. -/
theorem addRange_isSome (hend : s + n ≤ b.totalPages) :
    ∃ b', b.addRange s n = some b' ∧ b'.totalPages = b.totalPages ∧
      ∀ q, b'.isAllocated q = (b.isAllocated q && !decide (s ≤ q ∧ q < s + n)) := by
  obtain ⟨m, heq, hq⟩ := setAllocatedRange_spec n b s
  obtain ⟨b', hfree, htotal, halloc⟩ := freeRange_isSome n (b.setAllocatedRange n s) s
    (by rw [heq]; exact hend) fun q h1 h2 => by rw [hq]; simp [h1, h2]
  refine ⟨b', ?_, ?_, fun q => ?_⟩
  · rw [addRange, if_neg (by omega)]
    exact hfree
  · rw [htotal, heq]
  · rw [halloc, hq]
    cases decide (s ≤ q ∧ q < s + n) <;> simp

end BuddyAllocator

/-! ## Runs -/

open BuddyAllocator

/-- The allocators of a run, with the pages added so far: `init`, then
    `add_range` on new pages, `alloc` and accepted `free`s in any order. -/
inductive BuddyRun (total : Nat) : (Nat → Prop) → BuddyAllocator → Prop where
  | init {b : BuddyAllocator} (h : init total = some b) :
      BuddyRun total (fun _ => False) b
  | addRange {added : Nat → Prop} {b b' : BuddyAllocator} {s n : Nat} (h : BuddyRun total added b)
      (hnew : ∀ p, s ≤ p → p < s + n → ¬ added p) (hok : b.addRange s n = some b') :
      BuddyRun total (fun p => added p ∨ s ≤ p ∧ p < s + n) b'
  | alloc {added : Nat → Prop} {b : BuddyAllocator} (h : BuddyRun total added b) (order : Nat) :
      BuddyRun total added (b.alloc order).1
  | free {added : Nat → Prop} {b b' : BuddyAllocator} {page order : Nat}
      (h : BuddyRun total added b) (hok : b.free page order = some b') : BuddyRun total added b'

variable {b : BuddyAllocator}

theorem init_consistent (total : Nat)
    (h : init total = some b) : Consistent (fun _ => False) b := by
  unfold init at h
  split at h
  · rename_i hle
    cases h
    have hnone : ∀ k i, ¬ (mk (fun _ => 0#8) (fun _ => 0#8) total 0).blocks k i := by
      rintro k i ⟨-, -, hf⟩
      rw [isFree, Bytes.test_eq _ _ (Nat.mod_lt _ (by omega))] at hf
      simp at hf
    have hcovers : ∀ p,
        ¬ Covers (mk (fun _ => 0#8) (fun _ => 0#8) total 0).blocks p :=
      fun p ⟨k, hk⟩ => hnone k _ hk
    have halloc : ∀ p,
        (mk (fun _ => 0#8) (fun _ => 0#8) total 0).isAllocated p = false := by
      intro p
      rw [isAllocated, Bytes.test_eq _ _ (Nat.mod_lt _ (by omega))]
      simp
    have hgood : Good maxOrder total
        (mk (fun _ => 0#8) (fun _ => 0#8) total 0).blocks :=
      ⟨fun k i h => (hnone k i h).elim, fun p k k' h => (hnone _ _ h).elim,
        fun k i _ h => (hnone k i h).elim⟩
    refine ⟨hle, hgood, fun p hp => hp.elim, fun p => ?_, fun p hp => hp.elim,
      fun p hp => (hcovers p hp).elim, ?_⟩
    · have := hcovers p
      have := halloc p
      simp_all
    · symm
      rw [Finset.card_eq_zero, Finset.eq_empty_iff_forall_notMem]
      intro p hp
      rw [mem_coveredPages hle hgood] at hp
      exact hcovers p hp
  · cases h

theorem BuddyRun.consistent {total : Nat} {added : Nat → Prop}
    (h : BuddyRun total added b) : Consistent added b := by
  induction h with
  | init h => exact init_consistent _ h
  | addRange _ hnew hok ih => exact ih.addRange hnew hok
  | alloc _ order ih => exact ih.alloc order
  | free _ hok ih => exact ih.free hok

/-- A page of a good family is in one block only. -/
theorem existsUnique_block {added : Nat → Prop} (h : Consistent added b)
    {p : Nat} (hp : Covers b.blocks p) :
    ∃! c : Nat × Nat, b.blocks c.1 c.2 ∧ p ∈ pages c.1 c.2 := by
  obtain ⟨k, hk⟩ := hp
  refine ⟨(k, p / 2 ^ k), ⟨hk, mem_pages.mpr rfl⟩, ?_⟩
  rintro ⟨k', i'⟩ ⟨hblock, hmem⟩
  dsimp only at hblock hmem
  rw [mem_pages] at hmem
  subst hmem
  have heq := h.good.separate p k' k hblock hk
  subst heq
  rfl

/-- At every point of a run of the allocator: the recorded free blocks are aligned, inside the total
    and pairwise disjoint; every added page is in exactly one of them or allocated, and not both;
    the free count is the number of pages in free blocks; no two buddies below the top order are
    both free. -/
theorem buddy_run_partition {total : Nat} {added : Nat → Prop} {b : BuddyAllocator}
    (h : BuddyRun total added b) :
    (∀ k i, b.blocks k i → i * 2 ^ k % 2 ^ k = 0 ∧ (i + 1) * 2 ^ k ≤ b.totalPages) ∧
    (∀ k i k' i', b.blocks k i → b.blocks k' i' → (k, i) ≠ (k', i') →
      Disjoint (pages k i) (pages k' i')) ∧
    (∀ p, added p →
      (∃! c : Nat × Nat, b.blocks c.1 c.2 ∧ p ∈ pages c.1 c.2) ∧ b.isAllocated p = false ∨
      (∀ k i, b.blocks k i → p ∉ pages k i) ∧ b.isAllocated p = true) ∧
    b.freeCount = b.coveredPages.card ∧
    (∀ k i, k < maxOrder → ¬ (b.blocks k i ∧ b.blocks k (i ^^^ 1))) := by
  have hc := h.consistent
  refine ⟨fun k i hi => ⟨Nat.mul_mod_left _ _, (hc.good.inside k i hi).2⟩, ?_, ?_, hc.count,
    fun k i hk hi => hc.good.coalesced k i hk hi.1 hi.2⟩
  · intro k i k' i' hi hi' hne
    rw [Finset.disjoint_left]
    intro p hp hp'
    rw [mem_pages] at hp hp'
    subst hp hp'
    have heq := hc.good.separate p k k' hi hi'
    subst heq
    exact hne rfl
  · intro p hp
    rcases (hc.added_iff p).mp hp with hno | hcov | halloc
    · exact hno.elim
    · exact .inl ⟨existsUnique_block hc hcov, hc.free_apart p hcov⟩
    · refine .inr ⟨fun k i hi hmem => ?_, halloc⟩
      rw [mem_pages] at hmem
      subst hmem
      rw [hc.free_apart p ⟨k, hi⟩] at halloc
      cases halloc

/-- Four pages, of which a block of two is handed out and its first page given back alone. -/
def buddyDemo : Option BuddyAllocator :=
  ((init 4).bind fun b => b.addRange 0 4).bind fun b => (b.alloc 1).1.free 0 0

theorem buddy_run_partition_page_by_page :
    ∃ b, buddyDemo = some b ∧ BuddyRun 4 (fun p => False ∨ 0 ≤ p ∧ p < 0 + 4) b ∧
      b.isAllocated 1 = true ∧ b.freeCount = 3 ∧ b.freeCount = b.coveredPages.card := by
  have hsome : (buddyDemo.map fun b => (b.isAllocated 1, b.freeCount)) = some (true, 3) := by
    decide +kernel
  obtain ⟨b, hb, hval⟩ := map_eq_some_iff.mp hsome
  obtain ⟨b₁, hadd, hfree⟩ := bind_eq_some_iff.mp hb
  obtain ⟨b₀, hinit, hadd⟩ := bind_eq_some_iff.mp hadd
  have hrun : BuddyRun 4 (fun p => False ∨ 0 ≤ p ∧ p < 0 + 4) b :=
    .free (.alloc (.addRange (.init hinit) (fun _ _ _ h => h) hadd) 1) hfree
  rw [Prod.mk.injEq] at hval
  exact ⟨b, hb, hrun, hval.1, hval.2, (buddy_run_partition hrun).2.2.2.1⟩

end Lockjaw.Mm
