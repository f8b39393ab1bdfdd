/-
  Lockjaw.Mm.DmaPool

  The DMA pool: the first-fit allocator over a bitmap of 64-bit words
  (`lockjaw-types/src/dma_pool.rs`) and the kernel's singleton that turns its
  page indices into physical addresses (`src/cap/dma_pool.rs`).

  `none` is a failed assertion.  The word array is a function: every index the
  operations use is below `dmaPoolPages`.  The pool's range is RAM, so an
  address in it does not overflow and is a natural number.
-/

import Lockjaw.Lib.FirstFit
import Lockjaw.Cap.PageTable

namespace Lockjaw.Mm

open Lib
open Cap (pageSize)

/-- Pages of the DMA pool: one 2 MiB block. -/
def dmaPoolPages : Nat := 512

inductive DmaPoolError where
  | invalidCount
  | exhausted
  deriving DecidableEq

/-- One bit per pool page, set if it is allocated, and their number. -/
structure DmaPool where
  bitmap : Nat → BitVec 64
  allocatedPages : Nat

namespace DmaPool

def empty : DmaPool := ⟨fun _ => 0, 0⟩

variable (p : DmaPool)

def bit (idx : Nat) : Bool := (p.bitmap (idx / 64) >>> (idx % 64)) &&& 1#64 != 0

def setBit (idx : Nat) (value : Bool) : DmaPool :=
  let mask := 1#64 <<< (idx % 64)
  let word := p.bitmap (idx / 64)
  let word := if value then word ||| mask else word &&& ~~~mask
  { p with bitmap := Function.update p.bitmap (idx / 64) word }

def alloc (count : Nat) : Except DmaPoolError (Nat × DmaPool) :=
  if count = 0 ∨ dmaPoolPages < count then .error .invalidCount
  else
    match firstFit p.bit count dmaPoolPages 0 none 0 with
    | some start =>
      .ok (start, { (List.range' start count).foldl (fun p i => p.setBit i true) p with
        allocatedPages := p.allocatedPages + count })
    | none => .error .exhausted

/-- The loop of `free`: each page must be allocated. -/
def clear (p : DmaPool) : List Nat → Option DmaPool
  | [] => some p
  | i :: is => if p.bit i then clear (p.setBit i false) is else none

def free (startIdx count : Nat) : Option DmaPool :=
  if startIdx + count ≤ dmaPoolPages then
    (p.clear (List.range' startIdx count)).map fun p' =>
      { p' with allocatedPages := p.allocatedPages - count }
  else none

/-! ## The bitmap -/

variable {p} {count i k : Nat}

theorem bit_eq (j : Nat) : p.bit j = (p.bitmap (j / 64)).getLsbD (j % 64) := by
  have hand := BitVec.and_one_eq_setWidth_ofBool_getLsbD (x := p.bitmap (j / 64) >>> (j % 64))
  rw [BitVec.getLsbD_ushiftRight, Nat.add_zero] at hand
  rw [bit, hand]
  cases (p.bitmap (j / 64)).getLsbD (j % 64) <;> rfl

/-- Setting a bit changes that page's bit and no other, in its word or in
    another one. -/
theorem bit_setBit (i : Nat) (v : Bool) (j : Nat) :
    (p.setBit i v).bit j = if j = i then v else p.bit j := by
  rw [bit_eq, bit_eq]
  by_cases hw : j / 64 = i / 64
  · have hlt : j % 64 < 64 := Nat.mod_lt _ (by decide)
    have hmask : (1#64 <<< (i % 64)).getLsbD (j % 64) = decide (j = i) := by
      rw [← BitVec.twoPow_eq, BitVec.getLsbD_twoPow, Bool.eq_iff_iff]
      simp only [Bool.and_eq_true, decide_eq_true_eq]
      omega
    simp only [setBit, hw, Function.update_self]
    cases v
    · rw [if_neg Bool.false_ne_true, BitVec.getLsbD_and, BitVec.getLsbD_not, hmask]
      by_cases hb : j = i <;> simp [hb, hlt]
    · rw [if_pos rfl, BitVec.getLsbD_or, hmask]
      by_cases hb : j = i <;> simp [hb]
  · have hne : j ≠ i := fun h => hw (congrArg (· / 64) h)
    simp only [setBit, Function.update_of_ne hw, if_neg hne]

/-! ## Allocating and freeing -/

/-- Page `i` is one of the `count` pages from `k` on. -/
def InRun (k count i : Nat) : Prop := k ≤ i ∧ i < k + count

theorem inRun_succ : InRun k (count + 1) i ↔ i = k ∨ InRun (k + 1) count i := by
  unfold InRun
  omega

theorem bit_foldl_setBit (k count j : Nat) :
    ((List.range' k count).foldl (fun p i => p.setBit i true) p).bit j = true ↔
      p.bit j = true ∨ InRun k count j := by
  induction count generalizing p k with
  | zero => simp [InRun]
  | succ count ih =>
    rw [List.range'_succ, List.foldl_cons, ih, bit_setBit, inRun_succ]
    by_cases h : j = k <;> simp [h]

theorem clear_of_bits (hset : ∀ i, InRun k count i → p.bit i = true) :
    ∃ p', p.clear (List.range' k count) = some p' ∧
      ∀ j, p'.bit j = true ↔ p.bit j = true ∧ ¬ InRun k count j := by
  induction count generalizing p k with
  | zero => exact ⟨p, rfl, fun j => by simp [InRun]⟩
  | succ count ih =>
    have hset' : ∀ i, InRun (k + 1) count i → (p.setBit k false).bit i = true := by
      intro i hi
      rw [bit_setBit, if_neg (Nat.ne_of_gt hi.1)]
      exact hset i (inRun_succ.mpr (.inr hi))
    obtain ⟨p', hclear, hbits⟩ := ih hset'
    refine ⟨p', ?_, fun j => ?_⟩
    · rw [List.range'_succ, clear, if_pos (hset k (inRun_succ.mpr (.inl rfl))), hclear]
    · rw [hbits, bit_setBit, inRun_succ]
      by_cases h : j = k <;> simp [h]

/-- `alloc` finds the lowest run and marks its pages. -/
theorem alloc_ok {p' : DmaPool} (h : p.alloc count = .ok (k, p')) :
    IsLeast {k | FreeRun p.bit dmaPoolPages count k} k ∧
    p'.allocatedPages = p.allocatedPages + count ∧
    ∀ j, p'.bit j = true ↔ p.bit j = true ∨ InRun k count j := by
  unfold alloc at h
  split at h
  · cases h
  · split at h
    · next hbad _ _ hfit =>
      cases h
      have hleast := (firstFit_eq_some_iff (by omega) k).mp hfit
      exact ⟨hleast, rfl, bit_foldl_setBit k count⟩
    · cases h

theorem alloc_ok_iff (count k : Nat) : (∃ p', p.alloc count = .ok (k, p')) ↔
    IsLeast {k | FreeRun p.bit dmaPoolPages count k} k := by
  refine ⟨fun ⟨p', h⟩ => (alloc_ok h).1, fun h => ?_⟩
  have hpos := h.1.pos
  have hle := h.1.le
  rw [alloc, if_neg (by omega), (firstFit_eq_some_iff hpos k).mpr h]
  exact ⟨_, rfl⟩

/-- Some run suffices, since then there is a lowest one. -/
theorem alloc_ok_iff_exists (count : Nat) : (∃ r, p.alloc count = .ok r) ↔
    ∃ k, FreeRun p.bit dmaPoolPages count k := by
  refine ⟨fun ⟨⟨k, p'⟩, h⟩ => ⟨k, (alloc_ok h).1.1⟩, fun h => ?_⟩
  obtain ⟨p', hp⟩ := (alloc_ok_iff count _).mpr (isLeast_csInf h)
  exact ⟨_, hp⟩

end DmaPool

/-! ## The kernel's pool -/

/-- The base is 0 until `init`, and stays so if no pool was carved out. -/
structure DmaPoolSingleton where
  basePhys : Nat
  pool : DmaPool

namespace DmaPoolSingleton

def allocPages (s : DmaPoolSingleton) (count : Nat) :
    Except DmaPoolError (Nat × DmaPoolSingleton) :=
  if s.basePhys = 0 then .error .exhausted
  else (s.pool.alloc count).map fun r => (s.basePhys + r.1 * pageSize, { s with pool := r.2 })

def freePages (s : DmaPoolSingleton) (firstPhys count : Nat) : Option DmaPoolSingleton :=
  if s.basePhys ≠ 0 ∧ s.basePhys ≤ firstPhys ∧ (firstPhys - s.basePhys) % pageSize = 0 then
    (s.pool.free ((firstPhys - s.basePhys) / pageSize) count).map fun p => { s with pool := p }
  else none

end DmaPoolSingleton

/-! ## Histories -/

/-- An allocation, or the freeing of the `i`-th live allocation, if there is one. -/
inductive DmaOp where
  | alloc (count : Nat)
  | free (i : Nat)

/-- The pool with its live allocations: first address and page count. -/
structure DmaHistory where
  kernel : DmaPoolSingleton
  live : List (Nat × Nat)

namespace DmaHistory

def step (d : DmaHistory) : DmaOp → Option DmaHistory
  | .alloc count =>
    match d.kernel.allocPages count with
    | .ok (phys, s) => some ⟨s, (phys, count) :: d.live⟩
    | .error _ => some d
  | .free i =>
    match d.live[i]? with
    | some a => (d.kernel.freePages a.1 a.2).map (⟨·, d.live.eraseIdx i⟩)
    | none => some d

def run (base : Nat) (ops : List DmaOp) : Option DmaHistory := ops.foldlM step ⟨⟨base, .empty⟩, []⟩

/-- Pool page `i` lies in the allocation. -/
def Covers (base : Nat) (a : Nat × Nat) (i : Nat) : Prop :=
  a.1 ≤ base + i * pageSize ∧ base + i * pageSize < a.1 + a.2 * pageSize

/-- The live allocations are disjoint runs of the pool, and the bitmap marks
    exactly their pages. -/
structure Ok (base : Nat) (d : DmaHistory) : Prop where
  base_eq : d.kernel.basePhys = base
  inside : ∀ a ∈ d.live, base ≠ 0 ∧ 0 < a.2 ∧
    ∃ k, a.1 = base + k * pageSize ∧ k + a.2 ≤ dmaPoolPages
  apart : d.live.Pairwise fun a b => ∀ i, ¬ (Covers base a i ∧ Covers base b i)
  marks : ∀ i, d.kernel.pool.bit i = true ↔ ∃ a ∈ d.live, Covers base a i
  counted : d.kernel.pool.allocatedPages = (d.live.map (·.2)).sum

variable {base i k : Nat} {a : Nat × Nat} {d : DmaHistory} {s : DmaPoolSingleton}
  {live live' : List (Nat × Nat)}

theorem covers_iff (h : a.1 = base + k * pageSize) :
    Covers base a i ↔ DmaPool.InRun k a.2 i := by
  unfold Covers DmaPool.InRun pageSize at *
  omega

theorem Ok.perm (hok : Ok base ⟨s, live⟩) (h : live.Perm live') : Ok base ⟨s, live'⟩ where
  base_eq := hok.base_eq
  inside a ha := hok.inside a (h.mem_iff.mpr ha)
  apart := (h.pairwise_iff fun hab i hi => hab i hi.symm).mp hok.apart
  marks i := by simpa only [h.mem_iff] using hok.marks i
  counted := hok.counted.trans (h.map _).sum_eq

/-- Freeing a live allocation trips no assertion and frees its pages only. -/
theorem Ok.free_head (hok : Ok base ⟨s, a :: live⟩) :
    ∃ s', s.freePages a.1 a.2 = some s' ∧ Ok base ⟨s', live⟩ ∧
      ∀ i, s'.pool.bit i = true ↔ s.pool.bit i = true ∧ ¬ Covers base a i := by
  obtain ⟨hbase, hpos, k, hk, hle⟩ := hok.inside a List.mem_cons_self
  obtain ⟨happart, hrest⟩ := List.pairwise_cons.mp hok.apart
  obtain ⟨p', hclear, hbits⟩ := DmaPool.clear_of_bits (p := s.pool) fun i hi =>
    (hok.marks i).mpr ⟨a, List.mem_cons_self, (covers_iff hk).mpr hi⟩
  have heq : s.basePhys = base := hok.base_eq
  have hoff : a.1 - s.basePhys = k * pageSize := by omega
  -- the checks of `free_pages` hold for the address that `alloc_pages` gave
  have hguard : s.basePhys ≠ 0 ∧ s.basePhys ≤ a.1 ∧ (a.1 - s.basePhys) % pageSize = 0 :=
    ⟨heq ▸ hbase, by omega, by rw [hoff, Nat.mul_mod_left]⟩
  have hbits' : ∀ i, p'.bit i = true ↔ s.pool.bit i = true ∧ ¬ Covers base a i := by
    intro i
    rw [hbits, covers_iff hk]
  refine ⟨⟨base, { p' with allocatedPages := s.pool.allocatedPages - a.2 }⟩, ?_, ?_, hbits'⟩
  · rw [DmaPoolSingleton.freePages, if_pos hguard, hoff, Nat.mul_div_cancel _ (by decide),
      DmaPool.free, if_pos hle, hclear, heq]
    rfl
  · refine ⟨rfl, fun b hb => hok.inside b (.tail _ hb), hrest, fun i => ?_, ?_⟩
    · refine (hbits' i).trans ⟨fun ⟨hi, hna⟩ => ?_, fun ⟨b, hb, hi⟩ => ?_⟩
      · obtain ⟨b, hb, hbi⟩ := (hok.marks i).mp hi
        rcases List.mem_cons.mp hb with rfl | hb
        · exact absurd hbi hna
        · exact ⟨b, hb, hbi⟩
      · exact ⟨(hok.marks i).mpr ⟨b, .tail _ hb, hi⟩, fun ha => happart b hb i ⟨ha, hi⟩⟩
    · have hsum := hok.counted
      simp only [List.map_cons, List.sum_cons] at hsum
      exact (by omega : s.pool.allocatedPages - a.2 = (live.map (·.2)).sum)

theorem Ok.alloc_head (hok : Ok base ⟨s, live⟩) {count phys : Nat} {s' : DmaPoolSingleton}
    (h : s.allocPages count = .ok (phys, s')) : Ok base ⟨s', (phys, count) :: live⟩ := by
  obtain rfl : s.basePhys = base := hok.base_eq
  rw [DmaPoolSingleton.allocPages] at h
  split at h
  · cases h
  next hbase =>
  cases hp : s.pool.alloc count with
  | error e =>
    rw [hp] at h
    cases h
  | ok r =>
    rw [hp] at h
    cases h
    obtain ⟨⟨hfit, -⟩, hpages, hbits⟩ := DmaPool.alloc_ok hp
    have hcov : ∀ i, Covers s.basePhys (s.basePhys + r.1 * pageSize, count) i ↔
        DmaPool.InRun r.1 count i := fun i => covers_iff rfl
    refine ⟨rfl, ?_, List.pairwise_cons.mpr ⟨fun b hb i hi => ?_, hok.apart⟩, fun i => ?_, ?_⟩
    · rintro b (_ | ⟨_, hb⟩)
      · exact ⟨hbase, hfit.pos, r.1, rfl, hfit.le⟩
      · exact hok.inside b hb
    · -- a page of an older allocation is marked, so it is not in a free run
      have hrun := (hcov i).mp hi.1
      have hset := (hok.marks i).mpr ⟨b, hb, hi.2⟩
      exact Bool.false_ne_true ((hfit.free i hrun.1 hrun.2).symm.trans hset)
    · rw [List.exists_mem_cons_iff, hcov, ← hok.marks i, or_comm]
      exact hbits i
    · exact hpages.trans (by rw [hok.counted, List.map_cons, List.sum_cons, Nat.add_comm])

theorem Ok.step (hok : d.Ok base) (op : DmaOp) : ∃ d', d.step op = some d' ∧ d'.Ok base := by
  cases op with
  | alloc count =>
    rw [DmaHistory.step]
    split
    · next h => exact ⟨_, rfl, hok.alloc_head h⟩
    · exact ⟨_, rfl, hok⟩
  | free i =>
    rw [DmaHistory.step]
    split
    · next a ha =>
      obtain ⟨hi, rfl⟩ := List.getElem?_eq_some_iff.mp ha
      obtain ⟨s', hfree, hok', -⟩ := (hok.perm (List.getElem_cons_eraseIdx_perm hi).symm).free_head
      exact ⟨_, by rw [hfree]; rfl, hok'⟩
    · exact ⟨_, rfl, hok⟩

theorem Ok.run (hok : d.Ok base) (ops : List DmaOp) :
    ∃ d', ops.foldlM DmaHistory.step d = some d' ∧ d'.Ok base := by
  induction ops generalizing d with
  | nil => exact ⟨d, rfl, hok⟩
  | cons op ops ih =>
    obtain ⟨d', hstep, hok'⟩ := hok.step op
    obtain ⟨d'', hrun, hok''⟩ := ih hok'
    exact ⟨d'', by rw [List.foldlM_cons, hstep]; exact hrun, hok''⟩

theorem Ok.empty (base : Nat) : Ok base ⟨⟨base, .empty⟩, []⟩ where
  base_eq := rfl
  inside a ha := by cases ha
  apart := .nil
  marks i := by simp [DmaPool.bit_eq, DmaPool.empty]
  counted := rfl

/-- Every history runs without a failed assertion; after it the live
    allocations are disjoint runs that the bitmap marks exactly, `alloc` finds
    the lowest free run if there is one, and every live allocation can be freed. -/
theorem run_ok (base : Nat) (ops : List DmaOp) :
    ∃ d, run base ops = some d ∧ d.Ok base ∧
      (∀ count, (∃ r, d.kernel.pool.alloc count = .ok r) ↔
        ∃ k, FreeRun d.kernel.pool.bit dmaPoolPages count k) ∧
      (∀ count k, (∃ p, d.kernel.pool.alloc count = .ok (k, p)) ↔
        IsLeast {k | FreeRun d.kernel.pool.bit dmaPoolPages count k} k) ∧
      ∀ a ∈ d.live, ∃ s, d.kernel.freePages a.1 a.2 = some s ∧
        ∀ i, s.pool.bit i = true ↔ d.kernel.pool.bit i = true ∧ ¬ Covers base a i := by
  obtain ⟨d, hrun, hok⟩ := (Ok.empty base).run ops
  refine ⟨d, hrun, hok, DmaPool.alloc_ok_iff_exists, DmaPool.alloc_ok_iff, fun a ha => ?_⟩
  obtain ⟨s, hfree, -, hbits⟩ := (hok.perm (List.perm_cons_erase ha)).free_head
  exact ⟨s, hfree, hbits⟩

end DmaHistory

end Lockjaw.Mm
