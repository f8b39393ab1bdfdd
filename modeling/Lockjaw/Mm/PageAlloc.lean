/-
  Lockjaw.Mm.PageAlloc

  The boot-time reservation of `src/mm/page_alloc.rs` (`init_with_gap`) and the
  pages of the device tree blob (`lockjaw-types/src/dtb_layout.rs`).

  Pages are counted from the start of RAM.  The allocator frees what lies
  between the kernel's end and the per-CPU stacks and what lies after the
  stacks, without the DMA pool; it does not look at the device tree blob, and
  neither does the pool, which starts with all its pages free.
-/

import Lockjaw.Mm.BuddyRun
import Lockjaw.Mm.DmaPool

namespace Lockjaw.Mm

open BuddyAllocator Option
open Cap (pageSize)

/-! ## Layouts -/

/-- The discovered RAM and the linker layout: the kernel image, then the
    per-CPU stacks, inside RAM. -/
structure BootLayout where
  ramStart : Nat
  ramSize : Nat
  kernelStart : Nat
  kernelEnd : Nat
  stacksStart : Nat
  stacksEnd : Nat
  ram_aligned : ramStart % pageSize = 0
  ram_le : ramSize ≤ 2 ^ 30
  ram_fits : ramStart + ramSize < 2 ^ 64
  kernel_in : ramStart ≤ kernelStart ∧ kernelStart < kernelEnd
  stacks_after : kernelEnd ≤ stacksStart ∧ stacksStart ≤ stacksEnd
  stacks_in : stacksEnd ≤ ramStart + ramSize

/-- The device tree blob: where the firmware put it, and its content size. -/
structure Dtb where
  paddr : Nat
  contentSize : Nat

/-- First page and page count of the blob (`compute_layout`). -/
def Dtb.computeLayout (d : Dtb) : Nat × Nat :=
  let inPageOffset := d.paddr % pageSize
  let firstPage := d.paddr / pageSize
  let totalBytes := inPageOffset + d.contentSize
  (firstPage, (totalBytes + pageSize - 1) / pageSize)

/-- The blob lies in RAM, outside kernel image and stacks, and the boot code accepts its size. -/
def Dtb.Placed (d : Dtb) (l : BootLayout) : Prop :=
  l.ramStart ≤ d.paddr ∧ d.paddr + d.contentSize ≤ l.ramStart + l.ramSize ∧
  (d.paddr + d.contentSize ≤ l.kernelStart ∨ l.kernelEnd ≤ d.paddr) ∧
  (d.paddr + d.contentSize ≤ l.stacksStart ∨ l.stacksEnd ≤ d.paddr) ∧
  0 < d.computeLayout.2 ∧ d.computeLayout.2 ≤ 16

/-- A `u64` subtraction. -/
def sub64 (a b : Nat) : Nat := (a + 2 ^ 64 - b) % 2 ^ 64

namespace BootLayout

variable (l : BootLayout)

def ramEnd : Nat := l.ramStart + l.ramSize

def totalPages : Nat := l.ramSize / pageSize

def pageIndex (addr : Nat) : Nat := (addr - l.ramStart) / pageSize

/-- Page index of an end address, rounded up. -/
def roundUpPage (addr : Nat) : Nat :=
  let idx := l.pageIndex addr
  if addr % pageSize ≠ 0 then idx + 1 else idx

/-- Base of the highest 2 MiB block below the end of RAM. -/
def poolBase : Nat :=
  let l2SizeBytes := dmaPoolPages * pageSize
  let poolEndAligned := l.ramEnd - l.ramEnd % l2SizeBytes
  poolEndAligned - l2SizeBytes

def poolFirstPage : Nat := sub64 l.poolBase l.ramStart / pageSize

def poolLastPage : Nat := l.poolFirstPage + dmaPoolPages

end BootLayout

/-- `add_range`, skipped for an empty range. -/
def addNonempty (b : BuddyAllocator) (start count : Nat) : Option BuddyAllocator :=
  if count > 0 then b.addRange start count else some b

/-- Region 1: the gap between the kernel's end and the stacks. -/
def addGap (l : BootLayout) (b : BuddyAllocator) : Option BuddyAllocator :=
  let kernelEndPage := l.roundUpPage l.kernelEnd
  let stacksStartPage := l.pageIndex l.stacksStart
  if stacksStartPage > kernelEndPage then
    b.addRange kernelEndPage (stacksStartPage - kernelEndPage)
  else some b

/-- Region 2: everything after the stacks, without the pool.  Returns the base
    of the pool if one was carved out. -/
def addRest (l : BootLayout) (b : BuddyAllocator) : Option (BuddyAllocator × Option Nat) :=
  let stacksEndPage := l.roundUpPage l.stacksEnd
  if l.totalPages > stacksEndPage then
    if l.poolFirstPage ≥ stacksEndPage ∧ l.poolLastPage ≤ l.totalPages then
      (addNonempty b stacksEndPage (l.poolFirstPage - stacksEndPage)).bind fun b =>
        (addNonempty b l.poolLastPage (l.totalPages - l.poolLastPage)).map fun b =>
          (b, some l.poolBase)
    else
      -- tight RAM: no pool
      (b.addRange stacksEndPage (l.totalPages - stacksEndPage)).map fun b => (b, none)
  else some (b, none)

/-- `init_with_gap`: the allocator, and the base of the DMA pool if any. -/
def initWithGap (l : BootLayout) : Option (BuddyAllocator × Option Nat) :=
  (init l.totalPages).bind fun b => (addGap l b).bind (addRest l)

/-! ## Which pages are which -/

namespace BootLayout

variable (l : BootLayout)

def pageAddr (i : Nat) : Nat := l.ramStart + i * pageSize

/-- Page `i` holds a byte of the per-CPU stacks. -/
def InStacks (i : Nat) : Prop :=
  l.pageAddr i < l.stacksEnd ∧ l.stacksStart < l.pageAddr i + pageSize

/-- Page `i` belongs to the DMA pool at `base`, if there is one. -/
def InPool (base : Option Nat) (i : Nat) : Prop :=
  ∃ a, base = some a ∧ a ≤ l.pageAddr i ∧ l.pageAddr i < a + dmaPoolPages * pageSize

/-- Page `i` is one of the pages of the blob. -/
def InDtb (d : Dtb) (i : Nat) : Prop :=
  d.computeLayout.1 ≤ l.ramStart / pageSize + i ∧
    l.ramStart / pageSize + i < d.computeLayout.1 + d.computeLayout.2

/-- The RAM pages at or above the kernel's end, without stacks and pool. -/
def Usable (base : Option Nat) (i : Nat) : Prop :=
  i < l.totalPages ∧ l.kernelEnd ≤ l.pageAddr i ∧ ¬ l.InStacks i ∧ ¬ l.InPool base i

end BootLayout

/-! ## The free pages after boot -/

/-- The pages `added` are free, and no page is handed out. -/
structure Fresh (total : Nat) (added : Nat → Prop) (b : BuddyAllocator) : Prop where
  totalPages : b.totalPages = total
  consistent : Consistent added b
  idle : ∀ q, b.isAllocated q = false

section Fresh

variable {total : Nat} {added added' : Nat → Prop} {b : BuddyAllocator}

theorem Fresh.congr (h : Fresh total added b) (hiff : ∀ p, added' p ↔ added p) :
    Fresh total added' b := by
  have heq : added' = added := funext fun p => propext (hiff p)
  rw [heq]
  exact h

theorem Fresh.mem_coveredPages (h : Fresh total added b) (p : Nat) :
    p ∈ b.coveredPages ↔ added p := by
  rw [BuddyAllocator.mem_coveredPages h.consistent.total h.consistent.good,
    h.consistent.added_iff p, h.idle p]
  simp

theorem Fresh.init (hle : total ≤ maxPages) :
    ∃ b, init total = some b ∧ Fresh total (fun _ => False) b := by
  refine ⟨⟨fun _ => 0#8, fun _ => 0#8, total, 0⟩, ?_, rfl, ?_, ?_⟩
  · rw [BuddyAllocator.init, if_pos hle]
  · exact init_consistent total (by rw [BuddyAllocator.init, if_pos hle])
  · intro q
    rw [isAllocated, Bytes.test_eq _ _ (Nat.mod_lt _ (by omega))]
    simp

variable {s n : Nat}

section

variable (h : Fresh total added b) (hend : s + n ≤ total)
  (hnew : ∀ p, s ≤ p → p < s + n → ¬ added p)
include h hend hnew

theorem Fresh.addRange :
    ∃ b', b.addRange s n = some b' ∧ Fresh total (fun p => added p ∨ s ≤ p ∧ p < s + n) b' := by
  obtain ⟨b', hok, htotal, halloc⟩ := addRange_isSome (b := b) (by rw [h.totalPages]; exact hend)
  refine ⟨b', hok, by rw [htotal, h.totalPages], h.consistent.addRange hnew hok, fun q => ?_⟩
  rw [halloc, h.idle q, Bool.false_and]

theorem Fresh.addNonempty :
    ∃ b', Mm.addNonempty b s n = some b' ∧
      Fresh total (fun p => added p ∨ s ≤ p ∧ p < s + n) b' := by
  grind [h.addRange, h.congr, Mm.addNonempty]

end

end Fresh

namespace BootLayout

variable {l : BootLayout} {addr i : Nat}

theorem roundUpPage_le (ha : l.ramStart ≤ addr) : l.roundUpPage addr ≤ i ↔ addr ≤ l.pageAddr i := by
  have hal := l.ram_aligned
  unfold roundUpPage pageIndex pageAddr
  dsimp only
  by_cases hmod : addr % pageSize ≠ 0
  · rw [if_pos hmod]
    simp only [pageSize] at hal hmod ⊢
    omega
  · rw [if_neg hmod]
    simp only [pageSize] at hal hmod ⊢
    omega

theorem lt_pageIndex (ha : l.ramStart ≤ addr) :
    i < l.pageIndex addr ↔ l.pageAddr i + pageSize ≤ addr := by
  unfold pageIndex pageAddr
  simp only [pageSize]
  omega

/-- A page is clear of the stacks when it ends before them or starts after. -/
theorem not_inStacks :
    ¬ l.InStacks i ↔ i < l.pageIndex l.stacksStart ∨ l.roundUpPage l.stacksEnd ≤ i := by
  have hk := l.kernel_in
  have hs := l.stacks_after
  rw [lt_pageIndex (by omega), roundUpPage_le (by omega)]
  unfold InStacks
  omega

/-- A pool that ends inside RAM starts inside RAM, at its first page. -/
theorem poolBase_eq (hle : l.poolLastPage ≤ l.totalPages) :
    l.poolBase = l.pageAddr l.poolFirstPage := by
  have hal := l.ram_aligned
  have hram := l.ram_le
  have hfits := l.ram_fits
  have hmod : l.ramEnd % 2097152 ≤ l.ramEnd := Nat.mod_le _ _
  unfold poolLastPage poolFirstPage totalPages at hle
  unfold pageAddr poolFirstPage
  unfold poolBase sub64 at *
  simp only [pageSize, dmaPoolPages] at *
  unfold ramEnd at *
  omega

theorem inPool_iff (hle : l.poolLastPage ≤ l.totalPages) :
    l.InPool (some l.poolBase) i ↔ l.poolFirstPage ≤ i ∧ i < l.poolLastPage := by
  have hbase := poolBase_eq hle
  unfold InPool
  simp only [some.injEq, exists_eq_left']
  unfold poolLastPage pageAddr at *
  simp only [pageSize, dmaPoolPages] at *
  omega

theorem not_inPool_none : ¬ l.InPool none i := by
  rintro ⟨a, ha, -⟩
  cases ha

theorem totalPages_le : l.totalPages ≤ maxPages := by
  have hram := l.ram_le
  unfold totalPages maxPages
  simp only [pageSize]
  omega

/-- The pages in use end inside the managed pages, or nothing is left. -/
theorem pageIndex_stacksStart_le : l.pageIndex l.stacksStart ≤ l.totalPages := by
  have hk := l.kernel_in
  have hs := l.stacks_after
  have hin := l.stacks_in
  unfold pageIndex totalPages
  simp only [pageSize]
  omega

end BootLayout

open BootLayout in
/-- The usable pages by page index. -/
theorem usable_iff (l : BootLayout) {base : Option Nat} {i : Nat} :
    l.Usable base i ↔ i < l.totalPages ∧ l.roundUpPage l.kernelEnd ≤ i ∧
      (i < l.pageIndex l.stacksStart ∨ l.roundUpPage l.stacksEnd ≤ i) ∧ ¬ l.InPool base i := by
  have hk := l.kernel_in
  have hkernel : l.roundUpPage l.kernelEnd ≤ i ↔ l.kernelEnd ≤ l.pageAddr i :=
    roundUpPage_le (by omega)
  unfold Usable
  rw [not_inStacks, hkernel]

open BootLayout in
/-- The first region. -/
theorem gap_spec (l : BootLayout) :
    ∃ b b', init l.totalPages = some b ∧ addGap l b = some b' ∧
      Fresh l.totalPages (fun i => l.roundUpPage l.kernelEnd ≤ i ∧ i < l.pageIndex l.stacksStart)
        b' := by
  have hgap := l.pageIndex_stacksStart_le
  obtain ⟨b, hinit, hfresh⟩ := Fresh.init l.totalPages_le
  unfold addGap
  dsimp only
  split
  · obtain ⟨b', hok, hfresh'⟩ := hfresh.addRange (s := l.roundUpPage l.kernelEnd)
      (n := l.pageIndex l.stacksStart - l.roundUpPage l.kernelEnd) (by omega) fun _ _ _ h => h
    exact ⟨b, b', hinit, hok, hfresh'.congr fun p => by rw [false_or]; omega⟩
  · exact ⟨b, b, hinit, rfl, hfresh.congr fun p => by rw [iff_false]; omega⟩

open BootLayout in
/-- `init_with_gap` succeeds on every layout and frees the usable pages; a pool comes after the
    stacks. -/
theorem initWithGap_spec (l : BootLayout) :
    ∃ b base, initWithGap l = some (b, base) ∧ Fresh l.totalPages (l.Usable base) b ∧
      ∀ a ∈ base, l.stacksEnd ≤ a := by
  have hstacks : l.pageIndex l.stacksStart ≤ l.roundUpPage l.stacksEnd := by
    have hk := l.kernel_in
    have hs := l.stacks_after
    apply Nat.le_of_not_lt
    intro hlt
    have h1 := (lt_pageIndex (by omega)).mp hlt
    have h2 := (roundUpPage_le (l := l) (by omega)).mp (Nat.le_refl (l.roundUpPage l.stacksEnd))
    simp only [pageSize] at h1
    omega
  have hkernel : l.roundUpPage l.kernelEnd ≤ l.roundUpPage l.stacksEnd := by
    have hk := l.kernel_in
    have hs := l.stacks_after
    have h := (roundUpPage_le (l := l) (by omega)).mp (Nat.le_refl (l.roundUpPage l.stacksEnd))
    rw [roundUpPage_le (by omega)]
    omega
  obtain ⟨b0, b1, hinit, hgap, hfresh⟩ := gap_spec l
  have hwhole : initWithGap l = addRest l b1 := by
    rw [initWithGap, hinit, bind_some, hgap, bind_some]
  rw [hwhole]
  unfold addRest
  dsimp only
  split
  · rename_i hroom
    split
    · rename_i hpool
      -- the pages before the pool and those after it are added, the pool itself is left out
      obtain ⟨b2, hpre, hfresh2⟩ := hfresh.addNonempty (s := l.roundUpPage l.stacksEnd)
        (n := l.poolFirstPage - l.roundUpPage l.stacksEnd)
        (by have := hpool.2; unfold poolLastPage at this; omega) (by intro p h1 h2; omega)
      obtain ⟨b3, hpost, hfresh3⟩ := hfresh2.addNonempty (s := l.poolLastPage)
        (n := l.totalPages - l.poolLastPage) (by omega)
        (by intro p h1 h2; have := hpool.1; unfold poolLastPage at h1; omega)
      refine ⟨b3, some l.poolBase, by rw [hpre, bind_some, hpost, map_some],
        hfresh3.congr fun i => ?_, ?_⟩
      · rw [usable_iff, inPool_iff hpool.2]
        have hend := l.pageIndex_stacksStart_le
        have hlast : l.poolLastPage = l.poolFirstPage + dmaPoolPages := rfl
        omega
      · intro a ha
        have hk := l.kernel_in
        have hs := l.stacks_after
        rw [← mem_some.mp ha, poolBase_eq hpool.2]
        exact (roundUpPage_le (by omega)).mp hpool.1
    · obtain ⟨b2, hrest, hfresh2⟩ := hfresh.addRange (s := l.roundUpPage l.stacksEnd)
        (n := l.totalPages - l.roundUpPage l.stacksEnd) (by omega) (by intro p h1 h2; omega)
      refine ⟨b2, none, by rw [hrest, map_some], hfresh2.congr fun i => ?_, nofun⟩
      have hend := l.pageIndex_stacksStart_le
      have hno : ¬ l.InPool none i := not_inPool_none
      rw [usable_iff]
      simp only [hno, not_false_eq_true, and_true]
      omega
  · refine ⟨b1, none, rfl, hfresh.congr fun i => ?_, nofun⟩
    have hend := l.pageIndex_stacksStart_le
    have hno : ¬ l.InPool none i := not_inPool_none
    rw [usable_iff]
    simp only [hno, not_false_eq_true, and_true]
    omega

/-! ## The device tree blob -/

/-- The two allocators of physical pages. -/
structure Memory where
  buddy : BuddyAllocator
  pool : DmaHistory

/-- The allocators after `init_with_gap`: without a pool the base stays 0. -/
def Memory.boot (b : BuddyAllocator) (base : Option Nat) : Memory :=
  ⟨b, ⟨⟨base.getD 0, .empty⟩, []⟩⟩

/-- What happens to the allocators after boot. -/
inductive Later (m : Memory) : Memory → Prop where
  | refl : Later m m
  | alloc {m' : Memory} (h : Later m m') (order : Nat) :
      Later m { m' with buddy := (m'.buddy.alloc order).1 }
  | free {m' : Memory} {b : BuddyAllocator} {page order : Nat} (h : Later m m')
      (hok : m'.buddy.free page order = some b) : Later m { m' with buddy := b }
  | dma {m' : Memory} {p : DmaHistory} (h : Later m m') (op : DmaOp)
      (hok : m'.pool.step op = some p) : Later m { m' with pool := p }

/-- The page at `addr`, number `i` of RAM, is handed out by one of them. -/
def Memory.HandedOut (m : Memory) (i addr : Nat) : Prop :=
  m.buddy.isAllocated i = true ∨ ∃ a ∈ m.pool.live, a.1 ≤ addr ∧ addr < a.1 + a.2 * pageSize

section

variable {added : Nat → Prop} {m m' : Memory} {base i addr : Nat}

theorem Later.consistent (h : Later m m') (hc : Consistent added m.buddy) :
    Consistent added m'.buddy := by
  induction h with
  | refl => exact hc
  | alloc _ order ih => exact ih.alloc order
  | free _ hok ih => exact ih.free hok
  | dma _ _ _ ih => exact ih

theorem Later.pool_ok (h : Later m m') (hp : m.pool.Ok base) : m'.pool.Ok base := by
  induction h with
  | refl => exact hp
  | alloc _ _ ih | free _ _ ih => exact ih
  | dma _ op hok ih =>
    obtain ⟨p, hstep, hp'⟩ := ih.step op
    cases hok.symm.trans hstep
    exact hp'

/-- What the pool hands out lies in it. -/
theorem DmaHistory.Ok.live_inside {p : DmaHistory} (hp : p.Ok base) {a : Nat × Nat}
    (ha : a ∈ p.live) (hle : a.1 ≤ addr) (hlt : addr < a.1 + a.2 * pageSize) :
    base ≠ 0 ∧ base ≤ addr ∧ addr < base + dmaPoolPages * pageSize := by
  obtain ⟨hbase, -, k, hk, hend⟩ := hp.inside a ha
  simp only [dmaPoolPages, pageSize] at *
  omega

/-- One allocation can take the whole pool. -/
theorem Memory.boot_handsOut_pool (b : BuddyAllocator) (hbase : base ≠ 0) (i : Nat)
    (hle : base ≤ addr) (hlt : addr < base + dmaPoolPages * pageSize) :
    ∃ m, Later (Memory.boot b (some base)) m ∧ m.HandedOut i addr := by
  have hempty := DmaHistory.Ok.empty base
  obtain ⟨r, hr⟩ := (DmaPool.alloc_ok_iff_exists dmaPoolPages).mpr ⟨0, (by decide : 0 < dmaPoolPages),
    Nat.le_refl _, fun i _ _ => Bool.eq_false_iff.mpr fun hi => by
      obtain ⟨a, ha, -⟩ := (hempty.marks i).mp hi
      cases ha⟩
  have hstep : (DmaHistory.mk ⟨base, .empty⟩ []).step (.alloc dmaPoolPages) =
      some ⟨⟨base, r.2⟩, [(base + r.1 * pageSize, dmaPoolPages)]⟩ := by
    rw [DmaHistory.step, DmaPoolSingleton.allocPages, if_neg hbase, hr]
    rfl
  have hend := (DmaPool.alloc_ok hr).1.1.le
  refine ⟨_, .dma .refl (.alloc dmaPoolPages) hstep, .inr ⟨_, List.mem_singleton_self _, ?_, ?_⟩⟩
  · show base + r.1 * pageSize ≤ addr
    simp only [pageSize] at *
    omega
  · show addr < base + r.1 * pageSize + dmaPoolPages * pageSize
    omega

end

/-- After boot the free pages are exactly the usable ones without the pages of the blob, and
    neither allocator ever hands out a page of the blob, exactly when every page of the blob in RAM
    lies below the kernel's end or holds a part of the stacks. -/
theorem init_free_exact_iff (l : BootLayout) (d : Dtb) :
    ∃ b base, initWithGap l = some (b, base) ∧
      (((∀ i, i ∈ b.coveredPages ↔ l.Usable base i ∧ ¬ l.InDtb d i) ∧
          ∀ m, Later (Memory.boot b base) m → ∀ i, i < l.totalPages → l.InDtb d i →
            ¬ m.HandedOut i (l.pageAddr i)) ↔
        ∀ i, i < l.totalPages → l.InDtb d i → l.pageAddr i < l.kernelEnd ∨ l.InStacks i) := by
  obtain ⟨b, base, hok, hfresh, hpool⟩ := initWithGap_spec l
  have hk := l.kernel_in
  have hs := l.stacks_after
  refine ⟨b, base, hok, ?_, ?_⟩
  · rintro ⟨hexact, hlater⟩ i hi hdtb
    have hnot : ¬ l.Usable base i := by
      rw [← hfresh.mem_coveredPages i, hexact i]
      exact fun h => h.2 hdtb
    by_contra hcond
    obtain ⟨hkernel, hstacks⟩ := not_or.mp hcond
    refine hnot ⟨hi, Nat.le_of_not_lt hkernel, hstacks, ?_⟩
    rintro ⟨a, rfl, hle, hlt⟩
    have ha := hpool a rfl
    obtain ⟨m, hm, hout⟩ := Memory.boot_handsOut_pool b (by omega) i hle hlt
    exact hlater m hm i hi hdtb hout
  · intro hcond
    have hapart : ∀ i, l.InDtb d i → ¬ l.Usable base i := by
      rintro i hdtb ⟨hi, hkernel, hstacks, -⟩
      exact (hcond i hi hdtb).elim (Nat.not_lt.mpr hkernel) hstacks
    refine ⟨fun i => ?_, fun m hm i hi hdtb hout => ?_⟩
    · rw [hfresh.mem_coveredPages i]
      exact ⟨fun hu => ⟨hu, fun hdtb => hapart i hdtb hu⟩, fun h => h.1⟩
    rcases hout with halloc | ⟨a, ha, hle, hlt⟩
    · have hc := hm.consistent hfresh.consistent
      exact hapart i hdtb ((hc.added_iff i).mpr (.inr (.inr halloc)))
    · -- the pool is above the stacks
      obtain ⟨hne, hge, -⟩ := (hm.pool_ok (DmaHistory.Ok.empty _)).live_inside ha hle hlt
      cases base with
      | none => exact hne rfl
      | some a =>
        have ha := hpool a rfl
        have hge : a ≤ l.pageAddr i := hge
        rcases hcond i hi hdtb with h | h
        · omega
        · have := h.1
          omega

/-- A pool, if there is one, is the highest aligned block. -/
theorem initWithGap_base {l : BootLayout} {b : BuddyAllocator} {base : Option Nat}
    (hok : initWithGap l = some (b, base)) : base = none ∨ base = some l.poolBase := by
  unfold initWithGap at hok
  obtain ⟨b0, -, hok⟩ := bind_eq_some_iff.mp hok
  obtain ⟨b1, -, hok⟩ := bind_eq_some_iff.mp hok
  grind [bind_eq_some_iff, map_eq_some_iff, addRest]

/-- 948 MiB of RAM from address 0, the kernel at 512 KiB, the stacks at 4 MiB. -/
def piLayout : BootLayout where
  ramStart := 0
  ramSize := 0x3b400000
  kernelStart := 0x80000
  kernelEnd := 0x300000
  stacksStart := 0x400000
  stacksEnd := 0x440000
  ram_aligned := by decide
  ram_le := by decide
  ram_fits := by decide
  kernel_in := by decide
  stacks_after := by decide
  stacks_in := by decide

/-- A blob of five pages at an unaligned address above the stacks. -/
def piDtb : Dtb where
  paddr := 0x2eff1e00
  contentSize := 0x4000

/-- The first page of the blob is free after boot. -/
theorem dtb_page_is_free :
    piDtb.Placed piLayout ∧ ∃ b base, initWithGap piLayout = some (b, base) ∧
      piLayout.InDtb piDtb 0x2eff1 ∧
      0x2eff1 ∈ b.coveredPages ∧
      ¬ ∀ i, i ∈ b.coveredPages ↔ piLayout.Usable base i ∧ ¬ piLayout.InDtb piDtb i := by
  refine ⟨by refine ⟨?_, ?_, ?_, ?_, ?_, ?_⟩ <;> decide, ?_⟩
  obtain ⟨b, base, hok, hfresh, -⟩ := initWithGap_spec piLayout
  have hdtb : piLayout.InDtb piDtb 0x2eff1 := by
    constructor <;> decide
  have hmem : 0x2eff1 ∈ b.coveredPages := by
    rw [hfresh.mem_coveredPages]
    refine ⟨by decide, by decide, fun hs => ?_, fun hp => ?_⟩
    · exact absurd hs.1 (by decide)
    · rcases initWithGap_base hok with rfl | rfl
      · obtain ⟨a, ha, -, -⟩ := hp
        cases ha
      · obtain ⟨a, ha, hle, -⟩ := hp
        rw [some.injEq] at ha
        rw [← ha] at hle
        exact absurd hle (by decide)
  refine ⟨b, base, hok, hdtb, hmem, fun hexact => ?_⟩
  exact ((hexact _).mp hmem).2 hdtb

end Lockjaw.Mm
