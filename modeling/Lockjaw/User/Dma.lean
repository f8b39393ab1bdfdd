/-
  Lockjaw.User.Dma

  DMA backings as a driver sees them (`lockjaw-userlib`'s `alloc_dma_backing`
  and `close_dma_backing`): a PageSet of physically contiguous pages under a
  handle of the driver's own handle table.

  `Process` is that handle table, with the number of PageSets created so far,
  which numbers them.  The kernel's part of an allocation, the empty handle
  slot and the block of memory it found, is an argument; the kernel never
  answers with a slot that is in use.

  A handle goes when the driver closes it, and when another process that has the
  PageSet open donates it (`Process.revoke`).  The driver does not learn of the
  latter and may go on using the number, which the kernel gives out again.
-/

import Lockjaw.Cap.PageSets
import Lockjaw.User.BlockServer

namespace Lockjaw.User

open Cap (pageSize maxPracticalPagesPerSet orderForCount orderFrom)

/-- A physically contiguous PageSet. -/
structure PageSet where
  serial : Nat
  pa : UInt64
  pages : Nat
  deriving DecidableEq, Repr

/-- Bytes `[pa, pa + len)` lie in the pages of the set. -/
def PageSet.Contains (P : PageSet) (pa len : Nat) : Prop :=
  P.pa.toNat ≤ pa ∧ pa + len ≤ P.pa.toNat + P.pages * pageSize

/-- The driver's process: which PageSet each open handle stands for. -/
structure Process where
  handles : PageSetHandle → Option PageSet
  created : Nat

def Process.create (p : Process) (h : PageSetHandle) (pa : UInt64) (pages : Nat) : Process :=
  ⟨Function.update p.handles h (some ⟨p.created, pa, pages⟩), p.created + 1⟩

/-- The empty handle slot and the first byte of the block the kernel found. -/
abbrev AllocAnswer := Option (PageSetHandle × UInt64)

structure DmaBacking where
  pageset : PageSetHandle
  pa : UInt64
  pages : UInt64

/-- `alloc_dma_backing`: contiguous pages, rounded up to a power of two by the
    kernel, and the physical address of the first. -/
def allocDmaBacking (answer : AllocAnswer) (pages : UInt64) (p : Process) :
    Option (DmaBacking × Process) :=
  let count := pages.toNat
  if count = 0 ∨ count > maxPracticalPagesPerSet then none
  else
    let actualCount := 2 ^ orderForCount count
    if actualCount > maxPracticalPagesPerSet then none
    else
      match answer with
      | none => none
      | some (h, pa) =>
        match p.handles h with
        | some _ => none
        | none => some (⟨h, pa, pages⟩, p.create h pa actualCount)

def closeDmaBacking (h : PageSetHandle) (p : Process) : Process :=
  { p with handles := Function.update p.handles h none }

/-- The kernel revokes the PageSets `given`. -/
def Process.revoke (given : PageSet → Bool) (p : Process) : Process :=
  { p with handles := revokeHandles given p.handles }

/-- The process has none of them open. -/
def Process.Unheld (given : PageSet → Bool) (p : Process) : Prop :=
  ∀ h P, p.handles h = some P → given P = false

theorem Process.revoke_eq_self {given : PageSet → Bool} {p : Process} (h : p.Unheld given) :
    p.revoke given = p := by
  unfold Process.revoke
  rw [revokeHandles_eq_self h]

theorem le_two_pow_orderFrom (count fuel order : Nat) (h : count ≤ 2 ^ (order + fuel)) :
    count ≤ 2 ^ orderFrom count fuel order (2 ^ order) := by
  induction fuel generalizing order with
  | zero => exact h
  | succ fuel ih =>
    unfold orderFrom
    split
    · rw [← Nat.pow_succ]
      exact ih (order + 1) (by rw [show order + 1 + fuel = order + (fuel + 1) by omega]; exact h)
    · exact Nat.le_of_not_lt (by assumption)

/-- The block the kernel hands out holds the pages asked for. -/
theorem le_two_pow_orderForCount (count : Nat) : count ≤ 2 ^ orderForCount count := by
  unfold orderForCount
  split
  · simpa using by assumption
  · refine le_two_pow_orderFrom count count 0 ?_
    rw [Nat.zero_add]
    exact Nat.le_of_lt Nat.lt_two_pow_self

variable {answer : AllocAnswer} {pages : UInt64} {p p' : Process} {b : DmaBacking}

/-- A successful allocation opens a closed handle on a new PageSet that holds
    the pages asked for and starts at the address returned. -/
theorem allocDmaBacking_some (h : allocDmaBacking answer pages p = some (b, p')) :
    p.handles b.pageset = none ∧ ∃ n, pages.toNat ≤ n ∧ n ≤ maxPracticalPagesPerSet ∧
      p' = p.create b.pageset b.pa n := by
  unfold allocDmaBacking at h
  dsimp only at h
  split_ifs at h with hcount hmax
  grind [le_two_pow_orderForCount]

/-! ## The handle table -/

variable {h h' : PageSetHandle} {pa : UInt64} {n : Nat}

@[simp] theorem Process.create_self (p : Process) (h : PageSetHandle) (pa : UInt64) (n : Nat) :
    (p.create h pa n).handles h = some ⟨p.created, pa, n⟩ := Function.update_self ..

theorem Process.create_of_ne (hne : h' ≠ h) : (p.create h pa n).handles h' = p.handles h' :=
  Function.update_of_ne hne ..

@[simp] theorem closeDmaBacking_self (h : PageSetHandle) (p : Process) :
    (closeDmaBacking h p).handles h = none := Function.update_self ..

theorem closeDmaBacking_of_ne (hne : h' ≠ h) :
    (closeDmaBacking h p).handles h' = p.handles h' := Function.update_of_ne hne ..

/-- Every PageSet of the process was created by it. -/
def Process.Numbered (p : Process) : Prop := ∀ h P, p.handles h = some P → P.serial < p.created

theorem Process.Numbered.create (hp : p.Numbered) : (p.create h pa n).Numbered := by
  intro h' P hP
  by_cases heq : h' = h
  · rw [heq, Process.create_self] at hP
    cases hP
    exact Nat.lt_succ_self _
  · rw [Process.create_of_ne heq] at hP
    exact Nat.lt_succ_of_lt (hp h' P hP)

theorem Process.Numbered.close (hp : p.Numbered) : (closeDmaBacking h p).Numbered := by
  intro h' P hP
  by_cases heq : h' = h
  · rw [heq, closeDmaBacking_self] at hP
    cases hP
  · rw [closeDmaBacking_of_ne heq] at hP
    exact hp h' P hP

end Lockjaw.User
