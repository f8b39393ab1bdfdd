/-
  Lockjaw.Vmem.Walk

  Page tables as they lie in memory: the 64-bit entries and the four-level walk of
  `lockjaw-types/src/page_table.rs`.

  Physical memory is a function from addresses to 64-bit words, so the contents of
  the tables are arbitrary.  Virtual addresses are numbers; the indices they give
  are at most 511, and no address built from an entry wraps.
-/

import Lockjaw.Cap.PageTable

namespace Lockjaw.Vmem

open Cap (pageTableIndices)

abbrev Word := BitVec 64

/-- Physical memory, read a word at a time. -/
abbrev Mem := Word → Word

/-! ## Entries -/

def pteValid : Word := 1#64

def pteTable : Word := 2#64

def pteAf : Word := 1#64 <<< 10

def ptePxn : Word := 1#64 <<< 53

def pteUxn : Word := 1#64 <<< 54

def pteAttrShift : Nat := 2

def pteApShift : Nat := 6

def pteShShift : Nat := 8

/-- Bits 47:12. -/
def pteAddrMask : Word := 0x0000FFFFFFFFF000#64

structure PageTableEntry where
  raw : Word
  deriving DecidableEq, Repr

namespace PageTableEntry

def isValid (e : PageTableEntry) : Bool := e.raw &&& pteValid != 0#64

def isTable (e : PageTableEntry) : Bool :=
  e.raw &&& (pteValid ||| pteTable) == pteValid ||| pteTable

def isBlock (e : PageTableEntry) : Bool := e.raw &&& (pteValid ||| pteTable) == pteValid

def outputAddr (e : PageTableEntry) : Word := e.raw &&& pteAddrMask

theorem isValid_iff (e : PageTableEntry) : e.isValid = true ↔ e.raw.toNat % 2 = 1 := by
  unfold isValid pteValid
  rw [bne_iff_ne, ne_eq, ← BitVec.toNat_inj, BitVec.toNat_and,
    show (1#64).toNat = 2 ^ 1 - 1 from rfl, Nat.and_two_pow_sub_one_eq_mod, BitVec.toNat_ofNat]
  omega

theorem isTable_iff (e : PageTableEntry) : e.isTable = true ↔ e.raw.toNat % 4 = 3 := by
  unfold isTable
  rw [beq_iff_eq, ← BitVec.toNat_inj, BitVec.toNat_and]
  exact (Nat.and_two_pow_sub_one_eq_mod e.raw.toNat 2) ▸ Iff.rfl

theorem isBlock_iff (e : PageTableEntry) : e.isBlock = true ↔ e.raw.toNat % 4 = 1 := by
  unfold isBlock
  rw [beq_iff_eq, ← BitVec.toNat_inj, BitVec.toNat_and]
  exact (Nat.and_two_pow_sub_one_eq_mod e.raw.toNat 2) ▸ Iff.rfl

/-- A valid entry is a table descriptor or a block descriptor, and not both. -/
theorem isTable_eq (e : PageTableEntry) : e.isTable = (e.isValid && !e.isBlock) := by
  rw [Bool.eq_iff_iff, Bool.and_eq_true, Bool.not_eq_true', ← Bool.not_eq_true, isTable_iff,
    isValid_iff, isBlock_iff]
  omega

variable {e : PageTableEntry}

theorem isValid_of_isTable (h : e.isTable = true) : e.isValid = true := by
  rw [isTable_eq, Bool.and_eq_true] at h
  exact h.1

theorem isBlock_of_not_isValid (h : e.isValid = false) : e.isBlock = false := by
  rw [← Bool.not_eq_true, isBlock_iff]
  rw [← Bool.not_eq_true, isValid_iff] at h
  omega

end PageTableEntry

def readEntry (mem : Mem) (table : Word) (idx : Nat) : PageTableEntry :=
  ⟨mem (table + BitVec.ofNat 64 idx * 8#64)⟩

/-! ## The walk -/

inductive WalkResult where
  /-- `Continue`: the entry at this address comes next. -/
  | cont (ptePaddr : Word)
  | done (phys : Word)
  | fault
  deriving DecidableEq, Repr

def WalkResult.isDone : WalkResult → Bool
  | done _ => true
  | _ => false

structure PageTableWalk where
  level : Nat
  va : Nat
  indices : Nat × Nat × Nat × Nat
  deriving DecidableEq, Repr

namespace PageTableWalk

def start (ttbr0 : Word) (va : Nat) : PageTableWalk × WalkResult :=
  let indices := pageTableIndices va
  (⟨0, va, indices⟩, .cont (ttbr0 + BitVec.ofNat 64 indices.1 * 8#64))

def step (walk : PageTableWalk) (pteRaw : Word) : PageTableWalk × WalkResult :=
  let pte : PageTableEntry := ⟨pteRaw⟩
  match walk.level with
  | 0 =>
    if !pte.isTable then (walk, .fault)
    else ({ walk with level := 1 },
      .cont (pte.outputAddr + BitVec.ofNat 64 walk.indices.2.1 * 8#64))
  | 1 =>
    if pte.isBlock then (walk, .done (pte.outputAddr + BitVec.ofNat 64 (walk.va % 2 ^ 30)))
    else if !pte.isTable then (walk, .fault)
    else ({ walk with level := 2 },
      .cont (pte.outputAddr + BitVec.ofNat 64 walk.indices.2.2.1 * 8#64))
  | 2 =>
    if pte.isBlock then (walk, .done (pte.outputAddr + BitVec.ofNat 64 (walk.va % 2 ^ 21)))
    else if !pte.isTable then (walk, .fault)
    else ({ walk with level := 3 },
      .cont (pte.outputAddr + BitVec.ofNat 64 walk.indices.2.2.2 * 8#64))
  | 3 =>
    if !pte.isValid then (walk, .fault)
    else (walk, .done (pte.outputAddr + BitVec.ofNat 64 (walk.va % 2 ^ 12)))
  | _ => (walk, .fault)

/-- The loop that feeds a walk with what memory holds, as `translate_user_va` runs it. -/
def drive (mem : Mem) : Nat → PageTableWalk × WalkResult → WalkResult
  | n + 1, (walk, .cont ptePaddr) => drive mem n (walk.step (mem ptePaddr))
  | _, (_, result) => result

end PageTableWalk

open PageTableWalk

/-- The walk for `va`, driven to its end: it reads at most one entry a level. -/
def walk (mem : Mem) (ttbr0 : Word) (va : Nat) : WalkResult :=
  drive mem 4 (start ttbr0 va)

/-! ## Where a walk ends -/

/-- The level and the entry that map `va`. -/
def leaf (mem : Mem) (ttbr0 : Word) (va : Nat) : Option (Nat × PageTableEntry) :=
  let indices := pageTableIndices va
  let l0 := readEntry mem ttbr0 indices.1
  let l1 := readEntry mem l0.outputAddr indices.2.1
  let l2 := readEntry mem l1.outputAddr indices.2.2.1
  let l3 := readEntry mem l2.outputAddr indices.2.2.2
  if !l0.isTable then none
  else if l1.isBlock then some (1, l1)
  else if !l1.isTable then none
  else if l2.isBlock then some (2, l2)
  else if !l2.isTable then none
  else if !l3.isValid then none
  else some (3, l3)

/-- The address an entry of a level gives for `va`. -/
def PageTableEntry.translate (e : PageTableEntry) (level va : Nat) : Word :=
  e.outputAddr + BitVec.ofNat 64 (va % 2 ^ (39 - 9 * level))

/-- A walk ends, at the leaf or with a fault. -/
theorem walk_eq (mem : Mem) (ttbr0 : Word) (va : Nat) :
    walk mem ttbr0 va =
      ((leaf mem ttbr0 va).map fun l => WalkResult.done (l.2.translate l.1 va)).getD .fault := by
  have hread (table : Word) (idx : Nat) :
      (⟨mem (table + BitVec.ofNat 64 idx * 8#64)⟩ : PageTableEntry) = readEntry mem table idx := rfl
  unfold walk leaf
  dsimp only
  rw [start, drive, step]
  simp only [hread]
  -- one level at a time: a fault or a block ends the walk, a table leads on
  generalize readEntry mem ttbr0 (pageTableIndices va).1 = l0
  by_cases h0 : l0.isTable = true
  swap
  · simp [h0, drive]
  simp only [h0, Bool.not_true, Bool.false_eq_true, if_false, drive,
    step, hread]
  generalize readEntry mem l0.outputAddr (pageTableIndices va).2.1 = l1
  by_cases hb1 : l1.isBlock = true
  · simp [hb1, drive, PageTableEntry.translate]
  by_cases h1 : l1.isTable = true
  swap
  · simp [hb1, h1, drive]
  simp only [hb1, h1, Bool.not_true, Bool.false_eq_true, if_false, drive,
    step, hread]
  generalize readEntry mem l1.outputAddr (pageTableIndices va).2.2.1 = l2
  by_cases hb2 : l2.isBlock = true
  · simp [hb2, drive, PageTableEntry.translate]
  by_cases h2 : l2.isTable = true
  swap
  · simp [hb2, h2, drive]
  simp only [hb2, h2, Bool.not_true, Bool.false_eq_true, if_false, drive,
    step, hread]
  grind [PageTableEntry.translate]

theorem isDone_walk (mem : Mem) (ttbr0 : Word) (va : Nat) :
    (walk mem ttbr0 va).isDone = (leaf mem ttbr0 va).isSome := by
  rw [walk_eq]
  cases leaf mem ttbr0 va <;> rfl

end Lockjaw.Vmem
