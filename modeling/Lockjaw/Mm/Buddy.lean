/-
  Lockjaw.Mm.Buddy

  The buddy allocator of `lockjaw-types/src/buddy.rs`: one bitmap of free
  blocks per order, all in one byte array, and one bitmap of the pages that
  are handed out.

  A failed `assert!` of `free` or `add_range` is `none`.  The byte arrays are
  functions; every index the operations use lies inside the arrays of the
  source because the total number of pages is at most `maxPages`.
-/

import Lockjaw.Lib.Dyadic

namespace Lockjaw.Mm

/-- Most pages the allocator can manage. -/
def maxPages : Nat := 262144

/-- The order of a block that covers all of them. -/
def maxOrder : Nat := 18

def bitmapBytesForOrder (order : Nat) : Nat :=
  let blocks := maxPages >>> order
  (blocks + 7) / 8

/-- Offset of the bitmap of an order in the byte array. -/
def bitmapOffset : Nat → Nat
  | 0 => 0
  | k + 1 => bitmapOffset k + bitmapBytesForOrder k

/-! ## Bits in byte arrays -/

/-- A byte array. -/
abbrev Bytes := Nat → BitVec 8

namespace Bytes

def test (m : Bytes) (byte bit : Nat) : Bool := m byte &&& (1#8 <<< bit) != 0#8

def set (m : Bytes) (byte bit : Nat) : Bytes := fun o =>
  if o = byte then m byte ||| (1#8 <<< bit) else m o

def clear (m : Bytes) (byte bit : Nat) : Bytes := fun o =>
  if o = byte then m byte &&& ~~~(1#8 <<< bit) else m o

variable {bit byte byte' bit' : Nat}

theorem test_eq (m : Bytes) (byte : Nat) (hbit : bit < 8) :
    m.test byte bit = (m byte).getLsbD bit := by
  have hone : ∀ x : BitVec 8, ∀ i : Fin 8, (x &&& (1#8 <<< i.val) != 0#8) = x.getLsbD i.val := by
    decide
  exact hone (m byte) ⟨bit, hbit⟩

theorem getLsbD_one_shiftLeft {i : Nat} (hbit : bit < 8) (hi : i < 8) :
    (1#8 <<< bit).getLsbD i = decide (i = bit) := by
  have hone : ∀ a b : Fin 8, (1#8 <<< a.val).getLsbD b.val = decide (b.val = a.val) := by decide
  exact hone ⟨bit, hbit⟩ ⟨i, hi⟩

theorem test_set (m : Bytes) (hbit : bit < 8) (hbit' : bit' < 8) :
    (m.set byte bit).test byte' bit' =
      (decide (byte' = byte ∧ bit' = bit) || m.test byte' bit') := by
  rw [test_eq _ _ hbit', test_eq _ _ hbit', set]
  by_cases h : byte' = byte
  · subst h
    rw [if_pos rfl, BitVec.getLsbD_or, getLsbD_one_shiftLeft hbit hbit', Bool.or_comm]
    simp
  · rw [if_neg h]
    simp [h]

theorem test_clear (m : Bytes) (hbit : bit < 8) (hbit' : bit' < 8) :
    (m.clear byte bit).test byte' bit'
      = (m.test byte' bit' && !decide (byte' = byte ∧ bit' = bit)) := by
  rw [test_eq _ _ hbit', test_eq _ _ hbit', clear]
  by_cases h : byte' = byte
  · subst h
    rw [if_pos rfl, BitVec.getLsbD_and, BitVec.getLsbD_not, getLsbD_one_shiftLeft hbit hbit']
    simp [hbit']
  · rw [if_neg h]
    simp [h]

end Bytes

/-! ## The allocator -/

structure BuddyAllocator where
  bitmap : Bytes
  allocated : Bytes
  totalPages : Nat
  freeCount : Nat

namespace BuddyAllocator

/-- The allocator after `init`; a total above `maxPages` is refused. -/
def init (totalPages : Nat) : Option BuddyAllocator :=
  if totalPages ≤ maxPages then some ⟨fun _ => 0#8, fun _ => 0#8, totalPages, 0⟩ else none

def isAllocated (b : BuddyAllocator) (page : Nat) : Bool := b.allocated.test (page / 8) (page % 8)

def setAllocated (b : BuddyAllocator) (page : Nat) : BuddyAllocator :=
  { b with allocated := b.allocated.set (page / 8) (page % 8) }

def clearAllocated (b : BuddyAllocator) (page : Nat) : BuddyAllocator :=
  { b with allocated := b.allocated.clear (page / 8) (page % 8) }

def isFree (b : BuddyAllocator) (order blockIdx : Nat) : Bool :=
  b.bitmap.test (bitmapOffset order + blockIdx / 8) (blockIdx % 8)

def setBit (b : BuddyAllocator) (order blockIdx : Nat) : BuddyAllocator :=
  { b with bitmap := b.bitmap.set (bitmapOffset order + blockIdx / 8) (blockIdx % 8) }

def clearBit (b : BuddyAllocator) (order blockIdx : Nat) : BuddyAllocator :=
  { b with bitmap := b.bitmap.clear (bitmapOffset order + blockIdx / 8) (blockIdx % 8) }

/-- Position of the lowest set bit of a byte. -/
def trailingZeros (x : BitVec 8) : Nat := ((List.range 8).find? fun i => x.getLsbD i).getD 8

/-- First set bit in `n` whole bytes from byte `byteIdx` on. -/
def scanBytes (b : BuddyAllocator) (base : Nat) : (n byteIdx : Nat) → Option Nat
  | 0, _ => none
  | n + 1, byteIdx =>
    let x := b.bitmap (base + byteIdx)
    if x ≠ 0#8 then some (byteIdx * 8 + trailingZeros x) else b.scanBytes base n (byteIdx + 1)

/-- First free block of an order among the first `maxBlocks`. -/
def findFree (b : BuddyAllocator) (order maxBlocks : Nat) : Option Nat :=
  let base := bitmapOffset order
  let fullBytes := maxBlocks / 8
  let remainderBits := maxBlocks % 8
  match b.scanBytes base fullBytes 0 with
  | some idx => some idx
  | none =>
    if remainderBits > 0 then
      let mask := (1#8 <<< remainderBits) - 1#8
      let masked := b.bitmap (base + fullBytes) &&& mask
      if masked ≠ 0#8 then some (fullBytes * 8 + trailingZeros masked) else none
    else none

/-- The smallest order from `order` on with a free block, and the block. -/
def searchUp (b : BuddyAllocator) : (fuel order : Nat) → Option (Nat × Nat)
  | 0, _ => none
  | fuel + 1, order =>
    match b.findFree order (b.totalPages >>> order) with
    | some blockIdx => some (order, blockIdx)
    | none => b.searchUp fuel (order + 1)

/-- Split the block at `page` from order `order + n` down to `order`; the right
    half of each level becomes a free block. -/
def splitDown (b : BuddyAllocator) (page order : Nat) : Nat → BuddyAllocator
  | 0 => b
  | n + 1 =>
    let foundOrder := order + n
    let rightHalf := page + 1 <<< foundOrder
    splitDown { b.setBit foundOrder (rightHalf >>> foundOrder) with
      freeCount := b.freeCount + 1 <<< foundOrder } page order n

/-- Mark `n` pages from `page` on as allocated. -/
def setAllocatedRange (b : BuddyAllocator) : (n page : Nat) → BuddyAllocator
  | 0, _ => b
  | n + 1, page => (b.setAllocated page).setAllocatedRange n (page + 1)

def alloc (b : BuddyAllocator) (order : Nat) : BuddyAllocator × Option Nat :=
  if order > maxOrder then (b, none)
  else
    match b.searchUp (maxOrder + 1 - order) order with
    | none => (b, none)
    | some (foundOrder, blockIdx) =>
      let page := blockIdx <<< foundOrder
      let taken := { b.clearBit foundOrder blockIdx with
        freeCount := b.freeCount - 1 <<< foundOrder }
      let split := taken.splitDown page order (foundOrder - order)
      (split.setAllocatedRange (1 <<< order) page, some page)

/-- Unmark `n` pages from `page` on; each must be marked (double-free check). -/
def clearAllocatedRange (b : BuddyAllocator) : (n page : Nat) → Option BuddyAllocator
  | 0, _ => some b
  | n + 1, page =>
    if b.isAllocated page then (b.clearAllocated page).clearAllocatedRange n (page + 1) else none

/-- Merge the block at `page` with its buddy as long as the buddy is free, then record it. -/
def mergeUp (b : BuddyAllocator) : (fuel page order : Nat) → BuddyAllocator
  | 0, _, _ => b
  | fuel + 1, page, order =>
    let blockIdx := page >>> order
    let placed := { b.setBit order blockIdx with freeCount := b.freeCount + 1 <<< order }
    if order = maxOrder then placed
    else
      let buddyIdx := blockIdx ^^^ 1
      let buddyPage := buddyIdx <<< order
      if buddyPage < b.totalPages ∧ b.isFree order buddyIdx then
        -- `page & !(1 << order)`
        let parentPage := page - (page &&& 1 <<< order)
        mergeUp { b.clearBit order buddyIdx with freeCount := b.freeCount - 1 <<< order }
          fuel parentPage (order + 1)
      else placed

def free (b : BuddyAllocator) (page order : Nat) : Option BuddyAllocator :=
  if order > maxOrder then none
  else if page + 1 <<< order > b.totalPages then none
  else if page % 1 <<< order ≠ 0 then none
  else (b.clearAllocatedRange (1 <<< order) page).map fun b =>
    b.mergeUp (maxOrder + 1 - order) page order

/-- Free `n` single pages from `page` on. -/
def freeRange (b : BuddyAllocator) : (n page : Nat) → Option BuddyAllocator
  | 0, _ => some b
  | n + 1, page => (b.free page 0).bind fun b => b.freeRange n (page + 1)

def addRange (b : BuddyAllocator) (startPage count : Nat) : Option BuddyAllocator :=
  if startPage + count > b.totalPages then none
  else (b.setAllocatedRange count startPage).freeRange count startPage

end BuddyAllocator

end Lockjaw.Mm
