/-
  Lockjaw.Vmem.Map

  `map_pages_in_existing`: the pages of a PageSet go into a user tree that exists,
  over physical memory and the buddy allocator.

  The three passes are those of the source.  Classification reads the L2 entries of
  the range; preallocation takes a frame for every empty one and gives all of them
  back if the allocator runs dry; application installs tables and writes entries.
  Array accesses that would be out of bounds, and the two `expect`s, are stops.

  `Painted` says what application does: the translations of a range of pages become
  the pages of the PageSet and nothing else changes.  The barriers and the TLB
  invalidation at the end have no counterpart here, since a walk reads memory.
-/

import Lockjaw.Vmem.Tables
import Lockjaw.Mm.BuddyCanon
import Lockjaw.Lib.Fallible

namespace Lockjaw.Vmem

open List

open Cap (pageSize userVaEnd MapMemoryAttribute VmemError L2Region l2Regions
  l2RegionsFrom validateMapping)
open Mm (BuddyAllocator BuddyRun maxPages)
open Lib

/-! ## The walk to the L2 table -/

inductive L2SlotState where
  | empty
  | hasL3Table
  | isBlock
  deriving DecidableEq, Repr

inductive MapAction where
  | allocateL3
  | useExistingL3
  | errorBlockConflict
  deriving DecidableEq, Repr

def mapActionForL2 : L2SlotState → MapAction
  | .empty => .allocateL3
  | .hasL3Table => .useExistingL3
  | .isBlock => .errorBlockConflict

def classifyL2Entry (pte : PageTableEntry) : L2SlotState :=
  if pte.isTable then .hasL3Table
  else if !pte.isValid then .empty
  else .isBlock

inductive MapWalkResult where
  | readPte (ptePaddr : Word)
  | reachedL2 (l2TablePaddr : Word) (l2Idx l3Start : Nat) (state : L2SlotState)
  | fault
  | invalidMapping
  deriving DecidableEq, Repr

structure MapWalk where
  level : Nat
  l2Idx : Nat
  l3Start : Nat
  l2TablePaddr : Word
  deriving DecidableEq, Repr

namespace MapWalk

def start (ttbr0 : Word) (virtAddr pageCount : Nat) : MapWalk × MapWalkResult :=
  match validateMapping virtAddr pageCount with
  | .ok l2Idx l3Start => (⟨0, l2Idx, l3Start, 0#64⟩, .readPte (ttbr0 + BitVec.ofNat 64 0 * 8#64))
  | _ => (⟨0, 0, 0, 0#64⟩, .invalidMapping)

def step (walk : MapWalk) (pteRaw : Word) : MapWalk × MapWalkResult :=
  let pte : PageTableEntry := ⟨pteRaw⟩
  match walk.level with
  | 0 =>
    if !pte.isTable then (walk, .fault)
    else ({ walk with level := 1 }, .readPte (pte.outputAddr + BitVec.ofNat 64 0 * 8#64))
  | 1 =>
    if !pte.isTable then (walk, .fault)
    else ({ walk with level := 2, l2TablePaddr := pte.outputAddr },
      .readPte (pte.outputAddr + BitVec.ofNat 64 walk.l2Idx * 8#64))
  | 2 => (walk, .reachedL2 walk.l2TablePaddr walk.l2Idx walk.l3Start (classifyL2Entry pte))
  | _ => (walk, .fault)

/-- The loop of `map_pages_in_existing` that feeds the walk. -/
def drive (mem : Mem) : Nat → MapWalk × MapWalkResult → MapWalkResult
  | n + 1, (walk, .readPte ptePaddr) => drive mem n (walk.step (mem ptePaddr))
  | _, (_, result) => result

end MapWalk

/-- A walk reads three entries at most. -/
def mapWalk (mem : Mem) (ttbr0 : Word) (virtAddr pageCount : Nat) : MapWalkResult :=
  MapWalk.drive mem 3 (MapWalk.start ttbr0 virtAddr pageCount)

/-! ## The three passes -/

/-- RAM as the allocator sees it: page `i` is the page at `start + i * 4096`. -/
structure Ram where
  start : Nat
  aligned : start % pageSize = 0
  fits : start + maxPages * pageSize ≤ 2 ^ 48

def Ram.indexToPage (ram : Ram) (i : Nat) : Word := BitVec.ofNat 64 (ram.start + i * pageSize)

def Ram.pageIndex (ram : Ram) (addr : Word) : Nat :=
  (addr - BitVec.ofNat 64 ram.start).toNat / pageSize

/-- What the mapping code reads and writes. -/
structure State where
  mem : Mem
  buddy : BuddyAllocator

inductive MapPanic where
  | l2Index
  | l3Index
  | preallocIndex
  | l3NotReserved
  | blockConflict
  | getPage
  | doubleFree
  deriving DecidableEq, Repr

abbrev Map (α : Type) : Type := Fallible State VmemError MapPanic α

/-- Size of the array of preallocated tables. -/
def maxL2RegionsPerMap : Nat := 33

def allocPage (ram : Ram) : Map (Option Word) := fun s =>
  .ok ((s.buddy.alloc 0).2.map ram.indexToPage) { s with buddy := (s.buddy.alloc 0).1 }

def deallocPage (ram : Ram) (page : Word) : Map Unit := fun s =>
  match s.buddy.free (ram.pageIndex page) 0 with
  | some b => .ok () { s with buddy := b }
  | none => .stop .doubleFree

def loadL2 (l2 : Word) (idx : Nat) : Map PageTableEntry := fun s =>
  if idx < 512 then .ok (readEntry s.mem l2 idx) s else .stop .l2Index

def storeL3 (l3 : Word) (idx : Nat) (e : PageTableEntry) : Map Unit := fun s =>
  if idx < 512 then .ok () { s with mem := writeEntry s.mem l3 idx e } else .stop .l3Index

/-- Pass 1: reject block entries and count the tables that are missing. -/
def classifyRegions (l2 : Word) : List L2Region → Nat → Map Nat
  | [], needed => pure needed
  | r :: rs, needed => do
    let e ← loadL2 l2 r.l2Idx
    match mapActionForL2 (classifyL2Entry e) with
    | .useExistingL3 => classifyRegions l2 rs needed
    | .allocateL3 => classifyRegions l2 rs (needed + 1)
    | .errorBlockConflict => Fallible.fail .tooManyL3Regions

/-- Pass 2: `n` more frames after those in `prealloc`; all of them go back when
    the allocator has none left. -/
def preallocL3 (ram : Ram) : Nat → List Word → Map (List Word)
  | 0, prealloc => pure prealloc
  | n + 1, prealloc => do
    match ← allocPage ram with
    | some p =>
      if prealloc.length < maxL2RegionsPerMap then preallocL3 ram n (prealloc ++ [p])
      else Fallible.stop .preallocIndex
    | none => do
      Fallible.forEach (deallocPage ram) prealloc
      Fallible.fail .outOfPages

/-- The L3 table of a region, and the frames still reserved. -/
def l3TableFor (l2 : Word) (l2Idx : Nat) (prealloc : List Word) : Map (Word × List Word) := do
  let e ← loadL2 l2 l2Idx
  match mapActionForL2 (classifyL2Entry e) with
  | .useExistingL3 => pure (e.outputAddr, prealloc)
  | .allocateL3 =>
    match prealloc with
    | [] => Fallible.stop .l3NotReserved
    | p :: ps => do
      Fallible.modify fun s => { s with mem := installL3 s.mem l2 l2Idx p }
      pure (p, ps)
  | .errorBlockConflict => Fallible.stop .blockConflict

/-- Entries `l3Start + i`, …, `l3Start + i + n` map pages `dataOffset + i`, … . -/
def writePages (pages : List Word) (attr : MapMemoryAttribute) (l3 : Word)
    (l3Start dataOffset : Nat) : (n i : Nat) → Map Unit
  | 0, _ => pure ()
  | n + 1, i => do
    let phys ← Fallible.orStop pages[dataOffset + i]? .getPage
    storeL3 l3 (l3Start + i) (buildUserPage phys attr)
    writePages pages attr l3 l3Start dataOffset n (i + 1)

/-- Pass 3. -/
def applyRegions (l2 : Word) (pages : List Word) (attr : MapMemoryAttribute) :
    List L2Region → List Word → Map Unit
  | [], _ => pure ()
  | r :: rs, prealloc => do
    let next ← l3TableFor l2 r.l2Idx prealloc
    writePages pages attr next.1 r.l3Start r.dataOffset r.pagesInRegion 0
    applyRegions l2 pages attr rs next.2

def mapPagesInExisting (ram : Ram) (ttbr0 : Word) (virtAddr : Nat) (pages : List Word)
    (attr : MapMemoryAttribute) : Map Unit := do
  let mem ← Fallible.read State.mem
  match mapWalk mem ttbr0 virtAddr pages.length with
  | .reachedL2 l2 l2Start l3Start _ => do
    let needed ← classifyRegions l2 (l2Regions l2Start l3Start pages.length) 0
    let prealloc ← preallocL3 ram needed []
    applyRegions l2 pages attr (l2Regions l2Start l3Start pages.length) prealloc
  | .invalidMapping => Fallible.fail .tooManyMappings
  | _ => Fallible.fail .outOfPages

/-! ## Regions -/

/-- The regions of a range below the end of the user addresses. -/
theorem l2Idx_lt_of_mem {r : L2Region} (fuel : Nat) :
    ∀ {i j rem off : Nat}, j < 512 → i * 512 + j + rem ≤ 2 ^ 18 →
    r ∈ l2RegionsFrom fuel i j rem off → r.l2Idx < 512 := by
  induction fuel with
  | zero => intro i j rem off _ _ h; cases h
  | succ fuel ih =>
    intro i j rem off hj hend h
    by_cases h0 : rem = 0
    · rw [l2RegionsFrom, if_pos h0] at h
      cases h
    · rw [Cap.AddressSpace.l2RegionsFrom_succ h0] at h
      grind

/-- Every region but the first and the last fills an L2 entry. -/
theorem length_l2RegionsFrom_le (fuel : Nat) : ∀ {i j rem off : Nat}, j < 512 →
    512 * (l2RegionsFrom fuel i j rem off).length ≤ j + rem + 511 := by
  induction fuel with
  | zero => intro i j rem off _; exact Nat.zero_le _
  | succ fuel ih =>
    intro i j rem off hj
    by_cases h0 : rem = 0
    · rw [l2RegionsFrom, if_pos h0]
      exact Nat.zero_le _
    · have hrest := @ih (i + 1) 0 (rem - min (512 - j) rem) (off + min (512 - j) rem)
        (Nat.zero_lt_succ 511)
      rw [Cap.AddressSpace.l2RegionsFrom_succ h0, length_cons]
      grind

/-! ## Pass 1 -/

section Classify

variable {l2 : Word} {r : L2Region} {rs : List L2Region} {n : Nat} {s : State}

/-- The regions whose table is missing. -/
def missing (mem : Mem) (l2 : Word) (r : L2Region) : Bool := !(readEntry mem l2 r.l2Idx).isValid

theorem loadL2_apply {idx : Nat} (h : idx < 512) :
    loadL2 l2 idx s = .ok (readEntry s.mem l2 idx) s := by
  rw [loadL2, if_pos h]

/-- What is done about an entry is decided by its two low bits. -/
theorem mapAction_cases (e : PageTableEntry) :
    (mapActionForL2 (classifyL2Entry e) = .useExistingL3 ∧ e.isTable = true) ∨
    (mapActionForL2 (classifyL2Entry e) = .allocateL3 ∧ e.isValid = false) ∨
    (mapActionForL2 (classifyL2Entry e) = .errorBlockConflict ∧ e.isBlock = true) := by
  unfold classifyL2Entry
  by_cases ht : e.isTable = true
  · simp [ht, mapActionForL2]
  · by_cases hv : e.isValid = true
    · have hb : e.isBlock = true := by
        rw [PageTableEntry.isTable_eq, hv, Bool.true_and, Bool.not_eq_true'] at ht
        simpa using ht
      simp [ht, hv, hb, mapActionForL2]
    · simp [ht, hv, mapActionForL2]

/-- Classification writes nothing.  When it returns, no entry is a block. -/
theorem classifyRegions_keeps (hlt : ∀ r ∈ rs, r.l2Idx < 512) :
    Keeps s (classifyRegions l2 rs n)
      (fun m => m = n + rs.countP (missing s.mem l2) ∧
        ∀ r ∈ rs, (readEntry s.mem l2 r.l2Idx).isBlock = false)
      (fun _ => False) := by
  induction rs generalizing n with
  | nil => exact Keeps.pure ⟨rfl, by simp⟩
  | cons r rs ih =>
    have hr : r.l2Idx < 512 := hlt r (by simp)
    have hrs : ∀ r' ∈ rs, r'.l2Idx < 512 := fun r' hr' => hlt r' (by simp [hr'])
    apply Keeps.bind_ok (loadL2_apply hr)
    rcases mapAction_cases (readEntry s.mem l2 r.l2Idx) with ⟨hact, ht⟩ | ⟨hact, hv⟩ | ⟨hact, -⟩
    · have hm : missing s.mem l2 r = false := by
        rw [missing, PageTableEntry.isValid_of_isTable ht]
        rfl
      rw [hact]
      apply (ih hrs).mono _ (fun _ h => h)
      rintro m ⟨rfl, hblock⟩
      rw [countP_cons_of_neg (by simp [hm])]
      exact ⟨rfl, forall_mem_cons.mpr ⟨PageTableEntry.isBlock_of_isTable ht, hblock⟩⟩
    · have hm : missing s.mem l2 r = true := by rw [missing, hv, Bool.not_false]
      rw [hact]
      apply (ih hrs).mono _ (fun _ h => h)
      rintro m ⟨rfl, hblock⟩
      rw [countP_cons_of_pos hm]
      refine ⟨by omega, forall_mem_cons.mpr ⟨?_, hblock⟩⟩
      exact PageTableEntry.isBlock_of_not_isValid hv
    · rw [hact]
      exact Keeps.fail

end Classify

/-! ## Pass 2 -/

section Prealloc

variable {ram : Ram} {total : Nat} {added : Nat → Prop} {b₀ b : BuddyAllocator} {i : Nat}

theorem Ram.toNat_indexToPage (hi : i < maxPages) :
    (ram.indexToPage i).toNat = ram.start + i * 4096 ∧ ram.start + i * 4096 < 2 ^ 48 := by
  have hfits : ram.start + 262144 * 4096 ≤ 2 ^ 48 := ram.fits
  have hi' : i < 262144 := hi
  have heq : (ram.indexToPage i).toNat = (ram.start + i * 4096) % 2 ^ 64 := BitVec.toNat_ofNat ..
  omega

theorem Ram.pageIndex_indexToPage (hi : i < maxPages) : ram.pageIndex (ram.indexToPage i) = i := by
  obtain ⟨heq, hlt⟩ := ram.toNat_indexToPage hi
  show (ram.indexToPage i - BitVec.ofNat 64 ram.start).toNat / 4096 = i
  rw [BitVec.toNat_sub, BitVec.toNat_ofNat, heq]
  omega

theorem Ram.indexToPage_masked (hi : i < maxPages) :
    ram.indexToPage i &&& pteAddrMask = ram.indexToPage i := by
  obtain ⟨heq, hlt⟩ := ram.toNat_indexToPage hi
  have halign : ram.start % 4096 = 0 := ram.aligned
  apply BitVec.eq_of_toNat_eq
  rw [toNat_and_mask, heq]
  omega

/-- `b` is `b₀` with the pages `idxs` handed out. -/
structure Reserved (total : Nat) (added : Nat → Prop) (b₀ : BuddyAllocator) (idxs : List Nat)
    (b : BuddyAllocator) : Prop where
  run : BuddyRun total added b
  total_eq : b.totalPages = b₀.totalPages
  nodup : idxs.Nodup
  free : ∀ q ∈ idxs, added q ∧ b₀.isAllocated q = false
  allocated : ∀ q, b.isAllocated q = (decide (q ∈ idxs) || b₀.isAllocated q)

variable {idxs : List Nat} {p : Nat}

/-- One more page. -/
theorem Reserved.alloc (h : Reserved total added b₀ idxs b) (hp : (b.alloc 0).2 = some p) :
    Reserved total added b₀ (idxs ++ [p]) (b.alloc 0).1 := by
  have hc := h.run.consistent
  obtain ⟨-, ⟨n, idx, hblock, rfl⟩, htotal, halloc⟩ := BuddyAllocator.alloc_some hc.total hp
  have hcov := (hc.first_part hblock).2
    (BuddyAllocator.mem_pages_iff_range.mpr ⟨Nat.le_refl _, by omega⟩)
  obtain ⟨hadded, hfree⟩ := hc.mem_coveredPages.mp hcov
  generalize idx * 2 ^ n * 2 ^ 0 = p at *
  rw [h.allocated, Bool.or_eq_false_iff, decide_eq_false_iff_not] at hfree
  refine ⟨h.run.alloc 0, htotal.trans h.total_eq, ?_, ?_, ?_⟩
  · grind [h.nodup]
  · grind [h.free]
  · grind [h.allocated]

/-- The pages go back, and the allocator is what it was. -/
theorem Reserved.release (h₀ : BuddyRun total added b₀) (mem : Mem) :
    ∀ {idxs : List Nat} {b : BuddyAllocator}, Reserved total added b₀ idxs b →
    Fallible.forEach (deallocPage ram) (idxs.map ram.indexToPage) ⟨mem, b⟩ = .ok () ⟨mem, b₀⟩ := by
  intro idxs
  induction idxs with
  | nil =>
    intro b h
    have heq : b = b₀ := h.run.state_eq h₀ h.total_eq fun q => by simpa using h.allocated q
    rw [heq]
    rfl
  | cons q qs ih =>
    intro b h
    have hc := h.run.consistent
    have hlt : q < b.totalPages := hc.inside q (h.free q (by simp)).1
    have hsome : (b.free q 0).isSome := by
      apply BuddyAllocator.free_isSome (by omega) (by omega) (Nat.mod_one q)
      intro q' h1 h2
      have : q' = q := by omega
      rw [h.allocated, this]
      simp
    obtain ⟨b', hb'⟩ := Option.isSome_iff_exists.mp hsome
    obtain ⟨htotal, halloc⟩ := BuddyAllocator.free_fields hb'
    obtain ⟨hnot, hnodup⟩ := nodup_cons.mp h.nodup
    have hrest : Reserved total added b₀ qs b' := by
      refine ⟨h.run.free hb', htotal.trans h.total_eq, hnodup,
        fun q' hq' => h.free q' (by simp [hq']), fun q' => ?_⟩
      rw [halloc, h.allocated]
      by_cases hqq : q' = q
      · have := (h.free q (by simp)).2
        subst hqq
        simp [hnot, this]
      · grind
    have htot := hc.total
    have hstep : deallocPage ram (ram.indexToPage q) ⟨mem, b⟩ = .ok () ⟨mem, b'⟩ := by
      simp only [deallocPage, Ram.pageIndex_indexToPage (Nat.lt_of_lt_of_le hlt htot), hb']
    rw [map_cons, Fallible.forEach, bind_apply, hstep, andThen_ok]
    exact ih hrest

/-- Preallocation returns the frames it was asked for, all of them free before, or
    leaves the allocator as it was. -/
theorem preallocL3_sat (h₀ : BuddyRun total added b₀) (mem : Mem) (n : Nat) :
    ∀ {idxs : List Nat} {b : BuddyAllocator}, Reserved total added b₀ idxs b →
    idxs.length + n ≤ maxL2RegionsPerMap →
    (preallocL3 ram n (idxs.map ram.indexToPage) ⟨mem, b⟩).Sat
      (fun prealloc s => s.mem = mem ∧ ∃ idxs', prealloc = idxs'.map ram.indexToPage ∧
        idxs'.length = idxs.length + n ∧ Reserved total added b₀ idxs' s.buddy)
      (fun _ s => s = ⟨mem, b₀⟩) (fun _ => False) := by
  induction n with
  | zero =>
    intro idxs b h _
    exact ⟨rfl, idxs, rfl, rfl, h⟩
  | succ n ih =>
    intro idxs b h hlen
    rw [preallocL3, bind_apply, allocPage, andThen_ok]
    cases hp : (b.alloc 0).2 with
    | none =>
      have hsame := (BuddyAllocator.alloc_none hp).1
      dsimp only
      rw [Option.map_none]
      dsimp only
      rw [bind_apply, hsame, Reserved.release h₀ mem h, andThen_ok]
      rfl
    | some p =>
      dsimp only
      rw [Option.map_some]
      dsimp only
      rw [if_pos (by rw [length_map]; omega)]
      have hnext := ih (h.alloc hp) (by rw [length_append, length_singleton]; omega)
      grind

end Prealloc

/-! ## Pass 3 -/

section Apply

variable {pages : List Word} {attr : MapMemoryAttribute} {ttbr0 l1 l2 : Word}
variable {mem mem' mem'' : Mem} {v₀ off n : Nat}

/-- From `mem` to `mem'`, the pages from `v₀` on come to be mapped to
    `pages[off]`, …, `pages[off + n - 1]`, and no other page is touched. -/
structure Painted (pages : List Word) (attr : MapMemoryAttribute) (ttbr0 l1 l2 : Word)
    (v₀ off n : Nat) (mem mem' : Mem) : Prop where
  tree : Tree mem' ttbr0 l1 l2
  page : ∀ v < 2 ^ 18, l2Leaf mem' l2 v =
    if v₀ ≤ v ∧ v < v₀ + n then pages[off + (v - v₀)]?.map fun p => (3, buildUserPage p attr)
    else l2Leaf mem l2 v

theorem Painted.nil (htree : Tree mem' ttbr0 l1 l2)
    (h : ∀ v < 2 ^ 18, l2Leaf mem' l2 v = l2Leaf mem l2 v) :
    Painted pages attr ttbr0 l1 l2 v₀ off 0 mem mem' :=
  ⟨htree, fun v hv => by rw [if_neg (by omega)]; exact h v hv⟩

theorem Painted.append {m : Nat} (h : Painted pages attr ttbr0 l1 l2 v₀ off n mem mem')
    (h' : Painted pages attr ttbr0 l1 l2 (v₀ + n) (off + n) m mem' mem'') :
    Painted pages attr ttbr0 l1 l2 v₀ off (n + m) mem mem'' := by
  refine ⟨h'.tree, fun v hv => ?_⟩
  grind [h'.page, h.page]

theorem Painted.congr (h : Painted pages attr ttbr0 l1 l2 v₀ off n mem' mem'')
    (hleaf : ∀ v < 2 ^ 18, l2Leaf mem' l2 v = l2Leaf mem l2 v) :
    Painted pages attr ttbr0 l1 l2 v₀ off n mem mem'' :=
  ⟨h.tree, fun v hv => by rw [h.page v hv, hleaf v hv]⟩

/-- An empty range lies anywhere. -/
theorem Painted.move {v1 : Nat} (h : Painted pages attr ttbr0 l1 l2 v₀ off n mem mem')
    (hv : n = 0 ∨ v₀ = v1) : Painted pages attr ttbr0 l1 l2 v1 off n mem mem' := by
  rcases hv with rfl | rfl
  · exact .nil h.tree fun v hv => by rw [h.page v hv, if_neg (by omega)]
  · exact h

variable {i : Nat} {t p : Word}

/-- One store into an L3 table. -/
theorem Painted.single (h : Tree mem ttbr0 l1 l2) {j : Nat} (hi : i < 512)
    (ht : L3At mem l2 i t) (hj : j < 512) (hp : pages[off]? = some p) :
    Painted pages attr ttbr0 l1 l2 (i * 512 + j) off 1 mem
      (writeEntry mem t j (buildUserPage p attr)) := by
  refine ⟨h.writeEntry hi ht hj _, fun v hv => ?_⟩
  rw [h.writePage hi ht hj (isValid_buildUserPage p attr) hv]
  grind

/-- The stores of one region; the L2 table stays as it is. -/
theorem writePages_sat {l3Start : Nat} (hi : i < 512) (n : Nat) :
    ∀ {k : Nat} {s : State}, Tree s.mem ttbr0 l1 l2 → L3At s.mem l2 i t →
    l3Start + k + n ≤ 512 → off + k + n ≤ pages.length →
    (writePages pages attr t l3Start off n k s).Sat
      (fun _ s' => s'.buddy = s.buddy ∧
        (∀ j < 512, readEntry s'.mem l2 j = readEntry s.mem l2 j) ∧
        Painted pages attr ttbr0 l1 l2 (i * 512 + (l3Start + k)) (off + k) n s.mem s'.mem)
      (fun _ _ => False) (fun _ => False) := by
  induction n with
  | zero =>
    intro k s htree _ _ _
    exact ⟨rfl, fun _ _ => rfl, .nil htree fun _ _ => rfl⟩
  | succ n ih =>
    intro k s htree ht hfit hlen
    have hk : off + k < pages.length := by omega
    have hj : l3Start + k < 512 := by omega
    rw [writePages, getElem?_eq_getElem hk, bind_apply, orStop_some_apply, andThen_ok,
      bind_apply, storeL3, if_pos hj, andThen_ok]
    -- the store of page `k` paints one page more and writes no table above
    have hstep : Painted pages attr ttbr0 l1 l2 (i * 512 + (l3Start + k)) (off + k) 1 s.mem
        (writeEntry s.mem t (l3Start + k) (buildUserPage pages[off + k] attr)) :=
      .single htree hi ht hj (getElem?_eq_getElem hk)
    have hl2 : ∀ j < 512, readEntry (writeEntry s.mem t (l3Start + k)
        (buildUserPage pages[off + k] attr)) l2 j = readEntry s.mem l2 j := fun j hj' =>
      htree.readEntry_upper hi ht hj (by simp) hj'
    have hat : L3At (writeEntry s.mem t (l3Start + k) (buildUserPage pages[off + k] attr))
        l2 i t := by
      rw [L3At, hl2 i hi]
      exact ht
    have hrest := ih (k := k + 1) (s := ⟨_, s.buddy⟩) hstep.tree hat (by omega) (by omega)
    refine hrest.mono ?_ (fun _ _ he => he) (fun _ hs => hs)
    rintro _ s' ⟨hb, hread, hpaint⟩
    refine ⟨hb, fun j hj' => (hread j hj').trans (hl2 j hj'), ?_⟩
    have hnext : i * 512 + (l3Start + (k + 1)) = i * 512 + (l3Start + k) + 1 := by omega
    rw [hnext] at hpaint
    rw [Nat.add_comm n 1]
    exact hstep.append hpaint

theorem Outside.congr (h : Outside mem ttbr0 l1 l2 p)
    (hread : ∀ j < 512, readEntry mem' l2 j = readEntry mem l2 j) : Outside mem' ttbr0 l1 l2 p := by
  refine ⟨h.masked, h.upper, fun i hi ht => ?_⟩
  rw [L3At, hread i hi] at ht
  exact h.l3 i hi ht

/-- A region finds its table or gets the next reserved frame for it. -/
theorem l3TableFor_sat {prealloc : List Word} {s : State} (hi : i < 512)
    (htree : Tree s.mem ttbr0 l1 l2) (hblock : (readEntry s.mem l2 i).isBlock = false)
    (hout : ∀ p ∈ prealloc, Outside s.mem ttbr0 l1 l2 p) (hnodup : prealloc.Nodup)
    (hlen : (readEntry s.mem l2 i).isValid = false → prealloc ≠ []) :
    (l3TableFor l2 i prealloc s).Sat
      (fun next s' => s'.buddy = s.buddy ∧ Tree s'.mem ttbr0 l1 l2 ∧ L3At s'.mem l2 i next.1 ∧
        (∀ v < 2 ^ 18, l2Leaf s'.mem l2 v = l2Leaf s.mem l2 v) ∧
        (∀ j < 512, j ≠ i → readEntry s'.mem l2 j = readEntry s.mem l2 j) ∧
        (∀ p ∈ next.2, Outside s'.mem ttbr0 l1 l2 p) ∧ next.2.Nodup ∧
        next.2.length + (if (readEntry s.mem l2 i).isValid then 0 else 1) = prealloc.length)
      (fun _ _ => False) (fun _ => False) := by
  unfold l3TableFor
  rw [bind_apply, loadL2_apply hi, andThen_ok]
  -- a table is there, or the entry is empty and takes a frame; pass 1 excluded a block
  rcases mapAction_cases (readEntry s.mem l2 i) with ⟨hact, ht⟩ | ⟨hact, hv⟩ | ⟨-, hb⟩
  · rw [hact]
    refine ⟨rfl, htree, ⟨ht, rfl⟩, fun _ _ => rfl, fun _ _ _ => rfl, hout, hnodup, ?_⟩
    rw [PageTableEntry.isValid_of_isTable ht]
    rfl
  · rw [hact]
    cases prealloc with
    | nil => exact (hlen hv rfl).elim
    | cons p ps =>
      obtain ⟨hnot, hnodup'⟩ := nodup_cons.mp hnodup
      have hp : Outside s.mem ttbr0 l1 l2 p := hout p (by simp)
      have hl2p : l2 ≠ p := fun heq => hp.upper (by simp [heq])
      refine ⟨rfl, htree.installL3 hp hi, (l3At_install htree hp hi hi).mpr (by rw [if_pos rfl]),
        fun v hv' => htree.install hp hi hv hv', fun j hj hne => ?_, fun q hq => ?_, hnodup', ?_⟩
      all_goals grind [htree.l2_aligned, htree.readEntry_install, Outside.install]
  · rw [hblock] at hb
    cases hb

/-- Application of a whole range.  The induction is on the regions; those still to
    come lie behind other L2 entries, so they look as they did in pass 1. -/
theorem applyRegions_sat (fuel : Nat) : ∀ {i j rem off : Nat} {prealloc : List Word} {s : State},
    rem ≤ fuel → j < 512 → i * 512 + j + rem ≤ 2 ^ 18 → off + rem ≤ pages.length →
    Tree s.mem ttbr0 l1 l2 →
    (∀ r ∈ l2RegionsFrom fuel i j rem off, (readEntry s.mem l2 r.l2Idx).isBlock = false) →
    (∀ p ∈ prealloc, Outside s.mem ttbr0 l1 l2 p) → prealloc.Nodup →
    (l2RegionsFrom fuel i j rem off).countP (missing s.mem l2) = prealloc.length →
    (applyRegions l2 pages attr (l2RegionsFrom fuel i j rem off) prealloc s).Sat
      (fun _ s' => s'.buddy = s.buddy ∧
        Painted pages attr ttbr0 l1 l2 (i * 512 + j) off rem s.mem s'.mem)
      (fun _ _ => False) (fun _ => False) := by
  induction fuel with
  | zero =>
    intro i j rem off prealloc s hrem _ _ _ htree _ _ _ _
    obtain rfl : rem = 0 := by omega
    exact ⟨rfl, .nil htree fun _ _ => rfl⟩
  | succ fuel ih =>
    intro i j rem off prealloc s hrem hj hend hlen htree hblock hout hnodup hcount
    by_cases h0 : rem = 0
    · subst h0
      rw [l2RegionsFrom, if_pos rfl]
      exact ⟨rfl, .nil htree fun _ _ => rfl⟩
    · have hi : i < 512 := by omega
      rw [Cap.AddressSpace.l2RegionsFrom_succ h0] at hblock hcount ⊢
      have hgeN : min (512 - j) rem ≤ rem := Nat.min_le_right _ _
      have hgeJ : min (512 - j) rem ≤ 512 - j := Nat.min_le_left _ _
      have hpos : 0 < min (512 - j) rem := by omega
      have hrest0 : rem - min (512 - j) rem = 0 ∨ min (512 - j) rem = 512 - j := by omega
      generalize min (512 - j) rem = n at *
      rw [applyRegions]
      apply bind_sat
      have hmiss : (readEntry s.mem l2 i).isValid = false → prealloc ≠ [] := by grind [missing]
      have hblock0 : (readEntry s.mem l2 i).isBlock = false :=
        hblock ⟨i, j, n, off⟩ (mem_cons_self ..)
      refine (l3TableFor_sat hi htree hblock0 hout hnodup hmiss).mono
        ?_ (fun _ _ he => he) (fun _ hs => hs)
      rintro next s1 ⟨hb1, htree1, hat, hleaf1, hread1, hout1, hnodup1, hlen1⟩
      apply bind_sat
      have hfit : j + 0 + n ≤ 512 := by omega
      have hlen' : off + 0 + n ≤ pages.length := by omega
      refine (writePages_sat (k := 0) hi n htree1 hat hfit hlen').mono
        ?_ (fun _ _ he => he) (fun _ hs => hs)
      rintro _ s2 ⟨hb2, hread2, hpaint2⟩
      -- the regions still to come
      have hend' : (i + 1) * 512 + 0 + (rem - n) ≤ 2 ^ 18 := by
        rw [Nat.add_zero]
        omega
      have hread : ∀ r ∈ l2RegionsFrom fuel (i + 1) 0 (rem - n) (off + n), r.l2Idx < 512 →
          readEntry s2.mem l2 r.l2Idx = readEntry s.mem l2 r.l2Idx := by
        intro r hr hr512
        have hge := Cap.AddressSpace.le_l2Idx_of_mem _ _ _ _ _ hr
        rw [hread2 _ hr512, hread1 _ hr512 (by omega)]
      have hlt : ∀ r ∈ l2RegionsFrom fuel (i + 1) 0 (rem - n) (off + n), r.l2Idx < 512 :=
        fun r hr => l2Idx_lt_of_mem fuel (Nat.zero_lt_succ 511) hend' hr
      have hblock2 : ∀ r ∈ l2RegionsFrom fuel (i + 1) 0 (rem - n) (off + n),
          (readEntry s2.mem l2 r.l2Idx).isBlock = false := by
        intro r hr
        rw [hread r hr (hlt r hr)]
        exact hblock r (mem_cons_of_mem _ hr)
      have hcount2 : (l2RegionsFrom fuel (i + 1) 0 (rem - n) (off + n)).countP
          (missing s2.mem l2) = next.2.length := by
        have hcongr : (l2RegionsFrom fuel (i + 1) 0 (rem - n) (off + n)).countP
            (missing s2.mem l2) = (l2RegionsFrom fuel (i + 1) 0 (rem - n) (off + n)).countP
            (missing s.mem l2) := by
          apply countP_congr
          intro r hr
          rw [missing, missing, hread r hr (hlt r hr)]
        rw [hcongr]
        rw [countP_cons, missing] at hcount
        cases hv : (readEntry s.mem l2 i).isValid <;> simp [hv] at hcount hlen1 <;> omega
      have hlen2 : off + n + (rem - n) ≤ pages.length := by omega
      refine (ih (by omega) (Nat.zero_lt_succ 511) hend' hlen2 hpaint2.tree hblock2
        (fun p hp => (hout1 p hp).congr hread2) hnodup1 hcount2).mono
        ?_ (fun _ _ he => he) (fun _ hs => hs)
      rintro _ s3 ⟨hb3, hpaint3⟩
      refine ⟨hb3.trans (hb2.trans hb1), ?_⟩
      have hfirst : Painted pages attr ttbr0 l1 l2 (i * 512 + j) off n s.mem s2.mem := by
        exact (hpaint2.congr hleaf1).move (.inr rfl)
      have hpaint : Painted pages attr ttbr0 l1 l2 (i * 512 + j + n) (off + n) (rem - n)
          s2.mem s3.mem := by
        apply hpaint3.move
        rw [Nat.add_zero]
        omega
      have := hfirst.append hpaint
      rwa [Nat.add_sub_of_le hgeN] at this

end Apply

/-! ## The whole call -/

/-- The tree of an address space in use: its tables lie in different frames, none of
    which the allocator counts as free. -/
structure WellFormed (ram : Ram) (s : State) (ttbr0 : Word) : Prop where
  aligned : Aligned ttbr0
  nodup : (tableFrames s.mem ttbr0).Nodup
  inUse : ∀ q ∈ s.buddy.coveredPages, ram.indexToPage q ∉ tableFrames s.mem ttbr0

/-- The range at `virtAddr` reaches `pages`, with the attributes asked for, and every
    other user address translates as before. -/
structure Maps (pages : List Word) (attr : MapMemoryAttribute) (ttbr0 : Word) (virtAddr : Nat)
    (mem mem' : Mem) : Prop where
  reaches : ∀ i p, pages[i]? = some p → walk mem' ttbr0 (virtAddr + i * pageSize) = .done p
  attrs : ∀ i < pages.length, ∃ e, leaf mem' ttbr0 (virtAddr + i * pageSize) = some (3, e) ∧
    UserAttrs attr e
  others : ∀ va < userVaEnd, ¬ (virtAddr ≤ va ∧ va < virtAddr + pages.length * pageSize) →
    walk mem' ttbr0 va = walk mem ttbr0 va ∧ leaf mem' ttbr0 va = leaf mem ttbr0 va

section Call

variable {ram : Ram} {total : Nat} {added : Nat → Prop} {s : State} {ttbr0 l1 l2 : Word}
variable {virtAddr : Nat} {pages : List Word} {attr : MapMemoryAttribute} {mem mem' : Mem}

/-- A range that passes validation. -/
theorem validateMapping_ok {n l2Idx l3Start : Nat}
    (h : validateMapping virtAddr n = .ok l2Idx l3Start) :
    l2Idx * 512 + l3Start = virtAddr / pageSize ∧ l3Start < 512 ∧ 0 < n ∧ n ≤ 16384 ∧
      virtAddr + n * pageSize ≤ userVaEnd := by
  unfold validateMapping at h
  split at h
  · cases h
  · rename_i hn
    have hn' : ¬ (n = 0 ∨ n > 16384) := hn
    dsimp only at h
    split at h
    · cases h
    · split at h
      · cases h
      · rename_i hend
        have hend' : virtAddr + n * 4096 ≤ 0x40000000 := Nat.le_of_not_gt hend
        injection h with h2 h3
        have h2' : virtAddr / 2 ^ 21 % 512 = l2Idx := h2
        have h3' : virtAddr / 2 ^ 12 % 512 = l3Start := h3
        have h4 : virtAddr / pageSize = virtAddr / 4096 := rfl
        refine ⟨by omega, by omega, by omega, by omega, hend'⟩

/-- Where the first walk ends. -/
theorem mapWalk_cases (mem : Mem) (ttbr0 : Word) (virtAddr n : Nat) :
    (∃ l2Idx l3Start l1 l2 state, mapWalk mem ttbr0 virtAddr n = .reachedL2 l2 l2Idx l3Start state ∧
      validateMapping virtAddr n = .ok l2Idx l3Start ∧
      (readEntry mem ttbr0 0).isTable = true ∧ (readEntry mem ttbr0 0).outputAddr = l1 ∧
      (readEntry mem l1 0).isTable = true ∧ (readEntry mem l1 0).outputAddr = l2) ∨
    mapWalk mem ttbr0 virtAddr n = .fault ∨ mapWalk mem ttbr0 virtAddr n = .invalidMapping := by
  have hread (table : Word) (idx : Nat) :
      (⟨mem (table + BitVec.ofNat 64 idx * 8#64)⟩ : PageTableEntry) = readEntry mem table idx := rfl
  unfold mapWalk
  rw [MapWalk.start]
  cases hv : validateMapping virtAddr n with
  | errorOutOfRange => exact .inr (.inr rfl)
  | errorTooManyPages => exact .inr (.inr rfl)
  | ok l2Idx l3Start =>
    dsimp only
    rw [MapWalk.drive, MapWalk.step]
    simp only [hread]
    by_cases h0 : (readEntry mem ttbr0 0).isTable = true
    swap
    · exact .inr (.inl (by simp [h0, MapWalk.drive]))
    simp only [h0, Bool.not_true, Bool.false_eq_true, if_false, MapWalk.drive, MapWalk.step,
      hread]
    by_cases h1 : (readEntry mem (readEntry mem ttbr0 0).outputAddr 0).isTable = true
    swap
    · exact .inr (.inl (by simp [h1, MapWalk.drive]))
    refine .inl ⟨l2Idx, l3Start, _, _, classifyL2Entry (readEntry mem (readEntry mem
      (readEntry mem ttbr0 0).outputAddr 0).outputAddr l2Idx), ?_, rfl, trivial, rfl, h1, rfl⟩
    simp only [h1, Bool.not_true, Bool.false_eq_true, if_false, MapWalk.drive, MapWalk.step,
      hread]

/-- Frames reserved from the allocator lie outside the tree. -/
theorem Reserved.outside {idxs : List Nat} {b : BuddyAllocator}
    (hrun : BuddyRun total added s.buddy) (hwf : WellFormed ram s ttbr0)
    (htree : Tree s.mem ttbr0 l1 l2) (h : Reserved total added s.buddy idxs b) :
    (∀ p ∈ idxs.map ram.indexToPage, Outside s.mem ttbr0 l1 l2 p) ∧
      (idxs.map ram.indexToPage).Nodup := by
  have hc := hrun.consistent
  have hlt : ∀ q ∈ idxs, q < maxPages := fun q hq =>
    Nat.lt_of_lt_of_le (hc.inside q (h.free q hq).1) hc.total
  have hframes : tableFrames s.mem ttbr0 = [ttbr0, l1, l2] ++ l3Frames s.mem l2 := by
    simp only [tableFrames, htree.l0Table, htree.l0Out, htree.l1Table, htree.l1Out, Bool.not_true,
      Bool.false_eq_true, if_false]
  constructor
  · intro p hp
    obtain ⟨q, hq, rfl⟩ := mem_map.mp hp
    have hnot := hwf.inUse q (hc.mem_coveredPages.mpr (h.free q hq))
    rw [hframes, mem_append, not_or] at hnot
    exact ⟨ram.indexToPage_masked (hlt q hq), hnot.1,
      fun i hi ht => hnot.2 (mem_l3Frames.mpr ⟨i, hi, ht⟩)⟩
  · refine List.Nodup.map_on ?_ h.nodup
    intro q hq q' hq' heq
    rw [← ram.pageIndex_indexToPage (hlt q hq), heq, ram.pageIndex_indexToPage (hlt q' hq')]

/-- The call paints its range or changes nothing. -/
theorem mapPagesInExisting_sat (hrun : BuddyRun total added s.buddy)
    (hwf : WellFormed ram s ttbr0) :
    (mapPagesInExisting ram ttbr0 virtAddr pages attr s).Sat
      (fun _ s' => virtAddr + pages.length * pageSize ≤ userVaEnd ∧ ∃ l1 l2,
        Tree s.mem ttbr0 l1 l2 ∧
        Painted pages attr ttbr0 l1 l2 (virtAddr / pageSize) 0 pages.length s.mem s'.mem)
      (fun _ s' => s' = s) (fun _ => False) := by
  unfold mapPagesInExisting
  rw [bind_apply, read_apply, andThen_ok]
  rcases mapWalk_cases s.mem ttbr0 virtAddr pages.length with
    ⟨l2Idx, l3Start, l1, l2, state, heq, hvalid, h0, h0', h1, h1'⟩ | heq | heq
  rotate_left
  · rw [heq]
    rfl
  · rw [heq]
    rfl
  rw [heq]
  have htree := Tree.of_nodup hwf.aligned hwf.nodup h0 h0' h1 h1'
  obtain ⟨hstart, hl3, hpos, hmax, hend⟩ := validateMapping_ok hvalid
  have hend' : virtAddr + pages.length * 4096 ≤ 0x40000000 := hend
  have hstart' : l2Idx * 512 + l3Start = virtAddr / 4096 := hstart
  have hend18 : l2Idx * 512 + l3Start + pages.length ≤ 2 ^ 18 := by omega
  have hlt : ∀ r ∈ l2Regions l2Idx l3Start pages.length, r.l2Idx < 512 := fun r hr =>
    l2Idx_lt_of_mem _ hl3 hend18 hr
  -- pass 1
  apply bind_sat
  refine Outcome.Sat.mono (classifyRegions_keeps hlt) ?_ (fun _ _ he => he) (fun _ hs => hs)
  rintro needed s1 ⟨rfl, hneeded, hblock⟩
  rw [Nat.zero_add] at hneeded
  -- pass 2
  have hcount : needed ≤ maxL2RegionsPerMap := by
    have hle : 512 * (l2Regions l2Idx l3Start pages.length).length
        ≤ l3Start + pages.length + 511 := length_l2RegionsFrom_le pages.length hl3
    have hcountP : needed ≤ (l2Regions l2Idx l3Start pages.length).length :=
      hneeded ▸ countP_le_length
    show needed ≤ 33
    omega
  have hres : Reserved total added s1.buddy [] s1.buddy :=
    ⟨hrun, rfl, nodup_nil, by simp, by simp⟩
  apply bind_sat
  refine (preallocL3_sat hrun s1.mem needed hres (by simpa using hcount)).mono
    ?_ (fun _ _ he => he) (fun _ hs => hs)
  rintro prealloc s2 ⟨hmem, idxs, rfl, hlen, hres2⟩
  obtain ⟨hout, hnodup⟩ := hres2.outside hrun hwf htree
  -- pass 3
  rw [← hmem] at htree hblock hneeded hout ⊢
  have hlen' : needed = (idxs.map ram.indexToPage).length := by
    rw [length_map, hlen, length_nil, Nat.zero_add]
  refine (applyRegions_sat pages.length (Nat.le_refl _) hl3 hend18
    (Nat.le_of_eq (Nat.zero_add _)) htree hblock hout hnodup (hneeded.symm.trans hlen')).mono
    ?_ (fun _ _ he => he.elim) (fun _ hs => hs)
  rintro _ s3 ⟨-, hpaint⟩
  exact ⟨hend, l1, l2, htree, hstart ▸ hpaint⟩

variable {i : Nat} {p : Word}

section

variable (h : Painted pages attr ttbr0 l1 l2 (virtAddr / pageSize) 0 pages.length mem mem')
include h

/-- What maps a page of the range. -/
theorem Painted.leaf_page
    (hend : virtAddr + pages.length * pageSize ≤ userVaEnd) (hp : pages[i]? = some p) :
    leaf mem' ttbr0 (virtAddr + i * pageSize) = some (3, buildUserPage p attr) := by
  have hi : i < pages.length := (List.getElem?_eq_some_iff.mp hp).1
  have hend' : virtAddr + pages.length * 4096 ≤ 0x40000000 := hend
  have hva : virtAddr + i * pageSize < userVaEnd := by
    show virtAddr + i * 4096 < 0x40000000
    omega
  have hpage : (virtAddr + i * pageSize) / pageSize = virtAddr / pageSize + i :=
    Nat.add_mul_div_right _ _ (show 0 < 4096 by omega)
  have hlt : virtAddr / pageSize + i < 2 ^ 18 := by
    show virtAddr / 4096 + i < 2 ^ 18
    omega
  grind [h.page, h.tree.leaf_eq]

/-- … and where a walk for it ends. -/
theorem Painted.walk_page
    (halign : virtAddr % pageSize = 0) (hend : virtAddr + pages.length * pageSize ≤ userVaEnd)
    (hp : pages[i]? = some p) :
    walk mem' ttbr0 (virtAddr + i * pageSize) = .done (p &&& pteAddrMask) := by
  have halign' : virtAddr % 4096 = 0 := halign
  have hoff : (virtAddr + i * pageSize) % 2 ^ (39 - 9 * 3) = 0 := by
    show (virtAddr + i * 4096) % 4096 = 0
    omega
  rw [walk_eq, h.leaf_page hend hp, Option.map_some, Option.getD_some, PageTableEntry.translate,
    outputAddr_buildUserPage, hoff, BitVec.add_zero]

end

/-- A user address outside the range. -/
theorem Painted.leaf_other (htree : Tree mem ttbr0 l1 l2)
    (h : Painted pages attr ttbr0 l1 l2 (virtAddr / pageSize) 0 pages.length mem mem')
    (halign : virtAddr % pageSize = 0) {va : Nat} (hva : va < userVaEnd)
    (hout : ¬ (virtAddr ≤ va ∧ va < virtAddr + pages.length * pageSize)) :
    leaf mem' ttbr0 va = leaf mem ttbr0 va := by
  have hva' : va < 0x40000000 := hva
  have halign' : virtAddr % 4096 = 0 := halign
  have hout' : ¬ (virtAddr ≤ va ∧ va < virtAddr + pages.length * 4096) := hout
  have hlt : va / pageSize < 2 ^ 18 := by
    show va / 4096 < 2 ^ 18
    omega
  have hnot : ¬ (virtAddr / pageSize ≤ va / pageSize ∧
      va / pageSize < virtAddr / pageSize + pages.length) := by
    show ¬ (virtAddr / 4096 ≤ va / 4096 ∧ va / 4096 < virtAddr / 4096 + pages.length)
    omega
  rw [h.tree.leaf_eq hva, htree.leaf_eq hva, h.page _ hlt, if_neg hnot]

/-- On every well-formed user tree and for every state of the allocator, a call that
    fails changes neither memory nor the allocator, and the code never stops.  A call
    that returns maps its range and changes no other translation exactly when the
    addresses in the PageSet fit the address bits of an entry. -/
theorem mapPagesInExisting_exact_iff (hrun : BuddyRun total added s.buddy)
    (hwf : WellFormed ram s ttbr0) (halign : virtAddr % pageSize = 0) :
    (mapPagesInExisting ram ttbr0 virtAddr pages attr s).Sat
      (fun _ s' => Maps pages attr ttbr0 virtAddr s.mem s'.mem ↔
        ∀ p ∈ pages, p &&& pteAddrMask = p)
      (fun _ s' => s' = s) (fun _ => False) := by
  refine (mapPagesInExisting_sat hrun hwf).mono ?_ (fun _ _ he => he) (fun _ hs => hs)
  rintro _ s' ⟨hend, l1, l2, htree, hpaint⟩
  constructor
  · rintro hmaps p hp
    obtain ⟨i, hi, rfl⟩ := mem_iff_getElem.mp hp
    have hpi := getElem?_eq_getElem hi
    have hdone := hmaps.reaches i _ hpi
    rw [hpaint.walk_page halign hend hpi] at hdone
    exact WalkResult.done.inj hdone
  · intro hmasked
    refine ⟨fun i p hp => ?_, fun i hi => ?_, fun va hva hout => ?_⟩
    · rw [hpaint.walk_page halign hend hp, hmasked p (mem_of_getElem? hp)]
    · exact ⟨buildUserPage pages[i] attr, hpaint.leaf_page hend (getElem?_eq_getElem hi),
        userAttrs_buildUserPage _ attr⟩
    · have hleaf := hpaint.leaf_other htree halign hva hout
      exact ⟨by rw [walk_eq, walk_eq, hleaf], hleaf⟩

end Call

/-! ## Two calls -/

/-- RAM at 1 GiB. -/
def demoRam : Ram := ⟨0x40000000, by decide, by decide⟩

/-- A tree of four tables, one a level, that maps nothing. -/
def demoMem : Mem := fun a =>
  if a = 0x1000#64 then 0x2003#64
  else if a = 0x2000#64 then 0x3003#64
  else if a = 0x3000#64 then 0x4003#64
  else 0#64

theorem demoMem_frames :
    tableFrames demoMem 0x1000#64 = [0x1000#64, 0x2000#64, 0x3000#64, 0x4000#64] := by
  decide +kernel

/-- The first four pages of RAM are free. -/
def demoState : State :=
  ⟨demoMem, ((BuddyAllocator.init 4).bind (·.addRange 0 4)).getD ⟨fun _ => 0#8, fun _ => 0#8, 0, 0⟩⟩

theorem demoState_run : BuddyRun 4 (fun p => False ∨ 0 ≤ p ∧ p < 0 + 4) demoState.buddy :=
  .addRange (.init rfl) (fun _ _ _ => not_false) rfl

theorem demoState_wellFormed : WellFormed demoRam demoState 0x1000#64 := by
  refine ⟨rfl, ?_, fun q hq => ?_⟩
  · rw [show demoState.mem = demoMem from rfl, demoMem_frames]
    decide
  · rw [show demoState.mem = demoMem from rfl, demoMem_frames]
    obtain hfalse | ⟨-, hlt⟩ := (demoState_run.consistent.mem_coveredPages.mp hq).1
    · exact hfalse.elim
    · have hout : ∀ q < 4, demoRam.indexToPage q ∉ [0x1000#64, 0x2000#64, 0x3000#64, 0x4000#64] := by
        decide
      exact hout q hlt

/-- Two pages on either side of a 2 MiB boundary: the second region gets a new L3 table. -/
theorem mapPagesInExisting_exact_iff_page :
    (mapPagesInExisting demoRam 0x1000#64 0x1ff000 [0x50000000#64, 0x50001000#64] .normal
      demoState).Sat
      (fun _ s' => Maps [0x50000000#64, 0x50001000#64] .normal 0x1000#64 0x1ff000 demoState.mem
        s'.mem) (fun _ _ => False) (fun _ => False) := by
  have hok : (mapPagesInExisting demoRam 0x1000#64 0x1ff000 [0x50000000#64, 0x50001000#64] .normal
      demoState).Sat (fun _ _ => True) (fun _ _ => False) (fun _ => False) := by
    decide +kernel
  have hmaps : (mapPagesInExisting demoRam 0x1000#64 0x1ff000 [0x50000000#64, 0x50001000#64]
      .normal demoState).Sat _ _ _ :=
    mapPagesInExisting_exact_iff demoState_run demoState_wellFormed (by decide)
  have hfit : ∀ p ∈ [0x50000000#64, 0x50001000#64], p &&& pteAddrMask = p := by
    simp only [forall_mem_cons, not_mem_nil, false_imp_iff, implies_true, and_true]
    decide
  exact (hmaps.and hok).mono (fun _ _ h => h.1.mpr hfit) (fun _ _ h => h.2) fun _ h => h.2

/-- `sys_register_device_page` takes any address.  Mapping a device page at 2^48 returns,
    and the walk for it ends at physical page 0. -/
theorem device_page_maps_page_zero :
    BuddyRun 4 (fun p => False ∨ 0 ≤ p ∧ p < 0 + 4) demoState.buddy ∧
      WellFormed demoRam demoState 0x1000#64 ∧
      (mapPagesInExisting demoRam 0x1000#64 0x1000 [0x1000000000000#64] .device demoState).Sat
        (fun _ s' => walk s'.mem 0x1000#64 0x1000 = .done 0#64)
        (fun _ _ => False) (fun _ => False) :=
  ⟨demoState_run, demoState_wellFormed, by decide +kernel⟩

end Lockjaw.Vmem
