/-
  Lockjaw.User.PosixVa

  The address space of a POSIX child: the layout that posix-server computes from
  the ELF image, the heap that the libc shim grows on `brk`, and the regions that
  the shim maps on `mmap` at addresses posix-server hands out and drops on
  `munmap`.  `long` arguments of `brk` are signed; its rounding is done in
  `unsigned long` and wraps.

  `Zoned` says that image, shared buffer, heap, stack and regions lie apart, each
  in its zone.  `brk` compares the heap with nothing, so this is the case as long
  as the heap has not been grown past the start of the stack.
-/

import Lockjaw.Lib.SlotArray
import Lockjaw.User.Elf

namespace Lockjaw.User.PosixVa

open Lib List
open User.Elf (LoadSegment ElfInfo)
open Cap (pageSize userVaEnd userStackBase validateMapping)

/-! ## The layout -/

def posixMmapBase : Nat := 0x1000000

def posixStackPages : Nat := 4

structure PosixVaLayout where
  elfEndAligned : Nat
  childSharedVa : Nat
  brkBase : Nat
  mmapBase : Nat
  deriving DecidableEq, Repr

inductive LayoutError where
  | segmentEndOverflow (segIdx : Nat)
  | alignOverflow
  | overflowsStack (brkBase userStackBase : Nat)
  | mmapBelowStack (mmapBase userStackBase stackPages : Nat)
  deriving DecidableEq, Repr

/-- The segment loop of `compute_va_layout`: the largest end from segment `i` on. -/
def elfEnd : Nat → Nat → List LoadSegment → Except LayoutError Nat
  | _, acc, [] => .ok acc
  | i, acc, seg :: segs =>
    if seg.endVa ≥ 2 ^ 64 then .error (.segmentEndOverflow i)
    else elfEnd (i + 1) (if seg.endVa > acc then seg.endVa else acc) segs

def computeVaLayout (info : ElfInfo) (stackBase stackPages mmapBase : Nat) :
    Except LayoutError PosixVaLayout :=
  match elfEnd 0 0 info.segments with
  | .error e => .error e
  | .ok elfEnd =>
    if elfEnd + (pageSize - 1) ≥ 2 ^ 64 then .error .alignOverflow
    else
      let elfEndAligned := (elfEnd + (pageSize - 1)) / pageSize * pageSize
      let childSharedVa := elfEndAligned + pageSize
      let brkBase := childSharedVa + pageSize
      if childSharedVa ≥ 2 ^ 64 ∨ brkBase ≥ 2 ^ 64 then .error .alignOverflow
      else if brkBase ≥ stackBase then .error (.overflowsStack brkBase stackBase)
      else
        let stackTop := stackBase + stackPages * pageSize
        if stackTop ≥ 2 ^ 64 ∨ stackTop + pageSize ≥ 2 ^ 64 then .error .alignOverflow
        else if mmapBase < stackTop + pageSize then
          .error (.mmapBelowStack mmapBase stackBase stackPages)
        else .ok { elfEndAligned, childSharedVa, brkBase, mmapBase }

/-! ## The state of a child and its server -/

def maxMmapBytes : UInt64 := 64 * 1024 * 1024

def maxMmapRegions : Nat := 16

def mmapTrackerSlots : Nat := 16

def eacces : Nat := 13

def einval : Nat := 22

def enomem : Nat := 12

def enosys : Nat := 38

def negErrno (e : Nat) : Int := -e

/-- The server's record of a region. -/
structure MmapEntry where
  baseVa : Nat
  lenBytes : Nat
  deriving DecidableEq, Repr

/-- The shim's record of a region; `baseVa` 0 marks an empty slot. -/
structure MmapSlot where
  baseVa : Nat
  len : Nat
  deriving DecidableEq, Repr

/-- An exported PageSet mapped in the child. -/
structure Region where
  baseVa : Nat
  pages : Nat
  deriving DecidableEq, Repr

/-- The shim's variables, the server's table and VA allocator, and the exported PageSets that are
    mapped in the child.  `died` is set by `lj_die`. -/
structure Child where
  brkCurrent : Nat
  brkMappedEnd : Nat
  mmapTracker : List MmapSlot
  mmapTable : List (Option MmapEntry)
  next : Nat
  limit : Nat
  regions : List Region
  died : Bool
  deriving DecidableEq, Repr

/-- The state after the bootstrap with a layout. -/
def Child.init (L : PosixVaLayout) : Child where
  brkCurrent := L.brkBase
  brkMappedEnd := L.brkBase
  mmapTracker := replicate mmapTrackerSlots ⟨0, 0⟩
  mmapTable := replicate maxMmapRegions none
  next := posixMmapBase
  limit := userVaEnd
  regions := []
  died := false

/-- The requests that `sys_map_pages` does not refuse for their addresses.  An address that is
    mapped already is not among its checks. -/
def mayMap (va pages : Nat) : Bool :=
  va ≠ 0 && va % pageSize = 0 &&
    match validateMapping va pages with
    | .ok _ _ => true
    | _ => false

/-! ## brk -/

/-- `addr` rounded up to a page boundary, as a `long`. -/
def roundUpLong (addr : Int) : Int := ((addr + (pageSize - 1)) / pageSize * pageSize).bmod (2 ^ 64)

/-- The mapping loop of `handle_brk`, with what the kernel answers to each allocation and mapping:
    the new mapped end, and whether it was reached. -/
def growHeap : List Bool → Nat → Int → Nat × Bool
  | [], mappedEnd, newEnd => (mappedEnd, newEnd ≤ mappedEnd)
  | ok :: answers, mappedEnd, newEnd =>
    if (mappedEnd : Int) < newEnd then
      if ok && mayMap mappedEnd 1 then growHeap answers (mappedEnd + pageSize) newEnd
      else (mappedEnd, false)
    else (mappedEnd, true)

def handleBrk (addr : Int64) (answers : List Bool) (c : Child) : Int × Child :=
  if addr.toInt = 0 ∨ addr.toInt ≤ c.brkCurrent then (c.brkCurrent, c)
  else
    let (mappedEnd, reached) := growHeap answers c.brkMappedEnd (roundUpLong addr.toInt)
    if reached then
      (addr.toInt, { c with brkMappedEnd := mappedEnd, brkCurrent := addr.toInt.toNat })
    else (c.brkCurrent, { c with brkMappedEnd := mappedEnd })

/-! ## mmap and munmap in the server -/

/-- What the kernel answers during one `mmap` or `munmap`. -/
structure Answers where
  alloc : Bool
  exported : Bool
  mapped : Bool
  unmapped : Bool
  deriving DecidableEq, Repr

/-- The `NR_MMAP` arm of `dispatch`: the errno it replies with, if any. -/
def dispatchMmap (lenBytes prot flags : UInt64) : Except Nat Unit :=
  if lenBytes = 0 then .error einval
  else if lenBytes > maxMmapBytes then .error enomem
  else if prot &&& 4 ≠ 0 then .error eacces
  else if prot = 0 then .error einval
  else if prot = 2 then .error einval
  else if prot = 1 then .error enosys
  else if prot ≠ 3 then .error einval
  else if flags &&& 0x10 ≠ 0 then .error enosys
  else if flags ≠ 0x22 then .error enosys
  else .ok ()

/-- The `NR_MUNMAP` arm of `dispatch`. -/
def dispatchMunmap (baseVa lenBytes : UInt64) : Except Nat Unit :=
  if lenBytes = 0 then .error einval
  else if baseVa.toNat % pageSize ≠ 0 then .error einval
  else if lenBytes.toNat % pageSize ≠ 0 then .error einval
  else .ok ()

/-- `MmapVaAllocator::alloc` -/
def vaAlloc (pages : Nat) (c : Child) : Option (Nat × Child) :=
  let newNext := c.next + pages * pageSize
  if pages * pageSize ≥ 2 ^ 64 ∨ newNext ≥ 2 ^ 64 ∨ newNext > c.limit then none
  else some (c.next, { c with next := newNext })

/-- `handle_file_mmap`: the errno, or the base and the pages of the region. -/
def handleFileMmap (a : Answers) (lenBytes : Nat) (c : Child) : Except Nat (Nat × Nat) × Child :=
  let pages := (lenBytes + pageSize - 1) / pageSize
  if c.mmapTable.all Option.isSome then (.error enomem, c)
  else if !a.alloc then (.error enomem, c)
  else
    match vaAlloc pages c with
    | none => (.error enomem, c)
    | some (baseVa, c) =>
      -- a failed export does not rewind the address
      if !a.exported then (.error enomem, c)
      else
        match setFirst Option.isNone (some ⟨baseVa, lenBytes⟩) c.mmapTable with
        | none => (.error enomem, c)
        | some mmapTable => (.ok (baseVa, pages), { c with mmapTable })

/-- The slot test of `find_by_base_va` and `take_by_base_va`. -/
def holdsBase (baseVa : Nat) (slot : Option MmapEntry) : Bool :=
  slot.any (·.baseVa == baseVa)

def handleFileMunmap (baseVa lenBytes : Nat) (c : Child) : Except Nat Unit × Child :=
  match c.mmapTable.find? (holdsBase baseVa) with
  | some (some e) =>
    if e.lenBytes = lenBytes then
      match setFirst (holdsBase baseVa) none c.mmapTable with
      | some mmapTable => (.ok (), { c with mmapTable })
      | none => (.error einval, c)
    else (.error einval, c)
  | _ => (.error einval, c)

def handleFileMmapRollback (baseVa : Nat) (c : Child) : Except Nat Unit × Child :=
  match setFirst (holdsBase baseVa) none c.mmapTable with
  | some mmapTable => (.ok (), { c with mmapTable })
  | none => (.error einval, c)

/-! ## mmap and munmap in the shim -/

/-- The rollback call of the shim's failure paths. -/
def rollBack (baseVa : Nat) (c : Child) : Int × Child :=
  match handleFileMmapRollback baseVa c with
  | (.ok (), c) => (negErrno enomem, c)
  | (.error e, c) => (negErrno e, { c with died := true })

def Child.unmap (baseVa : Nat) (c : Child) : Child :=
  { c with regions := c.regions.filter (·.baseVa ≠ baseVa) }

def handleMmap (a : Answers) (len prot flags : UInt64) (c : Child) : Int × Child :=
  match dispatchMmap len prot flags with
  | .error e => (negErrno e, c)
  | .ok () =>
    match handleFileMmap a len.toNat c with
    | (.error e, c) => (negErrno e, c)
    | (.ok (baseVa, pages), c) =>
      if !(a.mapped && mayMap baseVa pages) then rollBack baseVa c
      else
        let c := { c with regions := c.regions ++ [⟨baseVa, pages⟩] }
        match setFirst (·.baseVa == 0) ⟨baseVa, len.toNat⟩ c.mmapTracker with
        | none => rollBack baseVa (if a.unmapped then c.unmap baseVa else c)
        | some mmapTracker => (baseVa, { c with mmapTracker })

def handleMunmap (a : Answers) (baseVa len : UInt64) (c : Child) : Int × Child :=
  match c.mmapTracker.find? (·.baseVa == baseVa.toNat) with
  | none => (negErrno einval, c)
  | some _ =>
    match dispatchMunmap baseVa len with
    | .error e => (negErrno e, c)
    | .ok () =>
      match handleFileMunmap baseVa.toNat len.toNat c with
      | (.error e, c) => (negErrno e, c)
      | (.ok (), c) =>
        if !a.unmapped then (0, { c with died := true })
        else
          let c := c.unmap baseVa.toNat
          match setFirst (·.baseVa == baseVa.toNat) ⟨0, 0⟩ c.mmapTracker with
          | none => (0, c)
          | some mmapTracker => (0, { c with mmapTracker })

/-- A call of the child, with what the kernel answers during it. -/
inductive Call where
  | brk (addr : Int64) (answers : List Bool)
  | mmap (len prot flags : UInt64) (answers : Answers)
  | munmap (baseVa len : UInt64) (answers : Answers)
  deriving DecidableEq, Repr

def Child.step (c : Child) (call : Call) : Child :=
  if c.died then c
  else
    match call with
    | .brk addr answers => (handleBrk addr answers c).2
    | .mmap len prot flags a => (handleMmap a len prot flags c).2
    | .munmap baseVa len a => (handleMunmap a baseVa len c).2

def Child.run (c : Child) (calls : List Call) : Child := calls.foldl Child.step c

/-! ## The zones -/

section

variable (info : ElfInfo) (L : PosixVaLayout) (c : Child)

def elfPages (page : Nat) : Prop := ∃ seg ∈ info.segments, seg.onPage page = true

def sharedPages (page : Nat) : Prop := page = L.childSharedVa

def heapPages (page : Nat) : Prop :=
  page % pageSize = 0 ∧ L.brkBase ≤ page ∧ page < c.brkMappedEnd

def stackPages (page : Nat) : Prop :=
  page % pageSize = 0 ∧ userStackBase ≤ page ∧ page < userStackBase + posixStackPages * pageSize

def Region.endVa (r : Region) : Nat := r.baseVa + r.pages * pageSize

def Region.Has (r : Region) (page : Nat) : Prop :=
  page % pageSize = 0 ∧ r.baseVa ≤ page ∧ page < r.endVa

/-- Everything that is mapped in the child. -/
def areas : List (Nat → Prop) :=
  [elfPages info, sharedPages L, heapPages L c, stackPages] ++ c.regions.map Region.Has

/-- No two areas share a page, and heap and regions keep to their zones. -/
structure Zoned : Prop where
  apart : (areas info L c).Pairwise fun A B => ∀ page, ¬ (A page ∧ B page)
  heap : ∀ page, heapPages L c page → L.brkBase ≤ page ∧ page + pageSize ≤ userStackBase
  mmap : ∀ r ∈ c.regions, posixMmapBase ≤ r.baseVa ∧ r.endVa ≤ userVaEnd

end

/-! ## What the layout guarantees -/

variable {e : Nat}

theorem elfEnd_ok {segs : List LoadSegment} {i acc : Nat} (h : elfEnd i acc segs = .ok e) :
    acc ≤ e ∧ ∀ seg ∈ segs, seg.endVa ≤ e := by
  induction segs generalizing i acc with
  | nil =>
    cases h
    exact ⟨le_rfl, by simp⟩
  | cons seg segs ih =>
    unfold elfEnd at h
    grind

/-- The image ends before the shared buffer, which ends before the heap; the heap starts below the
    stack, and the regions start above it. -/
structure PosixVaLayout.Ordered (info : ElfInfo) (stackBase stackPages mmapBase : Nat)
    (L : PosixVaLayout) : Prop where
  elf : ∀ seg ∈ info.segments, seg.endVa ≤ L.elfEndAligned
  aligned : L.elfEndAligned % pageSize = 0
  shared : L.childSharedVa = L.elfEndAligned + pageSize
  brk : L.brkBase = L.childSharedVa + pageSize
  brk_lt : L.brkBase < stackBase
  stack_lt : stackBase + stackPages * pageSize + pageSize ≤ mmapBase

theorem computeVaLayout_ok {info : ElfInfo} {stackBase stackPages mmapBase : Nat}
    {L : PosixVaLayout} (h : computeVaLayout info stackBase stackPages mmapBase = .ok L) :
    L.Ordered info stackBase stackPages mmapBase := by
  unfold computeVaLayout at h
  split at h
  · cases h
  next e he =>
  obtain ⟨-, hsegs⟩ := elfEnd_ok he
  dsimp only at h
  split at h; · cases h
  split at h; · cases h
  split at h; · cases h
  next hbrk =>
  split at h; · cases h
  split at h; · cases h
  next hmmap =>
  cases h
  refine ⟨fun seg hseg => ?_, Nat.mul_mod_left _ _, rfl, rfl, Nat.not_le.mp hbrk,
    Nat.not_lt.mp hmmap⟩
  have hend := hsegs seg hseg
  unfold pageSize
  dsimp only
  omega

/-! ## What one call does -/

/-- A call that leaves the heap alone: the allocator has moved up by some pages, and the mapped
    regions are old ones or the region of those pages. -/
structure Moved (c c' : Child) (pages : Nat) : Prop where
  heap : c'.brkMappedEnd = c.brkMappedEnd
  limit : c'.limit = c.limit
  next : c'.next = c.next + pages * pageSize
  bound : c.next ≤ c.limit → c'.next ≤ c.limit
  regions : c'.regions.Sublist (c.regions ++ [⟨c.next, pages⟩])

section

variable {c c0 c' : Child} {pages baseVa : Nat}

theorem Moved.refl (c : Child) : Moved c c 0 where
  heap := rfl
  limit := rfl
  next := by simp
  bound := id
  regions := sublist_append_left _ _

theorem Moved.rollBack (h : Moved c0 c pages) : Moved c0 (rollBack baseVa c).2 pages := by
  unfold PosixVa.rollBack handleFileMmapRollback
  cases setFirst (holdsBase baseVa) none c.mmapTable <;>
    exact ⟨h.heap, h.limit, h.next, h.bound, h.regions⟩

theorem Moved.unmap (h : Moved c0 c pages) : Moved c0 (c.unmap baseVa) pages :=
  ⟨h.heap, h.limit, h.next, h.bound, filter_sublist.trans h.regions⟩

variable {lenBytes : Nat}

theorem handleFileMmap_moved {a : Answers} {r : Except Nat (Nat × Nat)}
    (h : handleFileMmap a lenBytes c = (r, c')) :
    ∃ pages, Moved c c' pages ∧ c'.regions = c.regions ∧
      ∀ base n, r = .ok (base, n) → base = c.next ∧ n = pages := by
  unfold handleFileMmap at h
  dsimp only at h
  have hstay (e : Nat) (heq : ((.error e : Except Nat (Nat × Nat)), c) = (r, c')) :
      ∃ pages, Moved c c' pages ∧ c'.regions = c.regions ∧
        ∀ base n, r = .ok (base, n) → base = c.next ∧ n = pages := by
    cases heq
    exact ⟨0, .refl c, rfl, fun _ _ h => by cases h⟩
  split at h
  · exact hstay _ h
  split at h
  · exact hstay _ h
  generalize (lenBytes + pageSize - 1) / pageSize = pages at h
  unfold vaAlloc at h
  dsimp only at h
  split at h
  · exact hstay _ h
  next base c1 halloc =>
  split at halloc
  · cases halloc
  next hfits =>
  cases halloc
  have hmoved : Moved c { c with next := c.next + pages * pageSize } pages :=
    ⟨rfl, rfl, rfl, fun _ => by dsimp only; omega, sublist_append_left _ _⟩
  split at h
  · cases h
    exact ⟨pages, hmoved, rfl, fun _ _ h => by cases h⟩
  split at h
  · cases h
    exact ⟨pages, hmoved, rfl, fun _ _ h => by cases h⟩
  · cases h
    refine ⟨pages, ⟨hmoved.heap, hmoved.limit, hmoved.next, hmoved.bound, hmoved.regions⟩, rfl, ?_⟩
    rintro base n ⟨⟩
    exact ⟨rfl, rfl⟩

theorem handleMmap_moved (a : Answers) (len prot flags : UInt64) (c : Child) :
    ∃ pages, Moved c (handleMmap a len prot flags c).2 pages := by
  unfold handleMmap
  split
  · exact ⟨0, .refl c⟩
  split
  · next hserver =>
    obtain ⟨pages, hmoved, -⟩ := handleFileMmap_moved hserver
    exact ⟨pages, hmoved⟩
  next baseVa pages c1 hserver =>
  obtain ⟨n, hmoved, hregions, hok⟩ := handleFileMmap_moved hserver
  obtain ⟨rfl, rfl⟩ := hok _ _ rfl
  refine ⟨pages, ?_⟩
  split
  · exact hmoved.rollBack
  dsimp only
  -- the new region is mapped
  have hmapped : Moved c { c1 with regions := c1.regions ++ [⟨c.next, pages⟩] } pages :=
    ⟨hmoved.heap, hmoved.limit, hmoved.next, hmoved.bound, by rw [hregions]⟩
  split
  · split
    · exact hmapped.unmap.rollBack
    · exact hmapped.rollBack
  · exact ⟨hmapped.heap, hmapped.limit, hmapped.next, hmapped.bound, hmapped.regions⟩

theorem handleFileMunmap_moved {r : Except Nat Unit}
    (h : handleFileMunmap baseVa lenBytes c = (r, c')) : Moved c c' 0 := by
  have hrefl := Moved.refl c
  unfold handleFileMunmap at h
  split at h
  · split at h
    · split at h
      · cases h
        exact ⟨hrefl.heap, hrefl.limit, hrefl.next, hrefl.bound, hrefl.regions⟩
      · cases h
        exact hrefl
    · cases h
      exact hrefl
  · cases h
    exact hrefl

theorem handleMunmap_moved (a : Answers) (baseVa len : UInt64) (c : Child) :
    Moved c (handleMunmap a baseVa len c).2 0 := by
  unfold handleMunmap
  split
  · exact .refl c
  split
  · exact .refl c
  split
  · next hserver => exact handleFileMunmap_moved hserver
  next c1 hserver =>
  have hmoved := handleFileMunmap_moved hserver
  split
  · exact ⟨hmoved.heap, hmoved.limit, hmoved.next, hmoved.bound, hmoved.regions⟩
  dsimp only
  have hunmapped : Moved c (c1.unmap baseVa.toNat) 0 := hmoved.unmap
  split
  · exact hunmapped
  · exact ⟨hunmapped.heap, hunmapped.limit, hunmapped.next, hunmapped.bound, hunmapped.regions⟩

end

/-- The loop moves the end up by whole pages, and not past a page boundary that the requested end
    keeps to. -/
theorem growHeap_spec {answers : List Bool} {mappedEnd : Nat} {newEnd : Int} {reached : Bool}
    (h : growHeap answers mappedEnd newEnd = (e, reached)) (hal : mappedEnd % pageSize = 0) :
    mappedEnd ≤ e ∧ e % pageSize = 0 ∧
      ∀ bound : Nat, bound % pageSize = 0 → mappedEnd ≤ bound → newEnd ≤ bound → e ≤ bound := by
  induction answers generalizing mappedEnd with
  | nil =>
    cases h
    exact ⟨le_rfl, hal, fun _ _ hle _ => hle⟩
  | cons ok answers ih =>
    unfold growHeap at h
    split at h
    · next hlt =>
      split at h
      · have hal' : (mappedEnd + pageSize) % pageSize = 0 := by
          rw [Nat.add_mod_right, hal]
        obtain ⟨hle, he, hbound⟩ := ih h hal'
        grind [pageSize]
      · cases h
        exact ⟨le_rfl, hal, fun _ _ hle _ => hle⟩
    · cases h
      exact ⟨le_rfl, hal, fun _ _ hle _ => hle⟩

theorem handleBrk_spec (addr : Int64) (answers : List Bool) {c : Child}
    (hal : c.brkMappedEnd % pageSize = 0) :
    ∃ current mappedEnd,
      (handleBrk addr answers c).2 = { c with brkCurrent := current, brkMappedEnd := mappedEnd } ∧
      c.brkMappedEnd ≤ mappedEnd ∧ mappedEnd % pageSize = 0 ∧
      (addr.toInt ≤ userStackBase → c.brkMappedEnd ≤ userStackBase →
        mappedEnd ≤ userStackBase) := by
  unfold handleBrk
  split
  · exact ⟨c.brkCurrent, c.brkMappedEnd, rfl, le_rfl, hal, fun _ hle => hle⟩
  next haddr =>
  cases hgrow : growHeap answers c.brkMappedEnd (roundUpLong addr.toInt) with
  | mk mappedEnd reached =>
    obtain ⟨hle, hal', hbound⟩ := growHeap_spec hgrow hal
    have hstack : addr.toInt ≤ userStackBase → c.brkMappedEnd ≤ userStackBase →
        mappedEnd ≤ userStackBase := fun hto hmapped =>
      hbound userStackBase (by decide) hmapped (by grind [pageSize, userStackBase, roundUpLong])
    cases reached with
    | true => exact ⟨_, _, rfl, hle, hal', hstack⟩
    | false => exact ⟨c.brkCurrent, _, rfl, hle, hal', hstack⟩

/-! ## Runs -/

/-- What holds in every state of a run: the mapped regions lie below the allocator's next address
    in the order in which they were handed out. -/
structure Inv (L : PosixVaLayout) (c : Child) : Prop where
  heap_aligned : c.brkMappedEnd % pageSize = 0
  brk_le : L.brkBase ≤ c.brkMappedEnd
  limit : c.limit = userVaEnd
  base_le : posixMmapBase ≤ c.next
  next_le : c.next ≤ c.limit
  region : ∀ r ∈ c.regions, posixMmapBase ≤ r.baseVa ∧ r.endVa ≤ c.next
  ordered : c.regions.Pairwise fun r s => r.endVa ≤ s.baseVa

section

variable {info : ElfInfo} {L : PosixVaLayout} {c c' : Child} {pages : Nat}

theorem Inv.init (hL : L.Ordered info userStackBase posixStackPages posixMmapBase) :
    Inv L (.init L) where
  heap_aligned := by
    show L.brkBase % pageSize = 0
    rw [hL.brk, hL.shared, Nat.add_mod_right, Nat.add_mod_right, hL.aligned]
  brk_le := le_rfl
  limit := rfl
  base_le := le_rfl
  next_le := by
    show posixMmapBase ≤ userVaEnd
    decide
  region := by simp [Child.init]
  ordered := List.Pairwise.nil

theorem Inv.moved (h : Inv L c) (hm : Moved c c' pages) : Inv L c' := by
  have hnew : (⟨c.next, pages⟩ : Region).endVa = c'.next := hm.next.symm
  have hnext : c.next ≤ c'.next := by
    have hn := hm.next
    omega
  refine ⟨hm.heap ▸ h.heap_aligned, hm.heap ▸ h.brk_le, hm.limit.trans h.limit,
    h.base_le.trans hnext, hm.limit ▸ hm.bound h.next_le, fun r hr => ?_, ?_⟩
  · rcases mem_append.mp (hm.regions.subset hr) with hold | hlast
    · obtain ⟨hlo, hhi⟩ := h.region r hold
      exact ⟨hlo, hhi.trans hnext⟩
    · obtain rfl := mem_singleton.mp hlast
      exact ⟨h.base_le, hnew.le⟩
  · refine List.Pairwise.sublist hm.regions (pairwise_append.mpr ⟨h.ordered, ?_, ?_⟩)
    · exact pairwise_singleton _ _
    · intro r hr s hs
      obtain rfl := mem_singleton.mp hs
      exact (h.region r hr).2

theorem Inv.step (h : Inv L c) (call : Call) : Inv L (c.step call) := by
  unfold Child.step
  split
  · exact h
  cases call with
  | brk addr answers =>
    obtain ⟨current, mappedEnd, heq, hle, hal, -⟩ := handleBrk_spec addr answers h.heap_aligned
    show Inv L (handleBrk addr answers c).2
    rw [heq]
    exact { h with heap_aligned := hal, brk_le := h.brk_le.trans hle }
  | mmap len prot flags a =>
    obtain ⟨pages, hm⟩ := handleMmap_moved a len prot flags c
    exact h.moved hm
  | munmap baseVa len a => exact h.moved (handleMunmap_moved a baseVa len c)

theorem Inv.run (h : Inv L c) (calls : List Call) : Inv L (c.run calls) := by
  induction calls generalizing c with
  | nil => exact h
  | cons call calls ih => exact ih (h.step call)

/-- A call that asks for no heap past the stack's start maps none there. -/
theorem Inv.step_heap_le (h : Inv L c) (call : Call)
    (hbrk : ∀ addr answers, call = .brk addr answers → addr.toInt ≤ userStackBase)
    (hle : c.brkMappedEnd ≤ userStackBase) : (c.step call).brkMappedEnd ≤ userStackBase := by
  unfold Child.step
  split
  · exact hle
  cases call with
  | brk addr answers =>
    obtain ⟨current, mappedEnd, heq, -, -, hstack⟩ :=
      handleBrk_spec addr answers h.heap_aligned
    grind
  | mmap len prot flags a =>
    obtain ⟨pages, hm⟩ := handleMmap_moved a len prot flags c
    exact hm.heap.trans_le hle
  | munmap baseVa len a => exact (handleMunmap_moved a baseVa len c).heap.trans_le hle

theorem Inv.run_heap_le (h : Inv L c) (calls : List Call)
    (hbrk : ∀ (addr : Int64) answers, Call.brk addr answers ∈ calls → addr.toInt ≤ userStackBase)
    (hle : c.brkMappedEnd ≤ userStackBase) : (c.run calls).brkMappedEnd ≤ userStackBase := by
  induction calls generalizing c with
  | nil => exact hle
  | cons call calls ih =>
    refine ih (h.step call) (fun addr answers hmem => ?_) (h.step_heap_le call ?_ hle)
    all_goals grind

/-! ## The zones in a state of a run -/

variable {page : Nat}

theorem elfPages_lt (hL : L.Ordered info userStackBase posixStackPages posixMmapBase)
    (h : elfPages info page) : page < L.elfEndAligned := by
  obtain ⟨seg, hseg, hon⟩ := h
  have hlt := (LoadSegment.onPage_iff.mp hon).2
  have hend := hL.elf seg hseg
  omega

/-- Everything in the list of areas lies from `lo` on. -/
def From (lo : Nat) (As : List (Nat → Prop)) : Prop := ∀ A ∈ As, ∀ page, A page → lo ≤ page

variable {lo : Nat} {A : Nat → Prop} {As : List (Nat → Prop)}

theorem From.cons {hi : Nat} (h : From hi As)
    (hlo : lo ≤ hi) (hA : ∀ page, A page → lo ≤ page) : From lo (A :: As) :=
  forall_mem_cons.mpr ⟨hA, fun B hB page hp => hlo.trans (h B hB page hp)⟩

theorem From.apart (h : From lo As)
    (hA : ∀ page, A page → page < lo) : ∀ B ∈ As, ∀ page, ¬ (A page ∧ B page) := by
  rintro B hB page ⟨hpA, hpB⟩
  have hlt := hA page hpA
  have hle := h B hB page hpB
  omega

section

variable (hL : L.Ordered info userStackBase posixStackPages posixMmapBase) (h : Inv L c)
include hL h

theorem Inv.areas_apart (hle : c.brkMappedEnd ≤ userStackBase) :
    (areas info L c).Pairwise fun A B => ∀ page, ¬ (A page ∧ B page) := by
  have hshared := hL.shared
  have hbrk := hL.brk
  have hbrkLt := hL.brk_lt
  have hstack := hL.stack_lt
  -- from the top down: what follows each area lies above it
  have hregions : From posixMmapBase (c.regions.map Region.Has) := by
    intro A hA page hp
    obtain ⟨r, hr, rfl⟩ := mem_map.mp hA
    exact (h.region r hr).1.trans hp.2.1
  have hfromStack : From userStackBase (stackPages :: c.regions.map Region.Has) :=
    hregions.cons (by omega) fun page hp => hp.2.1
  have hfromHeap := hfromStack.cons (A := heapPages L c) hbrkLt.le fun page hp => hp.2.1
  have hfromShared : From L.childSharedVa
      (sharedPages L :: heapPages L c :: stackPages :: c.regions.map Region.Has) :=
    hfromHeap.cons (by omega) fun page hp => hp.ge
  unfold areas
  refine pairwise_cons.mpr ⟨hfromShared.apart fun page hp => ?_, pairwise_cons.mpr
    ⟨hfromHeap.apart fun page hp => ?_, pairwise_cons.mpr
    ⟨hfromStack.apart fun page hp => ?_, pairwise_cons.mpr
    ⟨hregions.apart fun page hp => ?_, ?_⟩⟩⟩⟩
  · have hlt := elfPages_lt hL hp
    omega
  · have heq : page = L.childSharedVa := hp
    unfold pageSize at hbrk
    omega
  · exact hp.2.2.trans_le hle
  · have hlt := hp.2.2
    omega
  · refine pairwise_map.mpr (h.ordered.imp ?_)
    rintro r s hrs page ⟨hr, hs⟩
    have hlt := hr.2.2
    have hge := hs.2.1
    omega

theorem Inv.zoned (hle : c.brkMappedEnd ≤ userStackBase) : Zoned info L c := by
  refine ⟨h.areas_apart hL hle, fun page hp => ⟨hp.2.1, ?_⟩, fun r hr => ?_⟩
  · obtain ⟨hal, -, hlt⟩ := hp
    have hend := h.heap_aligned
    unfold pageSize at hal hend ⊢
    omega
  · obtain ⟨hlo, hhi⟩ := h.region r hr
    exact ⟨hlo, hhi.trans (h.limit ▸ h.next_le)⟩

/-- A heap that ends above the stack's start has its last page there. -/
theorem Inv.heap_le_of_zoned (hz : Zoned info L c) : c.brkMappedEnd ≤ userStackBase := by
  by_contra hgt
  have hend := h.heap_aligned
  have hbrk := hL.brk_lt
  have hstack : userStackBase % pageSize = 0 := by decide
  unfold pageSize at hend hstack
  have hlast : heapPages L c (c.brkMappedEnd - pageSize) := by
    unfold heapPages pageSize
    omega
  have hzone := (hz.heap _ hlast).2
  unfold pageSize at hzone
  omega

end

end

/-- An image with its code and data right below the heap's latest start. -/
def highImage : ElfInfo where
  entryPoint := 0x7fc000
  segments := [⟨0x7fc000, 0, 0x1000, 0x1000, true, false⟩]

def highLayout : PosixVaLayout := ⟨0x7fd000, 0x7fe000, 0x7ff000, 0x1000000⟩

/-- After any calls of a child, image, shared buffer, heap, stack and regions are apart and in their
    zones if and only if the heap has not been mapped past the start of the stack; so they are if
    no `brk` asked for an address above it. -/
theorem zoned_iff_heap_below_stack {info : ElfInfo} {L : PosixVaLayout}
    (h : computeVaLayout info userStackBase posixStackPages posixMmapBase = .ok L)
    (calls : List Call) :
    (Zoned info L ((Child.init L).run calls) ↔
      ((Child.init L).run calls).brkMappedEnd ≤ userStackBase) ∧
    ((∀ (addr : Int64) answers, Call.brk addr answers ∈ calls → addr.toInt ≤ userStackBase) →
      Zoned info L ((Child.init L).run calls)) := by
  have hL := computeVaLayout_ok h
  have hinit := Inv.init hL
  have hrun := hinit.run calls
  refine ⟨⟨hrun.heap_le_of_zoned hL, hrun.zoned hL⟩, fun hbrk => hrun.zoned hL ?_⟩
  exact hinit.run_heap_le calls hbrk hL.brk_lt.le

/-- A heap grown to the stack's start, with a region mapped and dropped. -/
theorem zoned_iff_heap_below_stack_high :
    Zoned highImage highLayout ((Child.init highLayout).run
      [.brk 0x800000 [true], .mmap 0x2000 3 0x22 ⟨true, true, true, true⟩,
        .mmap 0x1000 3 0x22 ⟨true, true, true, true⟩,
        .munmap 0x1000000 0x2000 ⟨true, true, true, true⟩]) :=
  (zoned_iff_heap_below_stack (by decide +kernel) _).1.mpr (by decide +kernel)

/-- A `brk` into the stack maps a heap page over the stack's first page. -/
theorem heap_page_over_stack :
    computeVaLayout highImage userStackBase posixStackPages posixMmapBase = .ok highLayout ∧
      (handleBrk 0x801000 [true, true] (.init highLayout)).1 = 0x801000 ∧
      heapPages highLayout ((Child.init highLayout).run [.brk 0x801000 [true, true]])
        userStackBase ∧
      stackPages userStackBase ∧
      ¬ Zoned highImage highLayout
        ((Child.init highLayout).run [.brk 0x801000 [true, true]]) := by
  have hheap : heapPages highLayout ((Child.init highLayout).run [.brk 0x801000 [true, true]])
      userStackBase := by
    unfold heapPages
    decide +kernel
  refine ⟨by decide +kernel, by decide +kernel, hheap, by unfold stackPages; decide, fun hz => ?_⟩
  have hzone := (hz.heap _ hheap).2
  revert hzone
  decide

end Lockjaw.User.PosixVa
