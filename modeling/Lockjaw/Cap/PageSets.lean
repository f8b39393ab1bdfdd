/-
  Lockjaw.Cap.PageSets

  The PageSet table and its counters: `src/cap/pageset_table.rs`,
  `src/cap/pageset_header_pool.rs`, the page allocator calls they make, and the
  typed handle-table operations of `src/cap/handle_table.rs`.

  An operation whose failure the caller inspects returns an `Option`; an
  operation whose failure the caller propagates fails.
-/

import Lockjaw.Cap.System

namespace Lockjaw.Cap

open Lib Lib.Fallible

/-! ## Table and header lookup -/

namespace System

/-- Slot of the table that registers header `h`. -/
def findByHeaderKva (s : System) (h : HeaderKva) : Option (Fin maxPagesets) :=
  (List.finRange maxPagesets).find? fun id => (s.table id).any fun e => e.headerKva == h

def entryOf (s : System) (h : HeaderKva) : Option PageSetEntry :=
  (s.findByHeaderKva h).bind s.table

end System

/-- A header with the data-page count the table vouches for. -/
structure BackedHeader where
  header : PageSetHeader
  count : Nat

namespace BackedHeader

def pagesSlice (b : BackedHeader) : List PhysAddr := (List.range b.count).map b.header.pages

def getPage (b : BackedHeader) (index : Nat) : Option PhysAddr :=
  if index ≥ b.count then none else some (b.header.pages index)

end BackedHeader

/-- Header with its trusted count; panics if `h` is not registered. -/
def readHeaderBacked {ε : Type} (h : HeaderKva) : Fallible System ε Panic BackedHeader := do
  let entry ← orStop (← read (·.entryOf h)) .notRegistered
  let header ← read (·.headers h)
  pure { header, count := entry.count }

/-! ## Counters -/

/-- The largest value of a `u32`. -/
def u32Max : Nat := 2 ^ 32 - 1

def incRefcount (h : HeaderKva) : KernelM Unit := do
  let hdr ← read (·.headers h)
  if hdr.refcount ≥ u32Max then stop .refcountOverflow
  else modify (·.setHeader h { hdr with refcount := hdr.refcount + 1 })

/-- Returns whether both counters are zero now. -/
def decRefcount (h : HeaderKva) : KernelM Bool := do
  let hdr ← read (·.headers h)
  if hdr.refcount = 0 then stop .refcountUnderflow
  else do
    modify (·.setHeader h { hdr with refcount := hdr.refcount - 1 })
    pure (decide (hdr.refcount - 1 = 0) && decide (hdr.mapCount = 0))

def incMapCount (h : HeaderKva) : KernelM Unit := do
  let hdr ← read (·.headers h)
  if hdr.mapCount ≥ u32Max then stop .mapCountOverflow
  else modify (·.setHeader h { hdr with mapCount := hdr.mapCount + 1 })

/-- Returns whether both counters are zero now. -/
def decMapCount (h : HeaderKva) : KernelM Bool := do
  let hdr ← read (·.headers h)
  if hdr.mapCount = 0 then stop .mapCountUnderflow
  else do
    modify (·.setHeader h { hdr with mapCount := hdr.mapCount - 1 })
    pure (decide (hdr.mapCount - 1 = 0) && decide (hdr.refcount = 0))

/-! ## Header pool and frame allocators -/

/-- Pages of header storage for `count` data pages. -/
def headerPagesFor (count : Nat) : Nat := (24 + count * 8 + pageSize - 1) / pageSize

def maxHeaderPagesPerPageset : Nat := headerPagesFor maxPracticalPagesPerSet

/-- Lowest free slot of the header pool. -/
def System.freeHeader (s : System) : Option HeaderKva :=
  (List.finRange maxPagesets).find? fun h => !s.used h

/-- Claim a zeroed header slot. -/
def claim (headerPages : Nat) : KernelM (Option HeaderKva) := do
  if headerPages = 0 ∨ headerPages > maxHeaderPagesPerPageset then pure none
  else
    match ← read (·.freeHeader) with
    | none => pure none
    | some h => do
      modify (·.setUsed h true)
      modify (·.setHeader h .zeroed)
      pure (some h)

def release (h : HeaderKva) : KernelM Unit := do
  if (← read (·.used h)) then modify (·.setUsed h false) else stop .doubleRelease

/-- `page_alloc::alloc_page`, `n` times: the frames `pick`, if they are free.
    Fewer than `n` leave the allocator as it was. -/
def takeFrames (n : Nat) (pick : List Frame) : KernelM (Option (List Frame)) := do
  let s ← read id
  if pick.length = n ∧ pick.Nodup ∧ ∀ f ∈ pick, s.free f = true then do
    modify (·.setFree pick false)
    pure (some pick)
  else pure none

/-- `page_alloc::dealloc_page`. -/
def deallocPage (f : Frame) : KernelM Unit := do
  if (← read (·.free f)) then stop .doubleFree else modify (·.setFree [f] true)

def dmaPoolPages : Nat := 512

/-- `dma_pool::alloc_pages`. -/
def takeDmaFrames (pick : List Frame) : KernelM (Option (List Frame)) := do
  let s ← read id
  if pick.Nodup ∧ ∀ f ∈ pick, s.dmaFree f = true then do
    modify (·.setDmaFree pick false)
    pure (some pick)
  else pure none

/-- One page of `dma_pool::free_pages`. -/
def dmaFreePage (f : Frame) : KernelM Unit := do
  if (← read (·.dmaFree f)) then stop .doubleFree else modify (·.setDmaFree [f] true)

def frameRun (first n : Nat) : List Frame := (List.range n).map (first + ·)

/-! ## Registration -/

/-- Store an entry in the first free slot of the PageSet table. -/
def insertIntoTable (count : Nat) (h : HeaderKva) (origin : PageSetOrigin) :
    KernelM (Option (Fin maxPagesets)) := do
  if hc : 0 < count ∧ count ≤ maxPracticalPagesPerSet then
    let s ← read id
    match (List.finRange maxPagesets).find? fun id => (s.table id).isNone with
    | none => pure none
    | some id => do
      modify (·.setEntry id (some ⟨count, h, origin, hc.1, hc.2⟩))
      pure (some id)
  else pure none

/-- Address array holding the byte addresses of frames. -/
def pageAddrs (fs : List Frame) : Nat → PhysAddr := fun i => fs.getD i 0 * pageSize

/-- Allocate `count` zeroed pages and register them. -/
def allocPages (count : Nat) (pick : List Frame) : KernelM (Fin maxPagesets) := do
  if count = 0 ∨ count > maxPracticalPagesPerSet then fail .invalidParameter
  else
    match ← claim (headerPagesFor count) with
    | none => fail .outOfPageSets
    | some h => do
      match ← takeFrames count pick with
      | none => do release h; fail .outOfMemory
      | some frames => do
        modify (System.overwriteAll frames)
        modify (·.setHeader h ⟨0, 0, some .buddy, pageAddrs frames⟩)
        match ← insertIntoTable count h .buddy with
        | none => do release h; fail .outOfPageSets  -- the data pages stay allocated
        | some id => pure id

/-- Double `size` until it holds `count` pages; `count` doublings are enough. -/
def orderFrom (count : Nat) : (fuel order size : Nat) → Nat
  | 0, order, _ => order
  | fuel + 1, order, size =>
    if size < count then orderFrom count fuel (order + 1) (size * 2) else order

/-- Smallest order whose block holds `count` pages. -/
def orderForCount (count : Nat) : Nat := if count ≤ 1 then 0 else orderFrom count count 0 1

/-- Allocate `2 ^ order` contiguous zeroed pages and register them.  `first`
    is the block the allocator found, if any. -/
def allocPagesContiguous (count : Nat) (first : Option Frame) : KernelM (Fin maxPagesets) := do
  if count = 0 ∨ count > maxPracticalPagesPerSet then fail .invalidParameter
  else
    let actualCount := 2 ^ orderForCount count
    if actualCount > maxPracticalPagesPerSet then fail .invalidParameter
    else
      match ← claim (headerPagesFor actualCount) with
      | none => fail .outOfPageSets
      | some h => do
        let pick := match first with
          | none => []
          | some f => frameRun f actualCount
        match ← takeFrames actualCount pick with
        | none => do release h; fail .outOfMemory
        | some frames => do
          modify (System.overwriteAll frames)
          modify (·.setHeader h ⟨0, 0, some .buddy, pageAddrs frames⟩)
          match ← insertIntoTable actualCount h .buddy with
          | none => do
            forEach deallocPage frames
            release h
            fail .outOfPageSets
          | some id => pure id

/-- Allocate `count` contiguous pages of the DMA pool (not zeroed) and register them. -/
def allocDmaPages (count : Nat) (first : Option Frame) : KernelM (Fin maxPagesets) := do
  if count = 0 ∨ count > maxPracticalPagesPerSet then fail .invalidParameter
  else
    match ← claim (headerPagesFor count) with
    | none => fail .outOfPageSets
    | some h => do
      if count > dmaPoolPages then do release h; fail .invalidParameter
      else
        match first with
        | none => do release h; fail .outOfMemory
        | some f => do
          match ← takeDmaFrames (frameRun f count) with
          | none => do release h; fail .outOfMemory
          | some frames => do
            modify (·.setHeader h ⟨0, 0, some .dmaPool, pageAddrs frames⟩)
            match ← insertIntoTable count h .dmaPool with
            | none => do
              forEach dmaFreePage frames
              release h
              fail .outOfPageSets
            | some id => pure id

/-- Wrap one physical address as a PageSet. -/
def registerDevicePage (physAddr : PhysAddr) : KernelM (Fin maxPagesets) := do
  match ← claim (headerPagesFor 1) with
  | none => fail .outOfPageSets
  | some h => do
    modify (·.setHeader h ⟨0, 0, some .externallyOwned, fun _ => physAddr⟩)
    match ← insertIntoTable 1 h .externallyOwned with
    | none => do release h; fail .outOfPageSets
    | some id => pure id

/-! ## Release -/

/-- Remove the entry of `h` from the table. -/
def consumeByHeaderKva (h : HeaderKva) : KernelM Unit := do
  match ← read (·.findByHeaderKva h) with
  | some id => modify (·.setEntry id none)
  | none => pure ()

def freeHeaderPage (h : HeaderKva) : KernelM Unit := do
  consumeByHeaderKva h
  release h

/-- Free the data pages to the allocator they came from, then the header. -/
def freeByHeaderKva (h : HeaderKva) : KernelM Unit := do
  let backed ← readHeaderBacked h
  match backed.header.origin with
  | none => stop .originUninit
  | some .buddy => forEach deallocPage (backed.pagesSlice.map (· / pageSize))
  | some .dmaPool =>
    match backed.getPage 0 with
    | none => pure ()
    | some first => forEach dmaFreePage (frameRun (first / pageSize) backed.count)
  | some .externallyOwned => pure ()
  consumeByHeaderKva h
  release h

/-- Drop one handle reference; frees the PageSet when both counters are zero. -/
def decRefcountAndMaybeFree (h : HeaderKva) : KernelM Unit := do
  if (← decRefcount h) then freeByHeaderKva h else pure ()

/-- Drop one mapping and one handle reference. -/
def decBothAndMaybeFree (h : HeaderKva) : KernelM Unit := do
  let _ ← decMapCount h
  decRefcountAndMaybeFree h

/-! ## Typed handle-table operations -/

/-- The process object behind a process pointer. -/
def getProcess {ε : Type} (p : ProcKva) : Fallible System ε Panic Process := do
  orStop (← read (·.procs p)) .badProcess

def lookupAny (P : Process) (handle : Nat) (required : Rights) :
    Except SyscallError HandleEntry :=
  match slotLookup P.handles handle required with
  | .ok e => .ok e
  | .error _ => .error .invalidHandle

def lookup (P : Process) (handle : Nat) (required : Rights) (expected : ObjectType) :
    Except SyscallError HandleEntry :=
  match slotLookup P.handles handle required with
  | .ok e => if e.kind.objType ≠ expected then .error .invalidParameter else .ok e
  | .error _ => .error .invalidHandle

def lookupPageSet (P : Process) (handle : Nat) (required : Rights) :
    Except SyscallError HeaderKva :=
  match lookup P handle required .pageSet with
  | .error e => .error e
  | .ok e =>
    match e.kind with
    | .pageSet kva _ => .ok kva
    | _ => .error .invalidHandle

/-- Insert a handle; `none` is HANDLE_TABLE_FULL. -/
def insertHandle (p : ProcKva) (rights : Rights) (kind : HandleKind) :
    KernelM (Option Nat) := do
  let P ← getProcess p
  match slotInsert P.handles rights kind with
  | .error _ => pure none
  | .ok (slots, idx) => do
    modify (·.setProc p { P with handles := slots })
    pure (some idx)

end Lockjaw.Cap
