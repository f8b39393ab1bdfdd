/-
  Lockjaw.Cap.CreateProcess

  `sys_create_process`: `src/process.rs` with the address-space builder of
  `src/arch/aarch64/vmem.rs` and the plan of `lockjaw-types/src/process.rs`.

  The mapping list is read from user memory one entry at a time, so it is a
  function that may fail at any index; each entry is read once, and its value is
  the one of that moment.  The list lies outside the scratch pages or at their
  start, where the kernel zeroes it page by page as it goes.  The child is built
  in the pages of the process-resources PageSet: page 0 the process object, 1 the
  handle table, 2 the kernel stack, 3 the TCB, and from 4 on the page-table
  workspace.

  The scratch PageSet holds the buffer of pending mappings, which `map_batch`
  reads back.  The model keeps it as a list, so it assumes that nobody writes to
  the scratch pages during the call: the call does not check that they are not
  mapped, and a thread on another CPU that has them mapped could
  (`CreateArgs.ScratchPrivate` excludes that where a result depends on it).  When
  the scratch PageSet is the process-resources PageSet itself, the first buffer
  page is the page of the process object and each write goes into both.  Up to
  the entry that reaches the list of consumed headers the model follows these
  writes word by word; what longer lists, or lists in that page, leave behind is
  the argument `overlay`.
-/

import Lockjaw.Cap.Syscall

namespace Lockjaw.Cap

open Lib Lib.Fallible

/-! ## Arguments and errors -/

/-- One entry of the mapping list. -/
structure ProcessMapping where
  virtAddr : Nat
  pagesetId : Nat
  pageIndex : Nat
  flags : BitVec 64

def processMapFlagExecutable : BitVec 64 := 1#64

inductive CreateProcessPlanError where
  | pageSetKindParentHandle
  | bufferCapacityExceeded
  | tooManyHeaders
  | handleTableTooSmall
  | schedulerFull
  | stackAlreadyRecorded
  | parentCopyAlreadyRecorded
  | emptyParentHandle
  deriving DecidableEq, Repr

inductive CreateProcessError where
  | outOfMemory
  | badHandle
  | invalidUserMemory
  | tooManyOwnedPages
  | addressSpaceMappingFailed
  | outOfPageTables
  | planError (e : CreateProcessPlanError)
  | consumeValidateFailed (idx : Nat)
  deriving DecidableEq, Repr

def CreateProcessError.toSyscallError : CreateProcessError → SyscallError
  | outOfMemory | addressSpaceMappingFailed => .outOfMemory
  | outOfPageTables => .outOfPageTables
  | planError .schedulerFull => .queueFull
  | planError .handleTableTooSmall => .handleTableFull
  | planError .pageSetKindParentHandle | badHandle | planError .emptyParentHandle
  | consumeValidateFailed _ => .invalidHandle
  | planError .bufferCapacityExceeded | planError .tooManyHeaders | tooManyOwnedPages
  | invalidUserMemory => .invalidParameter
  | planError .stackAlreadyRecorded | planError .parentCopyAlreadyRecorded => .unknown

/-- What provisioning hands to the apply phase. -/
structure Provisioned where
  space : AddressSpace
  workspaceClaimed : Nat
  ownedPages : List PhysAddr
  headers : List HeaderKva
  mappingCount : Nat

/-- How provisioning ends when the buffer runs over the consumed headers of the
    process object it shares its page with. -/
inductive Overlay where
  | fails (e : CreateProcessError)
  | stops (p : Panic)
  | builds (built : Provisioned)

structure CreateArgs where
  /-- The mapping list as the caller wrote it. -/
  written : Nat → Option ProcessMapping
  /-- It lies at the start of the scratch PageSet. -/
  listInScratch : Bool := false
  mappingCount : Nat
  stackPageset : Nat
  scratchPageset : Nat
  /-- `none` is the all-ones value that asks for no copy. -/
  parentHandleToCopy : Option Nat
  processResources : Nat
  overlay : Overlay

abbrev CreateM := Fallible System CreateProcessError Panic

def userStackBase : Nat := 0x800000
def mappingsPerPage : Nat := 170

/-- Entries of the mapping list to a page. -/
def processMappingsPerPage : Nat := 128

/-- Entry `i` as the kernel reads it.  Scratch page `k` is zeroed when `170 * k` entries have been
    read, and the buffer entries written since lie below the next list entry. -/
def CreateArgs.mappings (args : CreateArgs) (i : Nat) : Option ProcessMapping :=
  if args.listInScratch ∧ mappingsPerPage * (i / processMappingsPerPage) ≤ i then
    (args.written i).map fun _ => ⟨0, 0, 0, 0#64⟩
  else args.written i

def maxConsumedHeaders : Nat := 32
def maxL3Tables : Nat := 8
def processKernelObjPages : Nat := 4
def processMinPages : Nat := 15
def processMaxPages : Nat := 36
def handleSlotsPerPage : Nat := 127

/-- Capacity check; the sum is a `usize`. -/
def validateProcessMappings (mappingCount stackCount capacity : Nat) : Bool :=
  decide (mappingCount > 0) && decide (stackCount > 0) &&
    decide ((mappingCount + stackCount) % 2 ^ 64 ≤ capacity)

/-! ## The address-space builder -/

/-- A PageSet the call works on: its header and page count. -/
structure PageSetRef where
  header : HeaderKva
  count : Nat

/-- Address of page `idx`, read through the registered header. -/
def PageSetRef.page {ε : Type} (ps : PageSetRef) (idx : Nat) :
    Fallible System ε Panic (Option PhysAddr) := do
  let backed ← readHeaderBacked ps.header
  pure (backed.getPage idx)

/-- The tables under construction, and how many workspace pages and L3 tables are in use. -/
structure AddressSpaceBuilder where
  space : AddressSpace
  claimed : Nat
  l3Tables : Nat

/-- The next workspace page, zeroed. -/
def claimZeroed (donation : PageSetRef) (claimed : Nat) :
    Fallible System VmemError Panic Frame := do
  if claimed ≥ donation.count - processKernelObjPages then fail .outOfPageTables
  else do
    let page ← orFail (← donation.page (processKernelObjPages + claimed)) .outOfPageTables
    modify (System.overwrite (page / pageSize))
    pure (page / pageSize)

def AddressSpaceBuilder.new (donation : PageSetRef) :
    Fallible System VmemError Panic AddressSpaceBuilder := do
  let l0 ← claimZeroed donation 0
  let l1 ← claimZeroed donation 1
  let l2 ← claimZeroed donation 2
  pure ⟨⟨l0, l1, l2, fun _ => none⟩, 3, 0⟩

structure Mapping where
  virtAddr : Nat
  physAddr : PhysAddr
  userAccessible : Bool
  executable : Bool

/-- Write one entry, with a new L3 table if its region has none yet. -/
def AddressSpaceBuilder.mapOne (donation : PageSetRef) (b : AddressSpaceBuilder) (m : Mapping) :
    Fallible System VmemError Panic AddressSpaceBuilder := do
  let (_, _, l2Idx, l3Idx) := pageTableIndices m.virtAddr
  let entry := buildProcessPage m.physAddr m.userAccessible m.executable
  match b.space.tables l2Idx with
  | some _ => pure { b with space := b.space.setEntry l2Idx l3Idx (some entry) }
  | none =>
    if b.l3Tables ≥ maxL3Tables then fail .tooManyL3Regions
    else do
      let f ← claimZeroed donation b.claimed
      let space := b.space.setTable l2Idx ⟨f, fun _ => none⟩
      pure ⟨space.setEntry l2Idx l3Idx (some entry), b.claimed + 1, b.l3Tables + 1⟩

def AddressSpaceBuilder.mapBatch (donation : PageSetRef) :
    List Mapping → AddressSpaceBuilder → Fallible System VmemError Panic AddressSpaceBuilder
  | [], b => pure b
  | m :: ms, b => do
    let b ← b.mapOne donation m
    AddressSpaceBuilder.mapBatch donation ms b

def mapVmemErr : VmemError → CreateProcessError
  | .outOfPageTables | .tooManyL3Regions => .outOfPageTables
  | _ => .addressSpaceMappingFailed

/-! ## Phases 2 and 3: the mapping buffer and the process page -/

/-- State of the provisioning loops: the builder, the buffer on the current
    scratch page, and what the process page records. -/
structure Provision where
  builder : AddressSpaceBuilder
  buffer : List Mapping
  pageIdx : Nat
  ownedPages : List PhysAddr
  headers : List HeaderKva
  recorded : Nat

/-- Write a mapping at the cursor; a full page is flushed when another scratch page follows. -/
def putMapping (donation scratch : PageSetRef) (m : Mapping) (st : Provision) :
    CreateM Provision := do
  if st.buffer.length ≥ mappingsPerPage then stop .scratchOverrun
  else
    let buffer := st.buffer ++ [m]
    if buffer.length ≥ mappingsPerPage ∧ st.pageIdx + 1 < scratch.count then do
      let builder ← mapErr mapVmemErr (st.builder.mapBatch donation buffer)
      let next ← orFail (← scratch.page (st.pageIdx + 1)) .invalidUserMemory
      modify (System.overwrite (next / pageSize))
      pure { st with builder, buffer := [], pageIdx := st.pageIdx + 1 }
    else pure { st with buffer }

/-- Record an owned page, once. -/
def pushOwnedPage (phys : PhysAddr) (st : Provision) : CreateM Provision :=
  if phys ∈ st.ownedPages then pure st
  else if st.ownedPages.length ≥ maxOwnedPages then fail .tooManyOwnedPages
  else pure { st with ownedPages := st.ownedPages ++ [phys] }

/-- Record a header to consume, once. -/
def recordConsumedHeader (h : HeaderKva) (st : Provision) : CreateM Provision :=
  if h ∈ st.headers then pure st
  else if st.headers.length ≥ maxConsumedHeaders then fail (.planError .tooManyHeaders)
  else pure { st with headers := st.headers ++ [h] }

/-- Header of a readable PageSet handle. -/
def lookupHeader (p : ProcKva) (handle : Nat) : CreateM HeaderKva := do
  let P ← getProcess p
  mapErr (fun _ => .badHandle) (ofExcept (lookupPageSet P handle Rights.read))

/-- The PageSet of a header, if it has the origin every part of a process must have. -/
def buddyRef (h : HeaderKva) : CreateM PageSetRef := do
  let backed ← readHeaderBacked h
  match backed.header.origin with
  | some .buddy => pure ⟨h, backed.count⟩
  | _ => fail .badHandle

/-- One entry of the mapping list. -/
def provisionMapping (p : ProcKva) (args : CreateArgs) (donation scratch : PageSetRef) (i : Nat)
    (st : Provision) : CreateM Provision := do
  let m ← orFail (args.mappings i) .invalidUserMemory
  let h ← lookupHeader p m.pagesetId
  if h = donation.header then fail .badHandle
  else do
    let ps ← buddyRef h
    let phys ← orFail (← ps.page m.pageIndex) .invalidUserMemory
    let st ← putMapping donation scratch
      ⟨m.virtAddr, phys, true, decide (m.flags &&& processMapFlagExecutable ≠ 0#64)⟩ st
    let st ← pushOwnedPage phys st
    let st ← recordConsumedHeader h st
    pure { st with recorded := st.recorded + 1 }

/-- The mapping loop: `n` entries from index `i` on. -/
def provisionMappings (p : ProcKva) (args : CreateArgs) (donation scratch : PageSetRef) :
    (n i : Nat) → Provision → CreateM Provision
  | 0, _, st => pure st
  | n + 1, i, st => do
    let st ← provisionMapping p args donation scratch i st
    provisionMappings p args donation scratch n (i + 1) st

def provisionStackPage (donation scratch stack : PageSetRef) (i : Nat) (st : Provision) :
    CreateM Provision := do
  let phys ← orFail (← stack.page i) .invalidUserMemory
  let st ← putMapping donation scratch ⟨userStackBase + i * pageSize, phys, true, false⟩ st
  pushOwnedPage phys st

/-- The stack loop: `n` pages from index `i` on. -/
def provisionStack (donation scratch stack : PageSetRef) :
    (n i : Nat) → Provision → CreateM Provision
  | 0, _, st => pure st
  | n + 1, i, st => do
    let st ← provisionStackPage donation scratch stack i st
    provisionStack donation scratch stack n (i + 1) st

/-- Phases 2 and 3 over pages of their own. -/
def buildChild (p : ProcKva) (args : CreateArgs) (donation scratch stack : PageSetRef) :
    CreateM Provisioned := do
  let builder ← mapErr mapVmemErr (AddressSpaceBuilder.new donation)
  let st ← provisionMappings p args donation scratch args.mappingCount 0
    ⟨builder, [], 0, [], [], 0⟩
  let st ← provisionStack donation scratch stack stack.count 0 st
  let st ← recordConsumedHeader stack.header st
  -- the pending entries of the last scratch page
  let builder ← mapErr mapVmemErr (st.builder.mapBatch donation st.buffer)
  pure ⟨builder.space, builder.claimed, st.ownedPages, st.headers, st.recorded⟩

/-! ## Phases 2 and 3 in the process page -/

/-- The page of the process object as 64-bit words. -/
abbrev PageWords := Nat → Nat

/-- `owned_page_count` is the low half of this word of a `ProcessObject`. -/
def ownedCountWord : Nat := 6

/-- First word of the `owned_pages` array. -/
def ownedPagesWord : Nat := 7

/-- Entries of the mapping buffer that end below `consumed_header_count`. -/
def overlayEntries : Nat := 45

namespace PageWords

def set (w : PageWords) (i x : Nat) : PageWords := fun j => if j = i then x else w j

/-- Write entry `i` of the buffer: a `Mapping` is three words, its fields in
    order.  The flags are two bytes; the rest of their word is padding. -/
def putEntry (w : PageWords) (i : Nat) (m : Mapping) : PageWords :=
  ((w.set (3 * i) m.virtAddr).set (3 * i + 1) m.physAddr).set (3 * i + 2)
    (w (3 * i + 2) / 2 ^ 16 * 2 ^ 16 + m.executable.toNat * 2 ^ 8 + m.userAccessible.toNat)

def entry (w : PageWords) (i : Nat) : Mapping :=
  ⟨w (3 * i), w (3 * i + 1), decide (w (3 * i + 2) % 2 ^ 8 ≠ 0),
    decide (w (3 * i + 2) / 2 ^ 8 % 2 ^ 8 ≠ 0)⟩

def ownedCount (w : PageWords) : Nat := w ownedCountWord % 2 ^ 32

/-- The owned pages as the teardown of the process will read them. -/
def ownedPages (w : PageWords) : List PhysAddr :=
  (List.range w.ownedCount).map fun j => w (ownedPagesWord + j)

/-- `process_push_owned_page` on the words of the page. -/
def pushOwnedPage (phys : PhysAddr) (w : PageWords) : CreateM PageWords :=
  if (List.range (min w.ownedCount maxOwnedPages)).any fun j => w (ownedPagesWord + j) == phys then
    pure w
  else if w.ownedCount > maxOwnedPages then stop .ownedPagesIndex
  else if w.ownedCount = maxOwnedPages then fail .tooManyOwnedPages
  else pure ((w.set (ownedPagesWord + w.ownedCount) phys).set ownedCountWord
    (w ownedCountWord / 2 ^ 32 * 2 ^ 32 + (w.ownedCount + 1)))

end PageWords

/-- State of the provisioning loops in the process page. -/
structure Overlaid where
  words : PageWords
  entries : Nat
  headers : List HeaderKva

/-- Write one entry and record its page. -/
def Overlaid.put (m : Mapping) (st : Overlaid) : CreateM Overlaid := do
  let words ← (st.words.putEntry st.entries m).pushOwnedPage m.physAddr
  pure { st with words, entries := st.entries + 1 }

/-- Record a header to consume, once. -/
def Overlaid.record (h : HeaderKva) (st : Overlaid) : CreateM Overlaid :=
  if h ∈ st.headers then pure st
  else if st.headers.length ≥ maxConsumedHeaders then fail (.planError .tooManyHeaders)
  else pure { st with headers := st.headers ++ [h] }

/-- The mapping loop: `n` entries from index `i` on. -/
def overlayMappings (p : ProcKva) (args : CreateArgs) (donation : PageSetRef) :
    (n i : Nat) → Overlaid → CreateM Overlaid
  | 0, _, st => pure st
  | n + 1, i, st => do
    let m ← orFail (args.mappings i) .invalidUserMemory
    let h ← lookupHeader p m.pagesetId
    if h = donation.header then fail .badHandle
    else do
      let ps ← buddyRef h
      let phys ← orFail (← ps.page m.pageIndex) .invalidUserMemory
      let st ← st.put
        ⟨m.virtAddr, phys, true, decide (m.flags &&& processMapFlagExecutable ≠ 0#64)⟩
      let st ← st.record h
      overlayMappings p args donation n (i + 1) st

/-- The stack loop: `n` pages from index `i` on. -/
def overlayStack (stack : PageSetRef) : (n i : Nat) → Overlaid → CreateM Overlaid
  | 0, _, st => pure st
  | n + 1, i, st => do
    let phys ← orFail (← stack.page i) .invalidUserMemory
    let st ← st.put ⟨userStackBase + i * pageSize, phys, true, false⟩
    overlayStack stack n (i + 1) st

/-- Phases 2 and 3 when the first scratch page is the page of the process object. -/
def buildOverlaid (p : ProcKva) (args : CreateArgs) (donation stack : PageSetRef) :
    CreateM Provisioned := do
  if args.mappingCount + stack.count ≤ overlayEntries ∧ args.listInScratch = false then do
    let builder ← mapErr mapVmemErr (AddressSpaceBuilder.new donation)
    let st ← overlayMappings p args donation args.mappingCount 0 ⟨fun _ => 0, 0, []⟩
    let st ← overlayStack stack stack.count 0 st
    let st ← st.record stack.header
    let builder ← mapErr mapVmemErr
      (builder.mapBatch donation ((List.range st.entries).map st.words.entry))
    pure ⟨builder.space, builder.claimed, st.words.ownedPages, st.headers, args.mappingCount⟩
  else
    match args.overlay with
    | .fails e => fail e
    | .stops p => stop p
    | .builds built => pure built

/-! ## Phase 4 -/

def donationFrame (donation : PageSetRef) (idx : Nat) : CreateM Frame := do
  let page ← orStop (← donation.page idx) .notRegistered
  pure (page / pageSize)

/-- The parent handle to copy: any live handle except a PageSet. -/
def resolveParentCopy (p : ProcKva) (handle : Option Nat) : CreateM (Option HandleEntry) := do
  match handle with
  | none => pure none
  | some handle => do
    let P ← getProcess p
    let entry ← mapErr (fun _ => .badHandle) (ofExcept (lookupAny P handle Rights.none))
    if entry.kind = .empty then fail (.planError .emptyParentHandle)
    else if entry.kind.isPageset then fail (.planError .pageSetKindParentHandle)
    else pure (some entry)

/-- The kernel objects of the child, as frames of the donation. -/
structure ChildFrames where
  process : Frame
  handleTable : Frame
  stack : Frame
  tcb : Frame

def childFrames (donation : PageSetRef) : CreateM ChildFrames := do
  let process ← donationFrame donation 0
  let handleTable ← donationFrame donation 1
  let stack ← donationFrame donation 2
  let tcb ← donationFrame donation 3
  pure ⟨process, handleTable, stack, tcb⟩

/-- Phase 1: the PageSets of the call and the parent handle to copy. -/
def resolveArgs (p : ProcKva) (args : CreateArgs) :
    CreateM (PageSetRef × PageSetRef × PageSetRef × Option HandleEntry) := do
  if !(← read (·.hasRoom)) then fail (.planError .schedulerFull)
  else do
    let stack ← buddyRef (← lookupHeader p args.stackPageset)
    let parent ← resolveParentCopy p args.parentHandleToCopy
    let scratch ← buddyRef (← lookupHeader p args.scratchPageset)
    if scratch.count = 0 then fail .invalidUserMemory
    else if !validateProcessMappings args.mappingCount stack.count
        (scratch.count * mappingsPerPage) then
      fail (.planError .bufferCapacityExceeded)
    else do
      let (h, n) ← mapErr (fun e => if e = .invalidHandle then .badHandle else .invalidUserMemory)
        (validateBuddyPageset p args.processResources processMinPages processMaxPages)
      pure (⟨h, n⟩, scratch, stack, parent)

/-- Phases 2 to 4: zero the process page and the first scratch page, build the
    child, write its kernel objects. -/
def provisionChild (p : ProcKva) (args : CreateArgs) (donation scratch stack : PageSetRef)
    (child : ChildFrames) : CreateM Provisioned := do
  modify (System.overwrite child.process)
  let first ← orStop (← scratch.page 0) .notRegistered
  modify (System.overwrite (first / pageSize))
  let built ← if scratch.header = donation.header then buildOverlaid p args donation stack
    else buildChild p args donation scratch stack
  modify (System.overwrite child.handleTable)
  modify (System.overwrite child.stack)
  modify (System.overwrite child.tcb)
  pure built

/-! ## Phase 5 -/

/-- `consume_pageset_validate` for every recorded header, in order. -/
def consumeValidateAll : List HeaderKva → Nat → CreateM Unit
  | [], _ => pure ()
  | h :: hs, idx => do
    match ← mapErr (fun _ => .consumeValidateFailed idx) (consumePagesetValidate h) with
    | .error _ => fail (.consumeValidateFailed idx)
    | .ok () => consumeValidateAll hs (idx + 1)

/-- `into_consumed`: consume the donation, free the workspace pages the child does not use. -/
def intoConsumed (donation : PageSetRef) (workspaceClaimed : Nat) : KernelM Unit := do
  if workspaceClaimed > donation.count - processKernelObjPages then stop .workspaceClaimed
  else do
    let backed ← readHeaderBacked donation.header
    let unclaimed := backed.pagesSlice.drop (processKernelObjPages + workspaceClaimed)
    consumePagesetApply donation.header
    forEach deallocPage (unclaimed.map (· / pageSize))

/-- An empty handle table of one page. -/
def emptyTable : List HandleEntry := List.replicate handleSlotsPerPage HandleEntry.EMPTY

/-- The child's table with the copied parent handle, if any. -/
def copyParentHandle (parent : Option HandleEntry) : KernelM (List HandleEntry) := do
  match parent with
  | none => pure emptyTable
  | some entry => do
    let kind ← exportKind entry.kind
    match slotInsert emptyTable entry.rights kind with
    | .error _ => stop .childInsert
    | .ok (slots, _) => pure slots

/-- Phase 5: nothing here may fail. -/
def applyCreate (donation : PageSetRef) (child : ChildFrames) (parent : Option HandleEntry)
    (built : Provisioned) : KernelM Unit := do
  intoConsumed donation built.workspaceClaimed
  forEach consumePagesetApply built.headers
  let handles ← copyParentHandle parent
  modify (·.setProc child.process
    ⟨built.space, child.handleTable, handles, 1, built.ownedPages⟩)
  if (← addThread ⟨child.tcb, some child.process, .directMap child.stack⟩) then pure ()
  else stop .addThread

/-- The late structural checks of the plan. -/
def validatePlan (parent : Option HandleEntry) (mappingCount stackPages scratchCapacity : Nat)
    (hasRoom : Bool) (uniqueHeaderCount : Nat) : Except CreateProcessPlanError Unit :=
  if !validateProcessMappings mappingCount stackPages scratchCapacity then
    .error .bufferCapacityExceeded
  else if !hasRoom then .error .schedulerFull
  else if uniqueHeaderCount + (if parent.isSome then 1 else 0) > handleSlotsPerPage then
    .error .handleTableTooSmall
  else .ok ()

/-- The part of the call that may still be refused. -/
def prepareCreate (p : ProcKva) (args : CreateArgs) :
    CreateM (PageSetRef × ChildFrames × Option HandleEntry × Provisioned) := do
  let (donation, scratch, stack, parent) ← resolveArgs p args
  let child ← childFrames donation
  let built ← provisionChild p args donation scratch stack child
  match validatePlan parent built.mappingCount stack.count (scratch.count * mappingsPerPage)
      (← read (·.hasRoom)) built.headers.length with
  | .error e => fail (.planError e)
  | .ok () => do
    consumeValidateAll built.headers 0
    pure (donation, child, parent, built)

/-- `sys_create_process`; `info` is the argument pack read from user memory. -/
def sysCreateProcess (p : ProcKva) (info : Option CreateArgs) : KernelM Unit := do
  let args ← orFail info .invalidParameter
  let (donation, child, parent, built) ←
    mapErr CreateProcessError.toSyscallError (prepareCreate p args)
  applyCreate donation child parent built

end Lockjaw.Cap
