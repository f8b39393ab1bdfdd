/-
  Lockjaw.Cap.Syscall

  The system calls of `src/syscall/handler.rs` that move PageSet handles and
  mappings, apart from process creation, and the teardown of an exited thread
  (`finish_exit` of `src/sched/scheduler.rs`).

  A call takes the calling process and its register arguments; handle indices
  are the low 32 bits of the register.  What the kernel decides by itself is an
  argument too: the frames the allocator hands out, and for
  `sys_export_handle` the process of the bound caller.
-/

import Lockjaw.Cap.Revoke

namespace Lockjaw.Cap

open Lib Lib.Fallible

/-! ## Handle-table writes -/

/-- Empty a handle slot. -/
def removeHandle (p : ProcKva) (handle : Nat) : KernelM Unit := do
  let P ← getProcess p
  match slotRemove P.handles handle with
  | .error _ => fail .invalidHandle
  | .ok (slots, _) => modify (·.setProc p { P with handles := slots })

/-- Record a mapping address on a PageSet handle. -/
def setMappedVa (p : ProcKva) (handle : Nat) (va : VaPage) : KernelM Unit := do
  let P ← getProcess p
  match slotSetMappedVa P.handles handle va with
  | .error _ => fail .invalidHandle
  | .ok slots => modify (·.setProc p { P with handles := slots })

/-! ## Allocation and registration -/

/-- Hand the first handle to a new PageSet to process `p`; `undo` gives the
    PageSet back when the table is full. -/
def publishPageset (p : ProcKva) (id : Fin maxPagesets) (undo : HeaderKva → KernelM Unit) :
    KernelM Nat := do
  let entry ← orFail (← read (·.table id)) .unknown
  match ← insertHandle p Rights.readWrite (.pageSet entry.headerKva 0#32) with
  | some handle => do
    incRefcount entry.headerKva
    pure handle
  | none => do
    undo entry.headerKva
    fail .handleTableFull

def allocFlagContiguous : BitVec 64 := 1#64

def sysAllocPages (p : ProcKva) (count : Nat) (flags : BitVec 64) (pick : List Frame)
    (first : Option Frame) : KernelM Nat := do
  if flags &&& ~~~allocFlagContiguous ≠ 0#64 then fail .invalidParameter
  else do
    let id ← if flags &&& allocFlagContiguous ≠ 0#64 then allocPagesContiguous count first
      else allocPages count pick
    publishPageset p id freeByHeaderKva

def sysAllocDmaPages (p : ProcKva) (count : Nat) (first : Option Frame) : KernelM Nat := do
  let id ← allocDmaPages count first
  publishPageset p id freeByHeaderKva

def sysRegisterDevicePage (p : ProcKva) (physAddr : PhysAddr) : KernelM Nat := do
  let id ← registerDevicePage physAddr
  publishPageset p id freeHeaderPage

def sysGetBootInfo (p : ProcKva) : KernelM Nat := do
  let entry ← orFail (← read fun s => s.table s.dtbPagesetId) .unknown
  match ← insertHandle p Rights.readWrite (.pageSet entry.headerKva 0#32) with
  | none => fail .handleTableFull
  | some handle => do
    incRefcount entry.headerKva
    pure handle

/-! ## Export -/

/-- The next caller token of the endpoint in frame `f`. -/
def mintCallerToken {ε : Type} (f : Frame) : Fallible System ε Panic Nat := do
  match ← read (·.objects f) with
  | some (.endpoint next) =>
    if next = 0 then stop .tokenExhausted
    else if next + 1 ≥ 2 ^ 64 then stop .tokenExhausted
    else do
      modify (·.setObject f (.endpoint (next + 1)))
      pure next
  | _ => stop .badObject

/-- The kind a duplicated handle gets: an endpoint handle gets a new token. -/
def exportKind {ε : Type} (kind : HandleKind) : Fallible System ε Panic HandleKind :=
  match kind with
  | .endpoint f _ => do
    let token ← mintCallerToken f
    pure (.endpoint f (some token))
  | other => pure other

/-- `caller` is the process of the thread whose call is being handled. -/
def sysExportHandle (p : ProcKva) (caller : Option ProcKva) (handle : Nat) : KernelM Nat := do
  let q ← orFail caller .noCaller
  let P ← getProcess p
  let entry ← ofExcept (lookupAny P handle Rights.none)
  let kind ← exportKind entry.kind
  match ← insertHandle q entry.rights kind with
  | none => fail .handleTableFull
  | some idx =>
    match kind with
    | .pageSet kva _ => do
      incRefcount kva
      pure idx
    | _ => pure idx

/-! ## Map and unmap -/

/-- The attribute-versus-origin rejections of `sys_map_pages`. -/
def attrRejected : PageSetOrigin → MapMemoryAttribute → Bool
  | .buddy, .normalNonCacheable => true
  | .dmaPool, .normalNonCacheable => true
  | .dmaPool, .device => true
  | .externallyOwned, .normalNonCacheable => true
  | _, _ => false

/-- Map the pages of a PageSet into the tables of process `p`.  `pick` are the
    frames the allocator hands out for new L3 tables. -/
def mapPagesInExisting (p : ProcKva) (va : Nat) (backed : BackedHeader)
    (attr : MapMemoryAttribute) (pick : List Frame) : KernelM (Except VmemError Unit) := do
  let P ← getProcess p
  match validateMapping va backed.count with
  | .errorOutOfRange | .errorTooManyPages => pure (.error .tooManyMappings)
  | .ok l2Start l3Start => do
    let regions := l2Regions l2Start l3Start backed.count
    match ← takeFrames (neededL3Allocs P.space regions) pick with
    | none => pure (.error .outOfPages)
    | some frames => do
      modify (System.overwriteAll frames)
      let P ← getProcess p
      match applyRegions backed.pagesSlice attr regions frames P.space with
      | none => stop .l3NotReserved
      | some space => do
        modify (·.setProc p { P with space })
        pure (.ok ())

def sysMapPages (p : ProcKva) (handle va attrRaw : Nat) (pick : List Frame) : KernelM Unit := do
  let attr ← orFail (MapMemoryAttribute.fromRaw attrRaw) .invalidParameter
  if va = 0 ∨ va % pageSize ≠ 0 then fail .invalidParameter
  else do
    let P ← getProcess p
    let entry ← ofExcept (lookup P handle Rights.read .pageSet)
    match slotGetMappedVa P.handles handle with
    | .error _ => fail .invalidHandle
    | .ok vaPage =>
      if vaPage ≠ 0#32 then fail .invalidParameter
      else
        match entry.kind with
        | .pageSet kva _ => do
          let backed ← readHeaderBacked kva
          match backed.header.origin with
          | none => fail .invalidHandle
          | some origin =>
            if attrRejected origin attr then fail .invalidParameter
            else do
              match ← mapPagesInExisting p va backed attr pick with
              | .error _ => fail .unknown
              | .ok () => do
                setMappedVa p handle (BitVec.ofNat 32 (va / pageSize))
                incMapCount kva
        | _ => fail .invalidHandle

/-- Check a range against its pages and clear it, in process `p`. -/
def unmapValidated (p : ProcKva) (va : Nat) (expected : List PhysAddr) :
    KernelM (Except Nat Unit) := do
  let P ← getProcess p
  match P.space.validatePteMatch va expected with
  | .error i => pure (.error i)
  | .ok () =>
    match P.space.clearValidatedPte va expected.length with
    | none => stop .clearValidatedPte
    | some space => do
      modify (·.setProc p { P with space })
      pure (.ok ())

def sysUnmapPages (p : ProcKva) (handle va : Nat) : KernelM Unit := do
  let P ← getProcess p
  let entry ← ofExcept (lookup P handle Rights.read .pageSet)
  match slotGetMappedVa P.handles handle with
  | .error _ => fail .invalidHandle
  | .ok vaPage =>
    if vaPage = 0#32 then fail .invalidParameter
    else if va ≠ vaPage.toNat * pageSize then fail .invalidParameter
    else
      match entry.kind with
      | .pageSet kva _ => do
        let backed ← readHeaderBacked kva
        match ← unmapValidated p va backed.pagesSlice with
        | .error _ => fail .invalidParameter
        | .ok () => do
          setMappedVa p handle 0#32
          if (← decMapCount kva) then freeByHeaderKva kva else pure ()
      | _ => fail .invalidHandle

/-- Close a handle by the protocol its slot decides. -/
def sysCloseHandle (p : ProcKva) (handle : Nat) : KernelM Unit := do
  let P ← getProcess p
  match decideCloseHandle (lookupAny P handle Rights.none).toOption with
  | .invalidHandle => fail .invalidHandle
  | .removeOnly => removeHandle p handle
  | .removeAndDecRef kva => do
    removeHandle p handle
    decRefcountAndMaybeFree kva
  | .unmapThenRemove kva vaPage => do
    let backed ← readHeaderBacked kva
    match ← unmapValidated p (vaPage.toNat * pageSize) backed.pagesSlice with
    | .error _ => fail .invalidParameter
    | .ok () => do
      removeHandle p handle
      decBothAndMaybeFree kva

/-! ## Donation of one page -/

/-- An unmapped Buddy PageSet with `lo` to `hi` pages that the caller may
    write; returns its header and page count. -/
def validateBuddyPageset (p : ProcKva) (handle lo hi : Nat) : KernelM (HeaderKva × Nat) := do
  let P ← getProcess p
  let h ← ofExcept (lookupPageSet P handle Rights.write)
  let backed ← readHeaderBacked h
  match backed.header.origin with
  | some .buddy =>
    if backed.header.mapCount ≠ 0 then fail .invalidParameter
    else if lo ≤ backed.count ∧ backed.count ≤ hi then pure (h, backed.count)
    else fail .invalidParameter
  | some _ => fail .invalidParameter
  | none => fail .invalidHandle

/-- Take a one-page PageSet as a kernel page: validate, reserve a kernel
    address, initialise with `init`, consume. -/
def donateOneKernelPage (p : ProcKva) (handle : Nat) (init : Frame → KernelM Unit) :
    KernelM Frame := do
  let (h, _) ← validateBuddyPageset p handle 1 1
  let backed ← readHeaderBacked h
  let page ← orFail (backed.getPage 0) .invalidHandle
  match ← consumePagesetValidate h with
  | .error _ => fail .invalidHandle
  | .ok () => do
    let n ← read (·.kvmFree)
    if n = 0 then fail .outOfMemory
    else do
      modify (·.setKvmFree (n - 1))
      init (page / pageSize)
      consumePagesetApply h
      pure (page / pageSize)

/-- Write a new kernel object over frame `f`. -/
def initObject (o : KernelObject) (f : Frame) : KernelM Unit := do
  modify (System.overwrite f)
  modify (·.setObject f o)

/-- Make a kernel object from a donated page and hand out a handle to it. -/
def createKernelObject (p : ProcKva) (handle : Nat) (makeKind : Frame → HandleKind)
    (o : KernelObject) : KernelM Nat := do
  let f ← donateOneKernelPage p handle (initObject o)
  match ← insertHandle p Rights.readWrite (makeKind f) with
  | some idx => pure idx
  | none => do
    modify fun s => s.setKvmFree (s.kvmFree + 1)  -- the frame itself is not recovered
    fail .handleTableFull

def sysCreateEndpoint (p : ProcKva) (handle : Nat) : KernelM Nat :=
  createKernelObject p handle (fun f => .endpoint f none) (.endpoint 1)

def sysCreateNotification (p : ProcKva) (handle : Nat) : KernelM Nat :=
  createKernelObject p handle .notification .notification

def sysCreateReply (p : ProcKva) (handle : Nat) : KernelM Nat :=
  createKernelObject p handle .reply .reply

/-! ## Threads -/

/-- Threads the scheduler holds. -/
def maxThreads : Nat := 1024

/-- The scheduler has a free slot. -/
def System.hasRoom (s : System) : Bool := s.threads.any (·.isNone)

/-- Register a thread in the first free slot; `false` if there is none. -/
def addThread {ε : Type} (t : Tcb) : Fallible System ε Panic Bool := do
  let ts ← read (·.threads)
  match ts.findIdx? (·.isNone) with
  | none => pure false
  | some i => do
    modify (·.setThreads (ts.set i (some t)))
    pure true

def incThreadCount (p : ProcKva) : KernelM Unit := do
  let P ← getProcess p
  modify (·.setProc p { P with threadCount := P.threadCount + 1 })

def sysCreateThread (p : ProcKva) (entryPoint stackTop stackBase stackHandle tcbHandle : Nat) :
    KernelM Unit := do
  if entryPoint ≥ userVaEnd ∨ stackTop ≥ userVaEnd ∨ stackBase ≥ userVaEnd then
    fail .invalidParameter
  else if stackBase ≥ stackTop then fail .invalidParameter
  else if stackTop % 16 ≠ 0 then fail .invalidParameter
  else if !(← read (·.hasRoom)) then fail .queueFull
  else do
    let stack ← donateOneKernelPage p stackHandle fun _ => pure ()
    -- the TCB and the initial stack frame are written before the consume
    let tcb ← donateOneKernelPage p tcbHandle fun f => do
      modify (System.overwrite stack)
      modify (System.overwrite f)
    incThreadCount p
    if (← addThread ⟨tcb, some p, .pool stack⟩) then pure () else stop .addThread

/-- Drop what one slot of a dead process's table references. -/
def cleanupEntry (e : HandleEntry) : KernelM Unit :=
  match decideCloseHandle (some e) with
  | .removeAndDecRef kva => decRefcountAndMaybeFree kva
  | .unmapThenRemove kva _ => decBothAndMaybeFree kva
  | _ => pure ()

/-- Slots of the `owned_pages` array. -/
def maxOwnedPages : Nat := 128

/-- Free the owned pages.  The loop runs to the recorded count, which must not exceed the array. -/
def freeOwnedPages (P : Process) : KernelM Unit := do
  forEach deallocPage ((P.ownedPages.take maxOwnedPages).map (· / pageSize))
  if P.ownedPages.length > maxOwnedPages then stop .ownedPagesIndex else pure ()

/-- Free what a process owns, after its last thread.  No thread refers to the
    process object any more; its contents are read from `P`. -/
def teardown (p : ProcKva) (P : Process) : KernelM Unit := do
  modify (·.dropProc p)
  freeOwnedPages P
  forEach deallocPage P.space.tableFrames
  forEach cleanupEntry P.handles
  deallocPage P.handleTable
  deallocPage p

/-- Free the stack and TCB pages of a thread by their regime. -/
def freeThreadPages (t : Tcb) : KernelM Unit :=
  match t.stack with
  | .image => stop .bootTcbExited
  | .pool f => do
    deallocPage f
    deallocPage t.frame
    modify fun s => s.setKvmFree (s.kvmFree + 2)
  | .directMap f => do
    deallocPage f
    deallocPage t.frame

/-- Tear down the exited thread in slot `i`. -/
def finishExit (i : Nat) (t : Tcb) : KernelM Unit := do
  modify fun s => s.setThreads (s.threads.set i none)
  freeThreadPages t
  let p ← orStop t.process .badProcess
  let P ← getProcess p
  if P.threadCount = 0 then stop .noThreads
  else if P.threadCount = 1 then teardown p P
  else modify (·.setProc p { P with threadCount := P.threadCount - 1 })

end Lockjaw.Cap
