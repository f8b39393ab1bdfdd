/-
  Lockjaw.Cap.System

  The kernel state behind PageSets and processes: the PageSet table and header
  pool, the frame allocators, the thread table, process objects with their
  handle tables and address spaces, and kernel objects.

  Every object is kept by value together with the frame that holds it, so that
  data written over a frame (`overwrite`) destroys the object living there.
  A kernel pointer is the frame it points to: the direct map and the KVM window
  are two views of frames and every object is reached through one of them.

  Which free frames the buddy allocator or the DMA pool hands out is left
  open: allocating operations take the frames that were picked.
-/

import Lockjaw.Lib.Fallible
import Lockjaw.Cap.PageTable
import Lockjaw.Sched.State

namespace Lockjaw.Cap

open Lib

/-! ## Objects -/

/-- Allocator the data pages of a PageSet came from. -/
inductive PageSetOrigin where
  | buddy
  | dmaPool
  | externallyOwned
  deriving DecidableEq, Repr

/-- Page-resident header of a PageSet.  `origin = none` is the zero, never
    written, discriminant; `pages` is the trailing address array. -/
structure PageSetHeader where
  refcount : Nat
  mapCount : Nat
  origin : Option PageSetOrigin
  pages : Nat → PhysAddr

/-- A header slot as the pool hands it out. -/
def PageSetHeader.zeroed : PageSetHeader where
  refcount := 0
  mapCount := 0
  origin := none
  pages := fun _ => 0

/-- Entry of the PageSet table.  `insert` rejects other counts. -/
structure PageSetEntry where
  count : Nat
  headerKva : HeaderKva
  origin : PageSetOrigin
  count_pos : 0 < count
  count_le : count ≤ maxPracticalPagesPerSet

/-- A process object is addressed by its page. -/
abbrev ProcKva := Frame

/-- Kernel stack of a thread and how its page is released. -/
inductive KernelStackBase where
  | pool (f : Frame)
  | directMap (f : Frame)
  | image
  deriving DecidableEq, Repr

structure Tcb where
  frame : Frame
  process : Option ProcKva
  stack : KernelStackBase
  deriving DecidableEq, Repr

/-- A process object with the handle table and the address space it points to. -/
structure Process where
  space : AddressSpace
  handleTable : Frame
  handles : List HandleEntry
  threadCount : Nat
  ownedPages : List PhysAddr

/-- Kernel objects made from one donated page. -/
inductive KernelObject where
  | endpoint (nextToken : Nat)
  | notification
  | reply
  deriving DecidableEq, Repr

structure System where
  table : Fin maxPagesets → Option PageSetEntry
  used : HeaderKva → Bool
  headers : HeaderKva → PageSetHeader
  free : Frame → Bool
  dmaFree : Frame → Bool
  /-- Free pages of the KVM window. -/
  kvmFree : Nat
  threads : List (Option Tcb)
  procs : ProcKva → Option Process
  objects : Frame → Option KernelObject
  dtbPagesetId : Fin maxPagesets

/-- Errors a system call returns. -/
inductive SyscallError where
  | invalidHandle
  | invalidParameter
  | handleTableFull
  | outOfMemory
  | outOfPageSets
  | outOfPageTables
  | queueFull
  | noCaller
  | unknown
  deriving DecidableEq, Repr

/-- The ways these paths stop the kernel. -/
inductive Panic where
  | refcountUnderflow
  | refcountOverflow
  | mapCountUnderflow
  | mapCountOverflow
  /-- "header not registered in PageSetTable" -/
  | notRegistered
  /-- "header origin uninit" -/
  | originUninit
  /-- "clear_validated_pte: walk faulted" -/
  | clearValidatedPte
  /-- "PageSetHeaderPool::release: double-release" -/
  | doubleRelease
  /-- "free: page not allocated (double-free)" -/
  | doubleFree
  /-- "L3 page reserved in pass 2" -/
  | l3NotReserved
  /-- A process pointer that does not point to a process object. -/
  | badProcess
  /-- An endpoint handle whose page does not hold an endpoint. -/
  | badObject
  /-- "EndpointObject.next_token ..." -/
  | tokenExhausted
  /-- "on_thread_exit: no threads to exit" -/
  | noThreads
  /-- "finish_exit: boot TCB exited" -/
  | bootTcbExited
  /-- Slice index out of bounds in the scratch Mapping buffer. -/
  | scratchOverrun
  /-- Array index out of bounds in a process's `owned_pages`. -/
  | ownedPagesIndex
  /-- "child handle insert into fresh empty table failed" -/
  | childInsert
  /-- "scheduler::add_thread failed after has_room" -/
  | addThread
  /-- "into_consumed: workspace_claimed > total" -/
  | workspaceClaimed
  deriving DecidableEq, Repr

abbrev KernelM := Fallible System SyscallError Panic

/-! ## Writes -/

def Process.overwrite (f : Frame) (P : Process) : Process :=
  { P with
    space := P.space.overwrite f
    handles := if P.handleTable = f then [] else P.handles }

def Tcb.overwrite (f : Frame) (t : Tcb) : Tcb :=
  if t.frame = f then { t with process := none } else t

namespace System

/-- Write a process object. -/
@[simps -fullyApplied table used headers free dmaFree kvmFree threads objects dtbPagesetId]
def setProc (s : System) (p : ProcKva) (P : Process) : System :=
  { s with procs := fun q => if q = p then some P else s.procs q }

/-- Forget a process object. -/
def dropProc (s : System) (p : ProcKva) : System :=
  { s with procs := fun q => if q = p then none else s.procs q }

@[simps -fullyApplied table used free dmaFree kvmFree threads procs objects dtbPagesetId]
def setHeader (s : System) (h : HeaderKva) (hdr : PageSetHeader) : System :=
  { s with headers := fun k => if k = h then hdr else s.headers k }

/-- Write a slot of the PageSet table. -/
@[simps -fullyApplied used headers free dmaFree kvmFree threads procs objects dtbPagesetId]
def setEntry (s : System) (id : Fin maxPagesets) (e : Option PageSetEntry) : System :=
  { s with table := fun k => if k = id then e else s.table k }

/-- Claim or release a slot of the header pool. -/
@[simps -fullyApplied table headers free dmaFree kvmFree threads procs objects dtbPagesetId]
def setUsed (s : System) (h : HeaderKva) (b : Bool) : System :=
  { s with used := fun k => if k = h then b else s.used k }

/-- Take frames from the buddy allocator, or give them back. -/
@[simps -fullyApplied table used headers dmaFree kvmFree threads procs objects dtbPagesetId]
def setFree (s : System) (fs : List Frame) (b : Bool) : System :=
  { s with free := fun f => if f ∈ fs then b else s.free f }

/-- Take pages from the DMA pool, or give them back. -/
def setDmaFree (s : System) (fs : List Frame) (b : Bool) : System :=
  { s with dmaFree := fun f => if f ∈ fs then b else s.dmaFree f }

def setObject (s : System) (f : Frame) (o : KernelObject) : System :=
  { s with objects := fun g => if g = f then some o else s.objects g }

@[simps -fullyApplied]
def setThreads (s : System) (ts : List (Option Tcb)) : System := { s with threads := ts }

def setKvmFree (s : System) (n : Nat) : System := { s with kvmFree := n }

/-- Data written over frame `f`: the object that lived there is gone. -/
def overwrite (f : Frame) (s : System) : System :=
  { s with
    procs := fun p => if p = f then none else (s.procs p).map (Process.overwrite f)
    threads := s.threads.map (Option.map (Tcb.overwrite f))
    objects := fun g => if g = f then none else s.objects g }

def overwriteAll (fs : List Frame) (s : System) : System := fs.foldl (fun s f => s.overwrite f) s

section Reads

variable {s : System} {p q : ProcKva} {P : Process} {h k : HeaderKva} {hdr : PageSetHeader}

theorem procs_setProc : (s.setProc p P).procs q = if q = p then some P else s.procs q := rfl

@[simp] theorem procs_setProc_self : (s.setProc p P).procs p = some P := if_pos rfl

@[simp] theorem procs_setProc_of_ne (hne : q ≠ p) : (s.setProc p P).procs q = s.procs q :=
  if_neg hne

@[simp] theorem setProc_setProc (P' : Process) : (s.setProc p P).setProc p P' = s.setProc p P' := by
  unfold setProc
  simp only [System.mk.injEq, true_and, and_true]
  funext q
  by_cases hq : q = p <;> simp [hq]

theorem procs_dropProc : (s.dropProc p).procs q = if q = p then none else s.procs q := rfl

@[simp] theorem headers_setHeader_self : (s.setHeader h hdr).headers h = hdr := if_pos rfl

@[simp] theorem headers_setHeader_of_ne (hne : k ≠ h) :
    (s.setHeader h hdr).headers k = s.headers k := if_neg hne

variable {id : Fin maxPagesets} {e : Option PageSetEntry} {b : Bool} {fs : List Frame} {f : Frame}

theorem table_setEntry {k : Fin maxPagesets} :
    (s.setEntry id e).table k = if k = id then e else s.table k := rfl

theorem used_setUsed : (s.setUsed h b).used k = if k = h then b else s.used k := rfl

theorem free_setFree : (s.setFree fs b).free f = if f ∈ fs then b else s.free f := rfl

theorem dmaFree_setDmaFree :
    (s.setDmaFree fs b).dmaFree f = if f ∈ fs then b else s.dmaFree f := rfl

end Reads

end System

end Lockjaw.Cap
