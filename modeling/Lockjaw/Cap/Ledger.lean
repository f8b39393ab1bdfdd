/-
  Lockjaw.Cap.Ledger

  The kernel state with a ledger: who owns each physical frame, and which
  handle slots of a process under teardown are still to be dropped.

  The ledger is what the invariants speak about.  `Inv` says that every frame
  has one owner and every owner really uses it, that the PageSet table and the
  handle slots agree, that processes count their threads, and that every
  header counts the slots naming it.
-/

import Lockjaw.Cap.Revocation
import Lockjaw.Cap.Syscall

namespace Lockjaw.Cap

open AddressSpace (vaPages)

/-! ## Owners -/

/-- What a physical frame is used for. -/
inductive Owner where
  | free
  | dma
  | pageSet (h : HeaderKva)
  | process (p : ProcKva)
  | handleTable (p : ProcKva)
  | table (p : ProcKva)
  | owned (p : ProcKva)
  | tcb (i : Nat)
  | stack (i : Nat)
  | object
  /-- Taken from its last owner, and not yet given to another. -/
  | loose
  /-- Loaded for process `p` before the first system call. -/
  | boot (p : ProcKva)
  | other
  deriving DecidableEq, Repr

/-- Frames the allocators and the kernel's own hands hold. -/
def Owner.Spare (o : Owner) : Prop := o = .free ∨ o = .dma ∨ o = .loose

/-- Kernel stack page of a thread, if it is not part of the kernel image. -/
def KernelStackBase.frame? : KernelStackBase → Option Frame
  | pool f => some f
  | directMap f => some f
  | image => none

/-- The kernel state with its ledger. -/
structure Ledger where
  sys : System
  owner : Frame → Owner
  /-- Slots of the table of an exited process that are still to be dropped. -/
  pending : List HandleEntry

/-- The data pages of a PageSet are whole frames, owned by it, each once. -/
structure DataOwned (owner : Frame → Owner) (o : Owner) (pages : Nat → PhysAddr) (n : Nat) :
    Prop where
  aligned : ∀ i, i < n → pages i % pageSize = 0
  owned : ∀ i, i < n → owner (pages i / pageSize) = o
  inj : ∀ i j, i < n → j < n → pages i = pages j → i = j

/-- The frames of a process. -/
structure ProcessOwned (owner : Frame → Owner) (p : ProcKva) (P : Process) : Prop where
  process : owner p = .process p
  handleTable : owner P.handleTable = .handleTable p
  tables : ∀ f ∈ P.space.tableFrames, owner f = .table p
  nodup : P.space.tableFrames.Nodup
  aligned : ∀ a ∈ P.ownedPages, a % pageSize = 0
  owned : ∀ a ∈ P.ownedPages, owner (a / pageSize) = .owned p
  ownedNodup : P.ownedPages.Nodup

/-- Everything that uses a frame is its owner in the ledger. -/
structure Owns (t : Ledger) : Prop where
  free : ∀ f, t.sys.free f = true → t.owner f = .free
  dma : ∀ f, t.sys.dmaFree f = true → t.owner f = .dma
  bound : ∀ f, t.owner f ≠ .other → f < 2 ^ 36
  data : ∀ id ent, t.sys.table id = some ent → ent.origin ≠ .externallyOwned →
    DataOwned t.owner (.pageSet ent.headerKva) (t.sys.headers ent.headerKva).pages ent.count
  procs : ∀ p P, t.sys.procs p = some P → ProcessOwned t.owner p P
  tcb : ∀ (i : Nat) (c : Tcb), t.sys.threads[i]? = some (some c) → t.owner c.frame = .tcb i
  stack : ∀ (i : Nat) (c : Tcb) (f : Frame), t.sys.threads[i]? = some (some c) →
    c.stack.frame? = some f → t.owner f = .stack i
  objects : ∀ f, (t.sys.objects f).isSome → t.owner f = .object

/-! ## The PageSet table, the slots and the threads -/

/-- The addresses are those of consecutive frames. -/
def DmaRun (pages : Nat → PhysAddr) (n : Nat) : Prop :=
  ∀ i, i < n → pages i = pages 0 + i * pageSize

/-- The header pool and the PageSet table agree. -/
structure TableOk (s : System) : Prop where
  used : ∀ id ent, s.table id = some ent → s.used ent.headerKva = true
  unique : ∀ id id' ent ent', s.table id = some ent → s.table id' = some ent' →
    ent.headerKva = ent'.headerKva → id = id'
  registered : ∀ h, s.used h = true → ∃ id ent, s.table id = some ent ∧ ent.headerKva = h
  origin : ∀ id ent, s.table id = some ent →
    (s.headers ent.headerKva).origin = some ent.origin
  /-- Pages of the DMA pool are released as one run. -/
  dmaRun : ∀ id ent, s.table id = some ent → ent.origin = .dmaPool →
    DmaRun (s.headers ent.headerKva).pages ent.count

variable {s : System} {h : HeaderKva} {R : MoveRule} {t t' : Ledger}

/-- No table entry names a header that is not in use. -/
theorem TableOk.ne_of_unused {id : Fin maxPagesets}
    {ent : PageSetEntry} (htab : TableOk s) (hu : s.used h = false) (hent : s.table id = some ent) :
    ent.headerKva ≠ h := by
  rintro rfl
  rw [htab.used id ent hent] at hu
  cases hu

/-- An object of the given type; an endpoint has a token left to give. -/
def KernelObject.Good (type : ObjectType) : KernelObject → Prop
  | .endpoint n => type = .endpoint ∧ 0 < n
  | .notification => type = .notification
  | .reply => type = .reply

/-- A handle slot refers to a live object of the kind it records. -/
def SlotOk (s : System) (e : HandleEntry) : Prop :=
  match e.kind with
  | .empty => True
  | .pageSet h _ => s.used h = true
  | .endpoint f _ | .notification f | .reply f =>
    ∃ o, s.objects f = some o ∧ o.Good e.kind.objType
  | _ => False

structure SlotsOk (t : Ledger) : Prop where
  procs : ∀ p P, t.sys.procs p = some P → ∀ e ∈ P.handles, SlotOk t.sys e
  pending : ∀ e ∈ t.pending, SlotOk t.sys e

def threadOf (p : ProcKva) : Option Tcb → Bool
  | some c => decide (c.process = some p)
  | none => false

/-- Number of registered threads of process `p`. -/
def System.threadsOf (s : System) (p : ProcKva) : Nat := s.threads.countP (threadOf p)

/-- Every thread has a process, and every process counts its threads. -/
structure ThreadsOk (s : System) : Prop where
  process : ∀ (i : Nat) (c : Tcb), s.threads[i]? = some (some c) →
    ∃ p, c.process = some p ∧ (s.procs p).isSome
  count : ∀ p P, s.procs p = some P → P.threadCount = s.threadsOf p
  pos : ∀ p P, s.procs p = some P → 0 < P.threadCount

/-- The processes of the threads are exactly the process objects. -/
theorem ThreadsOk.mem_uniqueProcesses (ht : ThreadsOk s) {p : ProcKva} :
    p ∈ s.uniqueProcesses ↔ (s.procs p).isSome := by
  rw [System.mem_uniqueProcesses]
  constructor
  · grind [ht.process, List.getElem?_of_mem]
  · intro hsome
    obtain ⟨P, hP⟩ := Option.isSome_iff_exists.mp hsome
    have hpos : 0 < s.threadsOf p := by
      rw [← ht.count p P hP]
      exact ht.pos p P hP
    obtain ⟨o, hmem, ho⟩ := List.countP_pos_iff.mp hpos
    cases o with
    | none => cases ho
    | some c => exact ⟨c, hmem, by simpa [threadOf] using ho⟩

/-- The counters of every registered header. -/
structure Accounts (t : Ledger) : Prop where
  refcount : ∀ id ent, t.sys.table id = some ent →
    (t.sys.headers ent.headerKva).refcount
      = t.sys.refsOver ent.headerKva t.sys.uniqueProcesses + refsIn ent.headerKva t.pending
  mapCount : ∀ id ent, t.sys.table id = some ent →
    (t.sys.headers ent.headerKva).mapCount
      = t.sys.mapsOver ent.headerKva t.sys.uniqueProcesses + mapsIn ent.headerKva t.pending

structure Inv (t : Ledger) : Prop where
  owns : Owns t
  table : TableOk t.sys
  slots : SlotsOk t
  threads : ThreadsOk t.sys
  accounts : Accounts t

/-- What a revocation did to a process that is still there. -/
theorem Revoked.proc {s' : System} {n : Nat} (ht : ThreadsOk s)
    (hrev : Revoked h n s s') {q : ProcKva} {Q' : Process} (hQ : s'.procs q = some Q') :
    ∃ Q sp, s.procs q = some Q ∧
      Q' = { Q with handles := eraseHeader h Q.handles, space := sp } ∧
      ErasedAll Q.space sp n (rangesOf h Q.handles) := by
  have hlive : q ∈ s.uniqueProcesses := by grind [hrev.revoked.outside, ht.mem_uniqueProcesses]
  grind [hrev.revoked.inside, ht.mem_uniqueProcesses, Option.isSome_iff_exists]

/-! ## Moves -/

/-- The counters of `h` after a slot changed from `e` to `e'`. -/
def PageSetHeader.recount (h : HeaderKva) (e e' : HandleEntry) (hdr : PageSetHeader) :
    PageSetHeader :=
  { hdr with
    refcount := hdr.refcount + (e'.names h).toNat - (e.names h).toNat
    mapCount := hdr.mapCount + (e'.maps h).toNat - (e.maps h).toNat }

/-- Replace slot `i` of process `p` and its address space, and recount. -/
def System.putSlot (s : System) (p : ProcKva) (P : Process) (i : Nat) (e e' : HandleEntry)
    (space : AddressSpace) : System :=
  { s.setProc p { P with handles := P.handles.set i e', space } with
    headers := fun h => (s.headers h).recount h e e' }

/-- Conditions on the caller-chosen part of a move. -/
structure MoveRule where
  /-- A mapping of `n` pages at page `v` of process `p`. -/
  map : System → ProcKva → (v n : Nat) → Prop
  /-- The address of a device page. -/
  device : PhysAddr → Prop
  /-- A handle put into the table of process `p`. -/
  insert : ProcKva → HandleEntry → Prop
  /-- The slot of the PageSet table that a new PageSet takes. -/
  register : Fin maxPagesets → Prop
  /-- The slot that a PageSet leaves. -/
  unregister : Fin maxPagesets → Prop

/-- A rule that hands out nothing. -/
def MoveRule.closed : MoveRule where
  map _ _ _ _ := False
  device _ := False
  insert _ _ := False
  register _ := False
  unregister _ := False

/-- Frames a new process is made of. -/
def childFrameList (p : ProcKva) (P : Process) (tcb stack : Frame) : List Frame :=
  p :: P.handleTable :: tcb :: stack :: P.space.tableFrames ++ P.ownedPages.map (· / pageSize)

/-- The owner of a frame of the new process in thread slot `i`. -/
def childOwner (p : ProcKva) (P : Process) (i : Nat) (tcb stack f : Frame) : Owner :=
  if f = p then .process p
  else if f = P.handleTable then .handleTable p
  else if f = tcb then .tcb i
  else if f = stack then .stack i
  else if f ∈ P.space.tableFrames then .table p
  else .owned p

/-- Every entry of the address space maps a page the process owns. -/
def MapsOwned (P : Process) : Prop :=
  ∀ v e, v < vaPages → P.space.pte v = some e → e.outputAddr ∈ P.ownedPages

/-- The steps all paths of the kernel are made of. -/
inductive Move (R : MoveRule) : Ledger → Ledger → Prop where
  /-- Frames move between the allocators and the kernel's hands. -/
  | frames {t : Ledger} (free dma : Frame → Bool) (kvm : Nat) (owner : Frame → Owner)
      (howner : ∀ f, owner f = t.owner f ∨ (t.owner f).Spare ∧ (owner f).Spare)
      (hfree : ∀ f, free f = true → owner f = .free)
      (hdma : ∀ f, dma f = true → owner f = .dma) :
      Move R t ⟨{ t.sys with free := free, dmaFree := dma, kvmFree := kvm }, owner, t.pending⟩
  /-- A slot without a mapping is emptied, or an empty one is filled. -/
  | slot {t : Ledger} {p : ProcKva} {P : Process} {i : Nat} {e : HandleEntry} (e' : HandleEntry)
      (hP : t.sys.procs p = some P) (hi : P.handles[i]? = some e)
      (hm : ∀ h, e.maps h = false) (hm' : ∀ h, e'.maps h = false) (hok : SlotOk t.sys e')
      (hR : e' = .EMPTY ∨ e.kind = .empty ∧ R.insert p e') :
      Move R t ⟨t.sys.putSlot p P i e e' P.space, t.owner, t.pending⟩
  /-- The PageSet of a slot is mapped; new tables are made of loose frames. -/
  | map {t : Ledger} {p : ProcKva} {P : Process} {i : Nat} {r : Rights} {h : HeaderKva}
      {va : VaPage} {id : Fin maxPagesets} {ent : PageSetEntry} {attr : MapMemoryAttribute}
      {fs : List Frame} {space : AddressSpace}
      (hP : t.sys.procs p = some P) (hi : P.handles[i]? = some ⟨r, .pageSet h 0#32⟩)
      (hva : va ≠ 0#32) (hent : t.sys.table id = some ent) (hh : ent.headerKva = h)
      (hle : va.toNat + ent.count ≤ 2 ^ 18)
      (hspec : AddressSpace.MapSpec (t.sys.dataPages h ent.count) attr va.toNat 0 ent.count fs
        P.space space)
      (hloose : ∀ f ∈ fs, t.owner f = .loose) (hnodup : fs.Nodup)
      (hR : R.map t.sys p va.toNat ent.count) :
      Move R t ⟨t.sys.putSlot p P i ⟨r, .pageSet h 0#32⟩ ⟨r, .pageSet h va⟩ space,
        fun f => if f ∈ fs then .table p else t.owner f, t.pending⟩
  /-- The recorded range of a slot is checked and cleared. -/
  | unmap {t : Ledger} {p : ProcKva} {P : Process} {i : Nat} {r : Rights} {h : HeaderKva}
      {va : VaPage} {id : Fin maxPagesets} {ent : PageSetEntry} {space : AddressSpace}
      (hP : t.sys.procs p = some P) (hi : P.handles[i]? = some ⟨r, .pageSet h va⟩)
      (hva : va ≠ 0#32) (hent : t.sys.table id = some ent) (hh : ent.headerKva = h)
      (hmap : P.space.Mapped va.toNat (t.sys.dataPages h ent.count))
      (herased : AddressSpace.Erased P.space space va.toNat ent.count) :
      Move R t ⟨t.sys.putSlot p P i ⟨r, .pageSet h va⟩ ⟨r, .pageSet h 0#32⟩ space,
        t.owner, t.pending⟩
  /-- A loose frame becomes a kernel object, or an object changes. -/
  | object {t : Ledger} (f : Frame) (o : KernelObject)
      (hown : t.owner f = .loose ∨ t.owner f = .object)
      (hgood : ∀ type o', t.sys.objects f = some o' → o'.Good type → o.Good type) :
      Move R t ⟨t.sys.setObject f o, fun g => if g = f then .object else t.owner g, t.pending⟩
  /-- An unused header is written. -/
  | header {t : Ledger} (h : HeaderKva) (hdr : PageSetHeader) (hu : t.sys.used h = false) :
      Move R t ⟨t.sys.setHeader h hdr, t.owner, t.pending⟩
  /-- Loose frames, or a device page, become a PageSet nobody refers to. -/
  | register {t : Ledger} (id : Fin maxPagesets) (ent : PageSetEntry) (pages : Nat → PhysAddr)
      (hid : t.sys.table id = none) (hu : t.sys.used ent.headerKva = false)
      (hdata : ent.origin ≠ .externallyOwned → DataOwned t.owner .loose pages ent.count)
      (hdev : ent.origin = .externallyOwned → ∀ i, i < ent.count → R.device (pages i))
      (hrun : ent.origin = .dmaPool → DmaRun pages ent.count) (hR : R.register id) :
      Move R t ⟨((t.sys.setUsed ent.headerKva true).setHeader ent.headerKva
          ⟨0, 0, some ent.origin, pages⟩).setEntry id (some ent),
        fun f => if ent.origin ≠ .externallyOwned ∧ ∃ i, i < ent.count ∧ f = pages i / pageSize
          then .pageSet ent.headerKva else t.owner f, t.pending⟩
  /-- A PageSet nobody refers to is taken out of the table. -/
  | unregister {t : Ledger} {id : Fin maxPagesets} {ent : PageSetEntry}
      (hent : t.sys.table id = some ent) (hr : (t.sys.headers ent.headerKva).refcount = 0)
      (hm : (t.sys.headers ent.headerKva).mapCount = 0) (hR : R.unregister id) :
      Move R t ⟨(t.sys.setEntry id none).setUsed ent.headerKva false,
        fun f => if t.owner f = .pageSet ent.headerKva then .loose else t.owner f, t.pending⟩
  /-- Every handle to a header is revoked. -/
  | revoke {t : Ledger} {id : Fin maxPagesets} {ent : PageSetEntry} {s' : System}
      (hent : t.sys.table id = some ent) (hpend : t.pending = [])
      (hrev : Revoked ent.headerKva ent.count t.sys s') :
      Move R t ⟨s', t.owner, t.pending⟩
  /-- A process gets another thread. -/
  | thread {t : Ledger} {p : ProcKva} {P : Process} {i : Nat} {tcb stack : Frame}
      (hP : t.sys.procs p = some P) (hi : t.sys.threads[i]? = some none)
      (htcb : t.owner tcb = .loose) (hstack : t.owner stack = .loose) (hne : tcb ≠ stack) :
      Move R t ⟨(t.sys.setProc p { P with threadCount := P.threadCount + 1 }).setThreads
          (t.sys.threads.set i (some ⟨tcb, some p, .pool stack⟩)),
        fun f => if f = tcb then .tcb i else if f = stack then .stack i else t.owner f,
        t.pending⟩
  /-- A new process with its first thread, made of loose frames. -/
  | spawn {t : Ledger} {p : ProcKva} {P : Process} {i : Nat} {tcb stack : Frame}
      (hp : t.sys.procs p = none) (hi : t.sys.threads[i]? = some none)
      (hloose : ∀ f ∈ childFrameList p P tcb stack, t.owner f = .loose)
      (hnodup : (childFrameList p P tcb stack).Nodup)
      (haligned : ∀ a ∈ P.ownedPages, a % pageSize = 0)
      (hcount : P.threadCount = 1) (hslots : ∀ e ∈ P.handles, SlotOk t.sys e)
      (hno : ∀ e ∈ P.handles, e.kind.isPageset = false) (hmaps : MapsOwned P)
      (hR : ∀ e ∈ P.handles, e.kind ≠ .empty → R.insert p e) :
      Move R t ⟨(t.sys.setProc p P).setThreads
          (t.sys.threads.set i (some ⟨tcb, some p, .directMap stack⟩)),
        fun f => if f ∈ childFrameList p P tcb stack then childOwner p P i tcb stack f
          else t.owner f, t.pending⟩
  /-- A thread of a process with other threads is gone. -/
  | reap {t : Ledger} {p : ProcKva} {P : Process} {i : Nat} {c : Tcb}
      (hi : t.sys.threads[i]? = some (some c)) (hc : c.process = some p)
      (hP : t.sys.procs p = some P) (hcount : 1 < P.threadCount) :
      Move R t ⟨(t.sys.setThreads (t.sys.threads.set i none)).setProc p
          { P with threadCount := P.threadCount - 1 },
        fun f => if t.owner f = .tcb i ∨ t.owner f = .stack i then .loose else t.owner f,
        t.pending⟩
  /-- The last thread of a process is gone, and the process with it. -/
  | reapLast {t : Ledger} {p : ProcKva} {P : Process} {i : Nat} {c : Tcb}
      (hi : t.sys.threads[i]? = some (some c)) (hc : c.process = some p)
      (hP : t.sys.procs p = some P) (hcount : P.threadCount = 1) (hpend : t.pending = []) :
      Move R t ⟨(t.sys.setThreads (t.sys.threads.set i none)).dropProc p,
        fun f => if t.owner f = .tcb i ∨ t.owner f = .stack i ∨ t.owner f = .process p ∨
            t.owner f = .handleTable p ∨ t.owner f = .table p ∨ t.owner f = .owned p
          then .loose else t.owner f, P.handles⟩
  /-- A slot of an exited process is dropped. -/
  | dropPending {t : Ledger} {e : HandleEntry} {es : List HandleEntry}
      (hpend : t.pending = e :: es) :
      Move R t ⟨{ t.sys with headers := fun h => (t.sys.headers h).recount h e .EMPTY },
        t.owner, es⟩

/-- A run of moves. -/
inductive Moves (R : MoveRule) : Ledger → Ledger → Prop where
  | refl {t : Ledger} : Moves R t t
  | tail {t t' t'' : Ledger} (h : Moves R t t') (hm : Move R t' t'') : Moves R t t''

theorem Moves.trans {t'' : Ledger} (h : Moves R t t') (h' : Moves R t' t'') : Moves R t t'' := by
  induction h' with
  | refl => exact h
  | tail _ hm ih => exact .tail ih hm

theorem Move.one (h : Move R t t') : Moves R t t' := .tail .refl h

end Lockjaw.Cap
