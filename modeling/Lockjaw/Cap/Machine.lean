/-
  Lockjaw.Cap.Machine

  The capability system as a whole: the state the boot code hands over, the
  events that change it (the system calls of live processes and the teardown
  of exited threads), and its runs.

  An event is a run of moves, so every run keeps the invariant of the ledger.
  `Event.rule` says what an event may do beyond keeping it: what it maps,
  which handles it hands out, which slots of the PageSet table it fills or
  empties.  `Event.Stops` lists the panics it may end in.
-/

import Lockjaw.Cap.CreateRuns
import Lockjaw.Lib.Replay

namespace Lockjaw.Cap

open Lib Lib.Fallible List
open AddressSpace (vaPages)

/-! ## Boot -/

/-- What `kmain` has set up when it drops to EL0: the free frames, the process
    and thread of init with the pages loaded for it, and the DTB PageSet. -/
structure BootConfig where
  free : Frame → Bool
  dmaFree : Frame → Bool
  kvmFree : Nat
  init : ProcKva
  handleTable : Frame
  tcb : Frame
  space : AddressSpace
  /-- The pages of init's program and stack. -/
  loaded : List Frame
  dtbId : Fin maxPagesets
  dtbHeader : HeaderKva
  dtbFirst : Frame
  dtbCount : Nat
  dtbCount_pos : 0 < dtbCount
  dtbCount_le : dtbCount ≤ 16
  dtbBound : dtbFirst + dtbCount ≤ 2 ^ 36
  nodup : (init :: handleTable :: tcb :: (space.tableFrames ++ loaded)).Nodup
  used : ∀ f ∈ init :: handleTable :: tcb :: (space.tableFrames ++ loaded),
    free f = false ∧ dmaFree f = false
  apart : ∀ f, free f = true → dmaFree f = false
  bound : ∀ f, free f = true ∨ dmaFree f = true ∨
    f ∈ init :: handleTable :: tcb :: (space.tableFrames ++ loaded) → f < 2 ^ 36
  maps : ∀ v e, v < vaPages → space.pte v = some e → e.outputAddr / pageSize ∈ loaded

namespace BootConfig

variable (b : BootConfig)

/-- Init's process: nothing in its handle table, no page of its own. -/
def process : Process where
  space := b.space
  handleTable := b.handleTable
  handles := emptyTable
  threadCount := 1
  ownedPages := []

def dtbEntry : PageSetEntry where
  count := b.dtbCount
  headerKva := b.dtbHeader
  origin := .externallyOwned
  count_pos := b.dtbCount_pos
  count_le := Nat.le_trans b.dtbCount_le (by decide)

def system : System where
  table id := if id = b.dtbId then some b.dtbEntry else none
  used h := decide (h = b.dtbHeader)
  headers h := if h = b.dtbHeader then
      ⟨0, 0, some .externallyOwned, fun i => (b.dtbFirst + i) * pageSize⟩
    else .zeroed
  free := b.free
  dmaFree := b.dmaFree
  kvmFree := b.kvmFree
  threads := some ⟨b.tcb, some b.init, .image⟩ :: replicate (maxThreads - 1) none
  procs p := if p = b.init then some b.process else none
  objects _ := none
  dtbPagesetId := b.dtbId

def owner (f : Frame) : Owner :=
  if f = b.init then .process b.init
  else if f = b.handleTable then .handleTable b.init
  else if f = b.tcb then .tcb 0
  else if f ∈ b.space.tableFrames then .table b.init
  else if f ∈ b.loaded then .boot b.init
  else if b.free f then .free
  else if b.dmaFree f then .dma
  else .other

/-- The boot state with its ledger. -/
def ledger : Ledger := ⟨b.system, b.owner, []⟩

variable {b} {f : Frame}

theorem owner_of_not_mem
    (hf : f ∉ b.init :: b.handleTable :: b.tcb :: (b.space.tableFrames ++ b.loaded)) :
    b.owner f = if b.free f then .free else if b.dmaFree f then .dma else .other := by
  simp only [mem_cons, mem_append, not_or] at hf
  obtain ⟨h1, h2, h3, h4, h5⟩ := hf
  rw [owner, if_neg h1, if_neg h2, if_neg h3, if_neg h4, if_neg h5]

theorem owner_handleTable : b.owner b.handleTable = .handleTable b.init := by
  have hnd := b.nodup
  simp only [nodup_cons, mem_cons, not_or] at hnd
  rw [owner, if_neg fun heq => hnd.1.1 heq.symm, if_pos rfl]

theorem owner_tcb : b.owner b.tcb = .tcb 0 := by
  have hnd := b.nodup
  simp only [nodup_cons, mem_cons, not_or] at hnd
  rw [owner, if_neg fun heq => hnd.1.2.1 heq.symm, if_neg fun heq => hnd.2.1.1 heq.symm, if_pos rfl]

theorem ne_of_mem (hf : f ∈ b.space.tableFrames ++ b.loaded) :
    f ≠ b.init ∧ f ≠ b.handleTable ∧ f ≠ b.tcb := by
  have hnd := b.nodup
  grind

theorem owner_table (hf : f ∈ b.space.tableFrames) : b.owner f = .table b.init := by
  obtain ⟨h1, h2, h3⟩ := b.ne_of_mem (mem_append_left _ hf)
  rw [owner, if_neg h1, if_neg h2, if_neg h3, if_pos hf]

theorem owner_loaded (hf : f ∈ b.loaded) : b.owner f = .boot b.init := by
  obtain ⟨h1, h2, h3⟩ := b.ne_of_mem (mem_append_right _ hf)
  have hnd := b.nodup
  simp only [nodup_cons, nodup_append] at hnd
  have h4 : f ∉ b.space.tableFrames := fun hm => hnd.2.2.2.2.2 f hm f hf rfl
  rw [owner, if_neg h1, if_neg h2, if_neg h3, if_neg h4, if_pos hf]

theorem table_system {id : Fin maxPagesets} {ent : PageSetEntry}
    (h : b.system.table id = some ent) : id = b.dtbId ∧ ent = b.dtbEntry := by grind [system]

theorem procs_system {p : ProcKva} {P : Process} (h : b.system.procs p = some P) :
    p = b.init ∧ P = b.process := by grind [system]

theorem threads_system {i : Nat} {c : Tcb} (h : b.system.threads[i]? = some (some c)) :
    i = 0 ∧ c = ⟨b.tcb, some b.init, .image⟩ := by grind [system]

theorem owns_ledger : Owns b.ledger where
  free f hf := by
    have hf : b.free f = true := hf
    have hnot : f ∉ b.init :: b.handleTable :: b.tcb :: (b.space.tableFrames ++ b.loaded) := by
      intro hm
      rw [(b.used f hm).1] at hf
      cases hf
    show b.owner f = .free
    rw [owner_of_not_mem hnot, if_pos hf]
  dma f hf := by
    have hf : b.dmaFree f = true := hf
    have hnot : f ∉ b.init :: b.handleTable :: b.tcb :: (b.space.tableFrames ++ b.loaded) := by
      intro hm
      rw [(b.used f hm).2] at hf
      cases hf
    have hfree : ¬ b.free f = true := by
      intro hfree
      rw [b.apart f hfree] at hf
      cases hf
    show b.owner f = .dma
    rw [owner_of_not_mem hnot, if_neg hfree, if_pos hf]
  bound f hf := by
    by_cases hm : f ∈ b.init :: b.handleTable :: b.tcb :: (b.space.tableFrames ++ b.loaded)
    · exact b.bound f (.inr (.inr hm))
    · have hf : b.owner f ≠ .other := hf
      rw [owner_of_not_mem hm] at hf
      split at hf
      · next h => exact b.bound f (.inl h)
      split at hf
      · next h => exact b.bound f (.inr (.inl h))
      · exact absurd rfl hf
  data id ent hent hne := by
    obtain ⟨-, rfl⟩ := table_system hent
    exact absurd rfl hne
  procs p P hP := by
    obtain ⟨rfl, rfl⟩ := procs_system hP
    have hnd := b.nodup
    simp only [nodup_cons, nodup_append] at hnd
    exact ⟨if_pos rfl, owner_handleTable, fun f hf => owner_table hf, hnd.2.2.2.1, nofun, nofun,
      nodup_nil⟩
  tcb i c hi := by
    obtain ⟨rfl, rfl⟩ := threads_system hi
    exact owner_tcb
  stack i c f hi hf := by
    obtain ⟨-, rfl⟩ := threads_system hi
    cases hf
  objects f hf := by cases hf

theorem tableOk_system : TableOk b.system where
  used id ent hent := by
    obtain ⟨-, rfl⟩ := table_system hent
    exact decide_eq_true rfl
  unique id id' ent ent' hent hent' _ := by
    rw [(table_system hent).1, (table_system hent').1]
  registered h hh := ⟨b.dtbId, b.dtbEntry, if_pos rfl, (of_decide_eq_true hh).symm⟩
  origin id ent hent := by
    obtain ⟨-, rfl⟩ := table_system hent
    show (if b.dtbHeader = b.dtbHeader then _ else _ : PageSetHeader).origin = _
    rw [if_pos rfl]
    rfl
  dmaRun id ent hent hdma := by
    obtain ⟨-, rfl⟩ := table_system hent
    cases hdma

theorem uniqueProcesses_system : b.system.uniqueProcesses = [b.init] := by
  have hmem : ∀ p, p ∈ b.system.uniqueProcesses ↔ p = b.init := by
    intro p
    rw [System.mem_uniqueProcesses]
    constructor
    · rintro ⟨c, hc, hp⟩
      obtain ⟨i, hi⟩ := getElem?_of_mem hc
      obtain ⟨-, rfl⟩ := threads_system hi
      exact (Option.some.inj hp).symm
    · rintro rfl
      exact ⟨_, mem_cons_self, rfl⟩
  refine perm_singleton.mp ((perm_ext_iff_of_nodup System.nodup_uniqueProcesses
    (nodup_singleton _)).mpr fun p => ?_)
  rw [hmem, mem_singleton]

theorem count_emptyTable {f : HandleEntry → Bool} (hf : f .EMPTY = false) :
    emptyTable.countP f = 0 := by
  rw [countP_eq_zero]
  intro e he
  rw [eq_of_mem_replicate he, hf]
  exact Bool.false_ne_true

theorem threadsOk_system : ThreadsOk b.system where
  process i c hi := by
    obtain ⟨-, rfl⟩ := threads_system hi
    exact ⟨b.init, rfl, by simp [system]⟩
  count p P hP := by
    obtain ⟨rfl, rfl⟩ := procs_system hP
    show 1 = _
    have hzero : (replicate (maxThreads - 1) (none : Option Tcb)).countP
        (threadOf b.init) = 0 := by
      rw [countP_eq_zero]
      intro o ho
      rw [eq_of_mem_replicate ho]
      exact Bool.false_ne_true
    show 1 = countP (threadOf b.init) (_ :: _)
    rw [countP_cons, hzero]
    simp [threadOf]
  pos p P hP := by
    obtain ⟨-, rfl⟩ := procs_system hP
    exact Nat.one_pos

theorem inv_ledger : Inv b.ledger where
  owns := owns_ledger
  table := tableOk_system
  slots :=
    ⟨fun p P hP e he => by
      obtain ⟨-, rfl⟩ := procs_system hP
      rw [eq_of_mem_replicate he]
      exact trivial, nofun⟩
  threads := threadsOk_system
  accounts := by
    have hP : b.system.procs b.init = some b.process := if_pos rfl
    constructor
    · intro id ent hent
      obtain ⟨-, rfl⟩ := table_system hent
      show (if b.dtbHeader = b.dtbHeader then _ else _ : PageSetHeader).refcount = _
      rw [if_pos rfl]
      show 0 = b.system.refsOver _ b.system.uniqueProcesses + _
      rw [uniqueProcesses_system, System.refsOver_cons hP]
      show 0 = countP _ emptyTable + _ + _
      rw [count_emptyTable rfl]
      rfl
    · intro id ent hent
      obtain ⟨-, rfl⟩ := table_system hent
      show (if b.dtbHeader = b.dtbHeader then _ else _ : PageSetHeader).mapCount = _
      rw [if_pos rfl]
      show 0 = b.system.mapsOver _ b.system.uniqueProcesses + _
      rw [uniqueProcesses_system, System.mapsOver_cons hP]
      show 0 = countP _ emptyTable + _ + _
      rw [count_emptyTable rfl]
      rfl

end BootConfig

/-! ## Events -/

/-- A system call on these objects, with what the kernel decides by itself. -/
inductive Call where
  | allocPages (count : Nat) (flags : BitVec 64) (pick : List Frame) (first : Option Frame)
  | allocDmaPages (count : Nat) (first : Option Frame)
  | registerDevicePage (physAddr : PhysAddr)
  | getBootInfo
  | exportHandle (caller : Option ProcKva) (handle : Nat)
  | mapPages (handle va attrRaw : Nat) (pick : List Frame)
  | unmapPages (handle va : Nat)
  | closeHandle (handle : Nat)
  | createEndpoint (handle : Nat)
  | createNotification (handle : Nat)
  | createReply (handle : Nat)
  | createThread (entryPoint stackTop stackBase stackHandle tcbHandle : Nat)
  | createProcess (info : Option CreateArgs)

/-- The call without its return value. -/
def Call.exec (p : ProcKva) : Call → KernelM Unit
  | .allocPages count flags pick first => do let _ ← sysAllocPages p count flags pick first
  | .allocDmaPages count first => do let _ ← sysAllocDmaPages p count first
  | .registerDevicePage physAddr => do let _ ← sysRegisterDevicePage p physAddr
  | .getBootInfo => do let _ ← sysGetBootInfo p
  | .exportHandle caller handle => do let _ ← sysExportHandle p caller handle
  | .mapPages handle va attrRaw pick => sysMapPages p handle va attrRaw pick
  | .unmapPages handle va => sysUnmapPages p handle va
  | .closeHandle handle => sysCloseHandle p handle
  | .createEndpoint handle => do let _ ← sysCreateEndpoint p handle
  | .createNotification handle => do let _ ← sysCreateNotification p handle
  | .createReply handle => do let _ ← sysCreateReply p handle
  | .createThread entryPoint stackTop stackBase stackHandle tcbHandle =>
    sysCreateThread p entryPoint stackTop stackBase stackHandle tcbHandle
  | .createProcess info => sysCreateProcess p info

/-- What happens next: a call of process `p`, or the teardown of the exited thread in slot `i`. -/
inductive Event where
  | call (p : ProcKva) (c : Call)
  | exit (i : Nat)

def Event.exec : Event → KernelM Unit
  | .call p c => c.exec p
  | .exit i => do
    match (← read (·.threads))[i]? with
    | some (some c) => finishExit i c
    | _ => pure ()

/-- The state after an event; `none` if the kernel has stopped. -/
def Event.next (ev : Event) (s : System) : Option System :=
  match ev.exec s with
  | .ok _ s' => some s'
  | .err _ s' => some s'
  | .stop _ => none

/-- The process of the thread a call is made on behalf of. -/
def Call.serves : Call → Option ProcKva
  | .exportHandle caller _ => caller
  | _ => none

/-- When an event can happen.  A call comes from a thread of a live process,
    and so did the call it serves, if any. -/
def Event.Enabled (s : System) : Event → Prop
  | .call p c => p ∈ s.uniqueProcesses ∧ ∀ q ∈ c.serves, q ∈ s.uniqueProcesses
  | .exit i => (s.threads[i]?.join).isSome = true

instance (s : System) : (ev : Event) → Decidable (ev.Enabled s)
  | .call _ _ => inferInstanceAs (Decidable (_ ∧ _))
  | .exit _ => inferInstanceAs (Decidable (_ = true))

/-- The event does not create a process with the process-resources PageSet as
    its scratch PageSet. -/
def Event.Apart (s : System) : Event → Prop
  | .call p (.createProcess (some args)) => ∀ P, s.procs p = some P → args.ScratchApart P
  | _ => True

/-- The event does not create a process with scratch pages that user code has access to. -/
def Event.ScratchPrivate (s : System) : Event → Prop
  | .call p (.createProcess (some args)) => ∀ P, s.procs p = some P → args.ScratchPrivate s P
  | _ => True

/-- Runs from the boot state `b` in which every event satisfies `G`. -/
inductive Run (b : BootConfig) (G : System → Event → Prop) : System → Prop
  | boot : Run b G b.system
  | step {s s' : System} (ev : Event) (hrun : Run b G s) (henabled : ev.Enabled s) (hG : G s ev)
      (hnext : ev.next s = some s') : Run b G s'

/-! ## Events as runs of moves -/

/-- What making a PageSet may do: fill an empty slot of the table, take it
    back, and give the new PageSet to process `p`. -/
def MoveRule.making (s : System) (p : ProcKva) (device : PhysAddr → Prop) : MoveRule where
  map _ _ _ _ := False
  device := device
  insert q e := q = p ∧ ∃ h, s.used h = false ∧ e = ⟨Rights.readWrite, .pageSet h 0#32⟩
  register id := s.table id = none
  unregister id := s.table id = none

/-- What taking PageSets may do, with the handles it hands out: only PageSets
    that have a handle go. -/
def MoveRule.taking (s : System) (insert : ProcKva → HandleEntry → Prop) : MoveRule where
  map _ _ _ _ := False
  device _ := False
  insert := insert
  register _ := False
  unregister id := ∃ ent, Held s id ent

variable {s : System}

theorem MoveRule.taking_frees {insert : ProcKva → HandleEntry → Prop} :
    (MoveRule.taking s insert).Frees s := fun _ ent h => ⟨ent, h⟩

/-- A handle copied from slot `handle` of process `p`. -/
def CopiedFrom (s : System) (p : ProcKva) (handle : Nat) (e' : HandleEntry) : Prop :=
  ∃ P e, s.procs p = some P ∧ P.handles[handle]? = some e ∧ e.kind ≠ .empty ∧ e.CopyOf e'

/-- A handle of process `p` to an object it has just made. -/
def NewObject (s : System) (p : ProcKva) (makeKind : Frame → HandleKind) (q : ProcKva)
    (e : HandleEntry) : Prop :=
  q = p ∧ ∃ f, s.objects f = none ∧ e = ⟨Rights.readWrite, makeKind f⟩

/-- What a call from state `s` may do beyond keeping the invariant. -/
def Call.rule (s : System) (p : ProcKva) : Call → MoveRule
  | .allocPages _ _ _ _ | .allocDmaPages _ _ => .making s p fun _ => False
  | .registerDevicePage physAddr => .making s p (· = physAddr)
  | .getBootInfo => { MoveRule.closed with
      insert := fun q e => q = p ∧ ∃ ent, s.table s.dtbPagesetId = some ent ∧
        e = ⟨Rights.readWrite, .pageSet ent.headerKva 0#32⟩ }
  | .exportHandle caller handle => { MoveRule.closed with
      insert := fun q e => caller = some q ∧ CopiedFrom s p handle e }
  | .mapPages handle va _ _ => { MoveRule.closed with
      map := fun s' q v n => q = p ∧ v = va / pageSize ∧ s'.procs = s.procs ∧ s'.table = s.table ∧
        ∃ P r id ent, s.procs p = some P ∧ s.table id = some ent ∧ n = ent.count ∧
          P.handles[handle]? = some ⟨r, .pageSet ent.headerKva 0#32⟩ }
  | .unmapPages _ _ => .closed
  | .closeHandle _ | .createThread _ _ _ _ _ => .taking s fun _ _ => False
  | .createEndpoint _ => .taking s (NewObject s p (.endpoint · none))
  | .createNotification _ => .taking s (NewObject s p .notification)
  | .createReply _ => .taking s (NewObject s p .reply)
  | .createProcess info => .taking s fun q e => s.procs q = none ∧
      ∃ args handle, info = some args ∧ args.parentHandleToCopy = some handle ∧
        CopiedFrom s p handle e

def Event.rule (s : System) : Event → MoveRule
  | .call p c => c.rule s p
  | .exit _ => .taking s fun _ _ => False

/-- The panics an event may end in. -/
inductive Event.Stops (s : System) : Event → Panic → Prop where
  | bootInfoRef {p : ProcKva} : Stops s (.call p .getBootInfo) .refcountOverflow
  | exportRef {p : ProcKva} {caller : Option ProcKva} {handle : Nat} :
      Stops s (.call p (.exportHandle caller handle)) .refcountOverflow
  | exportToken {p : ProcKva} {caller : Option ProcKva} {handle : Nat} :
      Stops s (.call p (.exportHandle caller handle)) .tokenExhausted
  | mapCount {p : ProcKva} {handle va attrRaw : Nat} {pick : List Frame} :
      Stops s (.call p (.mapPages handle va attrRaw pick)) .mapCountOverflow
  | create {p : ProcKva} {P : Process} {args : CreateArgs} {pn : Panic}
      (hP : s.procs p = some P) (hpn : CreateStops s P args pn) :
      Stops s (.call p (.createProcess (some args))) pn
  | bootExit {i : Nat} {c : Tcb} (hc : s.threads[i]? = some (some c)) (himage : c.stack = .image) :
      Stops s (.exit i) .bootTcbExited
  | ownedPages {i : Nat} {p : ProcKva} {P : Process} (hP : s.procs p = some P)
      (hlen : maxOwnedPages < P.ownedPages.length) : Stops s (.exit i) .ownedPagesIndex

section Events

variable {t : Ledger} {R : MoveRule} {C : Panic → Prop}

/-- Forgetting the return value. -/
theorem Runs.discard {α : Type} {m : KernelM α} {Q : Ledger → Prop}
    {E : SyscallError → Ledger → Prop} (hinv : Inv t) (h : Runs R t m (fun _ t' => Q t') E C) :
    Runs R t (do let _ ← m) (fun _ t' => Q t') E C :=
  .bind hinv (h.mono (fun _ _ _ hq _ => .pure hq) (fun _ _ _ he => he) fun _ hp => hp)

variable {p : ProcKva} {ev : Event}

theorem Inv.live (hinv : Inv t) (hp : p ∈ t.sys.uniqueProcesses) : ∃ P, t.sys.procs p = some P :=
  Option.isSome_iff_exists.mp (hinv.threads.mem_uniqueProcesses.mp hp)

section

variable (hinv : Inv t) (hpend : t.pending = [])
include hinv hpend

theorem Call.runs {c : Call}
    (henabled : Event.Enabled t.sys (.call p c)) (hapart : Event.Apart t.sys (.call p c)) :
    Runs (c.rule t.sys p) t (c.exec p) (fun _ t' => Settled t t') (fun _ t' => Settled t t')
      (Event.Stops t.sys (.call p c)) := by
  obtain ⟨P, hP⟩ := hinv.live henabled.1
  -- each call has its own rule: what it may take from others and what it may make
  cases c with
  | allocPages count flags pick first =>
    exact .discard hinv (sysAllocPages_runs (R := .making t.sys p fun _ => False) hinv hpend hP
      (fun _ h => ⟨h, h⟩) (fun h hu => ⟨rfl, h, hu, rfl⟩) count flags pick first)
  | allocDmaPages count first =>
    exact .discard hinv (sysAllocDmaPages_runs (R := .making t.sys p fun _ => False) hinv hpend hP
      (fun _ h => ⟨h, h⟩) (fun h hu => ⟨rfl, h, hu, rfl⟩) count first)
  | registerDevicePage physAddr =>
    exact .discard hinv (sysRegisterDevicePage_runs (R := .making t.sys p (· = physAddr)) hinv
      hpend hP (fun _ h => ⟨h, h⟩) (fun h hu => ⟨rfl, h, hu, rfl⟩) rfl)
  | getBootInfo =>
    exact .discard hinv (sysGetBootInfo_runs hinv hpend hP
      (fun ent hent => ⟨rfl, ent, hent, rfl⟩) .bootInfoRef)
  | exportHandle caller handle =>
    refine .discard hinv (sysExportHandle_runs hinv hpend hP (fun q hq => ?_)
      (fun q e e' hq he hne hcopy => ⟨hq, P, e, hP, he, hne, hcopy⟩) .exportRef .exportToken)
    exact hinv.threads.mem_uniqueProcesses.mp (henabled.2 q hq)
  | mapPages handle va attrRaw pick =>
    exact sysMapPages_runs hinv hpend hP .mapCount handle va attrRaw pick
      fun s r id ent hs htab hent he => ⟨rfl, rfl, hs, htab, P, r, id, ent, hP, hent, rfl, he⟩
  | unmapPages handle va => exact sysUnmapPages_runs hinv hpend hP handle va
  | closeHandle handle => exact sysCloseHandle_runs hinv hpend hP MoveRule.taking_frees handle
  | createEndpoint handle =>
    exact .discard hinv (sysCreateEndpoint_runs hinv hpend hP handle MoveRule.taking_frees
      fun f hf => ⟨rfl, f, hf, rfl⟩)
  | createNotification handle =>
    exact .discard hinv (sysCreateNotification_runs hinv hpend hP handle MoveRule.taking_frees
      fun f hf => ⟨rfl, f, hf, rfl⟩)
  | createReply handle =>
    exact .discard hinv (sysCreateReply_runs hinv hpend hP handle MoveRule.taking_frees
      fun f hf => ⟨rfl, f, hf, rfl⟩)
  | createThread entryPoint stackTop stackBase stackHandle tcbHandle =>
    exact sysCreateThread_runs hinv hpend hP entryPoint stackTop stackBase stackHandle tcbHandle
      MoveRule.taking_frees
  | createProcess info =>
    refine (sysCreateProcess_runs (R := Call.rule t.sys p (.createProcess info)) hinv hpend hP
      MoveRule.taking_frees (fun args hargs => ?_)
      (fun args handle q e e' hargs hcopy hq he hne hce =>
        ⟨hq, args, handle, hargs, hcopy, P, e, hP, he, hne, hce⟩)
      fun args pn hargs hstop => ?_).mono (fun _ t' _ hdone => ?_) (fun _ t' _ heq => ?_)
      fun _ h => h
    · subst hargs
      exact hapart P hP
    · subst hargs
      exact .create hP hstop
    · obtain ⟨args, -, ⟨donation, child, parent, built, -, -, hcreated⟩⟩ := hdone
      exact hcreated.settled
    · rw [heq]
      exact .refl hpend

/-- An event is a run of moves under its rule, and leaves no PageSet behind
    that nothing refers to. -/
theorem Event.runs (henabled : ev.Enabled t.sys) (hapart : ev.Apart t.sys) :
    Runs (ev.rule t.sys) t ev.exec (fun _ t' => Settled t t') (fun _ t' => Settled t t')
      (ev.Stops t.sys) := by
  cases ev with
  | call p c => exact Call.runs hinv hpend henabled hapart
  | exit i =>
    obtain ⟨c, hc⟩ := Option.isSome_iff_exists.mp henabled
    rw [Option.join_eq_some_iff] at hc
    refine .bind_read ?_
    rw [hc]
    exact finishExit_runs hinv hpend hc MoveRule.taking_frees (fun himage => .bootExit hc himage)
      fun _ _ hP hlen => .ownedPages hP hlen

theorem Event.next_moves (henabled : ev.Enabled t.sys) (hapart : ev.Apart t.sys) {s' : System}
    (hnext : ev.next t.sys = some s') :
    ∃ t', t'.sys = s' ∧ Moves (ev.rule t.sys) t t' ∧ Settled t t' := by
  have hruns := Event.runs hinv hpend henabled hapart
  unfold Event.next at hnext
  unfold Runs at hruns
  cases hexec : ev.exec t.sys with
  | ok u s =>
    rw [hexec] at hnext hruns
    cases hnext
    exact hruns
  | err e s =>
    rw [hexec] at hnext hruns
    cases hnext
    exact hruns
  | stop pn =>
    rw [hexec] at hnext
    cases hnext

end

end Events

/-! ## Runs -/

/-- What holds at boot and is kept by every event holds throughout a run; the
    ledger's invariant may be used on the way. -/
theorem Run.induct {b : BootConfig} {G : System → Event → Prop} {J : Ledger → Prop}
    (hG : ∀ s ev, G s ev → ev.Apart s) (hboot : J b.ledger)
    (hstep : ∀ (t t' : Ledger) (ev : Event), Inv t → t.pending = [] → J t → ev.Enabled t.sys →
      G t.sys ev → Moves (ev.rule t.sys) t t' → Settled t t' → ev.next t.sys = some t'.sys → J t')
    (hrun : Run b G s) : ∃ t, t.sys = s ∧ Inv t ∧ t.pending = [] ∧ J t := by
  induction hrun with
  | boot => exact ⟨b.ledger, rfl, BootConfig.inv_ledger, rfl, hboot⟩
  | step ev _ henabled hGev hnext ih =>
    obtain ⟨t, rfl, hinv, hpend, hJ⟩ := ih
    obtain ⟨t', hs, hmoves, hset⟩ := Event.next_moves hinv hpend henabled (hG _ _ hGev) hnext
    exact ⟨t', hs, hmoves.inv hinv, hset.pending,
      hstep t t' ev hinv hpend hJ henabled hGev hmoves hset (hs ▸ hnext)⟩

theorem Run.inv {b : BootConfig} (hrun : Run b (fun s ev => ev.Apart s) s) :
    ∃ t, t.sys = s ∧ Inv t ∧ t.pending = [] := by
  obtain ⟨t, hs, hinv, hpend, -⟩ := hrun.induct (J := fun _ => True) (fun _ _ h => h) trivial
    fun _ _ _ _ _ _ _ _ _ _ _ => trivial
  exact ⟨t, hs, hinv, hpend⟩

/-- Events that can be evaluated. -/
theorem Run.exists_of_events (b : BootConfig) (G : System → Event → Prop)
    [∀ s ev, Decidable (G s ev)] (evs : List Event) {Q : System → Prop}
    (h : ∃ s ∈ replay (fun s ev => decide (ev.Enabled s ∧ G s ev)) (fun s ev => ev.next s) b.system
      evs, Q s) : ∃ s, Run b G s ∧ Q s :=
  exists_of_replay evs .boot (fun _ _ ev hrun henabled hnext =>
    .step ev hrun (of_decide_eq_true henabled).1 (of_decide_eq_true henabled).2 hnext) h

instance (s : System) (ev : Event) : Decidable (ev.Apart s) :=
  decidable_of_iff ((match ev with
    | .call p (.createProcess (some args)) => decide (∀ P ∈ s.procs p, args.ScratchApart P)
    | _ => true) = true) (by unfold Event.Apart; split <;> simp)

instance (s : System) (ev : Event) : Decidable (ev.ScratchPrivate s) :=
  decidable_of_iff ((match ev with
    | .call p (.createProcess (some args)) => decide (∀ P ∈ s.procs p, args.ScratchPrivate s P)
    | _ => true) = true) (by unfold Event.ScratchPrivate; split <;> simp)

/-! ## A small machine -/

/-- Init's address space: one page of program. -/
def smallSpace : AddressSpace where
  l0 := 13
  l1 := 14
  l2 := 15
  tables i := if i = 2 then
      some ⟨16, fun j => if j = 0 then some (buildProcessPage (17 * pageSize) true true) else none⟩
    else none

/-- Init in frames 10 to 17, frames 64 to 511 free, no DMA pool, and a DTB of
    one page outside the RAM of the allocator. -/
def smallBoot : BootConfig where
  free f := decide (64 ≤ f ∧ f < 512)
  dmaFree _ := false
  kvmFree := 64
  init := 10
  handleTable := 11
  tcb := 12
  space := smallSpace
  loaded := [17]
  dtbId := 0
  dtbHeader := 0
  dtbFirst := 1024
  dtbCount := 1
  dtbCount_pos := Nat.zero_lt_one
  dtbCount_le := by decide
  dtbBound := by decide
  nodup := by decide +kernel
  used := by decide +kernel
  apart := fun _ _ => rfl
  bound := by
    have hused : ∀ f ∈ 10 :: 11 :: 12 :: (smallSpace.tableFrames ++ [17]), f < 2 ^ 36 := by
      decide +kernel
    rintro f (hf | hf | hf)
    · have hlt : f < 512 := (of_decide_eq_true hf).2
      exact Nat.lt_trans hlt (by decide)
    · cases hf
    · exact hused f hf
  maps := by
    intro v e hv he
    rw [AddressSpace.pte_eq hv] at he
    simp only [smallSpace] at he
    split at he
    · split at he
      · simp only [Option.bind_some] at he
        split at he
        · cases he
          decide
        · cases he
      · cases he
    · cases he

/-- A process with one page of program and one stack page; the four PageSets
    of the call are in slots 0 to 3. -/
def childArgs : CreateArgs where
  written i := [⟨0x400000, 1, 0, 1#64⟩][i]?
  mappingCount := 1
  stackPageset := 2
  scratchPageset := 3
  parentHandleToCopy := none
  processResources := 0
  overlay := .fails .outOfMemory

/-- Init makes that process; it lives in frame 100. -/
def childRun : List Event :=
  [.call 10 (.allocPages 15 0#64 (frameRun 100 15) none),
   .call 10 (.allocPages 1 0#64 [130] none),
   .call 10 (.allocPages 1 0#64 [131] none),
   .call 10 (.allocPages 1 0#64 [132] none),
   .call 10 (.createProcess (some childArgs))]

end Lockjaw.Cap
