/-
  Lockjaw.User.VirtioBlk

  The virtio-blk driver's block engine, in its release build: sector numbers
  and counts are 64-bit words that wrap, and the length of the data segment is
  the low 32 bits of the byte count.

  The engine keeps, next to its own state, its process's handle table and
  every descriptor chain it has put on the virtqueue.  `EngineOk` ties the
  table of DMA buffers to the handles it stands for; `Sized` says that a
  buffer is as large as the sector count recorded for it, which is true as
  long as no allocation request wraps.  Both need that no buffer is donated
  while the driver has it.
-/

import Mathlib.Data.UInt
import Lockjaw.User.Dma

namespace Lockjaw.User.VirtioBlk

open Lib List
open Cap (pageSize maxPracticalPagesPerSet)

/-! ## The engine -/

def maxDmaBuffers : Nat := 8

/-- Size of `VirtioBlkReqHeader`, which is also where the status byte is. -/
def statusOffset : UInt64 := 16

def virtioBlkTIn : UInt32 := 0
def virtioBlkTOut : UInt32 := 1
def virtioBlkSOk : UInt8 := 0

inductive Direction where
  | deviceReadable
  | deviceWritable
  deriving DecidableEq, Repr

structure Segment where
  pa : UInt64
  len : UInt32
  direction : Direction
  deriving DecidableEq, Repr

/-- A chain submitted to the virtqueue, with the request header it points to. -/
structure Chain where
  reqType : UInt32
  sector : UInt64
  header : Segment
  data : Segment
  status : Segment
  deriving DecidableEq, Repr

structure DmaBuffer where
  ps : PageSetHandle
  pa : UInt64
  sectorCount : UInt64
  deriving DecidableEq, Repr

def dmaBufferEmpty : DmaBuffer := ⟨0, 0, 0⟩

structure VirtioBlkEngine where
  capacity : UInt64
  reqPagePa : UInt64
  numFree : Nat
  dmaBuffers : List DmaBuffer
  dmaCount : Nat
  process : Process
  queue : List Chain

/-- What the kernel and the device answer during one request: the memory for an allocation, whether
    the wait for the interrupt succeeded, and the status byte the device left. -/
structure Answers where
  alloc : AllocAnswer
  irqOk : Bool
  status : UInt8

namespace VirtioBlkEngine

def info (e : VirtioBlkEngine) : BlockInfo := ⟨e.capacity, 512, .normal⟩

def allocBuffer (ctx : Ctx Answers) (sectorCount : UInt64) (e : VirtioBlkEngine) :
    Except BlockError PageSetHandle × VirtioBlkEngine :=
  if e.dmaCount ≥ maxDmaBuffers then (.error .allocFailed, e)
  else
    let pages := (sectorCount * 512 + 4096 - 1) / 4096
    match allocDmaBacking ctx.answers.alloc pages e.process with
    | none => (.error .allocFailed, e)
    | some (backing, process) =>
      match setFirst (·.pa == 0) ⟨backing.pageset, backing.pa, sectorCount⟩ e.dmaBuffers with
      | some dmaBuffers =>
        (.ok backing.pageset, { e with dmaBuffers, dmaCount := e.dmaCount + 1, process })
      | none =>
        (.error .allocFailed, { e with process := closeDmaBacking backing.pageset process })

/-- The test `find_buffer` and `free_buffer` make on a slot. -/
def hit (ps : PageSetHandle) (b : DmaBuffer) : Bool := b.ps == ps && b.pa != 0

def findBuffer (ps : PageSetHandle) (e : VirtioBlkEngine) : Option DmaBuffer :=
  e.dmaBuffers.find? (hit ps)

/-- The three-segment chain of a request. -/
def chainOf (reqType : UInt32) (sector count dataPa : UInt64) (e : VirtioBlkEngine) : Chain where
  reqType := reqType
  sector := sector
  header := ⟨e.reqPagePa, 16, .deviceReadable⟩
  data := ⟨dataPa, (count * 512).toUInt32,
    if reqType = virtioBlkTIn then .deviceWritable else .deviceReadable⟩
  status := ⟨e.reqPagePa + statusOffset, 1, .deviceWritable⟩

/-- Submit the chain and wait for the device.  A failed wait leaves the chain's
    descriptors allocated. -/
def doIo (ctx : Ctx Answers) (reqType : UInt32) (sector count dataPa : UInt64)
    (e : VirtioBlkEngine) : Except BlockError Unit × VirtioBlkEngine :=
  if 3 > e.numFree then (.error .allocFailed, e)
  else
    let chain := e.chainOf reqType sector count dataPa
    let e := { e with queue := e.queue ++ [chain], numFree := e.numFree - 3 }
    if ctx.answers.irqOk = false then (.error .ioError, e)
    else
      let e := { e with numFree := e.numFree + 3 }
      if ctx.answers.status ≠ virtioBlkSOk then (.error .ioError, e) else (.ok (), e)

/-- `read` and `write` make the same checks. -/
def checkedIo (reqType : UInt32) (ctx : Ctx Answers) (sector count : UInt64)
    (buffer : PageSetHandle) (e : VirtioBlkEngine) : Except BlockError Unit × VirtioBlkEngine :=
  match e.findBuffer buffer with
  | none => (.error .invalidBuffer, e)
  | some buf =>
    if count > buf.sectorCount ∨ sector + count > e.capacity then (.error .invalidParameter, e)
    else e.doIo ctx reqType sector count buf.pa

def read : Ctx Answers → UInt64 → UInt64 → PageSetHandle → VirtioBlkEngine →
    Except BlockError Unit × VirtioBlkEngine := checkedIo virtioBlkTIn

def write : Ctx Answers → UInt64 → UInt64 → PageSetHandle → VirtioBlkEngine →
    Except BlockError Unit × VirtioBlkEngine := checkedIo virtioBlkTOut

def freeBuffer (_ : Ctx Answers) (buffer : PageSetHandle) (e : VirtioBlkEngine) :
    VirtioBlkEngine :=
  match e.findBuffer buffer, setFirst (hit buffer) dmaBufferEmpty e.dmaBuffers with
  | some slot, some dmaBuffers =>
    { e with dmaBuffers, dmaCount := e.dmaCount - 1,
             process := closeDmaBacking slot.ps e.process }
  | _, _ => e

end VirtioBlkEngine

def engine : BlockEngine Answers VirtioBlkEngine PageSet where
  info := VirtioBlkEngine.info
  allocBuffer := VirtioBlkEngine.allocBuffer
  read := VirtioBlkEngine.read
  write := VirtioBlkEngine.write
  freeBuffer := VirtioBlkEngine.freeBuffer
  pageSet e h := e.process.handles h
  revoke given e := { e with process := e.process.revoke given }
  Unheld given e := e.process.Unheld given

/-- The engine when `run_block_server` starts: the self-test's buffer has been freed again. -/
def VirtioBlkEngine.boot (capacity reqPagePa : UInt64) (numFree : Nat) (process : Process) :
    VirtioBlkEngine :=
  ⟨capacity, reqPagePa, numFree, replicate maxDmaBuffers dmaBufferEmpty, 0, process, []⟩

/-! ## What the methods do -/

namespace VirtioBlkEngine

variable {ctx : Ctx Answers} {n sector count : UInt64} {h : PageSetHandle} {e e' : VirtioBlkEngine}

theorem allocBuffer_ok (ha : e.allocBuffer ctx n = (.ok h, e')) :
    ∃ b p slots, allocDmaBacking ctx.answers.alloc ((n * 512 + 4096 - 1) / 4096) e.process =
        some (b, p) ∧ setFirst (·.pa == 0) ⟨h, b.pa, n⟩ e.dmaBuffers = some slots ∧
      b.pageset = h ∧
      e' = { e with dmaBuffers := slots, dmaCount := e.dmaCount + 1, process := p } := by
  grind [allocBuffer]

/-- A failed allocation leaves the engine as it was; memory that found no slot is given back. -/
theorem allocBuffer_error {err : BlockError} (ha : e.allocBuffer ctx n = (.error err, e')) :
    e'.dmaBuffers = e.dmaBuffers ∧ e'.process.handles = e.process.handles ∧
      e.process.created ≤ e'.process.created ∧ e'.queue = e.queue ∧ e'.capacity = e.capacity := by
  unfold allocBuffer at ha
  split at ha
  · cases ha
    exact ⟨rfl, rfl, Nat.le_refl _, rfl, rfl⟩
  dsimp only at ha
  split at ha
  · cases ha
    exact ⟨rfl, rfl, Nat.le_refl _, rfl, rfl⟩
  · rename_i b p hb
    obtain ⟨hfresh, m, -, -, rfl⟩ := allocDmaBacking_some hb
    split at ha
    · cases ha
    · cases ha
      -- closing a handle just opened restores the table
      refine ⟨rfl, ?_, Nat.le_succ _, rfl, rfl⟩
      simp [closeDmaBacking, Process.create, ← hfresh]

/-- A request for I/O changes nothing but the virtqueue, where it puts at most
    one chain: the one for a buffer large enough, inside the capacity. -/
theorem checkedIo_effect (reqType : UInt32) (ctx : Ctx Answers) (sector count : UInt64)
    (h : PageSetHandle) (e : VirtioBlkEngine) :
    ∃ queue numFree, (checkedIo reqType ctx sector count h e).2 = { e with queue, numFree } ∧
      (queue = e.queue ∨ ∃ buf, e.findBuffer h = some buf ∧
        ¬ (count > buf.sectorCount ∨ sector + count > e.capacity) ∧
        queue = e.queue ++ [e.chainOf reqType sector count buf.pa]) := by
  unfold checkedIo
  split
  · exact ⟨e.queue, e.numFree, rfl, Or.inl rfl⟩
  · rename_i buf hbuf
    split_ifs with hcheck
    · exact ⟨e.queue, e.numFree, rfl, Or.inl rfl⟩
    · unfold doIo
      dsimp only
      split_ifs
      · exact ⟨e.queue, e.numFree, rfl, Or.inl rfl⟩
      all_goals exact ⟨_, _, rfl, Or.inr ⟨buf, hbuf, hcheck, rfl⟩⟩

theorem hit_eq_true {b : DmaBuffer} : hit h b = true ↔ b.ps = h ∧ b.pa ≠ 0 := by
  simp [hit]

theorem findBuffer_eq_some {b : DmaBuffer} (hf : e.findBuffer h = some b) :
    b ∈ e.dmaBuffers ∧ b.ps = h ∧ b.pa ≠ 0 :=
  ⟨mem_of_find?_eq_some hf, hit_eq_true.mp (find?_some hf)⟩

/-- Freeing an unknown handle does nothing; freeing a buffer closes its handle
    and empties its slot. -/
theorem freeBuffer_cases (ctx : Ctx Answers) (h : PageSetHandle) (e : VirtioBlkEngine) :
    e.freeBuffer ctx h = e ∨ ∃ slots, setFirst (hit h) dmaBufferEmpty e.dmaBuffers = some slots ∧
      e.freeBuffer ctx h = { e with dmaBuffers := slots, dmaCount := e.dmaCount - 1,
                                    process := closeDmaBacking h e.process } := by
  unfold freeBuffer
  split
  · rename_i b slots hf hs
    obtain ⟨-, rfl, -⟩ := findBuffer_eq_some hf
    exact Or.inr ⟨slots, hs, rfl⟩
  · exact Or.inl rfl

end VirtioBlkEngine

/-! ## The engine's invariant -/

open VirtioBlkEngine

/-- Two live slots hold different handles. -/
def BuffersApart (b b' : DmaBuffer) : Prop := b.pa ≠ 0 → b'.pa ≠ 0 → b.ps ≠ b'.ps

theorem BuffersApart.symm {b b' : DmaBuffer} (h : BuffersApart b b') : BuffersApart b' b :=
  fun hb hb' heq => h hb' hb heq.symm

theorem BuffersApart.empty (b : DmaBuffer) :
    BuffersApart b dmaBufferEmpty ∧ BuffersApart dmaBufferEmpty b :=
  ⟨fun _ h => absurd rfl h, fun h => absurd rfl h⟩

/-- A live slot records an open handle and the address of its PageSet. -/
structure EngineOk (e : VirtioBlkEngine) : Prop where
  numbered : e.process.Numbered
  opened : ∀ b ∈ e.dmaBuffers, b.pa ≠ 0 → ∃ P, e.process.handles b.ps = some P ∧ P.pa = b.pa
  apart : e.dmaBuffers.Pairwise BuffersApart

/-- Every live buffer holds as many sectors as its slot says. -/
def Sized (e : VirtioBlkEngine) : Prop :=
  ∀ b ∈ e.dmaBuffers, b.pa ≠ 0 → ∀ P, e.process.handles b.ps = some P →
    512 * b.sectorCount.toNat ≤ P.pages * pageSize ∧ P.pages ≤ maxPracticalPagesPerSet

def Created (e : VirtioBlkEngine) (P : PageSet) : Prop := P.serial < e.process.created

section

variable {ctx : Ctx Answers} {n : UInt64} {h : PageSetHandle} {e e' : VirtioBlkEngine}

theorem engineOk_boot (capacity reqPagePa : UInt64) (numFree : Nat) {p : Process}
    (hp : p.Numbered) : EngineOk (boot capacity reqPagePa numFree p) where
  numbered := hp
  opened b hb hne := by
    simp only [boot, mem_replicate] at hb
    exact absurd (by rw [hb.2]; rfl) hne
  apart := by
    simp only [boot, pairwise_replicate]
    exact Or.inr (BuffersApart.empty _).1

/-- A live slot's handle is open, so it is not one that was closed. -/
theorem EngineOk.ps_ne (hE : EngineOk e) (hfresh : e.process.handles h = none) {b : DmaBuffer}
    (hb : b ∈ e.dmaBuffers) (hlive : b.pa ≠ 0) : b.ps ≠ h := by
  rintro rfl
  obtain ⟨P, hP, -⟩ := hE.opened b hb hlive
  rw [hfresh] at hP
  cases hP

theorem EngineOk.alloc (hE : EngineOk e) (ha : e.allocBuffer ctx n = (.ok h, e')) :
    EngineOk e' ∧ Keeps engine Created (fun _ => False) e e' ∧ e.process.handles h = none ∧
      ∃ P, e'.process.handles h = some P ∧ ¬ Created e P ∧ Created e' P := by
  obtain ⟨b, p, slots, hb, hs, rfl, rfl⟩ := allocBuffer_ok ha
  obtain ⟨hfresh, m, -, -, rfl⟩ := allocDmaBacking_some hb
  have hkeep : ∀ h' P, e.process.handles h' = some P →
      (e.process.create b.pageset b.pa m).handles h' = some P := by
    intro h' P hP
    rw [Process.create_of_ne, hP]
    rintro rfl
    rw [hfresh] at hP
    cases hP
  refine ⟨⟨hE.numbered.create, ?_, ?_⟩, ⟨fun h' P _ hP => hkeep h' P hP, ?_⟩, hfresh,
    _, Process.create_self .., Nat.lt_irrefl _, Nat.lt_succ_self _⟩
  · refine setFirst_forall hs (fun b' hb' hlive => ?_) fun _ => ?_
    all_goals grind [hE.opened, Process.create_self]
  · refine setFirst_pairwise hs hE.apart fun b' hb' => ?_
    have hne : BuffersApart b' ⟨b.pageset, b.pa, n⟩ :=
      fun hlive _ => hE.ps_ne hfresh hb' hlive
    exact ⟨hne, hne.symm⟩
  · exact fun P hP => Nat.lt_succ_of_lt hP

theorem EngineOk.free (hE : EngineOk e) (ctx : Ctx Answers) (h : PageSetHandle) :
    EngineOk (e.freeBuffer ctx h) ∧
      Keeps engine Created (fun h' => h' = h) e (e.freeBuffer ctx h) := by
  rcases freeBuffer_cases ctx h e with heq | ⟨slots, hs, heq⟩
  · rw [heq]
    exact ⟨hE, .refl e⟩
  · rw [heq]
    refine ⟨⟨hE.numbered.close, ?_, ?_⟩, ⟨?_, fun P hP => hP⟩⟩
    · intro b hb hlive
      rcases setFirst_apart hs hE.apart (fun _ _ h => h.symm) hb with rfl | ⟨b0, hb0, hap⟩
      · exact absurd rfl hlive
      · obtain ⟨-, rfl, hlive0⟩ := findBuffer_eq_some hb0
        obtain ⟨P, hP, hpa⟩ := hE.opened b
          ((setFirst_mem hs hb).resolve_left fun h => hlive (by rw [h]; rfl)) hlive
        exact ⟨P, (closeDmaBacking_of_ne (hap hlive hlive0)).trans hP, hpa⟩
    · exact setFirst_pairwise hs hE.apart fun b _ => BuffersApart.empty b
    · exact fun h' P hne hP => (closeDmaBacking_of_ne hne).trans hP

theorem EngineOk.io (hE : EngineOk e) (reqType : UInt32) (ctx : Ctx Answers)
    (sector count : UInt64) (h : PageSetHandle) :
    EngineOk (checkedIo reqType ctx sector count h e).2 ∧
      Keeps engine Created (fun _ => False) e (checkedIo reqType ctx sector count h e).2 := by
  obtain ⟨queue, numFree, heq, -⟩ := checkedIo_effect reqType ctx sector count h e
  rw [heq]
  exact ⟨⟨hE.numbered, hE.opened, hE.apart⟩, ⟨fun _ _ _ hP => hP, fun _ hP => hP⟩⟩

end

theorem engine_lawful : engine.Lawful (fun _ => True) EngineOk Created where
  alloc_within _ := trivial
  read_within _ := trivial
  write_within _ := trivial
  free_within _ := trivial
  alloc_ok hE _ ha := hE.alloc ha
  alloc_error hE _ ha := by
    obtain ⟨hbuf, hhandles, hle, -⟩ := allocBuffer_error ha
    refine ⟨⟨?_, ?_, ?_⟩, ⟨?_, ?_⟩⟩
    · exact fun h P hP => Nat.lt_of_lt_of_le (hE.numbered h P (by rwa [hhandles] at hP)) hle
    · rw [hbuf, hhandles]
      exact hE.opened
    · rw [hbuf]
      exact hE.apart
    · exact fun h P _ hP => (congrFun hhandles h).trans hP
    · exact fun P hP => Nat.lt_of_lt_of_le hP hle
  read ctx sector count h _ hE _ := hE.io virtioBlkTIn ctx sector count h
  write ctx sector count h _ hE _ := hE.io virtioBlkTOut ctx sector count h
  free {ctx h _} hE _ := hE.free ctx h
  revoke {_ e} h := congrArg (fun p => { e with process := p }) (Process.revoke_eq_self h)

/-! ## Buffer sizes -/

/-- An allocation request whose byte count, rounded up to pages, is a 64-bit number. -/
def AllocFits (msg : Words) : Prop :=
  msg.w0 = cmdAllocBuffer → msg.w1.toNat * 512 + 4095 < 2 ^ 64

/-- No allocation wraps, and no PageSet that the driver holds is donated. -/
def Proper (S : Service VirtioBlkEngine PageSet) : ServiceEvent Answers PageSet → Prop
  | .request _ msg => AllocFits msg
  | .donated given => S.server.engine.process.Unheld given

section

variable {ctx : Ctx Answers} {msg : Words} {n : UInt64} {h : PageSetHandle}
  {e e' : VirtioBlkEngine} {S : Service VirtioBlkEngine PageSet}

theorem pages_cover (hn : n.toNat * 512 + 4095 < 2 ^ 64) :
    512 * n.toNat ≤ ((n * 512 + 4096 - 1) / 4096).toNat * pageSize := by
  have hval : ((n * 512 + 4096 - 1) / 4096).toNat = (n.toNat * 512 + 4095) / 4096 := by
    simp only [UInt64.toNat_div, UInt64.toNat_sub, UInt64.toNat_add, UInt64.toNat_mul,
      UInt64.reduceToNat]
    omega
  rw [hval, pageSize]
  omega

theorem Sized.alloc (hS : Sized e) (hE : EngineOk e) (hn : n.toNat * 512 + 4095 < 2 ^ 64)
    (ha : e.allocBuffer ctx n = (.ok h, e')) : Sized e' := by
  obtain ⟨b, p, slots, hb, hs, rfl, rfl⟩ := allocBuffer_ok ha
  obtain ⟨hfresh, m, hm, hmax, rfl⟩ := allocDmaBacking_some hb
  refine setFirst_forall hs (fun b' hb' hlive P hP => ?_) fun _ P hP => ?_
  · exact hS b' hb' hlive P
      (by rwa [Process.create_of_ne (hE.ps_ne hfresh hb' hlive)] at hP)
  · rw [Process.create_self] at hP
    cases hP
    exact ⟨Nat.le_trans (pages_cover hn) (Nat.mul_le_mul_right _ hm), hmax⟩

theorem Sized.free (hS : Sized e) (ctx : Ctx Answers) (h : PageSetHandle) :
    Sized (e.freeBuffer ctx h) := by
  rcases freeBuffer_cases ctx h e with heq | ⟨slots, hs, heq⟩
  · rw [heq]
    exact hS
  · rw [heq]
    intro b hb hlive P hP
    have hold := (setFirst_mem hs hb).resolve_left fun h => hlive (by rw [h]; rfl)
    refine hS b hold hlive P ?_
    grind [closeDmaBacking_of_ne, closeDmaBacking_self]

/-- Both I/O methods of the engine are `checkedIo`. -/
theorem method_eq {method : Ctx Answers → UInt64 → UInt64 → PageSetHandle → VirtioBlkEngine →
      Except BlockError Unit × VirtioBlkEngine}
    (hm : msg.w0 = cmdRead ∧ method = engine.read ∨ msg.w0 = cmdWrite ∧ method = engine.write) :
    ∃ reqType, method = checkedIo reqType := by
  rcases hm with ⟨-, rfl⟩ | ⟨-, rfl⟩
  · exact ⟨virtioBlkTIn, rfl⟩
  · exact ⟨virtioBlkTOut, rfl⟩

theorem Sized.handle (hS : Sized S.server.engine) (hI : S.Inv engine EngineOk Created)
    (hmsg : AllocFits msg) : Sized (S.handle engine ctx msg).2.server.engine := by
  have hserved := serve_served engine ctx msg S.server
  unfold Service.handle
  generalize serve engine ctx msg S.server = r at hserved
  cases hserved with
  | idle reply hcmd => exact hS
  | refused err e hcmd ha =>
    obtain ⟨hbuf, hhandles, -⟩ := allocBuffer_error ha
    intro b hb hlive P hP
    exact hS b (by rwa [← hbuf]) hlive P (by rwa [← hhandles])
  | full ps e hcmd ha => exact (hS.alloc hI.engine (hmsg hcmd) ha).free ctx ps
  | unexported ps e id t t' hcmd ha ht hr =>
    exact (hS.alloc hI.engine (hmsg hcmd) ha).free ctx ps
  | granted ps e id t r idx hcmd ha ht hps hx => exact hS.alloc hI.engine (hmsg hcmd) ha
  | io method ps result e hm ht he reply =>
    obtain ⟨reqType, rfl⟩ := method_eq hm
    obtain ⟨queue, numFree, heq, -⟩ := checkedIo_effect reqType ctx msg.w1 msg.w2 ps
      S.server.engine
    rw [he] at heq
    rw [show e = _ from heq]
    exact hS
  | freed ps t hcmd hr reply => exact hS.free ctx ps

theorem freeBuffer_queue (ctx : Ctx Answers) (h : PageSetHandle) (e : VirtioBlkEngine) :
    (e.freeBuffer ctx h).queue = e.queue := by
  rcases freeBuffer_cases ctx h e with heq | ⟨slots, -, heq⟩ <;> rw [heq]

/-- A request puts at most one chain on the virtqueue: the one for a buffer of
    the caller that passed the checks. -/
theorem handle_queue (ctx : Ctx Answers) (msg : Words) (S : Service VirtioBlkEngine PageSet) :
    (S.handle engine ctx msg).2.server.engine.queue = S.server.engine.queue ∨
    ∃ ps buf reqType, S.server.buffers.translate msg.w3.toUInt32 ctx.caller = some ps ∧
      S.server.engine.findBuffer ps = some buf ∧
      ¬ (msg.w2 > buf.sectorCount ∨ msg.w1 + msg.w2 > S.server.engine.capacity) ∧
      (S.handle engine ctx msg).2.server.engine.queue = S.server.engine.queue ++
        [S.server.engine.chainOf reqType msg.w1 msg.w2 buf.pa] := by
  have hserved := serve_served engine ctx msg S.server
  unfold Service.handle
  generalize serve engine ctx msg S.server = r at hserved
  cases hserved with
  | idle reply hcmd => exact Or.inl rfl
  | refused err e hcmd ha =>
    obtain ⟨-, -, -, hq, -⟩ := allocBuffer_error ha
    exact Or.inl hq
  | full ps e hcmd ha | unexported ps e id t t' hcmd ha ht hr =>
    obtain ⟨b, p, slots, -, -, -, rfl⟩ := allocBuffer_ok ha
    exact Or.inl (freeBuffer_queue ctx ps _)
  | granted ps e id t r idx hcmd ha ht hps hx =>
    obtain ⟨b, p, slots, -, -, -, rfl⟩ := allocBuffer_ok ha
    exact Or.inl rfl
  | io method ps result e hm ht he reply =>
    obtain ⟨reqType, rfl⟩ := method_eq hm
    obtain ⟨queue, numFree, heq, hq⟩ := checkedIo_effect reqType ctx msg.w1 msg.w2 ps
      S.server.engine
    grind
  | freed ps t hcmd hr reply => exact Or.inl (freeBuffer_queue ctx ps _)

end

/-! ## The data segments -/

/-- The chains a request puts on the virtqueue. -/
def queued (S : Service VirtioBlkEngine PageSet) (ctx : Ctx Answers) (msg : Words) : List Chain :=
  (S.handle engine ctx msg).2.server.engine.queue.drop S.server.engine.queue.length

/-- The chain's data segment lies in a live buffer granted to the caller under
    the id it used, is `512 * count` bytes long, and the sectors exist. -/
def DataSegmentOk (S : Service VirtioBlkEngine PageSet) (caller : UInt64) (msg : Words)
    (c : Chain) : Prop :=
  ∃ h P, S.server.engine.process.handles h = some P ∧
    (⟨caller, msg.w3.toUInt32, P⟩ : Grant PageSet) ∈ S.grants ∧
    P.Contains c.data.pa.toNat c.data.len.toNat ∧ c.data.len.toNat = 512 * msg.w2.toNat ∧
    c.sector = msg.w1 ∧ msg.w1.toNat + msg.w2.toNat ≤ S.server.engine.capacity.toNat

theorem sized_boot (capacity reqPagePa : UInt64) (numFree : Nat) (p : Process) :
    Sized (boot capacity reqPagePa numFree p) := by
  intro b hb hlive
  simp only [boot, mem_replicate] at hb
  exact absurd (by rw [hb.2]; rfl) hlive

/-- A chain for `count` sectors at a live slot's address has its data segment
    in the slot's PageSet, whole. -/
theorem Sized.contains {e : VirtioBlkEngine} (hS : Sized e) (hE : EngineOk e) {b : DmaBuffer}
    (hb : b ∈ e.dmaBuffers) (hlive : b.pa ≠ 0) {P : PageSet}
    (hP : e.process.handles b.ps = some P) {count : UInt64} (hcount : ¬ count > b.sectorCount)
    (reqType : UInt32) (sector : UInt64) : let c := e.chainOf reqType sector count b.pa
    P.Contains c.data.pa.toNat c.data.len.toNat ∧ c.data.len.toNat = 512 * count.toNat := by
  obtain ⟨hsize, hmax⟩ := hS b hb hlive P hP
  obtain ⟨P', hP', hpa⟩ := hE.opened b hb hlive
  rw [hP] at hP'
  cases hP'
  have hle : count.toNat ≤ b.sectorCount.toNat :=
    UInt64.le_iff_toNat_le.mp (UInt64.not_lt.mp hcount)
  have hlen : (count * 512).toUInt32.toNat = 512 * count.toNat := by
    simp only [UInt64.toNat_toUInt32, UInt64.toNat_mul, UInt64.reduceToNat]
    unfold maxPracticalPagesPerSet at hmax
    unfold pageSize at hsize
    omega
  refine ⟨⟨Nat.le_of_eq (by rw [hpa]; rfl), ?_⟩, hlen⟩
  show b.pa.toNat + (count * 512).toUInt32.toNat ≤ _
  rw [hlen, hpa]
  omega

theorem Proper.spares {S : Service VirtioBlkEngine PageSet} {ev : ServiceEvent Answers PageSet}
    (h : Proper S ev) : S.Spares engine ev := by
  cases ev with
  | request => trivial
  | donated given => exact h

/-- One event keeps the invariants. -/
theorem Proper.step {S : Service VirtioBlkEngine PageSet} {ev : ServiceEvent Answers PageSet}
    (hS : S.Inv engine EngineOk Created ∧ Sized S.server.engine) (h : Proper S ev)
    (hw : (S.step engine ev).Within fun _ => True) :
    (S.step engine ev).Inv engine EngineOk Created ∧ Sized (S.step engine ev).server.engine := by
  refine ⟨hS.1.step engine_lawful h.spares hw, ?_⟩
  cases ev with
  | request ctx msg => exact hS.2.handle hS.1 h
  | donated given =>
    show Sized (S.revoke engine given).server.engine
    rw [Service.revoke_eq_self engine_lawful h.spares]
    exact hS.2

/-- As long as no allocation request wraps, no PageSet that the driver holds is donated and buffer
    ids have not come round, a chain on the virtqueue is sound exactly when its sector range does
    not wrap. -/
theorem data_segment_ok_iff (capacity reqPagePa : UInt64) (numFree : Nat) (p : Process)
    (hp : p.Numbered) (evs : List (ServiceEvent Answers PageSet))
    (hevs : Guarded (Service.step engine) Proper
      (Service.start (boot capacity reqPagePa numFree p)) evs)
    (hids : ((Service.start (boot capacity reqPagePa numFree p)).run engine evs).allocs < 2 ^ 32)
    (ctx : Ctx Answers) (msg : Words) :
    let S := (Service.start (boot capacity reqPagePa numFree p)).run engine evs
    ∀ c ∈ queued S ctx msg, DataSegmentOk S ctx.caller msg c ↔
      msg.w1.toNat + msg.w2.toNat < 2 ^ 64 := by
  intro S c hc
  obtain ⟨hI, hS⟩ : S.Inv engine EngineOk Created ∧ Sized S.server.engine :=
    hevs.keeps (W := Service.Within fun _ => True)
      (fun _ _ h => Service.within_of_step engine_lawful h.spares)
      (fun _ _ hS h => h.step hS) ⟨Service.inv_start (engineOk_boot capacity reqPagePa numFree hp),
        sized_boot capacity reqPagePa numFree p⟩ ⟨hids, trivial⟩
  have hcap := S.server.engine.capacity.toNat_lt
  rcases handle_queue ctx msg S with hq | ⟨ps, buf, reqType, ht, hbuf, hcheck, hq⟩
  · rw [queued, hq, drop_length] at hc
    cases hc
  · rw [queued, hq, drop_left, mem_singleton] at hc
    subst hc
    obtain ⟨hcount, hrange⟩ := not_or.mp hcheck
    constructor
    · rintro ⟨h, P, -, -, -, -, -, hin⟩
      exact Nat.lt_of_le_of_lt hin hcap
    · intro hlt
      obtain ⟨P, hP, hg⟩ := hI.translate ht
      obtain ⟨hmem, rfl, hlive⟩ := findBuffer_eq_some hbuf
      obtain ⟨hin, hlen⟩ := hS.contains hI.engine hmem hlive hP hcount reqType msg.w1
      refine ⟨buf.ps, P, hP, hg, hin, hlen, rfl, ?_⟩
      -- the driver tests the sum in 64 bits, which is the true one when it does not wrap
      have hle := UInt64.le_iff_toNat_le.mp (UInt64.not_lt.mp hrange)
      rwa [UInt64.toNat_add, Nat.mod_eq_of_lt hlt] at hle

/-- The driver with a 65536-sector disk, no handle open. -/
def smallDriver : Service VirtioBlkEngine PageSet :=
  Service.start (boot 65536 0x48000000 128 ⟨fun _ => none, 0⟩)

/-- Client 7; the kernel has memory at 0x50000000 and free handle slots. -/
def client : Ctx Answers := ⟨7, some 5, ⟨some (3, 0x50000000), true, 0⟩⟩

/-- The client allocates a page, frees it and donates it, and allocates another one. -/
def allocTwice : List (ServiceEvent Answers PageSet) :=
  [.request client ⟨cmdAllocBuffer, 8, 0, 0⟩, .request client ⟨cmdFreeBuffer, 1, 0, 0⟩,
   .donated fun P => P.serial == 0, .request client ⟨cmdAllocBuffer, 8, 0, 0⟩]

/-- It reads sector 9 into the second buffer. -/
theorem data_segment_ok_iff_small :
    let S := smallDriver.run engine allocTwice
    ∃ c ∈ queued S client ⟨cmdRead, 9, 8, 2⟩, DataSegmentOk S 7 ⟨cmdRead, 9, 8, 2⟩ c := by
  refine ⟨⟨virtioBlkTIn, 9, ⟨0x48000000, 16, .deviceReadable⟩,
    ⟨0x50000000, 4096, .deviceWritable⟩, ⟨0x48000010, 1, .deviceWritable⟩⟩, by decide +kernel, ?_⟩
  refine (data_segment_ok_iff 65536 0x48000000 128 ⟨fun _ => none, 0⟩ (fun _ _ h => nomatch h)
    allocTwice ⟨fun _ => by decide, nofun, ?_, fun _ => by decide, trivial⟩ (by decide +kernel)
    client ⟨cmdRead, 9, 8, 2⟩ _ (by decide +kernel)).mpr (by decide)
  -- the driver has closed its handle on the first buffer
  intro h P hP
  have hP : Function.update (Function.update (fun _ => none) 3 (some _)) 3 none h = some P := hP
  simp at hP

/-- The byte count of 2^55 + 1 sectors wraps to 512, so the buffer is one page;
    the recorded sector count lets a transfer of 16 sectors through. -/
theorem wrapped_alloc_overruns_page :
    let S := smallDriver.run engine [.request client ⟨cmdAllocBuffer, 2 ^ 55 + 1, 0, 0⟩]
    ∃ c ∈ queued S client ⟨cmdRead, 0, 16, 1⟩,
      c.data.len = 8192 ∧ ¬ DataSegmentOk S 7 ⟨cmdRead, 0, 16, 1⟩ c := by
  refine ⟨⟨virtioBlkTIn, 0, ⟨0x48000000, 16, .deviceReadable⟩,
    ⟨0x50000000, 8192, .deviceWritable⟩, ⟨0x48000010, 1, .deviceWritable⟩⟩, by decide +kernel,
    rfl, ?_⟩
  rintro ⟨h, P, -, hg, ⟨-, hin⟩, -⟩
  -- the client holds one grant, of a single page
  rw [show (smallDriver.run engine [.request client ⟨cmdAllocBuffer, 2 ^ 55 + 1, 0, 0⟩]).grants =
    [⟨7, 1, ⟨0, 0x50000000, 1⟩⟩] by decide +kernel, mem_singleton] at hg
  cases hg
  exact absurd hin (by decide)

end Lockjaw.User.VirtioBlk
