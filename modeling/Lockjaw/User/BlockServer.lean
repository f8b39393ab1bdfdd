/-
  Lockjaw.User.BlockServer

  The block device server of `lockjaw-userlib`: `run_block_server` with its
  `BufferTracker`, over any `BlockEngine`.

  A request is one iteration of the loop (`serve`): the message and the token
  of the caller come from the kernel, and so do the answers of the system
  calls made on the way (`Ctx`).  An engine is given with its process's handle
  table (`pageSet`), because a handle is only a number: which PageSet it stands
  for changes as handles are closed and their numbers are used again.

  `Service` carries next to the server what the clients have been given: one
  `Grant` per buffer, with the PageSet that was exported.  The invariant
  `Service.Inv` says that a buffer id a client may use still leads to the
  PageSet granted under it; it is kept by every engine that satisfies
  `BlockEngine.Lawful`, as long as the 32-bit ids have not come round.

  A handle can also go without the server's doing: whoever has a PageSet open
  may donate it to a new kernel object or process, and the kernel then revokes
  it in every handle table.  That is the event `donated`.  The server is not
  told, so its tables go stale; `Spares` is the condition that no PageSet it
  holds is donated.
-/

import Mathlib.Algebra.GroupWithZero.Nat
import Mathlib.Data.List.Pairwise
import Lockjaw.Lib.Replay
import Lockjaw.Lib.SlotArray

namespace Lockjaw.User

open Lib

/-- Index into the handle table of the process that uses it. -/
abbrev PageSetHandle := UInt64

/-- The four words of an IPC message. -/
structure Words where
  w0 : UInt64
  w1 : UInt64
  w2 : UInt64
  w3 : UInt64
  deriving DecidableEq, Repr

/-- What the kernel supplies while one request is served: the token of the
    bound caller, the empty slot it finds in the caller's handle table for an
    export, and the answers `ε` to the engine's own system calls. -/
structure Ctx (ε : Type) where
  caller : UInt64
  exportSlot : Option UInt64
  answers : ε

/-! ## Protocol -/

inductive BlockError where
  | ioError
  | unsupported
  | invalidParameter
  | allocFailed
  | invalidBuffer
  | ipcFailed
  deriving DecidableEq, Repr

inductive MapMemoryAttribute where
  | normal
  | device
  | normalNonCacheable
  deriving DecidableEq, Repr

def MapMemoryAttribute.toWord : MapMemoryAttribute → UInt64
  | .normal => 0
  | .device => 1
  | .normalNonCacheable => 2

structure BlockInfo where
  capacitySectors : UInt64
  sectorSize : UInt64
  bufferAttribute : MapMemoryAttribute

def cmdGetInfo : UInt64 := 1
def cmdAllocBuffer : UInt64 := 2
def cmdRead : UInt64 := 3
def cmdWrite : UInt64 := 4
def cmdFreeBuffer : UInt64 := 5

def blkOk : UInt64 := 0
def blkErrIo : UInt64 := 1
def blkErrUnsupported : UInt64 := 2
def blkErrInvalid : UInt64 := 3
def blkErrAlloc : UInt64 := 4

/-! ## BufferTracker -/

def maxBuffers : Nat := 8

structure BufferSlot where
  bufferId : UInt32
  callerToken : UInt64
  engineHandle : PageSetHandle
  deriving DecidableEq, Repr

structure BufferTracker where
  slots : List (Option BufferSlot)
  nextId : UInt32

namespace BufferTracker

def new : BufferTracker := ⟨List.replicate maxBuffers none, 1⟩

/-- The test `translate` and `remove` make on a slot. -/
def hit (bufferId : UInt32) (callerToken : UInt64) : Option BufferSlot → Bool
  | some s => s.bufferId == bufferId && s.callerToken == callerToken
  | none => false

/-- Assign the next buffer id (it wraps) and record handle and caller in the first empty slot. -/
def track (t : BufferTracker) (callerToken : UInt64) (engineHandle : PageSetHandle) :
    Option (UInt32 × BufferTracker) :=
  match setFirst Option.isNone (some ⟨t.nextId, callerToken, engineHandle⟩) t.slots with
  | some slots => some (t.nextId, ⟨slots, t.nextId + 1⟩)
  | none => none

def translate (t : BufferTracker) (bufferId : UInt32) (callerToken : UInt64) :
    Option PageSetHandle :=
  (t.slots.find? (hit bufferId callerToken)).join.map BufferSlot.engineHandle

def remove (t : BufferTracker) (bufferId : UInt32) (callerToken : UInt64) :
    Option (PageSetHandle × BufferTracker) :=
  match t.translate bufferId callerToken, setFirst (hit bufferId callerToken) none t.slots with
  | some h, some slots => some (h, { t with slots })
  | _, _ => none

variable {t t' : BufferTracker} {id : UInt32} {c : UInt64} {h : PageSetHandle}

theorem hit_eq_true {o : Option BufferSlot} :
    hit id c o = true ↔ ∃ s, o = some s ∧ s.bufferId = id ∧ s.callerToken = c := by
  cases o <;> simp [hit]

/-- A translated id is the first slot recorded for that id and caller. -/
theorem translate_eq_some (ht : t.translate id c = some h) :
    ∃ s, t.slots.find? (hit id c) = some (some s) ∧ some s ∈ t.slots ∧
      s.bufferId = id ∧ s.callerToken = c ∧ s.engineHandle = h := by
  unfold translate at ht
  obtain ⟨s, hs, rfl⟩ := Option.map_eq_some_iff.mp ht
  have hf : t.slots.find? (hit id c) = some (some s) := Option.join_eq_some_iff.mp hs
  have hhit := List.find?_some hf
  obtain ⟨s', hss, hid, hc⟩ := hit_eq_true.mp hhit
  cases hss
  exact ⟨s, hf, List.mem_of_find?_eq_some hf, hid, hc, rfl⟩

theorem track_eq_some (ht : t.track c h = some (id, t')) :
    id = t.nextId ∧ t'.nextId = t.nextId + 1 ∧
      setFirst Option.isNone (some ⟨id, c, h⟩) t.slots = some t'.slots := by grind [track]

theorem remove_eq_some (hr : t.remove id c = some (h, t')) :
    t.translate id c = some h ∧ t'.nextId = t.nextId ∧
      setFirst (hit id c) none t.slots = some t'.slots := by grind [remove]

end BufferTracker

open BufferTracker

/-! ## Engines -/

/-- A handle table after the PageSets `given` have been revoked. -/
def revokeHandles {ρ : Type} (given : ρ → Bool) (handles : PageSetHandle → Option ρ) :
    PageSetHandle → Option ρ := fun h => (handles h).filter fun r => !given r

theorem revokeHandles_eq_self {ρ : Type} {given : ρ → Bool} {handles : PageSetHandle → Option ρ}
    (h : ∀ h r, handles h = some r → given r = false) : revokeHandles given handles = handles := by
  funext h'
  cases hr : handles h' with
  | none => simp [revokeHandles, hr]
  | some r => simp [revokeHandles, hr, h h' r hr]

/-- A block engine over its state `σ`.  `pageSet` is the handle table of the
    engine's process: the PageSet a handle stands for, if it is open.  `revoke`
    takes PageSets out of it, and out of that of a server behind the engine;
    `Unheld` says that none of them is there. -/
structure BlockEngine (ε σ ρ : Type) where
  info : σ → BlockInfo
  allocBuffer : Ctx ε → UInt64 → σ → Except BlockError PageSetHandle × σ
  read : Ctx ε → UInt64 → UInt64 → PageSetHandle → σ → Except BlockError Unit × σ
  write : Ctx ε → UInt64 → UInt64 → PageSetHandle → σ → Except BlockError Unit × σ
  freeBuffer : Ctx ε → PageSetHandle → σ → σ
  pageSet : σ → PageSetHandle → Option ρ
  revoke : (ρ → Bool) → σ → σ
  Unheld : (ρ → Bool) → σ → Prop

/-! ## run_block_server -/

structure Server (σ : Type) where
  buffers : BufferTracker
  engine : σ

/-- One request served: the reply, the PageSet exported to the caller, if any,
    whether the engine handed out a buffer, and the server afterwards. -/
structure Handled (σ ρ : Type) where
  reply : Words
  exported : Option ρ
  allocated : Bool
  next : Server σ

variable {ε σ ρ : Type} (eng : BlockEngine ε σ ρ)

/-- A reply that carries only a status. -/
def replyStatus (status : UInt64) (s : Server σ) : Handled σ ρ :=
  ⟨⟨status, 0, 0, 0⟩, none, false, s⟩

/-- `sys_export_handle`: an open handle is copied into the caller's table. -/
def sysExportHandle (ctx : Ctx ε) (ps : PageSetHandle) (e : σ) : Option (UInt64 × ρ) :=
  match ctx.exportSlot, eng.pageSet e ps with
  | some idx, some r => some (idx, r)
  | _, _ => none

/-- CMD_ALLOC_BUFFER: allocate, track, export; undo what was done on a failure. -/
def serveAlloc (ctx : Ctx ε) (sectorCount : UInt64) (s : Server σ) : Handled σ ρ :=
  match eng.allocBuffer ctx sectorCount s.engine with
  | (.error _, e) => replyStatus blkErrAlloc { s with engine := e }
  | (.ok ps, e) =>
    match s.buffers.track ctx.caller ps with
    | none => ⟨⟨blkErrAlloc, 0, 0, 0⟩, none, true, { s with engine := eng.freeBuffer ctx ps e }⟩
    | some (bufferId, buffers) =>
      match sysExportHandle eng ctx ps e with
      | none =>
        let buffers := match buffers.remove bufferId ctx.caller with
          | some (_, buffers) => buffers
          | none => buffers
        ⟨⟨blkErrAlloc, 0, 0, 0⟩, none, true, ⟨buffers, eng.freeBuffer ctx ps e⟩⟩
      | some (idx, r) =>
        ⟨⟨blkOk, idx, bufferId.toUInt64, 0⟩, some r, true, ⟨buffers, e⟩⟩

/-- The status word of an engine's result. -/
def statusOf : Except BlockError Unit → UInt64
  | .ok () => blkOk
  | .error .ioError => blkErrIo
  | .error .unsupported => blkErrUnsupported
  | .error _ => blkErrInvalid

/-- CMD_READ and CMD_WRITE differ in the engine method only. -/
def serveIo (method : Ctx ε → UInt64 → UInt64 → PageSetHandle → σ → Except BlockError Unit × σ)
    (ctx : Ctx ε) (sector count : UInt64) (bufferId : UInt32) (s : Server σ) : Handled σ ρ :=
  match s.buffers.translate bufferId ctx.caller with
  | none => replyStatus blkErrInvalid s
  | some engineBuf =>
    match method ctx sector count engineBuf s.engine with
    | (result, e) => replyStatus (statusOf result) { s with engine := e }

/-- CMD_FREE_BUFFER -/
def serveFree (ctx : Ctx ε) (bufferId : UInt32) (s : Server σ) : Handled σ ρ :=
  match s.buffers.remove bufferId ctx.caller with
  | some (ps, buffers) => replyStatus blkOk ⟨buffers, eng.freeBuffer ctx ps s.engine⟩
  | none => replyStatus blkErrInvalid s

/-- One iteration of the server loop, from the received message to the reply. -/
def serve (ctx : Ctx ε) (msg : Words) (s : Server σ) : Handled σ ρ :=
  if msg.w0 = cmdGetInfo then
    let info := eng.info s.engine
    ⟨⟨info.capacitySectors, info.sectorSize, info.bufferAttribute.toWord, 0⟩, none, false, s⟩
  else if msg.w0 = cmdAllocBuffer then serveAlloc eng ctx msg.w1 s
  else if msg.w0 = cmdRead then serveIo eng.read ctx msg.w1 msg.w2 msg.w3.toUInt32 s
  else if msg.w0 = cmdWrite then serveIo eng.write ctx msg.w1 msg.w2 msg.w3.toUInt32 s
  else if msg.w0 = cmdFreeBuffer then serveFree eng ctx msg.w1.toUInt32 s
  else replyStatus blkErrUnsupported s

/-! ## What one request can do -/

/-- The reply to an allocation that failed. -/
def allocRefused : Words := ⟨blkErrAlloc, 0, 0, 0⟩

/-- The effect of one request on the server, with what it handed out. -/
inductive Served (ctx : Ctx ε) (msg : Words) (s : Server σ) : Handled σ ρ → Prop
  /-- Answered without touching anything. -/
  | idle (reply : Words) (hcmd : msg.w0 ≠ cmdAllocBuffer) :
      Served ctx msg s ⟨reply, none, false, s⟩
  /-- The engine could not allocate. -/
  | refused (err : BlockError) (e : σ) (hcmd : msg.w0 = cmdAllocBuffer)
      (ha : eng.allocBuffer ctx msg.w1 s.engine = (.error err, e)) :
      Served ctx msg s ⟨allocRefused, none, false, { s with engine := e }⟩
  /-- No tracker slot was left for the new buffer. -/
  | full (ps : PageSetHandle) (e : σ) (hcmd : msg.w0 = cmdAllocBuffer)
      (ha : eng.allocBuffer ctx msg.w1 s.engine = (.ok ps, e)) :
      Served ctx msg s ⟨allocRefused, none, true, { s with engine := eng.freeBuffer ctx ps e }⟩
  /-- The new buffer could not be exported, and its slot is removed again. -/
  | unexported (ps : PageSetHandle) (e : σ) (id : UInt32) (t t' : BufferTracker)
      (hcmd : msg.w0 = cmdAllocBuffer) (ha : eng.allocBuffer ctx msg.w1 s.engine = (.ok ps, e))
      (ht : s.buffers.track ctx.caller ps = some (id, t))
      (hr : (∃ h, t.remove id ctx.caller = some (h, t')) ∨
        (t.remove id ctx.caller = none ∧ t' = t)) :
      Served ctx msg s ⟨allocRefused, none, true, ⟨t', eng.freeBuffer ctx ps e⟩⟩
  /-- The new buffer is tracked and its PageSet exported. -/
  | granted (ps : PageSetHandle) (e : σ) (id : UInt32) (t : BufferTracker) (r : ρ)
      (idx : UInt64) (hcmd : msg.w0 = cmdAllocBuffer)
      (ha : eng.allocBuffer ctx msg.w1 s.engine = (.ok ps, e))
      (ht : s.buffers.track ctx.caller ps = some (id, t)) (hps : eng.pageSet e ps = some r)
      (hx : ctx.exportSlot = some idx) :
      Served ctx msg s ⟨⟨blkOk, idx, id.toUInt64, 0⟩, some r, true, ⟨t, e⟩⟩
  /-- A read or write with a buffer of the caller. -/
  | io (method : Ctx ε → UInt64 → UInt64 → PageSetHandle → σ → Except BlockError Unit × σ)
      (ps : PageSetHandle) (result : Except BlockError Unit) (e : σ)
      (hm : msg.w0 = cmdRead ∧ method = eng.read ∨ msg.w0 = cmdWrite ∧ method = eng.write)
      (ht : s.buffers.translate msg.w3.toUInt32 ctx.caller = some ps)
      (he : method ctx msg.w1 msg.w2 ps s.engine = (result, e)) (reply : Words) :
      Served ctx msg s ⟨reply, none, false, { s with engine := e }⟩
  /-- A buffer of the caller is freed. -/
  | freed (ps : PageSetHandle) (t : BufferTracker) (hcmd : msg.w0 = cmdFreeBuffer)
      (hr : s.buffers.remove msg.w1.toUInt32 ctx.caller = some (ps, t)) (reply : Words) :
      Served ctx msg s ⟨reply, none, false, ⟨t, eng.freeBuffer ctx ps s.engine⟩⟩

variable {eng} {ctx : Ctx ε} {msg : Words} {s : Server σ}

theorem serveAlloc_served (hcmd : msg.w0 = cmdAllocBuffer) :
    Served eng ctx msg s (serveAlloc eng ctx msg.w1 s) := by
  unfold serveAlloc
  split
  · rename_i err e ha
    exact .refused err e hcmd ha
  · rename_i ps e ha
    split
    · exact .full ps e hcmd ha
    · rename_i id t ht
      cases hx : sysExportHandle eng ctx ps e with
      | none =>
        refine .unexported ps e id t _ hcmd ha ht ?_
        grind
      | some p =>
        unfold sysExportHandle at hx
        split at hx
        · rename_i idx r hslot hps
          cases hx
          exact .granted ps e id t r idx hcmd ha ht hps hslot
        · cases hx

theorem serveIo_served
    {method : Ctx ε → UInt64 → UInt64 → PageSetHandle → σ → Except BlockError Unit × σ}
    (hm : msg.w0 = cmdRead ∧ method = eng.read ∨ msg.w0 = cmdWrite ∧ method = eng.write) :
    Served eng ctx msg s (serveIo method ctx msg.w1 msg.w2 msg.w3.toUInt32 s) := by
  have hcmd : msg.w0 ≠ cmdAllocBuffer := by
    rcases hm with ⟨h, -⟩ | ⟨h, -⟩ <;> rw [h] <;> decide
  unfold serveIo
  split
  · exact .idle _ hcmd
  · rename_i ps ht
    exact .io method ps _ _ hm ht rfl _

/-- Every request does one of the things listed in `Served`. -/
theorem serve_served (eng : BlockEngine ε σ ρ) (ctx : Ctx ε) (msg : Words) (s : Server σ) :
    Served eng ctx msg s (serve eng ctx msg s) := by
  unfold serve
  split_ifs with hinfo halloc hread hwrite hfree
  · exact .idle _ (by rw [hinfo]; decide)
  · exact serveAlloc_served halloc
  · exact serveIo_served (Or.inl ⟨hread, rfl⟩)
  · exact serveIo_served (Or.inr ⟨hwrite, rfl⟩)
  · unfold serveFree
    split
    · rename_i ps t hr
      exact .freed ps t hfree hr _
    · exact .idle _ halloc
  · exact .idle _ halloc

/-! ## Lawful engines -/

/-- From `e` to `e'` the process keeps its open handles, those in `except`
    apart, and no PageSet is forgotten. -/
structure Keeps (eng : BlockEngine ε σ ρ) (used : σ → ρ → Prop) (except : PageSetHandle → Prop)
    (e e' : σ) : Prop where
  pageSet : ∀ h r, ¬ except h → eng.pageSet e h = some r → eng.pageSet e' h = some r
  used : ∀ r, used e r → used e' r

/-- What the server relies on, as long as the engine stays within a budget `B`
    (which, once exceeded, stays exceeded): a new buffer comes with a PageSet
    never seen before (`used`) under a handle that was not open, and no method
    closes a handle other than the one it is asked to free. -/
structure BlockEngine.Lawful (eng : BlockEngine ε σ ρ) (B Inv : σ → Prop) (used : σ → ρ → Prop) :
    Prop where
  alloc_within : ∀ {ctx n e}, B (eng.allocBuffer ctx n e).2 → B e
  read_within : ∀ {ctx sector count h e}, B (eng.read ctx sector count h e).2 → B e
  write_within : ∀ {ctx sector count h e}, B (eng.write ctx sector count h e).2 → B e
  free_within : ∀ {ctx h e}, B (eng.freeBuffer ctx h e) → B e
  alloc_ok : ∀ {ctx n e h e'}, Inv e → B e' → eng.allocBuffer ctx n e = (.ok h, e') →
    Inv e' ∧ Keeps eng used (fun _ => False) e e' ∧ eng.pageSet e h = none ∧
      ∃ r, eng.pageSet e' h = some r ∧ ¬ used e r ∧ used e' r
  alloc_error : ∀ {ctx n e err e'}, Inv e → B e' → eng.allocBuffer ctx n e = (.error err, e') →
    Inv e' ∧ Keeps eng used (fun _ => False) e e'
  read : ∀ ctx sector count h {e}, Inv e → B (eng.read ctx sector count h e).2 →
    Inv (eng.read ctx sector count h e).2 ∧
      Keeps eng used (fun _ => False) e (eng.read ctx sector count h e).2
  write : ∀ ctx sector count h {e}, Inv e → B (eng.write ctx sector count h e).2 →
    Inv (eng.write ctx sector count h e).2 ∧
      Keeps eng used (fun _ => False) e (eng.write ctx sector count h e).2
  free : ∀ {ctx h e}, Inv e → B (eng.freeBuffer ctx h e) → Inv (eng.freeBuffer ctx h e) ∧
    Keeps eng used (fun h' => h' = h) e (eng.freeBuffer ctx h e)
  revoke : ∀ {given e}, eng.Unheld given e → eng.revoke given e = e

variable {x : PageSetHandle → Prop} {e1 e2 : σ} {used : σ → ρ → Prop}

theorem Keeps.trans {e3 : σ}
    (h1 : Keeps eng used x e1 e2) (h2 : Keeps eng used x e2 e3) : Keeps eng used x e1 e3 where
  pageSet h r hx hr := h2.pageSet h r hx (h1.pageSet h r hx hr)
  used r hr := h2.used r (h1.used r hr)

theorem Keeps.mono {y : PageSetHandle → Prop}
    (h : Keeps eng used x e1 e2) (hxy : ∀ h, x h → y h) : Keeps eng used y e1 e2 where
  pageSet h' r hy hr := h.pageSet h' r (fun hx => hy (hxy h' hx)) hr
  used := h.used

theorem Keeps.refl (e : σ) : Keeps eng used x e e where
  pageSet _ _ _ hr := hr
  used _ hr := hr

/-! ## Grants -/

/-- A buffer handed to a client: the PageSet `pageSet` was exported to
    `caller`, who was told to call it `bufferId`. -/
structure Grant (ρ : Type) where
  caller : UInt64
  bufferId : UInt32
  pageSet : ρ
  deriving DecidableEq, Repr

/-- A server with the history of what it handed out: the grants made, and how
    many buffers its engine has allocated. -/
structure Service (σ ρ : Type) where
  server : Server σ
  grants : List (Grant ρ)
  allocs : Nat

/-- The grant a request makes: the id is the one in the reply. -/
def Handled.grants (caller : UInt64) (r : Handled σ ρ) : List (Grant ρ) :=
  match r.exported with
  | some ps => [⟨caller, r.reply.w2.toUInt32, ps⟩]
  | none => []

/-- Serve one request. -/
def Service.handle (eng : BlockEngine ε σ ρ) (ctx : Ctx ε) (msg : Words) (S : Service σ ρ) :
    Words × Service σ ρ :=
  let r := serve eng ctx msg S.server
  (r.reply, ⟨r.next, S.grants ++ r.grants ctx.caller, S.allocs + r.allocated.toNat⟩)

def Service.start (e : σ) : Service σ ρ := ⟨⟨.new, e⟩, [], 0⟩

/-- PageSets are revoked. -/
def Service.revoke (eng : BlockEngine ε σ ρ) (given : ρ → Bool) (S : Service σ ρ) : Service σ ρ :=
  { S with server := { S.server with engine := eng.revoke given S.server.engine } }

/-- A request, or a donation of PageSets by another process. -/
inductive ServiceEvent (ε ρ : Type) where
  | request (ctx : Ctx ε) (msg : Words)
  | donated (given : ρ → Bool)

def Service.step (eng : BlockEngine ε σ ρ) (S : Service σ ρ) : ServiceEvent ε ρ → Service σ ρ
  | .request ctx msg => (S.handle eng ctx msg).2
  | .donated given => S.revoke eng given

def Service.run (eng : BlockEngine ε σ ρ) (evs : List (ServiceEvent ε ρ)) (S : Service σ ρ) :
    Service σ ρ :=
  evs.foldl (Service.step eng) S

/-- No PageSet that the server holds is donated. -/
def Service.Spares (eng : BlockEngine ε σ ρ) (S : Service σ ρ) : ServiceEvent ε ρ → Prop
  | .request _ _ => True
  | .donated given => eng.Unheld given S.server.engine

/-- Buffer ids have not come round, and the engine is within its budget. -/
def Service.Within (B : σ → Prop) (S : Service σ ρ) : Prop :=
  S.allocs < 2 ^ 32 ∧ B S.server.engine

/-- Two slots record different buffers. -/
def SlotsApart (o o' : Option BufferSlot) : Prop :=
  ∀ s s', o = some s → o' = some s' → s.engineHandle ≠ s'.engineHandle

theorem SlotsApart.symm {o o' : Option BufferSlot} (h : SlotsApart o o') : SlotsApart o' o :=
  fun s s' hs hs' heq => h s' s hs' hs heq.symm

theorem SlotsApart.none (o : Option BufferSlot) : SlotsApart o .none ∧ SlotsApart .none o :=
  ⟨fun _ _ _ h => (nomatch h), fun _ _ h => (nomatch h)⟩

/-- Every tracked buffer is still the one granted to its caller under its id,
    and no PageSet and no id has been granted twice. -/
structure Service.Inv (eng : BlockEngine ε σ ρ) (I : σ → Prop) (used : σ → ρ → Prop)
    (S : Service σ ρ) : Prop where
  engine : I S.server.engine
  granted : ∀ s, some s ∈ S.server.buffers.slots → ∃ r,
    eng.pageSet S.server.engine s.engineHandle = some r ∧
      (⟨s.callerToken, s.bufferId, r⟩ : Grant ρ) ∈ S.grants
  apart : S.server.buffers.slots.Pairwise SlotsApart
  ids : ∃ n, n ≤ S.allocs ∧ S.server.buffers.nextId = UInt32.ofNat (n + 1) ∧
    ∀ g ∈ S.grants, g.bufferId.toNat ≤ n
  used : ∀ g ∈ S.grants, used S.server.engine g.pageSet
  distinct : S.grants.Pairwise fun g g' => g.bufferId ≠ g'.bufferId ∧ g.pageSet ≠ g'.pageSet

section Inv

variable {B I : σ → Prop} {used : σ → ρ → Prop} {S : Service σ ρ} (hL : eng.Lawful B I used)

include hL in
theorem Service.within_of_handle {ctx : Ctx ε} {msg : Words}
    (h : (S.handle eng ctx msg).2.Within B) : S.Within B := by
  have hserved := serve_served eng ctx msg S.server
  refine ⟨Nat.lt_of_le_of_lt (Nat.le_add_right _ _) h.1, ?_⟩
  have hB := h.2
  unfold Service.handle at hB
  generalize serve eng ctx msg S.server = r at hserved hB
  cases hserved with
  | idle reply hcmd => exact hB
  | refused err e hcmd ha => exact hL.alloc_within (n := msg.w1) (by rw [ha]; exact hB)
  | full ps e hcmd ha | unexported ps e id t t' hcmd ha ht hr =>
    exact hL.alloc_within (n := msg.w1) (by rw [ha]; exact hL.free_within hB)
  | granted ps e id t r idx hcmd ha ht hps hx =>
    exact hL.alloc_within (n := msg.w1) (by rw [ha]; exact hB)
  | io method ps result e hm ht he reply =>
    rcases hm with ⟨-, rfl⟩ | ⟨-, rfl⟩
    · exact hL.read_within (by rw [he]; exact hB)
    · exact hL.write_within (by rw [he]; exact hB)
  | freed ps t hcmd hr reply => exact hL.free_within hB

include hL in
theorem Service.revoke_eq_self {given : ρ → Bool} (h : eng.Unheld given S.server.engine) :
    S.revoke eng given = S := by
  unfold Service.revoke
  rw [hL.revoke h]

include hL in
theorem Service.within_of_step {ev : ServiceEvent ε ρ} (hspare : S.Spares eng ev)
    (h : (S.step eng ev).Within B) : S.Within B := by
  cases ev with
  | request ctx msg => exact within_of_handle hL h
  | donated given => exact revoke_eq_self hL hspare ▸ h

theorem Service.inv_start {e : σ} (he : I e) : (Service.start e : Service σ ρ).Inv eng I used where
  engine := he
  granted s hs := by simp [Service.start, new] at hs
  apart := by
    simp only [Service.start, new, List.pairwise_replicate]
    exact Or.inr fun s s' h => nomatch h
  ids := ⟨0, Nat.zero_le _, rfl, fun g hg => nomatch hg⟩
  used g hg := nomatch hg
  distinct := .nil

namespace Service.Inv

variable {e : σ} {t : BufferTracker} {x : PageSetHandle → Prop} {k : Nat} {h : PageSetHandle}
  {id : UInt32} {c : UInt64} {r : ρ}

section

variable (hI : S.Inv eng I used)
include hI

/-- The engine moved on, closing at most handles the tracker no longer knows. -/
theorem shrink (he : I e) (hk : Keeps eng used x S.server.engine e)
    (hmem : ∀ s, some s ∈ t.slots → some s ∈ S.server.buffers.slots ∧ ¬ x s.engineHandle)
    (hap : t.slots.Pairwise SlotsApart)
    (hid : ∃ n, n ≤ k ∧ t.nextId = UInt32.ofNat (n + 1) ∧ ∀ g ∈ S.grants, g.bufferId.toNat ≤ n) :
    Service.Inv eng I used ⟨⟨t, e⟩, S.grants, k⟩ where
  engine := he
  granted s hs := by grind [hI.granted, hk.pageSet]
  apart := hap
  ids := hid
  used g hg := hk.used _ (hI.used g hg)
  distinct := hI.distinct

/-- The engine moved on and the tracker stayed. -/
theorem engine_step (he : I e) (hk : Keeps eng used x S.server.engine e)
    (hx : ∀ s, some s ∈ S.server.buffers.slots → ¬ x s.engineHandle) (hle : S.allocs ≤ k) :
    Service.Inv eng I used ⟨{ S.server with engine := e }, S.grants, k⟩ := by
  obtain ⟨n, hn, hid⟩ := hI.ids
  exact hI.shrink he hk (fun s hs => ⟨hs, hx s hs⟩) hI.apart ⟨n, Nat.le_trans hn hle, hid⟩

/-- A tracked handle is open, so it is not the one just opened. -/
theorem handle_ne (hfresh : eng.pageSet S.server.engine h = none) {s : BufferSlot}
    (hs : some s ∈ S.server.buffers.slots) : s.engineHandle ≠ h := by
  rintro rfl
  obtain ⟨r, hr, -⟩ := hI.granted s hs
  rw [hfresh] at hr
  cases hr

/-- The id of the next buffer, while ids have not come round. -/
theorem nextId_toNat (hlt : S.allocs + 1 < 2 ^ 32) :
    ∃ n, n ≤ S.allocs ∧ S.server.buffers.nextId = UInt32.ofNat (n + 1) ∧
      S.server.buffers.nextId.toNat = n + 1 ∧ ∀ g ∈ S.grants, g.bufferId.toNat ≤ n := by
  obtain ⟨n, hn, hid, hle⟩ := hI.ids
  refine ⟨n, hn, hid, ?_, hle⟩
  rw [hid]
  exact UInt32.toNat_ofNat_of_lt' (by simp [UInt32.size]; omega)

/-- No tracked slot has the id of the next buffer. -/
theorem id_ne_nextId (hlt : S.allocs + 1 < 2 ^ 32) {s : BufferSlot}
    (hs : some s ∈ S.server.buffers.slots) : s.bufferId ≠ S.server.buffers.nextId := by
  obtain ⟨n, -, -, hn, hle⟩ := hI.nextId_toNat hlt
  grind [hI.granted]

/-- Tracking a newly opened handle keeps the slots apart. -/
theorem track_apart (hfresh : eng.pageSet S.server.engine h = none)
    (ht : S.server.buffers.track c h = some (id, t)) : t.slots.Pairwise SlotsApart := by
  obtain ⟨-, -, hset⟩ := track_eq_some ht
  refine setFirst_pairwise hset hI.apart fun o ho => ?_
  have hne : SlotsApart o (some ⟨id, c, h⟩) := by
    rintro s s' rfl hs' heq
    cases hs'
    exact hI.handle_ne hfresh ho heq
  exact ⟨hne, hne.symm⟩

/-- Removing the id just tracked takes out that slot and no other. -/
theorem track_remove (hlt : S.allocs + 1 < 2 ^ 32) {t' : BufferTracker}
    (hfresh : eng.pageSet S.server.engine h = none) (ht : S.server.buffers.track c h = some (id, t))
    (hr : (∃ h', t.remove id c = some (h', t')) ∨ (t.remove id c = none ∧ t' = t)) :
    t'.nextId = t.nextId ∧ t'.slots.Pairwise SlotsApart ∧
      ∀ s, some s ∈ t'.slots → some s ∈ S.server.buffers.slots := by
  obtain ⟨rfl, -, hset⟩ := track_eq_some ht
  have hap := hI.track_apart hfresh ht
  -- the only slot with this id is the new one
  have honly : ∀ o ∈ t.slots, hit S.server.buffers.nextId c o = true →
      o = some ⟨S.server.buffers.nextId, c, h⟩ := by
    intro o ho hhit
    obtain ⟨s, rfl, hid, -⟩ := hit_eq_true.mp hhit
    rcases setFirst_mem hset ho with heq | hold
    · exact heq
    · exact absurd hid (hI.id_ne_nextId hlt hold)
  have hfind : t.slots.find? (hit S.server.buffers.nextId c) =
      some (some ⟨S.server.buffers.nextId, c, h⟩) := by
    cases hf : t.slots.find? (hit S.server.buffers.nextId c) with
    | none =>
      have := List.find?_eq_none.mp hf _ (setFirst_mem_self hset)
      simp [hit] at this
    | some o => rw [honly o (List.mem_of_find?_eq_some hf) (List.find?_some hf)]
  rcases hr with ⟨h', hr⟩ | ⟨hr, -⟩
  · obtain ⟨-, hnext, hset'⟩ := remove_eq_some hr
    refine ⟨hnext, setFirst_pairwise hset' hap fun o _ => SlotsApart.none o, fun s hs => ?_⟩
    rcases setFirst_apart hset' hap (fun _ _ h => h.symm) hs with heq | ⟨o, ho, hne⟩
    · cases heq
    · rw [hfind] at ho
      cases ho
      have hold := (setFirst_mem hset' hs).resolve_left nofun
      rcases setFirst_mem hset hold with heq | hold
      · exact absurd rfl (hne s _ rfl heq.symm)
      · exact hold
  · exfalso
    unfold remove BufferTracker.translate at hr
    rw [hfind] at hr
    cases hs : setFirst (hit S.server.buffers.nextId c) none t.slots with
    | none =>
      rw [setFirst_none, hfind] at hs
      cases hs
    | some slots => simp [hs] at hr

/-- The next id after one more buffer was tracked. -/
theorem ids_succ (ht : t.nextId = S.server.buffers.nextId + 1) :
    ∃ n, n ≤ S.allocs + 1 ∧ t.nextId = UInt32.ofNat (n + 1) ∧
      ∀ g ∈ S.grants, g.bufferId.toNat ≤ n := by
  obtain ⟨n, hn, hid, hle⟩ := hI.ids
  refine ⟨n + 1, Nat.succ_le_succ hn, ?_, fun g hg => Nat.le_succ_of_le (hle g hg)⟩
  rw [ht, hid]
  exact (UInt32.ofNat_add (n + 1) 1).symm

end

include hL in
/-- An I/O method keeps the engine's invariant and its handles. -/
theorem io_keeps {method : Ctx ε → UInt64 → UInt64 → PageSetHandle → σ → Except BlockError Unit × σ}
    {ps : PageSetHandle} {result : Except BlockError Unit} {e' : σ} (hE : I e) (hB : B e')
    (hm : msg.w0 = cmdRead ∧ method = eng.read ∨ msg.w0 = cmdWrite ∧ method = eng.write)
    (he : method ctx msg.w1 msg.w2 ps e = (result, e')) :
    I e' ∧ Keeps eng used (fun _ => False) e e' := by
  rcases hm with ⟨-, rfl⟩ | ⟨-, rfl⟩
  all_goals grind [hL.read, hL.write]

section

variable (hI : S.Inv eng I used)
include hI

/-- After a slot is removed, no other slot has its handle. -/
theorem removed_apart {s0 : BufferSlot} {slots : List (Option BufferSlot)}
    (hset : setFirst (hit id c) none S.server.buffers.slots = some slots)
    (hf : S.server.buffers.slots.find? (hit id c) = some (some s0)) :
    ∀ s, some s ∈ slots →
      some s ∈ S.server.buffers.slots ∧ s.engineHandle ≠ s0.engineHandle := by
  intro s hs
  refine ⟨(setFirst_mem hset hs).resolve_left nofun, ?_⟩
  rcases setFirst_apart hset hI.apart (fun _ _ h => h.symm) hs with heq | ⟨o, ho, hne⟩
  · cases heq
  · rw [hf] at ho
    cases ho
    exact hne s s0 rfl rfl

/-- A new buffer is tracked and granted under a new id. -/
theorem grant (hlt : S.allocs + 1 < 2 ^ 32) (he : I e)
    (hk : Keeps eng used (fun _ => False) S.server.engine e)
    (hfresh : eng.pageSet S.server.engine h = none) (hr : eng.pageSet e h = some r)
    (hnew : ¬ used S.server.engine r) (hused : used e r)
    (ht : S.server.buffers.track c h = some (id, t)) :
    Service.Inv eng I used ⟨⟨t, e⟩, S.grants ++ [⟨c, id, r⟩], S.allocs + 1⟩ := by
  obtain ⟨rfl, hnext, hset⟩ := track_eq_some ht
  obtain ⟨n, hn, hid, hnat, hle⟩ := hI.nextId_toNat hlt
  refine ⟨he, ?_, hI.track_apart hfresh ht, ?_, ?_, ?_⟩
  · intro s hs
    rcases setFirst_mem hset hs with heq | hold
    all_goals grind [hI.granted, hk.pageSet]
  · refine ⟨n + 1, Nat.succ_le_succ hn, ?_, ?_⟩
    · rw [hnext, hid]
      exact (UInt32.ofNat_add (n + 1) 1).symm
    · grind
  · grind [hI.used, hk.used]
  · grind [hI.distinct, hI.used]

include hL in
/-- One request keeps the invariant. -/
theorem handle (ctx : Ctx ε) (msg : Words) (hw : (S.handle eng ctx msg).2.Within B) :
    Service.Inv eng I used (S.handle eng ctx msg).2 := by
  have hserved := serve_served eng ctx msg S.server
  obtain ⟨hlt, hB⟩ := hw
  unfold Service.handle at hlt hB ⊢
  generalize serve eng ctx msg S.server = r at hserved hlt hB
  cases hserved with
  | idle reply hcmd => simpa [Handled.grants] using hI
  | refused err e hcmd ha =>
    obtain ⟨he, hk⟩ := hL.alloc_error hI.engine hB ha
    simpa [Handled.grants] using hI.engine_step he hk (fun _ _ => not_false) (Nat.le_refl _)
  | full ps e hcmd ha =>
    obtain ⟨he, hk, hfresh, -⟩ := hL.alloc_ok hI.engine (hL.free_within hB) ha
    obtain ⟨he', hk'⟩ := hL.free he hB
    simpa [Handled.grants] using hI.engine_step he' ((hk.mono fun _ => False.elim).trans hk')
      (fun s hs => hI.handle_ne hfresh hs) (Nat.le_succ _)
  | unexported ps e id t t' hcmd ha ht hr =>
    obtain ⟨he, hk, hfresh, -⟩ := hL.alloc_ok hI.engine (hL.free_within hB) ha
    obtain ⟨he', hk'⟩ := hL.free he hB
    -- the entry made for the export is taken out again, but its id is spent
    obtain ⟨hnext, hap, hsub⟩ := hI.track_remove hlt hfresh ht hr
    obtain ⟨-, htn, -⟩ := track_eq_some ht
    simpa [Handled.grants] using hI.shrink he' ((hk.mono fun _ => False.elim).trans hk')
      (fun s hs => ⟨hsub s hs, hI.handle_ne hfresh (hsub s hs)⟩) hap
      (hI.ids_succ (hnext.trans htn))
  | granted ps e id t r idx hcmd ha ht hps hx =>
    obtain ⟨he, hk, hfresh, r', hr', hnew, hused⟩ := hL.alloc_ok hI.engine hB ha
    rw [hps] at hr'
    cases hr'
    simpa [Handled.grants] using hI.grant hlt he hk hfresh hps hnew hused ht
  | io method ps result e hm ht he reply =>
    obtain ⟨hE, hk⟩ := io_keeps hL hI.engine hB hm he
    simpa [Handled.grants] using hI.engine_step hE hk (fun _ _ => not_false) (Nat.le_refl _)
  | freed ps t hcmd hr reply =>
    obtain ⟨he, hk⟩ := hL.free hI.engine hB
    obtain ⟨htr, hnext, hset⟩ := remove_eq_some hr
    obtain ⟨s0, hf, -, -, -, rfl⟩ := translate_eq_some htr
    have hap : t.slots.Pairwise SlotsApart :=
      setFirst_pairwise hset hI.apart fun o _ => SlotsApart.none o
    have hids := hI.ids
    rw [← hnext] at hids
    simpa [Handled.grants] using hI.shrink he hk (hI.removed_apart hset hf) hap hids

include hL in
theorem step {ev : ServiceEvent ε ρ} (hspare : S.Spares eng ev)
    (hw : (S.step eng ev).Within B) : Service.Inv eng I used (S.step eng ev) := by
  cases ev with
  | request ctx msg => exact hI.handle hL ctx msg hw
  | donated given =>
    show (S.revoke eng given).Inv eng I used
    rw [Service.revoke_eq_self hL hspare]
    exact hI

/-- The handle an id translates to stands for the PageSet granted under that id to that caller. -/
theorem translate (ht : S.server.buffers.translate id c = some h) :
    ∃ r, eng.pageSet S.server.engine h = some r ∧ (⟨c, id, r⟩ : Grant ρ) ∈ S.grants := by
  obtain ⟨s, -, hs, rfl, rfl, rfl⟩ := translate_eq_some ht
  exact hI.granted s hs

end

end Service.Inv

end Inv

end Lockjaw.User
