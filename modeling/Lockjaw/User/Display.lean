/-
  Lockjaw.User.Display

  The display server of `lockjaw-userlib` (`run_display_server`) over any
  `DisplayEngine`.  As for the block server, an engine is given with the
  handle table of its process, and what the kernel answers during a request is
  in `Ctx`.  `DisplayServed` lists what one request can do.
-/

import Lockjaw.User.BlockServer

namespace Lockjaw.User

open Lib

/-! ## Protocol -/

/-- DRM fourcc "XR24". -/
def pixelFormatXrgb8888 : UInt32 := 0x34325258

structure ModeInfo where
  width : UInt32
  height : UInt32
  format : UInt32
  refreshMillihz : UInt32
  deriving DecidableEq, Repr

inductive DisplayError where
  | invalidMode
  | invalidSession
  | invalidBuffer
  | allocFailed
  | notConfigured
  | sessionBusy
  | unknownCommand
  | ipcFailed
  deriving DecidableEq, Repr

def DisplayError.code : DisplayError → UInt64
  | .invalidMode => 1
  | .invalidSession => 2
  | .invalidBuffer => 3
  | .allocFailed => 4
  | .notConfigured => 5
  | .sessionBusy => 6
  | .unknownCommand => 7
  | .ipcFailed => 8

inductive DisplayRequest where
  | listModes
  | getMode (index : UInt32)
  | createSession
  | allocBuffer (session width height format : UInt32)
  | setMode (session modeIndex buffer : UInt32)
  | setScanout (session buffer : UInt32)
  | releaseSession (session : UInt32)
  deriving DecidableEq, Repr

/-- A word that fits in 32 bits; larger ones are refused, not truncated. -/
def toU32 (v : UInt64) : Option UInt32 := if v > 0xffffffff then none else some v.toUInt32

def packU32Pair (a b : UInt32) : UInt64 := (a.toUInt64 <<< 32) ||| b.toUInt64

def unpackU32Pair (packed : UInt64) : UInt32 × UInt32 :=
  ((packed >>> 32).toUInt32, packed.toUInt32)

/-- `DisplayRequest::decode`: unknown tags and words out of range are refused. -/
def DisplayRequest.decode (msg : Words) : Option DisplayRequest :=
  if msg.w0 = 1 then some .listModes
  else if msg.w0 = 2 then (toU32 msg.w1).map .getMode
  else if msg.w0 = 3 then some .createSession
  else if msg.w0 = 4 then do
    let (width, height) := unpackU32Pair msg.w2
    return .allocBuffer (← toU32 msg.w1) width height (← toU32 msg.w3)
  else if msg.w0 = 5 then do
    return .setMode (← toU32 msg.w1) (← toU32 msg.w2) (← toU32 msg.w3)
  else if msg.w0 = 6 then do return .setScanout (← toU32 msg.w1) (← toU32 msg.w2)
  else if msg.w0 = 7 then (toU32 msg.w1).map .releaseSession
  else none

inductive DisplayResponse where
  | modeCount (count : UInt32)
  | mode (info : ModeInfo)
  | session (id : UInt32)
  | buffer (handle stride size : UInt32)
  | ok
  | err (e : DisplayError)
  deriving DecidableEq, Repr

def DisplayResponse.encode : DisplayResponse → Words
  | .modeCount count => ⟨0, count.toUInt64, 0, 0⟩
  | .mode m => ⟨0, packU32Pair m.width m.height, packU32Pair m.refreshMillihz m.format, 0⟩
  | .session id => ⟨0, id.toUInt64, 0, 0⟩
  | .buffer handle stride size => ⟨0, handle.toUInt64, stride.toUInt64, size.toUInt64⟩
  | .ok => ⟨0, 0, 0, 0⟩
  | .err e => ⟨e.code, 0, 0, 0⟩

/-! ## SessionState -/

structure SessionState where
  active : Option UInt32
  nextId : UInt32

namespace SessionState

def new : SessionState := ⟨none, 0⟩

def create (s : SessionState) : Except DisplayError UInt32 × SessionState :=
  if s.active.isSome then (.error .sessionBusy, s)
  else (.ok s.nextId, ⟨some s.nextId, s.nextId + 1⟩)

def valid (s : SessionState) (session : UInt32) : Bool := s.active == some session

end SessionState

/-! ## BufferTracker -/

/-- A client handle and the engine handle it stands for.  Client handles are
    indices of the clients' own tables, so two of them may be equal. -/
structure DisplaySlot where
  clientHandle : UInt32
  engineHandle : PageSetHandle
  deriving DecidableEq, Repr

abbrev DisplayTracker := List (Option DisplaySlot)

namespace DisplayTracker

def new : DisplayTracker := List.replicate maxBuffers none

def hasCapacity (t : DisplayTracker) : Bool := t.any Option.isNone

/-- The source ignores a full table here: capacity was checked before. -/
def track (t : DisplayTracker) (clientHandle : UInt32) (engineHandle : PageSetHandle) :
    DisplayTracker :=
  (setFirst Option.isNone (some ⟨clientHandle, engineHandle⟩) t).getD t

theorem mem_track {t : DisplayTracker} {clientHandle : UInt32} {engineHandle : PageSetHandle}
    {s : DisplaySlot} (hs : some s ∈ t.track clientHandle engineHandle) :
    s = ⟨clientHandle, engineHandle⟩ ∨ some s ∈ t := by
  unfold track at hs
  cases ht : setFirst Option.isNone (some ⟨clientHandle, engineHandle⟩) t with
  | none => exact Or.inr (by simpa [ht] using hs)
  | some t' =>
    rw [ht] at hs
    exact (setFirst_mem ht hs).imp_left Option.some.inj

def translate (t : DisplayTracker) (clientHandle : UInt32) : Option PageSetHandle :=
  (t.reduceOption.find? (·.clientHandle == clientHandle)).map DisplaySlot.engineHandle

end DisplayTracker

/-! ## Engines and the server loop -/

/-- A display engine over its state `σ`, with the handle table of its process. -/
structure DisplayEngine (ε σ ρ : Type) where
  modeCount : σ → UInt32
  getMode : UInt32 → σ → Option ModeInfo
  createSession : σ → Except DisplayError Unit × σ
  allocBuffer : Ctx ε → (session width height format : UInt32) → σ →
    Except DisplayError (PageSetHandle × UInt32 × UInt32) × σ
  setMode : Ctx ε → (session modeIndex : UInt32) → PageSetHandle → σ →
    Except DisplayError Unit × σ
  setScanout : Ctx ε → (session : UInt32) → PageSetHandle → σ → Except DisplayError Unit × σ
  freeBuffer : PageSetHandle → σ → σ
  releaseSession : (session : UInt32) → σ → Except DisplayError Unit × σ
  pageSet : σ → PageSetHandle → Option ρ

structure DisplayServer (σ : Type) where
  session : SessionState
  buffers : DisplayTracker
  engine : σ

/-- One request served: the response, the PageSet exported to the caller, if
    any, and the server afterwards. -/
structure Displayed (σ ρ : Type) where
  response : DisplayResponse
  exported : Option ρ
  next : DisplayServer σ

variable {ε σ ρ : Type} (eng : DisplayEngine ε σ ρ)

/-- Free every tracked buffer through the engine and empty the tracker. -/
def releaseAll (s : DisplayServer σ) : DisplayServer σ :=
  { s with buffers := s.buffers.map fun _ => none,
           engine := s.buffers.reduceOption.foldl (fun e b => eng.freeBuffer b.engineHandle e)
             s.engine }

/-- The response to a method that returns nothing. -/
def okOrErr : Except DisplayError Unit → DisplayResponse
  | .ok () => .ok
  | .error e => .err e

def serveCreateSession (s : DisplayServer σ) : Displayed σ ρ :=
  match s.session.create with
  | (.error e, _) => ⟨.err e, none, s⟩
  | (.ok id, session) =>
    match eng.createSession s.engine with
    | (.ok (), engine) => ⟨.session id, none, { s with session, engine }⟩
    | (.error e, engine) =>
      ⟨.err e, none, { s with session := { session with active := none }, engine }⟩

def serveAllocBuffer (ctx : Ctx ε) (sid width height format : UInt32) (s : DisplayServer σ) :
    Displayed σ ρ :=
  if s.session.valid sid = false then ⟨.err .invalidSession, none, s⟩
  else if s.buffers.hasCapacity = false then ⟨.err .allocFailed, none, s⟩
  else
    match eng.allocBuffer ctx sid width height format s.engine with
    | (.error e, engine) => ⟨.err e, none, { s with engine }⟩
    | (.ok (ps, stride, size), engine) =>
      match ctx.exportSlot, eng.pageSet engine ps with
      | some idx, some r =>
        ⟨.buffer idx.toUInt32 stride size, some r,
          { s with buffers := s.buffers.track idx.toUInt32 ps, engine }⟩
      | _, _ => ⟨.err .allocFailed, none, { s with engine := eng.freeBuffer ps engine }⟩

/-- SetMode and SetScanout translate the buffer and call an engine method. -/
def serveProgram (method : PageSetHandle → σ → Except DisplayError Unit × σ)
    (sid buffer : UInt32) (s : DisplayServer σ) : Displayed σ ρ :=
  if s.session.valid sid = false then ⟨.err .invalidSession, none, s⟩
  else
    match s.buffers.translate buffer with
    | none => ⟨.err .invalidBuffer, none, s⟩
    | some h =>
      match method h s.engine with
      | (result, engine) => ⟨okOrErr result, none, { s with engine }⟩

def serveReleaseSession (sid : UInt32) (s : DisplayServer σ) : Displayed σ ρ :=
  if s.session.valid sid = false then ⟨.err .invalidSession, none, s⟩
  else
    match eng.releaseSession sid s.engine with
    | (.error e, engine) => ⟨.err e, none, { s with engine }⟩
    | (.ok (), engine) => ⟨.ok, none,
        releaseAll eng { s with session := { s.session with active := none }, engine }⟩

/-- One iteration of the server loop; `none` is a message that does not decode. -/
def serveDisplay (ctx : Ctx ε) (req : Option DisplayRequest) (s : DisplayServer σ) :
    Displayed σ ρ :=
  match req with
  | none => ⟨.err .unknownCommand, none, s⟩
  | some .listModes => ⟨.modeCount (eng.modeCount s.engine), none, s⟩
  | some (.getMode index) =>
    match eng.getMode index s.engine with
    | some m => ⟨.mode m, none, s⟩
    | none => ⟨.err .invalidMode, none, s⟩
  | some .createSession => serveCreateSession eng s
  | some (.allocBuffer sid width height format) =>
    serveAllocBuffer eng ctx sid width height format s
  | some (.setMode sid modeIndex buffer) =>
    serveProgram (eng.setMode ctx sid modeIndex) sid buffer s
  | some (.setScanout sid buffer) => serveProgram (eng.setScanout ctx sid) sid buffer s
  | some (.releaseSession sid) => serveReleaseSession eng sid s

/-! ## What one request can do -/

/-- The effect of one request on tracker and engine. -/
inductive DisplayServed (ctx : Ctx ε) (s : DisplayServer σ) :
    Option DisplayRequest → Displayed σ ρ → Prop
  /-- Answered; at most the session table moved. -/
  | idle {req} (resp : DisplayResponse) (session : SessionState) (hok : resp ≠ .ok) :
      DisplayServed ctx s req ⟨resp, none, { s with session }⟩
  | session {req} (resp : DisplayResponse) (session : SessionState) (hok : resp ≠ .ok) :
      DisplayServed ctx s req
        ⟨resp, none, { s with session, engine := (eng.createSession s.engine).2 }⟩
  | refused {sid width height format} (err : DisplayError) (e : σ)
      (ha : eng.allocBuffer ctx sid width height format s.engine = (.error err, e)) :
      DisplayServed ctx s (some (.allocBuffer sid width height format))
        ⟨.err err, none, { s with engine := e }⟩
  | unexported {sid width height format} (ps : PageSetHandle) (stride size : UInt32) (e : σ)
      (ha : eng.allocBuffer ctx sid width height format s.engine = (.ok (ps, stride, size), e)) :
      DisplayServed ctx s (some (.allocBuffer sid width height format))
        ⟨.err .allocFailed, none, { s with engine := eng.freeBuffer ps e }⟩
  | granted {sid width height format} (ps : PageSetHandle) (stride size : UInt32) (e : σ) (r : ρ)
      (idx : UInt64)
      (ha : eng.allocBuffer ctx sid width height format s.engine = (.ok (ps, stride, size), e))
      (hps : eng.pageSet e ps = some r) :
      DisplayServed ctx s (some (.allocBuffer sid width height format))
        ⟨.buffer idx.toUInt32 stride size, some r,
          { s with buffers := s.buffers.track idx.toUInt32 ps, engine := e }⟩
  | setMode {sid modeIndex buffer} (h : PageSetHandle)
      (ht : s.buffers.translate buffer = some h) :
      DisplayServed ctx s (some (.setMode sid modeIndex buffer))
        ⟨okOrErr (eng.setMode ctx sid modeIndex h s.engine).1, none,
          { s with engine := (eng.setMode ctx sid modeIndex h s.engine).2 }⟩
  | setScanout {sid buffer} (h : PageSetHandle) (ht : s.buffers.translate buffer = some h) :
      DisplayServed ctx s (some (.setScanout sid buffer))
        ⟨okOrErr (eng.setScanout ctx sid h s.engine).1, none,
          { s with engine := (eng.setScanout ctx sid h s.engine).2 }⟩
  | unreleased {sid} (err : DisplayError) (e : σ)
      (hr : eng.releaseSession sid s.engine = (.error err, e)) :
      DisplayServed ctx s (some (.releaseSession sid)) ⟨.err err, none, { s with engine := e }⟩
  | released {sid} (e : σ) (hsid : s.session.valid sid = true)
      (hr : eng.releaseSession sid s.engine = (.ok (), e)) :
      DisplayServed ctx s (some (.releaseSession sid))
        ⟨.ok, none, releaseAll eng { s with session := { s.session with active := none },
                                            engine := e }⟩

variable {eng} {ctx : Ctx ε} {s : DisplayServer σ}

theorem serveCreateSession_served :
    DisplayServed eng ctx s (some .createSession) (serveCreateSession eng s) := by
  unfold serveCreateSession
  split
  · exact .idle _ s.session nofun
  · rename_i id session _
    have hcs : ∀ r e, eng.createSession s.engine = (r, e) → (eng.createSession s.engine).2 = e :=
      fun r e h => by rw [h]
    split
    · rename_i e he
      rw [← hcs _ _ he]
      exact .session _ session nofun
    · rename_i e he
      rw [← hcs _ _ he]
      exact .session _ _ nofun

theorem serveAllocBuffer_served (sid width height format : UInt32) :
    DisplayServed eng ctx s (some (.allocBuffer sid width height format))
      (serveAllocBuffer eng ctx sid width height format s) := by
  unfold serveAllocBuffer
  split
  · exact .idle _ s.session nofun
  split
  · exact .idle _ s.session nofun
  split
  · rename_i err e ha
    exact .refused err e ha
  · rename_i ps stride size e ha
    split
    · rename_i idx r _ hps
      exact .granted ps stride size e r idx ha hps
    · exact .unexported ps stride size e ha

theorem serveReleaseSession_served (sid : UInt32) :
    DisplayServed eng ctx s (some (.releaseSession sid)) (serveReleaseSession eng sid s) := by
  unfold serveReleaseSession
  split
  · exact .idle _ s.session nofun
  · rename_i hsid
    split
    · rename_i err e hr
      exact .unreleased err e hr
    · rename_i e hr
      exact .released e (by simpa using hsid) hr

/-- Every request does one of the things listed in `DisplayServed`. -/
theorem serveDisplay_served (eng : DisplayEngine ε σ ρ) (ctx : Ctx ε)
    (req : Option DisplayRequest) (s : DisplayServer σ) :
    DisplayServed eng ctx s req (serveDisplay eng ctx req s) := by
  rcases req with _ | (_ | index | _ | ⟨sid, w, h, f⟩ | ⟨sid, m, b⟩ | ⟨sid, b⟩ | sid)
  · exact .idle _ s.session nofun
  · exact .idle _ s.session nofun
  · simp only [serveDisplay]
    split
    · exact .idle _ s.session nofun
    · exact .idle _ s.session nofun
  · exact serveCreateSession_served
  · exact serveAllocBuffer_served sid w h f
  · simp only [serveDisplay, serveProgram]
    split
    · exact .idle _ s.session nofun
    split
    · exact .idle _ s.session nofun
    · rename_i ps ht
      exact .setMode ps ht
  · simp only [serveDisplay, serveProgram]
    split
    · exact .idle _ s.session nofun
    split
    · exact .idle _ s.session nofun
    · rename_i ps ht
      exact .setScanout ps ht
  · exact serveReleaseSession_served sid

end Lockjaw.User
