/-
  Lockjaw.User.Ramfb

  The ramfb driver's display engine, in its release build: strides and sizes
  are 32-bit products that wrap.  `scanout` is the configuration the device
  last took over.

  `Screen` carries next to the server which PageSets AllocBuffer has handed
  out and whether a SetMode has succeeded; `Screen.ScanoutOk` says that what
  is on the screen is a buffer the driver still holds.  A client can take a
  buffer from the driver by donating it.
-/

import Mathlib.Data.List.ReduceOption
import Lockjaw.User.Dma
import Lockjaw.User.Display

namespace Lockjaw.User.Ramfb

open Lib List
open Cap (pageSize)

/-! ## The engine -/

/-- Display mode table, first = preferred. -/
def modes : List ModeInfo :=
  [⟨320, 240, pixelFormatXrgb8888, 60000⟩, ⟨640, 480, pixelFormatXrgb8888, 60000⟩]

def maxEngineBuffers : Nat := 8

structure EngineBuffer where
  psHandle : PageSetHandle
  physAddr : UInt64
  deriving DecidableEq, Repr

/-- `RamfbConfig`, as the device takes it over. -/
structure RamfbConfig where
  fbPhys : UInt64
  width : UInt32
  height : UInt32
  stride : UInt32
  deriving DecidableEq, Repr

structure RamfbEngine where
  sessionActive : Bool
  currentMode : Option Nat
  buffers : List (Option EngineBuffer)
  process : Process
  scanout : Option RamfbConfig

/-- What the kernel and the device answer during one request: the memory for
    an allocation, whether the device took the configuration over, and whether
    it reported an error.  A transfer without an error was taken over. -/
structure Answers where
  alloc : AllocAnswer
  taken : Bool
  error : Bool

def programRamfb (ctx : Ctx Answers) (cfg : RamfbConfig) (e : RamfbEngine) :
    Except DisplayError Unit × RamfbEngine :=
  if ctx.answers.error then
    (.error .allocFailed, if ctx.answers.taken then { e with scanout := some cfg } else e)
  else (.ok (), { e with scanout := some cfg })

namespace RamfbEngine

def findBuffer (h : PageSetHandle) (e : RamfbEngine) : Option EngineBuffer :=
  e.buffers.reduceOption.find? (·.psHandle == h)

def createSession (e : RamfbEngine) : Except DisplayError Unit × RamfbEngine :=
  if e.sessionActive then (.error .sessionBusy, e) else (.ok (), { e with sessionActive := true })

def allocBuffer (ctx : Ctx Answers) (_session width height format : UInt32) (e : RamfbEngine) :
    Except DisplayError (PageSetHandle × UInt32 × UInt32) × RamfbEngine :=
  if format ≠ pixelFormatXrgb8888 then (.error .invalidMode, e)
  else
    -- the slot is chosen before the pages are allocated
    match e.buffers.findIdx? Option.isNone with
    | none => (.error .allocFailed, e)
    | some slotIdx =>
      let stride := width * 4
      let size := stride * height
      let pages := (size.toUInt64 + 4096 - 1) / 4096
      match allocDmaBacking ctx.answers.alloc pages e.process with
      | none => (.error .allocFailed, e)
      | some (backing, process) =>
        (.ok (backing.pageset, stride, size),
          { e with buffers := e.buffers.set slotIdx (some ⟨backing.pageset, backing.pa⟩),
                   process })

/-- The configuration that shows buffer `b` in mode `m`. -/
def configOf (b : EngineBuffer) (m : ModeInfo) : RamfbConfig :=
  ⟨b.physAddr, m.width, m.height, m.width * 4⟩

def setMode (ctx : Ctx Answers) (_session modeIndex : UInt32) (h : PageSetHandle)
    (e : RamfbEngine) : Except DisplayError Unit × RamfbEngine :=
  match modes[modeIndex.toNat]? with
  | none => (.error .invalidMode, e)
  | some mode =>
    match e.findBuffer h with
    | none => (.error .invalidBuffer, e)
    | some buf =>
      match programRamfb ctx (configOf buf mode) e with
      | (.error err, e) => (.error err, e)
      | (.ok (), e) => (.ok (), { e with currentMode := some modeIndex.toNat })

/-- Page flip.  `currentMode` is an index of the table, so the lookup the
    source does by indexing succeeds. -/
def setScanout (ctx : Ctx Answers) (_session : UInt32) (h : PageSetHandle) (e : RamfbEngine) :
    Except DisplayError Unit × RamfbEngine :=
  match e.currentMode.bind (modes[·]?) with
  | none => (.error .notConfigured, e)
  | some mode =>
    match e.findBuffer h with
    | none => (.error .invalidBuffer, e)
    | some buf => programRamfb ctx (configOf buf mode) e

def freeBuffer (h : PageSetHandle) (e : RamfbEngine) : RamfbEngine :=
  match setFirst (fun o => o.any (·.psHandle == h)) none e.buffers with
  | some buffers => { e with buffers, process := closeDmaBacking h e.process }
  | none => e

/-- The device keeps scanning out the last buffer. -/
def releaseSession (_session : UInt32) (e : RamfbEngine) :
    Except DisplayError Unit × RamfbEngine :=
  (.ok (), { e with sessionActive := false, currentMode := none })

end RamfbEngine

def engine : DisplayEngine Answers RamfbEngine PageSet where
  modeCount _ := modes.length.toUInt32
  getMode index _ := modes[index.toNat]?
  createSession := RamfbEngine.createSession
  allocBuffer := RamfbEngine.allocBuffer
  setMode := RamfbEngine.setMode
  setScanout := RamfbEngine.setScanout
  freeBuffer := RamfbEngine.freeBuffer
  releaseSession := RamfbEngine.releaseSession
  pageSet e h := e.process.handles h

/-- The engine when the server loop starts.  The self-test may have programmed
    a buffer of its own. -/
def RamfbEngine.boot (process : Process) (scanout : Option RamfbConfig) : RamfbEngine :=
  ⟨false, none, replicate maxEngineBuffers none, process, scanout⟩

/-! ## The screen -/

/-- The server with its history: the PageSets AllocBuffer exported, and
    whether a SetMode has succeeded. -/
structure Screen where
  server : DisplayServer RamfbEngine
  allocated : List PageSet
  modeSet : Bool

def Screen.boot (process : Process) (scanout : Option RamfbConfig) : Screen :=
  ⟨⟨.new, .new, .boot process scanout⟩, [], false⟩

def isSetMode : Option DisplayRequest → Bool
  | some (.setMode ..) => true
  | _ => false

/-- Serve one message. -/
def Screen.handle (ctx : Ctx Answers) (msg : Words) (S : Screen) : Screen :=
  let req := DisplayRequest.decode msg
  let r := serveDisplay engine ctx req S.server
  ⟨r.next, S.allocated ++ r.exported.toList,
    S.modeSet || (isSetMode req && r.response == .ok)⟩

/-- The kernel revokes the PageSets `given`. -/
def revokeServer (given : PageSet → Bool) (s : DisplayServer RamfbEngine) :
    DisplayServer RamfbEngine :=
  { s with engine := { s.engine with process := s.engine.process.revoke given } }

def Screen.step (S : Screen) : ServiceEvent Answers PageSet → Screen
  | .request ctx msg => S.handle ctx msg
  | .donated given => { S with server := revokeServer given S.server }

def Screen.run (evs : List (ServiceEvent Answers PageSet)) (S : Screen) : Screen :=
  evs.foldl Screen.step S

/-- Bytes the device scans out. -/
def RamfbConfig.bytes (cfg : RamfbConfig) : Nat := cfg.stride.toNat * cfg.height.toNat

/-- The scanned-out range lies in one buffer AllocBuffer allocated and whose
    PageSet the driver still holds. -/
def Screen.ScanoutOk (S : Screen) : Prop :=
  ∃ cfg h P, S.server.engine.scanout = some cfg ∧ S.server.engine.process.handles h = some P ∧
    P ∈ S.allocated ∧ P.Contains cfg.fbPhys.toNat cfg.bytes

/-! ## The engine's invariant -/

open RamfbEngine

/-- Two slots hold different handles. -/
def BuffersApart (o o' : Option EngineBuffer) : Prop :=
  ∀ b b', o = some b → o' = some b' → b.psHandle ≠ b'.psHandle

theorem BuffersApart.symm {o o' : Option EngineBuffer} (h : BuffersApart o o') :
    BuffersApart o' o := fun b b' hb hb' heq => h b' b hb' hb heq.symm

theorem BuffersApart.none (o : Option EngineBuffer) : BuffersApart o .none ∧ BuffersApart .none o :=
  ⟨fun _ _ _ h => (nomatch h), fun _ _ h => (nomatch h)⟩

/-- Every slot records an open handle and the address of its PageSet. -/
structure EngineOk (e : RamfbEngine) : Prop where
  opened : ∀ b, some b ∈ e.buffers →
    ∃ P, e.process.handles b.psHandle = some P ∧ P.pa = b.physAddr
  apart : e.buffers.Pairwise BuffersApart

section

variable {ctx : Ctx Answers} {sid width height format : UInt32} {h : PageSetHandle}
  {stride size : UInt32} {e e' : RamfbEngine}

theorem allocBuffer_error {err : DisplayError}
    (ha : e.allocBuffer ctx sid width height format = (.error err, e')) : e' = e := by
  grind [allocBuffer]

theorem allocBuffer_ok
    (ha : e.allocBuffer ctx sid width height format = (.ok (h, stride, size), e')) :
    e.process.handles h = none ∧ ∃ pa n slots,
      setFirst Option.isNone (some ⟨h, pa⟩) e.buffers = some slots ∧
      e' = { e with buffers := slots, process := e.process.create h pa n } := by
  grind [allocBuffer, allocDmaBacking_some, setFirst_eq_set]

variable {b : EngineBuffer}

theorem findBuffer_eq_some (hf : e.findBuffer h = some b) : some b ∈ e.buffers ∧ b.psHandle = h :=
  ⟨reduceOption_mem_iff.mp (mem_of_find?_eq_some hf), by simpa using find?_some hf⟩

/-- A recorded handle is open, so it is not one that was closed. -/
theorem EngineOk.psHandle_ne (hE : EngineOk e) (hfresh : e.process.handles h = none)
    (hb : some b ∈ e.buffers) : b.psHandle ≠ h := by
  rintro rfl
  obtain ⟨P, hP, -⟩ := hE.opened b hb
  rw [hfresh] at hP
  cases hP

theorem EngineOk.alloc (hE : EngineOk e)
    (ha : e.allocBuffer ctx sid width height format = (.ok (h, stride, size), e')) :
    EngineOk e' := by
  obtain ⟨hfresh, pa, n, slots, hs, rfl⟩ := allocBuffer_ok ha
  refine ⟨fun b hb => ?_, setFirst_pairwise hs hE.apart fun o ho => ?_⟩
  · grind [hE.opened, hE.psHandle_ne, Process.create_of_ne, Process.create_self, setFirst_mem]
  · have hne : BuffersApart o (some ⟨h, pa⟩) := by
      rintro b b' rfl hb'
      cases hb'
      exact hE.psHandle_ne hfresh ho
    exact ⟨hne, hne.symm⟩

theorem EngineOk.free (hE : EngineOk e) (h : PageSetHandle) : EngineOk (e.freeBuffer h) := by
  unfold freeBuffer
  split
  · rename_i slots hs
    refine ⟨fun b hb => ?_, setFirst_pairwise hs hE.apart fun o _ => BuffersApart.none o⟩
    rcases setFirst_apart hs hE.apart (fun _ _ h => h.symm) hb with heq | ⟨o, ho, hap⟩
    · cases heq
    · obtain ⟨b0, rfl, hb0⟩ := (Option.any_eq_true _ _).mp (find?_some ho)
      obtain ⟨P, hP, hpa⟩ := hE.opened b ((setFirst_mem hs hb).resolve_left nofun)
      refine ⟨P, (closeDmaBacking_of_ne ?_).trans hP, hpa⟩
      rw [← beq_iff_eq.mp hb0]
      exact hap b b0 rfl rfl
  · exact hE

/-- Creating a session touches no buffer. -/
theorem createSession_frame (e : RamfbEngine) : (createSession e).2.buffers = e.buffers ∧
    (createSession e).2.process = e.process ∧ (createSession e).2.scanout = e.scanout := by
  unfold createSession
  split_ifs <;> exact ⟨rfl, rfl, rfl⟩

theorem freeBuffer_handles {h' : PageSetHandle} (hne : h ≠ h') :
    (e.freeBuffer h').process.handles h = e.process.handles h := by
  unfold freeBuffer
  split
  · exact closeDmaBacking_of_ne hne
  · rfl

theorem freeBuffer_scanout (h : PageSetHandle) (e : RamfbEngine) :
    (e.freeBuffer h).scanout = e.scanout := by
  unfold freeBuffer
  split <;> rfl

/-- Programming the device changes at most `scanout`. -/
theorem programRamfb_effect (ctx : Ctx Answers) (cfg : RamfbConfig) (e : RamfbEngine) :
    ((programRamfb ctx cfg e).2 = e ∧ ∃ err, (programRamfb ctx cfg e).1 = .error err) ∨
      (programRamfb ctx cfg e).2 = { e with scanout := some cfg } := by
  unfold programRamfb
  split_ifs
  · exact Or.inr rfl
  · exact Or.inl ⟨rfl, _, rfl⟩
  · exact Or.inr rfl

end

/-! ## Requests that keep the screen inside a buffer -/

/-- The buffer and mode a request asks the device to show. -/
def target (s : DisplayServer RamfbEngine) : Option DisplayRequest →
    Option (PageSetHandle × ModeInfo)
  | some (.setMode _ modeIndex buffer) => do
    return (← s.buffers.translate buffer, ← modes[modeIndex.toNat]?)
  | some (.setScanout _ buffer) => do
    return (← s.buffers.translate buffer, ← s.engine.currentMode.bind (modes[·]?))
  | _ => none

/-- Bytes of one frame in a mode. -/
def frameBytes (m : ModeInfo) : Nat := (m.width * 4).toNat * m.height.toNat

/-- The session a request releases. -/
def releasedSession : Option DisplayRequest → Option UInt32
  | some (.releaseSession sid) => some sid
  | _ => none

/-- The buffer a request puts on the screen holds a whole frame, and once a
    mode has been set no session is released. -/
structure Careful (S : Screen) (msg : Words) : Prop where
  large : ∀ t ∈ target S.server (DisplayRequest.decode msg),
    ∀ P ∈ S.server.engine.process.handles t.1, frameBytes t.2 ≤ P.pages * pageSize
  held : S.modeSet = true → ∀ sid ∈ releasedSession (DisplayRequest.decode msg),
    S.server.session.valid sid = false

instance (S : Screen) (msg : Words) : Decidable (Careful S msg) :=
  have : Decidable (∀ sid ∈ releasedSession (DisplayRequest.decode msg),
      S.server.session.valid sid = false) :=
    Option.decidableForallMem _
  decidable_of_iff (_ ∧ _) ⟨fun h => ⟨h.1, h.2⟩, fun h => ⟨h.large, h.held⟩⟩

/-- Requests are careful, and no PageSet that the driver holds is donated. -/
def Proper (S : Screen) : ServiceEvent Answers PageSet → Prop
  | .request _ msg => Careful S msg
  | .donated given => S.server.engine.process.Unheld given

instance (S : Screen) (ctx : Ctx Answers) (msg : Words) : Decidable (Proper S (.request ctx msg)) :=
  inferInstanceAs (Decidable (Careful S msg))

/-- Tracked buffers are open PageSets that AllocBuffer exported, and what is on
    the screen is one of them. -/
structure ScreenOk (S : Screen) : Prop where
  engineOk : EngineOk S.server.engine
  tracked : ∀ s, some s ∈ S.server.buffers → ∃ P,
    S.server.engine.process.handles s.engineHandle = some P ∧ P ∈ S.allocated
  shown : S.modeSet = true → S.ScanoutOk

section

variable {ctx : Ctx Answers} {S : Screen} {msg : Words}

theorem screenOk_boot (p : Process) (scanout : Option RamfbConfig) :
    ScreenOk (Screen.boot p scanout) where
  engineOk := by
    refine ⟨fun b hb => ?_, ?_⟩
    · simp [Screen.boot, RamfbEngine.boot] at hb
    · simp only [Screen.boot, RamfbEngine.boot, pairwise_replicate]
      exact Or.inr (BuffersApart.none _).1
  tracked s hs := by simp [Screen.boot, DisplayTracker.new] at hs
  shown h := nomatch h

variable {e : RamfbEngine} {b : UInt32} {h : PageSetHandle} {mode : ModeInfo} {buf : EngineBuffer}

/-- The engine moved on, keeping the open handles and what is on the screen. -/
theorem ScreenOk.engine_step (hS : ScreenOk S) {session : SessionState}
    {l : List PageSet} {m : Bool} (he : EngineOk e)
    (hh : ∀ h P, S.server.engine.process.handles h = some P → e.process.handles h = some P)
    (hs : e.scanout = S.server.engine.scanout) (hm : (S.modeSet || m) = true → S.modeSet = true) :
    ScreenOk ⟨⟨session, S.server.buffers, e⟩, S.allocated ++ l, S.modeSet || m⟩ where
  engineOk := he
  tracked s hs := by
    obtain ⟨P, hP, hmem⟩ := hS.tracked s hs
    exact ⟨P, hh _ P hP, mem_append_left _ hmem⟩
  shown h := by
    obtain ⟨cfg, h, P, hcfg, hP, hmem, hin⟩ := hS.shown (hm h)
    exact ⟨cfg, h, P, hs.trans hcfg, hh h P hP, mem_append_left _ hmem, hin⟩

theorem translate_eq_some {t : DisplayTracker}
    (ht : t.translate b = some h) : ∃ s, some s ∈ t ∧ s.engineHandle = h := by
  obtain ⟨s, hs, rfl⟩ := Option.map_eq_some_iff.mp ht
  exact ⟨s, reduceOption_mem_iff.mp (mem_of_find?_eq_some hs), rfl⟩

/-- A configuration for a tracked buffer that holds a whole frame is inside a
    buffer the driver holds. -/
theorem ScreenOk.config_contains (hS : ScreenOk S) (ht : S.server.buffers.translate b = some h)
    (hbuf : S.server.engine.findBuffer h = some buf)
    (hlarge : ∀ P, S.server.engine.process.handles h = some P →
      frameBytes mode ≤ P.pages * pageSize) :
    ∃ P, S.server.engine.process.handles h = some P ∧ P ∈ S.allocated ∧
      P.Contains (configOf buf mode).fbPhys.toNat (configOf buf mode).bytes := by
  obtain ⟨s, hs, rfl⟩ := translate_eq_some ht
  obtain ⟨P, hP, hmem⟩ := hS.tracked s hs
  obtain ⟨hin, hps⟩ := findBuffer_eq_some hbuf
  obtain ⟨P', hP', hpa⟩ := hS.engineOk.opened buf hin
  rw [hps, hP] at hP'
  cases hP'
  refine ⟨P, hP, hmem, Nat.le_of_eq (by rw [hpa]; rfl), ?_⟩
  have := hlarge P hP
  show buf.physAddr.toNat + frameBytes mode ≤ _
  rw [hpa]
  omega

/-- The engine shows buffer `buf` in mode `mode` and is otherwise unchanged. -/
structure Shows (e e' : RamfbEngine) (buf : EngineBuffer) (mode : ModeInfo) : Prop where
  process : e'.process = e.process
  buffers : e'.buffers = e.buffers
  scanout : e'.scanout = some (configOf buf mode)

/-- SetMode shows the buffer it names, or fails and changes nothing. -/
theorem setMode_effect (ctx : Ctx Answers) (sid modeIndex : UInt32) (h : PageSetHandle)
    (e : RamfbEngine) :
    ((e.setMode ctx sid modeIndex h).2 = e ∧ okOrErr (e.setMode ctx sid modeIndex h).1 ≠ .ok) ∨
      ∃ mode buf, modes[modeIndex.toNat]? = some mode ∧ e.findBuffer h = some buf ∧
        Shows e (e.setMode ctx sid modeIndex h).2 buf mode := by
  unfold setMode
  split
  · exact Or.inl ⟨rfl, nofun⟩
  · rename_i mode hmode
    split
    · exact Or.inl ⟨rfl, nofun⟩
    · rename_i buf hbuf
      have heff := programRamfb_effect ctx (configOf buf mode) e
      split
      · rename_i err e' hp
        rw [hp] at heff
        rcases heff with ⟨rfl, -⟩ | rfl
        · exact Or.inl ⟨rfl, nofun⟩
        · exact Or.inr ⟨mode, buf, hmode, hbuf, rfl, rfl, rfl⟩
      · rename_i e' hp
        rw [hp] at heff
        rcases heff with ⟨-, err, herr⟩ | rfl
        · cases herr
        · exact Or.inr ⟨mode, buf, hmode, hbuf, rfl, rfl, rfl⟩

/-- SetScanout shows the buffer it names in the current mode, or changes nothing. -/
theorem setScanout_effect (ctx : Ctx Answers) (sid : UInt32) (h : PageSetHandle) (e : RamfbEngine) :
    (e.setScanout ctx sid h).2 = e ∨
      ∃ mode buf, e.currentMode.bind (modes[·]?) = some mode ∧ e.findBuffer h = some buf ∧
        Shows e (e.setScanout ctx sid h).2 buf mode := by
  unfold setScanout
  split
  · exact Or.inl rfl
  · rename_i mode hmode
    split
    · exact Or.inl rfl
    · rename_i buf hbuf
      rcases programRamfb_effect ctx (configOf buf mode) e with ⟨heq, -⟩ | heq
      · exact Or.inl heq
      · exact Or.inr ⟨mode, buf, hmode, hbuf, by rw [heq], by rw [heq], by rw [heq]⟩

/-- A careful SetMode or SetScanout leaves a held buffer on the screen. -/
theorem ScreenOk.program (hS : ScreenOk S) (ht : S.server.buffers.translate b = some h)
    (hbuf : S.server.engine.findBuffer h = some buf) (hshow : Shows S.server.engine e buf mode)
    (hlarge : ∀ P, S.server.engine.process.handles h = some P →
      frameBytes mode ≤ P.pages * pageSize) (m : Bool) :
    ScreenOk ⟨{ S.server with engine := e }, S.allocated ++ [], m⟩ where
  engineOk := ⟨by rw [hshow.buffers, hshow.process]; exact hS.engineOk.opened,
    by rw [hshow.buffers]; exact hS.engineOk.apart⟩
  tracked s hs := by
    rw [hshow.process, append_nil]
    exact hS.tracked s hs
  shown _ := by
    obtain ⟨P, hP, hmem, hin⟩ := hS.config_contains ht hbuf hlarge
    exact ⟨_, h, P, hshow.scanout, by rw [hshow.process]; exact hP,
      by rwa [append_nil], hin⟩

/-- Handles stay open until the session is released. -/
theorem served_keeps {s : DisplayServer RamfbEngine} {req : Option DisplayRequest}
    {r : Displayed RamfbEngine PageSet} (hserved : DisplayServed engine ctx s req r)
    (hreq : releasedSession req = none ∨ r.response ≠ .ok) {P : PageSet}
    (hP : s.engine.process.handles h = some P) : r.next.engine.process.handles h = some P := by
  cases hserved with
  | idle => exact hP
  | session =>
    exact (congrArg (·.handles h) (createSession_frame s.engine).2.1).trans hP
  | @refused sid width height format err e ha =>
    cases allocBuffer_error (show s.engine.allocBuffer ctx sid width height format = _ from ha)
    exact hP
  -- the handle the kernel gave for the new buffer was free, so it is another than `h`
  | @unexported sid width height format ps stride size e ha =>
    obtain ⟨hfresh, pa, n, slots, hs, rfl⟩ :=
      allocBuffer_ok (show s.engine.allocBuffer ctx sid width height format = _ from ha)
    have hne : h ≠ ps := by grind
    exact (freeBuffer_handles hne).trans ((Process.create_of_ne hne).trans hP)
  | @granted sid width height format ps stride size e r idx ha hps =>
    obtain ⟨hfresh, pa, n, slots, hs, rfl⟩ :=
      allocBuffer_ok (show s.engine.allocBuffer ctx sid width height format = _ from ha)
    have hne : h ≠ ps := by grind
    exact (Process.create_of_ne hne).trans hP
  | @setMode sid modeIndex b h' ht =>
    rcases setMode_effect ctx sid modeIndex h' s.engine with ⟨heq, -⟩ | ⟨_, _, -, -, hshow⟩
    · exact (congrArg (·.process.handles h) heq).trans hP
    · exact (congrArg (·.handles h) hshow.process).trans hP
  | @setScanout sid b h' ht =>
    rcases setScanout_effect ctx sid h' s.engine with heq | ⟨_, _, -, -, hshow⟩
    · exact (congrArg (·.process.handles h) heq).trans hP
    · exact (congrArg (·.handles h) hshow.process).trans hP
  | unreleased err e hr => cases hr
  | released => simp [releasedSession] at hreq

/-- One careful request keeps the screen inside a held buffer. -/
theorem ScreenOk.handle (hS : ScreenOk S) (ctx : Ctx Answers) (hmsg : Careful S msg) :
    ScreenOk (S.handle ctx msg) := by
  have hserved := serveDisplay_served engine ctx (DisplayRequest.decode msg) S.server
  have hlarge := hmsg.large
  have hheld := hmsg.held
  unfold Screen.handle
  dsimp only
  generalize serveDisplay engine ctx (DisplayRequest.decode msg) S.server = r at hserved
  generalize DisplayRequest.decode msg = req at hserved hlarge hheld
  have hE := hS.engineOk
  have hkeep : releasedSession req = none → ∀ h P, S.server.engine.process.handles h = some P →
      r.next.engine.process.handles h = some P := fun hreq h P => served_keeps hserved (.inl hreq)
  cases hserved with
  | idle resp session hok =>
    exact hS.engine_step hE (fun _ _ h => h) rfl (by simp [hok])
  | session resp session hok =>
    obtain ⟨hbuffers, hprocess, hscanout⟩ := createSession_frame S.server.engine
    have hE' : EngineOk (createSession S.server.engine).2 :=
      ⟨by rw [hbuffers, hprocess]; exact hE.opened, by rw [hbuffers]; exact hE.apart⟩
    exact hS.engine_step hE' (fun h P hP => (congrArg (·.handles h) hprocess).trans hP) hscanout
      (by simp [hok])
  | @refused sid width height format err e ha =>
    have ha : S.server.engine.allocBuffer ctx sid width height format = _ := ha
    cases allocBuffer_error ha
    exact hS.engine_step hE (fun _ _ h => h) rfl (by simp [isSetMode])
  | @unexported sid width height format ps stride size e ha =>
    have ha : S.server.engine.allocBuffer ctx sid width height format = _ := ha
    have hE' := (hE.alloc ha).free ps
    obtain ⟨-, pa, n, slots, hs, rfl⟩ := allocBuffer_ok ha
    exact hS.engine_step hE' (hkeep rfl) (freeBuffer_scanout ps _) (by simp [isSetMode])
  | @granted sid width height format ps stride size e r idx ha hps =>
    have ha : S.server.engine.allocBuffer ctx sid width height format = _ := ha
    have hE' := hE.alloc ha
    obtain ⟨-, pa, n, slots, hs, rfl⟩ := allocBuffer_ok ha
    have hstep : ScreenOk ⟨⟨S.server.session, S.server.buffers, _⟩, S.allocated ++ [r],
        S.modeSet || false⟩ := hS.engine_step hE' (hkeep rfl) rfl (by simp)
    refine ⟨hE', fun s hmem => ?_, fun hm => hstep.shown (by simpa [isSetMode] using hm)⟩
    rcases DisplayTracker.mem_track hmem with rfl | hold
    · exact ⟨r, hps, by simp⟩
    · exact hstep.tracked s hold
  | @setMode sid modeIndex b h ht =>
    rcases setMode_effect ctx sid modeIndex h S.server.engine with
      ⟨heq, hne⟩ | ⟨mode, buf, hmode, hbuf, hshow⟩
    · have hresp : okOrErr (engine.setMode ctx sid modeIndex h S.server.engine).1 ≠ .ok := hne
      rw [show (engine.setMode ctx sid modeIndex h S.server.engine).2 = S.server.engine from heq]
      exact hS.engine_step hE (fun _ _ h => h) rfl (by simp [hresp])
    -- the buffer shown is one the tracker lists, and a careful mode fits in it
    · exact hS.program ht hbuf hshow
        (hlarge (h, mode) (by simp [target, ht, hmode])) _
  | @setScanout sid b h ht =>
    rcases setScanout_effect ctx sid h S.server.engine with heq | ⟨mode, buf, hmode, hbuf, hshow⟩
    · rw [show (engine.setScanout ctx sid h S.server.engine).2 = S.server.engine from heq]
      exact hS.engine_step hE (fun _ _ h => h) rfl (by simp [isSetMode])
    · exact hS.program ht hbuf hshow
        (hlarge (h, mode) (by simp [target, ht, hmode])) _
  | unreleased err e hr => cases hr
  | @released sid e hsid hr =>
    -- a careful client releases the session only before the first SetMode
    have hm : S.modeSet = false := by
      by_contra hm
      rw [hheld (by simpa using hm) sid rfl] at hsid
      cases hsid
    cases hr
    have hE0 : EngineOk { S.server.engine with sessionActive := false, currentMode := none } :=
      ⟨hE.opened, hE.apart⟩
    refine ⟨List.foldlRecOn (motive := EngineOk) _ _ hE0 fun _ he b _ => he.free b.engineHandle,
      fun s hs => ?_, fun h => ?_⟩
    · simp [releaseAll] at hs
    · simp [hm, isSetMode] at h

theorem revokeServer_eq_self {given : PageSet → Bool} {s : DisplayServer RamfbEngine}
    (h : s.engine.process.Unheld given) : revokeServer given s = s := by
  unfold revokeServer
  rw [Process.revoke_eq_self h]

theorem ScreenOk.step {ev : ServiceEvent Answers PageSet} (hS : ScreenOk S) (hev : Proper S ev) :
    ScreenOk (S.step ev) := by
  cases ev with
  | request ctx msg => exact hS.handle ctx hev
  | donated given =>
    show ScreenOk ⟨revokeServer given S.server, S.allocated, S.modeSet⟩
    rwa [revokeServer_eq_self hev]

end

/-- From the first successful SetMode on, the screen shows a buffer the driver holds, in every run
    whose requests are careful and in which no PageSet that the driver holds is donated. -/
theorem scanout_in_held_buffer (p : Process) (scanout : Option RamfbConfig)
    (evs : List (ServiceEvent Answers PageSet))
    (hevs : Guarded Screen.step Proper (Screen.boot p scanout) evs)
    (hmode : ((Screen.boot p scanout).run evs).modeSet = true) :
    ((Screen.boot p scanout).run evs).ScanoutOk :=
  (hevs.keeps (W := fun _ => True) (fun _ _ _ h => h) (fun _ _ hS h _ => hS.step h)
    (screenOk_boot p scanout) trivial).shown hmode

/-! ## Runs -/

/-- The driver at the start of its server loop, no handle open. -/
def smallScreen : Screen := Screen.boot ⟨fun _ => none, 0⟩ none

/-- A client; the kernel has memory at 0x50000000 and free handle slots. -/
def client : Ctx Answers := ⟨7, some 5, ⟨some (3, 0x50000000), true, false⟩⟩

/-- CreateSession, then AllocBuffer of the given width and height. -/
def openSession (width height : UInt32) : List (ServiceEvent Answers PageSet) :=
  [.request client ⟨3, 0, 0, 0⟩,
   .request client ⟨4, 0, packU32Pair width height, pixelFormatXrgb8888.toUInt64⟩]

/-- SetMode of session 0 with the client's buffer 5. -/
def setModeWords (modeIndex : UInt64) : Words := ⟨5, 0, modeIndex, 5⟩

/-- A client releases its first session and donates the buffer it had; then it shows a second
    320x240 buffer in the 320x240 mode. -/
def secondSession : List (ServiceEvent Answers PageSet) :=
  openSession 320 240 ++ [.request client ⟨7, 0, 0, 0⟩, .donated fun P => P.serial == 0,
    .request client ⟨3, 0, 0, 0⟩,
    .request client ⟨4, 1, packU32Pair 320 240, pixelFormatXrgb8888.toUInt64⟩,
    .request client ⟨5, 1, 0, 5⟩]

theorem scanout_in_held_buffer_small : (smallScreen.run secondSession).ScanoutOk := by
  refine scanout_in_held_buffer _ _ _ ⟨by decide +kernel, by decide +kernel, by decide +kernel,
    fun h P hP => ?_, by decide +kernel, by decide +kernel, by decide +kernel, trivial⟩
    (by decide +kernel)
  have hP : Function.update (Function.update (fun _ => none) 3 (some _)) 3 none h = some P := hP
  simp at hP

/-- The requests of a client that releases its session after a SetMode. -/
def releaseRun : List (ServiceEvent Answers PageSet) :=
  openSession 320 240 ++ [.request client (setModeWords 0), .request client ⟨7, 0, 0, 0⟩]

theorem releaseRun_handles (h : PageSetHandle) :
    (smallScreen.run releaseRun).server.engine.process.handles h = none := by
  by_cases hh : h = 3
  · rw [hh]
    decide +kernel
  · show Function.update (Function.update (fun _ => none) 3 _) 3 none h = none
    simp [Function.update_of_ne hh]

/-- A one-pixel buffer is accepted for the 640x480 mode, so the device scans
    out 1228800 bytes from the start of a one-page buffer; and after a release
    it goes on scanning out a buffer whose handle is closed. -/
theorem scanout_escapes :
    let S₁ := smallScreen.run (openSession 1 1 ++ [.request client (setModeWords 1)])
    let S₂ := smallScreen.run releaseRun
    (S₁.modeSet = true ∧ ¬ S₁.ScanoutOk) ∧ S₂.modeSet = true ∧ ¬ S₂.ScanoutOk := by
  refine ⟨⟨by decide +kernel, ?_⟩, by decide +kernel, ?_⟩
  · rintro ⟨cfg, h, P, hcfg, -, hmem, -, hin⟩
    rw [show (smallScreen.run (openSession 1 1 ++ [.request client (setModeWords 1)])).allocated =
      [⟨0, 0x50000000, 1⟩] by decide +kernel, mem_singleton] at hmem
    rw [show (smallScreen.run (openSession 1 1 ++
      [.request client (setModeWords 1)])).server.engine.scanout = some ⟨0x50000000, 640, 480, 2560⟩ by
        decide +kernel] at hcfg
    cases hcfg
    subst hmem
    exact absurd hin (by decide)
  · rintro ⟨cfg, h, P, -, hP, -⟩
    rw [releaseRun_handles] at hP
    cases hP

end Lockjaw.User.Ramfb
