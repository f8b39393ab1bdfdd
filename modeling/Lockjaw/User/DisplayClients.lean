/-
  Lockjaw.User.DisplayClients

  The display server with its clients.  A client has a handle table of its own, which
  the server does not see: an export fills an empty slot of it, and the client may
  close a handle at any time, or donate the PageSet behind it.

  The server knows a session by its number and a buffer by the slot it was exported
  to.  It does not ask who sends a request, and an export stays in the tracker when its
  slot is used again.  So a number stands for the first buffer that the session
  exported under it, to whichever client (`Desk.Tracked.programmed_eq`), while the slot
  of the client that created the session holds the last one, if it is open
  (`Desk.Ok.latest`).
-/

import Lockjaw.User.Ramfb

namespace Lockjaw.User.Ramfb

open Lib List Function

/-- The server, the client that created the last session, the buffers in the clients'
    handle tables, and the exports of the session in their order. -/
structure Desk where
  server : DisplayServer RamfbEngine
  creator : Option UInt64
  handles : UInt64 → UInt32 → Option PageSet
  exports : List (UInt32 × PageSet)

namespace Desk

def boot (process : Process) (scanout : Option RamfbConfig) : Desk :=
  ⟨⟨.new, .new, .boot process scanout⟩, none, fun _ _ => none, []⟩

inductive Event where
  | request (ctx : Ctx Answers) (msg : Words)
  | close (client : UInt64) (handle : UInt32)
  | donated (given : PageSet → Bool)

/-- The kernel exports to an empty slot of the caller's table. -/
def callCtx (D : Desk) (ctx : Ctx Answers) : Ctx Answers :=
  { ctx with exportSlot := ctx.exportSlot.filter fun idx =>
      (D.handles ctx.caller idx.toUInt32).isNone }

def serve (D : Desk) (ctx : Ctx Answers) (msg : Words) : Displayed RamfbEngine PageSet :=
  serveDisplay engine (D.callCtx ctx) (DisplayRequest.decode msg) D.server

/-- The slot and the buffer that a request exported. -/
def exportOf (r : Displayed RamfbEngine PageSet) : Option (UInt32 × PageSet) :=
  match r.response, r.exported with
  | .buffer handle _ _, some P => some (handle, P)
  | _, _ => none

/-- Client `client`'s slot `handle` is written. -/
def setHandle (D : Desk) (client : UInt64) (handle : UInt32) (P : Option PageSet) :
    UInt64 → UInt32 → Option PageSet :=
  update D.handles client (update (D.handles client) handle P)

def step (D : Desk) : Event → Desk
  | .close client handle => { D with handles := D.setHandle client handle none }
  | .donated given =>
    { D with server := revokeServer given D.server
             handles := fun client handle => (D.handles client handle).filter fun P => !given P }
  | .request ctx msg =>
    let r := D.serve ctx msg
    { server := r.next
      creator := match r.response with
        | .session _ => some ctx.caller
        | _ => D.creator
      handles := match exportOf r with
        | some (handle, P) => D.setHandle ctx.caller handle (some P)
        | none => D.handles
      exports :=
        if (releasedSession (DisplayRequest.decode msg)).isSome ∧ r.response = .ok then []
        else D.exports ++ (exportOf r).toList }

def run (D : Desk) (evs : List Event) : Desk := evs.foldl step D

/-- The number of the buffer that a request asks to show. -/
def shows : Option DisplayRequest → Option UInt32
  | some (.setMode _ _ buffer) | some (.setScanout _ buffer) => some buffer
  | _ => none

/-- The buffer the engine is told to show for a number. -/
def programmed (D : Desk) (buffer : UInt32) : Option PageSet :=
  (D.server.buffers.translate buffer).bind D.server.engine.process.handles

/-- Every SetMode and SetScanout accepted in the run comes from the client that created the
    session, and programs the buffer that the handle it names denotes. -/
def OwnBuffers (D₀ : Desk) (evs : List Event) : Prop :=
  ∀ pre ctx msg buffer, pre ++ [.request ctx msg] <+: evs →
    shows (DisplayRequest.decode msg) = some buffer →
    ((D₀.run pre).serve ctx msg).response = .ok →
    (D₀.run pre).creator = some ctx.caller ∧ ∃ P, (D₀.run pre).programmed buffer = some P ∧
      (D₀.run pre).handles ctx.caller buffer = some P

/-! ## The session -/

/-- The session that a request names in order to use it. -/
def usedSession : Option DisplayRequest → Option UInt32
  | some (.allocBuffer sid _ _ _) | some (.setMode sid _ _) | some (.setScanout sid _) => some sid
  | _ => none

section

variable {ε σ ρ : Type} {eng : DisplayEngine ε σ ρ} {ctx : Ctx ε} {s : DisplayServer σ}
  {req : Option DisplayRequest}

/-- A request that names another session is refused. -/
theorem serveDisplay_refused {sid : UInt32} (hsid : usedSession req = some sid)
    (h : s.session.active ≠ some sid) :
    serveDisplay eng ctx req s = ⟨.err .invalidSession, none, s⟩ := by
  have hvalid : s.session.valid sid = false := by simpa [SessionState.valid] using h
  rcases req with _ | (_ | _ | _ | ⟨_, _, _, _⟩ | ⟨_, _, _⟩ | ⟨_, _⟩ | _) <;>
    simp_all [usedSession, serveDisplay, serveAllocBuffer, serveProgram]

variable (eng ctx s req) in
/-- A session begins only when there is none, and ends only when it is released. -/
theorem serveDisplay_session :
    ((serveDisplay eng ctx req s).next.session.active = s.session.active ∧
      ∀ id, (serveDisplay eng ctx req s).response ≠ .session id) ∨ s.session.active = none ∨
    (releasedSession req).isSome ∧ (serveDisplay eng ctx req s).response = .ok := by
  rcases req with _ | (_ | _ | _ | ⟨_, _, _, _⟩ | ⟨_, _, _⟩ | ⟨_, _⟩ | _)
  case some.createSession =>
    cases hactive : s.session.active with
    | none => exact Or.inr (Or.inl rfl)
    | some id =>
      refine Or.inl ⟨?_, ?_⟩ <;>
        simp [serveDisplay, serveCreateSession, SessionState.create, hactive]
  all_goals
    simp only [serveDisplay, serveAllocBuffer, serveProgram, serveReleaseSession, okOrErr,
      releasedSession]
    grind

end

/-! ## The tracker -/

/-- The tracker holds the exports of the session in their order. -/
def Tracked (D : Desk) : Prop :=
  ∃ (slots : List DisplaySlot) (n : Nat), D.server.buffers = slots.map some ++ replicate n none ∧
    slots.map (fun s => (s.clientHandle, D.server.engine.process.handles s.engineHandle)) =
      D.exports.map fun x => (x.1, some x.2)

/-- The buffers that the session exported under a number. -/
def exportsAs (D : Desk) (buffer : UInt32) : List (UInt32 × PageSet) :=
  D.exports.filter (·.1 == buffer)

variable {D : Desk} {ctx : Ctx Answers} {msg : Words} {buffer : UInt32} {P : PageSet}

/-- A number that the tracker knows stands for the first export under it. -/
theorem Tracked.programmed_eq (h : D.Tracked) {ps : PageSetHandle}
    (ht : D.server.buffers.translate buffer = some ps) :
    ∃ x, (D.exportsAs buffer).head? = some x ∧ D.programmed buffer = some x.2 := by
  obtain ⟨slots, n, hbuffers, hmap⟩ := h
  have hslots : D.server.buffers.reduceOption = slots := by simp [hbuffers, reduceOption]
  obtain ⟨s, hs, rfl⟩ := Option.map_eq_some_iff.mp ht
  have hfind := congrArg (List.find? (·.1 == buffer)) hmap
  rw [find?_map, find?_map, ← hslots] at hfind
  obtain ⟨x, hx, heq⟩ := Option.map_eq_some_iff.mp
    (hfind.symm.trans (Option.map_eq_some_iff.mpr ⟨s, hs, rfl⟩))
  refine ⟨x, (head?_filter ..).trans hx, ?_⟩
  unfold programmed
  rw [ht]
  exact (Prod.mk.inj heq).2.symm

/-- The tracker and the handles behind it stay, and nothing is exported. -/
theorem Tracked.kept (h : D.Tracked) {D' : Desk} (hbuffers : D'.server.buffers = D.server.buffers)
    (hkeep : ∀ h P, D.server.engine.process.handles h = some P →
      D'.server.engine.process.handles h = some P) (hexports : D'.exports = D.exports) :
    D'.Tracked := by
  obtain ⟨slots, n, hslots, hmap⟩ := h
  refine ⟨slots, n, hbuffers.trans hslots, ?_⟩
  rw [hexports, ← hmap]
  refine map_congr_left fun s hs => ?_
  obtain ⟨x, -, hx⟩ := mem_map.mp (hmap ▸ mem_map_of_mem hs)
  obtain ⟨-, hP⟩ := Prod.mk.inj hx
  rw [← hP, hkeep _ _ hP.symm]

theorem Tracked.request (h : D.Tracked) (ctx : Ctx Answers) (msg : Words) :
    (D.step (.request ctx msg)).Tracked := by
  unfold step serve
  dsimp only
  generalize DisplayRequest.decode msg = req
  have hserved := serveDisplay_served engine (D.callCtx ctx) req D.server
  generalize hr : serveDisplay engine (D.callCtx ctx) req D.server = r at hserved ⊢
  have hkeep : releasedSession req = none ∨ r.response ≠ .ok → ∀ h P,
      D.server.engine.process.handles h = some P → r.next.engine.process.handles h = some P :=
    fun hreq h P => served_keeps hserved hreq
  cases hserved with
  | granted ps stride size e P idx ha hps =>
    obtain ⟨slots, n, hslots, hmap⟩ : Tracked ⟨⟨D.server.session, D.server.buffers, e⟩, none,
      D.handles, D.exports⟩ := h.kept rfl (hkeep (.inl rfl)) rfl
    dsimp only at hslots hmap
    -- a full tracker is refused, so the new entry comes right after the others
    have hcap : D.server.buffers.hasCapacity = true := by
      rw [serveDisplay, serveAllocBuffer] at hr
      grind
    cases n with
    | zero => simp [hslots, DisplayTracker.hasCapacity] at hcap
    | succ n =>
      refine ⟨slots ++ [⟨idx.toUInt32, ps⟩], n, ?_, ?_⟩
      · show (setFirst _ _ D.server.buffers).getD _ = _
        rw [hslots, replicate_succ, setFirst_append (by simp) rfl]
        simp
      · have hps : e.process.handles ps = some P := hps
        simp [hmap, hps, releasedSession, exportOf]
  | released =>
    exact ⟨[], D.server.buffers.length, by simp [releaseAll], by simp [releasedSession]⟩
  | idle resp session hok | session resp session hok =>
    exact h.kept rfl (hkeep (.inr hok)) (by simp [hok, exportOf])
  | refused | unexported | setMode | setScanout =>
    exact h.kept rfl (hkeep (.inl rfl)) (by simp [releasedSession, exportOf])
  | unreleased err e hrel => cases hrel

/-! ## Requests that keep to their own buffers -/

/-- Whoever uses the active session created it, and a number that is to be shown is open in the
    caller's table and was exported once only in this session.  No PageSet that the driver holds
    is donated. -/
def Proper (D : Desk) : Event → Prop
  | .request ctx msg => ∀ sid ∈ usedSession (DisplayRequest.decode msg),
      D.server.session.active = some sid → D.creator = some ctx.caller ∧
        ∀ buffer ∈ shows (DisplayRequest.decode msg),
          (D.handles ctx.caller buffer).isSome ∧ (D.exportsAs buffer).length ≤ 1
  | .close _ _ => True
  | .donated given => D.server.engine.process.Unheld given

instance (D : Desk) (ctx : Ctx Answers) (msg : Words) : Decidable (D.Proper (.request ctx msg)) :=
  have (sid : UInt32) : Decidable (D.server.session.active = some sid →
      D.creator = some ctx.caller ∧ ∀ buffer ∈ shows (DisplayRequest.decode msg),
        (D.handles ctx.caller buffer).isSome ∧ (D.exportsAs buffer).length ≤ 1) :=
    have := Option.decidableForallMem (o := shows (DisplayRequest.decode msg))
      (p := fun buffer => (D.handles ctx.caller buffer).isSome ∧ (D.exportsAs buffer).length ≤ 1)
    inferInstance
  Option.decidableForallMem _

/-- There are exports in a session only, and what an open slot of its creator holds is the last
    buffer exported under that number. -/
structure Ok (D : Desk) : Prop where
  tracked : D.Tracked
  idle : D.server.session.active = none → D.exports = []
  latest : ∀ client buffer x, D.creator = some client →
    (D.exportsAs buffer).getLast? = some x → ∀ P ∈ D.handles client buffer, P = x.2

/-- An export answers an AllocBuffer of the active session. -/
theorem exportOf_eq_some (h : exportOf (D.serve ctx msg) = some (buffer, P)) :
    ∃ sid, usedSession (DisplayRequest.decode msg) = some sid ∧
      D.server.session.active = some sid ∧ releasedSession (DisplayRequest.decode msg) = none ∧
      ∀ id, (D.serve ctx msg).response ≠ .session id := by
  unfold serve at h ⊢
  have hserved := serveDisplay_served engine (D.callCtx ctx) (DisplayRequest.decode msg) D.server
  have hrefused : ∀ sid, usedSession (DisplayRequest.decode msg) = some sid →
      D.server.session.active ≠ some sid →
      serveDisplay engine (D.callCtx ctx) (DisplayRequest.decode msg) D.server =
        ⟨.err .invalidSession, none, D.server⟩ := fun _ => serveDisplay_refused
  generalize DisplayRequest.decode msg = req at h hserved hrefused ⊢
  generalize serveDisplay engine (D.callCtx ctx) req D.server = r at h hserved hrefused ⊢
  cases hserved with
  | @granted sid =>
    refine ⟨sid, rfl, ?_, rfl, nofun⟩
    by_contra hne
    cases hrefused sid rfl hne
  | _ => simp [exportOf] at h

/-- The creator changes only with the session. -/
theorem step_creator (h : ∀ id, (D.serve ctx msg).response ≠ .session id) :
    (D.step (.request ctx msg)).creator = D.creator := by
  unfold step
  dsimp only
  split
  · rename_i id hid
    exact absurd hid (h id)
  · rfl

/-- A request that exports nothing. -/
theorem Ok.unexported (h : D.Ok) (hx : exportOf (D.serve ctx msg) = none) :
    (D.step (.request ctx msg)).Ok := by
  have hsession := serveDisplay_session engine (D.callCtx ctx) D.server (DisplayRequest.decode msg)
  have hnone : D.server.session.active = none → (D.step (.request ctx msg)).exports = [] := by
    intro hactive
    simp [step, hx, h.idle hactive]
  have hexports : (D.step (.request ctx msg)).exports = [] ∨
      (D.step (.request ctx msg)).exports = D.exports := by
    simp only [step, hx, Option.toList_none, append_nil]
    split_ifs
    · exact Or.inl rfl
    · exact Or.inr rfl
  refine ⟨h.tracked.request ctx msg, fun hactive => ?_, fun client buffer x hc hlast P hP => ?_⟩
  · rcases hsession with ⟨hsame, -⟩ | hactive' | hrel
    · exact hnone (hsame.symm.trans hactive)
    · exact hnone hactive'
    · exact if_pos hrel
  · rcases hexports with hnil | hsame
    · simp [exportsAs, hnil] at hlast
    -- with exports there is a session, so no new one has begun
    have hid : ∀ id, (D.serve ctx msg).response ≠ .session id := by
      rcases hsession with ⟨-, hid⟩ | hactive | ⟨-, hok⟩
      · exact hid
      · simp [exportsAs, hnone hactive] at hlast
      · exact fun id hid => nomatch hok.symm.trans hid
    rw [exportsAs, hsame] at hlast
    rw [step_creator hid] at hc
    exact h.latest client buffer x hc hlast P (by simpa [step, hx] using hP)

/-- A request that exports a buffer comes from the client that created the session. -/
theorem Ok.exported (h : D.Ok) (hev : D.Proper (.request ctx msg)) {y : UInt32 × PageSet}
    (hy : exportOf (D.serve ctx msg) = some y) : (D.step (.request ctx msg)).Ok := by
  obtain ⟨sid, hsid, hactive, hrel, hid⟩ := exportOf_eq_some hy
  have hexports : (D.step (.request ctx msg)).exports = D.exports ++ [y] := by
    simp [step, hy, hrel]
  refine ⟨h.tracked.request ctx msg, fun hnone => ?_, fun client buffer x hc hlast P hP => ?_⟩
  · have hsame : (D.serve ctx msg).next.session.active = D.server.session.active := by
      grind [serve, serveDisplay_session engine (D.callCtx ctx) D.server (DisplayRequest.decode msg)]
    cases hactive.symm.trans (hsame.symm.trans hnone)
  · rw [step_creator hid] at hc
    cases hc.symm.trans (hev sid hsid hactive).1
    have hP : update (D.handles ctx.caller) y.1 (some y.2) buffer = some P := by
      simpa [step, hy, setHandle] using hP
    rw [exportsAs, hexports, filter_append] at hlast
    by_cases hb : y.1 = buffer
    · simp [hb] at hlast hP
      rw [← hP, ← hlast]
    · rw [update_of_ne (Ne.symm hb)] at hP
      refine h.latest ctx.caller buffer x hc ?_ P hP
      simpa [exportsAs, hb] using hlast

theorem Ok.step {ev : Event} (h : D.Ok) (hev : D.Proper ev) : (D.step ev).Ok := by
  cases ev with
  | request ctx msg =>
    cases hx : exportOf (D.serve ctx msg) with
    | none => exact h.unexported hx
    | some y => exact h.exported hev hx
  | close client handle =>
    refine ⟨h.tracked, h.idle, fun c buffer x hc hx P hP => h.latest c buffer x hc hx P ?_⟩
    have hP : update D.handles client (update (D.handles client) handle none) c buffer = some P :=
      hP
    rw [update_apply] at hP
    split_ifs at hP with hclient
    · rw [update_apply] at hP
      split_ifs at hP
      exact hclient ▸ hP
    · exact hP
  | donated given =>
    have hserver : revokeServer given D.server = D.server := revokeServer_eq_self hev
    show Ok ⟨revokeServer given D.server, D.creator, _, D.exports⟩
    rw [hserver]
    exact ⟨h.tracked, h.idle, fun c buffer x hc hx P hP =>
      h.latest c buffer x hc hx P (Option.filter_eq_some_iff.mp hP).1⟩

/-- An accepted SetMode or SetScanout names the active session and a number in the tracker. -/
theorem shows_ok (hshows : shows (DisplayRequest.decode msg) = some buffer)
    (hok : (D.serve ctx msg).response = .ok) :
    ∃ sid ps, usedSession (DisplayRequest.decode msg) = some sid ∧
      D.server.session.active = some sid ∧ D.server.buffers.translate buffer = some ps := by
  unfold serve at hok
  generalize DisplayRequest.decode msg = req at hshows hok ⊢
  rcases req with _ | (_ | _ | _ | _ | ⟨sid, _, _⟩ | ⟨sid, _⟩ | _) <;> cases hshows <;>
    simp only [serveDisplay, serveProgram, SessionState.valid] at hok <;>
    refine ⟨sid, ?_⟩ <;>
    grind [usedSession]

/-- The server shows each client its own buffers, in every run in which whoever uses a session has
    created it, the numbers to be shown are open and were exported once, and no PageSet that the
    driver holds is donated. -/
theorem own_buffers_of_proper (process : Process) (scanout : Option RamfbConfig) (evs : List Event)
    (hevs : Guarded step Proper (boot process scanout) evs) :
    OwnBuffers (boot process scanout) evs := by
  rintro pre ctx msg buffer ⟨post, rfl⟩ hshows hok
  obtain ⟨hpre, hev, -⟩ := guarded_append.mp (guarded_append.mp hevs).1
  change ((boot process scanout).run pre).Proper (.request ctx msg) at hev
  have hD : ((boot process scanout).run pre).Ok :=
    hpre.keeps (W := fun _ => True) (fun _ _ _ h => h) (fun _ _ h hev _ => h.step hev)
      ⟨⟨[], maxBuffers, rfl, rfl⟩, fun _ => rfl, nofun⟩ trivial
  obtain ⟨sid, ps, hsid, hactive, ht⟩ := shows_ok hshows hok
  obtain ⟨hc, hnum⟩ := hev sid hsid hactive
  obtain ⟨hopen, hone⟩ := hnum buffer hshows
  obtain ⟨P, hP⟩ := Option.isSome_iff_exists.mp hopen
  obtain ⟨x, hfirst, hprog⟩ := hD.tracked.programmed_eq ht
  -- the only export under the number is its first and its last
  have hlast : (((boot process scanout).run pre).exportsAs buffer).getLast? = some x := by
    rwa [getLast?_eq_getElem?, Nat.sub_eq_zero_of_le hone, ← head?_eq_getElem?]
  cases hD.latest ctx.caller buffer x hc hlast P hP
  exact ⟨hc, x.2, hprog, hP⟩

/-- Client 7 opens a session and gets a buffer in slot 5. -/
def oneBuffer : List Event :=
  [.request client ⟨3, 0, 0, 0⟩,
   .request client ⟨4, 0, packU32Pair 320 240, pixelFormatXrgb8888.toUInt64⟩]

/-- It closes slot 5 and gets a second buffer, in slot `slot`. -/
def twoBuffers (slot : UInt64) : List Event :=
  oneBuffer ++ [.close 7 5, .request ⟨7, some slot, ⟨some (4, 0x50200000), true, false⟩⟩
    ⟨4, 0, packU32Pair 320 240, pixelFormatXrgb8888.toUInt64⟩]

/-- In slot 6 it can be shown.  A SetMode of client 8 that guesses another session is refused. -/
theorem own_buffers_of_proper_second :
    let evs := twoBuffers 6 ++ [.request { client with caller := 8 } ⟨5, 1, 0, 6⟩,
      .request client ⟨5, 0, 0, 6⟩]
    OwnBuffers (boot ⟨fun _ => none, 0⟩ none) evs ∧
      (((boot ⟨fun _ => none, 0⟩ none).run (twoBuffers 6)).serve client ⟨5, 0, 0, 6⟩).response =
        .ok :=
  ⟨own_buffers_of_proper _ _ _ ⟨by decide +kernel, by decide +kernel, trivial, by decide +kernel,
    by decide +kernel, by decide +kernel, trivial⟩, by decide +kernel⟩

/-- A SetMode with slot 5 shows the first buffer though the slot holds the second, and it is
    accepted from client 8, which has neither the session nor a buffer. -/
theorem other_buffer_shown :
    ¬ OwnBuffers (boot ⟨fun _ => none, 0⟩ none)
        (twoBuffers 5 ++ [.request client (setModeWords 0)]) ∧
      ¬ OwnBuffers (boot ⟨fun _ => none, 0⟩ none)
        (oneBuffer ++ [.request { client with caller := 8 } (setModeWords 0)]) := by
  constructor
  · intro h
    exact absurd (h _ _ _ 5 prefix_rfl (by decide) (by decide +kernel)) (by decide +kernel)
  · intro h
    exact absurd (h _ _ _ 5 prefix_rfl (by decide) (by decide +kernel)) (by decide +kernel)

end Desk

end Lockjaw.User.Ramfb
