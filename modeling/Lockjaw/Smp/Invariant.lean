/-
  Lockjaw.Smp.Invariant

  What holds between two entries into the kernel, and that every elementary change of
  an entry keeps it: a CPU switches to a Ready thread, a thread blocks, wakes, exits,
  is cleaned up, is registered, or leaves `block_current`.

  The invariant has four parts.  `SlotsOk` ties the thread table and the exit records
  to the scheduler; `ProcsOk` ties the process objects to the table; `Ttbr0Ok` says
  whose page tables each CPU is on; `LoopsOk` says where the wait loops are.
-/

import Lockjaw.Smp.Machine
import Lockjaw.Sched.Fairness
import Lockjaw.Ipc.Threads
import Mathlib.Data.Finset.Card

namespace Lockjaw.Smp

open Sched Ipc.SchedSteps Function SchedState

/-! ## Parts of the invariant -/

/-- The slots of a process's registered threads. -/
def members (threads : Nat → Option Tcb) (p : Nat) : Finset Nat :=
  (Finset.range maxThreads).filter fun i => (threads i).map Tcb.processKva = some p

structure SlotsOk (s : SchedState) (threads : Nat → Option Tcb)
    (pendingExits : Fin maxCpus → Option PendingExit) : Prop where
  sched : s.Inv
  table : ∀ i, threads i = none ↔ s.get i = none
  pending : ∀ c r, pendingExits c = some r →
    s.get r.threadIdx = some .exited ∧ threads r.threadIdx = some r.tcb ∧
      ∀ d, s.tryCurrentFor d = some r.threadIdx → d = c
  exited : ∀ i, s.get i = some .exited → ∃ c r, pendingExits c = some r ∧ r.threadIdx = i
  pending_injective : ∀ c d r r', pendingExits c = some r → pendingExits d = some r' →
    r.threadIdx = r'.threadIdx → c = d
  pending_busy : ∀ c, s.tryCurrentFor c = none → pendingExits c = none

structure ProcsOk (threads : Nat → Option Tcb) (procs : Nat → Option ProcessObject) : Prop where
  /-- The boot thread holds slot 0, and it alone runs on the boot stack. -/
  image : ∀ i tcb, threads i = some tcb → (tcb.stackBase = .image ↔ i = 0)
  boot : threads 0 ≠ none
  lt : ∀ i tcb, threads i = some tcb → i < maxThreads
  process : ∀ i tcb, threads i = some tcb → procs tcb.processKva ≠ none
  counted : ∀ p P, procs p = some P →
    P.threadCount = (members threads p).card ∧ (members threads p).Nonempty
  mortal : ∀ p P, procs p = some P → P.immortal = false ∧ P.ttbr0Paddr ≠ 0
  roots : ∀ p q P Q, procs p = some P → procs q = some Q →
    P.ttbr0Paddr = Q.ttbr0Paddr → p = q

structure Ttbr0Ok (s : SchedState) (threads : Nat → Option Tcb)
    (procs : Nat → Option ProcessObject) (ttbr0 : Fin maxCpus → Nat) : Prop where
  own : ∀ c i tcb P, s.tryCurrentFor c = some i → threads i = some tcb →
    procs tcb.processKva = some P → ttbr0 c = P.ttbr0Paddr
  idle : ∀ c, s.tryCurrentFor c = none → ttbr0 c = 0

structure LoopsOk (s : SchedState) (cpuId : Nat → Option (Fin maxCpus)) : Prop where
  /-- A thread that is Blocked on a CPU called `block_current` there. -/
  blocked : ∀ c i, s.tryCurrentFor c = some i → s.get i = some .blocked → cpuId i = some c
  looping : ∀ i c, cpuId i = some c →
    s.get i ≠ none ∧ s.get i ≠ some .exited ∧ s.tryCurrentFor c ≠ none

structure Kernel.Inv (k : Kernel) : Prop where
  slots : SlotsOk k.sched k.threads k.pendingExits
  procs : ProcsOk k.threads k.procs
  ttbr0 : Ttbr0Ok k.sched k.threads k.procs k.ttbr0
  loops : LoopsOk k.sched k.cpuId

/-! ## Members of a process -/

section Members

variable {threads : Nat → Option Tcb} {procs : Nat → Option ProcessObject} {i p : Nat} {tcb : Tcb}

theorem mem_members : i ∈ members threads p ↔
    i < maxThreads ∧ ∃ tcb, threads i = some tcb ∧ tcb.processKva = p := by
  simp [members]

theorem card_members_le (threads : Nat → Option Tcb) (p : Nat) :
    (members threads p).card ≤ maxThreads := by
  refine (Finset.card_filter_le _ _).trans ?_
  rw [Finset.card_range]

/-- Emptying a slot takes it out of its process. -/
theorem members_erase (hi : threads i = some tcb) (p : Nat) :
    members (update threads i none) p =
      if tcb.processKva = p then (members threads p).erase i else members threads p := by
  ext j
  split <;> simp only [Finset.mem_erase, mem_members, update_apply] <;> grind

/-- Filling a free slot adds it to its process. -/
theorem members_insert (hlt : i < maxThreads) (hi : threads i = none) (p : Nat) :
    members (update threads i (some tcb)) p =
      if tcb.processKva = p then insert i (members threads p) else members threads p := by
  ext j
  split <;> simp only [Finset.mem_insert, mem_members, update_apply] <;> grind

theorem ProcsOk.mem (h : ProcsOk threads procs) (hi : threads i = some tcb) :
    i ∈ members threads tcb.processKva :=
  mem_members.mpr ⟨h.lt i tcb hi, tcb, hi, rfl⟩

/-- The count a process object is left with when one of its threads goes; the last
    thread takes the object with it. -/
def ProcessObject.without (P : ProcessObject) : Option ProcessObject :=
  if P.threadCount = 1 then none else some { P with threadCount := P.threadCount - 1 }

variable {P : ProcessObject}

theorem ProcessObject.without_root {Q : ProcessObject} (h : P.without = some Q) :
    Q.ttbr0Paddr = P.ttbr0Paddr ∧ Q.immortal = P.immortal := by
  unfold ProcessObject.without at h
  grind

/-- Object `p` replaced by one with the same root: who has which root stays. -/
theorem ProcsOk.roots_update (h : ProcsOk threads procs) {x : Option ProcessObject}
    (hx : ∀ Q, x = some Q → Q.ttbr0Paddr = P.ttbr0Paddr ∧ Q.immortal = P.immortal)
    (hP : P.immortal = false ∧ P.ttbr0Paddr ≠ 0)
    (hroot : ∀ q Q, procs q = some Q → Q.ttbr0Paddr = P.ttbr0Paddr → q = p) :
    (∀ q Q, update procs p x q = some Q → Q.immortal = false ∧ Q.ttbr0Paddr ≠ 0) ∧
    ∀ q q' Q Q', update procs p x q = some Q → update procs p x q' = some Q' →
      Q.ttbr0Paddr = Q'.ttbr0Paddr → q = q' := by
  simp only [update_apply]
  constructor
  · intro q Q hq
    grind [h.mortal]
  · intro q q' Q Q' hq hq' heq
    grind [h.roots]

theorem ProcsOk.erase (h : ProcsOk threads procs) (hi : threads i = some tcb)
    (hi0 : i ≠ 0) (hP : procs tcb.processKva = some P) :
    ProcsOk (update threads i none)
      (update procs tcb.processKva P.without) := by
  obtain ⟨hcount, -⟩ := h.counted _ P hP
  have hmem := h.mem hi
  have hcard := Finset.card_erase_of_mem hmem
  -- another member keeps the object there
  have hone : ∀ j ∈ members threads tcb.processKva, j ≠ i → P.threadCount ≠ 1 := by
    intro j hj hji hone
    exact hji (Finset.card_le_one.mp (by omega) j hj i hmem)
  obtain ⟨hmortal, hroots⟩ := h.roots_update (fun Q hQ => ProcessObject.without_root hQ)
    (h.mortal _ P hP) (fun q Q hQ heq => h.roots q _ Q P hQ hP heq)
  refine ⟨fun j tcb' hj => ?_, ?_, fun j tcb' hj => ?_, fun j tcb' hj => ?_, fun q Q hQ => ?_,
    hmortal, hroots⟩
  · grind [h.image, update_apply]
  · rw [update_of_ne hi0.symm]
    exact h.boot
  · have hlt := h.lt j tcb'
    grind [update_apply]
  · rw [update_apply] at hj ⊢
    have hkeep := hone j
    grind [h.process, mem_members, h.lt, ProcessObject.without]
  · rw [members_erase hi]
    by_cases hq : tcb.processKva = q
    · subst hq
      rw [if_pos rfl, hcard, ← hcount]
      grind [Finset.card_pos, ProcessObject.without]
    · grind [h.counted]

/-- A new thread, of a process that exists or of a new one. -/
theorem ProcsOk.insert (h : ProcsOk threads procs) (hlt : i < maxThreads)
    (hi : threads i = none) (hstack : tcb.stackBase ≠ .image)
    (hcount : P.threadCount = (members threads tcb.processKva).card)
    (hP : P.immortal = false ∧ P.ttbr0Paddr ≠ 0)
    (hroot : ∀ q Q, procs q = some Q → Q.ttbr0Paddr = P.ttbr0Paddr → q = tcb.processKva) :
    ProcsOk (update threads i (some tcb)) (update procs tcb.processKva
      (some { P with threadCount := P.threadCount + 1 })) := by
  have hi0 : i ≠ 0 := fun heq => h.boot (heq ▸ hi)
  have hnew : i ∉ members threads tcb.processKva := by
    rw [mem_members]
    grind
  obtain ⟨hmortal, hroots⟩ := h.roots_update (p := tcb.processKva) (P := P)
    (x := some { P with threadCount := P.threadCount + 1 }) (by grind) hP hroot
  refine ⟨fun j tcb' hj => ?_, ?_, fun j tcb' hj => ?_, fun j tcb' hj => ?_, fun q Q hQ => ?_,
    hmortal, hroots⟩
  · grind [h.image, update_apply]
  · rw [update_of_ne hi0.symm]
    exact h.boot
  · have hlt := h.lt j tcb'
    grind [update_apply]
  · grind [h.process, update_apply]
  · rw [members_insert hlt hi]
    by_cases hq : tcb.processKva = q
    · subst hq
      rw [update_self] at hQ
      obtain rfl := Option.some.inj hQ
      rw [if_pos rfl, Finset.card_insert_of_notMem hnew, ← hcount]
      exact ⟨rfl, Finset.insert_nonempty _ _⟩
    · grind [h.counted]

end Members

/-! ## A CPU switches to another thread -/

/-- `cpu` goes over to the Ready thread `next`, and nobody else's lot changes but for
    moves between Ready and Running. -/
structure Switched (s s' : SchedState) (cpu : Fin maxCpus) (next : Nat) : Prop where
  inv : s'.Inv
  same : SameBlocked s s'
  ready : s.get next = some .ready
  running : s'.get next = some .running
  current : ∀ d, s'.tryCurrentFor d = if cpu = d then some next else s.tryCurrentFor d

section Switched

variable {s : SchedState} {cpu : Fin maxCpus} {cur next : Nat}

theorem switched_applied (h : s.Inv) {reason : SchedReason} (hc : s.tryCurrentFor cpu = some cur)
    (hpre : stepPrecondition reason (s.get cur) = true) (hreason : reason ≠ .exit)
    (hd : s.Decided cur reason (.switchTo next)) :
    Switched s (s.applied cpu cur reason (.switchTo next)) cpu next where
  inv := h.applied hc hd hpre
  same := sameBlocked_applied hd hreason hpre
  ready := by
    cases hd
    assumption
  running := by
    cases hd
    exact get_applied_next rfl (by assumption)
  current d := by
    rw [tryCurrentFor_applied]
    rfl

theorem switched_dispatch (h : s.Inv) (hready : s.get next = some .ready)
    (hc : ∀ cur, s.tryCurrentFor cpu = some cur → s.get cur ≠ some .running) :
    Switched s ((s.setState next (some .running)).setCurrent cpu next) cpu next where
  inv := h.dispatch hready hc
  same := (sameBlocked_setState hready (by simp) (by simp)).setCurrent next
  ready := hready
  running := by
    rw [get_setCurrent, get_setState_of_some hready, if_pos rfl]
  current d := by rw [tryCurrentFor_setCurrent, tryCurrentFor_setState]

end Switched

/-! ## The elementary changes -/

namespace Kernel

variable {k : Kernel} {cpu : Fin maxCpus} {cur : Nat}

theorem Inv.tcb (h : k.Inv) (hc : k.sched.tryCurrentFor cpu = some cur) :
    ∃ tcb, k.threads cur = some tcb :=
  Option.ne_none_iff_exists'.mp
    (mt (h.slots.table cur).mp (h.slots.sched.current_registered cpu cur hc))

variable {i : Nat} {tcb : Tcb} {P : ProcessObject} {s : SchedState} {st : SchedThreadState}
  {threads : Nat → Option Tcb} {pendingExits : Fin maxCpus → Option PendingExit} {r : PendingExit}

theorem Inv.process (h : k.Inv) (hi : k.threads i = some tcb) :
    ∃ P, k.procs tcb.processKva = some P :=
  Option.ne_none_iff_exists'.mp (h.procs.process i tcb hi)

theorem Inv.switch (h : k.Inv) {s' : SchedState} {next : Nat}
    (hsw : Switched k.sched s' cpu next) (htcb : k.threads next = some tcb)
    (hP : k.procs tcb.processKva = some P) :
    ({ k with sched := s', ttbr0 := update k.ttbr0 cpu P.ttbr0Paddr } : Kernel).Inv := by
  have hsame := hsw.same
  refine ⟨⟨hsw.inv, fun i => (h.slots.table i).trans (hsame i).1.symm, fun c r hr => ?_,
    fun i hi => h.slots.exited i ((hsame i).2.2.mp hi), h.slots.pending_injective,
    fun c hc => ?_⟩, h.procs, ⟨fun c i tcb' P' hc hi hP' => ?_, fun c hc => ?_⟩,
    ⟨fun c i hc hb => ?_, fun i c hi => ?_⟩⟩ <;>
    simp only [update_apply, hsw.current] at *
  · obtain ⟨hex, htc, hon⟩ := h.slots.pending c r hr
    exact ⟨(hsame _).2.2.mpr hex, htc, by grind [hsw.ready]⟩
  · grind [h.slots.pending_busy]
  · grind [h.ttbr0.own]
  · grind [h.ttbr0.idle]
  · grind [h.loops.blocked, hsw.running, (hsame i).2.1]
  · obtain ⟨hreg, hlive, hbusy⟩ := h.loops.looping i c hi
    exact ⟨mt (hsame i).1.mp hreg, mt (hsame i).2.2.mp hlive, by grind⟩

/-- `get` after an in-place change of a registered thread. -/
theorem get_set {j : Nat} (hi : s.get i = some st) (x : Option SchedThreadState) :
    (s.setState i x).get j = if i = j then x else s.get j :=
  get_setState_of_some hi j x

/-- Rewriting a registered, not exited thread's state to another such state. -/
theorem SlotsOk.setLive (h : SlotsOk s threads pendingExits)
    {st' : SchedThreadState} (hi : s.get i = some st) (hst : st ≠ .exited)
    (hst' : st' ≠ .exited) (hinv : (s.setState i (some st')).Inv) :
    SlotsOk (s.setState i (some st')) threads pendingExits := by
  refine ⟨hinv, fun j => ?_, fun c r hr => ?_, fun j hj => ?_, h.pending_injective,
    h.pending_busy⟩
  · grind [h.table j, get_set hi]
  · obtain ⟨hex, htc, hon⟩ := h.pending c r hr
    exact ⟨by grind [get_set hi], htc, hon⟩
  · exact h.exited j (by grind [get_set hi])

/-- The current thread of `cpu` has called `block_current`. -/
def parked (k : Kernel) (cpu : Fin maxCpus) (cur : Nat) : Kernel :=
  { k with
    sched := k.sched.setState cur (some .blocked)
    cpuId := update k.cpuId cur (some cpu) }

theorem get_parked (hget : k.sched.get cur = some .running) :
    (k.parked cpu cur).sched.get i = if cur = i then some .blocked else k.sched.get i :=
  get_set hget _

theorem Inv.block (h : k.Inv) (hc : k.sched.tryCurrentFor cpu = some cur)
    (hrun : k.sched.get cur = some .running) : (k.parked cpu cur).Inv := by
  refine ⟨SlotsOk.setLive h.slots hrun (by simp) (by simp)
    (h.slots.sched.setState (by simp) (by simp)), h.procs, ⟨h.ttbr0.own, h.ttbr0.idle⟩,
    ⟨fun c i hci hb => ?_, fun i c hi => ?_⟩⟩ <;>
    simp only [parked, update_apply, get_set hrun,
      tryCurrentFor_setState] at *
  · grind [h.loops.blocked, h.slots.sched.current_injective]
  · grind [h.loops.looping]

theorem Inv.wake (h : k.Inv) {idx : Nat} (hb : k.sched.get idx = some .blocked) :
    ∃ st, st ≠ .blocked ∧ st ≠ .exited ∧
      k.sched.unblock idx = .ok (k.sched.setState idx (some st)) ∧
      ({ k with sched := k.sched.setState idx (some st) } : Kernel).Inv := by
  obtain ⟨st, hnb, hne, heq, hinv⟩ := unblock_of_blocked h.slots.sched hb
  refine ⟨st, hnb, hne, heq, SlotsOk.setLive h.slots hb (by simp) hne hinv, h.procs,
    ⟨h.ttbr0.own, h.ttbr0.idle⟩, ⟨fun c i hc hi => ?_, fun i c hi => ?_⟩⟩ <;>
    simp only [get_set hb, tryCurrentFor_setState] at *
  · grind [h.loops.blocked]
  · grind [h.loops.looping]

/-- A thread leaves `block_current`. -/
theorem Inv.leave (h : k.Inv) (hrun : k.sched.get cur = some .running) :
    ({ k with cpuId := update k.cpuId cur none } : Kernel).Inv := by
  refine ⟨h.slots, h.procs, h.ttbr0, ⟨fun c i hc hb => ?_, fun i c hi => ?_⟩⟩ <;>
    simp only [update_apply] at *
  · grind [h.loops.blocked]
  · grind [h.loops.looping]

/-- The state after the first half of an exit on `cpu`. -/
def exited (k : Kernel) (cpu : Fin maxCpus) (cur : Nat) (tcb : Tcb) : Kernel :=
  { k with
    sched := k.sched.setState cur (some .exited)
    pendingExits := update k.pendingExits cpu (some ⟨cur, tcb⟩) }

theorem Inv.exit (h : k.Inv) (hc : k.sched.tryCurrentFor cpu = some cur)
    (hrun : k.sched.get cur = some .running) (hout : k.cpuId cur = none)
    (hpend : k.pendingExits cpu = none) (htcb : k.threads cur = some tcb) :
    (k.exited cpu cur tcb).Inv := by
  refine ⟨⟨h.slots.sched.setState (by simp) (by simp), fun j => ?_, fun c r hr => ?_,
    fun j hj => ?_, fun c d r r' hr hr' heq => ?_, fun c hidle => ?_⟩, h.procs,
    ⟨h.ttbr0.own, h.ttbr0.idle⟩, ⟨fun c i hci hb => ?_, fun i c hi => ?_⟩⟩ <;>
    simp only [exited, update_apply, get_set hrun,
      tryCurrentFor_setState] at *
  · grind [h.slots.table j]
  · grind [h.slots.pending, h.slots.sched.current_injective]
  · by_cases hcj : cur = j
    · exact ⟨cpu, ⟨cur, tcb⟩, if_pos rfl, hcj⟩
    · obtain ⟨c, r, hr, hrj⟩ := h.slots.exited j (by grind)
      exact ⟨c, r, by grind, hrj⟩
  · grind [h.slots.pending, h.slots.pending_injective]
  · grind [h.slots.pending_busy]
  · grind [h.loops.blocked]
  · grind [h.loops.looping]

/-- The exit record of a CPU names a thread that is current nowhere once the CPU has
    gone on to another. -/
theorem SlotsOk.not_current (h : SlotsOk s threads pendingExits)
    (hr : pendingExits cpu = some r) (hc : s.tryCurrentFor cpu = some cur)
    (hne : r.threadIdx ≠ cur) (d : Fin maxCpus) : s.tryCurrentFor d ≠ some r.threadIdx := by
  intro hd
  rw [(h.pending cpu r hr).2.2 d hd, hc] at hd
  exact hne (Option.some.inj hd).symm

/-- The second half of an exit. -/
theorem Inv.cleaned (h : k.Inv)
    (hr : k.pendingExits cpu = some r) (hc : k.sched.tryCurrentFor cpu = some cur)
    (hne : r.threadIdx ≠ cur) (himage : r.tcb.stackBase ≠ .image)
    (hP : k.procs r.tcb.processKva = some P) :
    ({ k with
      sched := k.sched.setState r.threadIdx none
      threads := update k.threads r.threadIdx none
      pendingExits := update k.pendingExits cpu none
      procs := update k.procs r.tcb.processKva P.without } : Kernel).Inv := by
  obtain ⟨hex, htcb, -⟩ := h.slots.pending cpu r hr
  have hfree := SlotsOk.not_current h.slots hr hc hne
  have hi0 : r.threadIdx ≠ 0 := fun heq => himage ((h.procs.image _ _ htcb).mpr heq)
  refine ⟨⟨h.slots.sched.setState (fun c hcur => absurd hcur (hfree c)) (by simp), fun j => ?_,
    fun c r' hr' => ?_, fun j hj => ?_, fun c d r' r'' hr' hr'' => ?_, fun c hidle => ?_⟩,
    h.procs.erase htcb hi0 hP, ⟨fun c i tcb' P' hci hi hP' => ?_, h.ttbr0.idle⟩,
    ⟨fun c i hci hb => ?_, fun i c hi => ?_⟩⟩ <;>
    simp only [get_set hex, update_apply, tryCurrentFor_setState] at *
  · grind [h.slots.table j]
  · grind [h.slots.pending, h.slots.pending_injective]
  · obtain ⟨c, r', hr', hrj⟩ := h.slots.exited j (by grind)
    exact ⟨c, r', by grind, hrj⟩
  · grind [h.slots.pending_injective]
  · grind [h.slots.pending_busy]
  · have hown := h.ttbr0.own c i tcb' P hci
    grind [h.ttbr0.own, ProcessObject.without_root]
  · grind [h.loops.blocked]
  · grind [h.loops.looping]

/-- A new thread in a free slot. -/
theorem Inv.register (h : k.Inv) (hlt : i < maxThreads)
    (hfree : k.sched.get i = none) (hstack : tcb.stackBase ≠ .image)
    (hcount : P.threadCount = (members k.threads tcb.processKva).card)
    (hP : P.immortal = false ∧ P.ttbr0Paddr ≠ 0)
    (hsame : ∀ Q, k.procs tcb.processKva = some Q → Q.ttbr0Paddr = P.ttbr0Paddr)
    (hroot : ∀ q Q, k.procs q = some Q → Q.ttbr0Paddr = P.ttbr0Paddr → q = tcb.processKva) :
    ({ k with
      sched := k.sched.setState i (some .ready)
      threads := update k.threads i (some tcb)
      procs := update k.procs tcb.processKva
        (some { P with threadCount := P.threadCount + 1 }) } : Kernel).Inv := by
  have hget : ∀ j, (k.sched.setState i (some .ready)).get j =
      if i = j then some .ready else k.sched.get j := by
    intro j
    rw [get_setState]
    simp [hlt]
  have hcur : ∀ c, k.sched.tryCurrentFor c ≠ some i := fun c hc =>
    h.slots.sched.current_registered c i hc hfree
  have hthreads := (h.slots.table i).mpr hfree
  refine ⟨⟨h.slots.sched.setState (fun c hc => absurd hc (hcur c)) (by simp), fun j => ?_,
    fun c r hr => ?_, fun j hj => ?_, h.slots.pending_injective, h.slots.pending_busy⟩,
    h.procs.insert hlt hthreads hstack hcount hP hroot, ⟨fun c j tcb' P' hcj hj hP' => ?_,
    h.ttbr0.idle⟩, ⟨fun c j hcj hb => ?_, fun j c hj => ?_⟩⟩ <;>
    simp only [hget, update_apply, tryCurrentFor_setState] at *
  · grind [h.slots.table j]
  · grind [h.slots.pending]
  · exact h.slots.exited j (by grind)
  · have hold : k.threads j = some tcb' := by grind
    obtain ⟨Q, hQ⟩ := h.process hold
    grind [h.ttbr0.own c j tcb' Q hcj hold hQ]
  · grind [h.loops.blocked]
  · grind [h.loops.looping]

end Kernel

end Lockjaw.Smp
