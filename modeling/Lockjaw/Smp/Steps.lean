/-
  Lockjaw.Smp.Steps

  What each entry into the kernel does, in terms of the elementary changes.

  An entry that schedules begins with `finish_exit`.  All that happens after it is
  `Quiet`: no thread is cleaned up and no process object is touched.  So an entry is a
  `finish_exit` and a quiet rest, or a creation.
-/

import Lockjaw.Smp.Invariant

namespace Lockjaw.Smp

open Sched Ipc.SchedSteps Function SchedState Except Option

theorem of_bind_ok {α β : Type} {x : Except Panic α} {f : α → Except Panic β} {b : β}
    (h : (x >>= f) = .ok b) : ∃ a, x = .ok a ∧ f a = .ok b := by
  cases x with
  | error p => cases h
  | ok a => exact ⟨a, rfl, h⟩

/-! ## The life of a slot -/

/-- What a slot of the thread table is used for. -/
inductive Slot where
  | free
  | live
  /-- Its thread has exited and is not cleaned up yet. -/
  | gone
  deriving DecidableEq, Repr

def slotOf (s : SchedState) (i : Nat) : Slot :=
  match s.get i with
  | none => .free
  | some .exited => .gone
  | some _ => .live

/-- The one order in which a slot is used; `none` for an event out of order. -/
def Event.next (i : Nat) : Event → Slot → Option Slot
  | .created j, slot => if j ≠ i then some slot else if slot = .free then some .live else none
  | .exited j, slot => if j ≠ i then some slot else if slot = .live then some .gone else none
  | .cleaned j _ _, slot =>
      if j ≠ i then some slot else if slot = .gone then some .free else none
  | .returned _, slot => some slot

/-- Follow slot `i` through the events. -/
def history (i : Nat) (events : List Event) (slot : Slot) : Option Slot :=
  events.foldlM (fun slot e => e.next i slot) slot

theorem history_append (i : Nat) (es es' : List Event) (slot : Slot) :
    history i (es ++ es') slot = (history i es slot).bind (history i es') :=
  List.foldlM_append

section Slots

variable {s s' : SchedState} {i : Nat}

theorem slotOf_of_same (h : SameBlocked s s') (i : Nat) : slotOf s' i = slotOf s i := by
  obtain ⟨hnone, hblocked, hexited⟩ := h i
  unfold slotOf
  grind

/-- Slot `i` after the state of thread `j` was rewritten. -/
theorem slotOf_setState (hlt : i < maxThreads) (x : Option SchedThreadState) (j : Nat) :
    slotOf (s.setState i x) j =
      if i = j then (match x with
        | none => .free
        | some .exited => .gone
        | some _ => .live) else slotOf s j := by grind [get_setState, slotOf]

end Slots

/-! ## Effects -/

/-- When thread `i` of process `p` may be cleaned up, and when the process goes too. -/
structure Cleaned (k : Kernel) (i p : Nat) (released : Bool) : Prop where
  exited : k.sched.get i = some .exited
  idle : ∀ c, k.sched.tryCurrentFor c ≠ some i
  member : i ∈ members k.threads p
  last : released = true ↔ members k.threads p = {i}

/-- What every entry keeps and reports. -/
structure Effect (k : Kernel) (events : List Event) (k' : Kernel) : Prop where
  inv : k'.Inv
  slots : ∀ i, history i events (slotOf k.sched i) = some (slotOf k'.sched i)
  cleaned : ∀ i p released, .cleaned i p released ∈ events → Cleaned k i p released
  freed : ∀ p, k.procs p ≠ none →
    (k'.procs p = none ↔ ∃ i, .cleaned i p true ∈ events)

/-- A part of an entry in which nothing is cleaned up. -/
structure Quiet (k : Kernel) (events : List Event) (k' : Kernel) : Prop where
  inv : k'.Inv
  slots : ∀ i, history i events (slotOf k.sched i) = some (slotOf k'.sched i)
  procs : k'.procs = k.procs
  silent : ∀ i p released, .cleaned i p released ∉ events

section Compose

variable {k k1 k' : Kernel} {es es' : List Event}

theorem Quiet.refl (h : k.Inv) : Quiet k [] k :=
  ⟨h, fun _ => rfl, rfl, fun _ _ _ => List.not_mem_nil⟩

theorem history_trans {s s1 s' : SchedState}
    (h : ∀ i, history i es (slotOf s i) = some (slotOf s1 i))
    (h' : ∀ i, history i es' (slotOf s1 i) = some (slotOf s' i)) (i : Nat) :
    history i (es ++ es') (slotOf s i) = some (slotOf s' i) := by
  rw [history_append, h i, bind_some, h' i]

theorem Quiet.trans (h : Quiet k es k1) (h' : Quiet k1 es' k') : Quiet k (es ++ es') k' :=
  ⟨h'.inv, history_trans h.slots h'.slots, h'.procs.trans h.procs, fun i p r hmem =>
    (List.mem_append.mp hmem).elim (h.silent i p r) (h'.silent i p r)⟩

theorem Effect.quiet (h : Effect k es k1) (h' : Quiet k1 es' k') : Effect k (es ++ es') k' := by
  have hmem : ∀ i p r, .cleaned i p r ∈ es ++ es' ↔ .cleaned i p r ∈ es := fun i p r =>
    List.mem_append.trans (or_iff_left (h'.silent i p r))
  refine ⟨h'.inv, history_trans h.slots h'.slots,
    fun i p r hr => h.cleaned i p r ((hmem i p r).mp hr), fun p hp => ?_⟩
  rw [h'.procs, h.freed p hp]
  simp only [hmem]

theorem Quiet.effect (h : Quiet k es k') : Effect k es k' :=
  ⟨h.inv, h.slots, fun i p r hr => absurd hr (h.silent i p r), fun p hp => by
    rw [h.procs]
    exact ⟨fun hnone => absurd hnone hp, fun ⟨i, hi⟩ => absurd hi (h.silent i p true)⟩⟩

/-- A first part that changes only the states of threads, none of them Exited. -/
theorem Effect.after (he : Effect k1 es k') (hthreads : k1.threads = k.threads)
    (hprocs : k1.procs = k.procs) (hcur : k1.sched.currentPerCpu = k.sched.currentPerCpu)
    (hslot : ∀ i, slotOf k1.sched i = slotOf k.sched i)
    (hex : ∀ i, k1.sched.get i = some .exited → k.sched.get i = some .exited) : Effect k es k' := by
  refine ⟨he.inv, fun i => hslot i ▸ he.slots i, fun i p r hr => ?_, fun p hp => ?_⟩
  · obtain ⟨hexited, hidle, hmem, hlast⟩ := he.cleaned i p r hr
    rw [hthreads] at hmem hlast
    refine ⟨hex i hexited, fun c hc => hidle c ?_, hmem, hlast⟩
    rw [tryCurrentFor, hcur]
    exact hc
  · exact he.freed p (hprocs ▸ hp)

end Compose

namespace Kernel

variable {k k' : Kernel} {cpu : Fin maxCpus} {cur : Nat} {es : List Event}

/-! ## `finish_exit` -/

/-- What a completed `finish_exit` leaves for the rest of the entry. -/
structure Drained (k : Kernel) (cpu : Fin maxCpus) (es : List Event) (k' : Kernel) : Prop where
  effect : Effect k es k'
  current : k'.sched.currentPerCpu = k.sched.currentPerCpu
  live : ∀ i, k.sched.get i ≠ some .exited → k'.sched.get i = k.sched.get i
  cpuId : k'.cpuId = k.cpuId
  empty : ∀ r, k'.pendingExits cpu = some r → k.sched.tryCurrentFor cpu = some r.threadIdx

variable {s : SchedState} {i : Nat} {P : ProcessObject} {reason : SchedReason} {cpuId : Fin maxCpus}
  {tcb : Tcb}

theorem removeThread_of_exited (hex : s.get i = some .exited)
    (hidle : ∀ c, s.tryCurrentFor c ≠ some i) : s.removeThread i = .ok (s.setState i none) := by
  have hcur : s.isCurrent i = false := by
    rw [← Bool.not_eq_true, isCurrent_iff]
    rintro ⟨c, hc⟩
    exact hidle c hc
  simp [removeThread, hcur, hex]

/-- The counted process is left with one thread less, or goes. -/
theorem processDecThreadCount_eq {p : Nat} (hP : k.procs p = some P)
    (hpos : 0 < P.threadCount) (him : P.immortal = false) :
    k.processDecThreadCount p = .ok (k.setProcess p { P with threadCount := P.threadCount - 1 },
      if P.threadCount = 1 then .lastThread else .threadsRemaining (P.threadCount - 1)) := by
  have hne : P.threadCount ≠ 0 := by omega
  by_cases hone : P.threadCount = 1
  · simp [processDecThreadCount, processAt, hP, onThreadExit, him, hone, bind, Except.bind, pure,
      Except.pure, ProcessLifecycle.newCount]
  · have hsub : P.threadCount - 1 ≠ 0 := by omega
    simp [processDecThreadCount, processAt, hP, onThreadExit, him, hone, hne, hsub, bind,
      Except.bind, pure, Except.pure, ProcessLifecycle.newCount]

theorem cleanUp_eq {r : PendingExit}
    (hremove : k.sched.removeThread r.threadIdx = .ok (k.sched.setState r.threadIdx none))
    (himage : r.tcb.stackBase ≠ .image) (hP : k.procs r.tcb.processKva = some P)
    (hpos : 0 < P.threadCount) (him : P.immortal = false) :
    k.cleanUp cpu r = .ok ({ k with
      sched := k.sched.setState r.threadIdx none
      threads := update k.threads r.threadIdx none
      pendingExits := update k.pendingExits cpu none
      procs := update k.procs r.tcb.processKva P.without },
      [.cleaned r.threadIdx r.tcb.processKva (P.threadCount == 1)]) := by
  have hdec := fun sched threads pendingExits => processDecThreadCount_eq
    (k := { k with sched := sched, threads := threads, pendingExits := pendingExits }) hP hpos him
  rw [cleanUp, hremove]
  dsimp only
  rw [if_neg himage, hdec]
  by_cases hone : P.threadCount = 1 <;>
    simp [bind, Except.bind, pure, Except.pure, hone, setProcess, ProcessObject.without]

/-- `finish_exit` has nothing to do, stops at the boot thread, or cleans up. -/
theorem Inv.finishExit (h : k.Inv) (cpu : Fin maxCpus) :
    (k.finishExit cpu = .ok (k, []) ∧
      ∀ r, k.pendingExits cpu = some r → k.sched.tryCurrentFor cpu = some r.threadIdx) ∨
    (k.finishExit cpu = .error .bootExited ∧ ∃ r, k.pendingExits cpu = some r ∧ r.threadIdx = 0) ∨
    ∃ r released k', k.pendingExits cpu = some r ∧ k.finishExit cpu =
      .ok (k', [.cleaned r.threadIdx r.tcb.processKva released]) ∧
      k.Drained cpu [.cleaned r.threadIdx r.tcb.processKva released] k' := by
  unfold Kernel.finishExit
  cases hr : k.pendingExits cpu with
  | none => exact .inl ⟨rfl, by simp⟩
  | some r =>
    cases hc : k.sched.tryCurrentFor cpu with
    | none => exact absurd (h.slots.pending_busy cpu hc) (by simp [hr])
    | some cur =>
      dsimp only
      -- the exited thread may still be the current one: its stack is in use
      by_cases hcur : r.threadIdx = cur
      · grind
      rw [if_neg hcur]
      obtain ⟨hex, htcb, -⟩ := h.slots.pending cpu r hr
      have hidle := SlotsOk.not_current h.slots hr hc hcur
      have hremove := removeThread_of_exited hex hidle
      by_cases himage : r.tcb.stackBase = .image
      · refine .inr (.inl ⟨?_, r, rfl, (h.procs.image _ _ htcb).mp himage⟩)
        rw [cleanUp, hremove]
        simp [himage, bind, Except.bind, throw, throwThe, MonadExceptOf.throw]
      · obtain ⟨P, hP⟩ := h.process htcb
        obtain ⟨hcount, hne⟩ := h.procs.counted _ P hP
        have hmem := h.procs.mem htcb
        have hpos : 0 < P.threadCount := hcount ▸ Finset.card_pos.mpr hne
        refine .inr (.inr ⟨r, P.threadCount == 1, _, rfl,
          cleanUp_eq hremove himage hP hpos (h.procs.mortal _ P hP).1,
          ⟨h.cleaned hr hc hcur himage hP, fun i => ?_, fun i p released hmem' => ?_,
            fun p hp => ?_⟩, rfl, fun i hi => ?_, rfl, fun r' hr' => ?_⟩)
        · grind [Event.next, SchedState.lt_of_get_eq_some, history, slotOf, slotOf_setState]
        · obtain ⟨rfl, rfl, rfl⟩ : i = r.threadIdx ∧ p = r.tcb.processKva ∧
              released = (P.threadCount == 1) := by simpa using hmem'
          refine ⟨hex, hidle, hmem, ?_⟩
          rw [beq_iff_eq, hcount, Finset.card_eq_one]
          grind
        · dsimp only
          by_cases hpp : p = r.tcb.processKva
          · rw [hpp, Function.update_self, ProcessObject.without]
            by_cases hone : P.threadCount = 1 <;> simp [hone]
          · rw [Function.update_of_ne hpp]
            simp [hp, hpp]
        · have hij : r.threadIdx ≠ i := fun heq => hi (heq ▸ hex)
          dsimp only
          rw [get_set hex, if_neg hij]
        · dsimp only at hr'
          rw [Function.update_self] at hr'
          cases hr'

theorem Inv.drained (h : k.Inv) (hfin : k.finishExit cpu = .ok (k', es)) : k.Drained cpu es k' := by
  obtain ⟨heq, hempty⟩ | ⟨heq, -⟩ | ⟨r, released, k1, -, heq, hdrained⟩ := h.finishExit cpu
  · rw [heq] at hfin
    obtain ⟨rfl, rfl⟩ := Prod.mk.inj (ok.inj hfin)
    exact ⟨(Quiet.refl h).effect, rfl, fun _ _ => rfl, rfl, hempty⟩
  all_goals grind

/-! ## Scheduling -/

/-- The CPU stays where it is and no other thread is Ready, or it switches. -/
def Scheduled (k : Kernel) (cpu : Fin maxCpus) (cur : Nat) (k' : Kernel) : Prop :=
  (k' = k ∧ ∀ i, i ≠ cur → k.sched.get i ≠ some .ready) ∨
  ∃ next s' root, Switched k.sched s' cpu next ∧
    k' = { k with sched := s', ttbr0 := update k.ttbr0 cpu root } ∧ k'.Inv

theorem Scheduled.quiet (h : k.Inv) (hs : k.Scheduled cpu cur k') : Quiet k [] k' := by
  obtain ⟨rfl, -⟩ | ⟨next, s', root, hsw, rfl, hinv⟩ := hs
  · exact Quiet.refl h
  · exact ⟨hinv, fun i => congrArg some (slotOf_of_same hsw.same i).symm, rfl, by simp⟩

/-- The TTBR0 swap of a switch, whichever process the CPU comes from. -/
theorem Inv.swapTtbr0 (h : k.Inv) (old : Option Nat) {s' : SchedState} {next : Nat}
    (hsw : Switched k.sched s' cpu next) (hold : ∀ p, old = some p →
      ∃ i tcb, k.sched.tryCurrentFor cpu = some i ∧ k.threads i = some tcb ∧ tcb.processKva = p) :
    ∃ root, ({ k with sched := s' } : Kernel).swapTtbr0 cpu old next =
      .ok { k with sched := s', ttbr0 := update k.ttbr0 cpu root } ∧
      ({ k with sched := s', ttbr0 := update k.ttbr0 cpu root } : Kernel).Inv := by
  have hreg : k.threads next ≠ none := by
    rw [ne_eq, h.slots.table, hsw.ready]
    simp
  obtain ⟨tcb, htcb⟩ := ne_none_iff_exists'.mp hreg
  obtain ⟨P, hP⟩ := h.process htcb
  refine ⟨P.ttbr0Paddr, ?_, h.switch hsw htcb hP⟩
  simp only [Kernel.swapTtbr0, tcbOf, htcb, processAt, hP, bind, Except.bind]
  by_cases hsame : old = some tcb.processKva
  · -- same process: the CPU is on its page tables already
    obtain ⟨i, tcb', hc, hi, hp⟩ := hold _ hsame
    have hroot := h.ttbr0.own cpu i tcb' P hc hi (hp ▸ hP)
    rw [if_neg (by simp [hsame]), ← hroot, update_eq_self]
    rfl
  · rw [if_pos ⟨(h.procs.mortal _ P hP).2, hsame⟩]
    rfl

theorem Inv.scheduleNow (h : k.Inv) (reason : SchedReason) (hreason : reason ≠ .exit)
    (hc : k.sched.tryCurrentFor cpu = some cur) :
    (SchedState.stepPrecondition reason (k.sched.get cur) = false ∧
      k.scheduleNow cpu reason = .error (.sched (.stepPrecondition reason))) ∨
    (SchedState.stepPrecondition reason (k.sched.get cur) = true ∧
      ∃ k', k.scheduleNow cpu reason = .ok k' ∧ k.Scheduled cpu cur k') := by
  obtain ⟨tcb, htcb⟩ := h.tcb hc
  unfold Kernel.scheduleNow
  simp only [hc, tcbOf, htcb]
  cases hpre : SchedState.stepPrecondition reason (k.sched.get cur) with
  | false =>
    refine .inl ⟨rfl, ?_⟩
    simp [SchedState.step, SchedState.currentFor, hc, hpre, bind, Except.bind, liftSched, throw,
      throwThe, MonadExceptOf.throw]
  | true =>
    refine .inr ⟨rfl, ?_⟩
    obtain ⟨d, -, hd, hstep⟩ := SchedState.step_spec h.slots.sched hc hpre
    simp only [hstep, liftSched, bind, Except.bind]
    cases hd with
    | switchTo hr hnext =>
      have hsw := switched_applied h.slots.sched hc hpre hreason (.switchTo hr hnext)
      obtain ⟨root, heq, hinv⟩ := h.swapTtbr0 (some tcb.processKva) hsw
        fun p hp => ⟨cur, tcb, hc, htcb, some.inj hp⟩
      exact ⟨_, heq, .inr ⟨_, _, root, hsw, rfl, hinv⟩⟩
    | stay hrun hno => exact ⟨k, rfl, .inl ⟨rfl, hno⟩⟩
    | wait _ hcur hno => exact ⟨k, rfl, .inl ⟨rfl, hno⟩⟩
    | exitAndSwitch => exact absurd rfl hreason
    | exitAndHalt => exact absurd rfl hreason

theorem Inv.scheduleNow_quiet (h : k.Inv) (hreason : reason ≠ .exit)
    (hnow : k.scheduleNow cpu reason = .ok k') : Quiet k [] k' := by
  cases hc : k.sched.tryCurrentFor cpu with
  | none =>
    rw [Kernel.scheduleNow, hc] at hnow
    cases hnow
  | some cur =>
    obtain ⟨-, heq⟩ | ⟨-, k1, heq, hs⟩ := h.scheduleNow _ hreason hc
    · rw [heq] at hnow
      cases hnow
    · obtain rfl := ok.inj (heq.symm.trans hnow)
      exact hs.quiet h

theorem schedule_eq {k1 : Kernel} (reason : SchedReason) (hfin : k.finishExit cpu = .ok (k1, es)) :
    k.schedule cpu reason = (k1.scheduleNow cpu reason).map fun k' => (k', es) := by
  rw [schedule, hfin]
  rfl

theorem of_schedule_ok (hexec : k.schedule cpu reason = .ok (k', es)) :
    ∃ k1, k.finishExit cpu = .ok (k1, es) ∧ k1.scheduleNow cpu reason = .ok k' := by
  obtain ⟨⟨k1, es1⟩, hfin, hrest⟩ := of_bind_ok hexec
  obtain ⟨k2, hnow, heq⟩ := of_bind_ok hrest
  obtain ⟨rfl, rfl⟩ := Prod.mk.inj (ok.inj heq)
  exact ⟨k1, hfin, hnow⟩

section

variable (h : k.Inv)
include h

theorem Inv.schedule (hreason : reason ≠ .exit)
    (hexec : k.schedule cpu reason = .ok (k', es)) : Effect k es k' := by
  obtain ⟨k1, hfin, hnow⟩ := of_schedule_ok hexec
  have hd := h.drained hfin
  have heff := hd.effect.quiet (hd.effect.inv.scheduleNow_quiet hreason hnow)
  rwa [List.append_nil] at heff

theorem Inv.scheduleFromIdle (hexec : k.scheduleFromIdle cpu = .ok (k', es)) : Effect k es k' := by
  obtain ⟨⟨k1, es1⟩, hfin, hrest⟩ := of_bind_ok hexec
  have hd := h.drained hfin
  have hinv := hd.effect.inv
  suffices hq : es = es1 ∧ Quiet k1 [] k' by
    have heff := hd.effect.quiet hq.2
    rwa [List.append_nil, ← hq.1] at heff
  dsimp only at hrest
  cases hc : k1.sched.tryCurrentFor cpu with
  | some cur => simp [SchedState.stepFromIdle, hc, liftSched, bind, Except.bind] at hrest
  | none =>
    obtain ⟨next, hready, -, heq⟩ | ⟨-, heq⟩ := SchedState.stepFromIdle_cases hc
    · have hsw : Switched k1.sched _ cpu next :=
        switched_dispatch hinv.slots.sched hready (by simp [hc])
      obtain ⟨root, hswap, hinv'⟩ := hinv.swapTtbr0 none hsw (by simp)
      simp only [heq, liftSched, bind, Except.bind, hswap, pure, Except.pure, Except.ok.injEq,
        Prod.mk.injEq] at hrest
      obtain ⟨rfl, rfl⟩ := hrest
      refine ⟨rfl, @Scheduled.quiet _ _ cpu next hinv ?_⟩
      exact .inr ⟨next, _, root, hsw, rfl, hinv'⟩
    · simp only [heq, liftSched, bind, Except.bind, pure, Except.pure, Except.ok.injEq,
        Prod.mk.injEq] at hrest
      obtain ⟨rfl, rfl⟩ := hrest
      exact ⟨rfl, Quiet.refl hinv⟩

/-! ## The wait loop -/

section

variable (hc : k.sched.tryCurrentFor cpu = some cur) (hloop : k.cpuId cur = some cpuId)
include hc hloop

/-- A thread inside `block_current` that is current somewhere is Running, or it is
    Blocked on the CPU where its call began. -/
theorem Inv.looping_cases :
    k.sched.get cur = some .running ∨ (k.sched.get cur = some .blocked ∧ cpuId = cpu) := by
  obtain ⟨hreg, hlive, -⟩ := h.loops.looping cur cpuId hloop
  obtain ⟨st, hst⟩ := ne_none_iff_exists'.mp hreg
  cases st with
  | ready => exact absurd hst (h.slots.sched.current_not_ready cpu cur hc)
  | running => exact .inl hst
  | blocked =>
    have hown := h.loops.blocked cpu cur hc hst
    rw [hloop] at hown
    exact .inr ⟨hst, some.inj hown⟩
  | exited => exact absurd hst hlive

/-- Leaving the loop is always right: the caller runs. -/
theorem Inv.running_of_seen {seen : Nat}
    (hseen : k.sched.tryCurrentFor cpuId = some seen) (hrun : k.sched.get seen = some .running) :
    k.sched.get cur = some .running := by grind [h.looping_cases]

end

/-- The thread a turn looks at, and what the turn makes of it. -/
theorem Inv.waitTurn (hloop : k.cpuId cur = some cpuId) :
    ∃ seen, k.sched.tryCurrentFor cpuId = some seen ∧
      ((k.sched.get seen = some .running ∧ k.waitTurn cpuId = .ok true) ∨
        (k.sched.get seen = some .blocked ∧ k.waitTurn cpuId = .ok false) ∨
        (k.sched.get seen = some .exited ∧ k.waitTurn cpuId = .error .loopInvariant)) := by
  obtain ⟨seen, hseen⟩ := ne_none_iff_exists'.mp (h.loops.looping cur cpuId hloop).2.2
  have hreg := h.slots.sched.current_registered cpuId seen hseen
  obtain ⟨st, hst⟩ := ne_none_iff_exists'.mp hreg
  refine ⟨seen, hseen, ?_⟩
  simp only [Kernel.waitTurn, SchedState.currentFor, hseen, liftSched, bind, Except.bind, hst]
  cases st with
  | ready => exact absurd hst (h.slots.sched.current_not_ready cpuId seen hseen)
  | running => exact .inl ⟨rfl, rfl⟩
  | blocked => exact .inr (.inl ⟨rfl, rfl⟩)
  | exited => exact .inr (.inr ⟨rfl, rfl⟩)

theorem Inv.waitLoop (hc : k.sched.tryCurrentFor cpu = some cur) (hloop : k.cpuId cur = some cpuId)
    (hexec : k.waitLoop cpu cpuId = .ok (k', es)) : Effect k es k' := by
  obtain ⟨seen, hseen, hturn⟩ := h.waitTurn hloop
  unfold Kernel.waitLoop at hexec
  obtain ⟨hrun, heq⟩ | ⟨-, heq⟩ | ⟨-, heq⟩ := hturn
  · simp only [heq, SchedState.currentFor, hc, liftSched, bind, Except.bind, if_true] at hexec
    obtain ⟨rfl, rfl⟩ := Prod.mk.inj (ok.inj hexec)
    have hcur := h.running_of_seen hc hloop hseen hrun
    exact Quiet.effect ⟨h.leave hcur, fun i => rfl, rfl, by simp⟩
  · simp only [heq, bind, Except.bind, Bool.false_eq_true, if_false] at hexec
    exact h.schedule (by simp) hexec
  · simp only [heq, bind, bind] at hexec
    cases hexec

theorem Inv.blockCurrent (hexe : k.Executes cpu)
    (hexec : k.blockCurrent cpu = .ok (k', es)) : Effect k es k' := by
  obtain ⟨cur, hc, hrun, -⟩ := hexe
  simp only [Kernel.blockCurrent, SchedState.currentFor, hc, liftSched,
    blockCurrent_of_running hc hrun, bind, bind] at hexec
  have hlt := lt_of_get_eq_some hrun
  have heff := (h.block hc hrun).waitLoop hc (update_self ..) hexec
  refine heff.after rfl rfl rfl (fun i => ?_) (fun i hi => ?_)
  all_goals grind [get_parked, slotOf]

/-! ## Exit, first half -/

section

variable (hc : k.sched.tryCurrentFor cpu = some cur) (hrun : k.sched.get cur = some .running)
include hc hrun

theorem Inv.exit_quiet (hout : k.cpuId cur = none)
    (hpend : k.pendingExits cpu = none) (htcb : k.threads cur = some tcb) :
    Quiet k [.exited cur] (k.exited cpu cur tcb) := by
  refine ⟨h.exit hc hrun hout hpend htcb, fun i => ?_, rfl, by simp⟩
  grind [Event.next, lt_of_get_eq_some, exited, history, slotOf, slotOf_setState]

/-- Where the CPU goes after the first half: to a Ready thread, or nowhere. -/
theorem Inv.exit_scheduled (hpend : k.pendingExits cpu = none)
    (htcb : k.threads cur = some tcb) (hinv : (k.exited cpu cur tcb).Inv) :
    ∃ k', k.exitNow cpu = .ok (k', [.exited cur]) ∧
      (k.exited cpu cur tcb).Scheduled cpu cur k' := by
  have hpre : SchedState.stepPrecondition .exit (k.sched.get cur) = true := by
    simp [SchedState.stepPrecondition, hrun]
  obtain ⟨d, -, hd, hstep⟩ := SchedState.step_spec h.slots.sched hc hpre
  simp only [exitNow, hpend, hstep, liftSched, bind, Except.bind,
    isSome_none, Bool.false_eq_true, if_false, pure, Except.pure]
  have hget : ∀ j, (k.exited cpu cur tcb).sched.get j =
      if cur = j then some .exited else k.sched.get j := fun j => get_set hrun _
  cases hd with
  | switchTo hr _ => exact absurd rfl hr
  | wait hr _ _ => exact absurd rfl hr
  | @exitAndSwitch next hnext =>
    have hne : cur ≠ next := by
      rintro rfl
      rw [hrun] at hnext
      cases hnext
    have hsw : Switched (k.exited cpu cur tcb).sched _ cpu next :=
      switched_dispatch hinv.slots.sched (by rw [hget, if_neg hne, hnext]) fun i hi => by
        obtain rfl : cur = i := some.inj (hc.symm.trans hi)
        simp [hget]
    obtain ⟨root, hswap, hinv'⟩ := hinv.swapTtbr0 none hsw (by simp)
    refine ⟨_, ?_, .inr ⟨next, _, root, hsw, rfl, hinv'⟩⟩
    simp only [recordExit, tcbOf, htcb, bind, Except.bind, pure, Except.pure]
    exact congrArg (Except.map fun k' => (k', [Event.exited cur])) hswap
  | exitAndHalt hno =>
    -- the record names the current thread, so the loop's `finish_exit` waits
    have hfin' : (k.exited cpu cur tcb).finishExit cpu = .ok (k.exited cpu cur tcb, []) := by
      simp [Kernel.finishExit, exited, hc]
    obtain ⟨hfalse, -⟩ | ⟨-, k', hnow, hs⟩ := hinv.scheduleNow .block (by simp) hc
    · simp [hget, SchedState.stepPrecondition] at hfalse
    · refine ⟨k', ?_, hs⟩
      have hsched := schedule_eq .block hfin'
      rw [hnow] at hsched
      simp only [recordExit, tcbOf, htcb, bind, Except.bind, pure, Except.pure]
      exact congrArg (Except.map fun r => (r.1, Event.exited cur :: r.2)) hsched

end

theorem Inv.exitCurrent (hexe : k.Executes cpu)
    (hexec : k.exitCurrent cpu = .ok (k', es)) : Effect k es k' := by
  obtain ⟨cur, hc, hrun, hout⟩ := hexe
  obtain ⟨⟨k1, es1⟩, hfin, hrest⟩ := of_bind_ok hexec
  have hd := h.drained hfin
  have hinv := hd.effect.inv
  have hc1 : k1.sched.tryCurrentFor cpu = some cur := by
    rw [tryCurrentFor, hd.current]
    exact hc
  have hrun1 : k1.sched.get cur = some .running := by rw [hd.live cur (by simp [hrun]), hrun]
  have hpend : k1.pendingExits cpu = none := by
    by_contra hne
    obtain ⟨r, hr⟩ := ne_none_iff_exists'.mp hne
    have hcur := some.inj ((hd.empty r hr).symm.trans hc)
    have hex := (hinv.slots.pending cpu r hr).1
    rw [hcur, hrun1] at hex
    cases hex
  obtain ⟨tcb, htcb⟩ := hinv.tcb hc1
  have hquiet := hinv.exit_quiet hc1 hrun1 (hd.cpuId ▸ hout) hpend htcb
  obtain ⟨k2, heq, hs⟩ := hinv.exit_scheduled hc1 hrun1 hpend htcb hquiet.inv
  simp only [heq, bind, Except.bind, pure, Except.pure, Except.ok.injEq, Prod.mk.injEq] at hrest
  obtain ⟨rfl, rfl⟩ := hrest
  have hmore := hquiet.trans (hs.quiet hquiet.inv)
  rw [List.append_nil] at hmore
  exact hd.effect.quiet hmore

end

/-! ## Creation -/

theorem free_of_hasFreeSlot (h : s.hasFreeSlot = true) :
    ∃ i, i < maxThreads ∧ s.get i = none ∧ s.addThread = (s.setState i (some .ready), some i) := by
  obtain ⟨i, hlt, hnone, -, heq⟩ | ⟨hfull, -⟩ := addThread_cases s
  · exact ⟨i, hlt, hnone, heq⟩
  · simp only [hasFreeSlot, List.any_eq_true, List.mem_finRange, true_and,
      isNone_iff_eq_none] at h
    obtain ⟨i, hi⟩ := h
    refine absurd ?_ (hfull i.val i.isLt)
    rw [SchedState.get, dif_pos i.isLt]
    exact hi

theorem addThread_eq (tcb : Tcb) (hi : i ≠ 0)
    (hadd : k.sched.addThread = (k.sched.setState i (some .ready), some i)) :
    k.addThread tcb = .ok ({ k with
      sched := k.sched.setState i (some .ready)
      threads := update k.threads i (some tcb) }, some i) := by
  unfold addThread
  rw [hadd]
  dsimp only
  rw [if_neg hi]
  rfl

/-- Counting and registering a thread, once its process object is there. -/
theorem register_eq (k : Kernel) (tcb : Tcb)
    (hP : k.procs tcb.processKva = some P) (hcount : P.threadCount + 1 < 2 ^ 32) (hi : i ≠ 0)
    (hadd : k.sched.addThread = (k.sched.setState i (some .ready), some i)) :
    k.register tcb = .ok ({ k with
      sched := k.sched.setState i (some .ready)
      threads := Function.update k.threads i (some tcb)
      procs := Function.update k.procs tcb.processKva
        (some { P with threadCount := P.threadCount + 1 }) }, [.created i]) := by
  have hinc : onThreadCreate P.threadCount = .ok (P.threadCount + 1) := if_pos hcount
  have hcounted : k.processIncThreadCount tcb.processKva =
      .ok (k.setProcess tcb.processKva { P with threadCount := P.threadCount + 1 }) := by
    rw [processIncThreadCount, processAt, hP]
    simp only [hinc, bind, Except.bind, pure, Except.pure]
  have hadded := addThread_eq
    (k := k.setProcess tcb.processKva { P with threadCount := P.threadCount + 1 }) tcb hi hadd
  simp only [register, hcounted, hadded, bind, Except.bind, pure, Except.pure]
  rfl

theorem Inv.register_effect (h : k.Inv) (tcb : Tcb)
    (hlt : i < maxThreads) (hfree : k.sched.get i = none) (hstack : tcb.stackBase ≠ .image)
    (hcount : P.threadCount = (members k.threads tcb.processKva).card)
    (hP : P.immortal = false ∧ P.ttbr0Paddr ≠ 0)
    (hsame : ∀ Q, k.procs tcb.processKva = some Q → Q.ttbr0Paddr = P.ttbr0Paddr)
    (hroot : ∀ q Q, k.procs q = some Q → Q.ttbr0Paddr = P.ttbr0Paddr → q = tcb.processKva) :
    Effect k [.created i] { k with
      sched := k.sched.setState i (some .ready)
      threads := update k.threads i (some tcb)
      procs := update k.procs tcb.processKva
        (some { P with threadCount := P.threadCount + 1 }) } := by
  refine ⟨h.register hlt hfree hstack hcount hP hsame hroot, fun j => ?_, by simp, fun p hp => ?_⟩
  all_goals grind [Event.next, history, slotOf, slotOf_setState]

/-- Slot 0 is the boot thread's for good. -/
theorem Inv.ne_zero_of_free (h : k.Inv) (hfree : k.sched.get i = none) : i ≠ 0 := by
  rintro rfl
  exact h.procs.boot ((h.slots.table 0).mpr hfree)

theorem Inv.createThread (h : k.Inv) (hexe : k.Executes cpu)
    (hexec : k.createThread cpu = .ok (k', es)) : Effect k es k' := by
  obtain ⟨cur, hc, -, -⟩ := hexe
  obtain ⟨tcb, htcb⟩ := h.tcb hc
  obtain ⟨P, hP⟩ := h.process htcb
  simp only [Kernel.createThread, SchedState.currentFor, hc, liftSched, tcbOf, htcb, bind,
    Except.bind] at hexec
  split at hexec
  · next hroom =>
    obtain ⟨i, hlt, hfree, hadd⟩ := free_of_hasFreeSlot hroom
    have hcount := (h.procs.counted _ P hP).1
    have hle := card_members_le k.threads tcb.processKva
    have hmax : maxThreads < 2 ^ 32 - 1 := by decide
    rw [register_eq k ⟨tcb.processKva, .pool⟩ (P := P) hP (by omega) (h.ne_zero_of_free hfree)
      hadd] at hexec
    obtain ⟨rfl, rfl⟩ := Prod.mk.inj (Except.ok.inj hexec)
    refine h.register_effect ⟨tcb.processKva, .pool⟩ hlt hfree (by simp) hcount
      (h.procs.mortal _ P hP) (fun Q hQ => ?_) (fun q Q hQ heq => h.procs.roots q _ Q P hQ hP heq)
    rw [some.inj (hQ.symm.trans hP)]
  · obtain ⟨rfl, rfl⟩ := Prod.mk.inj (Except.ok.inj hexec)
    exact (Quiet.refl h).effect

theorem Inv.createProcess (h : k.Inv) {processKva ttbr0 : Nat} (hnew : k.procs processKva = none)
    (hzero : ttbr0 ≠ 0) (hfresh : ∀ p process, k.procs p = some process →
      process.ttbr0Paddr ≠ ttbr0)
    (hexec : k.createProcess processKva ttbr0 = .ok (k', es)) : Effect k es k' := by
  unfold Kernel.createProcess at hexec
  split at hexec
  · next hroom =>
    obtain ⟨i, hlt, hfree, hadd⟩ := free_of_hasFreeSlot hroom
    rw [register_eq (k.setProcess processKva ⟨ttbr0, 0, false⟩) ⟨processKva, .directMap⟩
      (P := ⟨ttbr0, 0, false⟩) (update_self ..) (by simp) (h.ne_zero_of_free hfree)
      hadd] at hexec
    obtain ⟨rfl, rfl⟩ := Prod.mk.inj (ok.inj hexec)
    -- nobody is registered under the new address
    have hempty : members k.threads processKva = ∅ := by
      refine Finset.eq_empty_of_forall_notMem fun j hj => ?_
      obtain ⟨-, tcb, htcb, rfl⟩ := mem_members.mp hj
      exact h.procs.process j tcb htcb hnew
    have heff := h.register_effect ⟨processKva, .directMap⟩ (P := ⟨ttbr0, 0, false⟩) hlt
      hfree (by simp) (by simp [hempty]) ⟨rfl, hzero⟩ (fun Q hQ => absurd hQ (by simp [hnew]))
      (fun q Q hQ heq => absurd heq (hfresh q Q hQ))
    simpa only [setProcess, update_idem] using heff
  · obtain ⟨rfl, rfl⟩ := Prod.mk.inj (ok.inj hexec)
    exact (Quiet.refl h).effect

/-! ## Every entry -/

theorem Inv.exec (h : k.Inv) {a : Action} (henabled : k.Enabled a)
    (hexec : k.exec a = .ok (k', es)) : Effect k es k' := by
  cases a with
  | createThread cpu => exact h.createThread henabled hexec
  | createProcess cpu processKva ttbr0 =>
    obtain ⟨-, hnew, hzero, hfresh⟩ := henabled
    exact h.createProcess hnew hzero hfresh hexec
  | processEntry cpu =>
    obtain ⟨cur, hc, -, -⟩ := henabled
    obtain ⟨tcb, htcb⟩ := h.tcb hc
    obtain ⟨P, hP⟩ := h.process htcb
    simp only [Kernel.exec, processEntry, SchedState.currentFor, hc, liftSched, tcbOf, htcb,
      processAt, hP, bind, Except.bind, pure, Except.pure, Except.ok.injEq,
      Prod.mk.injEq] at hexec
    obtain ⟨rfl, rfl⟩ := hexec
    -- the register holds the root already, so loading it changes nothing
    rw [← h.ttbr0.own cpu cur tcb P hc htcb hP, Function.update_eq_self]
    exact (Quiet.refl h).effect
  | block cpu => exact h.blockCurrent henabled hexec
  | recheck cpu =>
    obtain ⟨cur, hc, hloop⟩ := henabled
    obtain ⟨cpuId, hcpuId⟩ := ne_none_iff_exists'.mp hloop
    simp only [Kernel.exec, recheck, SchedState.currentFor, hc, liftSched, hcpuId, bind,
      Except.bind] at hexec
    exact h.waitLoop hc hcpuId hexec
  | wake idx =>
    simp only [Kernel.exec, unblockThread] at hexec
    by_cases hb : k.sched.get idx = some .blocked
    · obtain ⟨st, hnb, hne, heq, hinv⟩ := h.wake hb
      rw [heq] at hexec
      obtain ⟨rfl, rfl⟩ := Prod.mk.inj (Except.ok.inj hexec)
      refine Quiet.effect ⟨hinv, fun i => ?_, rfl, by simp⟩
      grind [SchedState.lt_of_get_eq_some, history, slotOf, slotOf_setState]
    · grind [SchedState.unblock]
  | tick cpu =>
    simp only [Kernel.exec, tick] at hexec
    split at hexec
    · obtain ⟨rfl, rfl⟩ := Prod.mk.inj (Except.ok.inj hexec)
      exact (Quiet.refl h).effect
    split at hexec
    · exact h.scheduleFromIdle hexec
    split at hexec
    · exact h.schedule (by simp) hexec
    · exact h.schedule (by simp) hexec
    · obtain ⟨rfl, rfl⟩ := Prod.mk.inj (Except.ok.inj hexec)
      exact (Quiet.refl h).effect
  | exit cpu => exact h.exitCurrent henabled hexec
  | exitRetry cpu => exact h.schedule (by simp) hexec

theorem get_boot (initProc root i : Nat) :
    (boot initProc root).sched.get i = if i = 0 then some .running else none := by
  have hpos : 0 < maxThreads := by decide
  rw [boot, get_setCurrent, get_setState, get_newConst]
  simp [hpos, eq_comm]

theorem inv_boot (initProc : Nat) {root : Nat} (hroot : root ≠ 0) : (boot initProc root).Inv := by
  have hpos : 0 < maxThreads := by decide
  have hget := get_boot initProc root
  have hcur : ∀ c, (boot initProc root).sched.tryCurrentFor c = if 0 = c then some 0 else none := by
    intro c
    simp [boot]
  have hthreads : ∀ i tcb, (boot initProc root).threads i = some tcb →
      i = 0 ∧ tcb = ⟨initProc, .image⟩ := by
    intro i tcb hi
    by_cases hi0 : i = 0
    · subst hi0
      exact ⟨rfl, (some.inj hi).symm⟩
    · simp [boot, update_of_ne hi0] at hi
  have hprocs : ∀ p P, (boot initProc root).procs p = some P →
      p = initProc ∧ P = ⟨root, 1, false⟩ := by
    intro p P hp
    by_cases hpi : p = initProc
    · subst hpi
      simp only [boot, update_self] at hp
      exact ⟨rfl, (some.inj hp).symm⟩
    · simp [boot, update_of_ne hpi] at hp
  have hmembers : members (boot initProc root).threads initProc = {0} := by
    ext i
    rw [mem_members, Finset.mem_singleton]
    constructor
    · rintro ⟨-, tcb, hi, -⟩
      exact (hthreads i tcb hi).1
    · rintro rfl
      exact ⟨hpos, ⟨initProc, .image⟩, by simp [boot], rfl⟩
  have hsched : (boot initProc root).sched.Inv := by
    refine ⟨fun c i hc => ?_, fun c c' i hc hc' => ?_, fun i hi => ?_, fun c i hc => ?_⟩ <;>
      simp only [hcur, hget] at *
    · grind
    · grind
    · exact ⟨0, by grind⟩
    · grind
  -- slots, processes, roots and wait loops, in the order of `Inv`
  refine ⟨⟨hsched, fun i => ?_, by simp [boot], fun i hi => ?_, by simp [boot],
    fun c _ => rfl⟩, ⟨fun i tcb hi => ?_, by simp [boot], fun i tcb hi => ?_, fun i tcb hi => ?_,
    fun p P hp => ?_, fun p P hp => ?_, fun p q P Q hp hq _ => ?_⟩,
    ⟨fun c i tcb P hc hi hp => ?_, fun c hc => ?_⟩, ⟨fun c i hc hb => ?_, by simp [boot]⟩⟩
  · rw [hget]
    by_cases hi : i = 0
    · simp [hi, boot]
    · simp [boot, hi]
  · rw [hget] at hi
    split at hi <;> cases hi
  · obtain ⟨rfl, rfl⟩ := hthreads i tcb hi
    simp
  · obtain ⟨rfl, -⟩ := hthreads i tcb hi
    exact hpos
  · obtain ⟨-, rfl⟩ := hthreads i tcb hi
    simp [boot]
  · obtain ⟨rfl, rfl⟩ := hprocs p P hp
    rw [hmembers]
    simp
  · obtain ⟨-, rfl⟩ := hprocs p P hp
    exact ⟨rfl, hroot⟩
  · rw [(hprocs p P hp).1, (hprocs q Q hq).1]
  · grind [boot]
  · rw [hcur] at hc
    split at hc
    · cases hc
    · next hne => simp [boot, Ne.symm hne]
  · rw [hget] at hb
    split at hb <;> cases hb

/-! ## Runs -/

theorem Run.inv (hrun : Run k es) : k.Inv := by
  induction hrun with
  | boot initProc hroot => exact inv_boot initProc hroot
  | step _ henabled hexec ih => exact (ih.exec henabled hexec).inv

end Kernel

end Lockjaw.Smp
