/-
  Lockjaw.Smp.Runs

  The three properties of whole runs: the life of a slot, whose page tables a CPU is
  on, and the wait loop of `block_current`.

  The loop keeps the CPU number of its call.  A thread that wakes up elsewhere asks
  about that CPU's present thread, not about itself, and a Blocked answer makes it call
  `schedule(Block)` while it is Running.
-/

import Lockjaw.Lib.Replay
import Lockjaw.Smp.Steps

namespace Lockjaw.Smp

open Sched Lib Except List Option

namespace Kernel

variable {k k' : Kernel} {cpu : Fin maxCpus} {es : List Event}

/-! ## Threads -/

theorem Run.history (hrun : Run k es) (i : Nat) :
    history i es (if i = 0 then .live else .free) = some (slotOf k.sched i) := by
  induction hrun with
  | boot initProc hroot =>
    by_cases hi : i = 0 <;> simp [Smp.history, slotOf, get_boot, hi]
  | step hrun henabled hexec ih =>
    rw [history_append, ih, bind_some]
    exact (hrun.inv.exec henabled hexec).slots i

/-- The boot thread is never cleaned up: slot 0 is never free. -/
theorem Inv.boot_not_cleaned (h : k.Inv) {p : Nat} {released : Bool}
    (hfin : k.finishExit cpu = .ok (k', es)) : .cleaned 0 p released ∉ es := by
  intro hmem
  obtain ⟨heq, -⟩ | ⟨heq, -⟩ | ⟨r, released', k₁, -, heq, hd⟩ := h.finishExit cpu
  · rw [heq] at hfin
    obtain ⟨-, rfl⟩ := Prod.mk.inj (ok.inj hfin)
    cases hmem
  · rw [heq] at hfin
    cases hfin
  · rw [heq] at hfin
    obtain ⟨rfl, rfl⟩ := Prod.mk.inj (ok.inj hfin)
    have hslot := hd.effect.slots 0
    have hex := (hd.effect.cleaned 0 p released hmem).exited
    obtain ⟨hr0, -, -⟩ : 0 = r.threadIdx ∧ p = r.tcb.processKva ∧ released = released' := by
      simpa using hmem
    simp only [Smp.history, ← hr0, slotOf, hex, foldlM_cons, foldlM_nil, Event.next,
      ne_eq, not_true, if_false, if_true, Option.pure_def, Option.bind_eq_bind, Option.bind_some,
      Option.some.injEq] at hslot
    grind [hd.effect.inv.procs.boot, hd.effect.inv.slots.table]

/-- In every run the thread table and the scheduler model agree; a slot goes from free to
    live to exited and only through a cleanup back to free; a cleanup happens once per
    exit, of a thread that is current nowhere, and `finish_exit` completes it or stops at
    the boot thread; and a process object goes with the cleanup of its last thread. -/
theorem thread_lifecycle (hrun : Run k es) :
    (∀ i, k.threads i = none ↔ k.sched.get i = none) ∧
    (∀ i, Smp.history i es (if i = 0 then .live else .free) = some (slotOf k.sched i)) ∧
    (∀ i, k.sched.get i = some .exited → (∀ c, k.sched.tryCurrentFor c ≠ some i) →
      ∃ c, (∃ k' p released, k.finishExit c = .ok (k', [.cleaned i p released])) ∨
        (i = 0 ∧ k.finishExit c = .error .bootExited)) ∧
    (∀ c p, k.finishExit c = .error p → p = .bootExited ∧ k.sched.get 0 = some .exited) ∧
    ∀ a k' more, k.Enabled a → k.exec a = .ok (k', more) →
      (∀ i p released, .cleaned i p released ∈ more →
        k.sched.get i = some .exited ∧ (∀ c, k.sched.tryCurrentFor c ≠ some i) ∧
          i ∈ members k.threads p ∧ (released = true ↔ members k.threads p = {i})) ∧
      ∀ p, k.procs p ≠ none → (k'.procs p = none ↔ ∃ i, .cleaned i p true ∈ more) := by
  have h := hrun.inv
  refine ⟨h.slots.table, hrun.history, fun i hex hidle => ?_, fun c p hp => ?_,
    fun a k' more henabled hexec => ?_⟩
  · obtain ⟨c, r, hr, rfl⟩ := h.slots.exited i hex
    refine ⟨c, ?_⟩
    grind [h.finishExit]
  · obtain ⟨heq, -⟩ | ⟨heq, r, hr, hzero⟩ | ⟨r, released, k', -, heq, -⟩ := h.finishExit c
    · rw [heq] at hp
      cases hp
    · rw [heq] at hp
      rw [← hzero]
      exact ⟨(error.inj hp).symm, (h.slots.pending c r hr).1⟩
    · rw [heq] at hp
      cases hp
  · have heff := h.exec henabled hexec
    refine ⟨fun i p released hmem => ?_, heff.freed⟩
    obtain ⟨hex, hidle, hmember, hlast⟩ := heff.cleaned i p released hmem
    exact ⟨hex, hidle, hmember, hlast⟩

/-! ## Runs that can be evaluated -/

instance : Decidable (k.Executes cpu) :=
  inferInstanceAs (Decidable (∃ i, k.sched.tryCurrentFor cpu = some i ∧ _))

/-- The entries of the runs below that can happen. -/
def canEnter (k : Kernel) : Action → Bool
  | .createThread cpu | .block cpu | .exit cpu => decide (k.Executes cpu)
  | .wake _ | .tick _ => true
  | _ => false

/-- Run an action and note its events. -/
def record (r : Kernel × List Event) (a : Action) : Option (Kernel × List Event) :=
  (r.1.exec a).toOption.map fun (k, more) => (k, r.2 ++ more)

theorem exists_run (acts : List Action) {Q : Kernel → List Event → Prop}
    (h : ∃ r ∈ replay (fun r a => r.1.canEnter a) record (boot 1 1, []) acts, Q r.1 r.2) :
    ∃ k es, Run k es ∧ Q k es := by
  obtain ⟨r, hrun, hq⟩ := exists_of_replay (R := fun r => Run r.1 r.2) acts
    (Run.boot 1 (by decide)) (fun r r' a hrun henabled hnext => by
      have hen : r.1.Enabled a := by
        cases a with
        | createThread cpu | block cpu | exit cpu =>
          exact of_decide_eq_true (p := r.1.Executes cpu) henabled
        | wake | tick => trivial
        | createProcess | processEntry | recheck | exitRetry => cases henabled
      obtain ⟨⟨k, more⟩, hk, rfl⟩ := map_eq_some_iff.mp hnext
      exact hrun.step hen (ok_of_toOption hk)) h
  exact ⟨r.1, r.2, hrun, hq⟩

/-- Thread 1 is created, runs on CPU 0, exits and is cleaned up; a second thread takes its slot and
    runs there. -/
def slotReused : List Action :=
  [.createThread 0, .tick 0, .exit 0, .tick 0, .createThread 0, .tick 0]

/-- When the second thread has exited as well, some CPU is about to clean it up. -/
theorem thread_lifecycle_two :
    ∃ k, Run k [.created 1, .exited 1, .cleaned 1 1 false, .created 1, .exited 1] ∧
      ∃ c k' p released, k.finishExit c = .ok (k', [.cleaned 1 p released]) := by
  obtain ⟨k, _, hrun, rfl, hex, hidle⟩ := exists_run (slotReused ++ [.exit 0])
    (Q := fun k es => es = [.created 1, .exited 1, .cleaned 1 1 false, .created 1, .exited 1] ∧
      k.sched.get 1 = some .exited ∧ ∀ c, k.sched.tryCurrentFor c ≠ some 1) (by decide +kernel)
  obtain ⟨c, hclean | ⟨hzero, -⟩⟩ := (thread_lifecycle hrun).2.2.1 1 hex hidle
  · exact ⟨k, hrun, c, hclean⟩
  · cases hzero

/-- `init`'s first thread exits while the other thread is Ready: it is current nowhere,
    it stays registered, and every scheduling entry of CPU 0 stops the kernel. -/
theorem boot_thread_not_cleaned :
    ∃ k es, Run k es ∧ k.sched.get 0 = some .exited ∧
      (∀ c, k.sched.tryCurrentFor c ≠ some 0) ∧ k.finishExit 0 = .error .bootExited ∧
      (∀ reason, k.schedule 0 reason = .error .bootExited) ∧
      ∀ c k' more p released, k.finishExit c = .ok (k', more) → .cleaned 0 p released ∉ more := by
  obtain ⟨k, es, hrun, hex, hidle, hboot⟩ := exists_run [.createThread 0, .exit 0]
    (Q := fun k _ => k.sched.get 0 = some .exited ∧ (∀ c, k.sched.tryCurrentFor c ≠ some 0) ∧
      k.finishExit 0 = .error .bootExited) (by decide +kernel)
  refine ⟨k, es, hrun, hex, hidle, hboot, fun reason => ?_,
    fun _ _ _ _ _ => hrun.inv.boot_not_cleaned⟩
  rw [Kernel.schedule, hboot]
  rfl

/-! ## Page tables -/

/-- In every run each CPU is on the page tables of its current thread's own process, and
    when an entry frees a process no CPU is on that process's tables. -/
theorem ttbr0_isolation (hrun : Run k es) :
    (∀ cpu i tcb, k.sched.tryCurrentFor cpu = some i → k.threads i = some tcb →
      ∃ P, k.procs tcb.processKva = some P ∧ k.ttbr0 cpu = P.ttbr0Paddr) ∧
    ∀ a k' more p P, k.Enabled a → k.exec a = .ok (k', more) → k.procs p = some P →
      k'.procs p = none → ∀ cpu, k.ttbr0 cpu ≠ P.ttbr0Paddr := by
  have h := hrun.inv
  refine ⟨fun cpu i tcb hc hi => ?_, fun a k' more p P henabled hexec hP hgone cpu hroot => ?_⟩
  · obtain ⟨P, hP⟩ := h.process hi
    exact ⟨P, hP, h.ttbr0.own cpu i tcb P hc hi hP⟩
  · have heff := h.exec henabled hexec
    obtain ⟨i, hi⟩ := (heff.freed p (by simp [hP])).mp hgone
    obtain ⟨-, hidle, -, hlast⟩ := heff.cleaned i p true hi
    cases hc : k.sched.tryCurrentFor cpu with
    | none => exact (h.procs.mortal p P hP).2 (hroot.symm.trans (h.ttbr0.idle cpu hc))
    | some j =>
      -- a thread on these tables is a thread of the process, so it is the one cleaned up
      obtain ⟨tcb, htcb⟩ := h.tcb hc
      obtain ⟨Q, hQ⟩ := h.process htcb
      have hown := h.ttbr0.own cpu j tcb Q hc htcb hQ
      have hmem := h.procs.mem htcb
      rw [h.procs.roots _ p Q P hQ hP (hown.symm.trans hroot), hlast.mp rfl,
        Finset.mem_singleton] at hmem
      exact hidle cpu (hmem ▸ hc)

theorem ttbr0_isolation_two :
    ∃ k, Run k [.created 1, .exited 1, .cleaned 1 1 false, .created 1] ∧
      k.sched.tryCurrentFor 0 = some 1 ∧ ∃ tcb P, k.threads 1 = some tcb ∧
        k.procs tcb.processKva = some P ∧ k.ttbr0 0 = P.ttbr0Paddr := by
  obtain ⟨k, _, hrun, rfl, hc⟩ := exists_run slotReused
    (Q := fun k es => es = [.created 1, .exited 1, .cleaned 1 1 false, .created 1] ∧
      k.sched.tryCurrentFor 0 = some 1) (by decide +kernel)
  obtain ⟨tcb, htcb⟩ := hrun.inv.tcb hc
  obtain ⟨P, hP, hroot⟩ := (ttbr0_isolation hrun).1 0 1 tcb hc htcb
  exact ⟨k, hrun, hc, tcb, P, htcb, hP, hroot⟩

/-! ## The wait loop -/

/-- The turn does what `block_current` means it to do: it does not stop the kernel, and
    it calls `schedule(Block)` only for a caller that is not Running. -/
def TurnOk (k : Kernel) (caller : Nat) (cpuId : Fin maxCpus) : Prop :=
  (∀ p, k.waitTurn cpuId ≠ .error p) ∧
    (k.waitTurn cpuId = .ok false → k.sched.get caller ≠ some .running)

/-- Under `TurnOk` nothing but a pending cleanup of the boot thread stops the turn. -/
theorem Inv.recheck_error (h : k.Inv) {i : Nat} {c : Fin maxCpus} {p : Panic}
    (hc : k.sched.tryCurrentFor cpu = some i) (hloop : k.cpuId i = some c) (hok : k.TurnOk i c)
    (herr : k.recheck cpu = .error p) : p = .bootExited := by
  simp only [recheck, SchedState.currentFor, hc, liftSched, hloop, bind, Except.bind,
    Kernel.waitLoop] at herr
  obtain ⟨seen, -, ⟨-, heq⟩ | ⟨-, heq⟩ | ⟨-, heq⟩⟩ := h.waitTurn hloop
  · rw [heq] at herr
    cases herr
  · have hblocked : k.sched.get i = some .blocked := by
      obtain hrun | ⟨hb, -⟩ := h.looping_cases hc hloop
      · exact absurd hrun (hok.2 heq)
      · exact hb
    simp only [heq, Bool.false_eq_true, if_false] at herr
    cases hfin : k.finishExit cpu with
    | error p' =>
      simp only [Kernel.schedule, hfin, bind, Except.bind, Except.error.injEq] at herr
      grind [h.finishExit]
    | ok r =>
      obtain ⟨k₁, es1⟩ := r
      have hd := h.drained hfin
      have hc1 : k₁.sched.tryCurrentFor cpu = some i := by
        rw [SchedState.tryCurrentFor, hd.current]
        exact hc
      rw [schedule_eq _ hfin] at herr
      obtain ⟨hpre, -⟩ | ⟨-, k₂, hnow, -⟩ :=
        hd.effect.inv.scheduleNow .block (by simp) hc1
      · rw [hd.live i (by simp [hblocked]), hblocked] at hpre
        cases hpre
      · rw [hnow] at herr
        cases herr
  · exact absurd heq (hok.1 _)

/-- In every run, for a thread `i` inside `block_current` that runs again on `cpu`: the
    call returns only when `i` is Running; and a turn is as it should be exactly when the
    call began on this CPU or the thread now current on the CPU where it began is Running. -/
theorem block_current_turn (hrun : Run k es) {i : Nat} {c : Fin maxCpus}
    (hc : k.sched.tryCurrentFor cpu = some i) (hloop : k.cpuId i = some c) :
    (∀ k' more, k.recheck cpu = .ok (k', more) → .returned i ∈ more →
      k.sched.get i = some .running) ∧
    (k.TurnOk i c ↔
      c = cpu ∨ ∃ j, k.sched.tryCurrentFor c = some j ∧ k.sched.get j = some .running) ∧
    (k.TurnOk i c → ∀ p, k.recheck cpu = .error p → p = .bootExited) := by
  have h := hrun.inv
  obtain ⟨seen, hseen, hturn⟩ := h.waitTurn hloop
  refine ⟨fun k' more hexec hmem => ?_, ⟨fun hok => ?_, fun hcond => ?_⟩,
    fun hok p => h.recheck_error hc hloop hok⟩
  · obtain ⟨hseenrun, -⟩ | ⟨-, heq⟩ | ⟨-, heq⟩ := hturn
    · exact h.running_of_seen hc hloop hseen hseenrun
    · -- `schedule` reports cleanups only
      simp only [recheck, SchedState.currentFor, hc, liftSched, hloop, bind, Except.bind,
        Kernel.waitLoop, heq, Bool.false_eq_true, if_false] at hexec
      obtain ⟨k₁, hfin, -⟩ := of_schedule_ok hexec
      obtain ⟨hno, -⟩ | ⟨hno, -⟩ | ⟨r, released, k₂, -, hno, -⟩ := h.finishExit cpu <;>
        rw [hno] at hfin <;> cases hfin
      · cases hmem
      · simp at hmem
    · simp only [recheck, SchedState.currentFor, hc, liftSched, hloop, bind, Except.bind,
        Kernel.waitLoop, heq] at hexec
      cases hexec
  · obtain ⟨hseenrun, -⟩ | ⟨-, heq⟩ | ⟨-, heq⟩ := hturn
    · exact .inr ⟨seen, hseen, hseenrun⟩
    · obtain hcur | ⟨-, rfl⟩ := h.looping_cases hc hloop
      · exact absurd hcur (hok.2 heq)
      · exact .inl rfl
    · exact absurd heq (hok.1 _)
  · obtain ⟨hseenrun, heq⟩ | ⟨hseenb, heq⟩ | ⟨hseenx, heq⟩ := hturn
    · exact ⟨by simp [heq], by simp [heq]⟩
    · refine ⟨by simp [heq], fun _ hcur => ?_⟩
      obtain rfl | ⟨j, hj, hjrun⟩ := hcond
      · obtain rfl := some.inj (hc.symm.trans hseen)
        rw [hcur] at hseenb
        cases hseenb
      · obtain rfl := some.inj (hj.symm.trans hseen)
        rw [hjrun] at hseenb
        cases hseenb
    · obtain rfl | ⟨j, hj, hjrun⟩ := hcond
      · obtain rfl := some.inj (hc.symm.trans hseen)
        exact absurd hseenx (h.loops.looping i c hloop).2.1
      · obtain rfl := some.inj (hj.symm.trans hseen)
        rw [hjrun] at hseenx
        cases hseenx

theorem block_current_turn_boot :
    ∃ k, Run k [] ∧ k.sched.tryCurrentFor 0 = some 0 ∧ k.cpuId 0 = some 0 ∧ k.TurnOk 0 0 := by
  obtain ⟨k, _, hrun, rfl, hc, hloop⟩ := exists_run [.block 0] (Q := fun k es =>
    es = [] ∧ k.sched.tryCurrentFor 0 = some 0 ∧ k.cpuId 0 = some 0) (by decide +kernel)
  exact ⟨k, hrun, hc, hloop, (block_current_turn hrun hc hloop).2.1.mpr (.inl rfl)⟩

/-- `init`'s thread blocks on CPU 0, which goes on with the other thread; it is woken and
    picked up by CPU 1; then the other thread blocks on CPU 0.  Back in its loop on CPU 1,
    Running, `init`'s thread sees CPU 0's Blocked thread and calls `schedule(Block)`, where
    the assertion of `step(Block)` stops the kernel. -/
theorem block_current_migrated :
    ∃ k es, Run k es ∧ k.sched.tryCurrentFor 1 = some 0 ∧ k.sched.get 0 = some .running ∧
      k.cpuId 0 = some 0 ∧ k.waitTurn 0 = .ok false ∧
      k.recheck 1 = .error (.sched (.stepPrecondition .block)) := by
  obtain ⟨k, es, hrun, hc, hget, hloop, ⟨_, hturn, rfl⟩, hstop⟩ := exists_run
    [.createThread 0, .block 0, .wake 0, .tick 1, .block 0]
    (Q := fun k _ => k.sched.tryCurrentFor 1 = some 0 ∧ k.sched.get 0 = some .running ∧
      k.cpuId 0 = some 0 ∧ (∃ b, k.waitTurn 0 = .ok b ∧ b = false) ∧
      k.recheck 1 = .error (.sched (.stepPrecondition .block))) (by decide +kernel)
  exact ⟨k, es, hrun, hc, hget, hloop, hturn, hstop⟩

end Kernel

end Lockjaw.Smp
