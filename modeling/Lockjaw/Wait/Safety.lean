/-
  Lockjaw.Wait.Safety

  The guarantees of the waits over whole runs, and where they end: when
  `unblock_thread` meets a thread that is not Blocked, when a wakeup is lost,
  and when an interrupt is not routed to its handler.
-/

import Lockjaw.Ipc.Safety
import Lockjaw.Wait.Wakeups

namespace Lockjaw.Wait

open Sched Ipc Lib

namespace Sys

variable {x x' : Sys} {a : Spec} {cpu : Fin maxCpus} {t n : Kva} {P : Sys → Action → Prop}

/-! ## Runs that can be evaluated -/

instance : Decidable (x.Free cpu t) := inferInstanceAs (Decidable (_ ∧ _ ∧ _))

instance (act : Kernel.Action) : Decidable
    (∀ cpu op t, act = .issue cpu op → x.toKernel.Executes cpu t → x.waiting t = none) :=
  match act with
  | .issue cpu op => decidable_of_iff (∀ t ∈ x.toKernel.executing cpu, x.waiting t = none)
    ⟨by rintro h _ _ t ⟨⟩ ht; exact h t (Kernel.executing_eq_some_iff.mpr ht),
      fun h t ht => h cpu op t rfl (Kernel.executing_eq_some_iff.mp ht)⟩
  | .resume _ | .preempt _ | .parked _ | .idle _ | .addThread _ => isTrue (by simp)

instance (act : Action) : Decidable (x.Enabled act) :=
  match act with
  | .kernel _ => inferInstanceAs (Decidable (_ ∧ _))
  | .signal cpu _ _ | .waitNotification cpu _ _ | .waitAny cpu _ _ _ | .bindIrq cpu _ _ _
  | .unmaskIrq cpu _ | .resumeWait cpu =>
    inferInstanceAs (Decidable (∃ t, x.toKernel.Executes cpu t ∧ _))
  | .start | .irq _ _ _ => isTrue trivial

theorem exists_run (acts : List Action) {Q : Sys → Prop}
    (h : ∃ x ∈ replay (fun x act => decide (x.Enabled act)) (fun x act => (x.exec act).toOption)
      (boot id) acts, Q x) : ∃ x, Run (fun _ _ => True) x ∧ Q x :=
  exists_of_replay acts (.boot id) (fun _ _ act hrun henabled hnext =>
    .step act hrun (of_decide_eq_true henabled) trivial (ok_of_toOption hnext)) h

/-- Nobody is inside `sys_wait_any`. -/
def Quiet (x : Sys) : Prop :=
  (∀ t, x.waiting t = none) ∧ ∀ n, (x.notification n).readinessWaiter = 0

/-- Runs of the IPC kernel are runs in which nobody waits. -/
theorem exists_quiet (acts : List Kernel.Action) {Q : Sys → Prop}
    (hP : ∀ x act, x.Quiet → P x (.kernel act))
    (h : ∃ x ∈ replay (fun x act => decide (x.Enabled (.kernel act)))
      (fun x act => (x.execKernel act).toOption) (boot id) acts, Q x) :
    ∃ x, (Run P x ∧ x.Quiet) ∧ Q x := by
  refine exists_of_replay acts ⟨.boot id, fun _ => rfl, fun _ => rfl⟩
    (fun x y act hrun henabled hnext => ?_) h
  have hexec := ok_of_toOption hnext
  refine ⟨.step (.kernel act) hrun.1 (of_decide_eq_true henabled) (hP x act hrun.2) hexec, ?_⟩
  unfold execKernel at hexec
  cases hk : lift (x.toKernel.exec act) with
  | error p =>
    rw [hk] at hexec
    cases hexec
  | ok r =>
    rw [hk] at hexec
    cases act <;> cases hexec <;> exact hrun.2

/-! ## Unblocking -/

/-- In every reachable state an enabled action returns exactly when the
    readiness waiter it tells, if any, has not been woken since it registered;
    otherwise `unblock_thread` panics on a thread that is not Blocked. -/
theorem exec_returns_iff_firstWake (hrun : Run (fun _ _ => True) x) {act : Action}
    (henabled : x.Enabled act) :
    ((∃ x', x.exec act = .ok x') ↔ x.FirstWake act) ∧
    (x.exec act = .error (.ipc .notBlocked) ↔ ¬ x.FirstWake act) := by
  obtain ⟨a, h⟩ := hrun.inv
  refine ⟨h.exec_ok_iff henabled, fun herr hfirst => ?_, h.exec_stale henabled⟩
  obtain ⟨x', hok⟩ := (h.exec_ok_iff henabled).mpr hfirst
  rw [herr] at hok
  cases hok

/-- Thread 1 waits for either of two notifications; threads 2 and 3 run. -/
def waitingForTwo : List Action :=
  Kernel.threeThreads.map .kernel ++
    [.waitAny 0 [.notification 10 1, .notification 11 1] noDeadline 0]

/-- The first signal wakes the waiter, and no panic. -/
theorem exec_returns_iff_firstWake_signal :
    ∃ x, Run (fun _ _ => True) x ∧ x.toKernel.Blocked 1 ∧ x.told (.signal 1 10 1) = some 1 ∧
      ∃ x', x.exec (.signal 1 10 1) = .ok x' := by
  obtain ⟨x, hrun, henabled, hblocked, htold⟩ := exists_run waitingForTwo
    (Q := fun x => x.Enabled (.signal 1 10 1) ∧ x.toKernel.Blocked 1 ∧
      x.told (.signal 1 10 1) = some 1) (by decide +kernel)
  refine ⟨x, hrun, hblocked, htold, (exec_returns_iff_firstWake hrun henabled).1.mpr ?_⟩
  intro t ht _
  exact Option.some.inj (htold.symm.trans ht) ▸ hblocked

/-- Thread 1 waits for two notifications.  The first signal wakes it; the second
    arrives before it has cleaned up, and the kernel panics. -/
theorem second_signal_panics :
    ∃ x, Run (fun _ _ => True) x ∧ x.Enabled (.signal 1 11 1) ∧ x.waiting 1 = some .any ∧
      ¬ x.toKernel.Blocked 1 ∧ x.exec (.signal 1 11 1) = .error (.ipc .notBlocked) :=
  exists_run (waitingForTwo ++ [.signal 1 10 1]) (by decide +kernel)

/-! ## Wakeups -/

/-- In a run whose blocking calls find their objects unclaimed, and list each notification last with
    its least threshold, a thread that is Blocked in `sys_wait_any` has no ready object. -/
theorem no_lost_wakeup (hrun : Run Exclusive x) (hwaiting : x.waiting t = some .any)
    (hblocked : x.toKernel.Blocked t) : ∀ o ∈ (x.wait t).waitObjects, x.isReady o = false :=
  fun o ho => (hrun.heard t hwaiting hblocked o ho).not_ready

/-- A thread waits for a notification. -/
theorem no_lost_wakeup_one_waiter :
    ∃ x, Run Exclusive x ∧ x.waiting 1 = some .any ∧ x.toKernel.Blocked 1 ∧
      (x.wait 1).waitObjects = [.notification 10 1] ∧
      ∀ o ∈ (x.wait 1).waitObjects, x.isReady o = false := by
  obtain ⟨x, ⟨hrun, hquiet⟩, henabled, x', hexec, hwaiting, hblocked, hobjs⟩ :=
    exists_quiet [.addThread 1] (P := Exclusive) (fun _ _ _ => trivial)
      (Q := fun x => x.Enabled (.waitAny 0 [.notification 10 1] noDeadline 0) ∧
        ∃ x', x.exec (.waitAny 0 [.notification 10 1] noDeadline 0) = .ok x' ∧
          x'.waiting 1 = some .any ∧ x'.toKernel.Blocked 1 ∧
          (x'.wait 1).waitObjects = [.notification 10 1]) (by decide +kernel)
  have hrun' : Run Exclusive x' := .step _ hrun henabled (fun _ _ => ?_) hexec
  · exact ⟨x', hrun', hwaiting, hblocked, hobjs, no_lost_wakeup hrun' hwaiting hblocked⟩
  · refine ⟨fun o ho => ?_, fun n th last ho hlast => ?_⟩
    · rw [List.mem_singleton.mp ho]
      exact hquiet.2 10
    · have hmem := List.mem_of_getLast? hlast
      rw [mem_thresholdsOn, List.mem_singleton, ← List.mem_singleton.mp ho] at hmem
      rw [(WaitObject.notification.inj hmem).2]
      exact UInt64.le_refl th

/-- Two threads wait for the same notification; the second registration is refused, and the signal
    that meets both thresholds wakes the first thread only. -/
theorem second_waiter_stays_blocked :
    ∃ x, Run (fun _ _ => True) x ∧ x.waiting 3 = some .any ∧ x.toKernel.Blocked 3 ∧
      WaitObject.notification 10 1 ∈ (x.wait 3).waitObjects ∧
      x.isReady (.notification 10 1) = true :=
  exists_run (Kernel.threeThreads.map .kernel ++ [.waitAny 0 [.notification 10 1] noDeadline 0,
    .waitAny 2 [.notification 10 1] noDeadline 0, .signal 1 10 1]) (by decide +kernel)

/-! ## Interrupts -/

/-- Interrupt `intid`, taken on `cpu` at `now`, reaches its handler: the timer
    runs `handle_tick` on this CPU, a bound interrupt moves its notification's
    timeline by exactly one, and neither panics. -/
structure Routed (x : Sys) (cpu : Fin maxCpus) (intid : Nat) (now : UInt64) : Prop where
  timer : intid = timerIntid → ∃ x', x.irqDispatch cpu intid now = .ok x' ∧
    x.handleTick cpu now = .ok x' ∧ x'.timerArms cpu = x.timerArms cpu + 1 ∧
    ∀ i, ¬ x'.Overdue now i
  device : ∀ n, x.lookupBinding intid = some n → ∃ x', x.irqDispatch cpu intid now = .ok x' ∧
    (x'.notification n).state.value.toNat = (x.notification n).state.value.toNat + 1

theorem toNat_succ_iff (v : UInt64) :
    (if v < v + 1 then v + 1 else v).toNat = v.toNat + 1 ↔ v ≠ 0xffffffffffffffff := by
  have hlt := v.toNat_lt
  have hadd : (v + 1).toNat = (v.toNat + 1) % 2 ^ 64 := by
    rw [UInt64.toNat_add]
    rfl
  have hmax : v = 0xffffffffffffffff ↔ v.toNat = 2 ^ 64 - 1 := by
    rw [← UInt64.toNat_inj]
    exact Iff.rfl
  grind

theorem Inv.routed_iff (h : x.Inv a) (cpu : Fin maxCpus) (intid : Nat) (now : UInt64) :
    x.Routed cpu intid now ↔
      (intid = timerIntid → x.lookupBinding intid = none) ∧
      ∀ n, x.lookupBinding intid = some n →
        (x.notification n).state.value ≠ 0xffffffffffffffff ∧ x.FirstWake (.irq cpu intid now) := by
  have hok : ∀ x', x.irqDispatch cpu intid now = .ok x' → x.FirstWake (.irq cpu intid now) :=
    fun x' hx' => (h.exec_ok_iff (show x.Enabled (.irq cpu intid now) from trivial)).mp ⟨x', hx'⟩
  have hvalue : ∀ n x', x.lookupBinding intid = some n →
      (x.masked intid).Signalled n ((x.notification n).state.value + 1) x' →
      ((x'.notification n).state.value.toNat = (x.notification n).state.value.toNat + 1 ↔
        (x.notification n).state.value ≠ 0xffffffffffffffff) := by
    intro n x' _ hsig
    rw [hsig.value, (masked_eq x intid).1]
    exact toNat_succ_iff _
  constructor
  · rintro ⟨htimer, hdevice⟩
    refine ⟨fun hintid => ?_, fun n hn => ?_⟩
    · by_contra hne
      obtain ⟨n, hn⟩ := Option.ne_none_iff_exists'.mp hne
      obtain ⟨x', hx', -, harms, -⟩ := htimer hintid
      obtain ⟨x2, hx2, -, -, hsig⟩ := h.irqDispatch_bound hn cpu now (hok x' hx')
      grind [hsig.timerArms, masked_eq]
    · grind [h.irqDispatch_bound]
  · rintro ⟨htimer, hdevice⟩
    refine ⟨fun hintid => ?_, fun n hn => ?_⟩
    · obtain ⟨x', hx', -, -, -, harms, hnone⟩ := h.handleTick cpu now
      refine ⟨x', ?_, hx', by rw [harms]; simp, hnone⟩
      unfold Sys.irqDispatch
      rw [htimer hintid]
      dsimp only
      rw [if_pos hintid]
      exact hx'
    · grind [h.irqDispatch_bound]

/-- In every reachable state an interrupt is routed as intended exactly when
    the timer's interrupt is unbound, and the notification a bound interrupt
    signals is below the top of its timeline and tells no woken thread. -/
theorem routed_iff_unbound_timer (hrun : Run (fun _ _ => True) x) (cpu : Fin maxCpus) (intid : Nat)
    (now : UInt64) :
    x.Routed cpu intid now ↔
      (intid = timerIntid → x.lookupBinding intid = none) ∧
      ∀ n, x.lookupBinding intid = some n →
        (x.notification n).state.value ≠ 0xffffffffffffffff ∧ x.FirstWake (.irq cpu intid now) := by
  obtain ⟨a, h⟩ := hrun.inv
  exact h.routed_iff cpu intid now

/-- Thread 1 waits for a value of 3.  Thread 2 binds interrupt 33 to the notification and signals 1;
    the interrupt comes once, and the next one is to wake thread 1. -/
theorem routed_iff_unbound_timer_third :
    ∃ x, Run (fun _ _ => True) x ∧ x.told (.irq 0 33 0) = some 1 ∧ x.Routed 0 33 0 := by
  obtain ⟨x, hrun, hlookup, hvalue, htold, hblocked⟩ := exists_run
    (Kernel.threeThreads.map .kernel ++ [.waitAny 0 [.notification 10 3] noDeadline 0,
      .bindIrq 1 33 10 true, .signal 1 10 1, .irq 0 33 0])
    (Q := fun x => x.lookupBinding 33 = some 10 ∧
      (x.notification 10).state.value ≠ 0xffffffffffffffff ∧ x.told (.irq 0 33 0) = some 1 ∧
      x.toKernel.Blocked 1) (by decide +kernel)
  refine ⟨x, hrun, htold, (routed_iff_unbound_timer hrun 0 33 0).mpr ⟨nofun, fun n hn => ?_⟩⟩
  cases hlookup.symm.trans hn
  exact ⟨hvalue, fun t ht _ => Option.some.inj (htold.symm.trans ht) ▸ hblocked⟩

/-- A process binds the timer's interrupt, which then runs no tick; and one signals the top of the
    timeline of a notification, which its interrupt then no longer advances. -/
theorem bound_interrupts_go_astray :
    (∃ x, Run (fun _ _ => True) x ∧ ¬ x.Routed 0 timerIntid 0) ∧
    ∃ x, Run (fun _ _ => True) x ∧ x.lookupBinding 33 = some 10 ∧ ¬ x.Routed 0 33 0 := by
  constructor
  · obtain ⟨x, hrun, hlookup⟩ := exists_run
      [.kernel (.addThread 1), .bindIrq 0 timerIntid 10 true]
      (Q := fun x => x.lookupBinding timerIntid = some 10) (by decide +kernel)
    obtain ⟨a, hinv⟩ := hrun.inv
    refine ⟨x, hrun, fun hr => ?_⟩
    have hnone := ((hinv.routed_iff 0 timerIntid 0).mp hr).1 rfl
    rw [hlookup] at hnone
    cases hnone
  · obtain ⟨x, hrun, hlookup, hvalue⟩ := exists_run
      [.kernel (.addThread 1), .signal 0 10 0xffffffffffffffff, .bindIrq 0 33 10 true]
      (Q := fun x => x.lookupBinding 33 = some 10 ∧
        (x.notification 10).state.value = 0xffffffffffffffff) (by decide +kernel)
    obtain ⟨a, hinv⟩ := hrun.inv
    exact ⟨x, hrun, hlookup, fun hr => (((hinv.routed_iff 0 33 0).mp hr).2 10 hlookup).1 hvalue⟩

end Sys

end Lockjaw.Wait
