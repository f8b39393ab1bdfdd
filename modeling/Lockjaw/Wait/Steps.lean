/-
  Lockjaw.Wait.Steps

  What each action does to the waits: it keeps the invariant, returns when the
  thread it tells is still Blocked and panics when that thread has been woken
  already, and (a new wait apart) leaves what a Blocked thread is registered
  for as it was.
-/

import Lockjaw.Wait.Invariant

namespace Lockjaw.Wait

open Sched Ipc SchedState Kernel Watch ReadinessWaiter

namespace Sys

variable {x x' x'' : Sys} {a : Spec} {cpu : Fin maxCpus} {t u n e : Kva}

/-! ## What a Blocked thread is registered for -/

/-- Object `o` is not ready and will tell `t` when it is. -/
def Watched (x : Sys) (t : Kva) : WaitObject → Prop
  | .endpoint e => (x.endpoint e).readinessWaiter = t ∧ (x.endpoint e).state ≠ .hasWaiters
  | .notification n threshold =>
    (x.notification n).readinessWaiter = t ∧
    (x.notification n).readinessThreshold ≤ threshold ∧
    (x.notification n).state.value < (x.notification n).readinessThreshold

/-- Whoever is Blocked in `sys_wait_any` afterwards was so before, on the same
    objects, and is still told of those it was told of. -/
def Calm (x x' : Sys) : Prop :=
  ∀ t, x'.waiting t = some .any → x'.toKernel.Blocked t →
    x.waiting t = some .any ∧ x.toKernel.Blocked t ∧
    (x'.wait t).waitObjects = (x.wait t).waitObjects ∧
    ∀ o ∈ (x.wait t).waitObjects, x.Watched t o → x'.Watched t o

theorem Calm.trans (h : x.Calm x') (h' : x'.Calm x'') : x.Calm x'' := by
  intro t ht hb
  obtain ⟨ht', hb', hobjs', hwatched'⟩ := h' t ht hb
  obtain ⟨ht'', hb'', hobjs, hwatched⟩ := h t ht' hb'
  grind

/-- A step that may wake threads but changes no readiness. -/
theorem Calm.of_wake (hwaiting : ∀ t, x'.waiting t = some .any → x.waiting t = some .any)
    (hblocked : ∀ t, x'.waiting t = some .any → x'.toKernel.Blocked t → x.toKernel.Blocked t)
    (hobjs : ∀ t, x'.waiting t = some .any → (x'.wait t).waitObjects = (x.wait t).waitObjects)
    (hendpoint : x'.endpoint = x.endpoint)
    (hnotification : ∀ n, (x'.notification n).readinessWaiter =
        (x.notification n).readinessWaiter ∧
      (x'.notification n).readinessThreshold = (x.notification n).readinessThreshold ∧
      (x'.notification n).state.value = (x.notification n).state.value) : x.Calm x' := by
  refine fun t ht hb => ⟨hwaiting t ht, hblocked t ht hb, hobjs t ht, fun o _ hw => ?_⟩
  cases o with
  | endpoint e => simpa only [Watched, hendpoint] using hw
  | notification n th =>
    obtain ⟨h1, h2, h3⟩ := hnotification n
    simpa only [Watched, h1, h2, h3] using hw

theorem Calm.refl (x : Sys) : x.Calm x :=
  .of_wake (fun _ => id) (fun _ _ => id) (fun _ _ => rfl) rfl fun _ => ⟨rfl, rfl, rfl⟩

theorem Inv.ne_zero (h : x.Inv a) (ht : x.waiting t ≠ none) : t ≠ 0 := by
  obtain ⟨i, hi⟩ := (h.inside t ht).2
  exact h.table.ne_zero i t hi

theorem Signalled.calm {v : UInt64} (hs : x.Signalled n v x') (h : x.Inv a) : x.Calm x' := by
  intro t ht hb
  have ht' : x.waiting t = some .any := by rw [← hs.waiting]; exact ht
  refine ⟨ht', hs.blocked t hb, by rw [hs.wait], fun o _ hw => ?_⟩
  cases o with
  | endpoint e => simpa only [Watched, hs.endpoint] using hw
  | notification m th =>
    by_cases hmn : m = n
    · subst hmn
      obtain ⟨hwaiter, hth, hval⟩ := hw
      have hne : (x.notification m).readinessWaiter ≠ 0 := by
        rw [hwaiter]
        exact h.ne_zero (by rw [ht']; exact Option.some_ne_none _)
      rcases hs.readiness with ⟨t', htold, hnb⟩ | ⟨hw', hth', htold⟩
      · -- the signal would have woken `t`
        unfold toldBySignal at htold
        grind
      · refine ⟨hw'.trans hwaiter, by rw [hth']; exact hth, ?_⟩
        rw [hth', hs.value]
        split
        · next hlt =>
          have hnot := htold hne
          unfold toldBySignal at hnot
          grind
        · exact hval
    · simpa only [Watched, hs.other m hmn] using hw

/-! ## IPC -/

/-- An operation that tells only a Blocked thread. -/
theorem Inv.issue (h : x.Inv a) (hfree : x.Free cpu t) (op : Op Kva Kva Msg UInt64)
    (hcall : ∀ e r m c, op = .call e r m c → r ≠ 0) (hwake : x.watch.Wakeable a op) :
    ∃ k' out, x.toKernel.ipc cpu op = .ok (k', out) ∧ (x.setKernel k').Inv (a.issue t op).1 ∧
      x.Calm (x.setKernel k') := by
  obtain ⟨hexe, hpending, hwaiting⟩ := hfree
  have hrun := h.sim.phase_running hpending
  obtain ⟨k', hipc, hsim, hcpus⟩ := h.sim.ipc hexe hrun op hcall hwake
  have hparked : ∀ v, (x.watch.issue a op).parked v → x.watch.parked v := by
    grind [issue, wake]
  have hwaiter : ∀ e', ((x.watch.issue a op).waiter e' = x.watch.waiter e' ∧
      (readied a op = some e' → x.watch.waiter e' = 0)) ∨
      ((x.watch.issue a op).waiter e' = 0 ∧
        ¬ (x.watch.issue a op).parked (x.watch.waiter e')) := by
    intro e'
    unfold Watch.issue Watch.wake
    split
    · next e0 hready =>
      split
      all_goals grind
    · grind
  have hinside : ∀ v, x.waiting v ≠ none → k'.pending v = none := by
    intro v hv
    have hvt : v ≠ t := by
      rintro rfl
      exact hv hwaiting
    have hvrun := h.sim.phase_running (h.inside v hv).1
    rw [(hsim.thread v).pending, issue_running h.sim.inv hvt hvrun]
    rfl
  have hwatch : (x.setKernel k').watch = x.watch.issue a op :=
    watch_eq hsim (fun v hv => (hparked v hv).1) hinside
  have hreg : ∀ v, x.toKernel.Registered v → k'.Registered v := by
    rintro v ⟨i, hi⟩
    exact ⟨i, by rw [hcpus.2]; exact hi⟩
  have hblocked : ∀ v, x.waiting v ≠ none → k'.Blocked v → x.toKernel.Blocked v := by
    intro v hv hb
    have hp : (x.setKernel k').watch.parked v := ⟨hv, hb⟩
    rw [hwatch] at hp
    exact (hparked v hp).2
  refine ⟨k', _, hipc, ⟨?_, fun v hv => ⟨hinside v hv, hreg v (h.inside v hv).2⟩,
    fun e' v hv hne => ?_, h.notif_waiter, fun m hm => ?_, h.deadline,
      fun i j hij hi => ?_⟩, fun v hv hb => ?_⟩
  · rw [hwatch]
    exact hsim
  · have hv' : (x.watch.issue a op).waiter e' = v := (hsim.ep e').readiness.symm.trans hv
    rcases hwaiter e' with ⟨hold, -⟩ | ⟨hzero, -⟩
    · exact h.ep_waiter e' v (hold.symm.trans hv') hne
    · exact absurd (hv'.symm.trans hzero) hne
  · -- a thread waiting on a timeline is told by no endpoint
    obtain ⟨hw, hb⟩ := h.blocked_waiter m hm
    have hp : (x.watch.issue a op).parked (x.notification m).blockedTcbKva := by
      unfold Watch.issue Watch.wake
      have hpm : x.watch.parked (x.notification m).blockedTcbKva :=
        ⟨by rw [hw]; exact Option.some_ne_none _, hb⟩
      split
      · next e0 _ =>
        split
        · exact hpm
        · next hne =>
          refine ⟨hpm, fun heq => ?_⟩
          have hany := (h.ep_waiter e0 _ heq.symm (by rw [heq]; exact hne)).1
          rw [hany] at hw
          cases hw
      · exact hpm
    exact ⟨hw, (hsim.thread _).blocked.mpr (Or.inr hp)⟩
  · have hi' : x.threads i = none := by rw [← hcpus.2]; exact hi
    rw [show (x.setKernel k').threads = x.threads from hcpus.2]
    exact h.slots i j hij hi'
  · have hv' : x.waiting v = some .any := hv
    have hne : x.waiting v ≠ none := by rw [hv']; exact Option.some_ne_none _
    refine ⟨hv, hblocked v hne hb, rfl, fun o _ hw => ?_⟩
    cases o with
    | notification m th => exact hw
    | endpoint e' =>
      obtain ⟨hwv, hstate⟩ := hw
      have hp : (x.watch.issue a op).parked v := by
        rw [← hwatch]
        exact ⟨hne, hb⟩
      have hwv' : x.watch.waiter e' = v := hwv
      rcases hwaiter e' with ⟨hold, hzero⟩ | ⟨-, hnp⟩
      · refine ⟨(hsim.ep e').readiness.trans (hold.trans hwv'), fun hs => ?_⟩
        have hs' : ((a.issue t op).1.ep e').state = .hasWaiters :=
          (hsim.ep e').state.symm.trans hs
        rcases issue_state op hs' with hs0 | hready
        · exact hstate ((h.sim.ep e').state.trans hs0)
        · exact h.ne_zero hne (hwv'.symm.trans (hzero hready))
      · rw [hwv'] at hnp
        exact absurd hp hnp

variable {k : Kernel} {s : SchedState} {op : SchedState.SchedOp}

/-- Telling a thread that has been woken already panics, from any kernel state
    with the same threads. -/
theorem wakeReadiness_stale {k' : Kernel} (htable : k.TableOk) (hreg : k.Registered u)
    (hb : ¬ k.Blocked u) (hsched : k'.sched = k.sched) (hthreads : k'.threads = k.threads)
    (hu : (k'.endpoint e).readinessWaiter = u) (hne : u ≠ 0) :
    k'.wakeReadinessWaiterIfRegistered e = .error .notBlocked := by
  have hunb : k'.unblockThread u = .error .notBlocked := by
    refine unblockThread_not_blocked ?_ ?_ ?_
    · simpa only [Kernel.TableOk, hsched, hthreads] using htable
    · simpa only [Kernel.Registered, hthreads] using hreg
    · simpa only [Kernel.Blocked, hsched, hthreads] using hb
  unfold wakeReadinessWaiterIfRegistered
  rw [if_pos (by rw [hu]; exact hne), hu, hunb]
  rfl

/-- An operation that tells a thread which has been woken already panics. -/
theorem Inv.issue_stale (h : x.Inv a) (hfree : x.Free cpu t) (op : Op Kva Kva Msg UInt64)
    (hready : readied a op = some e) (hne : (x.endpoint e).readinessWaiter ≠ 0)
    (hb : ¬ x.toKernel.Blocked (x.endpoint e).readinessWaiter) :
    x.toKernel.ipc cpu op = .error .notBlocked := by
  obtain ⟨hexe, -, -⟩ := hfree
  have hany := (h.ep_waiter e _ rfl hne).1
  have hreg := (h.inside _ (by rw [hany]; exact Option.some_ne_none _)).2
  cases op with
  | send e' m c =>
    unfold readied at hready
    dsimp only at hready
    split at hready
    · next hstate =>
      obtain rfl := Option.some.inj hready
      have hidle : (x.endpoint e').state = .idle := (h.sim.ep e').state.trans hstate
      simp only [ipc, ipcSend, hidle, decideSend]
      refine Sim.bind_ok hexe.currentTcbKva ?_
      rw [if_pos trivial, wakeReadiness_stale h.table hreg hb (by simp) (by simp) (by simp) hne]
      rfl
    · cases hready
  | call e' r m c =>
    unfold readied at hready
    dsimp only at hready
    split at hready
    · next hstate =>
      obtain rfl := Option.some.inj hready
      have hidle : (x.endpoint e').state = .idle := (h.sim.ep e').state.trans hstate.2
      simp only [ipc, ipcCall, h.sim.reply_fresh_iff, hstate.1, hidle, decideCall,
        Bool.not_true, Bool.false_eq_true, if_false]
      refine Sim.bind_ok hexe.currentTcbKva ?_
      rw [if_pos trivial, wakeReadiness_stale h.table hreg hb (by simp) (by simp) (by simp) hne]
      rfl
    · cases hready
  | recv e' => cases hready
  | recvNb e' => cases hready
  | reply m => cases hready

/-! ## Returns from IPC, scheduling, new threads -/

/-- A thread returns from IPC. -/
theorem Inv.kernelResume (h : x.Inv a) (hexe : x.toKernel.Executes cpu t)
    (hpending : x.pending t ≠ none) :
    (x.setKernel (x.toKernel.setPending t none)).Inv (a.setPhase t .running) ∧
      x.Calm (x.setKernel (x.toKernel.setPending t none)) := by
  obtain ⟨res, p, -, -, -, hsim⟩ := h.sim.resume hexe hpending
  refine ⟨⟨hsim, fun v hv => ⟨?_, (h.inside v hv).2⟩, h.ep_waiter, h.notif_waiter,
    h.blocked_waiter, h.deadline, h.slots⟩, .of_wake (fun _ => id) (fun _ _ => id)
    (fun _ _ => rfl) rfl fun _ => ⟨rfl, rfl, rfl⟩⟩
  have hvt : v ≠ t := by
    rintro rfl
    exact hpending (h.inside v hv).1
  simpa [hvt] using (h.inside v hv).1

/-- Scheduling moves threads between Ready and Running only. -/
theorem Inv.setSched (h : x.Inv a) (hinv : s.Inv) (hsame : SchedSteps.SameBlocked x.sched s) :
    (x.setKernel (x.toKernel.setSched s)).Inv a ∧ x.Calm (x.setKernel (x.toKernel.setSched s)) := by
  have hbl : ∀ v, (x.toKernel.setSched s).Blocked v ↔ x.toKernel.Blocked v :=
    hsame.blockedIn_iff
  have hwatch : (x.setKernel (x.toKernel.setSched s)).watch = x.watch := by
    have hp : (x.setKernel (x.toKernel.setSched s)).watch.parked = x.watch.parked := by
      funext v
      exact propext (and_congr_right fun _ => hbl v)
    simp only [watch] at hp ⊢
    rw [hp]
    rfl
  refine ⟨⟨?_, h.inside, h.ep_waiter, h.notif_waiter, fun m hm => ?_, h.deadline, h.slots⟩,
    .of_wake (fun _ => id) (fun v _ => (hbl v).mp) (fun _ _ => rfl) rfl
      fun _ => ⟨rfl, rfl, rfl⟩⟩
  · rw [hwatch]
    exact h.sim.setSched hinv hsame
  · obtain ⟨hw, hb⟩ := h.blocked_waiter m hm
    exact ⟨hw, (hbl _).mpr hb⟩

/-- A scheduler operation the kernel issues, other than an exit. -/
theorem Inv.schedOp (h : x.Inv a) (hissued : x.sched.Issued op)
    (hop : (∃ c reason, op = .step c reason ∧ reason ≠ .exit) ∨ ∃ c, op = .stepFromIdle c) :
    ∃ s, x.toKernel.schedOp op = .ok (x.toKernel.setSched s) ∧
      (x.setKernel (x.toKernel.setSched s)).Inv a ∧ x.Calm (x.setKernel (x.toKernel.setSched s)) ∧
      SchedSteps.SameBlocked x.sched s := by
  obtain ⟨s, out, hspec⟩ := exec_spec h.table.inv hissued
  have hexec := hspec.exec_eq
  have hsame : s.Inv ∧ SchedSteps.SameBlocked x.sched s := by
    rcases hop with ⟨c, reason, rfl, hreason⟩ | ⟨c, rfl⟩
    · exact SchedSteps.sameBlocked_step h.table.inv hissued hreason hexec
    · exact SchedSteps.sameBlocked_stepFromIdle h.table.inv hissued hexec
  grind [h.setSched, Kernel.schedOp]

/-- Registering a thread succeeds: the table is full, or the thread takes the first free slot. -/
theorem Inv.addThread_ok (h : x.Inv a) (t : Kva) :
    x.toKernel.addThread t = .ok x.toKernel ∨
    ∃ (idx : Nat) (s : SchedState), (∀ j : Fin maxThreads, j < idx → x.threads j ≠ none) ∧
      x.toKernel.addThread t = .ok (x.toKernel.register t idx s) := by
  unfold Kernel.addThread
  obtain ⟨idx, hlt, hnone, hfirst, heq⟩ | ⟨-, heq⟩ := addThread_cases x.sched
  · refine Or.inr ⟨idx, ?_⟩
    have hfull : ∀ j : Fin maxThreads, j < idx → x.threads j ≠ none :=
      fun j hj hj' => hfirst j hj ((h.table.registered j).mp hj')
    rw [heq]
    dsimp only
    by_cases hidx : idx = 0
    · -- nothing is registered yet, so CPU 0 is idle
      have hslot : x.threads ⟨idx, hlt⟩ = none := (h.table.registered ⟨idx, hlt⟩).mpr hnone
      have hidle : x.sched.tryCurrentFor 0 = none := by
        by_contra hcur
        obtain ⟨i, hi⟩ := Option.ne_none_iff_exists'.mp hcur
        have hreg := h.table.inv.current_registered 0 i hi
        have hilt := lt_of_get hreg
        refine hreg ((h.table.registered ⟨i, hilt⟩).mp (h.slots ⟨idx, hlt⟩ ⟨i, hilt⟩ ?_ hslot))
        rw [Fin.mk_le_mk, hidx]
        exact Nat.zero_le i
      have hset : ∃ s, (x.sched.setState idx (some .ready)).setInitialCurrent 0 idx = .ok s := by
        unfold setInitialCurrent
        rw [if_neg (by simp [hidle]), if_neg (by simp [hlt])]
        exact ⟨_, rfl⟩
      obtain ⟨s, hs⟩ := hset
      rw [if_pos hidx, hs]
      exact ⟨s, hfull, rfl⟩
    · rw [if_neg hidx]
      exact ⟨_, hfull, rfl⟩
  · rw [heq]
    exact Or.inl rfl

/-- A new thread waits for nothing. -/
theorem Inv.addThread (h : x.Inv a) (ht : t ≠ 0) (hfree : ∀ i, x.threads i ≠ some t) :
    ∃ k', x.toKernel.addThread t = .ok k' ∧
      ((x.setKernel k').updWait t fun _ => TcbWait.init).Inv a ∧
      x.Calm ((x.setKernel k').updWait t fun _ => TcbWait.init) := by
  have hnot : x.waiting t = none := by
    by_contra hne
    obtain ⟨i, hi⟩ := (h.inside t hne).2
    exact hfree i hi
  have hwait : ∀ v, x.waiting v ≠ none →
      Function.update x.wait t TcbWait.init v = x.wait v := by
    intro v hv
    have hvt : v ≠ t := by
      rintro rfl
      exact hv hnot
    simp [hvt]
  obtain ⟨k', hadd, hreg, hslots, hpending, hendpoint⟩ : ∃ k', x.toKernel.addThread t = .ok k' ∧
      (∀ v, x.toKernel.Registered v → k'.Registered v) ∧
      (∀ i j, i ≤ j → k'.threads i = none → k'.threads j = none) ∧
      k'.pending = x.pending ∧ k'.endpoint = x.endpoint := by
    rcases h.addThread_ok t with hadd | ⟨idx, s, hfull, hadd⟩
    · exact ⟨_, hadd, fun _ => id, h.slots, rfl, rfl⟩
    · refine ⟨_, hadd, ?_, fun i j hij hi => ?_, rfl, rfl⟩
      · rintro v ⟨i, hi⟩
        by_cases hidx : i.val = idx
        · -- the slot was free
          obtain heq | ⟨i', s', st, hi', -, -, -, -, heq⟩ := addThread_spec h.table hadd
          · exact ⟨i, by rw [heq]; exact hi⟩
          · have hslot := congrFun (congrArg threads heq) i'
            simp only [Kernel.register, if_true] at hslot
            grind
        · exact ⟨i, by simpa [Kernel.register, hidx] using hi⟩
      · simp only [Kernel.register] at hi ⊢
        grind [h.slots]
  have hsim := h.sim.addThread ht (fun hex => hex.elim hfree) hadd
  have hwatch : ((x.setKernel k').updWait t fun _ => TcbWait.init).watch = x.watch :=
    watch_eq hsim (fun v hv => hv.1) fun v hv => (congrFun hpending v).trans (h.inside v hv).1
  have hblocked : ∀ v, x.waiting v ≠ none → (k'.Blocked v ↔ x.toKernel.Blocked v) := by
    intro v hv
    have hp := congrFun (congrArg parked hwatch) v
    simpa [watch, hv] using hp
  refine ⟨k', hadd, ⟨?_, fun v hv => ⟨(congrFun hpending v).trans (h.inside v hv).1,
      hreg v (h.inside v hv).2⟩, fun e' v hv hne => ?_, fun m v hv hne => ?_, fun m hm => ?_,
      fun v hv => ?_, hslots⟩,
    .of_wake (fun _ => id) (fun v hv hb => ?_) (fun v hv => ?_) hendpoint
      fun _ => ⟨rfl, rfl, rfl⟩⟩
  · rw [hwatch]
    exact hsim
  · obtain ⟨hany, hmem⟩ := h.ep_waiter e' v (by rw [← hv, ← hendpoint]; rfl) hne
    refine ⟨hany, ?_⟩
    rw [show Sys.wait _ v = _ from hwait v (by rw [hany]; exact Option.some_ne_none _)]
    exact hmem
  · obtain ⟨hany, hmem⟩ := h.notif_waiter m v hv hne
    refine ⟨hany, ?_⟩
    rw [show Sys.wait _ v = _ from hwait v (by rw [hany]; exact Option.some_ne_none _)]
    exact hmem
  · obtain ⟨hw, hb⟩ := h.blocked_waiter m hm
    exact ⟨hw, (hblocked (x.notification m).blockedTcbKva (by
      rw [hw]; exact Option.some_ne_none _)).mpr hb⟩
  · by_cases hvt : v = t
    · subst hvt
      exact absurd (by simp [TcbWait.init]) hv
    · exact h.deadline v (by simpa [hvt] using hv)
  · exact (hblocked v (by rw [show x.waiting v = _ from hv]; exact Option.some_ne_none _)).mp hb
  · rw [show Sys.wait _ v = _ from hwait v (by
      rw [show x.waiting v = _ from hv]; exact Option.some_ne_none _)]

/-! ## Entering and leaving a wait -/

theorem blockCurrent_eq (hs : x.sched.blockCurrent cpu = .ok (.ok s)) (t : Kva)
    (op : WaitOp) : x.blockCurrent cpu t op =
      .ok ((x.setKernel (x.toKernel.setSched s)).setWaiting t (some op)) := by
  unfold Sys.blockCurrent
  rw [hs]

/-- `block_current` inside a wait. -/
theorem Inv.block (h : x.Inv a) (hfree : x.Free cpu t) (op : WaitOp) :
    ∃ s, x.sched.blockCurrent cpu = .ok (.ok s) ∧
      ((x.setKernel (x.toKernel.setSched s)).setWaiting t (some op)).Inv a ∧
      s.currentPerCpu = x.sched.currentPerCpu ∧
      ∀ u, BlockedIn s x.threads u ↔ x.toKernel.Blocked u ∨ u = t := by
  obtain ⟨hexe, hpending, hwaiting⟩ := hfree
  obtain ⟨i, hcur, hrunning, hthread⟩ := id hexe
  obtain ⟨s, hblk, htable, hcpus, hbl⟩ := blockCurrent_spec h.table hexe .send
  have hs : x.sched.blockCurrent cpu = .ok (.ok s) := by
    rw [blockCurrent_of_running hcur hrunning]
    unfold Kernel.blockCurrent at hblk
    rw [blockCurrent_of_running hcur hrunning] at hblk
    have heq := congrArg sched (Except.ok.inj hblk)
    exact congrArg (fun r => Except.ok (Except.ok r)) heq
  have hrun := h.sim.phase_running hpending
  -- the machine does not see this wait: `t` joins the threads parked outside it
  have hsim : Sim ⟨fun v => x.watch.parked v ∨ v = t, x.watch.waiter⟩
      (x.toKernel.setSched s) a := by
    refine ⟨h.sim.toRep.setWatch htable (fun v => ?_) (fun v hv => ?_) rfl, h.sim.inv,
      h.sim.bound_zero⟩
    · rw [show BlockedIn s x.threads v ↔ _ from hbl v, (h.sim.thread v).blocked, or_assoc]
    · rcases hv with hv | rfl
      · exact (h.sim.thread v).parked hv
      · exact hrun
  have hset : ∀ v, v ≠ t → Function.update x.waiting t (some op) v = x.waiting v := fun v hv => by
    simp [hv]
  have hany : ∀ v o, x.waiting v = some o → Function.update x.waiting t (some op) v = some o := by
    intro v o hv
    rw [hset v (by rintro rfl; simp [hwaiting] at hv), hv]
  have hinside : ∀ v, Function.update x.waiting t (some op) v ≠ none →
      x.pending v = none ∧ x.toKernel.Registered v := by
    intro v hv
    by_cases hvt : v = t
    · rw [hvt]
      exact ⟨hpending, hexe.registered⟩
    · exact h.inside v (by rwa [hset v hvt] at hv)
  have hwatch : ((x.setKernel (x.toKernel.setSched s)).setWaiting t (some op)).watch =
      ⟨fun v => x.watch.parked v ∨ v = t, x.watch.waiter⟩ := by
    refine watch_eq hsim (fun v hv => ?_) fun v hv => (hinside v hv).1
    rcases hv with hv | rfl
    · obtain ⟨o, ho⟩ := Option.ne_none_iff_exists'.mp hv.1
      rw [show Sys.waiting _ v = _ from hany v o ho]
      exact Option.some_ne_none _
    · simp
  refine ⟨s, hs, ⟨?_, hinside, fun e' v hv hne => ?_, fun m v hv hne => ?_, fun m hm => ?_,
    fun v hv => hany v _ (h.deadline v hv), h.slots⟩, hcpus, hbl⟩
  · rw [hwatch]
    exact hsim
  · exact (h.ep_waiter e' v hv hne).imp_left (hany v _)
  · exact (h.notif_waiter m v hv hne).imp_left (hany v _)
  · obtain ⟨hw, hb⟩ := h.blocked_waiter m hm
    exact ⟨hany _ _ hw, (hbl _).mpr (Or.inl hb)⟩

/-- A thread stores its wait state while it is inside `sys_wait_any` and registered nowhere. -/
theorem Inv.updWait (h : x.Inv a) (w : TcbWait) (hdl : w.waitDeadline ≠ noDeadline →
      x.waiting t = some .any)
    (hep : ∀ e, t ≠ 0 → (x.endpoint e).readinessWaiter = t → .endpoint e ∈ w.waitObjects)
    (hno : ∀ n, t ≠ 0 → (x.notification n).readinessWaiter = t →
      ∃ th, .notification n th ∈ w.waitObjects) : (x.updWait t fun _ => w).Inv a := by
  refine ⟨h.sim, h.inside, fun e' v hv hne => ?_, fun m v hv hne => ?_, h.blocked_waiter,
    fun v hv => ?_, h.slots⟩
  · refine ⟨(h.ep_waiter e' v hv hne).1, ?_⟩
    by_cases hvt : v = t
    · subst hvt
      simpa using hep e' hne hv
    · simpa [hvt] using (h.ep_waiter e' v hv hne).2
  · refine ⟨(h.notif_waiter m v hv hne).1, ?_⟩
    by_cases hvt : v = t
    · subst hvt
      simpa using hno m hne hv
    · simpa [hvt] using (h.notif_waiter m v hv hne).2
  · by_cases hvt : v = t
    · subst hvt
      exact hdl (by simpa using hv)
    · exact h.deadline v (by simpa [hvt] using hv)

/-- Rewriting the readiness waiter of an endpoint. -/
theorem Inv.setEpWaiter (h : x.Inv a) (e v : Kva)
    (hv : v ≠ 0 → x.waiting v = some .any ∧ .endpoint e ∈ (x.wait v).waitObjects) :
    (x.setKernel (x.toKernel.updEp e fun ep => { ep with readinessWaiter := v })).Inv a := by
  have hsim : Sim ⟨x.watch.parked, Function.update x.watch.waiter e v⟩
      (x.toKernel.updEp e fun ep => { ep with readinessWaiter := v }) a :=
    ⟨h.sim.toRep.setWaiter e v, h.sim.inv, h.sim.bound_zero⟩
  have hwatch : (x.setKernel (x.toKernel.updEp e fun ep =>
      { ep with readinessWaiter := v })).watch =
        ⟨x.watch.parked, Function.update x.watch.waiter e v⟩ :=
    watch_eq hsim (fun u hu => hu.1) fun u hu => (h.inside u hu).1
  refine ⟨by rw [hwatch]; exact hsim, h.inside, fun e' u hu hne => ?_, h.notif_waiter,
    h.blocked_waiter, h.deadline, h.slots⟩
  by_cases he : e' = e
  · subst he
    have huv : v = u := by simpa using hu
    subst huv
    exact hv hne
  · exact h.ep_waiter e' u (by simpa [he] using hu) hne

/-- Rewriting the readiness waiter of a notification. -/
theorem Inv.setNotifWaiter (h : x.Inv a) (n v : Kva) (th : UInt64)
    (hv : v ≠ 0 → x.waiting v = some .any ∧ ∃ th, .notification n th ∈ (x.wait v).waitObjects) :
    (x.updNotification n fun o =>
      { o with readinessWaiter := v, readinessThreshold := th }).Inv a := by
  refine ⟨h.sim, h.inside, h.ep_waiter, fun m u hu hne => ?_, fun m hm => ?_, h.deadline, h.slots⟩
  · by_cases hmn : m = n
    · subst hmn
      have huv : v = u := by simpa using hu
      subst huv
      exact hv hne
    · exact h.notif_waiter m u (by simpa [hmn] using hu) hne
  · by_cases hmn : m = n
    · subst hmn
      have hb := h.blocked_waiter m (by simpa using hm)
      simpa using hb
    · have hb := h.blocked_waiter m (by simpa [hmn] using hm)
      simpa [hmn] using hb

theorem registerIgnoring_eq (w t : Kva) :
    registerIgnoring w t = if w ≠ 0 then w else t := by
  unfold ReadinessWaiter.registerIgnoring ReadinessWaiter.register
  by_cases hw : w = 0 <;> simp [hw]

theorem Inv.setReadinessWaiter (h : x.Inv a) (ht : x.waiting t = some .any) {o : WaitObject}
    (ho : o ∈ (x.wait t).waitObjects) : (x.setReadinessWaiter t o).Inv a := by
  cases o with
  | endpoint e =>
    refine h.setEpWaiter e (registerIgnoring (x.endpoint e).readinessWaiter t)
      fun hne => ?_
    grind [h.ep_waiter, registerIgnoring_eq]
  | notification n th =>
    refine h.setNotifWaiter n
      (registerIgnoring (x.notification n).readinessWaiter t) th fun hne => ?_
    grind [h.notif_waiter, registerIgnoring_eq]

theorem Inv.clearReadinessWaiter (h : x.Inv a) (t : Kva) (o : WaitObject) :
    (x.clearReadinessWaiter t o).Inv a := by
  have hclear : ∀ w, (clearIfMatch w t).1 ≠ 0 →
      (clearIfMatch w t).1 = w := by
    intro w
    unfold clearIfMatch
    split
    · exact fun hne => absurd rfl hne
    · exact fun _ => rfl
  cases o with
  | endpoint e =>
    refine h.setEpWaiter e (clearIfMatch (x.endpoint e).readinessWaiter t).1
      fun hne => ?_
    rw [hclear _ hne]
    exact h.ep_waiter e _ rfl (hclear _ hne ▸ hne)
  | notification n th =>
    refine h.setNotifWaiter n
      (clearIfMatch (x.notification n).readinessWaiter t).1
      (if (clearIfMatch (x.notification n).readinessWaiter t).2 then 0
        else (x.notification n).readinessThreshold) fun hne => ?_
    rw [hclear _ hne]
    exact h.notif_waiter n _ rfl (hclear _ hne ▸ hne)

/-- What registering and unregistering leave alone. -/
structure SameWaits (x x' : Sys) : Prop where
  sched : x'.sched = x.sched
  threads : x'.threads = x.threads
  wait : x'.wait = x.wait
  waiting : x'.waiting = x.waiting
  pending : x'.pending = x.pending
  state : ∀ e, (x'.endpoint e).state = (x.endpoint e).state
  value : ∀ n, (x'.notification n).state = (x.notification n).state

theorem SameWaits.refl (x : Sys) : x.SameWaits x :=
  ⟨rfl, rfl, rfl, rfl, rfl, fun _ => rfl, fun _ => rfl⟩

theorem SameWaits.trans (h : x.SameWaits x') (h' : x'.SameWaits x'') : x.SameWaits x'' :=
  ⟨h'.sched.trans h.sched, h'.threads.trans h.threads, h'.wait.trans h.wait,
    h'.waiting.trans h.waiting, h'.pending.trans h.pending, fun e => (h'.state e).trans (h.state e),
    fun n => (h'.value n).trans (h.value n)⟩

theorem sameWaits_setReadinessWaiter (x : Sys) (t : Kva) (o : WaitObject) :
    x.SameWaits (x.setReadinessWaiter t o) := by
  cases o with
  | endpoint e =>
    refine ⟨rfl, rfl, rfl, rfl, rfl, fun e' => ?_, fun _ => rfl⟩
    by_cases he : e' = e <;> simp [Sys.setReadinessWaiter, he]
  | notification n th =>
    refine ⟨rfl, rfl, rfl, rfl, rfl, fun _ => rfl, fun m => ?_⟩
    by_cases hm : m = n <;> simp [Sys.setReadinessWaiter, hm]

theorem sameWaits_clearReadinessWaiter (x : Sys) (t : Kva) (o : WaitObject) :
    x.SameWaits (x.clearReadinessWaiter t o) := by
  cases o with
  | endpoint e =>
    refine ⟨rfl, rfl, rfl, rfl, rfl, fun e' => ?_, fun _ => rfl⟩
    by_cases he : e' = e <;> simp [Sys.clearReadinessWaiter, he]
  | notification n th =>
    refine ⟨rfl, rfl, rfl, rfl, rfl, fun _ => rfl, fun m => ?_⟩
    by_cases hm : m = n <;> simp [Sys.clearReadinessWaiter, hm]

/-- A walk over the objects keeps what each of its steps keeps. -/
theorem sameWaits_foldl {f : Sys → WaitObject → Sys} (hf : ∀ x o, SameWaits x (f x o))
    (objs : List WaitObject) (x : Sys) : x.SameWaits (objs.foldl f x) := by
  induction objs generalizing x with
  | nil => exact .refl x
  | cons o objs ih => exact (hf x o).trans (ih (f x o))

/-- The state in which `t` is parked in `sys_wait_any`, before it is registered anywhere. -/
def parkedOn (x : Sys) (t : Kva) (s : SchedState) (objs : List WaitObject) (deadline : UInt64) :
    Sys :=
  ((x.setKernel (x.toKernel.setSched s)).setWaiting t (some .any)).updWait t
    fun _ => ⟨objs, deadline⟩

/-- Registering first and blocking first come to the same. -/
theorem waitSlow_eq (hs : x.sched.blockCurrent cpu = .ok (.ok s))
    (objs : List WaitObject) (deadline : UInt64) :
    x.waitSlow cpu t objs deadline =
      .ok (objs.foldl (fun x o => x.setReadinessWaiter t o) (x.parkedOn t s objs deadline)) := by
  have hsched : (objs.foldl (fun x o => x.setReadinessWaiter t o) x).sched = x.sched :=
    (sameWaits_foldl (fun x o => sameWaits_setReadinessWaiter x t o) objs x).sched
  have hblock : x.waitSlow cpu t objs deadline =
      .ok ((objs.foldl (fun x o => x.setReadinessWaiter t o) x).parkedOn t s objs deadline) := by
    refine blockCurrent_eq ?_ t .any
    rw [← hs, ← hsched]
    rfl
  rw [hblock]
  refine congrArg Except.ok ?_
  refine (List.foldl_hom (fun y : Sys => y.parkedOn t s objs deadline) (fun y o => ?_)).symm
  cases o <;> rfl

theorem Inv.waitSlow (h : x.Inv a) (hfree : x.Free cpu t) (objs : List WaitObject)
    (deadline : UInt64) :
    ∃ s, x.waitSlow cpu t objs deadline =
        .ok (objs.foldl (fun x o => x.setReadinessWaiter t o) (x.parkedOn t s objs deadline)) ∧
      (objs.foldl (fun x o => x.setReadinessWaiter t o) (x.parkedOn t s objs deadline)).Inv a ∧
      s.currentPerCpu = x.sched.currentPerCpu ∧
      ∀ u, BlockedIn s x.threads u ↔ x.toKernel.Blocked u ∨ u = t := by
  obtain ⟨s, hs, hinv, hcpus, hbl⟩ := h.block hfree .any
  refine ⟨s, waitSlow_eq hs objs deadline, ?_, hcpus, hbl⟩
  have hnot : x.waiting t ≠ some .any := by
    rw [hfree.2.2]
    exact fun hn => by cases hn
  have hpark : (x.parkedOn t s objs deadline).Inv a :=
    hinv.updWait ⟨objs, deadline⟩ (fun _ => by simp)
      (fun e hne he => absurd (h.ep_waiter e t he hne).1 hnot)
      fun n hne hn => absurd (h.notif_waiter n t hn hne).1 hnot
  -- every object registered below is one of those stored in the TCB
  have hfold : ∀ (l : List WaitObject) (y : Sys), y.Inv a → y.waiting t = some .any →
      (∀ o ∈ l, o ∈ (y.wait t).waitObjects) →
      (l.foldl (fun x o => x.setReadinessWaiter t o) y).Inv a := by
    intro l
    induction l with
    | nil => exact fun y hy _ _ => hy
    | cons o l ih =>
      intro y hy ht hl
      have hsame := sameWaits_setReadinessWaiter y t o
      grind [hsame.wait, hsame.waiting, hy.setReadinessWaiter]
  refine hfold objs _ hpark ?_ fun o ho => ?_
  · simp [parkedOn]
  · simpa [parkedOn] using ho

end Sys

end Lockjaw.Wait
