/-
  Lockjaw.Wait.Runs

  The calls assembled from their moves, the timer tick, and whole runs: every
  reachable state satisfies the invariant, and an action panics exactly when
  the thread it tells has been woken already.
-/

import Lockjaw.Wait.Steps

namespace Lockjaw.Wait

open Sched Ipc ReadinessWaiter

namespace Sys

variable {x x' : Sys} {a a' : Spec} {cpu : Fin maxCpus} {t u n e : Kva}

/-! ## sys_wait_notification -/

/-- Writing `ipc_blocked_on` of the running thread. -/
theorem Inv.setIpcBlockedOn (h : x.Inv a) (hfree : x.Free cpu t) (v : Kva) :
    (x.setKernel (x.toKernel.updTcb t fun c => { c with ipcBlockedOn := v })).Inv a := by
  obtain ⟨hexe, hpending, -⟩ := hfree
  have hrep := h.sim.toRep.write hexe.registered (h.sim.phase_running hpending)
    (h.sim.not_queued hexe) (fun b => { b with ipcBlockedOn := v }) (h.sim.thread t).holds
  rw [Rendezvous.setHolds_self rfl] at hrep
  exact ⟨⟨hrep, h.sim.inv, h.sim.bound_zero⟩, h.inside, h.ep_waiter, h.notif_waiter,
    h.blocked_waiter, h.deadline, h.slots⟩

/-- Entering a parked thread as the waiter of the timeline it is parked on. -/
theorem Inv.setBlocked (h : x.Inv a) (st : NotificationState)
    (hwaiting : x.waiting t = some (.notification n)) (hb : x.toKernel.Blocked t) :
    (x.updNotification n fun o => { o with state := st, blockedTcbKva := t }).Inv a := by
  refine ⟨h.sim, h.inside, h.ep_waiter, fun m v hv hne => ?_, fun m hm => ?_, h.deadline, h.slots⟩
  · refine h.notif_waiter m v ?_ hne
    by_cases hmn : m = n
    · subst hmn
      simpa using hv
    · simpa [hmn] using hv
  · by_cases hmn : m = n
    · subst hmn
      simpa using And.intro hwaiting hb
    · have hb' := h.blocked_waiter m (by simpa [hmn] using hm)
      simpa [hmn] using hb'

/-- The state in which `t` is parked on the timeline of `n`. -/
def parkedOnTimeline (x : Sys) (t n : Kva) (s : SchedState) (st : NotificationState) : Sys :=
  (((x.setKernel (x.toKernel.updTcb t fun c => { c with ipcBlockedOn := n })).setKernel
    ((x.toKernel.updTcb t fun c => { c with ipcBlockedOn := n }).setSched s)).setWaiting t
      (some (.notification n))).updNotification n fun o =>
        { o with state := st, blockedTcbKva := t }

/-- A wait that has to block enters the caller as the waiter and parks it. -/
theorem Inv.notificationWait_block (h : x.Inv a) (hfree : x.Free cpu t) {threshold : UInt64}
    {st : NotificationState} (hst : (x.notification n).state.wait threshold = .ok (st, .block)) :
    ∃ s, x.notificationWait cpu n threshold = .ok (x.parkedOnTimeline t n s st, .blocked) ∧
      (x.parkedOnTimeline t n s st).Inv a ∧
      ∀ u, BlockedIn s x.threads u ↔ x.toKernel.Blocked u ∨ u = t := by
  have h1 := h.setIpcBlockedOn hfree n
  have hfree1 : (x.setKernel (x.toKernel.updTcb t fun c =>
    { c with ipcBlockedOn := n })).Free cpu t := hfree
  obtain ⟨s, hs, h2, -, hbl⟩ := h1.block hfree1 (.notification n)
  have h3 := h2.setBlocked (n := n) (t := t) st (by simp)
    ((hbl t).mpr (Or.inr rfl))
  refine ⟨s, ?_, h3, hbl⟩
  unfold Sys.notificationWait
  rw [hst]
  refine Sim.bind_ok (lift_current hfree.1)
    (Sim.bind_ok (y := x.parkedOnTimeline t n s st) ?_ rfl)
  rw [blockCurrent_eq (s := s) (by exact hs)]
  simp only [parkedOnTimeline, Sys.updNotification, Function.update_self, Function.update_idem]
  rfl

theorem Inv.notificationWait (h : x.Inv a) (hfree : x.Free cpu t) (n : Kva) (threshold : UInt64) :
    ∃ x' out, x.notificationWait cpu n threshold = .ok (x', out) ∧ x'.Inv a ∧ x.Calm x' := by
  cases hwait : (x.notification n).state.wait threshold with
  | error err => exact ⟨x, .failed err, by simp only [Sys.notificationWait, hwait], h, .refl x⟩
  | ok r =>
    obtain ⟨st, r⟩ := r
    cases r with
    | ready => exact ⟨x, _, by simp only [Sys.notificationWait, hwait]; rfl, h, .refl x⟩
    | block =>
      have hval : st.value = (x.notification n).state.value := by grind [NotificationState.wait]
      obtain ⟨s, hok, hinv, hbl⟩ := h.notificationWait_block hfree hwait
      refine ⟨_, .blocked, hok, hinv, .of_wake (fun v hv => ?_) (fun v hv hb => ?_)
        (fun _ _ => rfl) rfl fun m => ?_⟩
      · by_cases hvt : v = t
        · subst hvt
          simp [parkedOnTimeline] at hv
        · simpa [parkedOnTimeline, hvt] using hv
      · have hvt : v ≠ t := by
          rintro rfl
          simp [parkedOnTimeline] at hv
        exact ((hbl v).mp hb).resolve_right hvt
      · by_cases hm : m = n
        · subst hm
          simp [parkedOnTimeline, hval]
        · simp [parkedOnTimeline, hm]

/-! ## Returning from a wait -/

/-- Unregistering touches only the objects `t` is registered on. -/
theorem clearReadinessWaiter_endpoint (x : Sys) (o : WaitObject)
    (he : (x.endpoint e).readinessWaiter ≠ t) :
    (x.clearReadinessWaiter t o).endpoint e = x.endpoint e := by
  cases o with
  | notification m th => rfl
  | endpoint e' =>
    by_cases hee : e = e'
    · subst hee
      simp [Sys.clearReadinessWaiter, clearIfMatch, he]
    · simp [Sys.clearReadinessWaiter, hee]

theorem clearReadinessWaiter_notification (x : Sys) (o : WaitObject)
    (hn : (x.notification n).readinessWaiter ≠ t) :
    (x.clearReadinessWaiter t o).notification n = x.notification n := by
  cases o with
  | endpoint e' => rfl
  | notification m th =>
    by_cases hmn : n = m
    · subst hmn
      simp [Sys.clearReadinessWaiter, clearIfMatch, hn]
    · simp [Sys.clearReadinessWaiter, hmn]

/-- A listed endpoint no longer has `t` as its readiness waiter. -/
theorem foldl_clear_endpoint_ne (ht : t ≠ 0) (objs : List WaitObject) (x : Sys)
    (hmem : (x.endpoint e).readinessWaiter = t → .endpoint e ∈ objs) :
    ((objs.foldl (fun x o => x.clearReadinessWaiter t o) x).endpoint e).readinessWaiter ≠ t := by
  induction objs generalizing x with
  | nil => exact fun he => by simpa using hmem he
  | cons o objs ih =>
    refine ih _ fun he => ?_
    by_cases hx : (x.endpoint e).readinessWaiter = t
    · rcases List.mem_cons.mp (hmem hx) with rfl | ho
      · simp [Sys.clearReadinessWaiter, clearIfMatch, hx, ht] at he
        exact absurd he.symm ht
      · exact ho
    · rw [clearReadinessWaiter_endpoint x o hx] at he
      exact absurd he hx

theorem foldl_clear_notification_ne (ht : t ≠ 0) (objs : List WaitObject) (x : Sys)
    (hmem : (x.notification n).readinessWaiter = t → ∃ th, .notification n th ∈ objs) :
    ((objs.foldl (fun x o => x.clearReadinessWaiter t o) x).notification n).readinessWaiter ≠
      t := by
  induction objs generalizing x with
  | nil =>
    intro hn
    obtain ⟨th, hth⟩ := hmem hn
    cases hth
  | cons o objs ih =>
    refine ih _ fun hn => ?_
    by_cases hx : (x.notification n).readinessWaiter = t
    · obtain ⟨th, hth⟩ := hmem hx
      rcases List.mem_cons.mp hth with rfl | ho
      · simp [Sys.clearReadinessWaiter, Sys.updNotification, clearIfMatch, hx,
          ht] at hn
        exact absurd hn.symm ht
      · exact ⟨th, ho⟩
    · rw [clearReadinessWaiter_notification x o hx] at hn
      exact absurd hn hx

/-- A running thread that is registered nowhere leaves its wait. -/
theorem Inv.leave (h : x.Inv a) (hb : ¬ x.toKernel.Blocked t)
    (hep : ∀ e, t ≠ 0 → (x.endpoint e).readinessWaiter ≠ t)
    (hno : ∀ n, t ≠ 0 → (x.notification n).readinessWaiter ≠ t)
    (hdl : (x.wait t).waitDeadline = noDeadline) : (x.setWaiting t none).Inv a := by
  have hset : ∀ v, v ≠ t → (x.setWaiting t none).waiting v = x.waiting v := fun v hv => by
    simp [hv]
  have hwatch : (x.setWaiting t none).watch = x.watch := by
    refine watch_eq (x := x.setWaiting t none) h.sim (fun v hv => ?_) fun v hv => ?_
    · rw [hset v (by rintro rfl; exact hb hv.2)]
      exact hv.1
    · by_cases hvt : v = t
      · simp [hvt] at hv
      · exact (h.inside v (by rwa [hset v hvt] at hv)).1
  refine ⟨by rw [hwatch]; exact h.sim, fun v hv => ?_, fun e' v hv hne => ?_, fun m v hv hne => ?_,
    fun m hm => ?_, fun v hv => ?_, h.slots⟩
  · by_cases hvt : v = t
    · simp [hvt] at hv
    · exact h.inside v (by rwa [hset v hvt] at hv)
  · have hvt : v ≠ t := by
      rintro rfl
      exact hep e' hne hv
    rw [hset v hvt]
    exact h.ep_waiter e' v hv hne
  · have hvt : v ≠ t := by
      rintro rfl
      exact hno m hne hv
    rw [hset v hvt]
    exact h.notif_waiter m v hv hne
  · obtain ⟨hw, hblocked⟩ := h.blocked_waiter m hm
    have hne : (x.notification m).blockedTcbKva ≠ t := by
      intro heq
      rw [heq] at hblocked
      exact hb hblocked
    exact ⟨(hset _ hne).trans hw, hblocked⟩
  · have hvt : v ≠ t := by
      rintro rfl
      exact hv hdl
    rw [hset v hvt]
    exact h.deadline v hv

/-- The return from `sys_wait_any`. -/
theorem Inv.waitCleanup (h : x.Inv a) (hexe : x.toKernel.Executes cpu t)
    (hany : x.waiting t = some .any) :
    ((x.waitCleanup t).setWaiting t none).Inv a ∧ x.Calm ((x.waitCleanup t).setWaiting t none) := by
  have ht : t ≠ 0 := hexe.ne_zero h.table
  -- `x1` clears the deadline, `x2` the registrations, and the list of objects goes last: the
  -- invariant wants every registration to be on the list of its thread
  have h1 : (x.updWait t fun w => { w with waitDeadline := noDeadline }).Inv a :=
    h.updWait ⟨(x.wait t).waitObjects, noDeadline⟩ (fun hne => absurd rfl hne)
      (fun e hne he => (h.ep_waiter e t he hne).2) fun n hne hn => (h.notif_waiter n t hn hne).2
  set x1 := x.updWait t fun w => { w with waitDeadline := noDeadline } with hx1
  set x2 := (x.wait t).waitObjects.foldl (fun x o => x.clearReadinessWaiter t o) x1 with hx2
  have hend : x.waitCleanup t = x2.updWait t fun w => { w with waitObjects := [] } := rfl
  rw [hend]
  have h2 : x2.Inv a := List.foldlRecOn (motive := (Sys.Inv · a)) _ _ h1 fun y hy o _ =>
    hy.clearReadinessWaiter t o
  have hsame : x1.SameWaits x2 :=
    sameWaits_foldl (fun x o => sameWaits_clearReadinessWaiter x t o) _ x1
  have hep : ∀ e, (x2.endpoint e).readinessWaiter ≠ t := fun e =>
    foldl_clear_endpoint_ne ht _ x1 fun he => (h.ep_waiter e t he ht).2
  have hno : ∀ n, (x2.notification n).readinessWaiter ≠ t := fun n =>
    foldl_clear_notification_ne ht _ x1 fun hn => (h.notif_waiter n t hn ht).2
  have hdl : (x2.wait t).waitDeadline = noDeadline := by
    rw [hsame.wait, hx1]
    simp
  have h3 : (x2.updWait t fun w => { w with waitObjects := [] }).Inv a :=
    h2.updWait ⟨[], (x2.wait t).waitDeadline⟩ (fun hne => absurd hdl hne)
      (fun e _ he => absurd he (hep e)) fun n _ hn => absurd hn (hno n)
  have hblocked : ∀ v, x2.toKernel.Blocked v ↔ x.toKernel.Blocked v := by
    intro v
    simp only [Kernel.Blocked, hsame.sched, hsame.threads]
    exact Iff.rfl
  refine ⟨h3.leave (fun hb => hexe.not_blocked h.table ((hblocked t).mp hb)) (fun e _ => hep e)
    (fun n _ => hno n) (by simpa using hdl), fun v hv hb => ?_⟩
  have hvt : v ≠ t := by
    rintro rfl
    simp at hv
  have hwaiting : x.waiting v = some .any := by
    have hv2 : x2.waiting v = some .any := by simpa [hvt] using hv
    rwa [hsame.waiting] at hv2
  have hwait : (x2.wait v).waitObjects = (x.wait v).waitObjects := by
    rw [hsame.wait, hx1]
    simp [hvt]
  refine ⟨hwaiting, (hblocked v).mp hb, ?_, fun o _ hw => ?_⟩
  · rw [← hwait]
    simp [hvt]
  · cases o with
    -- another thread's registration is not touched on the way
    | endpoint e' =>
      have hkeep : x2.endpoint e' = x.endpoint e' := by
        refine List.foldlRecOn (motive := fun y : Sys => y.endpoint e' = x.endpoint e') _ _ rfl ?_
        intro y hy o _
        exact (clearReadinessWaiter_endpoint y o (hy ▸ hw.1 ▸ hvt)).trans hy
      have hw' : (x2.endpoint e').readinessWaiter = v ∧ (x2.endpoint e').state ≠ .hasWaiters := by
        rw [hkeep]
        exact hw
      exact hw'
    | notification m th =>
      have hkeep : x2.notification m = x.notification m := by
        refine List.foldlRecOn (motive := fun y : Sys => y.notification m = _) _ _ rfl ?_
        intro y hy o _
        exact (clearReadinessWaiter_notification y o (hy ▸ hw.1 ▸ hvt)).trans hy
      have hw' : (x2.notification m).readinessWaiter = v ∧
          (x2.notification m).readinessThreshold ≤ th ∧
          (x2.notification m).state.value < (x2.notification m).readinessThreshold := by
        rw [hkeep]
        exact hw
      exact hw'

theorem Inv.resumeWait (h : x.Inv a) (hexe : x.toKernel.Executes cpu t)
    (hwaiting : x.waiting t ≠ none) :
    ∃ x' out, x.resumeWait cpu = .ok (x', out) ∧ x'.Inv a ∧ x.Calm x' := by
  have hcur := lift_current hexe
  have hb := hexe.not_blocked h.table
  cases hw : x.waiting t with
  | none => exact absurd hw hwaiting
  | some op =>
    cases op with
    | any =>
      refine ⟨_, .returned (((x.waitCleanup t).setWaiting t none).checkReadiness
        (x.wait t).waitObjects), Sim.bind_ok hcur ?_, h.waitCleanup hexe hw⟩
      simp only [hw]
      rfl
    | notification n =>
      have hnot : x.waiting t ≠ some .any := by
        rw [hw]
        exact fun hn => by cases hn
      refine ⟨x.setWaiting t none, .returned (x.notification n).state.value.toNat,
        Sim.bind_ok hcur ?_, h.leave hb
        (fun e hne he => hnot (h.ep_waiter e t he hne).1)
        (fun m hne hm => hnot (h.notif_waiter m t hm hne).1)
        (by by_contra hd; exact hnot (h.deadline t hd)),
        .of_wake (fun v hv => ?_) (fun _ _ => id) (fun _ _ => rfl) rfl
          fun _ => ⟨rfl, rfl, rfl⟩⟩
      · simp only [hw]
        rfl
      · by_cases hvt : v = t
        · subst hvt
          simp at hv
        · simpa [hvt] using hv

/-! ## Timer tick -/

/-- Slot `i` holds a thread that is Blocked past its deadline. -/
def Overdue (x : Sys) (now : UInt64) (i : Fin maxThreads) : Prop :=
  ∃ kva, x.threads i = some kva ∧ hasExpired (x.wait kva).waitDeadline now = true ∧
    x.sched.get i = some .blocked

/-- What a tick does before it schedules. -/
structure Woken (x x' : Sys) (a : Spec) (now : UInt64) : Prop where
  inv : x'.Inv a
  calm : x.Calm x'
  timerArms : x'.timerArms = x.timerArms
  overdue : ∀ i, x'.Overdue now i → x.Overdue now i

/-- Waking the overdue threads touches nothing but their deadlines. -/
structure Roused (x x' : Sys) (now : UInt64) : Prop where
  waiting : x'.waiting = x.waiting
  notification : x'.notification = x.notification
  endpoint : x'.endpoint = x.endpoint
  objects : ∀ t, (x'.wait t).waitObjects = (x.wait t).waitObjects
  woken : ∀ t, x'.toKernel.Blocked t → x.toKernel.Blocked t ∧ x'.wait t = x.wait t
  asleep : ∀ t, x.toKernel.Blocked t → hasExpired (x.wait t).waitDeadline now = false →
    x'.toKernel.Blocked t

theorem Roused.refl (x : Sys) (now : UInt64) : x.Roused x now :=
  ⟨rfl, rfl, rfl, fun _ => rfl, fun _ hb => ⟨hb, rfl⟩, fun _ hb _ => hb⟩

theorem Roused.trans {x'' : Sys} {now : UInt64} (h : x.Roused x' now) (h' : x'.Roused x'' now) :
    x.Roused x'' now := by
  refine ⟨h'.waiting.trans h.waiting, h'.notification.trans h.notification,
    h'.endpoint.trans h.endpoint, fun t => (h'.objects t).trans (h.objects t),
    fun t hb => ?_, fun t hb hexp => ?_⟩
  all_goals grind [h'.asleep, h'.woken, h.asleep, h.woken]

theorem hasExpired_noDeadline (now : UInt64) : hasExpired noDeadline now = false := rfl

variable {s : SchedState} {intid : Nat} {act : Action}

theorem unblock_of_unblockThread {idx : Fin maxThreads}
    (htable : x.toKernel.TableOk) (hidx : x.threads idx = some t)
    (hunb : x.unblockThread t = .ok (x.setKernel (x.toKernel.setSched s))) :
    x.sched.unblock idx = .ok s := by
  unfold Sys.unblockThread Kernel.unblockThread at hunb
  rw [Kernel.threadIndexFor_eq htable hidx] at hunb
  dsimp only at hunb
  cases hun : x.sched.unblock idx with
  | error err =>
    rw [hun] at hunb
    cases hunb
  | ok s' =>
    rw [hun] at hunb
    exact congrArg Except.ok (congrArg (fun y : Sys => y.sched) (Except.ok.inj hunb))

theorem Inv.wakeExpired (h : x.Inv a) (now : UInt64) (idx : Fin maxThreads) :
    ∃ x', wakeExpired now x idx = .ok x' ∧ x.Woken x' a now ∧ ¬ x'.Overdue now idx ∧
      x.Roused x' now := by
  unfold Sys.wakeExpired
  cases hidx : x.threads idx with
  | none =>
    refine ⟨x, rfl, ⟨h, .refl x, rfl, fun _ => id⟩, ?_, .refl x now⟩
    rintro ⟨kva, hkva, -⟩
    rw [hidx] at hkva
    cases hkva
  | some kva =>
    dsimp only
    split
    · next hexp =>
      refine ⟨x, rfl, ⟨h, .refl x, rfl, fun _ => id⟩, ?_, .refl x now⟩
      rintro ⟨kva', hkva', hexp', -⟩
      rw [← Option.some.inj (hidx.symm.trans hkva'), hexp] at hexp'
      cases hexp'
    · next hexp =>
      split
      · next hget =>
        exact ⟨x, rfl, ⟨h, .refl x, rfl, fun _ => id⟩, fun ⟨_, _, _, hb⟩ => hget hb,
          .refl x now⟩
      · next hget =>
        have hb : x.toKernel.Blocked kva := ⟨idx, hidx, not_not.mp hget⟩
        -- only a thread inside `sys_wait_any` has a deadline
        have hany : x.waiting kva = some .any := h.deadline kva fun hd => by
          rw [hd, hasExpired_noDeadline] at hexp
          exact hexp rfl
        have h1 : (x.updWait kva fun w => { w with waitDeadline := noDeadline }).Inv a :=
          h.updWait ⟨(x.wait kva).waitObjects, noDeadline⟩ (fun hne => absurd rfl hne)
            (fun e hne he => (h.ep_waiter e kva he hne).2)
            fun n hne hn => (h.notif_waiter n kva hn hne).2
        have hany1 : (x.updWait kva fun w => { w with waitDeadline := noDeadline }).waiting
            kva = some .any := hany
        obtain ⟨s, hunb, h2, -, hbl⟩ := h1.unblockThread (u := kva)
          (by rw [hany1]; exact Option.some_ne_none _) hb fun m hm heq => by
            have hw := (h1.blocked_waiter m hm).1
            rw [heq, hany1] at hw
            cases hw
        rw [unblock_of_unblockThread h1.table hidx hunb]
        -- the deadline is cleared before the thread is woken, so it is not overdue again
        have hcleared : ∀ v, hasExpired ((Function.update x.wait kva
            ⟨(x.wait kva).waitObjects, noDeadline⟩) v).waitDeadline now = true →
            v ≠ kva ∧ hasExpired (x.wait v).waitDeadline now = true := by
          intro v hv
          by_cases hvk : v = kva
          · subst hvk
            simp [hasExpired_noDeadline] at hv
          · exact ⟨hvk, by simpa [hvk] using hv⟩
        have hobjects : ∀ v, (Function.update x.wait kva
            ⟨(x.wait kva).waitObjects, noDeadline⟩ v).waitObjects =
            (x.wait v).waitObjects := by
          intro v
          by_cases hvk : v = kva <;> simp [hvk]
        refine ⟨_, rfl, ⟨h2, .of_wake (fun _ => id) (fun v _ hv => ((hbl v).mp hv).1)
          (fun v _ => hobjects v) rfl fun _ => ⟨rfl, rfl, rfl⟩, rfl, ?_⟩, ?_,
          ⟨rfl, rfl, rfl, hobjects, fun v hv => ?_, fun v hv hexp' => ?_⟩⟩
        · rintro i ⟨v, hv, hexp', hbv⟩
          obtain ⟨-, hexp''⟩ := hcleared v hexp'
          have hblocked := ((hbl v).mp ⟨i, hv, hbv⟩).1
          exact ⟨v, hv, hexp'', (h.table.blockedIn_iff hv).mp hblocked⟩
        · rintro ⟨v, hv, hexp', -⟩
          exact (hcleared v hexp').1 (Option.some.inj (hidx.symm.trans hv)).symm
        · obtain ⟨hb', hvk⟩ := (hbl v).mp hv
          exact ⟨hb', by simp [hvk]⟩
        · refine (hbl v).mpr ⟨hv, ?_⟩
          rintro rfl
          exact hexp hexp'

theorem Inv.wakeExpiredDeadlines (h : x.Inv a) (now : UInt64) :
    ∃ x', x.wakeExpiredDeadlines now = .ok x' ∧ x.Woken x' a now ∧ (∀ i, ¬ x'.Overdue now i) ∧
      x.Roused x' now := by
  -- the slots visited so far hold no overdue thread
  have hwalk : ∀ (l : List (Fin maxThreads)) (y : Sys), y.Inv a →
      ∃ x', l.foldlM (Sys.wakeExpired now) y = .ok x' ∧ y.Woken x' a now ∧
        (∀ i ∈ l, ¬ x'.Overdue now i) ∧ y.Roused x' now := by
    intro l
    induction l with
    | nil => exact fun y hy => ⟨y, rfl, ⟨hy, .refl y, rfl, fun _ => id⟩, by simp, .refl y now⟩
    | cons i l ih =>
      intro y hy
      obtain ⟨y1, hstep, hw1, hi, hr1⟩ := hy.wakeExpired now i
      obtain ⟨y2, hrest, hw2, hl, hr2⟩ := ih y1 hw1.inv
      refine ⟨y2, ?_, ⟨hw2.inv, hw1.calm.trans hw2.calm, hw2.timerArms.trans hw1.timerArms,
        fun j hj => hw1.overdue j (hw2.overdue j hj)⟩, fun j hj => ?_, hr1.trans hr2⟩
      · rw [List.foldlM_cons, hstep]
        exact hrest
      · grind [hw2.overdue]
  obtain ⟨x', hx', hw, hnone, hroused⟩ := hwalk (List.finRange maxThreads) x h
  exact ⟨x', hx', hw, fun i => hnone i (List.mem_finRange i), hroused⟩

/-- Scheduling leaves the waits alone. -/
structure SameParked (x x' : Sys) : Prop where
  waiting : x'.waiting = x.waiting
  notification : x'.notification = x.notification
  endpoint : x'.endpoint = x.endpoint
  wait : x'.wait = x.wait
  blocked : ∀ t, x'.toKernel.Blocked t ↔ x.toKernel.Blocked t

theorem SameParked.refl (x : Sys) : x.SameParked x :=
  ⟨rfl, rfl, rfl, rfl, fun _ => Iff.rfl⟩

theorem sameParked_setSched (hsame : SchedSteps.SameBlocked x.sched s) :
    x.SameParked (x.setKernel (x.toKernel.setSched s)) :=
  ⟨rfl, rfl, rfl, rfl, hsame.blockedIn_iff⟩

section

variable (h : x.Inv a)
include h

theorem Inv.tick (cpu : Fin maxCpus) :
    ∃ x', x.tick cpu = .ok x' ∧ x'.Inv a ∧ x.Calm x' ∧ x'.timerArms = x.timerArms ∧
      (∀ now, (∀ i, ¬ x.Overdue now i) → ∀ i, ¬ x'.Overdue now i) ∧ x.SameParked x' := by
  have hsched : ∀ op, x.sched.Issued op →
      ((∃ c reason, op = .step c reason ∧ reason ≠ .exit) ∨ ∃ c, op = .stepFromIdle c) →
      ∃ x', (do let k ← lift (x.toKernel.schedOp op); pure (x.setKernel k)) = Except.ok x' ∧
        x'.Inv a ∧ x.Calm x' ∧ x'.timerArms = x.timerArms ∧
        (∀ now, (∀ i, ¬ x.Overdue now i) → ∀ i, ¬ x'.Overdue now i) ∧ x.SameParked x' := by
    intro op hissued hop
    obtain ⟨s, hok, hinv, hcalm, hsame⟩ := h.schedOp hissued hop
    refine ⟨_, Sim.bind_ok (congrArg lift hok) rfl, hinv, hcalm, rfl, ?_,
      sameParked_setSched hsame⟩
    rintro now hnone i ⟨kva, hkva, hexp, hb⟩
    exact hnone i ⟨kva, hkva, hexp, (hsame i).2.1.mp hb⟩
  unfold Sys.tick
  dsimp only
  split
  · exact ⟨x, rfl, h, .refl x, rfl, fun _ => id, .refl x⟩
  · cases hcur : x.sched.tryCurrentFor cpu with
    | none => exact hsched _ hcur (Or.inr ⟨cpu, rfl⟩)
    | some cur =>
      dsimp only
      split
      · next hget => exact hsched _ ⟨cur, hcur, by rw [hget]; rfl⟩ (Or.inl ⟨cpu, _, rfl, by simp⟩)
      · next hget => exact hsched _ ⟨cur, hcur, by rw [hget]; rfl⟩ (Or.inl ⟨cpu, _, rfl, by simp⟩)
      · exact ⟨x, rfl, h, .refl x, rfl, fun _ => id, .refl x⟩

/-- What a tick does to the waits: it wakes exactly the threads past their deadline. -/
structure Ticked (x x' : Sys) (now : UInt64) : Prop where
  waiting : x'.waiting = x.waiting
  notification : x'.notification = x.notification
  endpoint : x'.endpoint = x.endpoint
  objects : ∀ t, (x'.wait t).waitObjects = (x.wait t).waitObjects
  blocked : ∀ t, x'.toKernel.Blocked t ↔
    x.toKernel.Blocked t ∧ hasExpired (x.wait t).waitDeadline now = false
  kept : ∀ t, x'.toKernel.Blocked t → x'.wait t = x.wait t

/-- `handle_tick` returns, re-arms the timer of its CPU and leaves nobody asleep past a deadline. -/
theorem Inv.handleTick (cpu : Fin maxCpus) (now : UInt64) :
    ∃ x', x.handleTick cpu now = .ok x' ∧ x'.Inv a ∧ x.Calm x' ∧ x.Ticked x' now ∧
      x'.timerArms = Function.update x.timerArms cpu (x.timerArms cpu + 1) ∧
      ∀ i, ¬ x'.Overdue now i := by
  obtain ⟨x1, hx1, hw, hnone, hroused⟩ := Inv.wakeExpiredDeadlines (x := { x with
    tickCount := x.tickCount + 1
    timerArms := Function.update x.timerArms cpu (x.timerArms cpu + 1) }) (a := a)
    (h.congr rfl rfl rfl rfl) now
  obtain ⟨x2, hx2, hinv, hcalm, harms, hkeep, hsame⟩ := hw.inv.tick cpu
  have hblocked : ∀ t, x2.toKernel.Blocked t → x.toKernel.Blocked t ∧ x2.wait t = x.wait t := by
    grind [hroused.woken, hsame.blocked, hsame.wait]
  refine ⟨x2, Sim.bind_ok hx1 hx2, hinv, Calm.trans (fun t ht hb => ?_) hcalm,
    ⟨hsame.waiting.trans hroused.waiting, hsame.notification.trans hroused.notification,
      hsame.endpoint.trans hroused.endpoint, fun t => by rw [hsame.wait]; exact hroused.objects t,
      fun t => ⟨fun hb => ⟨(hblocked t hb).1, ?_⟩,
        fun hb => (hsame.blocked t).mpr (hroused.asleep t hb.1 hb.2)⟩,
      fun t hb => (hblocked t hb).2⟩,
    harms.trans hw.timerArms, hkeep now hnone⟩
  · obtain ⟨h1, h2, h3, h4⟩ := hw.calm t ht hb
    exact ⟨h1, h2, h3, h4⟩
  · -- a thread still asleep has no expired deadline
    obtain ⟨i, hi, hbi⟩ := id hb
    have hnot := hkeep now hnone i
    rw [← (hblocked t hb).2]
    exact Bool.eq_false_iff.mpr fun hexp => hnot ⟨t, hi, hexp, hbi⟩

/-! ## One action -/

/-- The readiness waiter that an action tells, if it makes an object ready. -/
def told (x : Sys) : Action → Option Kva
  | .kernel (.issue _ (.send e _ _)) =>
    if (x.endpoint e).state = .idle then some (x.endpoint e).readinessWaiter else none
  | .kernel (.issue _ (.call e r _ _)) =>
    if (x.reply r).state = .fresh ∧ (x.endpoint e).state = .idle then
      some (x.endpoint e).readinessWaiter
    else none
  | .signal _ n value => x.toldBySignal n value
  | .irq _ intid _ =>
    (x.lookupBinding intid).bind fun n => x.toldBySignal n ((x.notification n).state.value + 1)
  | _ => none

/-- The thread an action tells has not been woken since it registered. -/
def FirstWake (x : Sys) (act : Action) : Prop :=
  ∀ t, x.told act = some t → t ≠ 0 → x.toKernel.Blocked t

/-- The endpoint an operation readies, read off the kernel's objects. -/
theorem Inv.told_issue (op : Op Kva Kva Msg UInt64) (c : Fin maxCpus) :
    x.told (.kernel (.issue c op)) =
      (Watch.readied a op).map fun e => (x.endpoint e).readinessWaiter := by
  cases op with
  | send e m k =>
    simp only [told, Watch.readied, (h.sim.ep e).state]
    split <;> rfl
  | call e r m k =>
    have hfresh : (x.reply r).state = .fresh ↔ (a.bound r).isNone = true := by
      rw [← h.sim.reply_fresh_iff r]
      exact beq_iff_eq.symm
    simp only [told, Watch.readied, (h.sim.ep e).state, hfresh]
    split <;> rfl
  | recv e => rfl
  | recvNb e => rfl
  | reply m => rfl

/-- An operation whose readiness waiter is still Blocked can wake it. -/
theorem Inv.wakeable {op : Op Kva Kva Msg UInt64}
    (hfirst : x.FirstWake (.kernel (.issue cpu op))) : x.watch.Wakeable a op := by
  intro e he hne
  have hb := hfirst _ (by rw [h.told_issue, he]; rfl) hne
  refine ⟨fun hn => ?_, hb⟩
  rw [(h.ep_waiter e (x.watch.waiter e) rfl hne).1] at hn
  cases hn

theorem Inv.execKernel {act : Kernel.Action} (henabled : x.Enabled (.kernel act))
    (hfirst : x.FirstWake (.kernel act)) :
    ∃ x' a', x.execKernel act = .ok x' ∧ x'.Inv a' ∧ x.Calm x' := by
  obtain ⟨hen, hout⟩ := henabled
  -- the three actions of the scheduler differ in the operation only
  have hsched : ∀ op, x.sched.Issued op →
      ((∃ c reason, op = .step c reason ∧ reason ≠ .exit) ∨ ∃ c, op = .stepFromIdle c) →
      ∃ k', (do let k ← x.toKernel.schedOp op; pure (k, none)) =
          (.ok (k', none) : Except IpcPanic (Kernel × Option (Event Kva Kva Kva Msg UInt64))) ∧
        (x.setKernel k').Inv a ∧ x.Calm (x.setKernel k') := by
    intro op hissued hop
    obtain ⟨s, hok, hinv, hcalm, -⟩ := h.schedOp hissued hop
    exact ⟨x.toKernel.setSched s, Sim.bind_ok hok rfl, hinv, hcalm⟩
  cases act with
  | issue cpu op =>
    obtain ⟨t, hexe, hpending, hcall⟩ := hen
    have hfree : x.Free cpu t := ⟨hexe, hpending, hout cpu op t rfl hexe⟩
    obtain ⟨k', out, hipc, hinv, hcalm⟩ := h.issue hfree op hcall (h.wakeable hfirst)
    have hex : x.toKernel.exec (.issue cpu op) = .ok (k', some (.issue t op out)) :=
      Sim.bind_ok hexe.currentTcbKva (Sim.bind_ok hipc rfl)
    exact ⟨_, _, Sim.bind_ok (congrArg lift hex) rfl, hinv, hcalm⟩
  | resume cpu =>
    obtain ⟨t, hexe, hpending⟩ := hen
    obtain ⟨p, hp⟩ := Option.ne_none_iff_exists'.mp hpending
    obtain ⟨hinv, hcalm⟩ := h.kernelResume hexe hpending
    have hex : x.toKernel.exec (.resume cpu) = .ok (x.toKernel.setPending t none,
        some (.resume t (x.toKernel.pendingResult t p))) := by
      refine Sim.bind_ok hexe.currentTcbKva ?_
      simp only [hp]
      rfl
    exact ⟨_, _, Sim.bind_ok (congrArg lift hex) rfl, hinv, hcalm⟩
  | preempt cpu =>
    obtain ⟨k', hok, hinv, hcalm⟩ :=
      hsched (.step cpu .preempt) hen (Or.inl ⟨cpu, .preempt, rfl, by simp⟩)
    exact ⟨_, _, Sim.bind_ok (congrArg lift hok) rfl, hinv, hcalm⟩
  | parked cpu =>
    obtain ⟨k', hok, hinv, hcalm⟩ :=
      hsched (.step cpu .block) hen (Or.inl ⟨cpu, .block, rfl, by simp⟩)
    exact ⟨_, _, Sim.bind_ok (congrArg lift hok) rfl, hinv, hcalm⟩
  | idle cpu =>
    obtain ⟨k', hok, hinv, hcalm⟩ := hsched (.stepFromIdle cpu) hen (Or.inr ⟨cpu, rfl⟩)
    exact ⟨_, _, Sim.bind_ok (congrArg lift hok) rfl, hinv, hcalm⟩
  | addThread kva =>
    obtain ⟨k', hok, hinv, hcalm⟩ := h.addThread hen.1 hen.2
    have hex : x.toKernel.exec (.addThread kva) = .ok (k', none) := Sim.bind_ok hok rfl
    exact ⟨_, _, Sim.bind_ok (congrArg lift hex) rfl, hinv, hcalm⟩

/-- The masking of a level-triggered interrupt. -/
def masked (x : Sys) (intid : Nat) : Sys :=
  if x.isLevelTriggered intid = true ∧ intid ≥ 32 then x.setSpi intid false else x

theorem Inv.masked (intid : Nat) : (x.masked intid).Inv a := by
  unfold Sys.masked
  split
  · exact h.congr rfl rfl rfl rfl
  · exact h

end

theorem masked_eq (x : Sys) (intid : Nat) :
    (x.masked intid).notification = x.notification ∧ (x.masked intid).toKernel = x.toKernel ∧
      (x.masked intid).timerArms = x.timerArms ∧ x.Calm (x.masked intid) := by
  unfold Sys.masked
  split
  · exact ⟨rfl, rfl, rfl, .of_wake (fun _ => id) (fun _ _ => id) (fun _ _ => rfl) rfl
      fun _ => ⟨rfl, rfl, rfl⟩⟩
  · exact ⟨rfl, rfl, rfl, .refl x⟩

theorem toldBySignal_masked (x : Sys) (intid : Nat) (n : Kva) (v : UInt64) :
    (x.masked intid).toldBySignal n v = x.toldBySignal n v := by
  unfold toldBySignal
  rw [(masked_eq x intid).1]

theorem irqDispatch_bound (hn : x.lookupBinding intid = some n) (cpu : Fin maxCpus) (now : UInt64) :
    x.irqDispatch cpu intid now = (do
      let (x, _) ← (x.masked intid).notificationSignal n ((x.notification n).state.value + 1)
      pure x) := by
  unfold Sys.irqDispatch
  rw [hn, ← (masked_eq x intid).1]
  rfl

/-- A bound interrupt signals its notification. -/
theorem Inv.irqDispatch_bound (h : x.Inv a) (hn : x.lookupBinding intid = some n)
    (cpu : Fin maxCpus) (now : UInt64) (hfirst : x.FirstWake (.irq cpu intid now)) :
    ∃ x', x.irqDispatch cpu intid now = .ok x' ∧ x'.Inv a ∧ x.Calm x' ∧
      (x.masked intid).Signalled n ((x.notification n).state.value + 1) x' := by
  obtain ⟨x', r, hok, hinv, hsig⟩ := (h.masked intid).notificationSignal (n := n)
    (v := (x.notification n).state.value + 1) fun t ht hne => by
      rw [toldBySignal_masked] at ht
      rw [(masked_eq x intid).2.1]
      exact hfirst t (by simp only [told, hn]; exact ht) hne
  refine ⟨x', ?_, hinv, (masked_eq x intid).2.2.2.trans (hsig.calm (h.masked intid)), hsig⟩
  rw [Sys.irqDispatch_bound hn]
  exact Sim.bind_ok hok rfl

/-- Binding an interrupt writes the binding table only. -/
theorem bind_frame (x : Sys) (intid : Nat) (b : Binding) :
    ∃ bindings r, x.bind intid b = ({ x with bindings := bindings }, r) := by
  unfold Sys.bind
  split
  · exact ⟨x.bindings, false, rfl⟩
  · split
    · exact ⟨x.bindings, false, rfl⟩
    · exact ⟨_, true, rfl⟩

section

variable (h : x.Inv a) (henabled : x.Enabled act)
include h henabled

/-- An enabled action that tells only a Blocked thread returns. -/
theorem Inv.exec (hfirst : x.FirstWake act) :
    ∃ x' a', x.exec act = .ok x' ∧ x'.Inv a' ∧
      ((∀ cpu objs deadline now, act ≠ .waitAny cpu objs deadline now) → x.Calm x') := by
  cases act with
  | kernel act =>
    obtain ⟨x', a', hok, hinv, hcalm⟩ := h.execKernel henabled hfirst
    exact ⟨x', a', hok, hinv, fun _ => hcalm⟩
  | signal cpu n value =>
    obtain ⟨x', r, hok, hinv, hsig⟩ := h.notificationSignal (n := n) (v := value) hfirst
    exact ⟨x', a, Sim.bind_ok hok rfl, hinv, fun _ => hsig.calm h⟩
  | waitNotification cpu n threshold =>
    obtain ⟨t, hfree⟩ := henabled
    obtain ⟨x', out, hok, hinv, hcalm⟩ := h.notificationWait hfree n threshold
    exact ⟨x', a, Sim.bind_ok hok rfl, hinv, fun _ => hcalm⟩
  | waitAny cpu objs deadline now =>
    obtain ⟨t, hfree⟩ := henabled
    have hcur := lift_current hfree.1
    -- three answers at once (a bad count, an object ready, the deadline over) and the slow path
    have hany : ∃ x' out, x.sysWaitAny cpu objs deadline now = .ok (x', out) ∧ x'.Inv a := by
      unfold Sys.sysWaitAny
      split
      · exact ⟨x, _, rfl, h⟩
      · rw [hcur, ok_bind]
        split
        · exact ⟨x, _, rfl, h⟩
        · split
          · exact ⟨x, _, rfl, h⟩
          · obtain ⟨s, hok, hinv, -, -⟩ := h.waitSlow hfree objs deadline
            exact ⟨_, _, Sim.bind_ok hok rfl, hinv⟩
    obtain ⟨x', out, hok, hinv⟩ := hany
    exact ⟨x', a, Sim.bind_ok hok rfl, hinv, fun hne => absurd rfl (hne cpu objs deadline now)⟩
  | resumeWait cpu =>
    obtain ⟨t, hexe, hwaiting⟩ := henabled
    obtain ⟨x', out, hok, hinv, hcalm⟩ := h.resumeWait hexe hwaiting
    exact ⟨x', a, Sim.bind_ok hok rfl, hinv, fun _ => hcalm⟩
  | bindIrq cpu intid n edgeTriggered =>
    obtain ⟨t, hfree⟩ := henabled
    have hbind : ∃ x' ok, x.sysBindIrq cpu intid n edgeTriggered = .ok (x', ok) ∧
        x'.toKernel = x.toKernel ∧ x'.notification = x.notification ∧ x'.wait = x.wait ∧
        x'.waiting = x.waiting := by
      have hcur := lift_current hfree.1
      obtain ⟨b, r, hb⟩ := bind_frame x intid ⟨n, x.processKva t, !edgeTriggered⟩
      unfold Sys.sysBindIrq
      rw [hcur, ok_bind, hb]
      dsimp only
      split <;> exact ⟨_, _, rfl, rfl, rfl, rfl, rfl⟩
    obtain ⟨x', ok, hok, hk, hnot, hwait, hwaiting⟩ := hbind
    refine ⟨x', a, Sim.bind_ok hok rfl, h.congr hk hnot hwait hwaiting, fun _ => ?_⟩
    exact .of_wake (fun v hv => hwaiting ▸ hv) (fun v _ hb => hk ▸ hb) (fun v _ => by rw [hwait])
      (by rw [hk]) fun m => by rw [hnot]; exact ⟨rfl, rfl, rfl⟩
  | unmaskIrq cpu intid =>
    obtain ⟨t, hfree⟩ := henabled
    have hunmask : ∃ ok, x.sysUnmaskIrq cpu intid = .ok (x, ok) ∨
        x.sysUnmaskIrq cpu intid = .ok (x.setSpi intid true, ok) := by
      unfold Sys.sysUnmaskIrq
      split
      · exact ⟨_, Or.inl rfl⟩
      · have hcur := lift_current hfree.1
        rw [hcur, ok_bind]
        split
        · exact ⟨_, Or.inr rfl⟩
        · exact ⟨_, Or.inl rfl⟩
    obtain ⟨ok, hok | hok⟩ := hunmask
    · exact ⟨x, a, Sim.bind_ok hok rfl, h, fun _ => .refl x⟩
    · exact ⟨_, a, Sim.bind_ok hok rfl, h.congr rfl rfl rfl rfl, fun _ => .of_wake (fun _ => id)
        (fun _ _ => id) (fun _ _ => rfl) rfl fun _ => ⟨rfl, rfl, rfl⟩⟩
  | start =>
    exact ⟨_, a, rfl, h.congr rfl rfl rfl rfl, fun _ => .of_wake (fun _ => id)
      (fun _ _ => id) (fun _ _ => rfl) rfl fun _ => ⟨rfl, rfl, rfl⟩⟩
  | irq cpu intid now =>
    cases hn : x.lookupBinding intid with
    | some n =>
      obtain ⟨x', hok, hinv, hcalm, -⟩ := h.irqDispatch_bound hn cpu now hfirst
      exact ⟨x', a, hok, hinv, fun _ => hcalm⟩
    | none =>
      -- an unbound interrupt does nothing, the timer apart
      have hirq : x.exec (.irq cpu intid now) =
          if intid = timerIntid then x.handleTick cpu now else .ok x := by
        simp only [Sys.exec, Sys.irqDispatch, hn]
      rw [hirq]
      split
      · obtain ⟨x', hok, hinv, hcalm, -, -, -⟩ := h.handleTick cpu now
        exact ⟨x', a, hok, hinv, fun _ => hcalm⟩
      · exact ⟨x, a, rfl, h, fun _ => .refl x⟩

/-- An action that tells a thread which has been woken already panics. -/
theorem Inv.exec_stale (hstale : ¬ x.FirstWake act) : x.exec act = .error (.ipc .notBlocked) := by
  unfold FirstWake at hstale
  push Not at hstale
  obtain ⟨t, htold, hne, hb⟩ := hstale
  cases act with
  | signal cpu n value =>
    simp only [Sys.exec, h.notificationSignal_stale htold hne hb]
    rfl
  | irq cpu intid now =>
    cases hn : x.lookupBinding intid with
    | none => simp [told, hn] at htold
    | some n =>
      have htold' : (x.masked intid).toldBySignal n ((x.notification n).state.value + 1) =
          some t := by
        rw [toldBySignal_masked]
        simpa [told, hn] using htold
      have hb' : ¬ (x.masked intid).toKernel.Blocked t := by
        rw [(masked_eq x intid).2.1]
        exact hb
      rw [show x.exec (.irq cpu intid now) = _ from Sys.irqDispatch_bound hn cpu now,
        (h.masked intid).notificationSignal_stale htold' hne hb']
      rfl
  | kernel act =>
    cases act with
    | issue cpu op =>
      obtain ⟨⟨u, hexe, hpending, hcall⟩, hout⟩ := henabled
      rw [h.told_issue] at htold
      obtain ⟨e, he, rfl⟩ := Option.map_eq_some_iff.mp htold
      have hipc := h.issue_stale ⟨hexe, hpending, hout cpu op u rfl hexe⟩ op he hne hb
      have hex : x.toKernel.exec (.issue cpu op) = .error .notBlocked :=
        Sim.bind_ok hexe.currentTcbKva (by rw [hipc]; rfl)
      simp only [Sys.exec, Sys.execKernel, hex]
      rfl
    | resume | preempt | parked | idle | addThread => simp [told] at htold
  | waitNotification | waitAny | resumeWait | bindIrq | unmaskIrq | start => simp [told] at htold

/-- An enabled action returns exactly when it tells no woken thread. -/
theorem Inv.exec_ok_iff :
    (∃ x', x.exec act = .ok x') ↔ x.FirstWake act := by grind [h.exec, h.exec_stale]

end

theorem Run.inv {P : Sys → Action → Prop} (hrun : Run P x) : ∃ a, x.Inv a := by
  induction hrun with
  | boot p => exact ⟨_, inv_boot p⟩
  | step act _ henabled _ hexec ih =>
    obtain ⟨a, h⟩ := ih
    grind [h.exec, h.exec_ok_iff]

end Sys

end Lockjaw.Wait
