/-
  Lockjaw.Wait.Wakes

  What one action does to the threads inside a wait: whom it wakes, which timeline it
  moves, and that it leaves alone what a waiting thread asked for.
-/

import Lockjaw.Wait.Wakeups

namespace Lockjaw.Wait

open Sched Ipc Except Option

namespace Sys

variable {x x' : Sys} {a : Spec} {cpu : Fin maxCpus} {t v n e : Kva} {act : Action}

/-! ## Who is woken by what -/

/-- The notification an action signals, and the value. -/
def signalOf (x : Sys) : Action → Option (Kva × UInt64)
  | .signal _ n value => some (n, value)
  | .irq _ intid _ => (x.lookupBinding intid).map fun n => (n, (x.notification n).state.value + 1)
  | _ => none

/-- The action wakes `t`: as the readiness waiter of the object it makes ready, as the
    waiter of the timeline it moves, or because the tick finds its deadline expired. -/
def Wakes (x : Sys) (act : Action) (t : Kva) : Prop :=
  x.told act = some t ∨
  (∃ n value, x.signalOf act = some (n, value) ∧ x.releasedBySignal n value = some t) ∨
  ∃ cpu now, act = .irq cpu timerIntid now ∧ x.lookupBinding timerIntid = none ∧
    hasExpired (x.wait t).waitDeadline now = true

theorem not_wakes (htold : x.told act = none) (hsignal : x.signalOf act = none)
    (hirq : ∀ cpu now, act ≠ .irq cpu timerIntid now) (t : Kva) : ¬ x.Wakes act t := by
  rintro (ht | ⟨_, _, hs, -⟩ | ⟨cpu, now, hact, -⟩)
  all_goals grind

/-- What an action does to the threads inside a wait and to the timelines. -/
structure Effect (x : Sys) (act : Action) (x' : Sys) : Prop where
  blocked : ∀ t, x.waiting t ≠ none →
    (x'.toKernel.Blocked t ↔ x.toKernel.Blocked t ∧ ¬ x.Wakes act t)
  objects : ∀ t, x.waiting t ≠ none → x'.waiting t = x.waiting t →
    (x'.wait t).waitObjects = (x.wait t).waitObjects
  deadline : ∀ t, x.waiting t ≠ none → x'.toKernel.Blocked t →
    (x'.wait t).waitDeadline = (x.wait t).waitDeadline
  /-- Whoever waits on a timeline did so before, or has just been entered as its waiter. -/
  entered : ∀ t n, x'.waiting t = some (.notification n) →
    x.waiting t = some (.notification n) ∨
    ∃ cpu threshold, act = .waitNotification cpu n threshold ∧ x.Free cpu t ∧
      (x.notification n).state.wait threshold = .ok ((x'.notification n).state, .block) ∧
      (x'.notification n).blockedTcbKva = t
  /-- A timeline moves by signals, gets a waiter from a wait, and is else left alone. -/
  timeline : ∀ n,
    (∃ value, x.signalOf act = some (n, value) ∧
      (x'.notification n).state = (x.notification n).state.signalled value ∧
      ((x'.notification n).state.hasWaiter = true →
        (x'.notification n).blockedTcbKva = (x.notification n).blockedTcbKva)) ∨
    (∃ cpu threshold t, act = .waitNotification cpu n threshold ∧ x.Free cpu t ∧
      (x.notification n).state.wait threshold = .ok ((x'.notification n).state, .block) ∧
      (x'.notification n).blockedTcbKva = t ∧ x'.waiting t = some (.notification n)) ∨
    (∀ value, x.signalOf act ≠ some (n, value)) ∧
      (x'.notification n).state = (x.notification n).state ∧
      (x'.notification n).blockedTcbKva = (x.notification n).blockedTcbKva
  /-- Nobody is registered for readiness but by `sys_wait_any`. -/
  readiness : (∀ cpu objs deadline now, act ≠ .waitAny cpu objs deadline now) → ∀ n,
    KeepsReadiness (x.notification n) (x'.notification n)

/-- The timeline part of an effect, for an action that signals nothing. -/
theorem Effect.timeline_of_same (hsignal : x.signalOf act = none)
    (hstate : (x'.notification n).state = (x.notification n).state)
    (hkva : (x'.notification n).blockedTcbKva = (x.notification n).blockedTcbKva) :
    (∀ value, x.signalOf act ≠ some (n, value)) ∧
      (x'.notification n).state = (x.notification n).state ∧
      (x'.notification n).blockedTcbKva = (x.notification n).blockedTcbKva := by
  refine ⟨fun value hv => ?_, hstate, hkva⟩
  rw [hsignal] at hv
  cases hv

/-- An action that moves no timeline and lets nobody enter or leave a wait. -/
theorem Effect.of_wakes (hsignal : x.signalOf act = none) (hblocked : ∀ t, x.waiting t ≠ none →
      (x'.toKernel.Blocked t ↔ x.toKernel.Blocked t ∧ ¬ x.Wakes act t))
    (hwaiting : x'.waiting = x.waiting) (hwait : ∀ t, x.waiting t ≠ none → x'.wait t = x.wait t)
    (hnotification : x'.notification = x.notification) : x.Effect act x' where
  blocked := hblocked
  objects t ht _ := by rw [hwait t ht]
  deadline t ht _ := by rw [hwait t ht]
  entered t n hn := Or.inl (by rw [← hwaiting]; exact hn)
  timeline n := Or.inr (Or.inr (timeline_of_same hsignal (by rw [hnotification])
    (by rw [hnotification])))
  readiness _ n := by
    rw [hnotification]
    exact .refl _

/-! ## IPC and scheduling -/

variable {k : Kernel} {value : UInt64} {intid : Nat} {now threshold : UInt64}
  {P : Sys → Action → Prop} {op : WaitOp} {acts : List Action}

/-- IPC wakes, of the threads inside a wait, the one it tells that an endpoint is ready. -/
theorem Inv.ipc_blocked (h : x.Inv a) (hfree : x.Free cpu t) {op : Op Kva Kva Msg UInt64}
    (hcall : ∀ e r m c, op = .call e r m c → r ≠ 0)
    (hfirst : x.FirstWake (.kernel (.issue cpu op))) {out : Out Msg UInt64}
    (hipc : x.toKernel.ipc cpu op = .ok (k, out)) (hv : x.waiting v ≠ none) :
    k.Blocked v ↔ x.toKernel.Blocked v ∧ x.told (.kernel (.issue cpu op)) ≠ some v := by
  obtain ⟨hexe, hpending, hwaiting⟩ := hfree
  have hvt : v ≠ t := by
    rintro rfl
    exact hv hwaiting
  obtain ⟨k', hipc', hsim, -⟩ :=
    h.sim.ipc hexe (h.sim.phase_running hpending) op hcall (h.wakeable hfirst)
  obtain rfl : k' = k := (Prod.mk.inj (ok.inj (hipc'.symm.trans hipc))).1
  have hrun := issue_running h.sim.inv hvt (h.sim.phase_running (h.inside v hv).1) op
  have hparked : k'.Blocked v ↔ (x.watch.issue a op).parked v := by
    rw [(hsim.thread v).blocked, hrun]
    simp [Phase.isBlocked]
  have hwatch : x.watch.parked v ↔ x.toKernel.Blocked v := and_iff_right hv
  have hv0 : v ≠ 0 := h.ne_zero hv
  rw [hparked, h.told_issue]
  unfold Watch.issue Watch.wake
  cases Watch.readied a op with
  | none => simpa using hwatch
  | some e =>
    by_cases hzero : x.watch.waiter e = 0
    · have hne : (x.endpoint e).readinessWaiter ≠ v := fun heq => hv0 (heq.symm.trans hzero)
      simpa [hzero, hne] using hwatch
    · dsimp only
      rw [if_neg hzero, map_some, ne_eq, some.injEq, eq_comm]
      exact and_congr_left fun _ => hwatch

/-- Actions of the IPC kernel, of the threads inside a wait, wake the one they tell. -/
theorem Inv.kernel_blocked (h : x.Inv a) {act : Kernel.Action} (henabled : x.Enabled (.kernel act))
    (hfirst : x.FirstWake (.kernel act))
    {ev : Option (Event Kva Kva Kva Msg UInt64)} (hexec : x.toKernel.exec act = .ok (k, ev))
    (hv : x.waiting v ≠ none) :
    k.Blocked v ↔ x.toKernel.Blocked v ∧ x.told (.kernel act) ≠ some v := by
  obtain ⟨hen, hout⟩ := henabled
  -- a scheduling step wakes nobody
  have hsched : ∀ op, x.sched.Issued op →
      ((∃ c reason, op = .step c reason ∧ reason ≠ .exit) ∨ ∃ c, op = .stepFromIdle c) →
      (do let k ← x.toKernel.schedOp op; pure (k, none)) =
        (.ok (k, ev) : Except IpcPanic (Kernel × Option (Event Kva Kva Kva Msg UInt64))) →
      (k.Blocked v ↔ x.toKernel.Blocked v) := by
    intro op hissued hop hok
    obtain ⟨s, hs, -, -, hsame⟩ := h.schedOp hissued hop
    rw [hs] at hok
    cases hok
    exact (sameParked_setSched hsame).blocked v
  cases act with
  | issue cpu op =>
    obtain ⟨t, hexe, hpending, hcall⟩ := hen
    simp only [Kernel.exec, hexe.currentTcbKva, ok_bind] at hexec
    cases hipc : x.toKernel.ipc cpu op with
    | error p =>
      rw [hipc] at hexec
      cases hexec
    | ok r =>
      rw [hipc, ok_bind] at hexec
      obtain ⟨rfl, -⟩ := Prod.mk.inj (ok.inj hexec)
      exact h.ipc_blocked ⟨hexe, hpending, hout cpu op t rfl hexe⟩ hcall hfirst hipc hv
  | resume cpu =>
    obtain ⟨t, hexe, hpending⟩ := hen
    obtain ⟨p, hp⟩ := ne_none_iff_exists'.mp hpending
    simp only [Kernel.exec, hexe.currentTcbKva, ok_bind, hp] at hexec
    cases hexec
    exact (and_iff_left (some_ne_none v).symm).symm
  | preempt cpu =>
    refine (hsched (.step cpu .preempt) hen (Or.inl ⟨cpu, .preempt, rfl, by simp⟩) hexec).trans ?_
    exact (and_iff_left (some_ne_none v).symm).symm
  | parked cpu =>
    refine (hsched (.step cpu .block) hen (Or.inl ⟨cpu, .block, rfl, by simp⟩) hexec).trans ?_
    exact (and_iff_left (some_ne_none v).symm).symm
  | idle cpu =>
    refine (hsched (.stepFromIdle cpu) hen (Or.inr ⟨cpu, rfl⟩) hexec).trans ?_
    exact (and_iff_left (some_ne_none v).symm).symm
  | addThread kva =>
    refine Iff.trans ?_ (and_iff_left (some_ne_none v).symm).symm
    simp only [Kernel.exec] at hexec
    cases hadd : x.toKernel.addThread kva with
    | error p =>
      rw [hadd] at hexec
      cases hexec
    | ok k' =>
      rw [hadd] at hexec
      cases hexec
      obtain rfl | ⟨i, s, st, hi, -, hst, -, hget, rfl⟩ := Kernel.addThread_spec h.table hadd
      · exact Iff.rfl
      · exact blockedIn_register hget hst hi

/-- Only what it tells is woken by an action of the IPC kernel. -/
theorem wakes_kernel_iff {act : Kernel.Action} :
    x.Wakes (.kernel act) t ↔ x.told (.kernel act) = some t := by
  constructor
  · rintro (htold | ⟨_, _, hsignal, -⟩ | ⟨_, _, hact, -⟩)
    · exact htold
    · cases hsignal
    · cases hact
  · exact Or.inl

theorem Inv.kernel_effect (h : x.Inv a) {act : Kernel.Action} (henabled : x.Enabled (.kernel act))
    (hfirst : x.FirstWake (.kernel act)) (hexec : x.execKernel act = .ok x') :
    x.Effect (.kernel act) x' := by
  unfold Sys.execKernel at hexec
  cases hk : x.toKernel.exec act with
  | error p =>
    rw [hk] at hexec
    cases hexec
  | ok r =>
    obtain ⟨k, ev⟩ := r
    rw [hk, lift_ok, ok_bind] at hexec
    have hblocked : ∀ t, x.waiting t ≠ none →
        (k.Blocked t ↔ x.toKernel.Blocked t ∧ ¬ x.Wakes (.kernel act) t) := fun t ht => by
      rw [wakes_kernel_iff]
      exact h.kernel_blocked henabled hfirst hk ht
    cases act with
    | addThread kva =>
      cases hexec
      refine .of_wakes rfl hblocked rfl (fun t ht => ?_) rfl
      have htk : t ≠ kva := by
        rintro rfl
        obtain ⟨i, hi⟩ := (h.inside t ht).2
        exact henabled.1.2 i hi
      simp [htk]
    | issue | resume | preempt | parked | idle =>
      cases hexec
      exact .of_wakes rfl hblocked rfl (fun _ _ => rfl) rfl

/-! ## Signals and interrupts -/

/-- A signal, made by an action that does nothing else. -/
theorem SignalEffect.effect (hs : x.SignalEffect n value x')
    (hsig : x.Signalled n value x') (hsignal : x.signalOf act = some (n, value))
    (htold : x.told act = x.toldBySignal n value)
    (hirq : x.lookupBinding timerIntid = none → ∀ cpu now, act ≠ .irq cpu timerIntid now) :
    x.Effect act x' where
  blocked t ht := by
    rw [hs.blocked]
    refine and_congr_right fun _ => ?_
    rw [← htold]
    constructor
    · rintro ⟨hrel, hnot⟩ (htold' | ⟨m, v, hm, hrel'⟩ | ⟨cpu, now, hact, hnone, -⟩)
      all_goals grind
    · exact fun hw => ⟨fun hrel => hw (Or.inr (Or.inl ⟨n, value, hsignal, hrel⟩)),
        fun ht => hw (Or.inl ht)⟩
  objects t _ _ := by rw [hsig.wait]
  deadline t _ _ := by rw [hsig.wait]
  entered t m hm := Or.inl (by rw [← hsig.waiting]; exact hm)
  timeline m := by grind [hs.kva, hs.state, hsig.other]
  readiness _ m := by
    by_cases hmn : m = n
    · subst hmn
      exact hs.readiness
    · rw [hsig.other m hmn]
      exact .refl _

theorem Inv.signal_effect (h : x.Inv a) (hfirst : x.FirstWake (.signal cpu n value))
    (hexec : x.exec (.signal cpu n value) = .ok x') : x.Effect (.signal cpu n value) x' := by
  obtain ⟨y, r, hok, -, hsig, heff⟩ := h.notificationSignal_effect (n := n) (v := value) hfirst
  obtain rfl : y = x' := ok.inj ((Sim.bind_ok hok rfl).symm.trans hexec)
  exact heff.effect hsig rfl rfl fun _ _ _ hact => by cases hact

/-- A signal sees nothing of the masking of its interrupt. -/
theorem signal_of_masked (hsig : (x.masked intid).Signalled n value x')
    (heff : (x.masked intid).SignalEffect n value x') :
    x.Signalled n value x' ∧ x.SignalEffect n value x' := by
  unfold Sys.masked at hsig heff
  split at hsig
  · rw [if_pos ‹_›] at heff
    exact ⟨⟨hsig.wait, hsig.waiting, hsig.endpoint, hsig.timerArms, hsig.bindings, hsig.pending,
      hsig.cpus, hsig.other, hsig.value, hsig.blocked, hsig.kept, hsig.readiness⟩,
      heff.state, heff.kva, heff.blocked, heff.readiness⟩
  · rw [if_neg ‹_›] at heff
    exact ⟨hsig, heff⟩

theorem Inv.irq_effect (h : x.Inv a)
    (hfirst : x.FirstWake (.irq cpu intid now)) (hexec : x.exec (.irq cpu intid now) = .ok x') :
    x.Effect (.irq cpu intid now) x' := by
  cases hn : x.lookupBinding intid with
  | some n =>
    obtain ⟨y, r, hok, -, hsig, heff⟩ := (h.masked intid).notificationSignal_effect (n := n)
      (v := (x.notification n).state.value + 1) fun t ht hne => by
        rw [toldBySignal_masked] at ht
        rw [(masked_eq x intid).2.1]
        exact hfirst t (by simp only [told, hn]; exact ht) hne
    obtain rfl : y = x' := by
      refine ok.inj (Eq.trans ?_ hexec)
      rw [show x.exec (.irq cpu intid now) = _ from Sys.irqDispatch_bound hn cpu now, hok]
      rfl
    obtain ⟨hsig', heff'⟩ := signal_of_masked hsig heff
    grind [heff'.effect, signalOf, told]
  | none =>
    have hsignal : x.signalOf (.irq cpu intid now) = none := by
      simp only [signalOf, hn, map_none]
    have htold : x.told (.irq cpu intid now) = none := by
      simp only [told, hn, bind_none]
    -- only the timer wakes anybody then: the threads whose deadline is over
    have hwakes : ∀ t, x.Wakes (.irq cpu intid now) t ↔
        intid = timerIntid ∧ hasExpired (x.wait t).waitDeadline now = true := by
      intro t
      constructor
      · rintro (ht | ⟨_, _, hs, -⟩ | ⟨c, now', hact, -, hexp⟩)
        all_goals grind
      · rintro ⟨rfl, hexp⟩
        exact Or.inr (Or.inr ⟨cpu, now, rfl, hn, hexp⟩)
    simp only [Sys.exec, Sys.irqDispatch, hn] at hexec
    split at hexec
    · next htimer =>
      obtain ⟨y, hok, -, -, htick, -⟩ := h.handleTick cpu now
      obtain rfl : y = x' := ok.inj (hok.symm.trans hexec)
      refine ⟨fun t _ => ?_, fun t _ _ => htick.objects t, fun t _ hb => by rw [htick.kept t hb],
        fun t m hm => Or.inl (by rw [← htick.waiting]; exact hm), fun m => Or.inr (Or.inr
          (Effect.timeline_of_same hsignal (by rw [htick.notification])
            (by rw [htick.notification]))), fun _ m => by
              rw [htick.notification]
              exact .refl _⟩
      rw [htick.blocked, hwakes, Bool.eq_false_iff]
      simp [htimer]
    · next htimer =>
      cases hexec
      exact .of_wakes hsignal (fun t _ => by simp [hwakes, htimer]) rfl (fun _ _ => rfl) rfl

/-! ## Waits -/

/-- What a thread does that blocks on a timeline. -/
structure EntersTimeline (x : Sys) (t n : Kva) (st : NotificationState) (x' : Sys) : Prop where
  waiting : x'.waiting = Function.update x.waiting t (some (.notification n))
  wait : x'.wait = x.wait
  state : (x'.notification n).state = st
  kva : (x'.notification n).blockedTcbKva = t
  readiness : KeepsReadiness (x.notification n) (x'.notification n)
  other : ∀ m, m ≠ n → x'.notification m = x.notification m
  blocked : ∀ u, x'.toKernel.Blocked u ↔ x.toKernel.Blocked u ∨ u = t

/-- `notification_wait` returns at once with a value that is high enough, fails, or enters
    the caller as the waiter. -/
theorem Inv.notificationWait_cases (h : x.Inv a) (hfree : x.Free cpu t)
    {out : WaitOut} (hexec : x.notificationWait cpu n threshold = .ok (x', out)) :
    (x' = x ∧ (∃ err, out = .failed err) ∨
      x' = x ∧ out = .returned (x.notification n).state.value.toNat ∧
        threshold ≤ (x.notification n).state.value) ∨
    out = .blocked ∧ ∃ st, (x.notification n).state.wait threshold = .ok (st, .block) ∧
      x.EntersTimeline t n st x' := by
  unfold Sys.notificationWait at hexec
  cases hwait : (x.notification n).state.wait threshold with
  | error err =>
    rw [hwait] at hexec
    cases hexec
    exact Or.inl (Or.inl ⟨rfl, err, rfl⟩)
  | ok r =>
    obtain ⟨st, r⟩ := r
    rw [hwait] at hexec
    cases r with
    | ready =>
      cases hexec
      refine Or.inl (Or.inr ⟨rfl, rfl, ?_⟩)
      grind [NotificationState.wait]
    | block =>
      obtain ⟨s, hok, -, hbl⟩ := h.notificationWait_block hfree hwait
      unfold Sys.notificationWait at hok
      rw [hwait] at hok
      obtain ⟨rfl, rfl⟩ := Prod.mk.inj (ok.inj (hok.symm.trans hexec))
      refine Or.inr ⟨rfl, st, rfl, rfl, rfl, ?_, ?_, ?_, fun m hm => ?_, hbl⟩
      · simp [parkedOnTimeline]
      · simp [parkedOnTimeline]
      · exact Or.inr (by simp [parkedOnTimeline])
      · simp [parkedOnTimeline, hm]

/-- The caller of a wait is not yet inside one. -/
theorem Free.ne_of_waiting (hfree : x.Free cpu t) (hv : x.waiting v ≠ none) : v ≠ t := by
  rintro rfl
  exact hv hfree.2.2

theorem Inv.waitNotification_effect (h : x.Inv a)
    (henabled : x.Enabled (.waitNotification cpu n threshold))
    (hexec : x.exec (.waitNotification cpu n threshold) = .ok x') :
    x.Effect (.waitNotification cpu n threshold) x' := by
  obtain ⟨t, hfree⟩ := henabled
  have hwakes : ∀ u, ¬ x.Wakes (.waitNotification cpu n threshold) u :=
    not_wakes rfl rfl fun _ _ hact => by cases hact
  simp only [Sys.exec] at hexec
  cases hwait : x.notificationWait cpu n threshold with
  | error p =>
    rw [hwait] at hexec
    cases hexec
  | ok r =>
    obtain ⟨y, out⟩ := r
    rw [hwait, ok_bind] at hexec
    obtain rfl : y = x' := ok.inj hexec
    obtain hsame | ⟨-, st, hst, henters⟩ := h.notificationWait_cases hfree hwait
    · obtain rfl : y = x := hsame.elim And.left And.left
      exact .of_wakes rfl (fun u _ => by simp [hwakes u]) rfl (fun _ _ => rfl) rfl
    · refine ⟨fun u hu => ?_, fun u _ _ => by rw [henters.wait], fun u _ _ => by rw [henters.wait],
        fun u m hm => ?_, fun m => ?_, fun _ m => ?_⟩
      · rw [henters.blocked, or_iff_left (hfree.ne_of_waiting hu)]
        simp [hwakes u]
      · rw [henters.waiting] at hm
        grind [henters.kva, henters.state]
      · by_cases hmn : m = n
        · subst hmn
          refine Or.inr (Or.inl ⟨cpu, threshold, t, rfl, hfree, by rw [henters.state]; exact hst,
            henters.kva, ?_⟩)
          rw [henters.waiting, Function.update_self]
        · exact Or.inr (Or.inr (Effect.timeline_of_same rfl (by rw [henters.other m hmn])
            (by rw [henters.other m hmn])))
      · by_cases hmn : m = n
        · rw [hmn]
          exact henters.readiness
        · rw [henters.other m hmn]
          exact .refl _

theorem blockedTcbKva_setReadinessWaiter (x : Sys) (t : Kva) (o : WaitObject) :
    ((x.setReadinessWaiter t o).notification n).blockedTcbKva =
      (x.notification n).blockedTcbKva := by
  cases o with
  | endpoint e => rfl
  | notification m th =>
    by_cases hm : n = m <;> simp [Sys.setReadinessWaiter, hm]

theorem blockedTcbKva_clearReadinessWaiter (x : Sys) (t : Kva) (o : WaitObject) :
    ((x.clearReadinessWaiter t o).notification n).blockedTcbKva =
      (x.notification n).blockedTcbKva := by
  cases o with
  | endpoint e => rfl
  | notification m th =>
    by_cases hm : n = m <;> simp [Sys.clearReadinessWaiter, hm]

theorem Inv.waitAny_effect (h : x.Inv a) {objs : List WaitObject} {deadline : UInt64}
    (henabled : x.Enabled (.waitAny cpu objs deadline now))
    (hexec : x.exec (.waitAny cpu objs deadline now) = .ok x') :
    x.Effect (.waitAny cpu objs deadline now) x' := by
  obtain ⟨t, hfree⟩ := henabled
  have hwakes : ∀ u, ¬ x.Wakes (.waitAny cpu objs deadline now) u :=
    not_wakes rfl rfl fun _ _ hact => by cases hact
  rcases exec_waitAny_cases hfree hexec with rfl | ⟨-, -, hslow⟩
  · exact .of_wakes rfl (fun u _ => by simp [hwakes u]) rfl (fun _ _ => rfl) rfl
  · obtain ⟨s, hok, -, -, hbl⟩ := h.waitSlow hfree objs deadline
    obtain rfl := ok.inj (hok.symm.trans hslow)
    have hsame := sameWaits_foldl (fun x o => sameWaits_setReadinessWaiter x t o) objs
      (x.parkedOn t s objs deadline)
    -- nobody else's list or deadline is written while the thread registers
    have hwait : ∀ u, u ≠ t → ((objs.foldl (fun x o => x.setReadinessWaiter t o)
        (x.parkedOn t s objs deadline)).wait u) = x.wait u := by
      intro u hut
      rw [hsame.wait]
      simp [parkedOn, hut]
    have hblocked : ∀ m, ((objs.foldl (fun x o => x.setReadinessWaiter t o)
        (x.parkedOn t s objs deadline)).notification m).blockedTcbKva =
        (x.notification m).blockedTcbKva := fun m =>
      List.foldlRecOn (motive := fun y : Sys => (y.notification m).blockedTcbKva = _) objs _ rfl
        fun y hy o _ => (blockedTcbKva_setReadinessWaiter y t o).trans hy
    refine ⟨fun u hu => ?_, fun u hu _ => by rw [hwait u (hfree.ne_of_waiting hu)],
      fun u hu _ => by rw [hwait u (hfree.ne_of_waiting hu)], fun u m hm => ?_,
      fun m => Or.inr (Or.inr (Effect.timeline_of_same rfl (hsame.value m) (hblocked m))),
      fun hact => absurd rfl (hact cpu objs deadline now)⟩
    · simp only [Kernel.Blocked, hsame.sched, hsame.threads]
      refine Iff.trans (hbl u) ?_
      rw [or_iff_left (hfree.ne_of_waiting hu)]
      exact (and_iff_left (hwakes u)).symm
    · rw [hsame.waiting] at hm
      by_cases hut : u = t
      · subst hut
        simp [parkedOn] at hm
      · exact Or.inl (by simpa [parkedOn, hut] using hm)

/-- What `sys_wait_any` does on its way out, and where the mask comes from. -/
theorem resumeWait_any (hexe : x.toKernel.Executes cpu t) (hany : x.waiting t = some .any) :
    x.resumeWait cpu = .ok ((x.waitCleanup t).setWaiting t none,
      .returned (((x.waitCleanup t).setWaiting t none).checkReadiness
        (x.wait t).waitObjects)) := by
  refine Sim.bind_ok (congrArg lift hexe.currentTcbKva) ?_
  simp only [hany]
  rfl

theorem resumeWait_notification (hexe : x.toKernel.Executes cpu t)
    (hn : x.waiting t = some (.notification n)) :
    x.resumeWait cpu =
      .ok (x.setWaiting t none, .returned (x.notification n).state.value.toNat) := by
  refine Sim.bind_ok (congrArg lift hexe.currentTcbKva) ?_
  simp only [hn]
  rfl

/-- Unregistering leaves a slot alone or empties it. -/
theorem clearReadinessWaiter_keepsReadiness (x : Sys) (t : Kva) (o : WaitObject) :
    KeepsReadiness (x.notification n) ((x.clearReadinessWaiter t o).notification n) := by
  by_cases hn : (x.notification n).readinessWaiter = t
  · cases o with
    | endpoint e => exact .refl _
    | notification m th =>
      by_cases hmn : n = m
      · refine Or.inl ?_
        subst hmn
        by_cases ht : t = 0 <;>
          simp [Sys.clearReadinessWaiter, Sys.updNotification, ReadinessWaiter.clearIfMatch,
            hn, ht]
      · refine Or.inr ?_
        simp [Sys.clearReadinessWaiter, hmn]
  · rw [clearReadinessWaiter_notification x o hn]
    exact .refl _

theorem waitCleanup_frame (x : Sys) (t : Kva) :
    (x.waitCleanup t).sched = x.sched ∧ (x.waitCleanup t).threads = x.threads ∧
      (x.waitCleanup t).waiting = x.waiting ∧
      (∀ u, u ≠ t → (x.waitCleanup t).wait u = x.wait u) ∧
      (∀ e, ((x.waitCleanup t).endpoint e).state = (x.endpoint e).state) ∧
      ∀ n, ((x.waitCleanup t).notification n).state = (x.notification n).state ∧
        ((x.waitCleanup t).notification n).blockedTcbKva = (x.notification n).blockedTcbKva ∧
        KeepsReadiness (x.notification n) ((x.waitCleanup t).notification n) := by
  have hsame := sameWaits_foldl (fun x o => sameWaits_clearReadinessWaiter x t o)
    (x.wait t).waitObjects (x.updWait t fun w => { w with waitDeadline := noDeadline })
  refine ⟨hsame.sched, hsame.threads, hsame.waiting, fun u hut => ?_, hsame.state, fun n =>
    ⟨hsame.value n,
      List.foldlRecOn (motive := fun y : Sys => (y.notification n).blockedTcbKva = _) _ _ rfl
        fun y hy o _ => (blockedTcbKva_clearReadinessWaiter y t o).trans hy,
      List.foldlRecOn (motive := fun y : Sys => KeepsReadiness _ (y.notification n)) _ _ (.refl _)
        fun y hy o _ => hy.trans (clearReadinessWaiter_keepsReadiness y t o)⟩⟩
  have hwait := congrFun hsame.wait u
  simp only [Sys.updWait, Function.update_of_ne hut] at hwait
  simp only [Sys.waitCleanup, Sys.updWait, Function.update_of_ne hut]
  exact hwait

theorem Inv.resumeWait_effect (h : x.Inv a) (henabled : x.Enabled (.resumeWait cpu))
    (hexec : x.exec (.resumeWait cpu) = .ok x') : x.Effect (.resumeWait cpu) x' := by
  obtain ⟨t, hexe, hwaiting⟩ := henabled
  have hwakes : ∀ u, ¬ x.Wakes (.resumeWait cpu) u :=
    not_wakes rfl rfl fun _ _ hact => by cases hact
  have hblocked := hexe.not_blocked h.table
  -- both returns end with `t` outside its wait and leave the other threads as they are
  have hleft : ∀ y : Sys, (y.toKernel.Blocked = x.toKernel.Blocked) → y.waiting = x.waiting →
      (∀ u, u ≠ t → y.wait u = x.wait u) →
      (∀ m, (y.notification m).state = (x.notification m).state ∧
        (y.notification m).blockedTcbKva = (x.notification m).blockedTcbKva ∧
        KeepsReadiness (x.notification m) (y.notification m)) →
      x.Effect (.resumeWait cpu) (y.setWaiting t none) := by
    intro y hb hw hwait hnotification
    refine ⟨fun u _ => ?_, fun u hu hkeep => ?_, fun u _ hbu => ?_, fun u m hm => ?_,
      fun m => Or.inr (Or.inr (Effect.timeline_of_same rfl (hnotification m).1
        (hnotification m).2.1)), fun _ m => (hnotification m).2.2⟩
    · rw [and_iff_left (hwakes u)]
      exact Iff.of_eq (congrFun hb u)
    · have hut : u ≠ t := by
        rintro rfl
        rw [← hkeep] at hu
        simp at hu
      exact congrArg TcbWait.waitObjects (hwait u hut)
    · have hut : u ≠ t := by
        rintro rfl
        exact hblocked ((congrFun hb u).mp hbu)
      exact congrArg TcbWait.waitDeadline (hwait u hut)
    · have hut : u ≠ t := by
        rintro rfl
        simp at hm
      exact Or.inl (by simpa [hut, hw] using hm)
  simp only [Sys.exec] at hexec
  cases hop : x.waiting t with
  | none => exact absurd hop hwaiting
  | some op =>
    cases op with
    | any =>
      rw [resumeWait_any hexe hop, ok_bind] at hexec
      obtain rfl := ok.inj hexec
      obtain ⟨hsched, hthreads, hw, hwait, -, hnotification⟩ := waitCleanup_frame x t
      refine hleft _ (funext fun u => ?_) hw hwait hnotification
      simp only [Kernel.Blocked, hsched, hthreads]
    | notification n =>
      rw [resumeWait_notification hexe hop, ok_bind] at hexec
      obtain rfl := ok.inj hexec
      exact hleft x rfl rfl (fun _ _ => rfl) fun _ => ⟨rfl, rfl, .refl _⟩

/-- An action on the interrupt tables. -/
theorem Effect.of_frame (hwakes : ∀ t, ¬ x.Wakes act t) (hsignal : x.signalOf act = none)
    (hkernel : x'.toKernel = x.toKernel) (hnotification : x'.notification = x.notification)
    (hwait : x'.wait = x.wait) (hwaiting : x'.waiting = x.waiting) : x.Effect act x' :=
  .of_wakes hsignal (fun t _ => by rw [hkernel, and_iff_left (hwakes t)]) hwaiting
    (fun t _ => by rw [hwait]) hnotification

theorem bindIrq_effect {edgeTriggered : Bool}
    (henabled : x.Enabled (.bindIrq cpu intid n edgeTriggered))
    (hexec : x.exec (.bindIrq cpu intid n edgeTriggered) = .ok x') :
    x.Effect (.bindIrq cpu intid n edgeTriggered) x' := by
  obtain ⟨t, hfree⟩ := henabled
  have hcur := lift_current hfree.1
  have hwakes : ∀ u, ¬ x.Wakes (.bindIrq cpu intid n edgeTriggered) u :=
    not_wakes rfl rfl fun _ _ hact => by cases hact
  obtain ⟨b, r, hb⟩ := bind_frame x intid ⟨n, x.processKva t, !edgeTriggered⟩
  simp only [Sys.exec, Sys.sysBindIrq, hcur, ok_bind, hb] at hexec
  split at hexec <;> cases hexec <;> exact .of_frame hwakes rfl rfl rfl rfl rfl

theorem unmaskIrq_effect (henabled : x.Enabled (.unmaskIrq cpu intid))
    (hexec : x.exec (.unmaskIrq cpu intid) = .ok x') : x.Effect (.unmaskIrq cpu intid) x' := by
  obtain ⟨t, hfree⟩ := henabled
  have hcur := lift_current hfree.1
  have hwakes : ∀ u, ¬ x.Wakes (.unmaskIrq cpu intid) u :=
    not_wakes rfl rfl fun _ _ hact => by cases hact
  simp only [Sys.exec, Sys.sysUnmaskIrq] at hexec
  split at hexec
  · cases hexec
    exact .of_frame hwakes rfl rfl rfl rfl rfl
  · rw [hcur, ok_bind] at hexec
    split at hexec <;> cases hexec <;> exact .of_frame hwakes rfl rfl rfl rfl rfl

/-! ## Any action -/

theorem Inv.exec_effect (h : x.Inv a) (henabled : x.Enabled act) (hexec : x.exec act = .ok x') :
    x.Effect act x' := by
  have hfirst := (h.exec_ok_iff henabled).mp ⟨x', hexec⟩
  cases act with
  | kernel act => exact h.kernel_effect henabled hfirst hexec
  | signal cpu n value => exact h.signal_effect hfirst hexec
  | waitNotification cpu n threshold => exact h.waitNotification_effect henabled hexec
  | waitAny cpu objs deadline now => exact h.waitAny_effect henabled hexec
  | resumeWait cpu => exact h.resumeWait_effect henabled hexec
  | bindIrq cpu intid n edgeTriggered => exact bindIrq_effect henabled hexec
  | unmaskIrq cpu intid => exact unmaskIrq_effect henabled hexec
  | start =>
    cases hexec
    exact .of_frame (not_wakes rfl rfl fun _ _ hact => by cases hact) rfl rfl rfl rfl rfl
  | irq cpu intid now => exact h.irq_effect hfirst hexec

/-! ## While a thread is inside a wait -/

/-- The actions lead from `x` to a state, and `t` is inside `op` all the while. -/
inductive During (P : Sys → Action → Prop) (t : Kva) (op : WaitOp) (x : Sys) :
    List Action → Sys → Prop
  | start (hin : x.waiting t = some op) : During P t op x [] x
  | step {y y' : Sys} {acts : List Action} (act : Action) (hdur : During P t op x acts y)
      (henabled : y.Enabled act) (hP : P y act) (hexec : y.exec act = .ok y')
      (hin : y'.waiting t = some op) : During P t op x (acts ++ [act]) y'

theorem During.inside (h : During P t op x acts x') : x'.waiting t = some op := by
  cases h with
  | start hin => exact hin
  | step _ _ _ _ _ hin => exact hin

theorem During.run (h : During P t op x acts x') (hrun : Run P x) : Run P x' := by
  induction h with
  | start _ => exact hrun
  | step act _ henabled hP hexec _ ih => exact .step act ih henabled hP hexec

end Sys

end Lockjaw.Wait
