/-
  Lockjaw.Wait.Invariant

  What holds in every reachable state of the waits.  The kernel simulates the
  rendezvous machine, the threads of `watch` being those parked in a wait; who
  is registered on an object is inside `sys_wait_any` and listed the object;
  who waits on a notification's timeline is Blocked there.  One lemma per
  move the calls are made of says that the move keeps this.
-/

import Lockjaw.Wait.Kernel

namespace Lockjaw.Wait

open Sched Ipc Rendezvous NotificationState

/-! ## The panics of the IPC kernel, lifted -/

variable {α : Type}

@[simp] theorem lift_ok (a : α) : lift (.ok a : Except IpcPanic α) = .ok a := rfl

@[simp] theorem lift_error (p : IpcPanic) :
    lift (.error p : Except IpcPanic α) = .error (.ipc p) := rfl

/-- The thread that makes a call, as the call reads it. -/
theorem lift_current {k : Kernel} {cpu : Fin maxCpus} {t : Kva} (h : k.Executes cpu t) :
    lift (k.currentTcbKva cpu) = .ok t := congrArg lift h.currentTcbKva

theorem ok_bind {ε β : Type} (a : α) (f : α → Except ε β) : (Except.ok a >>= f) = f a := rfl

/-! ## Threads of the machine that an operation leaves alone -/

section Machine

variable {a : Spec} {t u e : Kva}

theorem recv_running (h : a.Inv) (hut : u ≠ t) (hu : a.phase u = .running) (e : Kva) :
    (a.recv t e).1.phase u = .running := by
  unfold recv
  split
  · exact hu
  · split
    · exact hu
    · simpa [hut] using hu
    · next x l hep =>
      have hx : u ≠ x.thread := (h.thread_ne_of_running hu (e := e) (x := x) (by
        rw [hep]; exact List.mem_cons_self)).symm
      split
      · simpa [hx] using hu
      · simpa [hx] using hu

theorem reply_running (h : a.Inv) (hu : a.phase u = .running) (m : Msg) :
    (a.reply t m).1.phase u = .running := by
  unfold reply
  split
  · exact hu
  · next r hr =>
    split
    · exact hu
    · next c hc =>
      have hcu : u ≠ c := by
        rintro rfl
        rw [h.awaiting_of_holds hr hc] at hu
        cases hu
      simpa [hcu] using hu

/-- IPC moves only its own threads. -/
theorem issue_running (h : a.Inv) (hut : u ≠ t) (hu : a.phase u = .running)
    (op : Op Kva Kva Msg UInt64) : (a.issue t op).1.phase u = .running := by
  cases op with
  | send e m c => grind [h.receiver_iff, issue, send]
  | recv e => exact recv_running h hut hu e
  | recvNb e => grind [issue, recvNb, recv_running]
  | call e r m c =>
    show (a.call t e r m c).1.phase u = .running
    grind [h.receiver_iff, call]
  | reply m => exact reply_running h hu m

theorem recv_state {e' : Kva} (hs : ((a.recv t e).1.ep e').state = .hasWaiters) :
    (a.ep e').state = .hasWaiters := by grind [EpQueue.state, recv]

/-- An endpoint gets its first waiter only from an operation that readies it. -/
theorem issue_state (op : Op Kva Kva Msg UInt64) {e : Kva}
    (hs : ((a.issue t op).1.ep e).state = .hasWaiters) :
    (a.ep e).state = .hasWaiters ∨ Watch.readied a op = some e := by
  cases op with
  | send e' m c =>
    unfold issue send at hs
    dsimp only at hs
    by_cases he : e = e'
    · subst he
      match hep : a.ep e with
      | .receiver v => simp [hep, EpQueue.state] at hs
      | .waiting [] => exact Or.inr (by simp [Watch.readied, hep, EpQueue.state])
      | .waiting (x :: l) => exact Or.inl rfl
    · split at hs <;> exact Or.inl (by simpa [he] using hs)
  | recv e' => exact Or.inl (recv_state hs)
  | recvNb e' =>
    unfold issue recvNb at hs
    dsimp only at hs
    split at hs
    · exact Or.inl hs
    · exact Or.inl hs
    · exact Or.inl (recv_state hs)
  | call e' r m c =>
    unfold issue call at hs
    dsimp only at hs
    split at hs
    · exact Or.inl hs
    · next hb =>
      have hnone : a.bound r = none := by simpa using hb
      by_cases he : e = e'
      · subst he
        match hep : a.ep e with
        | .receiver v => simp [hep, EpQueue.state] at hs
        | .waiting [] => exact Or.inr (by simp [Watch.readied, hep, hnone, EpQueue.state])
        | .waiting (x :: l) => exact Or.inl rfl
      · split at hs <;> exact Or.inl (by simpa [he] using hs)
  | reply m =>
    unfold issue reply at hs
    grind

end Machine

/-- Waking a registered thread that is not Blocked panics. -/
theorem unblockThread_not_blocked {k : Kernel} {u : Kva} (htable : k.TableOk)
    (hreg : k.Registered u) (hblocked : ¬ k.Blocked u) :
    k.unblockThread u = .error .notBlocked := by
  obtain ⟨i, hi⟩ := hreg
  have hget : k.sched.get i ≠ some .blocked := fun hb => hblocked ⟨i, hi, hb⟩
  have hunblock : ∃ err, k.sched.unblock i = .error err := by
    unfold SchedState.unblock
    split
    · next hb => exact absurd hb hget
    · exact ⟨_, rfl⟩
    · exact ⟨_, rfl⟩
  obtain ⟨err, herr⟩ := hunblock
  unfold Kernel.unblockThread
  rw [Kernel.threadIndexFor_eq htable hi]
  dsimp only
  rw [herr]

def NotificationState.signalled (s : NotificationState) (v : UInt64) : NotificationState :=
  match s.signal v with
  | .ok (s', _) => s'
  | .error _ => s

namespace Sys

/-- What IPC sees of the waits. -/
def watch (x : Sys) : Watch where
  parked := fun t => x.waiting t ≠ none ∧ x.toKernel.Blocked t
  waiter := fun e => (x.endpoint e).readinessWaiter

/-- The waits of a reachable state, over the machine state `a`. -/
structure Inv (x : Sys) (a : Spec) : Prop where
  sim : Sim x.watch x.toKernel a
  /-- A thread inside a wait is registered and outside IPC. -/
  inside : ∀ t, x.waiting t ≠ none → x.pending t = none ∧ x.toKernel.Registered t
  ep_waiter : ∀ e t, (x.endpoint e).readinessWaiter = t → t ≠ 0 →
    x.waiting t = some .any ∧ .endpoint e ∈ (x.wait t).waitObjects
  notif_waiter : ∀ n t, (x.notification n).readinessWaiter = t → t ≠ 0 →
    x.waiting t = some .any ∧ ∃ th, .notification n th ∈ (x.wait t).waitObjects
  blocked_waiter : ∀ n, (x.notification n).state.hasWaiter = true →
    x.waiting (x.notification n).blockedTcbKva = some (.notification n) ∧
      x.toKernel.Blocked (x.notification n).blockedTcbKva
  deadline : ∀ t, (x.wait t).waitDeadline ≠ noDeadline → x.waiting t = some .any
  /-- Slots are filled from the first one on. -/
  slots : ∀ i j, i ≤ j → x.threads i = none → x.threads j = none

variable {x x' : Sys} {a : Spec} {t u n e : Kva}

theorem inv_boot (p : Kva → Kva) : (boot p).Inv init where
  sim := by
    have hwatch : (boot p).watch = Watch.empty := by
      simp [watch, boot, Watch.empty, Kernel.boot]
    rw [hwatch]
    exact Sim.boot
  inside := fun t ht => absurd rfl ht
  ep_waiter := fun e t ht hne => absurd ht.symm hne
  notif_waiter := fun n t ht hne => absurd ht.symm hne
  blocked_waiter := fun n hn => by simp [boot, new] at hn
  deadline := fun t ht => absurd rfl ht
  slots := fun _ _ _ _ => rfl

/-- Actions that touch neither threads nor waits. -/
theorem Inv.congr (h : x.Inv a) (hkernel : x'.toKernel = x.toKernel)
    (hnotification : x'.notification = x.notification) (hwait : x'.wait = x.wait)
    (hwaiting : x'.waiting = x.waiting) : x'.Inv a := by
  have hwatch : x'.watch = x.watch := by simp only [watch, hkernel, hwaiting]
  refine ⟨?_, ?_, ?_, ?_, ?_, ?_, ?_⟩
  · rw [hwatch, hkernel]
    exact h.sim
  · rw [hwaiting, hkernel]
    exact h.inside
  · rw [hwaiting, hkernel, hwait]
    exact h.ep_waiter
  · rw [hwaiting, hnotification, hwait]
    exact h.notif_waiter
  · rw [hwaiting, hnotification, hkernel]
    exact h.blocked_waiter
  · rw [hwaiting, hwait]
    exact h.deadline
  · rw [hkernel]
    exact h.slots

/-- A simulation whose parked threads are inside waits sees exactly the waits. -/
theorem watch_eq {w : Watch} (hsim : Sim w x.toKernel a)
    (hparked : ∀ t, w.parked t → x.waiting t ≠ none)
    (hinside : ∀ t, x.waiting t ≠ none → x.pending t = none) : x.watch = w := by
  have hp : x.watch.parked = w.parked := by
    funext t
    refine propext ⟨?_, fun ht => ⟨hparked t ht, (hsim.thread t).blocked.mpr (Or.inr ht)⟩⟩
    rintro ⟨hwait, hblocked⟩
    have hrun := hsim.phase_running (hinside t hwait)
    simpa [hrun, Phase.isBlocked] using (hsim.thread t).blocked.mp hblocked
  have hw : x.watch.waiter = w.waiter := by
    funext e
    exact (hsim.ep e).readiness
  cases w
  cases hx : x.watch
  simp_all

section

variable (h : x.Inv a)
include h

theorem Inv.table : x.toKernel.TableOk := h.sim.table

/-! ## Waking -/

/-- `scheduler::unblock_thread` on a parked thread nobody else waits for. -/
theorem Inv.unblockThread (hwaiting : x.waiting u ≠ none) (hblocked : x.toKernel.Blocked u)
    (hfree : ∀ n, (x.notification n).state.hasWaiter = true →
      (x.notification n).blockedTcbKva ≠ u) :
    ∃ s, x.unblockThread u = .ok (x.setKernel (x.toKernel.setSched s)) ∧
      (x.setKernel (x.toKernel.setSched s)).Inv a ∧ s.currentPerCpu = x.sched.currentPerCpu ∧
      ∀ v, BlockedIn s x.threads v ↔ x.toKernel.Blocked v ∧ v ≠ u := by
  obtain ⟨s, hunb, htable, hcpus, hbl⟩ := Kernel.unblockThread_spec h.table hblocked
  obtain ⟨s', hunb', -, hrep⟩ := h.sim.toRep.unpark (u := u) ⟨hwaiting, hblocked⟩
  obtain rfl : s = s' := by
    have heq := Except.ok.inj (hunb.symm.trans hunb')
    exact congrArg Kernel.sched heq
  have hsim : Sim ⟨fun v => x.watch.parked v ∧ v ≠ u, x.watch.waiter⟩ (x.toKernel.setSched s) a :=
    ⟨hrep, h.sim.inv, h.sim.bound_zero⟩
  have hwatch : (x.setKernel (x.toKernel.setSched s)).watch =
      ⟨fun v => x.watch.parked v ∧ v ≠ u, x.watch.waiter⟩ :=
    watch_eq hsim (fun v hv => hv.1.1) (fun v hv => (h.inside v hv).1)
  refine ⟨s, by rw [Sys.unblockThread, hunb]; rfl, ⟨?_, h.inside, h.ep_waiter, h.notif_waiter,
    fun m hm => ?_, h.deadline, h.slots⟩, hcpus, hbl⟩
  · rw [hwatch]
    exact hsim
  · obtain ⟨hw, hb⟩ := h.blocked_waiter m hm
    exact ⟨hw, (hbl _).mpr ⟨hb, hfree m hm⟩⟩

/-- Rewriting a notification without adding a waiter. -/
theorem Inv.updNotification (f : NotificationObject → NotificationObject)
    (hready : (f (x.notification n)).readinessWaiter = (x.notification n).readinessWaiter ∨
      (f (x.notification n)).readinessWaiter = 0)
    (hwaiter : (f (x.notification n)).state.hasWaiter = true →
      (x.notification n).state.hasWaiter = true ∧
        (f (x.notification n)).blockedTcbKva = (x.notification n).blockedTcbKva) :
    (x.updNotification n f).Inv a := by
  refine ⟨h.sim, h.inside, h.ep_waiter, fun m t hm ht => ?_, fun m hm => ?_, h.deadline,
    h.slots⟩
  · by_cases hmn : m = n
    · subst hmn
      have hm' : (f (x.notification m)).readinessWaiter = t := by
        simpa using hm
      rcases hready with hr | hr
      · exact h.notif_waiter m t (hr.symm.trans hm') ht
      · exact absurd (hm'.symm.trans hr) ht
    · exact h.notif_waiter m t (by simpa [hmn] using hm) ht
  · by_cases hmn : m = n
    · subst hmn
      obtain ⟨hold, hkva⟩ := hwaiter (by simpa using hm)
      simpa [hkva] using h.blocked_waiter m hold
    · have hb := h.blocked_waiter m (by simpa [hmn] using hm)
      simpa [hmn] using hb

/-! ## Signals -/

/-- The readiness waiter a signal with `value` tells. -/
def toldBySignal (x : Sys) (n : Kva) (value : UInt64) : Option Kva :=
  let o := x.notification n
  if o.state.value < value ∧ o.readinessThreshold ≤ value then some o.readinessWaiter else none

/-- What a signal that wakes only Blocked threads does. -/
structure Signalled (x : Sys) (n : Kva) (v : UInt64) (x' : Sys) : Prop where
  wait : x'.wait = x.wait
  waiting : x'.waiting = x.waiting
  endpoint : x'.endpoint = x.endpoint
  timerArms : x'.timerArms = x.timerArms
  bindings : x'.bindings = x.bindings
  pending : x'.pending = x.pending
  cpus : x.toKernel.SameCpus x'.toKernel
  other : ∀ m, m ≠ n → x'.notification m = x.notification m
  value : (x'.notification n).state.value =
    if (x.notification n).state.value < v then v else (x.notification n).state.value
  blocked : ∀ t, x'.toKernel.Blocked t → x.toKernel.Blocked t
  kept : ∀ t, x.waiting t = some .any → x.toKernel.Blocked t → x.toldBySignal n v ≠ some t →
    x'.toKernel.Blocked t
  /-- The readiness waiter is woken, or stays registered as it was. -/
  readiness : (∃ t, x.toldBySignal n v = some t ∧ ¬ x'.toKernel.Blocked t) ∨
    (x'.notification n).readinessWaiter = (x.notification n).readinessWaiter ∧
    (x'.notification n).readinessThreshold = (x.notification n).readinessThreshold ∧
    ((x.notification n).readinessWaiter ≠ 0 → x.toldBySignal n v = none)

/-- Waking the thread whose threshold on the timeline is met. -/
theorem Inv.wakeBlocked (hn : (x.notification n).state.hasWaiter = true)
    {st : NotificationState} (hst : st.hasWaiter = false) :
    ∃ s, (x.updNotification n fun o => { o with state := st }).wakeBlocked n =
        .ok ((x.updNotification n fun o => { o with state := st, blockedTcbKva := 0 }).setKernel
          (x.toKernel.setSched s)) ∧
      ((x.updNotification n fun o => { o with state := st, blockedTcbKva := 0 }).setKernel
          (x.toKernel.setSched s)).Inv a ∧ s.currentPerCpu = x.sched.currentPerCpu ∧
      ∀ v, BlockedIn s x.threads v ↔
        x.toKernel.Blocked v ∧ v ≠ (x.notification n).blockedTcbKva := by
  obtain ⟨hwaiting, hblocked⟩ := h.blocked_waiter n hn
  have h' : (x.updNotification n fun o => { o with state := st, blockedTcbKva := 0 }).Inv a :=
    h.updNotification _ (Or.inl rfl) (by simp [hst])
  have hupd : ((x.updNotification n fun o => { o with state := st }).updNotification n
      fun o => { o with blockedTcbKva := 0 }) =
      x.updNotification n fun o => { o with state := st, blockedTcbKva := 0 } := by
    simp [Sys.updNotification]
  unfold Sys.wakeBlocked
  rw [hupd]
  have hkva : ((x.updNotification n fun o => { o with state := st }).notification n).blockedTcbKva =
      (x.notification n).blockedTcbKva := by simp
  rw [hkva]
  refine h'.unblockThread (by simp [hwaiting]) hblocked fun m hm heq => ?_
  -- another notification's waiter is inside its own wait
  have hmn : m ≠ n := by
    rintro rfl
    simp [hst] at hm
  obtain ⟨hw, -⟩ := h'.blocked_waiter m hm
  rw [heq] at hw
  have hnm := Option.some.inj (hwaiting.symm.trans hw)
  exact hmn (WaitOp.notification.inj hnm).symm

/-- Waking the readiness waiter whose threshold is met. -/
theorem Inv.wakeReadiness (hne : (x.notification n).readinessWaiter ≠ 0)
    (hblocked : x.toKernel.Blocked (x.notification n).readinessWaiter) :
    ∃ s, (x.updNotification n fun o =>
        { o with readinessWaiter := 0, readinessThreshold := 0 }).unblockThread
          (x.notification n).readinessWaiter =
        .ok ((x.updNotification n fun o =>
          { o with readinessWaiter := 0, readinessThreshold := 0 }).setKernel
            (x.toKernel.setSched s)) ∧
      ((x.updNotification n fun o =>
          { o with readinessWaiter := 0, readinessThreshold := 0 }).setKernel
            (x.toKernel.setSched s)).Inv a ∧ s.currentPerCpu = x.sched.currentPerCpu ∧
      ∀ v, BlockedIn s x.threads v ↔
        x.toKernel.Blocked v ∧ v ≠ (x.notification n).readinessWaiter := by
  obtain ⟨hany, -⟩ := h.notif_waiter n _ rfl hne
  have h' : (x.updNotification n fun o =>
      { o with readinessWaiter := 0, readinessThreshold := 0 }).Inv a :=
    h.updNotification _ (Or.inr rfl) fun hw => ⟨hw, rfl⟩
  refine h'.unblockThread (by simp [hany]) hblocked fun m hm heq => ?_
  obtain ⟨hw, -⟩ := h'.blocked_waiter m hm
  rw [heq] at hw
  have hcontra := hany.symm.trans hw
  cases hcontra

/-- A signal after it has moved the timeline and woken its waiter. -/
structure Moved (x : Sys) (n : Kva) (v : UInt64) (x' : Sys) : Prop where
  wait : x'.wait = x.wait
  waiting : x'.waiting = x.waiting
  endpoint : x'.endpoint = x.endpoint
  timerArms : x'.timerArms = x.timerArms
  bindings : x'.bindings = x.bindings
  pending : x'.pending = x.pending
  cpus : x.toKernel.SameCpus x'.toKernel
  other : ∀ m, m ≠ n → x'.notification m = x.notification m
  value : (x'.notification n).state.value = v
  readinessWaiter : (x'.notification n).readinessWaiter = (x.notification n).readinessWaiter
  readinessThreshold :
    (x'.notification n).readinessThreshold = (x.notification n).readinessThreshold
  blocked : ∀ t, x'.toKernel.Blocked t → x.toKernel.Blocked t
  any : ∀ t, x.waiting t = some .any → x.toKernel.Blocked t → x'.toKernel.Blocked t

/-- The thread a signal with `value` releases from its wait on the timeline. -/
def releasedBySignal (x : Sys) (n : Kva) (value : UInt64) : Option Kva :=
  let o := x.notification n
  if o.state.value < value ∧ o.state.hasWaiter = true ∧ o.state.waitThreshold ≤ value then
    some o.blockedTcbKva
  else none

/-- What moving the timeline does to the thread that waits on it. -/
structure Released (x : Sys) (n : Kva) (v : UInt64) (x' : Sys) : Prop where
  state : (x'.notification n).state = (x.notification n).state.signalled v
  kva : (x'.notification n).state.hasWaiter = true →
    (x'.notification n).blockedTcbKva = (x.notification n).blockedTcbKva
  blocked : ∀ t, x'.toKernel.Blocked t ↔
    x.toKernel.Blocked t ∧ x.releasedBySignal n v ≠ some t

variable {v : UInt64}

theorem Inv.moveTimeline (hlt : (x.notification n).state.value < v) :
    ∃ st r x', (x.notification n).state.signal v = .ok (st, r) ∧
      (x.updNotification n fun o => { o with state := st }).applySignal n r = .ok x' ∧
      x'.Inv a ∧ x.Moved n v x' ∧ x.Released n v x' := by
  unfold signal
  rw [if_neg (UInt64.not_le.mpr hlt)]
  dsimp only
  by_cases hwake : (x.notification n).state.hasWaiter = true ∧
      (x.notification n).state.waitThreshold ≤ v
  · rw [if_pos hwake]
    obtain ⟨s, hok, hinv, hcpus, hbl⟩ := h.wakeBlocked hwake.1
      (show (⟨v, false, 0⟩ : NotificationState).hasWaiter = false from rfl)
    have hrel : x.releasedBySignal n v = some (x.notification n).blockedTcbKva :=
      if_pos ⟨hlt, hwake⟩
    have hst : (x.notification n).state.signalled v = ⟨v, false, 0⟩ := by
      simp only [signalled, signal,
        if_neg (UInt64.not_le.mpr hlt), if_pos hwake]
    refine ⟨_, _, _, rfl, hok, hinv, ⟨rfl, rfl, rfl, rfl, rfl, rfl, ⟨hcpus, rfl⟩,
      fun m hm => ?_, ?_, ?_, ?_, fun t ht => ?_,
      fun t ht hb => ?_⟩, ?_, fun hw => ?_, fun t => ?_⟩
    · simp [hm]
    · simp
    · simp
    · simp
    · exact ((hbl t).mp ht).1
    · refine (hbl t).mpr ⟨hb, fun heq => ?_⟩
      -- the thread released waits on this notification, not in `sys_wait_any`
      have hw := (h.blocked_waiter n hwake.1).1
      rw [← heq, ht] at hw
      cases hw
    · rw [hst]
      simp
    · simp at hw
    · refine Iff.trans (hbl t) ?_
      rw [hrel, ne_comm (a := t), ne_eq (some _), Option.some.injEq]
  · rw [if_neg hwake]
    have hrel : x.releasedBySignal n v = none := if_neg fun hr => hwake hr.2
    have hst : (x.notification n).state.signalled v =
        { (x.notification n).state with value := v } := by
      simp only [signalled, signal,
        if_neg (UInt64.not_le.mpr hlt), if_neg hwake]
    refine ⟨_, _, _, rfl, rfl, h.updNotification _ (Or.inl rfl) fun hw => ⟨hw, rfl⟩, ⟨rfl, rfl, rfl,
      rfl, rfl, rfl, ⟨rfl, rfl⟩, fun m hm => ?_, ?_, ?_, ?_, fun t ht => ht, fun t _ hb => hb⟩,
      ?_, fun _ => ?_, fun t => ?_⟩
    · simp [hm]
    · simp
    · simp
    · simp
    · rw [hst]
      simp
    · simp
    · rw [hrel]
      exact (and_iff_left (Option.some_ne_none t).symm).symm

end

/-- The registration for readiness is the one before, or there is none. -/
def KeepsReadiness (o o' : NotificationObject) : Prop :=
  o'.readinessWaiter = 0 ∨
    o'.readinessWaiter = o.readinessWaiter ∧ o'.readinessThreshold = o.readinessThreshold

theorem KeepsReadiness.refl (o : NotificationObject) : KeepsReadiness o o :=
  Or.inr ⟨rfl, rfl⟩

theorem KeepsReadiness.trans {o o' o'' : NotificationObject} (h : KeepsReadiness o o')
    (h' : KeepsReadiness o' o'') : KeepsReadiness o o'' := by
  rcases h' with h' | ⟨hw', hth'⟩
  · exact Or.inl h'
  · rcases h with h | ⟨hw, hth⟩
    · exact Or.inl (hw'.trans h)
    · exact Or.inr ⟨hw'.trans hw, hth'.trans hth⟩

/-- What a signal does to the thread that waits on the timeline, and whom it wakes. -/
structure SignalEffect (x : Sys) (n : Kva) (v : UInt64) (x' : Sys) : Prop where
  state : (x'.notification n).state = (x.notification n).state.signalled v
  kva : (x'.notification n).state.hasWaiter = true →
    (x'.notification n).blockedTcbKva = (x.notification n).blockedTcbKva
  blocked : ∀ t, x'.toKernel.Blocked t ↔
    x.toKernel.Blocked t ∧ x.releasedBySignal n v ≠ some t ∧ x.toldBySignal n v ≠ some t
  readiness : KeepsReadiness (x.notification n) (x'.notification n)

section

variable (h : x.Inv a) (hfirst : ∀ t, x.toldBySignal n v = some t → t ≠ 0 → x.toKernel.Blocked t)
include h hfirst

/-- A signal whose readiness waiter is still Blocked returns. -/
theorem Inv.notificationSignal_effect :
    ∃ x' r, x.notificationSignal n v = .ok (x', r) ∧ x'.Inv a ∧ x.Signalled n v x' ∧
      x.SignalEffect n v x' := by
  unfold Sys.notificationSignal
  by_cases hlt : (x.notification n).state.value < v
  -- first the thread that waits on the timeline is released, then the readiness waiter
  · obtain ⟨st, r, x2, hsignal, hfirst2, h2, hmoved, hreleased⟩ := h.moveTimeline hlt
    simp only [hsignal]
    have hval := hmoved.value
    by_cases hready : (x.notification n).readinessWaiter ≠ 0 ∧
        (x.notification n).readinessThreshold ≤ v
    · have htold : x.toldBySignal n v = some (x.notification n).readinessWaiter :=
        if_pos ⟨hlt, hready.2⟩
      -- the release leaves the readiness waiter alone: it is inside `sys_wait_any`
      have hany := (h.notif_waiter n _ rfl hready.1).1
      have hb2 := hmoved.any _ hany (hfirst _ htold hready.1)
      rw [← hmoved.readinessWaiter] at hb2
      obtain ⟨s, hok, hinv, hcpus, hbl⟩ := h2.wakeReadiness
        (by rw [hmoved.readinessWaiter]; exact hready.1) hb2
      have hcond : (x2.notification n).readinessWaiter ≠ 0 ∧
          isNotificationReady v (x2.notification n).readinessThreshold = true := by
        rw [hmoved.readinessWaiter, hmoved.readinessThreshold]
        exact ⟨hready.1, decide_eq_true hready.2⟩
      refine ⟨_, _, Sim.bind_ok hfirst2 (Sim.bind_ok ((if_pos hcond).trans hok) rfl), hinv,
        ⟨hmoved.wait, hmoved.waiting, hmoved.endpoint, hmoved.timerArms, hmoved.bindings,
        hmoved.pending, hmoved.cpus.trans ⟨hcpus, rfl⟩, fun m hm => ?_, ?_, fun t ht => ?_,
        fun t hany' hb' hne' => ?_, Or.inl ⟨_, htold, ?_⟩⟩, ?_, fun hw => ?_, fun t => ?_,
        Or.inl ?_⟩
      · simpa [hm] using hmoved.other m hm
      · simpa [hlt] using hval
      · exact hmoved.blocked t ((hbl t).mp ht).1
      · refine (hbl t).mpr ⟨hmoved.any t hany' hb', fun heq => hne' ?_⟩
        rw [htold, heq, hmoved.readinessWaiter]
      · intro ht
        exact ((hbl _).mp ht).2 hmoved.readinessWaiter.symm
      · simpa using hreleased.state
      · have hw2 : (x2.notification n).state.hasWaiter = true := by
          simpa using hw
        simpa using hreleased.kva hw2
      · refine Iff.trans (hbl t) ?_
        rw [hreleased.blocked, hmoved.readinessWaiter, htold, and_assoc, ne_comm (a := t),
          ne_eq (some _), Option.some.injEq]
      · simp
    · have hwake : x2.wakeReadiness n v = .ok x2 := by
        unfold Sys.wakeReadiness
        rw [if_neg]
        rw [hmoved.readinessWaiter, hmoved.readinessThreshold]
        exact fun hr => hready ⟨hr.1, of_decide_eq_true hr.2⟩
      have htold (t : Kva) (ht : x.toldBySignal n v = some t) : t = 0 := by grind [toldBySignal]
      refine ⟨_, _, Sim.bind_ok hfirst2 (Sim.bind_ok hwake rfl), h2, ⟨hmoved.wait, hmoved.waiting,
        hmoved.endpoint, hmoved.timerArms, hmoved.bindings, hmoved.pending, hmoved.cpus,
        hmoved.other, by rw [hval, if_pos hlt],
        hmoved.blocked, fun t hany' hb' _ => hmoved.any t hany' hb',
        Or.inr ⟨hmoved.readinessWaiter, hmoved.readinessThreshold, fun hne => ?_⟩⟩,
        hreleased.state, hreleased.kva, fun t => (hreleased.blocked t).trans ?_,
        Or.inr ⟨hmoved.readinessWaiter, hmoved.readinessThreshold⟩⟩
      · exact if_neg fun hr => hready ⟨hne, hr.2⟩
      · refine and_congr_right fun hb => (and_iff_left fun ht => ?_).symm
        obtain ⟨i, hi, -⟩ := hb
        exact h.table.ne_zero i t hi (htold t ht)
  · have hsignal : (x.notification n).state.signal v = .error .valueNotMonotonic :=
      if_pos (UInt64.not_lt.mp hlt)
    have hrel : x.releasedBySignal n v = none := if_neg fun hr => hlt hr.1
    have htold : x.toldBySignal n v = none := if_neg fun hr => hlt hr.1
    have hst : (x.notification n).state.signalled v = (x.notification n).state := by
      simp only [signalled, hsignal]
    simp only [hsignal]
    refine ⟨x, _, rfl, h, ⟨rfl, rfl, rfl, rfl, rfl, rfl, ⟨rfl, rfl⟩, fun _ _ => rfl,
      by rw [if_neg hlt], fun _ => id, fun _ _ hb _ => hb,
      Or.inr ⟨rfl, rfl, fun _ => htold⟩⟩, hst.symm, fun _ => rfl, fun t => ?_, .refl _⟩
    simp [hrel, htold]

theorem Inv.notificationSignal :
    ∃ x' r, x.notificationSignal n v = .ok (x', r) ∧ x'.Inv a ∧ x.Signalled n v x' := by
  obtain ⟨x', r, hok, hinv, hsig, -⟩ := h.notificationSignal_effect hfirst
  exact ⟨x', r, hok, hinv, hsig⟩

end

/-- A signal whose readiness waiter has already been woken panics. -/
theorem Inv.notificationSignal_stale (h : x.Inv a)
    (htold : x.toldBySignal n v = some t) (ht : t ≠ 0) (hb : ¬ x.toKernel.Blocked t) :
    x.notificationSignal n v = .error (.ipc .notBlocked) := by
  unfold toldBySignal at htold
  dsimp only at htold
  split at htold
  · next hr =>
    obtain rfl := Option.some.inj htold
    obtain ⟨st, r, x2, hsignal, hfirst2, h2, hmoved, -⟩ := h.moveTimeline hr.1
    have hany := (h.notif_waiter n _ rfl ht).1
    have hreg : x2.toKernel.Registered (x.notification n).readinessWaiter :=
      (h2.inside _ (by rw [hmoved.waiting, hany]; exact Option.some_ne_none _)).2
    unfold Sys.notificationSignal
    simp only [hsignal]
    refine Sim.bind_ok hfirst2 ?_
    have hwake : x2.wakeReadiness n v = .error (.ipc .notBlocked) := by
      unfold Sys.wakeReadiness
      dsimp only
      rw [hmoved.readinessWaiter, hmoved.readinessThreshold,
        if_pos ⟨ht, decide_eq_true hr.2⟩]
      unfold Sys.unblockThread
      have hunb : (x2.updNotification n fun o =>
          { o with readinessWaiter := 0, readinessThreshold := 0 }).toKernel.unblockThread
            (x.notification n).readinessWaiter = .error .notBlocked :=
        unblockThread_not_blocked (k := x2.toKernel) h2.table hreg fun hb2 =>
          hb (hmoved.blocked _ hb2)
      rw [hunb]
      rfl
    rw [hwake]
    rfl
  · cases htold

end Sys

end Lockjaw.Wait
