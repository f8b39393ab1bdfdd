/-
  Lockjaw.Ipc.Refine

  The kernel's endpoint code simulates the rendezvous machine: from related
  states every IPC operation runs without panicking, has the outcome the
  machine gives it, and ends in related states.  Scheduling is invisible to
  the machine.  Hence every run of the kernel is, event for event, a run of
  the machine.
-/

import Lockjaw.Ipc.Represent

namespace Lockjaw.Ipc

open Sched Kernel Rendezvous EpQueue Watch List Option

/-- The endpoint that gets its first waiter when the machine takes `op`. -/
def Watch.readied (a : Spec) : Op Kva Kva Msg UInt64 → Option Kva
  | .send e _ _ => if (a.ep e).state = .idle then some e else none
  | .call e r _ _ => if (a.bound r).isNone ∧ (a.ep e).state = .idle then some e else none
  | _ => none

/-- The waits outside IPC after `op`. -/
def Watch.issue (w : Watch) (a : Spec) (op : Op Kva Kva Msg UInt64) : Watch :=
  match readied a op with
  | some e => w.wake e
  | none => w

theorem Watch.issue_empty (a : Spec) (op : Op Kva Kva Msg UInt64) :
    empty.issue a op = empty := by
  unfold issue
  split
  · exact wake_empty _
  · rfl

/-- The thread `op` tells that an endpoint is ready, if any, is still Blocked. -/
def Watch.Wakeable (w : Watch) (a : Spec) (op : Op Kva Kva Msg UInt64) : Prop :=
  ∀ e, readied a op = some e → w.waiter e ≠ 0 → w.parked (w.waiter e)

theorem Watch.wakeable_empty (a : Spec) (op : Op Kva Kva Msg UInt64) : empty.Wakeable a op :=
  fun _ _ hne => absurd rfl hne

namespace Sim

variable {w : Watch} {k : Kernel} {a : Spec} {cpu : Fin maxCpus} {t e : Kva}

/-- Sequencing after a step that succeeds. -/
theorem bind_ok {ε α β : Type} {x : Except ε α} {f : α → Except ε β} {y : α} {r : Except ε β}
    (hx : x = .ok y) (hf : f y = r) : (x >>= f) = r := by
  rw [hx]
  exact hf

theorem phase_running (h : Sim w k a) (hp : k.pending t = none) : a.phase t = .running :=
  Phase.pending_eq_none_iff.mp ((h.thread t).pending.symm.trans hp)

variable {u r : Kva} {l : List (Entry Kva Kva Msg UInt64)} {x : Entry Kva Kva Msg UInt64} {c : Kva}

theorem mem_threads_blocked (h : Sim w k a) (hu : u ∈ (a.ep e).threads) : k.Blocked u :=
  (h.thread u).blocked.mpr (Or.inl (h.inv.isBlocked_of_mem_threads hu))

theorem not_queued (h : Sim w k a) (hexe : k.Executes cpu t) (e : Kva) : t ∉ (a.ep e).threads :=
  fun hmem => hexe.not_blocked h.table (h.mem_threads_blocked hmem)

/-- A held Reply is an object. -/
theorem holds_ne_zero (h : Sim w k a) (hholds : a.holds t = some r) : r ≠ 0 := by
  obtain ⟨c, hc⟩ := h.inv.holds_awaiting t r hholds
  have hbound := (h.inv.bound_iff r c).mpr (Or.inr hc)
  rintro rfl
  rw [h.bound_zero] at hbound
  cases hbound

theorem currentReplyKva_bne (h : Sim w k a) (t : Kva) :
    ((k.tcb t).currentReplyKva != 0) = (a.holds t).isSome := by
  rw [(h.thread t).holds]
  cases hholds : a.holds t with
  | none => rfl
  | some r => simpa using h.holds_ne_zero hholds

theorem state_append_singleton (l : List (Entry Kva Kva Msg UInt64))
    (x : Entry Kva Kva Msg UInt64) : (waiting (l ++ [x])).state = .hasWaiters := by
  cases l <;> rfl

theorem state_of_more (l : List (Entry Kva Kva Msg UInt64)) :
    (if (!l.isEmpty) = true then EpState.hasWaiters else .idle) = (waiting l).state := by
  cases l <;> rfl

/-- Queueing one more message keeps the entries whose threads carry them. -/
theorem entry_append (hep : a.ep e = .waiting l) {b : TcbBody} (hx : b.Carries x) :
    ∀ y ∈ (waiting (l ++ [x])).entries,
      y ∈ (a.ep e).entries ∨ y.thread = x.thread ∧ b.Carries y := by
  intro y hy
  rcases mem_append.mp hy with hy | hy
  · exact Or.inl (by rw [hep]; exact hy)
  · obtain rfl := mem_singleton.mp hy
    exact Or.inr ⟨rfl, hx⟩

/-- Shortening a queue adds nobody to any queue. -/
theorem not_mem_threads_setEp (hfree : ∀ e, t ∉ (a.ep e).threads)
    {q : EpQueue Kva Kva Msg UInt64} (hsub : ∀ v ∈ q.threads, v ∈ (a.ep e).threads) (e' : Kva) :
    t ∉ ((a.setEp e q).ep e').threads := by grind

/-! ## Send -/

section

variable (h : Sim w k a)
include h

theorem send_receiver (hep : a.ep e = .receiver u) (m : Msg) (c : UInt64) :
    ∃ k', k.ipcSend cpu e m c = .ok (k', .returned .done) ∧
      Sim w k' ((a.setEp e (.waiting [])).setPhase u (.woken (.message m c))) ∧ k.SameCpus k' := by
  have hstate : (k.endpoint e).state = .hasReceiver := by rw [(h.ep e).state, hep]; rfl
  have hhead : (a.ep e).threads = [u] := by rw [hep]; rfl
  have hphase := (h.inv.receiver_iff e u).mp hep
  obtain ⟨hdeq, -⟩ := h.queues.dequeue hhead
  obtain ⟨s, hunb, hcpus, hrep⟩ := h.toRep.deliver hhead
    (h.mem_threads_blocked (e := e) (by rw [hhead]; exact mem_singleton_self u))
    (fun r => { r with
      ipcMsg := m, lastCallerToken := c, ipcWaitKind := none, ipcBlockedOn := 0 })
    (l := []) (x := a.holds u) rfl (by simp) (.message m c) rfl (by rw [hphase]; rfl)
    (by simp [pendingResult]) (h.thread u).holds
  rw [setHolds_self (by simp)] at hrep
  refine ⟨_, ?_, ⟨hrep, h.inv.send_receiver hep m c, h.bound_zero⟩, hcpus, rfl⟩
  simp only [ipcSend, hstate, decideSend, hdeq]
  exact bind_ok hunb rfl

section

variable (hexe : k.Executes cpu t) (hrun : a.phase t = .running)
include hexe hrun

theorem send_waiting (hep : a.ep e = .waiting l) (m : Msg) (c : UInt64)
    (hparked : l = [] → w.waiter e ≠ 0 → w.parked (w.waiter e)) :
    ∃ k', k.ipcSend cpu e m c = .ok (k', .blocked) ∧
      Sim (w.issue a (.send e m c)) k'
        ((a.setEp e (.waiting (l ++ [⟨t, m, c, none⟩]))).setPhase t (.sending e)) ∧
      k.SameCpus k' := by
  have hstate := (h.ep e).state
  rw [hep] at hstate
  have hinv := h.inv.send_waiting hrun hep m c
  cases l with
  | nil =>
    obtain ⟨k4, k', hwake, hblk, hcpus, hrep⟩ := h.toRep.park_wake hexe (h.not_queued hexe)
      (fun s => { s with
        ipcMsg := m, ipcCallerToken := c, ipcWaitKind := some .send, ipcBlockedOn := e })
      rfl (p := .sending e) (q := .waiting (_ ++ [⟨t, m, c, none⟩])) rfl rfl (by simp [hep])
      (entry_append hep ⟨rfl, rfl, rfl, by simp⟩) (by simp) hrun (hparked rfl)
    refine ⟨k', ?_, ?_, hcpus⟩
    · simp only [ipcSend, hstate, state, decideSend]
      exact bind_ok hexe.currentTcbKva (bind_ok hwake (bind_ok hblk rfl))
    · simp only [Watch.issue, Watch.readied, hep, EpQueue.state, if_true]
      exact ⟨hrep, hinv, h.bound_zero⟩
  | cons x l =>
    obtain ⟨k', hblk, hcpus, hrep⟩ := h.toRep.park hexe (h.not_queued hexe)
      (fun s => { s with
        ipcMsg := m, ipcCallerToken := c, ipcWaitKind := some .send, ipcBlockedOn := e })
      rfl (p := .sending e) (q := .waiting (_ ++ [⟨t, m, c, none⟩])) rfl rfl (by simp [hep])
      (entry_append hep ⟨rfl, rfl, rfl, by simp⟩) (by simp)
    refine ⟨k', ?_, ?_, hcpus⟩
    · simp only [ipcSend, hstate, state, decideSend]
      exact bind_ok hexe.currentTcbKva (bind_ok rfl (bind_ok hblk rfl))
    · simp only [Watch.issue, Watch.readied, hep, EpQueue.state, reduceCtorEq, if_false]
      exact ⟨hrep, hinv, h.bound_zero⟩

theorem ipcSend (e : Kva) (m : Msg) (c : UInt64) (hwake : w.Wakeable a (.send e m c)) :
    ∃ k', k.ipcSend cpu e m c = .ok (k', (a.send t e m c).2) ∧
      Sim (w.issue a (.send e m c)) k' (a.send t e m c).1 ∧ k.SameCpus k' := by
  unfold send
  match hep : a.ep e with
  | .receiver u =>
    have hsame : w.issue a (.send e m c) = w := by
      simp [Watch.issue, Watch.readied, hep, EpQueue.state]
    rw [hsame]
    exact h.send_receiver hep m c
  | .waiting l =>
    refine h.send_waiting hexe hrun hep m c fun hl => hwake e ?_
    simp [readied, hep, hl, state]

/-! ## Receive -/

theorem recv_park (hholds : a.holds t = none) (hep : a.ep e = .waiting []) :
    ∃ k', k.ipcReceive cpu e = .ok (k', .blocked) ∧
      Sim w k' ((a.setEp e (.receiver t)).setPhase t (.receiving e)) ∧ k.SameCpus k' := by
  have hstate : (k.endpoint e).state = .idle := by rw [(h.ep e).state, hep]; rfl
  obtain ⟨k', hblk, hcpus, hrep⟩ := h.toRep.park hexe (h.not_queued hexe) (e := e)
    (fun r => { r with ipcWaitKind := some .receive, ipcBlockedOn := e })
    rfl (p := .receiving e) rfl rfl (q := .receiver t) (by simp [hep])
    (by simp) fun v hv => ⟨(receiver.inj hv).symm, rfl⟩
  refine ⟨k', ?_, ⟨hrep, h.inv.recv_park hrun hholds hep, h.bound_zero⟩, hcpus⟩
  refine bind_ok hexe.currentTcbKva ?_
  simp only [h.currentReplyKva_bne, hholds, hstate, decideReceive, isSome_none,
    Bool.false_eq_true, if_false]
  exact bind_ok hblk rfl

end

/-- What `ipc_receive` sees at the head of a non-empty message queue. -/
theorem headObservation_waiting (hep : a.ep e = .waiting (x :: l)) :
    k.headObservation e = (some x.kind, !l.isEmpty) := by
  have hstate : (k.endpoint e).state = .hasWaiters := by rw [(h.ep e).state, hep]; rfl
  have hq : k.QueueIs e (x.thread :: l.map Entry.thread) := by
    have hq := h.queues.queueIs e
    rw [hep] at hq
    exact hq
  have hhead : (k.endpoint e).queueHead = x.thread := hq.head_cons
  have hne : x.thread ≠ 0 := hq.ne_null _ mem_cons_self
  have hkind := ((h.ep e).entry x (by rw [hep]; exact mem_cons_self)).kind
  have hnext : (k.tcb x.thread).ipcQueueNext = 0 ↔ l.map Entry.thread = [] := hq.next_head
  simp only [headObservation, hstate, hhead, if_true, hkind, if_pos hne, Prod.mk.injEq,
    true_and]
  cases l with
  | nil => simp [hnext.mpr rfl]
  | cons y ys => simpa using mt hnext.mp (by simp)

section

variable (hexe : k.Executes cpu t) (hrun : a.phase t = .running)
include hexe hrun

theorem recv_send
    (hholds : a.holds t = none) (hep : a.ep e = .waiting (x :: l)) (hr : x.reply = none) :
    ∃ k', k.ipcReceive cpu e = .ok (k', .returned (.message x.msg x.token)) ∧
      Sim w k' ((a.setEp e (.waiting l)).setPhase x.thread (.woken .done)) ∧ k.SameCpus k' := by
  have hstate : (k.endpoint e).state = .hasWaiters := by rw [(h.ep e).state, hep]; rfl
  have hhead : (a.ep e).threads = x.thread :: l.map Entry.thread := by rw [hep]; rfl
  have hxe : x ∈ (a.ep e).entries := by rw [hep]; exact mem_cons_self
  have hmem := mem_threads_of_mem_entries hxe
  have hxt : x.thread ≠ t := fun heq => h.not_queued hexe e (heq ▸ hmem)
  have hcarries := (h.ep e).entry x hxe
  have hphase : a.phase x.thread = .sending e := by
    rw [h.inv.entry_phase e x hxe]
    simp [Entry.phaseAt, hr]
  obtain ⟨hdeq, -⟩ := h.queues.dequeue hhead
  obtain ⟨s, hunb, hcpus, hrep⟩ := h.toRep.deliver hhead (h.mem_threads_blocked hmem)
    (fun b => { b with ipcWaitKind := none, ipcBlockedOn := 0 })
    (l := l) (x := a.holds x.thread) rfl (fun y hy => by
      rw [hep]; exact mem_cons_of_mem _ hy) .done rfl (by rw [hphase]; rfl) rfl
    (h.thread x.thread).holds
  rw [setHolds_self (by simp)] at hrep
  have hrep' := hrep.write (t := t) hexe.registered (by simpa [hxt.symm] using hrun)
    (not_mem_threads_setEp (h.not_queued hexe) (fun v hv => by
      rw [hhead]; exact mem_cons_of_mem _ hv))
    (fun r => { r with lastCallerToken := x.token }) (x := a.holds t)
    (by simpa [hxt.symm] using (h.thread t).holds)
  rw [setHolds_self (by simp)] at hrep'
  refine ⟨_, ?_, ⟨hrep', h.inv.recv_send hep hr, h.bound_zero⟩, hcpus, rfl⟩
  refine bind_ok hexe.currentTcbKva ?_
  simp only [h.headObservation_waiting hep, h.currentReplyKva_bne, hholds, hstate,
    decideReceive, Entry.kind, hr, isSome_none, Bool.false_eq_true, if_false, hdeq,
    state_of_more, unlinkHead_tcb, hcarries.msg, hcarries.token]
  refine bind_ok (unblockThread_congr hunb rfl rfl) ?_
  simp only [updEp_tcb, setSched_tcb, updTcb_tcb, if_true]
  rfl

theorem recv_call
    (hholds : a.holds t = none) (hep : a.ep e = .waiting (x :: l)) (hr : x.reply = some r) :
    ∃ k', k.ipcReceive cpu e = .ok (k', .returned (.message x.msg x.token)) ∧
      Sim w k' (((a.setEp e (.waiting l)).setPhase x.thread (.awaiting r)).setHolds t (some r)) ∧
      k.SameCpus k' := by
  have hstate : (k.endpoint e).state = .hasWaiters := by rw [(h.ep e).state, hep]; rfl
  have hhead : (a.ep e).threads = x.thread :: l.map Entry.thread := by rw [hep]; rfl
  have hxe : x ∈ (a.ep e).entries := by rw [hep]; exact mem_cons_self
  have hmem := mem_threads_of_mem_entries hxe
  have hxt : x.thread ≠ t := fun heq => h.not_queued hexe e (heq ▸ hmem)
  have hcarries := (h.ep e).entry x hxe
  have hphase : a.phase x.thread = .calling e r := by
    rw [h.inv.entry_phase e x hxe]
    simp [Entry.phaseAt, hr]
  obtain ⟨hdeq, -⟩ := h.queues.dequeue hhead
  have hout : ¬ w.parked x.thread := h.toRep.not_parked (p := .call) (by rw [hphase]; rfl)
  -- the caller stays Blocked: only its TCB and the queue change
  have hrep := h.toRep.pop hhead (fun b => { b with ipcWaitKind := none, ipcCallReplyKva := 0 })
    h.table (fun _ _ => Iff.rfl) (l := l) rfl
    (fun y hy => by rw [hep]; exact mem_cons_of_mem _ hy) (p := .awaiting r)
    (x := a.holds x.thread) ⟨(h.thread x.thread).blocked.trans (by
      simp [hphase, Phase.isBlocked]), fun hw => absurd hw hout, by
      simpa [hphase, Phase.pending] using (h.thread x.thread).pending, by simp, by
      simpa using (h.thread x.thread).holds, absurd (h.mem_threads_blocked hmem).registered⟩
  rw [setHolds_self (by simp)] at hrep
  have hrep' := hrep.write (t := t) hexe.registered (by simpa [hxt.symm] using hrun)
    (not_mem_threads_setEp (h.not_queued hexe) (fun v hv => by
      rw [hhead]; exact mem_cons_of_mem _ hv))
    (fun b => { b with currentReplyKva := r, lastCallerToken := x.token }) (x := some r) rfl
  refine ⟨_, ?_, ⟨hrep', h.inv.recv_call hrun hholds hep hr, h.bound_zero⟩, rfl, rfl⟩
  refine bind_ok hexe.currentTcbKva ?_
  simp only [h.headObservation_waiting hep, h.currentReplyKva_bne, hholds, hstate,
    decideReceive, Entry.kind, hr, isSome_none, Bool.false_eq_true, if_false, hdeq,
    state_of_more, unlinkHead_tcb, hcarries.msg, hcarries.token, hcarries.reply r hr,
    updEp_tcb, updTcb_tcb, if_true]
  rfl

theorem ipcReceive (e : Kva) :
    ∃ k', k.ipcReceive cpu e = .ok (k', (a.recv t e).2) ∧
      Sim w k' (a.recv t e).1 ∧ k.SameCpus k' := by
  unfold recv
  by_cases hholds : (a.holds t).isSome
  · rw [if_pos hholds]
    refine ⟨k, bind_ok hexe.currentTcbKva ?_, h, rfl, rfl⟩
    simp only [h.currentReplyKva_bne, hholds, decideReceive, if_true]
    rfl
  · rw [if_neg hholds]
    have hnone : a.holds t = none := by simpa using hholds
    match hep : a.ep e with
    | .receiver u =>
      have hstate : (k.endpoint e).state = .hasReceiver := by rw [(h.ep e).state, hep]; rfl
      refine ⟨k, bind_ok hexe.currentTcbKva ?_, h, rfl, rfl⟩
      simp only [h.currentReplyKva_bne, hnone, hstate, decideReceive, isSome_none,
        Bool.false_eq_true, if_false]
      rfl
    | .waiting [] => exact h.recv_park hexe hrun hnone hep
    | .waiting (x :: l) => grind [h.recv_call, h.recv_send]

theorem ipcReceiveNb (e : Kva) :
    ∃ k', k.ipcReceiveNb cpu e = .ok (k', (a.recvNb t e).2) ∧
      Sim w k' (a.recvNb t e).1 ∧ k.SameCpus k' := by
  have hstate := (h.ep e).state
  unfold Rendezvous.recvNb Kernel.ipcReceiveNb
  match hep : a.ep e with
  | .receiver u =>
    rw [if_pos (by simp [hstate, hep, state])]
    exact ⟨k, rfl, h, rfl, rfl⟩
  | .waiting [] =>
    rw [if_pos (by simp [hstate, hep, state])]
    exact ⟨k, rfl, h, rfl, rfl⟩
  | .waiting (x :: l) =>
    rw [if_neg (by simp [hstate, hep, state])]
    exact h.ipcReceive hexe hrun e

end

/-! ## Call -/

theorem reply_fresh_iff (r : Kva) : ((k.reply r).state == .fresh) = (a.bound r).isNone := by
  rw [h.reply r]
  cases a.bound r <;> rfl

section

variable (hexe : k.Executes cpu t) (hrun : a.phase t = .running)
include hexe hrun

theorem call_receiver
    (hr : r ≠ 0) (hbound : a.bound r = none) (hep : a.ep e = .receiver u) (m : Msg) (c : UInt64) :
    ∃ k', k.ipcCall cpu e r m c = .ok (k', .blocked) ∧
      Sim w k' (((((a.setBound r (some t)).setEp e (.waiting [])).setPhase u
        (.woken (.message m c))).setHolds u (some r)).setPhase t (.awaiting r)) ∧
      k.SameCpus k' := by
  have hstate : (k.endpoint e).state = .hasReceiver := by rw [(h.ep e).state, hep]; rfl
  have hhead : (a.ep e).threads = [u] := by rw [hep]; rfl
  have hmem : u ∈ (a.ep e).threads := by rw [hhead]; exact mem_singleton_self u
  have hut : t ≠ u := fun heq => h.not_queued hexe e (heq ▸ hmem)
  have hphase := (h.inv.receiver_iff e u).mp hep
  have hrep := h.toRep.updReply r (some t)
  obtain ⟨hdeq, -⟩ := hrep.queues.dequeue hhead
  obtain ⟨s, hunb, hcpus, hrep⟩ := hrep.deliver hhead (h.mem_threads_blocked hmem)
    (fun b => { b with ipcMsg := m, lastCallerToken := c, ipcWaitKind := none,
                       currentReplyKva := r, ipcBlockedOn := 0 })
    (l := []) (x := some r) rfl (by simp) (.message m c) rfl
    (by rw [setBound_phase, hphase]; rfl)
    (by simp [pendingResult]) rfl
  have hexe' : Kernel.Executes _ cpu t := (executes_iff hrep.table).mpr
    ⟨Kernel.SameCpus.onCpu ⟨hcpus, rfl⟩ ((executes_iff h.table).mp hexe).1, fun hb => by
      simpa [hut, hrun, Phase.isBlocked, h.toRep.not_parked_of_executes hexe] using
        (hrep.thread t).blocked.mp hb⟩
  obtain ⟨k', hblk, hcpus', hrep⟩ := hrep.block hexe'
    (not_mem_threads_setEp (h.not_queued hexe) (by simp))
    (fun b => { b with ipcBlockedOn := e }) rfl (p := .awaiting r) rfl rfl
  refine ⟨k', ?_, ⟨hrep, h.inv.call_receiver hrun hbound hep m c,
    by simpa [hr.symm] using h.bound_zero⟩, hcpus'.1.trans hcpus, hcpus'.2⟩
  simp only [ipcCall, h.reply_fresh_iff, hbound, hstate, decideCall, isNone_none,
    Bool.not_true, Bool.false_eq_true, if_false]
  refine bind_ok hexe.currentTcbKva ?_
  simp only [ReplyObject.ofBound] at hdeq
  simp only [hdeq]
  exact bind_ok hunb (bind_ok hblk rfl)

theorem call_waiting
    (hr : r ≠ 0) (hbound : a.bound r = none) (hep : a.ep e = .waiting l) (m : Msg) (c : UInt64)
    (hparked : l = [] → w.waiter e ≠ 0 → w.parked (w.waiter e)) :
    ∃ k', k.ipcCall cpu e r m c = .ok (k', .blocked) ∧
      Sim (w.issue a (.call e r m c)) k'
        (((a.setBound r (some t)).setEp e (.waiting (l ++ [⟨t, m, c, some r⟩]))).setPhase t
          (.calling e r)) ∧ k.SameCpus k' := by
  have hstate := (h.ep e).state
  rw [hep] at hstate
  have hinv := h.inv.call_waiting hrun hbound hep m c
  have hzero : ((a.setBound r (some t)).setEp e
      (.waiting (l ++ [⟨t, m, c, some r⟩]))).bound 0 = none := by
    simpa [hr.symm] using h.bound_zero
  have hrep0 := h.toRep.updReply r (some t)
  cases l with
  | nil =>
    obtain ⟨k4, k', hwake, hblk, hcpus, hrep⟩ := hrep0.park_wake (t := t) hexe
      (h.not_queued hexe)
      (fun b => { b with ipcMsg := m, ipcCallerToken := c, ipcWaitKind := some .call,
                         ipcCallReplyKva := r, ipcBlockedOn := e })
      rfl (p := .calling e r) (q := .waiting (_ ++ [⟨t, m, c, some r⟩])) rfl rfl (by simp [hep])
      (entry_append hep ⟨rfl, rfl, rfl, by simp⟩) (by simp) hrun (hparked rfl)
    refine ⟨k', ?_, ?_, hcpus⟩
    · simp only [ipcCall, h.reply_fresh_iff, hbound, hstate, state, decideCall,
        isNone_none, Bool.not_true, Bool.false_eq_true, if_false]
      exact bind_ok hexe.currentTcbKva (bind_ok hwake (bind_ok hblk rfl))
    · simp only [Watch.issue, Watch.readied, hep, hbound, EpQueue.state, isNone_none,
        and_self, if_true]
      exact ⟨hrep, hinv, hzero⟩
  | cons x l =>
    obtain ⟨k', hblk, hcpus, hrep⟩ := hrep0.park (t := t) hexe (h.not_queued hexe)
      (fun b => { b with ipcMsg := m, ipcCallerToken := c, ipcWaitKind := some .call,
                         ipcCallReplyKva := r, ipcBlockedOn := e })
      rfl (p := .calling e r) (q := .waiting (_ ++ [⟨t, m, c, some r⟩])) rfl rfl (by simp [hep])
      (entry_append hep ⟨rfl, rfl, rfl, by simp⟩) (by simp)
    refine ⟨k', ?_, ?_, hcpus⟩
    · simp only [ipcCall, h.reply_fresh_iff, hbound, hstate, state, decideCall,
        isNone_none, Bool.not_true, Bool.false_eq_true, if_false]
      exact bind_ok hexe.currentTcbKva (bind_ok rfl (bind_ok hblk rfl))
    · simp only [Watch.issue, Watch.readied, hep, EpQueue.state, reduceCtorEq, and_false,
        if_false]
      exact ⟨hrep, hinv, hzero⟩

theorem ipcCall (e : Kva)
    (hr : r ≠ 0) (m : Msg) (c : UInt64) (hwake : w.Wakeable a (.call e r m c)) :
    ∃ k', k.ipcCall cpu e r m c = .ok (k', (a.call t e r m c).2) ∧
      Sim (w.issue a (.call e r m c)) k' (a.call t e r m c).1 ∧ k.SameCpus k' := by
  unfold Rendezvous.call
  by_cases hb : (a.bound r).isSome
  · have hnone : (a.bound r).isNone = false := by simpa [isSome_iff_ne_none] using hb
    have hsame : w.issue a (.call e r m c) = w := by
      simp [Watch.issue, Watch.readied, hnone]
    rw [if_pos hb, hsame]
    refine ⟨k, ?_, h, rfl, rfl⟩
    simp only [Kernel.ipcCall, h.reply_fresh_iff, hnone, decideCall, Bool.not_false, if_true]
  · rw [if_neg hb]
    have hnone : a.bound r = none := by simpa using hb
    match hep : a.ep e with
    | .receiver u =>
      have hsame : w.issue a (.call e r m c) = w := by
        simp [Watch.issue, Watch.readied, hep, EpQueue.state]
      rw [hsame]
      exact h.call_receiver hexe hrun hr hnone hep m c
    | .waiting l =>
      refine h.call_waiting hexe hrun hr hnone hep m c fun hl => hwake e ?_
      simp [Watch.readied, hnone, hep, hl, EpQueue.state]

end

/-! ## Reply -/

/-- A caller whose call was received is on no queue. -/
theorem not_queued_of_awaiting (hc : a.phase c = .awaiting r) (e : Kva) : c ∉ (a.ep e).threads := by
  intro hmem
  cases hep : a.ep e with
  | waiting l =>
    rw [hep] at hmem
    obtain ⟨x, hx, rfl⟩ := mem_map.mp hmem
    have hphase := h.inv.entry_phase e x (by rw [hep]; exact hx)
    rw [hc] at hphase
    cases hr : x.reply <;> simp [Entry.phaseAt, hr] at hphase
  | receiver v =>
    rw [hep] at hmem
    obtain rfl := mem_singleton.mp hmem
    have hphase := (h.inv.receiver_iff e c).mp hep
    rw [hc] at hphase
    cases hphase

section

variable (hexe : k.Executes cpu t) (hrun : a.phase t = .running)
include hexe hrun

theorem reply_deliver (hholds : a.holds t = some r) (hbound : a.bound r = some c) (m : Msg) :
    ∃ k', k.ipcReply cpu m = .ok (k', .returned .done) ∧
      Sim w k' (((a.setPhase c (.woken (.replied m))).setBound r none).setHolds t none) ∧
      k.SameCpus k' := by
  have hc := h.inv.awaiting_of_holds hholds hbound
  have hct : t ≠ c := by
    rintro rfl
    rw [hrun] at hc
    cases hc
  have hreply : (k.tcb t).currentReplyKva = r := by rw [(h.thread t).holds, hholds]; rfl
  have hobj : k.reply r = ⟨.bound, c⟩ := by rw [h.reply r, hbound]; rfl
  obtain ⟨s, hunb, hcpus, hrep⟩ := h.toRep.wake (u := c)
    ((h.thread c).blocked.mpr (Or.inl (by rw [hc]; rfl))) (h.not_queued_of_awaiting hc)
    (fun b => { b with ipcMsg := m, ipcBlockedOn := 0 }) (.replied m) rfl
    (by rw [hc]; rfl) (by simp [pendingResult]) rfl
  have hrep' := (hrep.updReply r none).write (t := t) hexe.registered (by simpa [hct] using hrun)
    (h.not_queued hexe) (fun b => { b with currentReplyKva := 0 }) (x := none) rfl
  refine ⟨_, ?_, ⟨hrep', h.inv.reply_deliver hholds hbound m, ?_⟩, hcpus, rfl⟩
  · refine bind_ok hexe.currentTcbKva ?_
    have hr : (r != 0) = true := by simpa using h.holds_ne_zero hholds
    simp only [hreply, hr, hobj, if_true, decideReply, Bool.not_true, Bool.false_eq_true, if_false,
      beq_self_eq_true]
    exact bind_ok hunb rfl
  · have hr : (0 : Kva) ≠ r := (h.holds_ne_zero hholds).symm
    simpa [hr] using h.bound_zero

theorem ipcReply (m : Msg) :
    ∃ k', k.ipcReply cpu m = .ok (k', (a.reply t m).2) ∧
      Sim w k' (a.reply t m).1 ∧ k.SameCpus k' := by
  unfold Rendezvous.reply
  cases hholds : a.holds t with
  | none =>
    refine ⟨k, bind_ok hexe.currentTcbKva ?_, h, rfl, rfl⟩
    simp only [h.currentReplyKva_bne, hholds, isSome_none, decideReply, Bool.not_false,
      if_true]
    rfl
  | some r =>
    -- a held Reply is bound, so the second NoCaller exit is never taken
    obtain ⟨c, hc⟩ := h.inv.holds_awaiting t r hholds
    have hbound := (h.inv.bound_iff r c).mpr (Or.inr hc)
    simpa only [hbound] using h.reply_deliver hexe hrun hholds hbound m

/-! ## One action -/

/-- Any operation a thread can issue. -/
theorem ipc (op : Op Kva Kva Msg UInt64) (hcall : ∀ e r m c, op = .call e r m c → r ≠ 0)
    (hwake : w.Wakeable a op) :
    ∃ k', k.ipc cpu op = .ok (k', (a.issue t op).2) ∧
      Sim (w.issue a op) k' (a.issue t op).1 ∧ k.SameCpus k' := by
  cases op with
  | send e m c => exact h.ipcSend hexe hrun e m c hwake
  | recv e => exact h.ipcReceive hexe hrun e
  | recvNb e => exact h.ipcReceiveNb hexe hrun e
  | call e r m c => exact h.ipcCall hexe hrun e (hcall e r m c rfl) m c hwake
  | reply m => exact h.ipcReply hexe hrun m

end

/-- A woken thread that is back on a CPU returns the result the machine holds for it. -/
theorem resume (hexe : k.Executes cpu t) (hpending : k.pending t ≠ none) :
    ∃ res p, a.phase t = .woken res ∧ k.pending t = some p ∧ k.pendingResult t p = res ∧
      Sim w (k.setPending t none) (a.setPhase t .running) := by
  have hnot : (a.phase t).isBlocked ≠ true := fun hb =>
    hexe.not_blocked h.table ((h.thread t).blocked.mpr (Or.inl hb))
  obtain ⟨p, hp⟩ := ne_none_iff_exists'.mp hpending
  have hphase : (a.phase t).pending = some p := (h.thread t).pending.symm.trans hp
  obtain ⟨res, hres⟩ : ∃ res, a.phase t = .woken res := by
    cases hph : a.phase t with
    | running => simp [hph, Phase.pending] at hphase
    | woken res => exact ⟨res, rfl⟩
    | _ => simp [hph, Phase.isBlocked] at hnot
  refine ⟨res, p, hres, hp, (h.thread t).woken res p hres hphase,
    ⟨h.table, h.queues.congr (fun _ => rfl) fun _ => ⟨rfl, rfl⟩, fun v => ?_, fun e => ?_, h.reply⟩,
    h.inv.resume hres, h.bound_zero⟩
  · by_cases hv : v = t
    · subst hv
      refine ⟨(h.thread v).blocked.trans ?_, fun _ => by simp, by simp [Phase.pending], by simp,
        (h.thread v).holds, absurd hexe.registered⟩
      simp [hres, Phase.isBlocked]
    · exact (h.thread v).congr (by simp [hv]) rfl rfl (by simp [hv]) Iff.rfl id
  · exact (h.ep e).congr rfl rfl rfl fun _ _ => rfl

/-- Scheduling changes nothing the machine can see. -/
theorem setSched {s : SchedState} (hinv : s.Inv)
    (hsame : SchedSteps.SameBlocked k.sched s) : Sim w (k.setSched s) a := by
  have hbl : ∀ v, (k.setSched s).Blocked v ↔ k.Blocked v := hsame.blockedIn_iff
  exact ⟨⟨Table.of_sameBlocked h.table hinv (fun j => (hsame j).1) fun j => (hsame j).2.2.mp,
    h.queues.congr (fun _ => rfl) fun _ => ⟨rfl, rfl⟩,
    fun v => (h.thread v).congr rfl rfl rfl rfl (hbl v) id,
    fun e => (h.ep e).congr rfl rfl rfl fun _ _ => rfl, h.reply⟩, h.inv, h.bound_zero⟩

theorem schedOp {op : SchedState.SchedOp} {k' : Kernel}
    (hsame : ∀ s out, k.sched.exec op = .ok (s, out) → s.Inv ∧ SchedSteps.SameBlocked k.sched s)
    (hexec : k.schedOp op = .ok k') : Sim w k' a := by grind [h.setSched, schedOp]

/-- A thread with a fresh TCB joins the machine idle. -/
theorem addThread {k' : Kernel} (ht : t ≠ 0) (hfree : ¬ k.Registered t)
    (hexec : k.addThread t = .ok k') : Sim w k' a := by
  obtain rfl | ⟨i, s, st, hi, hinv, hst, hst', hget, rfl⟩ := addThread_spec h.table hexec
  · exact h
  have hfree' : ∀ j, k.threads j ≠ some t := fun j hj => hfree ⟨j, hj⟩
  have hbl : ∀ v, (k.register t i s).Blocked v ↔ k.Blocked v :=
    fun v => blockedIn_register hget hst hi
  have hidle := (h.thread t).unregistered hfree
  have hqueued : ∀ e, t ∉ (a.ep e).threads := fun e hmem =>
    hfree (h.mem_threads_blocked hmem).registered
  have htcb : ∀ v, v ≠ t → (k.register t i s).tcb v = k.tcb v := fun v hv => by
    simp [register, hv]
  refine ⟨⟨Table.register hget h.table hinv hst' ht hfree', ⟨fun e => ?_, h.queues.disjoint⟩,
    fun v => ?_, fun e => ?_, h.reply⟩, h.inv, h.bound_zero⟩
  · refine (h.queues.queueIs e).congr fun v hv => ?_
    have hvt : v ≠ t := fun heq => hqueued e (heq ▸ hv)
    simp only [nextOf, htcb v hvt]
  · by_cases hv : v = t
    · subst hv
      refine ⟨(hbl v).trans (h.thread v).blocked, (h.thread v).parked, (h.thread v).pending,
        by simp [hidle.1], ?_, fun _ => hidle⟩
      rw [hidle.2]
      simp [register, Tcb.zeroed]
    · refine (h.thread v).congr rfl rfl (by rw [htcb v hv]) rfl (hbl v) ?_
      rintro ⟨j, hj⟩
      have hji : j.val ≠ i.val := fun heq => by
        rw [Fin.ext heq, hi] at hj
        cases hj
      exact ⟨j, by simpa [register, hji] using hj⟩
  · refine (h.ep e).congr rfl rfl rfl fun v hv => ?_
    have hvt : v ≠ t := fun heq => hqueued e (heq ▸ hv)
    rw [htcb v hvt]

end

end Sim

/-! ## Whole runs -/

theorem Sim.boot : Sim .empty boot init where
  table := ⟨SchedState.inv_newConst, fun _ => by simp [Kernel.boot], fun _ _ _ hi => by
    simp [Kernel.boot] at hi, fun _ _ hi => by simp [Kernel.boot] at hi,
    fun _ => by simp [Kernel.boot]⟩
  queues := ⟨fun _ => Lib.IsQueue.empty _ 0, fun _ _ _ hu => by
    simp [init] at hu⟩
  thread := fun _ => ⟨by simp [Kernel.boot, Kernel.Blocked, BlockedIn, Rendezvous.init,
    Phase.isBlocked, empty], fun _ => rfl, rfl, by simp [init], rfl,
    fun _ => ⟨rfl, rfl⟩⟩
  ep := fun _ => ⟨rfl, rfl, fun _ hx => by simp [init] at hx,
    fun _ hr => by simp [init] at hr⟩
  reply := fun _ => rfl
  inv := inv_init
  bound_zero := rfl

variable {w : Watch} {k k' : Kernel} {a : Spec}

variable {ev : Option (Event Kva Kva Kva Msg UInt64)} {act : Kernel.Action}

theorem Sim.schedAction (h : Sim w k a) {op : SchedState.SchedOp}
    (hsame : ∀ s out, k.sched.exec op = .ok (s, out) → s.Inv ∧ SchedSteps.SameBlocked k.sched s)
    (hexec : (do let k ← k.schedOp op; pure (k, none)) = Except.ok (k', ev)) :
    ev = none ∧ Sim w k' a := by
  cases hop : k.schedOp op with
  | error p => simp [hop, bind, Except.bind] at hexec
  | ok k2 =>
    simp only [hop, bind, Except.bind, pure, Except.pure, Except.ok.injEq,
      Prod.mk.injEq] at hexec
    obtain ⟨rfl, rfl⟩ := hexec
    exact ⟨rfl, h.schedOp hsame hop⟩

/-- One action of the kernel is at most one step of the machine, with the same event. -/
theorem Sim.exec (h : Sim .empty k a) (henabled : k.Enabled act)
    (hexec : k.exec act = .ok (k', ev)) :
    (ev = none ∧ Sim .empty k' a) ∨
      ∃ ev' a', ev = some ev' ∧ Rendezvous.Step a ev' a' ∧ Sim .empty k' a' := by
  cases act with
  | issue cpu op =>
    obtain ⟨t, hexe, hpending, hcall⟩ := henabled
    have hrun := h.phase_running hpending
    obtain ⟨k2, hipc, hsim, -⟩ := h.ipc hexe hrun op hcall (Watch.wakeable_empty a op)
    rw [Watch.issue_empty] at hsim
    simp only [Kernel.exec, hexe.currentTcbKva, hipc, bind, Except.bind, pure, Except.pure,
      Except.ok.injEq, Prod.mk.injEq] at hexec
    obtain ⟨rfl, rfl⟩ := hexec
    exact Or.inr ⟨_, _, rfl, .issue op hrun, hsim⟩
  | resume cpu =>
    obtain ⟨t, hexe, hpending⟩ := henabled
    obtain ⟨res, p, hwoken, hp, hres, hsim⟩ := h.resume hexe hpending
    simp only [Kernel.exec, hexe.currentTcbKva, hp, hres, bind, Except.bind, pure, Except.pure,
      Except.ok.injEq, Prod.mk.injEq] at hexec
    obtain ⟨rfl, rfl⟩ := hexec
    exact Or.inr ⟨_, _, rfl, .resume hwoken, hsim⟩
  | preempt cpu | parked cpu =>
    exact Or.inl (h.schedAction (fun s out hop =>
      SchedSteps.sameBlocked_step h.table.inv henabled (by simp) hop) hexec)
  | idle cpu =>
    exact Or.inl (h.schedAction (fun s out hop =>
      SchedSteps.sameBlocked_stepFromIdle h.table.inv henabled hop) hexec)
  | addThread t =>
    obtain ⟨ht, hfree⟩ := henabled
    cases hadd : k.addThread t with
    | error p => simp [Kernel.exec, hadd, bind, Except.bind] at hexec
    | ok k2 =>
      simp only [Kernel.exec, hadd, bind, Except.bind, pure, Except.pure, Except.ok.injEq,
        Prod.mk.injEq] at hexec
      obtain ⟨rfl, rfl⟩ := hexec
      exact Or.inl ⟨rfl, h.addThread ht (fun ⟨i, hi⟩ => hfree i hi) hadd⟩

/-- Without other waits the Blocked threads are those blocked in IPC. -/
theorem Sim.blocked_iff (h : Sim .empty k a) {t : Kva} :
    k.Blocked t ↔ (a.phase t).isBlocked = true :=
  (h.thread t).blocked.trans (or_iff_left id)

/-- Every run of the kernel is a run of the machine with the same events. -/
theorem Kernel.Run.sim {tr : List (Event Kva Kva Kva Msg UInt64)} (hrun : Kernel.Run tr k) :
    ∃ a, Rendezvous.Run tr a ∧ Sim .empty k a := by
  induction hrun with
  | boot => exact ⟨_, .nil, Sim.boot⟩
  | step act ev _ henabled hexec ih =>
    obtain ⟨a, hmachine, hsim⟩ := ih
    obtain ⟨rfl, hsim'⟩ | ⟨ev', a', rfl, hstep, hsim'⟩ := hsim.exec henabled hexec
    · exact ⟨a, by simpa using hmachine, hsim'⟩
    · exact ⟨a', .snoc hmachine hstep, hsim'⟩

/-- No enabled IPC action panics. -/
theorem Sim.exec_ok (h : Sim .empty k a) (henabled : k.Enabled act)
    (hact : (∃ cpu op, act = .issue cpu op) ∨ ∃ cpu, act = .resume cpu) :
    ∃ r, k.exec act = .ok r := by
  rcases hact with ⟨cpu, op, rfl⟩ | ⟨cpu, rfl⟩
  · obtain ⟨t, hexe, hpending, hcall⟩ := henabled
    obtain ⟨k2, hipc, -⟩ := h.ipc hexe (h.phase_running hpending) op hcall
      (wakeable_empty a op)
    exact ⟨_, Sim.bind_ok hexe.currentTcbKva (Sim.bind_ok hipc rfl)⟩
  · obtain ⟨t, hexe, hpending⟩ := henabled
    obtain ⟨res, p, -, hp, -⟩ := h.resume hexe hpending
    refine ⟨(k.setPending t none, some (.resume t (k.pendingResult t p))),
      Sim.bind_ok hexe.currentTcbKva ?_⟩
    simp only [hp]
    rfl

end Lockjaw.Ipc
