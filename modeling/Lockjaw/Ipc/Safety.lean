/-
  Lockjaw.Ipc.Safety

  The guarantees of kernel IPC, for every run of the kernel: the shape of the
  endpoint queues and Reply bindings in every reachable state with the absence
  of panics, and the delivery of messages and answers over whole traces.  Each
  is read off the simulation with the rendezvous machine.
-/

import Lockjaw.Ipc.Matching
import Lockjaw.Ipc.Refine
import Lockjaw.Lib.Replay

namespace Lockjaw.Ipc

open Sched Lib EpQueue

/-- The observable events of a kernel run. -/
abbrev KernelTrace := List (Event Kva Kva Kva Msg UInt64)

/-! ## Runs that can be evaluated -/

instance (s : SchedState) (op : SchedState.SchedOp) : Decidable (s.Issued op) :=
  match op with
  | .blockCurrent cpu | .step cpu _ =>
    inferInstanceAs (Decidable (∃ cur, s.tryCurrentFor cpu = some cur ∧ _))
  | .setInitialCurrent _ _ => inferInstanceAs (Decidable (_ ∧ _))
  | .stepFromIdle _ => inferInstanceAs (Decidable (_ = _))
  | .addThread | .unblock _ | .removeThread _ => isTrue trivial

namespace Kernel

variable {k : Kernel} {cpu : Fin maxCpus} {t : Kva}

def executing (k : Kernel) (cpu : Fin maxCpus) : Option Kva := do
  let idx ← k.sched.tryCurrentFor cpu
  if h : idx < maxThreads then
    if k.sched.get idx = some .running then k.threads ⟨idx, h⟩ else none
  else none

theorem executing_eq_some_iff : k.executing cpu = some t ↔ k.Executes cpu t := by
  constructor
  · intro h
    obtain ⟨idx, hcur, h⟩ := Option.bind_eq_some_iff.mp h
    split at h
    · split at h
      · exact ⟨⟨idx, ‹_›⟩, hcur, ‹_›, h⟩
      · cases h
    · cases h
  · rintro ⟨idx, hcur, hrunning, hthread⟩
    simp [executing, hcur, hrunning, hthread]

instance : Decidable (k.Executes cpu t) := decidable_of_iff _ executing_eq_some_iff

instance {p : Kva → Prop} [DecidablePred p] : Decidable (∃ t, k.Executes cpu t ∧ p t) :=
  decidable_of_iff (∃ t ∈ k.executing cpu, p t) (by simp [executing_eq_some_iff])

instance : Decidable (k.Blocked t) :=
  inferInstanceAs (Decidable (∃ _ : Fin maxThreads, _ ∧ _))

instance (op : Op Kva Kva Msg UInt64) : Decidable (∀ e r m c, op = .call e r m c → r ≠ 0) :=
  match op with
  | .call _ r _ _ => decidable_of_iff (r ≠ 0) ⟨by rintro h _ _ _ _ ⟨⟩; exact h, (· _ r _ _ rfl)⟩
  | .send _ _ _ | .recv _ | .recvNb _ | .reply _ => isTrue (by simp)

instance (act : Action) : Decidable (k.Enabled act) :=
  match act with
  | .issue cpu _ | .resume cpu => inferInstanceAs (Decidable (∃ t, k.Executes cpu t ∧ _))
  | .preempt cpu => inferInstanceAs (Decidable (k.sched.Issued (.step cpu .preempt)))
  | .parked cpu => inferInstanceAs (Decidable (k.sched.Issued (.step cpu .block)))
  | .idle cpu => inferInstanceAs (Decidable (k.sched.Issued (.stepFromIdle cpu)))
  | .addThread _ => inferInstanceAs (Decidable (_ ∧ _))

/-- Run an action and note its event. -/
def record (r : KernelTrace × Kernel) (act : Action) : Option (KernelTrace × Kernel) :=
  (r.2.exec act).toOption.map fun (k, ev) => (r.1 ++ ev.toList, k)

theorem exists_run (acts : List Action) {Q : KernelTrace → Kernel → Prop}
    (h : ∃ r ∈ replay (fun r act => decide (r.2.Enabled act)) record ([], boot) acts, Q r.1 r.2) :
    ∃ tr k, Run tr k ∧ Q tr k := by
  obtain ⟨r, hrun, hq⟩ := exists_of_replay (R := fun r => Run r.1 r.2) acts Run.boot
    (fun r r' act hrun henabled hnext => by
      obtain ⟨⟨k, ev⟩, hk, rfl⟩ := Option.map_eq_some_iff.mp hnext
      exact .step act ev hrun (of_decide_eq_true henabled) (ok_of_toOption hk)) h
  exact ⟨r.1, r.2, hrun, hq⟩

/-- Three threads, each on a CPU of its own. -/
def threeThreads : List Action := [.addThread 1, .addThread 2, .idle 1, .addThread 3, .idle 2]

/-- Thread 2 calls endpoint 10 with Reply 20, thread 1 receives the call, and
    thread 3 parks on endpoint 11. -/
def receivedCall (m : Msg) (c : UInt64) : List Action :=
  threeThreads ++ [.issue 1 (.call 10 20 m c), .issue 0 (.recv 10), .issue 2 (.recv 11)]

end Kernel

deriving instance DecidableEq for ReplyObject

/-! ## Queues and Replies in every reachable state -/

/-- Thread `t` is queued somewhere as a Call that carries Reply `r`. -/
def QueuedCall (k : Kernel) (q : Kva → List Kva) (t r : Kva) : Prop :=
  (∃ e, t ∈ q e) ∧ (k.tcb t).ipcWaitKind = some .call ∧ (k.tcb t).ipcCallReplyKva = r

/-- The kernel's IPC objects after the history `tr`; `q` are the waiter
    queues as the links spell them. -/
structure WellFormed (tr : KernelTrace) (k : Kernel) (q : Kva → List Kva) : Prop where
  queueIs : ∀ e, k.QueueIs e (q e)
  idle_iff : ∀ e, (k.endpoint e).state = .idle ↔ q e = []
  hasReceiver_iff : ∀ e, (k.endpoint e).state = .hasReceiver ↔
    ∃ t, q e = [t] ∧ (k.tcb t).ipcWaitKind = some .receive
  hasWaiters_iff : ∀ e, (k.endpoint e).state = .hasWaiters ↔
    q e ≠ [] ∧ ∀ t ∈ q e, (k.tcb t).ipcWaitKind = some .send ∨ (k.tcb t).ipcWaitKind = some .call
  queued : ∀ e, ∀ t ∈ q e, k.Blocked t ∧ (q e).count t = 1 ∧ ∀ e', t ∈ q e' → e' = e
  bound_iff : ∀ r t, k.reply r = ⟨.bound, t⟩ ↔ k.Blocked t ∧ InCall tr t r ∧
    Xor (QueuedCall k q t r) (∃! u, (k.tcb u).currentReplyKva = r)

namespace Sim

variable {k : Kernel} {a : Spec} {t r : Kva}

section

variable (h : Sim .empty k a)
include h

theorem reply_bound_iff : k.reply r = ⟨.bound, t⟩ ↔ a.bound r = some t := by
  rw [h.reply r]
  cases hb : a.bound r with
  | none => simp [ReplyObject.ofBound]
  | some c => simp [ReplyObject.ofBound]

theorem currentReplyKva_iff (hr : r ≠ 0) {u : Kva} :
    (k.tcb u).currentReplyKva = r ↔ a.holds u = some r := by
  rw [(h.thread u).holds]
  cases hu : a.holds u with
  | none => simpa using hr.symm
  | some r' => simp

theorem entry_kind {e : Kva} {l : List (Entry Kva Kva Msg UInt64)}
    (hep : a.ep e = .waiting l) (ht : t ∈ l.map Entry.thread) :
    (k.tcb t).ipcWaitKind = some .send ∨ (k.tcb t).ipcWaitKind = some .call := by
  obtain ⟨x, hx, rfl⟩ := List.mem_map.mp ht
  have hkind := ((h.ep e).entry x (by rw [hep]; exact hx)).kind
  cases hr : x.reply with
  | none => exact Or.inl (by simpa [Entry.kind, hr] using hkind)
  | some r => exact Or.inr (by simpa [Entry.kind, hr] using hkind)

/-- The caller a Reply is bound to is queued with it, or exactly one thread holds the Reply. -/
theorem xor_of_bound (hb : a.bound r = some t) :
    Xor (QueuedCall k (fun e => (a.ep e).threads) t r) (∃! u, (k.tcb u).currentReplyKva = r) := by
  have hr : r ≠ 0 := by
    rintro rfl
    rw [h.bound_zero] at hb
    cases hb
  rcases (h.inv.bound_iff r t).mp hb with ⟨e, hphase⟩ | hphase
  · refine Or.inl ⟨?_, ?_⟩
    · obtain ⟨x, hx, rfl⟩ := h.inv.queued_entry t e (by rw [hphase]; rfl)
      have hcarries := (h.ep e).entry x hx
      have hreply : x.reply = some r := by
        have hx' := h.inv.entry_phase e x hx
        grind
      refine ⟨⟨e, mem_threads_of_mem_entries hx⟩, ?_, hcarries.reply r hreply⟩
      simpa [Entry.kind, hreply] using hcarries.kind
    · rintro ⟨u, hu, -⟩
      obtain ⟨c, hc⟩ := h.inv.holds_awaiting u r ((h.currentReplyKva_iff hr).mp hu)
      have hb' := (h.inv.bound_iff r c).mpr (Or.inr hc)
      obtain rfl := Option.some.inj (hb.symm.trans hb')
      rw [hphase] at hc
      cases hc
  · refine Or.inr ⟨?_, ?_⟩
    · obtain ⟨u, hu⟩ := h.inv.awaiting_held t r hphase
      refine ⟨u, (h.currentReplyKva_iff hr).mpr hu, fun v hv => ?_⟩
      exact h.inv.holds_injective v u r ((h.currentReplyKva_iff hr).mp hv) hu
    · rintro ⟨⟨e, hmem⟩, -⟩
      exact h.not_queued_of_awaiting hphase e hmem

theorem wellFormed {tr : KernelTrace} (hist : Hist tr a) :
    WellFormed tr k fun e => (a.ep e).threads where
  queueIs := h.queues.queueIs
  idle_iff := fun e => by
    rw [(h.ep e).state]
    cases a.ep e with
    | receiver u => simp [state]
    | waiting l => cases l <;> simp [state]
  hasReceiver_iff := fun e => by
    rw [(h.ep e).state]
    cases hep : a.ep e with
    | receiver u =>
      simp only [state, true_iff]
      exact ⟨u, rfl, (h.ep e).receiver_kind u hep⟩
    | waiting l =>
      cases l with
      | nil => simp [state]
      | cons x l =>
        simp only [state, reduceCtorEq, false_iff]
        rintro ⟨u, hu, hkind⟩
        have hmem : u ∈ (x :: l).map Entry.thread := by
          rw [show (x :: l).map Entry.thread = [u] from hu]
          exact List.mem_singleton_self u
        rcases h.entry_kind hep hmem with hk | hk <;> simp [hkind] at hk
  hasWaiters_iff := fun e => by
    rw [(h.ep e).state]
    cases hep : a.ep e with
    | receiver u =>
      have hkind := (h.ep e).receiver_kind u hep
      simp [state, hkind]
    | waiting l =>
      cases l with
      | nil => simp [state]
      | cons x l =>
        simp only [state, true_iff]
        exact ⟨by simp, fun t ht => h.entry_kind hep ht⟩
  queued := fun e t ht => ⟨h.mem_threads_blocked ht,
    List.count_eq_one_of_mem (h.queues.queueIs e).nodup ht,
    fun e' ht' => h.queues.disjoint e' e t ht' ht⟩
  bound_iff := fun r t => by
    rw [h.reply_bound_iff]
    constructor
    · grind [h.blocked_iff, h.inv, h.xor_of_bound, hist.bound_iff]
    · rintro ⟨hblocked, hcall, -⟩
      exact (hist.bound_iff h.inv).mpr ⟨h.blocked_iff.mp hblocked, hcall⟩

end

end Sim

/-- In every reachable state the endpoints, queues and Replies are well
    formed, and no IPC operation or return panics. -/
theorem ipc_wellFormed {tr : KernelTrace} {k : Kernel} (hrun : Kernel.Run tr k) :
    (∃ q, WellFormed tr k q) ∧
    (∀ cpu op, k.Enabled (.issue cpu op) → ∃ r, k.exec (.issue cpu op) = .ok r) ∧
    ∀ cpu, k.Enabled (.resume cpu) → ∃ r, k.exec (.resume cpu) = .ok r := by
  obtain ⟨a, hmachine, hsim⟩ := hrun.sim
  refine ⟨⟨_, hsim.wellFormed hmachine.hist⟩, fun cpu op henabled => ?_, fun cpu henabled => ?_⟩
  · exact hsim.exec_ok henabled (Or.inl ⟨cpu, op, rfl⟩)
  · exact hsim.exec_ok henabled (Or.inr ⟨cpu, rfl⟩)

/-- A Blocked thread is not the caller of every Reply some thread holds: here
    thread 3 is parked elsewhere while thread 1 holds the Reply of thread 2. -/
theorem bound_iff_without_caller_fails :
    ∃ tr k q r t, Kernel.Run tr k ∧ (∀ e, k.QueueIs e (q e)) ∧
      ¬ (k.reply r = ⟨.bound, t⟩ ↔
        k.Blocked t ∧ Xor (QueuedCall k q t r) (∃! u, (k.tcb u).currentReplyKva = r)) := by
  obtain ⟨tr, k, hrun, hreply, hblocked, h2, h3⟩ := Kernel.exists_run
    (Kernel.receivedCall (Vector.replicate 4 0) 0) (Q := fun _ k => k.reply 20 = ⟨.bound, 2⟩ ∧
      k.Blocked 3 ∧ (k.tcb 2).ipcWaitKind = none ∧ (k.tcb 3).ipcWaitKind = some .receive)
    (by decide +kernel)
  obtain ⟨a, hmachine, hsim⟩ := hrun.sim
  have hwf := hsim.wellFormed hmachine.hist
  refine ⟨tr, k, _, 20, 3, hrun, hwf.queueIs, fun hiff => ?_⟩
  have hnot : ∀ t, (k.tcb t).ipcWaitKind ≠ some .call →
      ¬ QueuedCall k (fun e => (a.ep e).threads) t 20 := fun t ht hq => ht hq.2.1
  have hheld : ∃! u, (k.tcb u).currentReplyKva = 20 := by
    rcases ((hwf.bound_iff 20 2).mp hreply).2.2 with ⟨hq, -⟩ | ⟨hheld, -⟩
    · exact absurd hq (hnot 2 (by simp [h2]))
    · exact hheld
  have hboth := hreply.symm.trans (hiff.mpr ⟨hblocked, Or.inr ⟨hheld, hnot 3 (by simp [h3])⟩⟩)
  cases hboth

theorem ipc_wellFormed_received_call :
    ∃ tr k, Kernel.Run tr k ∧ k.reply 20 = ⟨.bound, 2⟩ ∧ ∃ q, WellFormed tr k q := by
  obtain ⟨tr, k, hrun, hreply⟩ := Kernel.exists_run
    (Kernel.receivedCall (Vector.replicate 4 0) 0) (Q := fun _ k => k.reply 20 = ⟨.bound, 2⟩)
    (by decide +kernel)
  exact ⟨tr, k, hrun, hreply, (ipc_wellFormed hrun).1⟩

/-! ## Messages and answers over whole traces -/

/-- The message at a receive's rank is what it returns, now or as soon as its thread runs again. -/
theorem Sim.receive_returns {tr : KernelTrace} {k : Kernel} {a : Spec} (h : Sim .empty k a)
    (hist : Hist tr a) {e : Kva} {n i j : Nat} {ev : Event Kva Kva Kva Msg UInt64} {m : Msg}
    {c : UInt64} (hi : (receives e tr)[n]? = some i) (hj : (arrivals e tr)[n]? = some j)
    (hev : tr[j]? = some ev) (hmsg : ev.payload = some (m, c)) :
    Completes tr i (.message m c) ∨ ∃ t, Open tr t i ∧ ¬ k.Blocked t ∧
      k.pending t = some .receive ∧ k.pendingResult t .receive = .message m c := by
  have hres : ∀ {res}, Correct tr i res → res = .message m c := by
    intro res hcorrect
    grind [hcorrect.of_receives]
  rcases hist.receive_done h.inv hi (lt_length_of_getElem? hj) with
    ⟨res, hcompletes⟩ | ⟨t, res, hopen, hwoken⟩
  · rw [← hres (hist.completed i res hcompletes)]
    exact Or.inl hcompletes
  · obtain ⟨i', hopen', hcorrect⟩ := hist.woken t res hwoken
    obtain rfl := hopen.unique hopen'
    obtain rfl := hres hcorrect
    refine Or.inr ⟨t, hopen, fun hb => ?_, ?_, ?_⟩
    · simpa [hwoken, Phase.isBlocked] using h.blocked_iff.mp hb
    · rw [(h.thread t).pending, hwoken]
      rfl
    · exact (h.thread t).woken _ .receive hwoken (by rw [hwoken]; rfl)

/-- What the history `tr`, now in kernel state `k`, says about delivery. -/
structure Delivered (tr : KernelTrace) (k : Kernel) : Prop where
  /-- Arrivals and receives are ranked in the order they were issued. -/
  ranked : ∀ e, (arrivals e tr).Pairwise (· < ·) ∧ (receives e tr).Pairwise (· < ·)
  /-- A finished receive returned the message and the token of the arrival at its own rank. -/
  received : ∀ (e : Kva) (n i : Nat) (res : Res Msg UInt64), (receives e tr)[n]? = some i →
    Completes tr i res →
    ∃ (j : Nat) (ev : Event Kva Kva Kva Msg UInt64) (m : Msg) (c : UInt64),
      (arrivals e tr)[n]? = some j ∧ tr[j]? = some ev ∧ ev.payload = some (m, c) ∧
      res = .message m c
  /-- A finished send or call has a receive at its rank, which returned its
      message and token, or whose thread is about to. -/
  matched : ∀ (e : Kva) (n j : Nat) (ev : Event Kva Kva Kva Msg UInt64) (m : Msg) (c : UInt64)
    (res : Res Msg UInt64), (arrivals e tr)[n]? = some j → tr[j]? = some ev →
    ev.payload = some (m, c) → Completes tr j res →
    ∃ i, (receives e tr)[n]? = some i ∧
      (Completes tr i (.message m c) ∨ ∃ t, Open tr t i ∧ ¬ k.Blocked t ∧
        k.pending t = some .receive ∧ k.pendingResult t .receive = .message m c)
  /-- A finished call was refused at once, or returned the message of the one
      reply with which the thread that received it answered. -/
  answered : ∀ (t e r : Kva) (m : Msg) (c : UInt64) (out : Out Msg UInt64) (j : Nat)
    (res : Res Msg UInt64), tr[j]? = some (.issue t (.call e r m c) out) → Completes tr j res →
    (∃ err, res = .failed err) ∨
      ∃ (n i l : Nat) (ev : Event Kva Kva Kva Msg UInt64) (m' : Msg),
        (arrivals e tr)[n]? = some j ∧ (receives e tr)[n]? = some i ∧ tr[i]? = some ev ∧
        res = .replied m' ∧ Answers tr ev.thread i l m' ∧
        ∀ l' m'', Answers tr ev.thread i l' m'' → l' = l ∧ m'' = m'

/-- Messages are neither lost, duplicated, reordered nor crossed, and every
    call gets its own answer. -/
theorem ipc_delivery {tr : KernelTrace} {k : Kernel} (hrun : Kernel.Run tr k) :
    Delivered tr k := by
  obtain ⟨a, hmachine, hsim⟩ := hrun.sim
  have hist := hmachine.hist
  refine ⟨fun e => ⟨positions_pairwise _ tr, positions_pairwise _ tr⟩, ?_, ?_, ?_⟩
  · intro e n i res hi hcompletes
    exact (hist.completed i res hcompletes).of_receives hi
  · intro e n j ev m c res hj hev hmsg hcompletes
    have hlt := (hist.completed j res hcompletes).of_arrivals hj
    obtain ⟨i, hi⟩ : ∃ i, (receives e tr)[n]? = some i := ⟨_, List.getElem?_eq_getElem hlt⟩
    exact ⟨i, hi, hsim.receive_returns hist hi hj hev hmsg⟩
  · intro t e r m c out j res hev hcompletes
    refine ((hist.completed j res hcompletes).of_call hev).imp_right ?_
    rintro ⟨n, i, l, ev, m', hj, hi, hget, hans, rfl⟩
    exact ⟨n, i, l, ev, m', hj, hi, hget, rfl, hans, fun l' m'' hans' =>
      hist.answers_unique hans' hans⟩

/-- A call is received, answered and returns. -/
theorem ipc_delivery_answered_call :
    ∃ tr k, Kernel.Run tr k ∧ Delivered tr k ∧
      tr[0]? = some (.issue 2 (.call 10 20 (Vector.replicate 4 1) 7) .blocked) ∧
      Completes tr 0 (.replied (Vector.replicate 4 2)) ∧
      Answers tr 1 1 3 (Vector.replicate 4 2) := by
  obtain ⟨_, k, hrun, rfl⟩ := Kernel.exists_run
    (Kernel.receivedCall (Vector.replicate 4 1) 7 ++
      [.issue 0 (.reply (Vector.replicate 4 2)), .resume 1])
    (Q := fun tr _ => tr = [.issue 2 (.call 10 20 (Vector.replicate 4 1) 7) .blocked,
      .issue 1 (.recv 10) (.returned (.message (Vector.replicate 4 1) 7)),
      .issue 3 (.recv 11) .blocked, .issue 1 (.reply (Vector.replicate 4 2)) (.returned .done),
      .resume 2 (.replied (Vector.replicate 4 2))]) (by decide +kernel)
  refine ⟨_, k, hrun, ipc_delivery hrun, rfl, Or.inr ⟨2, 4, ⟨⟨⟨_, rfl, rfl⟩, ?_⟩, _, rfl⟩, rfl⟩,
    rfl, by decide, ?_⟩
  · -- no other event of thread 2 before it returns
    intro j ev hj hget
    obtain rfl | rfl | rfl : j = 1 ∨ j = 2 ∨ j = 3 := by
      have hlt := lt_length_of_getElem? hget
      simp at hlt
      omega
    all_goals
      cases hget
      simp [Event.thread]
  · rintro j h1j hj3 ⟨ev, e, hget, hthread, -⟩
    obtain rfl : j = 2 := by omega
    cases hget
    exact absurd hthread (by decide)

end Lockjaw.Ipc
