/-
  Lockjaw.Ipc.Represent

  How the kernel's objects represent a state of the rendezvous machine.
  `Rep w k a` reads the phases off the scheduler, the TCBs and their program
  counters, the queues off the intrusive links, and the bindings off the
  Reply objects; `w` is what IPC sees of the threads that wait elsewhere.
  The endpoint code is made of a few moves (unlink and write the head of a
  queue, wake it, link and block the running thread, bind a Reply); one
  lemma per move says which machine update it represents.
-/

import Lockjaw.Ipc.Queues
import Lockjaw.Ipc.Threads

namespace Lockjaw.Ipc

open Sched Kernel Rendezvous

/-- The machine the kernel implements. -/
abbrev Spec := Rendezvous Kva Kva Kva Msg UInt64

section Readings

variable {T E R M K : Type}

/-- The state field of an endpoint that holds this queue. -/
def EpQueue.state : EpQueue T R M K → EpState
  | .waiting [] => .idle
  | .waiting (_ :: _) => .hasWaiters
  | .receiver _ => .hasReceiver

/-- The wait kind of a queued message. -/
def Entry.kind (x : Entry T R M K) : WaitKind :=
  match x.reply with
  | none => .send
  | some _ => .call

/-- The operation a thread in this phase is inside.  No woken operation carries an error. -/
def Phase.pending : Phase E R M K → Option Pending
  | .running => none
  | .sending _ | .woken .done | .woken (.failed _) => some .send
  | .receiving _ | .woken (.message _ _) => some .receive
  | .calling _ _ | .awaiting _ | .woken (.replied _) => some .call

theorem Phase.pending_eq_none_iff {p : Phase E R M K} : p.pending = none ↔ p = .running := by
  cases p with
  | woken res => cases res <;> simp [Phase.pending]
  | _ => simp [Phase.pending]

end Readings

/-- A queued TCB carries the entry's message, token, kind and Reply. -/
structure TcbBody.Carries (b : TcbBody) (x : Entry Kva Kva Msg UInt64) : Prop where
  msg : b.ipcMsg = x.msg
  token : b.ipcCallerToken = x.token
  kind : b.ipcWaitKind = some x.kind
  reply : ∀ r, x.reply = some r → b.ipcCallReplyKva = r

def ReplyObject.ofBound : Option Kva → ReplyObject
  | none => ⟨.fresh, 0⟩
  | some t => ⟨.bound, t⟩

/-- The waits that are not IPC: the threads Blocked in one of them, and the
    thread each endpoint tells when it gets a waiter (0 = none). -/
structure Watch where
  parked : Kva → Prop
  waiter : Kva → Kva

namespace Watch

/-- Nobody waits outside IPC. -/
def empty : Watch := ⟨fun _ => False, fun _ => 0⟩

/-- Endpoint `e` wakes its readiness waiter. -/
def wake (w : Watch) (e : Kva) : Watch :=
  if w.waiter e = 0 then w
  else ⟨fun t => w.parked t ∧ t ≠ w.waiter e, Function.update w.waiter e 0⟩

@[simp] theorem wake_empty (e : Kva) : empty.wake e = empty := if_pos rfl

end Watch

/-- What the representation says about one thread. -/
structure ThreadSim (w : Watch) (k : Kernel) (a : Spec) (t : Kva) : Prop where
  blocked : k.Blocked t ↔ (a.phase t).isBlocked = true ∨ w.parked t
  parked : w.parked t → a.phase t = .running
  pending : k.pending t = (a.phase t).pending
  woken : ∀ res p, a.phase t = .woken res → (a.phase t).pending = some p →
    k.pendingResult t p = res
  holds : (k.tcb t).currentReplyKva = (a.holds t).getD 0
  unregistered : ¬ k.Registered t → a.phase t = .running ∧ a.holds t = none

/-- What the representation says about one endpoint. -/
structure EpSim (w : Watch) (k : Kernel) (a : Spec) (e : Kva) : Prop where
  state : (k.endpoint e).state = (a.ep e).state
  readiness : (k.endpoint e).readinessWaiter = w.waiter e
  entry : ∀ x ∈ (a.ep e).entries, (k.tcb x.thread).Carries x
  receiver_kind : ∀ t, a.ep e = .receiver t → (k.tcb t).ipcWaitKind = some .receive

/-- The kernel state `k` represents the abstract state `a`. -/
structure Rep (w : Watch) (k : Kernel) (a : Spec) : Prop where
  table : k.TableOk
  queues : k.Queues fun e => (a.ep e).threads
  thread : ∀ t, ThreadSim w k a t
  ep : ∀ e, EpSim w k a e
  reply : ∀ r, k.reply r = ReplyObject.ofBound (a.bound r)

/-- The simulation: a represented state that satisfies the machine's
    invariant.  No Reply lives at the null address. -/
structure Sim (w : Watch) (k : Kernel) (a : Spec) : Prop extends Rep w k a where
  inv : a.Inv
  bound_zero : a.bound 0 = none

/-! ## Frames -/

variable {w : Watch} {k' : Kernel} {a' : Spec}

/-- A thread whose TCB, phase and scheduling are untouched. -/
theorem ThreadSim.congr {k : Kernel} {a : Spec} {t : Kva} (h : ThreadSim w k a t)
    (hphase : a'.phase t = a.phase t) (hholds : a'.holds t = a.holds t)
    (hbody : (k'.tcb t).toTcbBody = (k.tcb t).toTcbBody) (hpending : k'.pending t = k.pending t)
    (hblocked : k'.Blocked t ↔ k.Blocked t) (hreg : k.Registered t → k'.Registered t) :
    ThreadSim w k' a' t := by
  refine ⟨?_, ?_, ?_, fun res p hw hp => ?_, ?_, ?_⟩
  · rw [hblocked, hphase]
    exact h.blocked
  · rw [hphase]
    exact h.parked
  · rw [hpending, hphase]
    exact h.pending
  · rw [hphase] at hw hp
    have hres := h.woken res p hw hp
    cases p <;> simpa [pendingResult, hbody] using hres
  all_goals grind [h.holds, h.unregistered]

/-- An endpoint whose object and queued TCBs are untouched. -/
theorem EpSim.congr {k : Kernel} {a : Spec} {e : Kva} (h : EpSim w k a e)
    (hep : a'.ep e = a.ep e) (hstate : (k'.endpoint e).state = (k.endpoint e).state)
    (hready : (k'.endpoint e).readinessWaiter = (k.endpoint e).readinessWaiter)
    (hbody : ∀ t ∈ (a.ep e).threads, (k'.tcb t).toTcbBody = (k.tcb t).toTcbBody) :
    EpSim w k' a' e := by
  refine ⟨?_, ?_, fun x hx => ?_, fun t ht => ?_⟩
  · rw [hstate, hep]
    exact h.state
  · rw [hready]
    exact h.readiness
  · rw [hep] at hx
    have hmem : x.thread ∈ (a.ep e).threads := by
      cases hq : a.ep e with
      | waiting l =>
        rw [hq] at hx
        exact List.mem_map_of_mem hx
      | receiver u => simp [hq] at hx
    rw [hbody _ hmem]
    exact h.entry x hx
  · rw [hep] at ht
    rw [hbody t (by simp [ht])]
    exact h.receiver_kind t ht

/-- Rewrite the IPC fields of a TCB. -/
@[simps! -fullyApplied endpoint reply pending sched threads]
def Kernel.writeBody (k : Kernel) (t : Kva) (f : TcbBody → TcbBody) : Kernel :=
  k.updTcb t fun x => { x with toTcbBody := f x.toTcbBody }

namespace Kernel

variable {k : Kernel} {t u e : Kva} {f : TcbBody → TcbBody}

@[simp] theorem writeBody_tcb :
    ((k.writeBody t f).tcb u).toTcbBody =
      if u = t then f (k.tcb t).toTcbBody else (k.tcb u).toTcbBody := by
  by_cases hu : u = t <;> simp [writeBody, hu]

@[simp] theorem writeBody_link :
    ((k.writeBody t f).tcb u).ipcQueueNext = (k.tcb u).ipcQueueNext := by
  by_cases hu : u = t <;> simp [writeBody, hu]

/-- Linking a thread does not look at the readiness waiter or the scheduler. -/
theorem enqueue_unwatched (k : Kernel) (s : SchedState) (e t : Kva) (x : EpState)
    (f : TcbBody → TcbBody) :
    (((((k.setSched s).updEp e fun ep => { ep with readinessWaiter := 0 }).writeBody t f).enqueue
        e t).updEp e fun ep => { ep with state := x }) =
      ((((k.writeBody t f).enqueue e t).updEp e fun ep => { ep with state := x }).setSched s).updEp
        e fun ep => { ep with readinessWaiter := 0 } := by
  by_cases htail : (k.endpoint e).queueTail = 0 <;>
    simp [enqueue, writeBody, updTcb, updEp, setSched, htail]

end Kernel

namespace Rep

variable {w : Watch} {k : Kernel} {a : Spec} {cpu : Fin maxCpus} {t u e r : Kva}
  {f : TcbBody → TcbBody}

/-- A thread inside an IPC operation waits nowhere else. -/
theorem not_parked (h : Rep w k a) {p : Pending} (hp : (a.phase u).pending = some p) :
    ¬ w.parked u := by
  intro hw
  rw [(h.thread u).parked hw] at hp
  cases hp

theorem not_parked_of_executes (h : Rep w k a) (hexe : k.Executes cpu t) : ¬ w.parked t :=
  fun hw => hexe.not_blocked h.table ((h.thread t).blocked.mpr (Or.inr hw))

/-! ## The moves the operations are made of -/

theorem threads_setEp (a : Spec) (e : Kva) (q : EpQueue Kva Kva Msg UInt64) :
    (fun e' => ((a.setEp e q).ep e').threads) =
      Function.update (fun e' => (a.ep e').threads) e q.threads := by
  funext e'
  by_cases he : e' = e
  · subst he
    simp
  · simp [he]

section

variable (h : Rep w k a)
include h

/-- Binding or releasing a Reply. -/
theorem updReply (r : Kva) (x : Option Kva) :
    Rep w (k.updReply r fun _ => ReplyObject.ofBound x) (a.setBound r x) := by
  refine ⟨h.table, h.queues.congr (fun _ => rfl) fun _ => ⟨rfl, rfl⟩,
    fun t => (h.thread t).congr rfl rfl rfl rfl Iff.rfl id,
    fun e => (h.ep e).congr rfl rfl rfl fun _ _ => rfl, fun r' => ?_⟩
  by_cases hr : r' = r
  · simp [hr]
  · simpa [hr] using h.reply r'

variable {x : Option Kva} {us : List Kva} {s : SchedState} {l : List (Entry Kva Kva Msg UInt64)}
  {p : Phase Kva Kva Msg UInt64} {pd : Pending} {q : EpQueue Kva Kva Msg UInt64}

/-- Writing the TCB of a thread that is outside any operation. -/
theorem write (hreg : k.Registered t) (hrun : a.phase t = .running)
    (hfree : ∀ e, t ∉ (a.ep e).threads) (f : TcbBody → TcbBody)
    (hholds : (f (k.tcb t).toTcbBody).currentReplyKva = x.getD 0) :
    Rep w (k.writeBody t f) (a.setHolds t x) := by
  refine ⟨h.table, h.queues.congr (fun v => by simp) fun _ => ⟨rfl, rfl⟩, fun v => ?_,
    fun e => ?_, h.reply⟩
  · by_cases hv : v = t
    · subst hv
      exact ⟨(h.thread v).blocked, (h.thread v).parked, (h.thread v).pending, by simp [hrun],
        by simpa using hholds, absurd hreg⟩
    · exact (h.thread v).congr rfl (by simp [hv]) (by simp [hv]) rfl Iff.rfl id
  · refine (h.ep e).congr rfl rfl rfl fun v hv => ?_
    have hvt : v ≠ t := fun heq => hfree e (heq ▸ hv)
    simp [hvt]

/-- Unlinking the head of a queue of messages, or the parked receiver, and
    writing its TCB; `s` is the scheduler afterwards. -/
theorem pop (hhead : (a.ep e).threads = u :: us)
    (f : TcbBody → TcbBody) (htable : Table s k.threads)
    (hblocked : ∀ v, v ≠ u → (BlockedIn s k.threads v ↔ k.Blocked v)) (hl : l.map Entry.thread = us)
    (hentries : ∀ x ∈ l, x ∈ (a.ep e).entries)
    (hthread : ThreadSim w ((((k.unlinkHead e).writeBody u f).setSched s).updEp e
        fun ep => { ep with state := (EpQueue.waiting l).state })
      (((a.setEp e (.waiting l)).setPhase u p).setHolds u x) u) :
    Rep w ((((k.unlinkHead e).writeBody u f).setSched s).updEp e
        fun ep => { ep with state := (EpQueue.waiting l).state })
      (((a.setEp e (.waiting l)).setPhase u p).setHolds u x) := by
  obtain ⟨-, hqueues⟩ := h.queues.dequeue hhead
  have hmem : u ∈ (a.ep e).threads := by rw [hhead]; exact List.mem_cons_self
  have hnodup : u ∉ us := by
    have hq := (h.queues.queueIs e).nodup
    rw [hhead] at hq
    exact (List.nodup_cons.mp hq).1
  refine ⟨htable, ?_, fun v => ?_, fun e' => ?_, h.reply⟩
  -- queues, threads, endpoints: only `u` and the endpoint it leaves have changed
  · have hq := threads_setEp a e (.waiting l)
    rw [show (EpQueue.waiting l).threads = us from hl] at hq
    refine (hqueues.congr (fun v => by simp) fun e' => ?_).of_eq hq
    by_cases he : e' = e <;> simp [he]
  · by_cases hv : v = u
    · exact hv ▸ hthread
    · exact (h.thread v).congr (by simp [hv]) (by simp [hv]) (by simp [hv]) rfl (hblocked v hv) id
  · by_cases he : e' = e
    · subst he
      refine ⟨by simp, by simpa using (h.ep e').readiness, fun x hx => ?_, by simp⟩
      simp only [setHolds_ep, setPhase_ep, setEp_ep, if_true,
        EpQueue.entries] at hx
      have hxu : x.thread ≠ u := fun heq => hnodup (hl ▸ List.mem_map.mpr ⟨x, hx, heq⟩)
      simpa [hxu] using (h.ep e').entry x (hentries x hx)
    · refine (h.ep e').congr (by simp [he]) (by simp [he]) (by simp [he]) fun v hv => ?_
      have hvu : v ≠ u := fun heq => he (h.queues.disjoint e' e u (heq ▸ hv) hmem)
      simp [hvu]

/-- `pop`, then waking the thread with its result in place. -/
theorem deliver (hhead : (a.ep e).threads = u :: us)
    (hb : k.Blocked u) (f : TcbBody → TcbBody) (hl : l.map Entry.thread = us)
    (hentries : ∀ x ∈ l, x ∈ (a.ep e).entries) (res : Res Msg UInt64)
    (hpd : (Phase.woken res : Phase Kva Kva Msg UInt64).pending = some pd)
    (hpending : (a.phase u).pending = some pd) (hres : (k.writeBody u f).pendingResult u pd = res)
    (hholds : (f (k.tcb u).toTcbBody).currentReplyKva = x.getD 0) :
    ∃ s, ((k.unlinkHead e).writeBody u f).unblockThread u =
        .ok (((k.unlinkHead e).writeBody u f).setSched s) ∧
      s.currentPerCpu = k.sched.currentPerCpu ∧
      Rep w ((((k.unlinkHead e).writeBody u f).setSched s).updEp e
          fun ep => { ep with state := (EpQueue.waiting l).state })
        (((a.setEp e (.waiting l)).setPhase u (.woken res)).setHolds u x) := by
  have hout := h.not_parked hpending
  obtain ⟨s, hunb, htable, hcpus, hbl⟩ := unblockThread_spec
    (k := (k.unlinkHead e).writeBody u f) h.table hb
  refine ⟨s, hunb, hcpus, h.pop hhead f htable (fun v hv => (hbl v).trans (and_iff_left hv))
    hl hentries ⟨?_, fun hw => absurd hw hout, ?_, fun res' p hw hp => ?_, ?_,
      absurd hb.registered⟩⟩
  · exact (hbl u).trans (by simp [Phase.isBlocked, hout])
  · simpa [hpd, hpending] using (h.thread u).pending
  · simp only [setHolds_phase, setPhase_phase, if_true,
      Phase.woken.injEq] at hw hp
    obtain rfl := hw
    obtain rfl := Option.some.inj (hpd.symm.trans hp)
    cases pd <;> simpa [pendingResult] using hres
  · simpa using hholds

/-- Waking a thread that is on no queue with its result in place. -/
theorem wake (hb : k.Blocked u) (hfree : ∀ e, u ∉ (a.ep e).threads)
    (f : TcbBody → TcbBody) (res : Res Msg UInt64)
    (hpd : (Phase.woken res : Phase Kva Kva Msg UInt64).pending = some pd)
    (hpending : (a.phase u).pending = some pd) (hres : (k.writeBody u f).pendingResult u pd = res)
    (hholds : (f (k.tcb u).toTcbBody).currentReplyKva = (k.tcb u).currentReplyKva) :
    ∃ s, (k.writeBody u f).unblockThread u = .ok ((k.writeBody u f).setSched s) ∧
      s.currentPerCpu = k.sched.currentPerCpu ∧
      Rep w ((k.writeBody u f).setSched s) (a.setPhase u (.woken res)) := by
  have hout := h.not_parked hpending
  obtain ⟨s, hunb, htable, hcpus, hbl⟩ :=
    unblockThread_spec (k := k.writeBody u f) h.table hb
  refine ⟨s, hunb, hcpus, htable, h.queues.congr (fun v => by simp) fun _ => ⟨rfl, rfl⟩,
    fun v => ?_, fun e => ?_, h.reply⟩
  · by_cases hv : v = u
    · subst hv
      refine ⟨(hbl v).trans (by simp [Phase.isBlocked, hout]), fun hw => absurd hw hout, ?_,
        fun res' p hw hp => ?_, ?_, absurd hb.registered⟩
      · simpa [hpd, hpending] using (h.thread v).pending
      · simp only [setPhase_phase, if_true, Phase.woken.injEq] at hw hp
        obtain rfl := hw
        obtain rfl := Option.some.inj (hpd.symm.trans hp)
        exact hres
      · simpa [hholds] using (h.thread v).holds
    · exact (h.thread v).congr (by simp [hv]) rfl (by simp [hv]) rfl
        ((hbl v).trans (and_iff_left hv)) id
  · refine (h.ep e).congr rfl rfl rfl fun v hv => ?_
    have hvu : v ≠ u := fun heq => hfree e (heq ▸ hv)
    simp [hvu]

/-! ## Waits outside IPC -/

/-- What is woken or parked outside IPC is invisible to the machine. -/
theorem setWatch {w' : Watch} (htable : Table s k.threads)
    (hblocked : ∀ v, BlockedIn s k.threads v ↔ (a.phase v).isBlocked = true ∨ w'.parked v)
    (hparked : ∀ v, w'.parked v → a.phase v = .running) (hwaiter : w'.waiter = w.waiter) :
    Rep w' (k.setSched s) a := by
  refine ⟨htable, h.queues.congr (fun _ => rfl) fun _ => ⟨rfl, rfl⟩, fun v => ?_, fun e => ?_,
    h.reply⟩
  · have hv := h.thread v
    exact ⟨hblocked v, hparked v, hv.pending, hv.woken, hv.holds, hv.unregistered⟩
  · have he := h.ep e
    exact ⟨he.state, he.readiness.trans (by rw [hwaiter]), he.entry, he.receiver_kind⟩

/-- Registering or clearing the readiness waiter of an endpoint. -/
theorem setWaiter (e u : Kva) :
    Rep ⟨w.parked, Function.update w.waiter e u⟩
      (k.updEp e fun ep => { ep with readinessWaiter := u }) a := by
  refine ⟨h.table, h.queues.congr (fun _ => rfl) fun e' => ?_, fun v => ?_, fun e' => ?_, h.reply⟩
  · by_cases he : e' = e <;> simp [he]
  · have hv := h.thread v
    exact ⟨hv.blocked, hv.parked, hv.pending, hv.woken, hv.holds, hv.unregistered⟩
  · have he' := h.ep e'
    by_cases he : e' = e
    · subst he
      exact ⟨by simpa using he'.state, by simp, he'.entry, he'.receiver_kind⟩
    · exact ⟨by simpa [he] using he'.state, by simpa [he] using he'.readiness, he'.entry,
        he'.receiver_kind⟩

/-- Waking a thread that waits outside IPC. -/
theorem unpark (hu : w.parked u) :
    ∃ s, k.unblockThread u = .ok (k.setSched s) ∧ s.currentPerCpu = k.sched.currentPerCpu ∧
      Rep ⟨fun v => w.parked v ∧ v ≠ u, w.waiter⟩ (k.setSched s) a := by
  obtain ⟨s, hunb, htable, hcpus, hbl⟩ :=
    unblockThread_spec h.table ((h.thread u).blocked.mpr (Or.inr hu))
  refine ⟨s, hunb, hcpus, h.setWatch htable (fun v => ?_) (fun v hv => (h.thread v).parked hv.1)
    rfl⟩
  rw [show BlockedIn s k.threads v ↔ _ from hbl v, (h.thread v).blocked]
  by_cases hv : v = u
  · subst hv
    simp [(h.thread v).parked hu, Phase.isBlocked]
  · simp [hv]

/-- The wake an endpoint owes its readiness waiter, from any kernel state with the same threads. -/
theorem wakeWaiter (hparked : w.waiter e ≠ 0 → w.parked (w.waiter e)) :
    ∃ s, s.currentPerCpu = k.sched.currentPerCpu ∧
      Rep (w.wake e) ((k.setSched s).updEp e fun ep => { ep with readinessWaiter := 0 }) a ∧
      ∀ k2 : Kernel, k2.sched = k.sched → k2.threads = k.threads →
        (k2.endpoint e).readinessWaiter = w.waiter e →
        k2.wakeReadinessWaiterIfRegistered e =
          .ok ((k2.setSched s).updEp e fun ep => { ep with readinessWaiter := 0 }) := by
  by_cases hw : w.waiter e = 0
  · refine ⟨k.sched, rfl, ?_, fun k2 hs _ he => ?_⟩
    · rw [Watch.wake, if_pos hw]
      have hwaiter := h.setWaiter e 0
      rwa [show Function.update w.waiter e 0 = w.waiter from by
        rw [← hw, Function.update_eq_self]] at hwaiter
    · rw [hw] at he
      rw [wakeReadinessWaiterIfRegistered, if_neg (not_not_intro he), ← hs]
      have hep : { k2.endpoint e with readinessWaiter := 0 } = k2.endpoint e := by rw [← he]
      simp only [updEp, setSched, hep, Function.update_eq_self]
      rfl
  · obtain ⟨s, hunb, hcpus, hrep⟩ := h.unpark (hparked hw)
    refine ⟨s, hcpus, ?_, fun k2 hs ht he => ?_⟩
    · rw [Watch.wake, if_neg hw]
      exact hrep.setWaiter e 0
    · rw [wakeReadinessWaiterIfRegistered, if_pos (by rw [he]; exact hw), he,
        unblockThread_congr hunb hs ht]
      rfl

/-! ## Blocking -/

section

variable (hexe : k.Executes cpu t) (hfree : ∀ e, t ∉ (a.ep e).threads) (f : TcbBody → TcbBody)
  (hholds : (f (k.tcb t).toTcbBody).currentReplyKva = (k.tcb t).currentReplyKva)
  (hp : p.isBlocked = true) (hpending : p.pending = some pd)
include hexe hfree hholds hp hpending

/-- Blocking the running thread outside every queue. -/
theorem block :
    ∃ k', (k.writeBody t f).blockCurrent cpu t pd = .ok k' ∧ k.SameCpus k' ∧
      Rep w k' (a.setPhase t p) := by
  have hreg : k.Registered t := hexe.registered
  have hout := h.not_parked_of_executes hexe
  obtain ⟨s, hblk, htable, hcpus, hbl⟩ :=
    blockCurrent_spec (k := k.writeBody t f) h.table hexe pd
  refine ⟨_, hblk, ⟨hcpus, rfl⟩, htable,
    h.queues.congr (fun v => by simp) fun _ => ⟨rfl, rfl⟩, fun v => ?_, fun e => ?_, h.reply⟩
  · by_cases hv : v = t
    · subst hv
      refine ⟨?_, fun hw => absurd hw hout, by simp [hpending], fun res p' hw _ => ?_, ?_,
        absurd hreg⟩
      · exact (hbl v).trans (by simp [hp])
      · simp only [setPhase_phase, if_true] at hw
        simp [hw, Phase.isBlocked] at hp
      · simpa [hholds] using (h.thread v).holds
    · refine (h.thread v).congr (by simp [hv]) rfl (by simp [hv]) (by simp [hv]) ?_ id
      exact (hbl v).trans (or_iff_left hv)
  · refine (h.ep e).congr rfl rfl rfl fun v hv => ?_
    have hvt : v ≠ t := fun heq => hfree e (heq ▸ hv)
    simp [hvt]

variable (hq : q.threads = (a.ep e).threads ++ [t])
  (hentry : ∀ x ∈ q.entries, x ∈ (a.ep e).entries ∨
    x.thread = t ∧ (f (k.tcb t).toTcbBody).Carries x)
  (hrecv : ∀ v, q = .receiver v → v = t ∧ (f (k.tcb t).toTcbBody).ipcWaitKind = some .receive)
include hq hentry hrecv

/-- Linking the running thread at the end of a queue and blocking it. -/
theorem park :
    ∃ k', (((k.writeBody t f).enqueue e t).updEp e
        fun ep => { ep with state := q.state }).blockCurrent cpu t pd = .ok k' ∧
      k.SameCpus k' ∧ Rep w k' ((a.setEp e q).setPhase t p) := by
  have hq1 : (k.writeBody t f).Queues fun e => (a.ep e).threads :=
    h.queues.congr (fun v => by simp) fun _ => ⟨rfl, rfl⟩
  have hq2 := hq1.enqueue e (hexe.ne_zero h.table) hfree
  -- `k3` is the kernel just before the switch: the TCB is written and linked
  set k3 := ((k.writeBody t f).enqueue e t).updEp e fun ep => { ep with state := q.state } with hk3
  have hexe3 : k3.Executes cpu t := by simpa [hk3, Kernel.Executes] using hexe
  have htable3 : k3.TableOk := by simpa [hk3, Kernel.TableOk] using h.table
  have hblocked3 : ∀ v, k3.Blocked v ↔ k.Blocked v := fun v => by simp [hk3, Kernel.Blocked]
  have hreg : k3.Registered t := hexe3.registered
  have hout := h.not_parked_of_executes hexe
  obtain ⟨s, hblk, htable, hcpus, hbl⟩ := blockCurrent_spec htable3 hexe3 pd
  refine ⟨_, hblk, ⟨hcpus.trans (by simp [hk3]), by simp [hk3]⟩, htable, ?_, fun v => ?_,
    fun e' => ?_, fun r => ?_⟩
  · have hthreads := threads_setEp a e q
    rw [hq] at hthreads
    refine (hq2.congr (fun v => by simp [hk3]) fun e' => ?_).of_eq hthreads
    by_cases he : e' = e <;> simp [hk3, he]
  · by_cases hv : v = t
    · subst hv
      refine ⟨?_, fun hw => absurd hw hout, by simp [hpending], fun res p' hw _ => ?_, ?_,
        absurd hreg⟩
      · exact (hbl v).trans (by simp [hp])
      · simp only [setPhase_phase, if_true] at hw
        simp [hw, Phase.isBlocked] at hp
      · simpa [hk3, hholds] using (h.thread v).holds
    · refine (h.thread v).congr (by simp [hv]) rfl (by simp [hk3, hv]) (by simp [hk3, hv]) ?_
        (by simp [hk3, Kernel.Registered])
      exact (hbl v).trans (by simp [hv, hblocked3])
  · by_cases he : e' = e
    · subst he
      refine ⟨by simp [hk3], by simpa [hk3] using (h.ep e').readiness, fun x hx => ?_,
        fun v hv => ?_⟩
      · simp only [setPhase_ep, setEp_ep, if_true] at hx
        rcases hentry x hx with hold | ⟨hxt, hcarries⟩
        · have hxt : x.thread ≠ t := fun heq =>
            hfree e' (heq ▸ EpQueue.mem_threads_of_mem_entries hold)
          simpa [hk3, hxt] using (h.ep e').entry x hold
        · simpa [hk3, hxt] using hcarries
      · simp only [setPhase_ep, setEp_ep, if_true] at hv
        obtain ⟨rfl, hkind⟩ := hrecv v hv
        simpa [hk3] using hkind
    · refine (h.ep e').congr (by simp [he]) (by simp [hk3, he]) (by simp [hk3, he])
        fun v hv => ?_
      have hvt : v ≠ t := fun heq => hfree e' (heq ▸ hv)
      simp [hk3, hvt]
  · simpa [hk3] using h.reply r

/-- The running thread joins an idle endpoint: the endpoint wakes its readiness
    waiter before the thread blocks. -/
theorem park_wake (hrun : a.phase t = .running) (hparked : w.waiter e ≠ 0 → w.parked (w.waiter e)) :
    ∃ k4 k', (((k.writeBody t f).enqueue e t).updEp e
        fun ep => { ep with state := q.state }).wakeReadinessWaiterIfRegistered e = .ok k4 ∧
      k4.blockCurrent cpu t pd = .ok k' ∧ k.SameCpus k' ∧
      Rep (w.wake e) k' ((a.setEp e q).setPhase t p) := by
  obtain ⟨s, hcpus, hrep, hwake⟩ := h.wakeWaiter hparked
  have hnot : ¬ (w.wake e).parked t := by grind [h.not_parked_of_executes, Watch.wake]
  have hexe' : Kernel.Executes _ cpu t := (executes_iff hrep.table).mpr
    ⟨Kernel.SameCpus.onCpu ⟨hcpus, rfl⟩ ((executes_iff h.table).mp hexe).1, fun hb => by
      simpa [hrun, Phase.isBlocked, hnot] using (hrep.thread t).blocked.mp hb⟩
  obtain ⟨k', hblk, hcpus', hrep'⟩ :=
    hrep.park hexe' hfree f hholds hp hpending hq hentry hrecv
  rw [enqueue_unwatched] at hblk
  exact ⟨_, k', hwake _ (by simp) (by simp) (by simpa using (h.ep e).readiness), hblk,
    ⟨hcpus'.1.trans hcpus, hcpus'.2⟩, hrep'⟩

end

end

end Rep

end Lockjaw.Ipc
