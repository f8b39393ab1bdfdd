/-
  Lockjaw.Ipc.Kernel

  The kernel side of IPC as the code computes it: `src/ipc/endpoint.rs`,
  `src/ipc/ep_queue.rs` and `src/ipc/reply.rs` over TCBs, endpoints and Reply
  objects addressed by kernel virtual addresses, with the decision functions
  of `lockjaw-types/src/ipc_state.rs` and the scheduler state machine.

  Address 0 is the null pointer.  The `u8` state fields are written only
  through `to_raw` and are kept as the enumerations they encode, so the
  "corrupted endpoint state" panics have no counterpart.

  A blocking operation is cut at `block_current`.  `pending` is the blocked
  thread's program counter: which operation it is inside, hence what it does
  once `block_current` returns (`resume`).
-/

import Lockjaw.Sched.Run
import Lockjaw.Ipc.Rendezvous

namespace Lockjaw.Ipc

open Sched

/-- A kernel virtual address. -/
abbrev Kva := Nat

/-- An IPC message: exactly four words. -/
abbrev Msg := Vector UInt64 4

/-! ## Decision functions -/

/-- Endpoint state. -/
inductive EpState where
  | idle
  | hasWaiters
  | hasReceiver
  deriving DecidableEq, Repr

/-- Kind of wait a queued thread holds. -/
inductive WaitKind where
  | send
  | receive
  | call
  deriving DecidableEq, Repr

inductive ReplyState where
  | fresh
  | bound
  deriving DecidableEq, Repr

inductive SendDecision where
  | deliverToReceiver (nextEpState : EpState)
  | queueAndBlock (nextEpState : EpState) (wakeReadiness : Bool)
  deriving DecidableEq, Repr

inductive ReceiveDecision where
  | dequeueSend (nextEpState : EpState)
  | dequeueCall (nextEpState : EpState)
  | queueAndBlock (nextEpState : EpState)
  | error (e : IpcError)
  deriving DecidableEq, Repr

inductive CallDecision where
  | deliverToReceiver (nextEpState : EpState)
  | queueAndBlock (nextEpState : EpState) (wakeReadiness : Bool)
  | error (e : IpcError)
  deriving DecidableEq, Repr

inductive ReplyDecision where
  | deliver
  | error (e : IpcError)
  deriving DecidableEq, Repr

def decideSend : EpState → SendDecision
  | .hasReceiver => .deliverToReceiver .idle
  | .idle => .queueAndBlock .hasWaiters true
  | .hasWaiters => .queueAndBlock .hasWaiters false

def decideReceive (epState : EpState) (hasOutstandingReply : Bool)
    (headWaitKind : Option WaitKind) (queueHasMore : Bool) : ReceiveDecision :=
  if hasOutstandingReply then .error .endpointBusy
  else
    match epState with
    | .hasWaiters =>
      let next : EpState := if queueHasMore then .hasWaiters else .idle
      match headWaitKind with
      | some .send => .dequeueSend next
      | some .call => .dequeueCall next
      | _ => .error .endpointBusy
    | .hasReceiver => .error .endpointBusy
    | .idle => .queueAndBlock .hasReceiver

def decideCall (replyIsFresh : Bool) (epState : EpState) : CallDecision :=
  if !replyIsFresh then .error .replyBound
  else
    match epState with
    | .hasReceiver => .deliverToReceiver .idle
    | .idle => .queueAndBlock .hasWaiters true
    | .hasWaiters => .queueAndBlock .hasWaiters false

def decideReply (hasReply replyIsBound : Bool) : ReplyDecision :=
  if !hasReply then .error .noCaller
  else if !replyIsBound then .error .noCaller
  else .deliver

/-! ## Kernel objects -/

/-- The IPC fields of a thread control block, apart from the queue link.
    `ipcWaitKind = none` is `WAIT_KIND_NONE`. -/
structure TcbBody where
  ipcBlockedOn : Kva
  ipcMsg : Msg
  ipcWaitKind : Option WaitKind
  ipcCallerToken : UInt64
  currentReplyKva : Kva
  lastCallerToken : UInt64
  ipcCallReplyKva : Kva

/-- The IPC fields of a thread control block. -/
structure Tcb extends TcbBody where
  /-- Intrusive link in an endpoint's waiter queue. -/
  ipcQueueNext : Kva

/-- A TCB page as `create_tcb` leaves it. -/
def Tcb.zeroed : Tcb :=
  { ipcBlockedOn := 0, ipcMsg := Vector.replicate 4 0, ipcWaitKind := none, ipcCallerToken := 0,
    currentReplyKva := 0, lastCallerToken := 0, ipcCallReplyKva := 0, ipcQueueNext := 0 }

structure EndpointObject where
  state : EpState
  /-- Thread waiting via `sys_wait_any` for readiness (0 = none). -/
  readinessWaiter : Kva
  queueHead : Kva
  queueTail : Kva

/-- Reply object. -/
structure ReplyObject where
  state : ReplyState
  callerTcbKva : Kva

/-- The operation a blocked or just-woken thread is inside. -/
inductive Pending where
  | send
  | receive
  | call
  deriving DecidableEq, Repr

/-- Kernel state read or written by IPC. -/
structure Kernel where
  sched : SchedState
  /-- The scheduler's slot table of TCB addresses. -/
  threads : Fin maxThreads → Option Kva
  tcb : Kva → Tcb
  endpoint : Kva → EndpointObject
  reply : Kva → ReplyObject
  pending : Kva → Option Pending

/-- The kernel panics on the IPC paths. -/
inductive IpcPanic where
  | sched (p : SchedPanic)
  /-- "current_tcb_kva: no TCB for current thread" -/
  | noTcbForCurrent
  /-- "unblock_thread: TCB KVA not registered in scheduler" -/
  | tcbNotRegistered
  /-- "unblock_thread: thread not in Blocked state" -/
  | notBlocked
  /-- "block_current: not Running" -/
  | blockNotRunning
  /-- "HasReceiver without queued waiter" -/
  | hasReceiverWithoutWaiter
  /-- "HasWaiters without queued waiter" -/
  | hasWaitersWithoutWaiter
  deriving DecidableEq, Repr

namespace Kernel

/-- Rewrite the TCB at `t`. -/
@[simps -fullyApplied endpoint reply pending sched threads]
def updTcb (k : Kernel) (t : Kva) (f : Tcb → Tcb) : Kernel :=
  { k with tcb := Function.update k.tcb t (f (k.tcb t)) }

@[simps -fullyApplied tcb reply pending sched threads]
def updEp (k : Kernel) (ep : Kva) (f : EndpointObject → EndpointObject) : Kernel :=
  { k with endpoint := Function.update k.endpoint ep (f (k.endpoint ep)) }

@[simps -fullyApplied tcb endpoint pending sched threads]
def updReply (k : Kernel) (r : Kva) (f : ReplyObject → ReplyObject) : Kernel :=
  { k with reply := Function.update k.reply r (f (k.reply r)) }

@[simps -fullyApplied]
def setSched (k : Kernel) (s : SchedState) : Kernel := { k with sched := s }

@[simps -fullyApplied tcb endpoint reply sched threads]
def setPending (k : Kernel) (t : Kva) (p : Option Pending) : Kernel :=
  { k with pending := Function.update k.pending t p }

/-! ## Scheduler entry points -/

/-- TCB of the thread running on `cpu`. -/
def currentTcbKva (k : Kernel) (cpu : Fin maxCpus) : Except IpcPanic Kva :=
  match k.sched.currentFor cpu with
  | .error p => .error (.sched p)
  | .ok idx =>
    match if h : idx < maxThreads then k.threads ⟨idx, h⟩ else none with
    | some kva => .ok kva
    | none => .error .noTcbForCurrent

/-- Slot of a registered TCB. -/
def threadIndexFor (k : Kernel) (kva : Kva) : Option (Fin maxThreads) :=
  (List.finRange maxThreads).find? fun i => k.threads i == some kva

/-- Wake a Blocked thread; panics if it is not registered or not Blocked. -/
def unblockThread (k : Kernel) (kva : Kva) : Except IpcPanic Kernel :=
  match k.threadIndexFor kva with
  | none => .error .tcbNotRegistered
  | some idx =>
    match k.sched.unblock idx with
    | .ok s => .ok (k.setSched s)
    | .error _ => .error .notBlocked

/-- Enter `block_current` on `cpu`: the current thread `t` goes to Blocked inside operation `p`. -/
def blockCurrent (k : Kernel) (cpu : Fin maxCpus) (t : Kva) (p : Pending) :
    Except IpcPanic Kernel :=
  match k.sched.blockCurrent cpu with
  | .error e => .error (.sched e)
  | .ok (.error _) => .error .blockNotRunning
  | .ok (.ok s) => .ok ((k.setSched s).setPending t (some p))

/-! ## Endpoint waiter queue -/

/-- Append a TCB to the tail of the endpoint's waiter queue. -/
def enqueue (k : Kernel) (ep tcb : Kva) : Kernel :=
  let k := k.updTcb tcb fun t => { t with ipcQueueNext := 0 }
  if (k.endpoint ep).queueTail = 0 then
    k.updEp ep fun e => { e with queueHead := tcb, queueTail := tcb }
  else
    let k := k.updTcb (k.endpoint ep).queueTail fun t => { t with ipcQueueNext := tcb }
    k.updEp ep fun e => { e with queueTail := tcb }

/-- Pop the head of the endpoint's waiter queue. -/
def dequeue (k : Kernel) (ep : Kva) : Option (Kva × Kernel) :=
  let head := (k.endpoint ep).queueHead
  if head = 0 then none
  else
    let next := (k.tcb head).ipcQueueNext
    let k := k.updTcb head fun t => { t with ipcQueueNext := 0 }
    let k := k.updEp ep fun e =>
      { e with queueHead := next, queueTail := if next = 0 then 0 else e.queueTail }
    some (head, k)

/-- Wake the `sys_wait_any` waiter of an endpoint, if there is one. -/
def wakeReadinessWaiterIfRegistered (k : Kernel) (ep : Kva) : Except IpcPanic Kernel :=
  if (k.endpoint ep).readinessWaiter ≠ 0 then do
    let k ← k.unblockThread (k.endpoint ep).readinessWaiter
    pure (k.updEp ep fun e => { e with readinessWaiter := 0 })
  else pure k

/-! ## IPC operations, up to their return or block point -/

/-- Send a message on an endpoint. -/
def ipcSend (k : Kernel) (cpu : Fin maxCpus) (ep : Kva) (msg : Msg) (callerToken : UInt64) :
    Except IpcPanic (Kernel × Out Msg UInt64) :=
  match decideSend (k.endpoint ep).state with
  | .deliverToReceiver nextEpState =>
    match k.dequeue ep with
    | none => .error .hasReceiverWithoutWaiter
    | some (receiver, k) => do
      let k := k.updTcb receiver fun r =>
        { r with ipcMsg := msg, lastCallerToken := callerToken, ipcWaitKind := none,
                 ipcBlockedOn := 0 }
      let k ← k.unblockThread receiver
      pure (k.updEp ep fun e => { e with state := nextEpState }, .returned .done)
  | .queueAndBlock nextEpState wakeReadiness => do
    let sender ← k.currentTcbKva cpu
    let k := k.updTcb sender fun s =>
      { s with ipcMsg := msg, ipcCallerToken := callerToken, ipcWaitKind := some .send,
               ipcBlockedOn := ep }
    let k := k.enqueue ep sender
    let k := k.updEp ep fun e => { e with state := nextEpState }
    let k ← if wakeReadiness then k.wakeReadinessWaiterIfRegistered ep else pure k
    let k ← k.blockCurrent cpu sender .send
    pure (k, .blocked)

/-- What `ipc_receive` reads about the queue head before it decides. -/
def headObservation (k : Kernel) (ep : Kva) : Option WaitKind × Bool :=
  if (k.endpoint ep).state = .hasWaiters then
    let head := (k.endpoint ep).queueHead
    if head ≠ 0 then ((k.tcb head).ipcWaitKind, (k.tcb head).ipcQueueNext != 0)
    else (none, false)
  else (none, false)

/-- Receive a message from an endpoint. -/
def ipcReceive (k : Kernel) (cpu : Fin maxCpus) (ep : Kva) :
    Except IpcPanic (Kernel × Out Msg UInt64) := do
  let receiver ← k.currentTcbKva cpu
  let (headWaitKind, queueHasMore) := k.headObservation ep
  match decideReceive (k.endpoint ep).state ((k.tcb receiver).currentReplyKva != 0)
      headWaitKind queueHasMore with
  | .dequeueSend nextEpState =>
    match k.dequeue ep with
    | none => throw .hasWaitersWithoutWaiter
    | some (head, k) => do
      let msg := (k.tcb head).ipcMsg
      let senderToken := (k.tcb head).ipcCallerToken
      let k := k.updTcb head fun h => { h with ipcWaitKind := none, ipcBlockedOn := 0 }
      let k := k.updTcb receiver fun r => { r with lastCallerToken := senderToken }
      let k ← k.unblockThread head
      let k := k.updEp ep fun e => { e with state := nextEpState }
      pure (k, .returned (.message msg (k.tcb receiver).lastCallerToken))
  | .dequeueCall nextEpState =>
    match k.dequeue ep with
    | none => throw .hasWaitersWithoutWaiter
    | some (head, k) => do
      let msg := (k.tcb head).ipcMsg
      let senderToken := (k.tcb head).ipcCallerToken
      let replyKva := (k.tcb head).ipcCallReplyKva
      -- the caller stays Blocked, and the receiver holds its Reply
      let k := k.updTcb head fun h => { h with ipcWaitKind := none, ipcCallReplyKva := 0 }
      let k := k.updTcb receiver fun r =>
        { r with currentReplyKva := replyKva, lastCallerToken := senderToken }
      let k := k.updEp ep fun e => { e with state := nextEpState }
      pure (k, .returned (.message msg (k.tcb receiver).lastCallerToken))
  | .queueAndBlock nextEpState => do
    let k := k.updTcb receiver fun r =>
      { r with ipcWaitKind := some .receive, ipcBlockedOn := ep }
    let k := k.enqueue ep receiver
    let k := k.updEp ep fun e => { e with state := nextEpState }
    let k ← k.blockCurrent cpu receiver .receive
    pure (k, .blocked)
  | .error e => pure (k, .returned (.failed e))

/-- Non-blocking receive. -/
def ipcReceiveNb (k : Kernel) (cpu : Fin maxCpus) (ep : Kva) :
    Except IpcPanic (Kernel × Out Msg UInt64) :=
  if (k.endpoint ep).state ≠ .hasWaiters then .ok (k, .returned (.failed .wouldBlock))
  else k.ipcReceive cpu ep

/-- Send a message and block waiting for a reply. -/
def ipcCall (k : Kernel) (cpu : Fin maxCpus) (ep reply : Kva) (msg : Msg) (callerToken : UInt64) :
    Except IpcPanic (Kernel × Out Msg UInt64) :=
  match decideCall ((k.reply reply).state == .fresh) (k.endpoint ep).state with
  | .deliverToReceiver nextEpState => do
    let caller ← k.currentTcbKva cpu
    let k := k.updReply reply fun _ => { state := .bound, callerTcbKva := caller }
    match k.dequeue ep with
    | none => throw .hasReceiverWithoutWaiter
    | some (receiver, k) => do
      let k := k.updTcb receiver fun r =>
        { r with ipcMsg := msg, lastCallerToken := callerToken, ipcWaitKind := none,
                 currentReplyKva := reply, ipcBlockedOn := 0 }
      let k ← k.unblockThread receiver
      let k := k.updEp ep fun e => { e with state := nextEpState }
      let k := k.updTcb caller fun c => { c with ipcBlockedOn := ep }
      let k ← k.blockCurrent cpu caller .call
      pure (k, .blocked)
  | .queueAndBlock nextEpState wakeReadiness => do
    let caller ← k.currentTcbKva cpu
    let k := k.updReply reply fun _ => { state := .bound, callerTcbKva := caller }
    let k := k.updTcb caller fun c =>
      { c with ipcMsg := msg, ipcCallerToken := callerToken, ipcWaitKind := some .call,
               ipcCallReplyKva := reply, ipcBlockedOn := ep }
    let k := k.enqueue ep caller
    let k := k.updEp ep fun e => { e with state := nextEpState }
    let k ← if wakeReadiness then k.wakeReadinessWaiterIfRegistered ep else pure k
    let k ← k.blockCurrent cpu caller .call
    pure (k, .blocked)
  | .error e => .ok (k, .returned (.failed e))

/-- Reply to the call bound on the current thread. -/
def ipcReply (k : Kernel) (cpu : Fin maxCpus) (msg : Msg) :
    Except IpcPanic (Kernel × Out Msg UInt64) := do
  let replier ← k.currentTcbKva cpu
  let replyKva := (k.tcb replier).currentReplyKva
  let hasReply := replyKva != 0
  let replyIsBound := if hasReply then (k.reply replyKva).state == .bound else false
  match decideReply hasReply replyIsBound with
  | .deliver => do
    let caller := (k.reply replyKva).callerTcbKva
    let k := k.updTcb caller fun c => { c with ipcMsg := msg, ipcBlockedOn := 0 }
    let k ← k.unblockThread caller
    let k := k.updReply replyKva fun _ => { state := .fresh, callerTcbKva := 0 }
    let k := k.updTcb replier fun r => { r with currentReplyKva := 0 }
    pure (k, .returned .done)
  | .error e => pure (k, .returned (.failed e))

/-! ## The system -/

/-- What can happen next, on some CPU, under the kernel lock. -/
inductive Action where
  /-- The running thread of `cpu` issues an IPC operation. -/
  | issue (cpu : Fin maxCpus) (op : Op Kva Kva Msg UInt64)
  /-- The running thread of `cpu` returns from `block_current` and finishes
      the operation it is inside. -/
  | resume (cpu : Fin maxCpus)
  /-- Scheduling: preemption, the retry of a parked CPU, an idle CPU. -/
  | preempt (cpu : Fin maxCpus)
  | parked (cpu : Fin maxCpus)
  | idle (cpu : Fin maxCpus)
  /-- A freshly created thread is registered. -/
  | addThread (kva : Kva)

/-- Run an IPC operation. -/
def ipc (k : Kernel) (cpu : Fin maxCpus) :
    Op Kva Kva Msg UInt64 → Except IpcPanic (Kernel × Out Msg UInt64)
  | .send e m t => k.ipcSend cpu e m t
  | .recv e => k.ipcReceive cpu e
  | .recvNb e => k.ipcReceiveNb cpu e
  | .call e r m t => k.ipcCall cpu e r m t
  | .reply m => k.ipcReply cpu m

/-- The tail of an operation after `block_current`. -/
def pendingResult (k : Kernel) (t : Kva) : Pending → Res Msg UInt64
  | .send => .done
  | .receive => .message (k.tcb t).ipcMsg (k.tcb t).lastCallerToken
  | .call => .replied (k.tcb t).ipcMsg

/-- Enter a thread with a zeroed TCB in slot `idx`. -/
def register (k : Kernel) (kva : Kva) (idx : Nat) (s : SchedState) : Kernel :=
  { k with
    sched := s
    threads := fun i => if i.val = idx then some kva else k.threads i
    tcb := Function.update k.tcb kva Tcb.zeroed }

/-- Register a thread; the first one is made CPU 0's current thread. -/
def addThread (k : Kernel) (kva : Kva) : Except IpcPanic Kernel :=
  match k.sched.addThread with
  | (_, none) => .ok k
  | (s, some idx) =>
    if idx = 0 then
      match s.setInitialCurrent 0 idx with
      | .ok s => .ok (k.register kva idx s)
      | .error p => .error (.sched p)
    else .ok (k.register kva idx s)

/-- One scheduler operation seen from IPC. -/
def schedOp (k : Kernel) (op : SchedState.SchedOp) : Except IpcPanic Kernel :=
  match k.sched.exec op with
  | .ok (s, _) => .ok (k.setSched s)
  | .error p => .error (.sched p)

/-- Run one action; IPC actions report their observable event. -/
def exec (k : Kernel) : Action → Except IpcPanic (Kernel × Option (Event Kva Kva Kva Msg UInt64))
  | .issue cpu op => do
    let t ← k.currentTcbKva cpu
    let (k, out) ← k.ipc cpu op
    pure (k, some (.issue t op out))
  | .resume cpu => do
    let t ← k.currentTcbKva cpu
    match k.pending t with
    | none => pure (k, none)
    | some p => pure (k.setPending t none, some (.resume t (k.pendingResult t p)))
  | .preempt cpu => do
    let k ← k.schedOp (.step cpu .preempt)
    pure (k, none)
  | .parked cpu => do
    let k ← k.schedOp (.step cpu .block)
    pure (k, none)
  | .idle cpu => do
    let k ← k.schedOp (.stepFromIdle cpu)
    pure (k, none)
  | .addThread kva => do
    let k ← k.addThread kva
    pure (k, none)

def Executes (k : Kernel) (cpu : Fin maxCpus) (t : Kva) : Prop :=
  ∃ idx : Fin maxThreads, k.sched.tryCurrentFor cpu = some idx.val ∧
    k.sched.get idx = some .running ∧ k.threads idx = some t

/-- When an action can happen.  A thread issues an operation from outside any
    other one; the object addresses it passes come from handle lookups and are
    never null; a thread's TCB page is fresh when it is registered. -/
def Enabled (k : Kernel) : Action → Prop
  | .issue cpu op => ∃ t, k.Executes cpu t ∧ k.pending t = none ∧
      ∀ e r m c, op = .call e r m c → r ≠ 0
  | .resume cpu => ∃ t, k.Executes cpu t ∧ k.pending t ≠ none
  | .preempt cpu => k.sched.Issued (.step cpu .preempt)
  | .parked cpu => k.sched.Issued (.step cpu .block)
  | .idle cpu => k.sched.Issued (.stepFromIdle cpu)
  | .addThread kva => kva ≠ 0 ∧ ∀ i, k.threads i ≠ some kva

/-- Boot: no threads, every endpoint idle, every Reply fresh. -/
def boot : Kernel where
  sched := SchedState.newConst
  threads := fun _ => none
  tcb := fun _ => Tcb.zeroed
  endpoint := fun _ => ⟨.idle, 0, 0, 0⟩
  reply := fun _ => ⟨.fresh, 0⟩
  pending := fun _ => none

/-- Runs of the system from boot, with the observable events, oldest first. -/
inductive Run : List (Event Kva Kva Kva Msg UInt64) → Kernel → Prop
  | boot : Run [] boot
  | step {tr : List (Event Kva Kva Kva Msg UInt64)} {k k' : Kernel} (act : Action)
      (ev : Option (Event Kva Kva Kva Msg UInt64)) (hrun : Run tr k)
      (henabled : k.Enabled act) (hexec : k.exec act = .ok (k', ev)) :
      Run (tr ++ ev.toList) k'

end Kernel

end Lockjaw.Ipc
