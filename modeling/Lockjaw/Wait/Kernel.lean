/-
  Lockjaw.Wait.Kernel

  The waits that are not IPC, beside the IPC kernel: notifications
  (`lockjaw-types/src/notification_state.rs`, `src/ipc/notification.rs`),
  `sys_wait_any` with its readiness waiters and deadlines
  (`src/syscall/handler.rs`, `lockjaw-types/src/wait.rs`), the timer tick
  (`src/arch/aarch64/timer.rs`, `src/sched/scheduler.rs`) and the interrupt
  dispatcher with its binding table (`src/arch/aarch64/mod.rs`, `irq_bind.rs`).

  Arithmetic on timeline values wraps, as in the release profile.  Objects are
  named by the addresses the handle lookups return.  As in the IPC kernel a
  blocking call is cut at `block_current`; `waiting` is the program counter of
  a thread inside one of these calls.
-/

import Lockjaw.Ipc.Refine

namespace Lockjaw.Wait

open Sched Ipc

/-! ## Timeline semaphore -/

structure NotificationState where
  /-- Current timeline value. -/
  value : UInt64
  hasWaiter : Bool
  /-- The value the waiter needs before it can proceed. -/
  waitThreshold : UInt64
  deriving DecidableEq, Repr

inductive SignalResult where
  | updated
  | wakeWaiter
  deriving DecidableEq, Repr

inductive WaitResult where
  | ready
  | block
  deriving DecidableEq, Repr

inductive NotificationError where
  | valueNotMonotonic
  | alreadyHasWaiter
  deriving DecidableEq, Repr

namespace NotificationState

def new : NotificationState := ⟨0, false, 0⟩

/-- Signal the notification with a new value. -/
def signal (s : NotificationState) (newValue : UInt64) :
    Except NotificationError (NotificationState × SignalResult) :=
  if newValue ≤ s.value then .error .valueNotMonotonic
  else
    let s := { s with value := newValue }
    if s.hasWaiter = true ∧ s.waitThreshold ≤ s.value then
      .ok ({ s with hasWaiter := false, waitThreshold := 0 }, .wakeWaiter)
    else .ok (s, .updated)

/-- Check if a wait would block or return immediately. -/
def wait (s : NotificationState) (threshold : UInt64) :
    Except NotificationError (NotificationState × WaitResult) :=
  if threshold ≤ s.value then .ok (s, .ready)
  else if s.hasWaiter = true then .error .alreadyHasWaiter
  else .ok ({ s with hasWaiter := true, waitThreshold := threshold }, .block)

end NotificationState

structure NotificationObject where
  state : NotificationState
  /-- Thread blocked in `sys_wait_notification` (0 = none). -/
  blockedTcbKva : Kva
  /-- Thread waiting via `sys_wait_any` for readiness (0 = none). -/
  readinessWaiter : Kva
  readinessThreshold : UInt64

/-! ## Readiness -/

/-- Maximum number of objects in a single `sys_wait_any` call. -/
def maxWaitObjects : Nat := 4

/-- A looked-up `WaitEntry`. -/
inductive WaitObject where
  | endpoint (kva : Kva)
  | notification (kva : Kva) (threshold : UInt64)
  deriving DecidableEq, Repr

def validateWaitCount (count : Nat) : Bool := count ≤ maxWaitObjects

def isEndpointReady (state : EpState) : Bool := state = .hasWaiters

def isNotificationReady (currentValue threshold : UInt64) : Bool := threshold ≤ currentValue

/-- Bit `i` of the mask is set if object `i` is ready. -/
def computeReadyMask (objects : List Bool) : Nat :=
  objects.zipIdx.foldl (fun mask x => if x.1 = true then mask ||| 1 <<< x.2 else mask) 0

inductive WaiterError where
  | alreadyRegistered
  deriving DecidableEq, Repr

namespace ReadinessWaiter

/-- Register a waiter; fails if another one is registered. -/
def register (waiter tcb : Kva) : Except WaiterError Kva :=
  if waiter ≠ 0 then .error .alreadyRegistered else .ok tcb

/-- The slot after a registration whose result is discarded. -/
def registerIgnoring (waiter tcb : Kva) : Kva :=
  match register waiter tcb with
  | .ok w => w
  | .error _ => waiter

/-- Clear the waiter only if it is the expected one. -/
def clearIfMatch (waiter expected : Kva) : Kva × Bool :=
  if waiter = expected ∧ expected ≠ 0 then (0, true) else (waiter, false)

end ReadinessWaiter

/-! ## Kernel state -/

/-- `MonoTicks::NO_DEADLINE`. -/
def noDeadline : UInt64 := 0xffffffffffffffff

def hasExpired (deadline now : UInt64) : Bool :=
  if deadline = noDeadline then false else deadline ≤ now

/-- The `sys_wait_any` fields of a TCB. -/
structure TcbWait where
  waitObjects : List WaitObject
  waitDeadline : UInt64

/-- The fields of a fresh TCB. -/
def TcbWait.init : TcbWait := ⟨[], noDeadline⟩

/-- The call a thread is inside. -/
inductive WaitOp where
  | any
  | notification (kva : Kva)
  deriving DecidableEq, Repr

/-- Maximum number of IRQ-to-Notification bindings. -/
def maxBindings : Nat := 256

structure Binding where
  notifKva : Kva
  ownerProcessKva : Kva
  levelTriggered : Bool

/-- The IPC kernel with notifications, waits, interrupts and the timer. -/
structure Sys extends Kernel where
  notification : Kva → NotificationObject
  wait : Kva → TcbWait
  waiting : Kva → Option WaitOp
  /-- ProcessObject of a thread. -/
  processKva : Kva → Kva
  bindings : Nat → Option Binding
  /-- Interrupts enabled in the GIC distributor. -/
  spiEnabled : Nat → Bool
  /-- The scheduler's `active` flag. -/
  active : Bool
  tickCount : Nat
  /-- How often a CPU's timer has been armed by a tick. -/
  timerArms : Fin maxCpus → Nat

/-- The panics of these paths. -/
inductive Panic where
  | ipc (p : IpcPanic)
  /-- "wake_expired_deadlines: unblock failed for idx {}" -/
  | deadlineUnblock
  deriving DecidableEq, Repr

/-- What a wait call does, up to its return or block point. -/
inductive WaitOut where
  | returned (value : Nat)
  | failed (e : NotificationError)
  | invalidParameter
  | blocked
  deriving DecidableEq, Repr

def lift {α : Type} : Except IpcPanic α → Except Panic α := Except.mapError .ipc

namespace Sys

@[simps toKernel notification wait waiting]
def setKernel (x : Sys) (k : Kernel) : Sys := { x with toKernel := k }

@[simps toKernel notification wait waiting]
def updNotification (x : Sys) (n : Kva) (f : NotificationObject → NotificationObject) : Sys :=
  { x with notification := Function.update x.notification n (f (x.notification n)) }

@[simps toKernel notification wait waiting]
def updWait (x : Sys) (t : Kva) (f : TcbWait → TcbWait) : Sys :=
  { x with wait := Function.update x.wait t (f (x.wait t)) }

@[simps toKernel notification wait waiting]
def setWaiting (x : Sys) (t : Kva) (op : Option WaitOp) : Sys :=
  { x with waiting := Function.update x.waiting t op }

/-- `scheduler::unblock_thread`. -/
def unblockThread (x : Sys) (t : Kva) : Except Panic Sys := do
  let k ← lift (x.toKernel.unblockThread t)
  pure (x.setKernel k)

/-- Enter `block_current`: the current thread `t` goes to Blocked inside `op`. -/
def blockCurrent (x : Sys) (cpu : Fin maxCpus) (t : Kva) (op : WaitOp) : Except Panic Sys :=
  match x.sched.blockCurrent cpu with
  | .error e => .error (.ipc (.sched e))
  | .ok (.error _) => .error (.ipc .blockNotRunning)
  | .ok (.ok s) => .ok ((x.setKernel (x.toKernel.setSched s)).setWaiting t (some op))

/-! ## Notifications -/

/-- Wake the thread blocked in `sys_wait_notification`. -/
def wakeBlocked (x : Sys) (n : Kva) : Except Panic Sys :=
  (x.updNotification n fun o => { o with blockedTcbKva := 0 }).unblockThread
    (x.notification n).blockedTcbKva

/-- Act on the state machine's answer to a signal. -/
def applySignal (x : Sys) (n : Kva) : SignalResult → Except Panic Sys
  | .updated => .ok x
  | .wakeWaiter => x.wakeBlocked n

/-- Wake the readiness waiter if the new value meets its threshold. -/
def wakeReadiness (x : Sys) (n : Kva) (newValue : UInt64) : Except Panic Sys :=
  let o := x.notification n
  if o.readinessWaiter ≠ 0 ∧ isNotificationReady newValue o.readinessThreshold = true then
    (x.updNotification n fun o => { o with readinessWaiter := 0, readinessThreshold := 0
      }).unblockThread o.readinessWaiter
  else .ok x

/-- Signal a notification with a new timeline value. -/
def notificationSignal (x : Sys) (n : Kva) (newValue : UInt64) :
    Except Panic (Sys × Except NotificationError Unit) :=
  match (x.notification n).state.signal newValue with
  | .error e => .ok (x, .error e)
  | .ok (state, result) => do
    let x ← (x.updNotification n fun o => { o with state := state }).applySignal n result
    let x ← x.wakeReadiness n newValue
    pure (x, .ok ())

/-- Wait on a notification until the timeline value reaches the threshold. -/
def notificationWait (x : Sys) (cpu : Fin maxCpus) (n : Kva) (threshold : UInt64) :
    Except Panic (Sys × WaitOut) :=
  match (x.notification n).state.wait threshold with
  | .error e => .ok (x, .failed e)
  | .ok (_, .ready) => .ok (x, .returned (x.notification n).state.value.toNat)
  | .ok (state, .block) => do
    let x := x.updNotification n fun o => { o with state := state }
    let caller ← lift (x.toKernel.currentTcbKva cpu)
    let x := x.updNotification n fun o => { o with blockedTcbKva := caller }
    let x := x.setKernel (x.toKernel.updTcb caller fun t => { t with ipcBlockedOn := n })
    let x ← x.blockCurrent cpu caller (.notification n)
    pure (x, .blocked)

/-! ## sys_wait_any -/

def isReady (x : Sys) : WaitObject → Bool
  | .endpoint e => isEndpointReady (x.endpoint e).state
  | .notification n threshold => isNotificationReady (x.notification n).state.value threshold

/-- Build the readiness snapshot of the objects and compute the mask. -/
def checkReadiness (x : Sys) (objs : List WaitObject) : Nat :=
  computeReadyMask (objs.map x.isReady)

def setReadinessWaiter (x : Sys) (tcb : Kva) : WaitObject → Sys
  | .endpoint e => x.setKernel (x.toKernel.updEp e fun ep =>
    { ep with readinessWaiter := ReadinessWaiter.registerIgnoring ep.readinessWaiter tcb })
  | .notification n threshold => x.updNotification n fun o =>
    { o with
      readinessWaiter := ReadinessWaiter.registerIgnoring o.readinessWaiter tcb
      readinessThreshold := threshold }

def clearReadinessWaiter (x : Sys) (tcb : Kva) : WaitObject → Sys
  | .endpoint e => x.setKernel (x.toKernel.updEp e fun ep =>
    { ep with readinessWaiter := (ReadinessWaiter.clearIfMatch ep.readinessWaiter tcb).1 })
  | .notification n _ => x.updNotification n fun o =>
    let (waiter, cleared) := ReadinessWaiter.clearIfMatch o.readinessWaiter tcb
    { o with
      readinessWaiter := waiter
      readinessThreshold := if cleared then 0 else o.readinessThreshold }

/-- The slow path of `sys_wait_any`: register on each object, store the wait
    state in the TCB and block. -/
def waitSlow (x : Sys) (cpu : Fin maxCpus) (tcb : Kva) (objs : List WaitObject)
    (deadline : UInt64) : Except Panic Sys :=
  let x := objs.foldl (fun x o => x.setReadinessWaiter tcb o) x
  let x := x.updWait tcb fun _ => ⟨objs, deadline⟩
  x.blockCurrent cpu tcb .any

/-- `sys_wait_any` up to its return or block point. -/
def sysWaitAny (x : Sys) (cpu : Fin maxCpus) (objs : List WaitObject) (deadline now : UInt64) :
    Except Panic (Sys × WaitOut) :=
  if validateWaitCount objs.length = false then .ok (x, .invalidParameter)
  else do
    let tcb ← lift (x.toKernel.currentTcbKva cpu)
    if x.checkReadiness objs ≠ 0 then pure (x, .returned (x.checkReadiness objs))
    else if hasExpired deadline now = true then pure (x, .returned 0)
    else do
      let x ← x.waitSlow cpu tcb objs deadline
      pure (x, .blocked)

/-- `sys_wait_any` after `block_current`: clear the deadline, unregister from
    each stored object, forget them. -/
def waitCleanup (x : Sys) (tcb : Kva) : Sys :=
  let objs := (x.wait tcb).waitObjects
  let x := x.updWait tcb fun w => { w with waitDeadline := noDeadline }
  let x := objs.foldl (fun x o => x.clearReadinessWaiter tcb o) x
  x.updWait tcb fun w => { w with waitObjects := [] }

/-- What a thread does when `block_current` returns inside a wait. -/
def resumeWait (x : Sys) (cpu : Fin maxCpus) : Except Panic (Sys × WaitOut) := do
  let tcb ← lift (x.toKernel.currentTcbKva cpu)
  match x.waiting tcb with
  | none => pure (x, .invalidParameter)
  | some .any =>
    let objs := (x.wait tcb).waitObjects
    let x := (x.waitCleanup tcb).setWaiting tcb none
    pure (x, .returned (x.checkReadiness objs))
  | some (.notification n) =>
    pure (x.setWaiting tcb none, .returned (x.notification n).state.value.toNat)

/-! ## Timer tick -/

/-- One iteration of `wake_expired_deadlines`. -/
def wakeExpired (now : UInt64) (x : Sys) (idx : Fin maxThreads) : Except Panic Sys :=
  match x.threads idx with
  | none => .ok x
  | some kva =>
    if hasExpired (x.wait kva).waitDeadline now = false then .ok x
    else if x.sched.get idx ≠ some .blocked then .ok x
    else
      let x := x.updWait kva fun w => { w with waitDeadline := noDeadline }
      match x.sched.unblock idx with
      | .ok s => .ok (x.setKernel (x.toKernel.setSched s))
      | .error _ => .error .deadlineUnblock

/-- Wake every Blocked thread whose deadline has expired. -/
def wakeExpiredDeadlines (x : Sys) (now : UInt64) : Except Panic Sys :=
  (List.finRange maxThreads).foldlM (wakeExpired now) x

/-- Number of registered threads. -/
def threadCount (x : Sys) : Nat :=
  (List.finRange maxThreads).countP fun i => (x.sched.states i).isSome

/-- `scheduler::tick`. -/
def tick (x : Sys) (cpu : Fin maxCpus) : Except Panic Sys :=
  let sched (op : SchedState.SchedOp) : Except Panic Sys := do
    let k ← lift (x.toKernel.schedOp op)
    pure (x.setKernel k)
  if x.active = false ∨ x.threadCount < 2 then .ok x
  else
    match x.sched.tryCurrentFor cpu with
    | none => sched (.stepFromIdle cpu)
    | some current =>
      match x.sched.get current with
      | some .exited => sched (.step cpu .block)
      | some .running => sched (.step cpu .preempt)
      | _ => .ok x

/-- `timer::handle_tick`. -/
def handleTick (x : Sys) (cpu : Fin maxCpus) (now : UInt64) : Except Panic Sys := do
  let x := { x with
    tickCount := x.tickCount + 1
    timerArms := Function.update x.timerArms cpu (x.timerArms cpu + 1) }
  let x ← x.wakeExpiredDeadlines now
  x.tick cpu

/-! ## Interrupts -/

/-- The kernel's reschedule SGI, which cannot be bound. -/
def reservedIntidSgiResched : Nat := 0

/-- The virtual timer's interrupt. -/
def timerIntid : Nat := 27

/-- `irq_bind::bind`. -/
def bind (x : Sys) (intid : Nat) (b : Binding) : Sys × Bool :=
  if intid ≥ maxBindings ∨ intid = reservedIntidSgiResched then (x, false)
  else if (x.bindings intid).isSome then (x, false)
  else ({ x with bindings := Function.update x.bindings intid (some b) }, true)

/-- `irq_bind::lookup`. -/
def lookupBinding (x : Sys) (intid : Nat) : Option Kva :=
  if intid ≥ maxBindings then none else (x.bindings intid).map Binding.notifKva

/-- `irq_bind::is_level_triggered`. -/
def isLevelTriggered (x : Sys) (intid : Nat) : Bool :=
  if intid ≥ maxBindings then false else ((x.bindings intid).map Binding.levelTriggered).getD false

/-- `irq_bind::is_owner`. -/
def isOwner (x : Sys) (intid : Nat) (processKva : Kva) : Bool :=
  if intid ≥ maxBindings then false
  else ((x.bindings intid).map fun b => b.ownerProcessKva == processKva).getD false

def setSpi (x : Sys) (intid : Nat) (on : Bool) : Sys :=
  { x with spiEnabled := Function.update x.spiEnabled intid on }

/-- `sys_bind_irq`, after the lookup of the notification handle. -/
def sysBindIrq (x : Sys) (cpu : Fin maxCpus) (intid : Nat) (n : Kva) (edgeTriggered : Bool) :
    Except Panic (Sys × Bool) := do
  let tcb ← lift (x.toKernel.currentTcbKva cpu)
  let (x, ok) := x.bind intid ⟨n, x.processKva tcb, !edgeTriggered⟩
  if ok ∧ intid ≥ 32 then pure (x.setSpi intid true, ok) else pure (x, ok)

def sysUnmaskIrq (x : Sys) (cpu : Fin maxCpus) (intid : Nat) : Except Panic (Sys × Bool) :=
  if intid < 32 then .ok (x, false)
  else do
    let tcb ← lift (x.toKernel.currentTcbKva cpu)
    if x.isOwner intid (x.processKva tcb) = true then pure (x.setSpi intid true, true)
    else pure (x, false)

/-- `irq_dispatch` on `cpu`, for the acknowledged `intid`. -/
def irqDispatch (x : Sys) (cpu : Fin maxCpus) (intid : Nat) (now : UInt64) : Except Panic Sys :=
  match x.lookupBinding intid with
  | some n => do
    let x := if x.isLevelTriggered intid = true ∧ intid ≥ 32 then x.setSpi intid false else x
    let newValue := (x.notification n).state.value + 1
    let (x, _) ← x.notificationSignal n newValue
    pure x
  | none =>
    -- the spurious interrupt and the unexpected ones have no effect
    if intid = timerIntid then x.handleTick cpu now else .ok x

/-! ## The system -/

/-- What can happen next, under the kernel lock. -/
inductive Action where
  /-- IPC, scheduling, and the registration of a thread. -/
  | kernel (act : Kernel.Action)
  | signal (cpu : Fin maxCpus) (n : Kva) (value : UInt64)
  | waitNotification (cpu : Fin maxCpus) (n : Kva) (threshold : UInt64)
  | waitAny (cpu : Fin maxCpus) (objs : List WaitObject) (deadline now : UInt64)
  /-- The running thread of `cpu` returns from `block_current` inside a wait. -/
  | resumeWait (cpu : Fin maxCpus)
  | bindIrq (cpu : Fin maxCpus) (intid : Nat) (n : Kva) (edgeTriggered : Bool)
  | unmaskIrq (cpu : Fin maxCpus) (intid : Nat)
  /-- `scheduler::start` -/
  | start
  /-- CPU `cpu` takes interrupt `intid` at time `now`. -/
  | irq (cpu : Fin maxCpus) (intid : Nat) (now : UInt64)

/-- Run an action of the IPC kernel; a new thread has a fresh TCB. -/
def execKernel (x : Sys) (act : Kernel.Action) : Except Panic Sys := do
  let (k, _) ← lift (x.toKernel.exec act)
  match act with
  | .addThread kva => pure ((x.setKernel k).updWait kva fun _ => TcbWait.init)
  | _ => pure (x.setKernel k)

def exec (x : Sys) : Action → Except Panic Sys
  | .kernel act => x.execKernel act
  | .signal _ n value => do
    let (x, _) ← x.notificationSignal n value
    pure x
  | .waitNotification cpu n threshold => do
    let (x, _) ← x.notificationWait cpu n threshold
    pure x
  | .waitAny cpu objs deadline now => do
    let (x, _) ← x.sysWaitAny cpu objs deadline now
    pure x
  | .resumeWait cpu => do
    let (x, _) ← x.resumeWait cpu
    pure x
  | .bindIrq cpu intid n edgeTriggered => do
    let (x, _) ← x.sysBindIrq cpu intid n edgeTriggered
    pure x
  | .unmaskIrq cpu intid => do
    let (x, _) ← x.sysUnmaskIrq cpu intid
    pure x
  | .start => .ok { x with active := true }
  | .irq cpu intid now => x.irqDispatch cpu intid now

/-- Thread `t` executes on `cpu` outside any call. -/
def Free (x : Sys) (cpu : Fin maxCpus) (t : Kva) : Prop :=
  x.toKernel.Executes cpu t ∧ x.pending t = none ∧ x.waiting t = none

/-- When an action can happen: a thread makes a call from outside any other
    one, and interrupts can arrive anywhere. -/
def Enabled (x : Sys) : Action → Prop
  | .kernel act => x.toKernel.Enabled act ∧
      ∀ cpu op t, act = .issue cpu op → x.toKernel.Executes cpu t → x.waiting t = none
  | .signal cpu _ _ | .waitNotification cpu _ _ | .waitAny cpu _ _ _ | .bindIrq cpu _ _ _
  | .unmaskIrq cpu _ => ∃ t, x.Free cpu t
  | .resumeWait cpu => ∃ t, x.toKernel.Executes cpu t ∧ x.waiting t ≠ none
  | .start | .irq _ _ _ => True

/-- Boot: nobody waits, nothing is bound, every notification is new. -/
def boot (processKva : Kva → Kva) : Sys where
  toKernel := Kernel.boot
  notification := fun _ => ⟨.new, 0, 0, 0⟩
  wait := fun _ => TcbWait.init
  waiting := fun _ => none
  processKva := processKva
  bindings := fun _ => none
  spiEnabled := fun _ => false
  active := false
  tickCount := 0
  timerArms := fun _ => 0

/-- Runs from boot whose every step satisfies `P`. -/
inductive Run (P : Sys → Action → Prop) : Sys → Prop
  | boot (processKva : Kva → Kva) : Run P (boot processKva)
  | step {x x' : Sys} (act : Action) (hrun : Run P x) (henabled : x.Enabled act) (hP : P x act)
      (hexec : x.exec act = .ok x') : Run P x'

end Sys

end Lockjaw.Wait
