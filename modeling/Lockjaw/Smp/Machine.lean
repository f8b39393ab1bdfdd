/-
  Lockjaw.Smp.Machine

  The kernel around the scheduler model, `src/sched/scheduler.rs`: the thread table,
  the wait loop of `block_current`, the two halves of a thread's exit, the thread
  counts of the processes, and the TTBR0 of each CPU.

  The giant lock makes each entry into the kernel one action, on the CPU that enters.
  An action ends where that CPU gives the lock up: at a return to EL0, at a `wfi`, or
  after a context switch, where the CPU goes on as another thread.  A thread's locals
  outlive its switches; the one that matters is the `cpu_id` of `block_current`.

  A TCB is reached through its slot, so the table holds what the scheduler reads of it.
  What a process owns goes with its object; the order of its teardown is the subject of
  `Cap`.  The kernel process has no thread once `init` runs and is left out.
-/

import Lockjaw.Sched.Run

namespace Lockjaw.Smp

open Sched Function

/-- Where a kernel stack comes from. -/
inductive KernelStackBase where
  /-- The boot stack of the kernel image. -/
  | image
  | pool
  | directMap
  deriving DecidableEq, Repr

structure Tcb where
  processKva : Nat
  stackBase : KernelStackBase
  deriving DecidableEq, Repr

structure ProcessObject where
  ttbr0Paddr : Nat
  threadCount : Nat
  immortal : Bool
  deriving DecidableEq, Repr

/-- A thread that exited on a CPU and waits for `finish_exit` there. -/
structure PendingExit where
  threadIdx : Nat
  tcb : Tcb
  deriving DecidableEq, Repr

/-- The ways the kernel stops.  `noProcess` is not one of the source's: it is the use of
    a process object after its page was freed. -/
inductive Panic where
  | sched (p : SchedPanic)
  /-- "block_current: not Running" -/
  | blockNotRunning
  /-- "block_current: invariant broken — current is Ready/Exited/absent" -/
  | loopInvariant
  /-- "unblock_thread: thread not in Blocked state" -/
  | notBlocked
  /-- An empty slot of the thread table is unwrapped. -/
  | noTcb
  /-- "schedule called with no current thread" -/
  | idleSchedule
  /-- "schedule() should never see Exit decisions" and its counterpart for `step(Exit)` -/
  | unexpectedDecision
  /-- "exit_current: previous exit not yet cleaned up" -/
  | exitPending
  /-- "finish_exit: remove_thread failed" -/
  | removeFailed
  /-- "finish_exit: boot TCB exited" -/
  | bootExited
  /-- "on_thread_exit: no threads to exit" -/
  | noThreads
  /-- "thread count overflow" -/
  | countOverflow
  /-- "scheduler::add_thread failed after has_room preflight" -/
  | noRoom
  | noProcess
  deriving DecidableEq, Repr

inductive ProcessLifecycle where
  | threadsRemaining (count : Nat)
  | lastThread
  | immortal (count : Nat)
  deriving DecidableEq, Repr

/-- What the actions report, for the history of the slots. -/
inductive Event where
  | created (idx : Nat)
  | exited (idx : Nat)
  /-- `finish_exit` is done with the thread; `released` says that its process went too. -/
  | cleaned (idx processKva : Nat) (released : Bool)
  /-- `block_current` returns to its caller. -/
  | returned (idx : Nat)
  deriving DecidableEq, Repr

structure Kernel where
  sched : SchedState
  threads : Nat → Option Tcb
  procs : Nat → Option ProcessObject
  pendingExits : Fin maxCpus → Option PendingExit
  ttbr0 : Fin maxCpus → Nat
  /-- `cpu_id` in the frame of a thread inside `block_current`. -/
  cpuId : Nat → Option (Fin maxCpus)

/-- Pure decision: what happens when a thread of the process exits. -/
def onThreadExit (threadCount : Nat) (immortal : Bool) : Except Panic ProcessLifecycle :=
  if threadCount = 0 then .error .noThreads
  else if immortal then .ok (.immortal (threadCount - 1))
  else if threadCount - 1 = 0 then .ok .lastThread
  else .ok (.threadsRemaining (threadCount - 1))

/-- The count is a `u32`. -/
def onThreadCreate (threadCount : Nat) : Except Panic Nat :=
  if threadCount + 1 < 2 ^ 32 then .ok (threadCount + 1) else .error .countOverflow

def ProcessLifecycle.newCount : ProcessLifecycle → Nat
  | threadsRemaining n | immortal n => n
  | lastThread => 0

def liftSched {α : Type} : Except SchedPanic α → Except Panic α
  | .ok a => .ok a
  | .error p => .error (.sched p)

namespace Kernel

def tcbOf (k : Kernel) (idx : Nat) : Except Panic Tcb :=
  match k.threads idx with
  | some tcb => .ok tcb
  | none => .error .noTcb

def processAt (k : Kernel) (processKva : Nat) : Except Panic ProcessObject :=
  match k.procs processKva with
  | some process => .ok process
  | none => .error .noProcess

def setProcess (k : Kernel) (processKva : Nat) (process : ProcessObject) : Kernel :=
  { k with procs := update k.procs processKva (some process) }

def processIncThreadCount (k : Kernel) (processKva : Nat) : Except Panic Kernel := do
  let process ← k.processAt processKva
  let count ← onThreadCreate process.threadCount
  return k.setProcess processKva { process with threadCount := count }

def processDecThreadCount (k : Kernel) (processKva : Nat) :
    Except Panic (Kernel × ProcessLifecycle) := do
  let process ← k.processAt processKva
  let lifecycle ← onThreadExit process.threadCount process.immortal
  return (k.setProcess processKva { process with threadCount := lifecycle.newCount }, lifecycle)

/-- `scheduler::add_thread` -/
def addThread (k : Kernel) (tcb : Tcb) : Except Panic (Kernel × Option Nat) :=
  match k.sched.addThread with
  | (_, none) => .ok (k, none)
  | (sched, some idx) => do
    let sched ← if idx = 0 then liftSched (sched.setInitialCurrent 0 idx) else .ok sched
    return ({ k with sched := sched, threads := update k.threads idx (some tcb) },
      some idx)

/-! ## Exit, second half -/

/-- The part of `finish_exit` after it has taken the CPU's record. -/
def cleanUp (k : Kernel) (cpu : Fin maxCpus) (pending : PendingExit) :
    Except Panic (Kernel × List Event) :=
  match k.sched.removeThread pending.threadIdx with
  | .error _ => .error .removeFailed
  | .ok sched => do
    let k : Kernel := { k with
      sched := sched
      threads := update k.threads pending.threadIdx none
      pendingExits := update k.pendingExits cpu none }
    if pending.tcb.stackBase = .image then throw .bootExited
    let (k, lifecycle) ← k.processDecThreadCount pending.tcb.processKva
    match lifecycle with
    | .lastThread =>
      return ({ k with procs := update k.procs pending.tcb.processKva none },
        [.cleaned pending.threadIdx pending.tcb.processKva true])
    | .threadsRemaining _ | .immortal _ =>
      return (k, [.cleaned pending.threadIdx pending.tcb.processKva false])

def finishExit (k : Kernel) (cpu : Fin maxCpus) : Except Panic (Kernel × List Event) :=
  match k.pendingExits cpu with
  | none => .ok (k, [])
  | some pending =>
    match k.sched.tryCurrentFor cpu with
    | none => .ok (k, [])
    | some current =>
      if pending.threadIdx = current then .ok (k, []) else k.cleanUp cpu pending

/-! ## Switching -/

/-- The TTBR0 swap before a context switch to `next`.  `schedule` passes the process it
    leaves; the other two callers have none to compare with. -/
def swapTtbr0 (k : Kernel) (cpu : Fin maxCpus) (oldProcess : Option Nat) (next : Nat) :
    Except Panic Kernel := do
  let newTcb ← k.tcbOf next
  let process ← k.processAt newTcb.processKva
  if process.ttbr0Paddr ≠ 0 ∧ oldProcess ≠ some newTcb.processKva then
    return { k with ttbr0 := update k.ttbr0 cpu process.ttbr0Paddr }
  else return k

/-- `schedule` after its `finish_exit`. -/
def scheduleNow (k : Kernel) (cpu : Fin maxCpus) (reason : SchedReason) : Except Panic Kernel :=
  match k.sched.tryCurrentFor cpu with
  | none => .error .idleSchedule
  | some oldIdx => do
    let oldTcb ← k.tcbOf oldIdx
    let (sched, decision) ← liftSched (k.sched.step cpu reason)
    let k : Kernel := { k with sched := sched }
    match decision with
    | .switchTo next => k.swapTtbr0 cpu (some oldTcb.processKva) next
    | .stayOnCurrent | .waitForInterrupt => return k
    | .exitAndSwitch _ _ | .exitAndHalt _ => throw .unexpectedDecision

def schedule (k : Kernel) (cpu : Fin maxCpus) (reason : SchedReason) :
    Except Panic (Kernel × List Event) := do
  let (k, events) ← k.finishExit cpu
  return (← k.scheduleNow cpu reason, events)

def scheduleFromIdle (k : Kernel) (cpu : Fin maxCpus) : Except Panic (Kernel × List Event) := do
  let (k, events) ← k.finishExit cpu
  match ← liftSched (k.sched.stepFromIdle cpu) with
  | (_, none) => return (k, events)
  | (sched, some (.switchTo next)) =>
    return (← ({ k with sched := sched } : Kernel).swapTtbr0 cpu none next, events)
  | (_, some _) => throw .unexpectedDecision

/-! ## The entries -/

/-- What a turn of `block_current`'s loop decides: return, or `schedule(Block)`.  It looks
    at the current thread of `cpuId`, the CPU on which the call began. -/
def waitTurn (k : Kernel) (cpuId : Fin maxCpus) : Except Panic Bool := do
  let current ← liftSched (k.sched.currentFor cpuId)
  match k.sched.get current with
  | some .running => return true
  | some .blocked => return false
  | _ => throw .loopInvariant

/-- One turn of the loop, by the current thread of `cpu`. -/
def waitLoop (k : Kernel) (cpu cpuId : Fin maxCpus) : Except Panic (Kernel × List Event) := do
  if ← k.waitTurn cpuId then
    let caller ← liftSched (k.sched.currentFor cpu)
    return ({ k with cpuId := update k.cpuId caller none }, [.returned caller])
  else k.schedule cpu .block

def blockCurrent (k : Kernel) (cpu : Fin maxCpus) : Except Panic (Kernel × List Event) := do
  let current ← liftSched (k.sched.currentFor cpu)
  match ← liftSched (k.sched.blockCurrent cpu) with
  | .error _ => throw .blockNotRunning
  | .ok sched =>
    let k : Kernel := { k with
      sched := sched
      cpuId := update k.cpuId current (some cpu) }
    k.waitLoop cpu cpu

/-- The current thread of `cpu` comes out of its `wfi` inside `block_current`, with the
    lock again. -/
def recheck (k : Kernel) (cpu : Fin maxCpus) : Except Panic (Kernel × List Event) := do
  let current ← liftSched (k.sched.currentFor cpu)
  match k.cpuId current with
  | some cpuId => k.waitLoop cpu cpuId
  | none => return (k, [])

/-- `unblock_thread` and `wake_expired_deadlines`, for the thread they found. -/
def unblockThread (k : Kernel) (idx : Nat) : Except Panic (Kernel × List Event) :=
  match k.sched.unblock idx with
  | .ok sched => .ok ({ k with sched := sched }, [])
  | .error _ => .error .notBlocked

def recordExit (k : Kernel) (cpu : Fin maxCpus) (exited : Nat) : Except Panic Kernel := do
  let tcb ← k.tcbOf exited
  return { k with pendingExits := update k.pendingExits cpu (some ⟨exited, tcb⟩) }

/-- `exit_current` after its `finish_exit`. -/
def exitNow (k : Kernel) (cpu : Fin maxCpus) : Except Panic (Kernel × List Event) := do
  if (k.pendingExits cpu).isSome then throw .exitPending
  let (sched, decision) ← liftSched (k.sched.step cpu .exit)
  let k : Kernel := { k with sched := sched }
  match decision with
  | .exitAndSwitch exited next =>
    let k ← k.recordExit cpu exited
    return (← k.swapTtbr0 cpu none next, [.exited exited])
  | .exitAndHalt exited =>
    let k ← k.recordExit cpu exited
    let (k, events) ← k.schedule cpu .block
    return (k, .exited exited :: events)
  | .switchTo _ | .stayOnCurrent | .waitForInterrupt => throw .unexpectedDecision

def exitCurrent (k : Kernel) (cpu : Fin maxCpus) : Except Panic (Kernel × List Event) := do
  let (k, events) ← k.finishExit cpu
  let (k, more) ← k.exitNow cpu
  return (k, events ++ more)

/-- The timer tick, once the scheduler is active. -/
def tick (k : Kernel) (cpu : Fin maxCpus) : Except Panic (Kernel × List Event) :=
  if k.sched.threadCount < 2 then .ok (k, [])
  else
    match k.sched.tryCurrentFor cpu with
    | none => k.scheduleFromIdle cpu
    | some current =>
      match k.sched.get current with
      | some .exited => k.schedule cpu .block
      | some .running => k.schedule cpu .preempt
      | _ => .ok (k, [])

/-- The last part of a creation: count the thread and register it. -/
def register (k : Kernel) (tcb : Tcb) : Except Panic (Kernel × List Event) := do
  let k ← k.processIncThreadCount tcb.processKva
  match ← k.addThread tcb with
  | (_, none) => throw .noRoom
  | (k, some idx) => return (k, [.created idx])

/-- `sys_create_thread`, when both donations succeed. -/
def createThread (k : Kernel) (cpu : Fin maxCpus) : Except Panic (Kernel × List Event) := do
  let current ← liftSched (k.sched.currentFor cpu)
  let tcb ← k.tcbOf current
  if k.sched.hasFreeSlot then k.register ⟨tcb.processKva, .pool⟩ else return (k, [])

/-- `sys_create_process`, when nothing before its registration fails. -/
def createProcess (k : Kernel) (processKva ttbr0 : Nat) : Except Panic (Kernel × List Event) :=
  if k.sched.hasFreeSlot then
    (k.setProcess processKva ⟨ttbr0, 0, false⟩).register ⟨processKva, .directMap⟩
  else .ok (k, [])

/-- `process_entry`: the first return of a thread to EL0 installs its TTBR0 again. -/
def processEntry (k : Kernel) (cpu : Fin maxCpus) : Except Panic (Kernel × List Event) := do
  let current ← liftSched (k.sched.currentFor cpu)
  let tcb ← k.tcbOf current
  let process ← k.processAt tcb.processKva
  return ({ k with ttbr0 := update k.ttbr0 cpu process.ttbr0Paddr }, [])

end Kernel

/-! ## Actions and runs -/

/-- One entry into the kernel. -/
inductive Action where
  | createThread (cpu : Fin maxCpus)
  | createProcess (cpu : Fin maxCpus) (processKva ttbr0 : Nat)
  | processEntry (cpu : Fin maxCpus)
  | block (cpu : Fin maxCpus)
  | recheck (cpu : Fin maxCpus)
  | wake (idx : Nat)
  | tick (cpu : Fin maxCpus)
  | exit (cpu : Fin maxCpus)
  /-- A thread that exited with nothing else to run comes out of its `wfi`. -/
  | exitRetry (cpu : Fin maxCpus)
  deriving DecidableEq, Repr

namespace Kernel

def exec (k : Kernel) : Action → Except Panic (Kernel × List Event)
  | .createThread cpu => k.createThread cpu
  | .createProcess _ processKva ttbr0 => k.createProcess processKva ttbr0
  | .processEntry cpu => k.processEntry cpu
  | .block cpu => k.blockCurrent cpu
  | .recheck cpu => k.recheck cpu
  | .wake idx => k.unblockThread idx
  | .tick cpu => k.tick cpu
  | .exit cpu => k.exitCurrent cpu
  | .exitRetry cpu => k.schedule cpu .block

/-- The CPU runs code of a thread that is not inside `block_current`. -/
def Executes (k : Kernel) (cpu : Fin maxCpus) : Prop :=
  ∃ i, k.sched.tryCurrentFor cpu = some i ∧ k.sched.get i = some .running ∧ k.cpuId i = none

/-- When an action can happen.  Wakes and ticks come at any time.  The pages of a new
    process are free pages, so neither its object nor its root belongs to a live one. -/
def Enabled (k : Kernel) : Action → Prop
  | .createProcess cpu processKva ttbr0 =>
    k.Executes cpu ∧ k.procs processKva = none ∧ ttbr0 ≠ 0 ∧
      ∀ p process, k.procs p = some process → process.ttbr0Paddr ≠ ttbr0
  | .createThread cpu | .processEntry cpu | .block cpu | .exit cpu => k.Executes cpu
  | .recheck cpu => ∃ i, k.sched.tryCurrentFor cpu = some i ∧ k.cpuId i ≠ none
  | .exitRetry cpu => ∃ i, k.sched.tryCurrentFor cpu = some i ∧ k.sched.get i = some .exited
  | .wake _ | .tick _ => True

/-- `init`'s first thread, in slot 0 on the boot stack, about to enter EL0 on CPU 0.  The
    other CPUs are idle on the boot page tables, written 0 here. -/
def boot (initProc root : Nat) : Kernel where
  sched := (SchedState.newConst.setState 0 (some .running)).setCurrent 0 0
  threads := update (fun _ => none) 0 (some ⟨initProc, .image⟩)
  procs := update (fun _ => none) initProc (some ⟨root, 1, false⟩)
  pendingExits := fun _ => none
  ttbr0 := fun cpu => if cpu = 0 then root else 0
  cpuId := fun _ => none

/-- The states the kernel goes through, each with what the actions so far reported. -/
inductive Run : Kernel → List Event → Prop
  | boot (initProc : Nat) {root : Nat} (hroot : root ≠ 0) : Run (boot initProc root) []
  | step {k k' : Kernel} {events more : List Event} {a : Action} (hrun : Run k events)
      (henabled : k.Enabled a) (hexec : k.exec a = .ok (k', more)) : Run k' (events ++ more)

end Kernel

end Lockjaw.Smp
