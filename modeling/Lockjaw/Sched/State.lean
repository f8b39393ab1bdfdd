/-
  Lockjaw.Sched.State

  The scheduler state machine of `lockjaw-types/src/scheduler.rs`: per-CPU
  current threads, thread states, the round-robin selector, and the
  transitions the kernel is allowed to make.

  Rust's `panic!`/`assert!` exits are the `error` side of `Except SchedPanic`;
  the recoverable `Result<_, SchedError>` exits are `Except SchedError`.
  The two fixed-size arrays are functions on `Fin`.  Writes
  `self.states[i] = x` go through `setState`: each one in the source follows a
  successful `get(i)`, so the index is in bounds there.
-/

import Lockjaw.Lib.RingScan

namespace Lockjaw.Sched

open Lib List

inductive SchedThreadState where
  | ready
  | running
  | blocked
  | exited
  deriving DecidableEq, Repr

/-- Why scheduling was invoked. -/
inductive SchedReason where
  | preempt
  | block
  | exit
  deriving DecidableEq, Repr

inductive SchedDecision where
  | switchTo (next : Nat)
  | stayOnCurrent
  | waitForInterrupt
  | exitAndSwitch (exited next : Nat)
  | exitAndHalt (exited : Nat)
  deriving DecidableEq, Repr

/-- Errors from scheduler state transitions. -/
inductive SchedError where
  | invalidTransition
  | invalidIndex
  deriving DecidableEq, Repr

/-- The ways the scheduler model can stop the kernel.  `selectLoops` is not a
    panic of the source: it is the selector's loop failing to come back. -/
inductive SchedPanic where
  /-- "no current thread for this CPU" -/
  | noCurrent
  /-- "step(..) requires current thread to be .." -/
  | stepPrecondition (reason : SchedReason)
  /-- "internal: decide() produced a decision rejected by apply_decision" -/
  | decisionRejected (e : SchedError)
  /-- "CPU {} already has a current thread" -/
  | cpuHasCurrent
  /-- "thread {} is not Ready" -/
  | threadNotReady
  | selectLoops
  deriving DecidableEq, Repr

/-- Maximum number of threads the kernel can track simultaneously. -/
def maxThreads : Nat := 1024

/-- Maximum number of CPUs the platform can have. -/
def maxCpus : Nat := 4

instance : NeZero maxCpus := ⟨by decide⟩

/-- Per-CPU current thread and each thread's state. -/
structure SchedState where
  currentPerCpu : Fin maxCpus → Option Nat
  states : Fin maxThreads → Option SchedThreadState

/-! ## Selection -/

/-- Round-robin selection starting at `current + 1`.  `none` is the loop not coming back. -/
def selectNext (current threadCount : Nat) (reason : SchedReason)
    (getState : Nat → SchedThreadState) : Option SchedDecision :=
  let fallback : SchedDecision :=
    match reason with
    | .preempt =>
      match getState current with
      | .running => .stayOnCurrent
      | _ => .waitForInterrupt
    | .block => .waitForInterrupt
    | .exit => .exitAndHalt current
  if threadCount ≥ 2 then
    match ringScan (fun i => getState i == .ready) threadCount current threadCount
        ((current + 1) % threadCount) with
    | none => none
    | some none => some fallback
    | some (some next) =>
      match reason with
      | .exit => some (.exitAndSwitch current next)
      | _ => some (.switchTo next)
  else some fallback

/-- First thread reported as Ready, scanning from 0. -/
def selectForIdleCpu (threadCount : Nat) (getState : Nat → SchedThreadState) : Option Nat :=
  (range threadCount).find? fun i => getState i == .ready

namespace SchedState

/-- Create an empty state with no threads registered. -/
def newConst : SchedState where
  currentPerCpu := fun _ => none
  states := fun _ => none

/-- Thread state at an index (`none` if not registered or out of range). -/
def get (s : SchedState) (idx : Nat) : Option SchedThreadState :=
  if h : idx < maxThreads then s.states ⟨idx, h⟩ else none

/-- `self.states[idx] = x`. -/
def setState (s : SchedState) (idx : Nat) (x : Option SchedThreadState) : SchedState :=
  { s with states := fun j => if idx = j.val then x else s.states j }

/-- Current thread index of a CPU, or `none` if no thread is assigned. -/
def tryCurrentFor (s : SchedState) (cpu : Fin maxCpus) : Option Nat :=
  s.currentPerCpu cpu

/-- `self.current_per_cpu[cpu] = Some(idx)`. -/
def setCurrent (s : SchedState) (cpu : Fin maxCpus) (idx : Nat) : SchedState :=
  { s with currentPerCpu := fun c => if cpu = c then some idx else s.currentPerCpu c }

/-- Current thread index of a CPU; panics on an idle CPU. -/
def currentFor (s : SchedState) (cpu : Fin maxCpus) : Except SchedPanic Nat :=
  match s.tryCurrentFor cpu with
  | some idx => .ok idx
  | none => .error .noCurrent

/-- Whether some CPU has this thread as its current one. -/
def isCurrent (s : SchedState) (idx : Nat) : Bool :=
  (finRange maxCpus).any fun c => s.tryCurrentFor c == some idx

/-! ## Transitions -/

/-- Add a new thread as Ready in the first free slot, if there is one. -/
def addThread (s : SchedState) : SchedState × Option Nat :=
  match (range maxThreads).find? fun i => (s.get i).isNone with
  | some i => (s.setState i (some .ready), some i)
  | none => (s, none)

/-- True iff `addThread` would currently succeed. -/
def hasFreeSlot (s : SchedState) : Bool :=
  (finRange maxThreads).any fun i => (s.states i).isNone

/-- Number of registered threads. -/
def threadCount (s : SchedState) : Nat :=
  (finRange maxThreads).countP fun i => (s.states i).isSome

/-- Transition the current thread on `cpu` from Running to Blocked. -/
def blockCurrent (s : SchedState) (cpu : Fin maxCpus) :
    Except SchedPanic (Except SchedError SchedState) := do
  let current ← s.currentFor cpu
  match s.get current with
  | some .running => pure (.ok (s.setState current (some .blocked)))
  | _ => pure (.error .invalidTransition)

/-- Mark a Blocked thread as ready to run.  A thread that is current on some
    CPU is parked in that CPU's `wfi` and goes straight back to Running. -/
def unblock (s : SchedState) (idx : Nat) : Except SchedError SchedState :=
  match s.get idx with
  | some .blocked =>
    .ok (s.setState idx (some (if s.isCurrent idx then .running else .ready)))
  | some _ => .error .invalidTransition
  | none => .error .invalidIndex

/-- Remove an Exited thread that is not current on any CPU. -/
def removeThread (s : SchedState) (idx : Nat) : Except SchedError SchedState :=
  if s.isCurrent idx then .error .invalidTransition
  else
    match s.get idx with
    | some .exited => .ok (s.setState idx none)
    | some _ => .error .invalidTransition
    | none => .error .invalidIndex

/-- Compute the scheduling decision.  A thread Running on another CPU is
    reported as Blocked so that the selector skips it. -/
def decide (s : SchedState) (current : Nat) (reason : SchedReason) : Option SchedDecision :=
  selectNext current maxThreads reason fun i =>
    let state := (s.get i).getD .blocked
    if state = .running ∧ i ≠ current then .blocked else state

/-- Apply a scheduling decision on `cpu`, whose current thread is `current`. -/
def applyDecision (s : SchedState) (cpu : Fin maxCpus) (current : Nat)
    (reason : SchedReason) : SchedDecision → Except SchedError SchedState
  | .switchTo newIdx =>
    if s.get newIdx ≠ some .ready then .error .invalidTransition
    else if reason = .preempt then
      if s.get current ≠ some .running then .error .invalidTransition
      else .ok (((s.setState current (some .ready)).setState newIdx (some .running)).setCurrent
        cpu newIdx)
    else if s.get current ≠ some .blocked ∧ s.get current ≠ some .exited then
      .error .invalidTransition
    else .ok ((s.setState newIdx (some .running)).setCurrent cpu newIdx)
  | .stayOnCurrent =>
    if reason ≠ .preempt then .error .invalidTransition
    else if s.get current ≠ some .running then .error .invalidTransition
    else if (range maxThreads).any fun i => i != current && s.get i == some .ready then
      .error .invalidTransition
    else .ok s
  | .waitForInterrupt =>
    if (finRange maxThreads).any fun i => s.states i == some .ready then
      .error .invalidTransition
    else .ok s
  | .exitAndSwitch exited next =>
    if reason ≠ .exit then .error .invalidTransition
    else if s.get exited ≠ some .running then .error .invalidTransition
    else if s.get next ≠ some .ready then .error .invalidTransition
    else .ok (((s.setState exited (some .exited)).setState next (some .running)).setCurrent
      cpu next)
  | .exitAndHalt exited =>
    if reason ≠ .exit then .error .invalidTransition
    else if s.get exited ≠ some .running then .error .invalidTransition
    else .ok (s.setState exited (some .exited))

/-- The entry condition `step` asserts on the current thread's state. -/
def stepPrecondition (reason : SchedReason) (cur : Option SchedThreadState) : Bool :=
  match reason with
  | .preempt => cur == some .running
  | .block => cur == some .blocked || cur == some .exited
  | .exit => cur == some .running

/-- Atomic scheduler step: check the entry condition, decide, apply. -/
def step (s : SchedState) (cpu : Fin maxCpus) (reason : SchedReason) :
    Except SchedPanic (SchedState × SchedDecision) := do
  let current ← s.currentFor cpu
  if stepPrecondition reason (s.get current) then
    match s.decide current reason with
    | none => throw .selectLoops
    | some decision =>
      match s.applyDecision cpu current reason decision with
      | .ok s' => pure (s', decision)
      | .error e => throw (.decisionRejected e)
  else throw (.stepPrecondition reason)

/-- Assign a Ready thread as the first current thread of an idle CPU. -/
def setInitialCurrent (s : SchedState) (cpu : Fin maxCpus) (idx : Nat) :
    Except SchedPanic SchedState :=
  if (s.tryCurrentFor cpu).isSome then .error .cpuHasCurrent
  else if s.get idx ≠ some .ready then .error .threadNotReady
  else .ok ((s.setState idx (some .running)).setCurrent cpu idx)

def stepFromIdle (s : SchedState) (cpu : Fin maxCpus) :
    Except SchedPanic (SchedState × Option SchedDecision) :=
  if (s.tryCurrentFor cpu).isSome then .error .cpuHasCurrent
  else
    let picked := selectForIdleCpu maxThreads fun i =>
      let state := (s.get i).getD .blocked
      if state = .running then .blocked else state
    match picked with
    | some next =>
      .ok ((s.setState next (some .running)).setCurrent cpu next, some (.switchTo next))
    | none => .ok (s, none)

/-- The invariants of a valid scheduler state, as the code checks them. -/
def checkInvariants (s : SchedState) : Bool :=
  -- each current thread is in bounds, registered, and not shared with another CPU
  ((finRange maxCpus).all fun c =>
    match s.tryCurrentFor c with
    | none => true
    | some idx =>
      Nat.blt idx maxThreads && (s.get idx).isSome &&
      (finRange maxCpus).all fun c2 =>
        !(c2 != c && s.tryCurrentFor c2 == some idx)) &&
  -- every Running thread is current on exactly one CPU
  ((range maxThreads).all fun i =>
    !(s.get i == some .running) ||
      (finRange maxCpus).countP (fun c => s.tryCurrentFor c == some i) == 1) &&
  -- the current thread of a CPU is never Ready
  ((finRange maxCpus).all fun c =>
    match s.tryCurrentFor c with
    | none => true
    | some idx => !(s.get idx == some .ready))

end SchedState

end Lockjaw.Sched
