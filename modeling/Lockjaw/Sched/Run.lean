/-
  Lockjaw.Sched.Run

  What the selector decides, why `apply_decision` accepts it, and the
  scheduler invariant along every run of the operations the kernel issues.

  `Decided` says once what a decision can be and what held when it was made;
  everything about `step` is read off it.
-/

import Lockjaw.Sched.Invariant

namespace Lockjaw.Sched

open Lib

namespace SchedState

variable {s s' : SchedState} {i cur : Nat} {c : Fin maxCpus} {reason : SchedReason}

/-! ## The decision -/

/-- No thread other than `cur` is Ready. -/
def NoOtherReady (s : SchedState) (cur : Nat) : Prop :=
  ∀ i, i ≠ cur → s.get i ≠ some .ready

/-- The decisions `decide` can take for a CPU whose current thread is `cur`. -/
inductive Decided (s : SchedState) (cur : Nat) : SchedReason → SchedDecision → Prop
  | switchTo {reason : SchedReason} {next : Nat} (hreason : reason ≠ .exit)
      (hnext : s.get next = some .ready) : Decided s cur reason (.switchTo next)
  | stay (hcur : s.get cur = some .running) (hno : s.NoOtherReady cur) :
      Decided s cur .preempt .stayOnCurrent
  | wait {reason : SchedReason} (hreason : reason ≠ .exit)
      (hcur : reason = .preempt → s.get cur ≠ some .running) (hno : s.NoOtherReady cur) :
      Decided s cur reason .waitForInterrupt
  | exitAndSwitch {next : Nat} (hnext : s.get next = some .ready) :
      Decided s cur .exit (.exitAndSwitch cur next)
  | exitAndHalt (hno : s.NoOtherReady cur) : Decided s cur .exit (.exitAndHalt cur)

/-- What `decide` shows the selector for thread `i`. -/
def visibleState (s : SchedState) (cur i : Nat) : SchedThreadState :=
  let state := (s.get i).getD .blocked
  if state = .running ∧ i ≠ cur then .blocked else state

theorem visibleState_eq_ready_iff : s.visibleState cur i = .ready ↔ s.get i = some .ready := by
  simp only [visibleState]
  cases h : s.get i with
  | none => simp
  | some st => grind

theorem visibleState_self_eq_running_iff :
    s.visibleState cur cur = .running ↔ s.get cur = some .running := by
  cases h : s.get cur <;> simp [visibleState, h]

theorem two_le_maxThreads : 2 ≤ maxThreads := by decide

/-- The selector always returns, and returns one of the `Decided` outcomes. -/
theorem decide_spec (hcur : cur < maxThreads) (reason : SchedReason) :
    ∃ d, s.decide cur reason = some d ∧ s.Decided cur reason d := by
  have hn := two_le_maxThreads
  have hnext : (cur + 1) % maxThreads < maxThreads := Nat.mod_lt _ (by omega)
  have hdef : s.decide cur reason = selectNext cur maxThreads reason (s.visibleState cur) := rfl
  rw [hdef]
  simp only [selectNext, if_pos hn]
  have hsome := ringScan_isSome (p := fun i => s.visibleState cur i == .ready) hcur hn
  match hscan : ringScan (fun i => s.visibleState cur i == .ready) maxThreads cur maxThreads
      ((cur + 1) % maxThreads) with
  | none => simp [hscan] at hsome
  | some (some next) =>
    have hfound := (ringScan_found hnext hscan).1
    have hready : s.get next = some .ready :=
      visibleState_eq_ready_iff.mp (by simpa using hfound)
    cases reason with
    | preempt => exact ⟨_, rfl, .switchTo (by simp) hready⟩
    | block => exact ⟨_, rfl, .switchTo (by simp) hready⟩
    | exit => exact ⟨_, rfl, .exitAndSwitch hready⟩
  | some none =>
    -- the scan went once round the ring
    have hno : s.NoOtherReady cur := by
      intro i hi hready
      have h := ringScan_none hcur hn hscan (lt_of_get_eq_some hready) hi
      rw [visibleState_eq_ready_iff.mpr hready] at h
      simp at h
    cases reason with
    | block => exact ⟨_, rfl, .wait (by simp) (by simp) hno⟩
    | exit => exact ⟨_, rfl, .exitAndHalt hno⟩
    | preempt =>
      by_cases hrun : s.get cur = some .running
      · have hvis := visibleState_self_eq_running_iff.mpr hrun
        exact ⟨.stayOnCurrent, by simp only [hvis], .stay hrun hno⟩
      · have hvis : s.visibleState cur cur ≠ .running :=
          fun h => hrun (visibleState_self_eq_running_iff.mp h)
        refine ⟨.waitForInterrupt, ?_, .wait (by simp) (fun _ => hrun) hno⟩
        cases hv : s.visibleState cur cur <;> simp_all

/-- The state `apply_decision` leaves behind when it accepts. -/
def applied (s : SchedState) (c : Fin maxCpus) (cur : Nat) (reason : SchedReason) :
    SchedDecision → SchedState
  | .switchTo next =>
    if reason = .preempt then
      ((s.setState cur (some .ready)).setState next (some .running)).setCurrent c next
    else (s.setState next (some .running)).setCurrent c next
  | .stayOnCurrent | .waitForInterrupt => s
  | .exitAndSwitch exited next =>
    ((s.setState exited (some .exited)).setState next (some .running)).setCurrent c next
  | .exitAndHalt exited => s.setState exited (some .exited)

variable {d : SchedDecision} {ops : List SchedOp}

/-- A decision taken under `step`'s entry condition is never rejected. -/
theorem applyDecision_of_decided (hd : s.Decided cur reason d)
    (hpre : stepPrecondition reason (s.get cur) = true) :
    s.applyDecision c cur reason d = .ok (s.applied c cur reason d) := by
  -- the test of `apply_decision` looks at the current thread too
  have hno_any : s.NoOtherReady cur → s.get cur ≠ some .ready →
      ((List.finRange maxThreads).any fun k => s.states k == some .ready) = false := by
    intro hno hcur
    rw [Bool.eq_false_iff]
    simp only [ne_eq, List.any_eq_true, beq_iff_eq]
    rintro ⟨k, -, hready⟩
    have hget : s.get k = some .ready := by simp [get, hready]
    by_cases hkc : k.val = cur
    · exact hcur (hkc ▸ hget)
    · exact hno k hkc hget
  cases hd with
  | switchTo hreason hnext =>
    cases reason with
    | preempt => simp_all [applyDecision, applied, stepPrecondition]
    | block => grind [applied, applyDecision, stepPrecondition]
    | exit => exact absurd rfl hreason
  | stay hcur hno =>
    have hany : ((List.range maxThreads).any fun i =>
        i != cur && s.get i == some .ready) = false := by
      rw [Bool.eq_false_iff]
      simp only [ne_eq, List.any_eq_true, Bool.and_eq_true, bne_iff_ne, beq_iff_eq]
      rintro ⟨k, -, hk, hready⟩
      exact hno k hk hready
    simp [applyDecision, applied, hcur, hany]
  | wait hreason hcur hno =>
    have hnotready : s.get cur ≠ some .ready := by
      intro hready
      cases reason <;> simp [stepPrecondition, hready] at hpre
    simp [applyDecision, applied, hno_any hno hnotready]
  | exitAndSwitch hnext =>
    have hcur : s.get cur = some .running := by simpa [stepPrecondition] using hpre
    simp [applyDecision, applied, hcur, hnext]
  | exitAndHalt hno =>
    have hcur : s.get cur = some .running := by simpa [stepPrecondition] using hpre
    simp [applyDecision, applied, hcur]

/-- `step` under its entry condition: it returns, and does what `Decided` says. -/
theorem step_spec (h : s.Inv) (hc : s.tryCurrentFor c = some cur)
    (hpre : stepPrecondition reason (s.get cur) = true) :
    ∃ d, s.decide cur reason = some d ∧ s.Decided cur reason d ∧
      s.step c reason = .ok (s.applied c cur reason d, d) := by
  obtain ⟨d, hdec, hd⟩ :=
    decide_spec (s := s) (lt_of_get (h.current_registered c cur hc)) reason
  refine ⟨d, hdec, hd, ?_⟩
  simp only [step, currentFor, hc]
  simp only [bind, Except.bind, hpre, if_true, hdec, applyDecision_of_decided (c := c) hd hpre]
  rfl

/-- Applying a decision keeps the invariant. -/
theorem Inv.applied (h : s.Inv) (hc : s.tryCurrentFor c = some cur)
    (hd : s.Decided cur reason d) (hpre : stepPrecondition reason (s.get cur) = true) :
    (s.applied c cur reason d).Inv := by
  cases hd with
  | switchTo hreason hnext =>
    cases reason with
    | preempt => exact h.switch hc hnext (by simp)
    | block =>
      refine h.dispatch hnext fun cur' hc' hrun => ?_
      obtain rfl : cur = cur' := Option.some.inj (hc.symm.trans hc')
      simp [stepPrecondition, hrun] at hpre
    | exit => exact absurd rfl hreason
  | stay | wait => exact h
  | exitAndSwitch hnext => exact h.switch hc hnext (by simp)
  | exitAndHalt hno => exact h.setState (by simp) (by simp)

/-- An Exited thread stays Exited under every decision. -/
theorem get_applied_of_exited (hd : s.Decided cur reason d)
    (hpre : stepPrecondition reason (s.get cur) = true) (hi : s.get i = some .exited) :
    (s.applied c cur reason d).get i = some .exited := by
  have hne : ∀ {n st}, s.get n = some st → st ≠ .exited → n ≠ i := by
    rintro n st hn hst rfl
    exact hst (Option.some.inj (hn.symm.trans hi))
  cases hd with
  | switchTo hreason hnext =>
    have hnexti := hne hnext (by simp)
    cases reason with
    | preempt =>
      have hcur : s.get cur = some .running := by simpa [stepPrecondition] using hpre
      have hcuri := hne hcur (by simp)
      simp [SchedState.applied, hnexti, hcuri, hi]
    | block => simp [SchedState.applied, hnexti, hi]
    | exit => exact absurd rfl hreason
  | stay | wait => exact hi
  | exitAndSwitch hnext =>
    have hnexti := hne hnext (by simp)
    simp [SchedState.applied, hnexti, hi]
  | exitAndHalt hno =>
    simp [SchedState.applied, hi]

/-! ## Operations the kernel issues -/

/-- A scheduler operation, as issued by some CPU under the kernel lock. -/
inductive SchedOp where
  | addThread
  | blockCurrent (cpu : Fin maxCpus)
  | step (cpu : Fin maxCpus) (reason : SchedReason)
  | unblock (idx : Nat)
  | removeThread (idx : Nat)
  | setInitialCurrent (cpu : Fin maxCpus) (idx : Nat)
  | stepFromIdle (cpu : Fin maxCpus)
  deriving DecidableEq, Repr

/-- What an operation reports back. -/
inductive SchedOut where
  | done
  | failed (e : SchedError)
  | decided (d : SchedDecision)
  /-- `step_from_idle` found nothing to run. -/
  | idle
  deriving DecidableEq, Repr

/-- The CPU keeps its current thread, halts, or goes on idling. -/
@[simp] def SchedOut.keepsCpu : SchedOut → Bool
  | .idle | .decided .stayOnCurrent | .decided .waitForInterrupt
  | .decided (.exitAndHalt _) => true
  | _ => false

/-- Run one operation.  A recoverable error leaves the state as it was. -/
def exec (s : SchedState) : SchedOp → Except SchedPanic (SchedState × SchedOut)
  | .addThread => .ok ((s.addThread).1, .done)
  | .blockCurrent cpu =>
    match s.blockCurrent cpu with
    | .ok (.ok s') => .ok (s', .done)
    | .ok (.error e) => .ok (s, .failed e)
    | .error p => .error p
  | .step cpu reason =>
    match s.step cpu reason with
    | .ok (s', d) => .ok (s', .decided d)
    | .error p => .error p
  | .unblock idx =>
    match s.unblock idx with
    | .ok s' => .ok (s', .done)
    | .error e => .ok (s, .failed e)
  | .removeThread idx =>
    match s.removeThread idx with
    | .ok s' => .ok (s', .done)
    | .error e => .ok (s, .failed e)
  | .setInitialCurrent cpu idx =>
    match s.setInitialCurrent cpu idx with
    | .ok s' => .ok (s', .done)
    | .error p => .error p
  | .stepFromIdle cpu =>
    match s.stepFromIdle cpu with
    | .ok (s', some d) => .ok (s', .decided d)
    | .ok (s', none) => .ok (s', .idle)
    | .error p => .error p

/-- When the kernel issues an operation.  `tick` preempts only a Running thread; the wait loops of
    `block_current` and `exit_current` retry `step(Block)` while their thread is Blocked or Exited;
    only an idle CPU takes the `step_from_idle` path; a thread that calls `exit_current` or
    `block_current` is the Running one. -/
def Issued (s : SchedState) : SchedOp → Prop
  | .blockCurrent cpu => ∃ cur, s.tryCurrentFor cpu = some cur ∧ s.get cur = some .running
  | .step cpu reason =>
    ∃ cur, s.tryCurrentFor cpu = some cur ∧ stepPrecondition reason (s.get cur) = true
  | .setInitialCurrent cpu idx => s.tryCurrentFor cpu = none ∧ s.get idx = some .ready
  | .stepFromIdle cpu => s.tryCurrentFor cpu = none
  | .addThread | .unblock _ | .removeThread _ => True

/-- `ops` can be issued one after the other from `s`, ending in `s'`. -/
inductive Steps : SchedState → List SchedOp → SchedState → Prop
  | nil (s : SchedState) : Steps s [] s
  | cons {s s' s'' : SchedState} {op : SchedOp} {ops : List SchedOp} {out : SchedOut}
      (hissued : s.Issued op) (hexec : s.exec op = .ok (s', out)) (htail : Steps s' ops s'') :
      Steps s (op :: ops) s''

/-! ## One operation -/

/-- What one issued operation does: it returns, keeps the invariant, keeps
    every Exited thread Exited unless it removes that very thread, and keeps
    or idles a CPU only when nothing is Ready. -/
structure OpSpec (s : SchedState) (op : SchedOp) (s' : SchedState) (out : SchedOut) : Prop where
  exec_eq : s.exec op = .ok (s', out)
  inv : s'.Inv
  exited : ∀ i, s.get i = some .exited →
    s'.get i = some .exited ∨ (op = .removeThread i ∧ s'.get i = none)
  no_ready : out.keepsCpu = true → ∀ i, s.get i ≠ some .ready

/-- `add_thread` takes the first free slot, or reports that there is none. -/
theorem addThread_cases (s : SchedState) :
    (∃ k, k < maxThreads ∧ s.get k = none ∧ (∀ j, j < k → s.get j ≠ none) ∧
      s.addThread = (s.setState k (some .ready), some k)) ∨
    ((∀ k, k < maxThreads → s.get k ≠ none) ∧ s.addThread = (s, none)) := by
  unfold addThread
  cases hfind : (List.range maxThreads).find? fun i => (s.get i).isNone with
  | some k =>
    obtain ⟨hk, hmem, hfirst⟩ := List.find?_range_eq_some.mp hfind
    refine Or.inl ⟨k, List.mem_range.mp hmem, by simpa using hk, fun j hj hnone => ?_, rfl⟩
    simpa [hnone] using hfirst j hj
  | none => grind

theorem addThread_spec (h : s.Inv) : ∃ s' out, s.OpSpec .addThread s' out := by
  refine ⟨_, _, rfl, ?_, fun i hi => Or.inl ?_, by simp⟩
  · grind [h.current_registered, h.setState, addThread_cases]
  · grind [addThread_cases, get_setState]

theorem blockCurrent_of_running (hc : s.tryCurrentFor c = some cur)
    (hrun : s.get cur = some .running) :
    s.blockCurrent c = .ok (.ok (s.setState cur (some .blocked))) := by
  simp only [blockCurrent, currentFor, hc]
  simp [bind, Except.bind, hrun, pure, Except.pure]

theorem blockCurrent_spec (h : s.Inv) (hissued : s.Issued (.blockCurrent c)) :
    ∃ s' out, s.OpSpec (.blockCurrent c) s' out := by
  obtain ⟨cur, hc, hrun⟩ := hissued
  refine ⟨s.setState cur (some .blocked), .done, ?_, h.setState (by simp) (by simp),
    fun i hi => Or.inl ?_, by simp⟩
  all_goals grind [blockCurrent_of_running, exec, get_setState]

theorem stepOp_spec (h : s.Inv) (hissued : s.Issued (.step c reason)) :
    ∃ s' out, s.OpSpec (.step c reason) s' out := by
  obtain ⟨cur, hc, hpre⟩ := hissued
  obtain ⟨d, -, hd, hstep⟩ := step_spec h hc hpre
  refine ⟨_, .decided d, by simp only [exec, hstep], h.applied hc hd hpre,
    fun i hi => Or.inl (get_applied_of_exited hd hpre hi), fun hkeep i hready => ?_⟩
  have hcur : s.get cur ≠ some .ready := h.current_not_ready c cur hc
  have hothers : s.NoOtherReady cur → False := fun hno =>
    if hi : i = cur then hcur (hi ▸ hready) else hno i hi hready
  cases hd with
  | switchTo | exitAndSwitch => simp at hkeep
  | stay _ hno => exact hothers hno
  | wait _ _ hno => exact hothers hno
  | exitAndHalt hno => exact hothers hno

/-- Unblocking a Blocked thread: Running if a CPU is parked on it, else Ready. -/
theorem unblock_of_blocked (h : s.Inv) {idx : Nat} (hb : s.get idx = some .blocked) :
    ∃ st, st ≠ .blocked ∧ st ≠ .exited ∧ s.unblock idx = .ok (s.setState idx (some st)) ∧
      (s.setState idx (some st)).Inv := by
  refine ⟨if s.isCurrent idx then .running else .ready, ?_, ?_, by simp [unblock, hb], ?_⟩
  all_goals grind [h.setState, isCurrent_iff]

theorem unblock_spec (h : s.Inv) (idx : Nat) : ∃ s' out, s.OpSpec (.unblock idx) s' out := by
  by_cases hb : s.get idx = some .blocked
  · obtain ⟨st, -, -, hunblock, hinv⟩ := unblock_of_blocked h hb
    refine ⟨_, .done, by simp only [exec, hunblock], hinv, fun i hi => Or.inl ?_,
      by simp⟩
    grind [get_setState]
  · have hexec : ∃ e, s.exec (.unblock idx) = .ok (s, .failed e) := by
      simp only [exec, unblock]
      cases hst : s.get idx with
      | none => exact ⟨_, rfl⟩
      | some st => cases st <;> first | exact absurd hst hb | exact ⟨_, rfl⟩
    obtain ⟨e, he⟩ := hexec
    exact ⟨s, .failed e, he, h, fun i hi => Or.inl hi, by simp⟩

theorem removeThread_spec (h : s.Inv) (idx : Nat) :
    ∃ s' out, s.OpSpec (.removeThread idx) s' out := by
  by_cases hok : s.isCurrent idx = false ∧ s.get idx = some .exited
  · obtain ⟨hcur, hex⟩ := hok
    refine ⟨s.setState idx none, .done, by simp [exec, removeThread, hcur, hex], ?_,
      fun i hi => ?_, by simp⟩
    · refine h.setState (fun c hc => ?_) (by simp)
      simp [isCurrent_iff.mpr ⟨c, hc⟩] at hcur
    · by_cases hne : idx = i
      · subst hne
        exact Or.inr ⟨rfl, by simp [get_setState_of_some hex]⟩
      · exact Or.inl (by simp [hne, hi])
  · have hexec : ∃ e, s.exec (.removeThread idx) = .ok (s, .failed e) := by
      simp only [exec, removeThread]
      by_cases hcur : s.isCurrent idx = true
      · exact ⟨.invalidTransition, by simp [hcur]⟩
      · have hne : s.get idx ≠ some .exited := fun hex => hok ⟨by simpa using hcur, hex⟩
        rw [if_neg hcur]
        cases hst : s.get idx with
        | none => exact ⟨_, rfl⟩
        | some st => cases st <;> first | exact absurd hst hne | exact ⟨_, rfl⟩
    obtain ⟨e, he⟩ := hexec
    exact ⟨s, .failed e, he, h, fun i hi => Or.inl hi, by simp⟩

/-- Handing an idle CPU to a Ready thread disturbs no Exited thread. -/
theorem get_dispatch_of_exited {next : Nat} (hnext : s.get next = some .ready)
    (hi : s.get i = some .exited) :
    ((s.setState next (some .running)).setCurrent c next).get i = some .exited := by
  have hne : next ≠ i := by
    rintro rfl
    simp [hnext] at hi
  simp [hne, hi]

theorem setInitialCurrent_spec (h : s.Inv) (hissued : s.Issued (.setInitialCurrent c i)) :
    ∃ s' out, s.OpSpec (.setInitialCurrent c i) s' out := by
  obtain ⟨hidle, hready⟩ := hissued
  exact ⟨_, .done, by simp [exec, setInitialCurrent, hidle, hready]; rfl,
    h.dispatch hready (by simp [hidle]),
    fun j hj => Or.inl (get_dispatch_of_exited hready hj), by simp⟩

/-- `step_from_idle` takes the first Ready thread, or finds that there is none. -/
theorem stepFromIdle_cases (hidle : s.tryCurrentFor c = none) :
    (∃ k, s.get k = some .ready ∧ (∀ j, j < k → s.get j ≠ some .ready) ∧
      s.stepFromIdle c =
        .ok ((s.setState k (some .running)).setCurrent c k, some (.switchTo k))) ∨
    ((∀ k, s.get k ≠ some .ready) ∧ s.stepFromIdle c = .ok (s, none)) := by
  -- the scan hides every Running thread, which changes nothing for the Ready ones
  have hvis : ∀ k, ((if (s.get k).getD .blocked = .running then SchedThreadState.blocked
      else (s.get k).getD .blocked) == .ready) = true ↔ s.get k = some .ready := by
    intro k
    cases hk : s.get k with
    | none => simp
    | some st => cases st <;> simp
  cases hpick : selectForIdleCpu maxThreads (fun k =>
      if (s.get k).getD .blocked = .running then .blocked else (s.get k).getD .blocked) with
  | some next =>
    obtain ⟨hk, -, hfirst⟩ := List.find?_range_eq_some.mp hpick
    refine Or.inl ⟨next, (hvis next).mp hk, fun j hj hready => ?_,
      by simp only [stepFromIdle, hidle, hpick]; rfl⟩
    have hmiss := hfirst j hj
    rw [(hvis j).mpr hready] at hmiss
    cases hmiss
  | none =>
    refine Or.inr ⟨fun k hready => ?_, by simp only [stepFromIdle, hidle, hpick]; rfl⟩
    have hnone := List.find?_eq_none.mp hpick k
      (List.mem_range.mpr (lt_of_get_eq_some hready))
    exact hnone ((hvis k).mpr hready)

theorem stepFromIdle_spec (h : s.Inv) (hissued : s.Issued (.stepFromIdle c)) :
    ∃ s' out, s.OpSpec (.stepFromIdle c) s' out := by
  have hidle : s.tryCurrentFor c = none := hissued
  obtain ⟨next, hready, -, heq⟩ | ⟨hnone, heq⟩ := stepFromIdle_cases hidle
  · exact ⟨(s.setState next (some .running)).setCurrent c next, .decided (.switchTo next),
      by simp only [exec, heq], h.dispatch hready (by simp [hidle]),
      fun j hj => Or.inl (get_dispatch_of_exited hready hj), by simp⟩
  · exact ⟨s, .idle, by simp only [exec, heq], h, fun j hj => Or.inl hj, fun _ => hnone⟩

/-- Every operation the kernel issues in a valid state. -/
theorem exec_spec (h : s.Inv) {op : SchedOp} (hissued : s.Issued op) :
    ∃ s' out, s.OpSpec op s' out := by
  cases op with
  | addThread => exact addThread_spec h
  | blockCurrent cpu => exact blockCurrent_spec h hissued
  | step cpu reason => exact stepOp_spec h hissued
  | unblock idx => exact unblock_spec h idx
  | removeThread idx => exact removeThread_spec h idx
  | setInitialCurrent cpu idx => exact setInitialCurrent_spec h hissued
  | stepFromIdle cpu => exact stepFromIdle_spec h hissued

/-! ## Whole runs -/

theorem Steps.inv (hrun : Steps s ops s') (h : s.Inv) : s'.Inv := by
  induction hrun with
  | nil s => exact h
  | cons hissued hexec _ ih =>
    obtain ⟨t, out, hspec⟩ := exec_spec h hissued
    grind [hspec.exec_eq, hspec.inv]

/-- A thread that has exited stays Exited until it is removed. -/
theorem Steps.exited (hrun : Steps s ops s') (h : s.Inv)
    (hi : s.get i = some .exited) (hkeep : .removeThread i ∉ ops) : s'.get i = some .exited := by
  induction hrun with
  | nil s => exact hi
  | cons hissued hexec _ ih =>
    obtain ⟨t, out, hspec⟩ := exec_spec h hissued
    grind [hspec.exec_eq, hspec.exited, hspec.inv]

/-- Scheduler safety, from boot, for every sequence of issued operations:
    the state passes `check_invariants`, the next issued operation returns
    and its result passes again, every decision is accepted, an Exited thread
    never comes back, and a CPU stays or idles only when nothing is Ready. -/
theorem run_from_boot_safe {ops : List SchedOp} {s : SchedState} (hrun : Steps newConst ops s) :
    s.checkInvariants = true ∧ s.Inv ∧
    (∀ op, s.Issued op → ∃ s' out, s.exec op = .ok (s', out) ∧ s'.checkInvariants = true ∧
      (out.keepsCpu = true → ∀ i, s.get i ≠ some .ready)) ∧
    (∀ c reason cur, s.tryCurrentFor c = some cur →
      stepPrecondition reason (s.get cur) = true →
      ∃ d s', s.decide cur reason = some d ∧ s.applyDecision c cur reason d = .ok s' ∧
        s.step c reason = .ok (s', d)) ∧
    (∀ i, s.get i = some .exited → ∀ ops' s', Steps s ops' s' → .removeThread i ∉ ops' →
      s'.get i = some .exited) := by
  have hinv : s.Inv := hrun.inv inv_newConst
  refine ⟨checkInvariants_iff.mpr hinv, hinv, fun op hissued => ?_, fun c reason cur hc hpre => ?_,
    fun i hi ops' s' hrun' hkeep => hrun'.exited hinv hi hkeep⟩
  · obtain ⟨s', out, hspec⟩ := exec_spec hinv hissued
    exact ⟨s', out, hspec.exec_eq, checkInvariants_iff.mpr hspec.inv, hspec.no_ready⟩
  · obtain ⟨d, hdec, hd, hstep⟩ := step_spec hinv hc hpre
    exact ⟨d, _, hdec, applyDecision_of_decided hd hpre, hstep⟩

/-- Thread 0 runs on CPU 0, and CPU 1 takes up thread 1.  Thread 0 blocks, thread 1 exits, and
    thread 0 is woken before its CPU has left it. -/
def twoCpus : List SchedOp :=
  [.addThread, .setInitialCurrent 0 0, .addThread, .stepFromIdle 1, .blockCurrent 0, .step 1 .exit,
   .unblock 0]

set_option maxRecDepth 8192 in
theorem steps_twoCpus : ∃ s, Steps newConst twoCpus s ∧ s.get 0 = some .running ∧
    s.get 1 = some .exited :=
  ⟨_, .cons trivial rfl (.cons ⟨rfl, rfl⟩ rfl (.cons trivial rfl (.cons rfl rfl
    (.cons ⟨0, rfl, rfl⟩ rfl (.cons ⟨1, rfl, rfl⟩ rfl (.cons trivial rfl (.nil _))))))), rfl, rfl⟩

theorem run_from_boot_safe_two :
    ∃ s, Steps newConst twoCpus s ∧ s.get 1 = some .exited ∧ s.checkInvariants = true := by
  obtain ⟨s, hrun, -, hex⟩ := steps_twoCpus
  exact ⟨s, hrun, hex, (run_from_boot_safe hrun).1⟩

end SchedState

end Lockjaw.Sched
