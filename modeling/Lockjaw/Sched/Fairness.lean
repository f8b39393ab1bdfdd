/-
  Lockjaw.Sched.Fairness

  Bounded bypass.  A thread that stays Ready is passed over by a CPU at most
  `maxThreads - 1` times, whatever the other CPUs and threads do meanwhile.

  The ranking is the number of slots from the CPU's current thread forward to the
  waiting one.  Only the CPU's own scheduling steps move its current thread, and each
  of them either picks the waiting thread or comes closer to it.
-/

import Lockjaw.Sched.Run

namespace Lockjaw.Sched

open Lib

/-- The thread a decision switches to. -/
def SchedDecision.next : SchedDecision → Option Nat
  | .switchTo next | .exitAndSwitch _ next => some next
  | .stayOnCurrent | .waitForInterrupt | .exitAndHalt _ => none

namespace SchedState

/-- The thread an operation picked. -/
def SchedOut.picked : SchedOut → Option Nat
  | .decided d => d.next
  | .done | .failed _ | .idle => none

/-- The operation is a scheduling step of `cpu`. -/
def SchedOp.schedules (cpu : Fin maxCpus) : SchedOp → Bool
  | .step c _ | .stepFromIdle c => c == cpu
  | _ => false

variable {s s' : SchedState} {t cur : Nat} {c : Fin maxCpus} {reason : SchedReason}
  {op : SchedOp} {out : SchedOut}

/-! ## Runs with what each operation reported -/

/-- One operation of a run, what it reported and the state it left. -/
structure Event where
  op : SchedOp
  out : SchedOut
  after : SchedState

/-- The events happen one after the other from a state: no operation panics. -/
def Trace : SchedState → List Event → Prop
  | _, [] => True
  | s, e :: es => s.exec e.op = .ok (e.after, e.out) ∧ Trace e.after es

def endState : SchedState → List Event → SchedState
  | s, [] => s
  | _, e :: es => endState e.after es

/-- Thread `t` is Ready whenever one of the events happens. -/
def StaysReady (t : Nat) : SchedState → List Event → Prop
  | _, [] => True
  | s, e :: es => s.get t = some .ready ∧ StaysReady t e.after es

/-- A scheduling step of `cpu` that does not pick `t`. -/
def Event.bypasses (cpu : Fin maxCpus) (t : Nat) (e : Event) : Bool :=
  e.op.schedules cpu && e.out.picked != some t

variable {es : List Event} {d : SchedDecision} {n : Nat}

theorem trace_append {es' : List Event} :
    Trace s (es ++ es') ↔ Trace s es ∧ Trace (s.endState es) es' := by
  induction es generalizing s with
  | nil => simp [Trace, endState]
  | cons e es ih => simp only [List.cons_append, Trace, endState, ih, and_assoc]

/-- An operation that returns was issued as the kernel issues it, or is a refused
    `block_current`. -/
theorem issued_or_refused (hexec : s.exec op = .ok (s', out)) :
    s.Issued op ∨ (s' = s ∧ ∃ cpu, op = .blockCurrent cpu) := by
  cases op with
  | addThread | unblock | removeThread => exact Or.inl trivial
  | blockCurrent cpu =>
    simp only [exec, blockCurrent, currentFor] at hexec
    cases hc : s.tryCurrentFor cpu with
    | none => simp [hc, bind, Except.bind] at hexec
    | some cur =>
      by_cases hrun : s.get cur = some .running
      · exact Or.inl ⟨cur, hc, hrun⟩
      · simp only [hc, bind, Except.bind, pure, Except.pure] at hexec
        cases hexec
        exact Or.inr ⟨rfl, cpu, rfl⟩
  | step cpu reason =>
    simp only [exec, step, currentFor] at hexec
    cases hc : s.tryCurrentFor cpu with
    | none => simp [hc, bind, Except.bind] at hexec
    | some cur =>
      by_cases hpre : stepPrecondition reason (s.get cur) = true
      · exact Or.inl ⟨cur, hc, hpre⟩
      · simp [hc, bind, Except.bind, hpre, throw, throwThe, MonadExceptOf.throw] at hexec
  | setInitialCurrent cpu idx =>
    simp only [exec, setInitialCurrent] at hexec
    cases hc : s.tryCurrentFor cpu with
    | some cur => simp [hc] at hexec
    | none =>
      by_cases hready : s.get idx = some .ready
      · exact Or.inl ⟨hc, hready⟩
      · simp [hc, hready] at hexec
  | stepFromIdle cpu =>
    simp only [exec, stepFromIdle] at hexec
    cases hc : s.tryCurrentFor cpu with
    | some cur => simp [hc] at hexec
    | none => exact Or.inl hc

theorem inv_exec (h : s.Inv) (hexec : s.exec op = .ok (s', out)) : s'.Inv := by
  rcases issued_or_refused hexec with hissued | ⟨rfl, -⟩
  · obtain ⟨s'', out', hspec⟩ := exec_spec h hissued
    have heq := hspec.exec_eq.symm.trans hexec
    cases heq
    exact hspec.inv
  · exact h

theorem Trace.inv (htrace : Trace s es) (h : s.Inv) : (s.endState es).Inv := by
  induction es generalizing s with
  | nil => exact h
  | cons e es ih => exact ih htrace.2 (inv_exec h htrace.1)

/-! ## One step -/

/-- A decision that switches takes what the scan of the ring found. -/
theorem scan_of_decide (hdec : s.decide cur reason = some d) (hn : d.next = some n) :
    ringScan (fun i => s.visibleState cur i == .ready) maxThreads cur maxThreads
      ((cur + 1) % maxThreads) = some (some n) := by
  have hdef : s.decide cur reason = selectNext cur maxThreads reason (s.visibleState cur) := rfl
  rw [hdef] at hdec
  simp only [selectNext, if_pos two_le_maxThreads] at hdec
  cases hscan : ringScan (fun i => s.visibleState cur i == .ready) maxThreads cur maxThreads
      ((cur + 1) % maxThreads) with
  | none => simp [hscan] at hdec
  | some found =>
    cases found with
    | some next =>
      rw [hscan] at hdec
      cases reason with
      | preempt | block | exit =>
        cases hdec
        exact congrArg some hn
    | none =>
      -- a round without a match falls back to a decision that switches to nobody
      grind [SchedDecision.next]

/-- With another thread Ready, a decision picks a Ready thread: the waiting one, or one
    that is closer to it. -/
theorem Decided.closer (hd : s.Decided cur reason d)
    (hdec : s.decide cur reason = some d) (hcur : cur < maxThreads)
    (ht : s.get t = some .ready) (hne : t ≠ cur) :
    ∃ n, d.next = some n ∧ s.get n = some .ready ∧
      (n ≠ t → ringDist maxThreads n t < ringDist maxThreads cur t) := by
  have hpt : (s.visibleState cur t == .ready) = true := by
    rw [beq_iff_eq, visibleState_eq_ready_iff]
    exact ht
  have hcloser (n : Nat) (hn : d.next = some n) (hnt : n ≠ t) :
      ringDist maxThreads n t < ringDist maxThreads cur t :=
    ringScan_closer hcur two_le_maxThreads (scan_of_decide hdec hn) (lt_of_get_eq_some ht) hpt
      hne hnt
  cases hd with
  | switchTo hreason hnext => exact ⟨_, rfl, hnext, hcloser _ rfl⟩
  | exitAndSwitch hnext => exact ⟨_, rfl, hnext, hcloser _ rfl⟩
  | stay _ hno | wait _ _ hno | exitAndHalt hno => exact absurd ht (hno t hne)

/-- Applying a decision makes the picked thread current, and touches no other CPU. -/
theorem tryCurrentFor_applied (d : SchedDecision) (c' : Fin maxCpus) :
    (s.applied c cur reason d).tryCurrentFor c' =
      if c = c' then d.next.or (s.tryCurrentFor c') else s.tryCurrentFor c' := by
  cases d with
  | switchTo next =>
    cases reason <;>
      simp [applied, SchedDecision.next]
  | exitAndSwitch exited next => simp [applied, SchedDecision.next]
  | stayOnCurrent | waitForInterrupt | exitAndHalt => simp [applied, SchedDecision.next]

/-- The thread a decision switches to is Running afterwards. -/
theorem get_applied_next (hn : d.next = some n) (hready : s.get n = some .ready) :
    (s.applied c cur reason d).get n = some .running := by
  have hlt := lt_of_get_eq_some hready
  cases d with
  | switchTo next =>
    cases hn
    cases reason <;> simp [applied, hlt]
  | exitAndSwitch exited next =>
    cases hn
    simp [applied, hlt]
  | stayOnCurrent | waitForInterrupt | exitAndHalt => cases hn

/-- How often a CPU can still pass over `t`, and one more: the way from its current thread
    to `t`, or a whole round for a CPU without one. -/
def rank (s : SchedState) (c : Fin maxCpus) (t : Nat) : Nat :=
  match s.tryCurrentFor c with
  | none => maxThreads
  | some cur => ringDist maxThreads cur t

theorem rank_of_current (hc : s.tryCurrentFor c = some cur) :
    s.rank c t = ringDist maxThreads cur t := by
  simp only [rank, hc]

theorem rank_of_idle (hc : s.tryCurrentFor c = none) : s.rank c t = maxThreads := by
  simp only [rank, hc]

theorem rank_le (s : SchedState) (c : Fin maxCpus) (t : Nat) : s.rank c t ≤ maxThreads := by
  cases hc : s.tryCurrentFor c with
  | none => exact Nat.le_of_eq (rank_of_idle hc)
  | some cur =>
    rw [rank_of_current hc]
    exact Nat.le_of_lt (ringDist_lt (by decide) cur t)

/-- A scheduling step of a CPU, while `t` is Ready, picks `t` or lowers the rank. -/
theorem schedules_closer (h : s.Inv) (ht : s.get t = some .ready)
    (hop : op.schedules c = true) (hexec : s.exec op = .ok (s', out)) :
    ∃ n, out.picked = some n ∧ s'.tryCurrentFor c = some n ∧ s'.get n = some .running ∧
      (n ≠ t → s'.rank c t < s.rank c t) := by
  have hissued : s.Issued op := by
    rcases issued_or_refused hexec with hissued | ⟨-, cpu, rfl⟩
    · exact hissued
    · cases hop
  cases op with
  | addThread | blockCurrent | unblock | removeThread | setInitialCurrent => cases hop
  | step cpu reason =>
    obtain rfl : cpu = c := by simpa [SchedOp.schedules] using hop
    obtain ⟨cur, hc, hpre⟩ := hissued
    obtain ⟨d, hdec, hd, hstep⟩ := step_spec h hc hpre
    have hne : t ≠ cur := by
      rintro rfl
      exact h.ready_not_current ht cpu hc
    obtain ⟨n, hn, hready, hcloser⟩ :=
      hd.closer hdec (lt_of_get (h.current_registered cpu cur hc)) ht hne
    have heq : (s.applied cpu cur reason d, SchedOut.decided d) = (s', out) := by
      simp only [exec, hstep] at hexec
      exact Except.ok.inj hexec
    cases heq
    have hcur' : (s.applied cpu cur reason d).tryCurrentFor cpu = some n := by
      simp [tryCurrentFor_applied, hn]
    refine ⟨n, hn, hcur', get_applied_next hn hready, fun hnt => ?_⟩
    rw [rank_of_current hc, rank_of_current hcur']
    exact hcloser hnt
  -- an idle CPU has the largest rank, and picks a Ready thread since `t` is one
  | stepFromIdle cpu =>
    obtain rfl : cpu = c := by simpa [SchedOp.schedules] using hop
    have hidle : s.tryCurrentFor cpu = none := hissued
    obtain ⟨n, hready, -, heq⟩ | ⟨hnone, -⟩ := stepFromIdle_cases hidle
    · simp only [exec, heq] at hexec
      cases hexec
      have hcur' : ((s.setState n (some .running)).setCurrent cpu n).tryCurrentFor cpu =
          some n := by
        simp
      refine ⟨n, rfl, hcur', by simp [lt_of_get_eq_some hready], fun _ => ?_⟩
      rw [rank_of_idle hidle, rank_of_current hcur']
      exact ringDist_lt (by decide) n t
    · exact absurd ht (hnone t)

section

variable (h : s.Inv) (hop : op.schedules c = false) (hexec : s.exec op = .ok (s', out))
include h hop hexec

/-- Nothing but its own scheduling steps changes a CPU's current thread, except that an
    idle CPU may be given its first one. -/
theorem current_of_exec :
    s'.tryCurrentFor c = s.tryCurrentFor c ∨
      (s.tryCurrentFor c = none ∧ ∃ i, s'.tryCurrentFor c = some i) := by
  have hissued := issued_or_refused hexec
  cases op with
  | addThread => grind [addThread_cases, exec, tryCurrentFor_setState]
  | blockCurrent cpu =>
    left
    rcases hissued with ⟨cur, hc, hrun⟩ | ⟨rfl, -⟩
    · simp only [exec, blockCurrent_of_running hc hrun] at hexec
      cases hexec
      rfl
    · rfl
  | step cpu reason =>
    left
    have hne : cpu ≠ c := by simpa [SchedOp.schedules] using hop
    obtain ⟨cur, hc, hpre⟩ | ⟨-, _, hop'⟩ := hissued
    · obtain ⟨d, -, -, hstep⟩ := step_spec h hc hpre
      simp only [exec, hstep] at hexec
      cases hexec
      rw [tryCurrentFor_applied, if_neg hne]
    · cases hop'
  | unblock idx =>
    left
    simp only [exec, unblock] at hexec
    cases hst : s.get idx with
    | none => simp only [hst] at hexec; cases hexec; rfl
    | some st => cases st <;> simp only [hst] at hexec <;> cases hexec <;> rfl
  | removeThread idx =>
    left
    simp only [exec, removeThread] at hexec
    by_cases hcur : s.isCurrent idx = true
    · simp only [hcur, if_true] at hexec
      cases hexec
      rfl
    · simp only [hcur, Bool.false_eq_true, if_false] at hexec
      cases hst : s.get idx with
      | none => simp only [hst] at hexec; cases hexec; rfl
      | some st => cases st <;> simp only [hst] at hexec <;> cases hexec <;> rfl
  -- this gives an idle CPU its first thread, and the CPU may be `c`
  | setInitialCurrent cpu idx =>
    obtain ⟨hidle, hready⟩ | ⟨-, _, hop'⟩ := hissued
    · simp only [exec, setInitialCurrent, hidle, hready] at hexec
      cases hexec
      by_cases hne : cpu = c
      · subst hne
        exact Or.inr ⟨hidle, idx, by simp⟩
      · left
        simp [hne]
    · cases hop'
  | stepFromIdle cpu =>
    left
    have hne : cpu ≠ c := by simpa [SchedOp.schedules] using hop
    obtain hidle | ⟨-, _, hop'⟩ := hissued
    · obtain ⟨n, -, -, heq⟩ | ⟨-, heq⟩ := stepFromIdle_cases hidle
      · simp only [exec, heq] at hexec
        cases hexec
        simp [hne]
      · simp only [exec, heq] at hexec
        cases hexec
        rfl
    · cases hop'

theorem rank_exec_le : s'.rank c t ≤ s.rank c t := by
  obtain hcur | ⟨hidle, i, -⟩ := current_of_exec h hop hexec
  · simp only [rank, hcur, Nat.le_refl]
  · rw [rank_of_idle hidle]
    exact rank_le s' c t

end

/-! ## Whole runs -/

/-- Along the events a CPU passes over `t` less often than its rank says. -/
theorem countP_bypasses_le (h : s.Inv) (htrace : Trace s es) (hready : StaysReady t s es) :
    es.countP (Event.bypasses c t) ≤ s.rank c t - 1 := by
  induction es generalizing s with
  | nil => exact Nat.zero_le _
  | cons e es ih =>
    obtain ⟨hexec, htail⟩ := htrace
    obtain ⟨ht, hreadyTail⟩ := hready
    have hrest := ih (inv_exec h hexec) htail hreadyTail
    cases hop : e.op.schedules c with
    | false =>
      have hno : e.bypasses c t = false := by simp [Event.bypasses, hop]
      have hle := rank_exec_le (t := t) h hop hexec
      rw [List.countP_cons_of_neg (by simp [hno])]
      omega
    | true =>
      obtain ⟨n, hpicked, hcur, hrunning, hcloser⟩ := schedules_closer h ht hop hexec
      by_cases hnt : n = t
      · -- `t` is picked, so it is no longer Ready and nothing follows
        subst hnt
        have hno : e.bypasses c n = false := by simp [Event.bypasses, hpicked]
        rw [List.countP_cons_of_neg (by simp [hno])]
        cases es with
        | nil => exact Nat.zero_le _
        | cons e' es' =>
          have hboth := hrunning.symm.trans hreadyTail.1
          cases hboth
      · have hlt := hcloser hnt
        have hpos : 0 < e.after.rank c t := by
          rw [rank_of_current hcur]
          exact ringDist_pos (lt_of_get_eq_some hrunning) (lt_of_get_eq_some ht)
            (fun heq => hnt heq.symm)
        have hone := List.countP_cons (p := Event.bypasses c t) (a := e) (l := es)
        split at hone <;> omega

/-- Bounded bypass, in every run from boot and on every CPU: while a thread is Ready, at
    most `maxThreads - 1` of the CPU's scheduling steps do not pick it. -/
theorem ready_thread_bypass_bound {before es : List Event} (c : Fin maxCpus) {t : Nat}
    (hrun : Trace newConst (before ++ es))
    (hready : StaysReady t (newConst.endState before) es) :
    es.countP (Event.bypasses c t) ≤ maxThreads - 1 := by
  obtain ⟨hbefore, hes⟩ := trace_append.mp hrun
  have hle := countP_bypasses_le (c := c) (hbefore.inv inv_newConst) hes hready
  have hrank := rank_le (newConst.endState before) c t
  omega

/-- Two threads become Ready, CPU 0 leaves idle for thread 0, which then blocks: thread 1
    is passed over once. -/
theorem ready_thread_bypass_bound_two :
    ∃ before es, Trace newConst (before ++ es) ∧ StaysReady 1 (newConst.endState before) es ∧
      es.countP (Event.bypasses 0 1) = 1 ∧ 1 ≤ maxThreads - 1 := by
  let s1 := newConst.setState 0 (some .ready)
  let s2 := s1.setState 1 (some .ready)
  let s3 := (s2.setState 0 (some .running)).setCurrent 0 0
  let s4 := s3.setState 0 (some .blocked)
  let before : List Event := [⟨.addThread, .done, s1⟩, ⟨.addThread, .done, s2⟩]
  let es : List Event :=
    [⟨.stepFromIdle 0, .decided (.switchTo 0), s3⟩, ⟨.blockCurrent 0, .done, s4⟩]
  have hrun : Trace newConst (before ++ es) := by
    set_option maxRecDepth 8192 in
    exact ⟨rfl, rfl, rfl, rfl, trivial⟩
  have hstays : StaysReady 1 (newConst.endState before) es := ⟨rfl, rfl, trivial⟩
  have hcount : es.countP (Event.bypasses 0 1) = 1 := rfl
  exact ⟨before, es, hrun, hstays, hcount, hcount ▸ ready_thread_bypass_bound 0 hrun hstays⟩

end SchedState

end Lockjaw.Sched
