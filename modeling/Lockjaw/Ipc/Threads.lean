/-
  Lockjaw.Ipc.Threads

  The scheduler as IPC sees it: which TCB sits in which slot, which threads
  are Blocked, and how `unblock_thread`, `block_current` and the scheduling
  steps change that.  Nothing here mentions endpoints; the IPC proofs use the
  slot table only through these lemmas.
-/

import Lockjaw.Ipc.Kernel

namespace Lockjaw.Ipc

open Sched SchedState Except

/-- The slot table matches the scheduler state, and no thread has exited. -/
structure Table (s : SchedState) (threads : Fin maxThreads → Option Kva) : Prop where
  inv : s.Inv
  registered : ∀ i : Fin maxThreads, threads i = none ↔ s.get i = none
  injective : ∀ i j t, threads i = some t → threads j = some t → i = j
  ne_zero : ∀ i t, threads i = some t → t ≠ 0
  live : ∀ i, s.get i ≠ some .exited

def BlockedIn (s : SchedState) (threads : Fin maxThreads → Option Kva) (t : Kva) : Prop :=
  ∃ i : Fin maxThreads, threads i = some t ∧ s.get i = some .blocked

namespace Kernel

/-- Thread `t` sits in some slot. -/
def Registered (k : Kernel) (t : Kva) : Prop := ∃ i, k.threads i = some t

def Blocked (k : Kernel) (t : Kva) : Prop := BlockedIn k.sched k.threads t

end Kernel

section Slots

variable {s s' : SchedState} {threads : Fin maxThreads → Option Kva} {t u : Kva}
  {i : Fin maxThreads}

theorem Table.blockedIn_iff (h : Table s threads) (hi : threads i = some t) :
    BlockedIn s threads t ↔ s.get i = some .blocked := by
  constructor
  · rintro ⟨j, hj, hb⟩
    obtain rfl := h.injective i j t hi hj
    exact hb
  · intro hb
    exact ⟨i, hi, hb⟩

/-- Replacing the state of one registered thread by another live state. -/
theorem Table.setState (h : Table s threads) {st st' : SchedThreadState}
    (hi : s.get i = some st) (hinv : (s.setState i (some st')).Inv) (hst : st' ≠ .exited) :
    Table (s.setState i (some st')) threads := by
  refine ⟨hinv, fun j => ?_, h.injective, h.ne_zero, fun j => ?_⟩
  · rw [h.registered j, get_setState_of_some hi]
    grind
  · grind [h.live, get_setState_of_some]

/-- Who is Blocked after rewriting the state of `t`'s slot. -/
theorem Table.blockedIn_setState (h : Table s threads) {st : SchedThreadState}
    {x : Option SchedThreadState} (hi : threads i = some t) (hst : s.get i = some st) :
    BlockedIn (s.setState i x) threads u ↔
      if u = t then x = some .blocked else BlockedIn s threads u := by
  by_cases hut : u = t
  · subst hut
    rw [if_pos rfl]
    constructor
    · rintro ⟨j, hj, hb⟩
      obtain rfl := h.injective i j u hi hj
      simpa [get_setState_of_some hst] using hb
    · intro hx
      exact ⟨i, hi, by simp [get_setState_of_some hst, hx]⟩
  · rw [if_neg hut]
    have hne : ∀ j, threads j = some u → i.val ≠ j.val := by grind
    constructor
    · rintro ⟨j, hj, hb⟩
      refine ⟨j, hj, ?_⟩
      rwa [get_setState_of_some hst, if_neg (hne j hj)] at hb
    · rintro ⟨j, hj, hb⟩
      refine ⟨j, hj, ?_⟩
      rwa [get_setState_of_some hst, if_neg (hne j hj)]

/-- A scheduling step that moves threads only between Ready and Running. -/
theorem Table.of_sameBlocked (h : Table s threads) (hinv : s'.Inv)
    (hnone : ∀ j, s'.get j = none ↔ s.get j = none)
    (hexited : ∀ j, s'.get j = some .exited → s.get j = some .exited) : Table s' threads :=
  ⟨hinv, fun j => (h.registered j).trans (hnone j).symm, h.injective, h.ne_zero,
    fun j hj => h.live j (hexited j hj)⟩

section Register

variable {st : SchedThreadState}
  (hget : ∀ j : Nat, s'.get j = if j = i.val then some st else s.get j)
include hget

/-- Registering a new thread in a free slot. -/
theorem Table.register (h : Table s threads) (hinv : s'.Inv) (hst : st ≠ .exited) (ht : t ≠ 0)
    (hfree : ∀ j, threads j ≠ some t) :
    Table s' (fun j => if j.val = i.val then some t else threads j) := by
  refine ⟨hinv, fun j => ?_, fun j j' u hj hj' => ?_, fun j u hj => ?_, fun j => ?_⟩
  · grind [h.registered]
  · grind [h.injective]
  all_goals grind [h.live, h.ne_zero]

theorem blockedIn_register (hst : st ≠ .blocked) (hi : threads i = none) :
    BlockedIn s' (fun j => if j.val = i.val then some t else threads j) u ↔
      BlockedIn s threads u := by
  constructor
  · rintro ⟨j, hj, hb⟩
    rw [hget] at hb
    by_cases hji : j.val = i.val
    · simp [hji, hst] at hb
    · exact ⟨j, by simpa [hji] using hj, by simpa [hji] using hb⟩
  · rintro ⟨j, hj, hb⟩
    have hji : j.val ≠ i.val := fun heq => by
      rw [Fin.ext heq, hi] at hj
      cases hj
    exact ⟨j, by simpa [hji] using hj, by rw [hget]; simpa [hji] using hb⟩

end Register

end Slots

/-! ## Scheduling steps move threads between Ready and Running only -/

namespace SchedSteps

variable {s s' : SchedState} {cur next : Nat} {c : Fin maxCpus}

/-- Same registered threads, same Blocked threads, same Exited threads. -/
def SameBlocked (s s' : SchedState) : Prop :=
  ∀ j, (s'.get j = none ↔ s.get j = none) ∧
    (s'.get j = some .blocked ↔ s.get j = some .blocked) ∧
    (s'.get j = some .exited ↔ s.get j = some .exited)

theorem SameBlocked.blockedIn_iff (h : SameBlocked s s') {threads : Fin maxThreads → Option Kva}
    (t : Kva) : BlockedIn s' threads t ↔ BlockedIn s threads t :=
  exists_congr fun i => and_congr_right fun _ => (h i).2.1

/-- Rewriting a Ready or Running thread to Ready or Running. -/
theorem sameBlocked_setState {st st' : SchedThreadState} {i : Nat} (hi : s.get i = some st)
    (hst : st = .ready ∨ st = .running) (hst' : st' = .ready ∨ st' = .running) :
    SameBlocked s (s.setState i (some st')) := by
  intro j
  grind [get_setState_of_some]

theorem SameBlocked.trans {s'' : SchedState} (h : SameBlocked s s') (h' : SameBlocked s' s'') :
    SameBlocked s s'' :=
  fun j => ⟨(h' j).1.trans (h j).1, (h' j).2.1.trans (h j).2.1, (h' j).2.2.trans (h j).2.2⟩

theorem SameBlocked.setCurrent (h : SameBlocked s s') (i : Nat) :
    SameBlocked s (s'.setCurrent c i) := h

variable {reason : SchedReason} {out : SchedState.SchedOut}

/-- Preempting, or retrying a parked CPU, disturbs no Blocked thread. -/
theorem sameBlocked_applied {d : SchedDecision}
    (hd : s.Decided cur reason d) (hreason : reason ≠ .exit)
    (hpre : stepPrecondition reason (s.get cur) = true) :
    SameBlocked s (s.applied c cur reason d) := by
  cases hd with
  | @switchTo _ next _ hnext =>
    cases reason with
    | preempt =>
      have hcur : s.get cur = some .running := by
        simpa [stepPrecondition] using hpre
      have hne : cur ≠ next := fun heq => by simp [← heq, hcur] at hnext
      have hnext' : (s.setState cur (some .ready)).get next = some .ready := by
        rw [get_setState_of_some hcur, if_neg hne]
        exact hnext
      exact ((sameBlocked_setState hcur (by simp) (by simp)).trans
        (sameBlocked_setState hnext' (by simp) (by simp))).setCurrent _
    | block => exact (sameBlocked_setState hnext (by simp) (by simp)).setCurrent _
    | exit => exact absurd rfl hreason
  | stay | wait => exact fun j => ⟨Iff.rfl, Iff.rfl, Iff.rfl⟩
  | exitAndSwitch | exitAndHalt => exact absurd rfl hreason

/-- `exec` of a non-exit step. -/
theorem sameBlocked_step (h : s.Inv)
    (hissued : s.Issued (.step c reason)) (hreason : reason ≠ .exit)
    (hexec : s.exec (.step c reason) = .ok (s', out)) : s'.Inv ∧ SameBlocked s s' := by
  obtain ⟨cur, hc, hpre⟩ := hissued
  obtain ⟨d, -, hd, hstep⟩ := step_spec h hc hpre
  grind [h.applied, exec, sameBlocked_applied]

theorem sameBlocked_stepFromIdle (h : s.Inv) (hissued : s.Issued (.stepFromIdle c))
    (hexec : s.exec (.stepFromIdle c) = .ok (s', out)) : s'.Inv ∧ SameBlocked s s' := by
  obtain ⟨t, out', hspec⟩ := stepFromIdle_spec h hissued
  have heq := hspec.exec_eq.symm.trans hexec
  simp only [ok.injEq, Prod.mk.injEq] at heq
  obtain ⟨rfl, -⟩ := heq
  refine ⟨hspec.inv, ?_⟩
  have hexec' := hspec.exec_eq
  have hidle : s.tryCurrentFor c = none := hissued
  simp only [exec, stepFromIdle, hidle] at hexec'
  cases hpick : selectForIdleCpu maxThreads (fun k =>
      if (s.get k).getD .blocked = .running then .blocked else (s.get k).getD .blocked) with
  | none =>
    simp only [hpick, Option.isSome_none, Bool.false_eq_true, if_false, ok.injEq,
      Prod.mk.injEq] at hexec'
    rw [← hexec'.1]
    exact fun j => ⟨Iff.rfl, Iff.rfl, Iff.rfl⟩
  | some next =>
    simp only [hpick, Option.isSome_none, Bool.false_eq_true, if_false, ok.injEq,
      Prod.mk.injEq] at hexec'
    rw [← hexec'.1]
    have hready : s.get next = some .ready := by
      have hfound := List.find?_some hpick
      cases hk : s.get next with
      | none => simp [hk] at hfound
      | some st => cases st <;> simp_all
    exact (sameBlocked_setState hready (by simp) (by simp)).setCurrent _

end SchedSteps

/-! ## Kernel entry points -/

namespace Kernel

variable {s : SchedState} {k' : Kernel}

/-- When `set_initial_current` returns, and what it leaves. -/
theorem setInitialCurrent_ok {s' : SchedState} {c : Fin maxCpus} {i : Nat}
    (h : s.setInitialCurrent c i = .ok s') :
    s.tryCurrentFor c = none ∧ s.get i = some .ready ∧
      (s.setState i (some .running)).setCurrent c i = s' := by
  unfold setInitialCurrent at h
  split at h
  · cases h
  · next hidle =>
    split at h
    · cases h
    · next hready =>
      exact ⟨by simpa using hidle, not_not.mp hready, ok.inj h⟩

variable {k : Kernel} {cpu : Fin maxCpus} {t u : Kva}

/-- The slot table of a kernel matches its scheduler. -/
def TableOk (k : Kernel) : Prop := Table k.sched k.threads

theorem Executes.currentTcbKva (h : k.Executes cpu t) : k.currentTcbKva cpu = .ok t := by
  obtain ⟨idx, hcur, -, hthread⟩ := h
  simp [Kernel.currentTcbKva, currentFor, hcur, hthread]

theorem Executes.registered (h : k.Executes cpu t) : k.Registered t := by
  obtain ⟨idx, -, -, hthread⟩ := h
  exact ⟨idx, hthread⟩

theorem Blocked.registered (h : k.Blocked t) : k.Registered t := by
  obtain ⟨idx, hthread, -⟩ := h
  exact ⟨idx, hthread⟩

theorem Executes.not_blocked (h : k.Executes cpu t) (htable : k.TableOk) : ¬ k.Blocked t := by
  obtain ⟨idx, -, hrun, hthread⟩ := h
  intro hb
  have hbl := (htable.blockedIn_iff hthread).mp hb
  simp [hrun] at hbl

/-- Thread `t` is the current thread of `cpu`: executing, or parked inside `block_current`. -/
def OnCpu (k : Kernel) (cpu : Fin maxCpus) (t : Kva) : Prop :=
  ∃ idx : Fin maxThreads, k.sched.tryCurrentFor cpu = some idx.val ∧ k.threads idx = some t

theorem executes_iff (htable : k.TableOk) : k.Executes cpu t ↔ k.OnCpu cpu t ∧ ¬ k.Blocked t := by
  constructor
  · intro h
    obtain ⟨idx, hcur, -, hthread⟩ := id h
    exact ⟨⟨idx, hcur, hthread⟩, h.not_blocked htable⟩
  · rintro ⟨⟨idx, hcur, hthread⟩, hb⟩
    refine ⟨idx, hcur, ?_, hthread⟩
    have hb' := mt (htable.blockedIn_iff hthread).mpr hb
    have hready := htable.inv.current_not_ready cpu idx hcur
    have hreg := htable.inv.current_registered cpu idx hcur
    have hlive := htable.live idx
    cases hget : k.sched.get idx with
    | none => exact absurd hget hreg
    | some st => cases st <;> simp_all

/-- The CPUs run, or are parked on, the same threads. -/
def SameCpus (k k' : Kernel) : Prop :=
  k'.sched.currentPerCpu = k.sched.currentPerCpu ∧ k'.threads = k.threads

theorem SameCpus.trans {k'' : Kernel} (h : k.SameCpus k') (h' : k'.SameCpus k'') : k.SameCpus k'' :=
  ⟨h'.1.trans h.1, h'.2.trans h.2⟩

theorem SameCpus.onCpu (h : k.SameCpus k') (ht : k.OnCpu cpu t) : k'.OnCpu cpu t := by
  obtain ⟨idx, hcur, hthread⟩ := ht
  refine ⟨idx, ?_, by rw [h.2]; exact hthread⟩
  rw [tryCurrentFor, h.1]
  exact hcur

theorem Executes.ne_zero (h : k.Executes cpu t) (htable : k.TableOk) : t ≠ 0 := by
  obtain ⟨idx, -, -, hthread⟩ := h
  exact htable.ne_zero idx t hthread

theorem threadIndexFor_eq (htable : k.TableOk) {i : Fin maxThreads} (hi : k.threads i = some t) :
    k.threadIndexFor t = some i := by
  unfold threadIndexFor
  cases hfind : (List.finRange maxThreads).find? fun j => k.threads j == some t with
  | none =>
    have h := List.find?_eq_none.mp hfind i (List.mem_finRange i)
    simp [hi] at h
  | some j =>
    have hj : k.threads j = some t := by simpa using List.find?_some hfind
    rw [htable.injective i j t hi hj]

/-- Waking a Blocked thread succeeds and unblocks exactly that thread. -/
theorem unblockThread_spec (htable : k.TableOk) (hb : k.Blocked t) :
    ∃ s, k.unblockThread t = .ok (k.setSched s) ∧ Table s k.threads ∧
      s.currentPerCpu = k.sched.currentPerCpu ∧
      ∀ u, BlockedIn s k.threads u ↔ k.Blocked u ∧ u ≠ t := by
  obtain ⟨i, hi, hget⟩ := hb
  obtain ⟨st, hst, hst', hunblock, hinv⟩ := unblock_of_blocked htable.inv hget
  refine ⟨k.sched.setState i (some st), ?_, htable.setState hget hinv hst', ?_, fun u => ?_⟩
  · unfold unblockThread
    rw [threadIndexFor_eq htable hi]
    dsimp only
    rw [hunblock]
  · rfl
  · grind [htable.blockedIn_setState, Blocked]

/-- Waking reads the scheduler only. -/
theorem unblockThread_congr
    (h : k.unblockThread t = .ok (k.setSched s)) (hsched : k'.sched = k.sched)
    (hthreads : k'.threads = k.threads) : k'.unblockThread t = .ok (k'.setSched s) := by
  have hidx : k'.threadIndexFor t = k.threadIndexFor t := by
    unfold threadIndexFor
    rw [hthreads]
  unfold unblockThread at h ⊢
  rw [hidx, hsched]
  cases hi : k.threadIndexFor t with
  | none => simp [hi] at h
  | some i =>
    simp only [hi] at h ⊢
    cases hu : k.sched.unblock i with
    | error e => simp [hu] at h
    | ok s1 =>
      simp only [hu, ok.injEq] at h ⊢
      have hs : s1 = s := congrArg Kernel.sched h
      rw [hs]

/-- `block_current` by the executing thread succeeds and blocks exactly it. -/
theorem blockCurrent_spec (htable : k.TableOk) (hexe : k.Executes cpu t) (p : Pending) :
    ∃ s, k.blockCurrent cpu t p = .ok ((k.setSched s).setPending t (some p)) ∧
      Table s k.threads ∧ s.currentPerCpu = k.sched.currentPerCpu ∧
      ∀ u, BlockedIn s k.threads u ↔ k.Blocked u ∨ u = t := by
  obtain ⟨i, hcur, hrun, hthread⟩ := hexe
  refine ⟨k.sched.setState i (some .blocked), ?_, ?_, ?_, fun u => ?_⟩
  · simp only [blockCurrent, blockCurrent_of_running hcur hrun]
  · exact htable.setState hrun (htable.inv.setState (by simp) (by simp)) (by simp)
  · rfl
  · grind [htable.blockedIn_setState, Blocked]

/-- `add_thread` registers the thread in a free slot, Ready or (the first one)
    Running on CPU 0, or leaves a full table alone. -/
theorem addThread_spec (htable : k.TableOk) (hexec : k.addThread t = .ok k') :
    k' = k ∨ ∃ (i : Fin maxThreads) (s : SchedState) (st : SchedThreadState),
      k.threads i = none ∧ s.Inv ∧ st ≠ .blocked ∧ st ≠ .exited ∧
      (∀ j : Nat, s.get j = if j = i.val then some st else k.sched.get j) ∧
      k' = k.register t i s := by
  obtain ⟨idx, hlt, hnone, -, heq⟩ | ⟨-, heq⟩ := addThread_cases k.sched
  · have hslot : k.threads ⟨idx, hlt⟩ = none := (htable.registered ⟨idx, hlt⟩).mpr hnone
    have hinv : (k.sched.setState idx (some .ready)).Inv := htable.inv.setState
      (fun c hc => absurd hnone (htable.inv.current_registered c idx hc)) (by simp)
    refine Or.inr ⟨⟨idx, hlt⟩, ?_⟩
    unfold addThread at hexec
    rw [heq] at hexec
    dsimp only at hexec
    by_cases hidx : idx = 0
    · rw [if_pos hidx] at hexec
      cases hset : (k.sched.setState idx (some .ready)).setInitialCurrent 0 idx with
      | error p => simp [hset] at hexec
      | ok s =>
        simp only [hset, ok.injEq] at hexec
        obtain ⟨hidle, hready, rfl⟩ := setInitialCurrent_ok hset
        refine ⟨_, .running, hslot, hinv.dispatch hready (by simp [hidle]), by simp, by simp,
          fun j => ?_, hexec.symm⟩
        by_cases hj : j = idx
        · simp [hj, hlt]
        · simp [hj, Ne.symm hj]
    · rw [if_neg hidx] at hexec
      refine ⟨_, .ready, hslot, hinv, by simp, by simp, fun j => ?_, (ok.inj hexec).symm⟩
      simp [hlt, eq_comm]
  · unfold addThread at hexec
    rw [heq] at hexec
    exact Or.inl (ok.inj hexec).symm

end Kernel

end Lockjaw.Ipc
