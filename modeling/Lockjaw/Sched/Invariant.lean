/-
  Lockjaw.Sched.Invariant

  The scheduler invariant as a proposition, its agreement with the code's own
  `check_invariants`, and what each transition does to it.

  Two shapes of state change cover every transition: rewriting one thread's
  state in place (`Inv.setState`), and handing a CPU to a Ready thread, either
  from a CPU whose current thread is not Running (`Inv.dispatch`) or while
  demoting the Running one (`Inv.switch`).
-/

import Lockjaw.Sched.State
import Mathlib.Data.List.Nodup

namespace Lockjaw.Sched

open List

namespace SchedState

variable {s : SchedState} {i j : Nat} {c c' : Fin maxCpus}

/-! ## Reading back the two arrays -/

@[simp] theorem get_setState (s : SchedState) (i j : Nat) (x : Option SchedThreadState) :
    (s.setState i x).get j = if i = j ∧ i < maxThreads then x else s.get j := by
  by_cases hj : j < maxThreads
  all_goals grind [get, setState]

theorem lt_of_get (h : s.get i ≠ none) : i < maxThreads := by
  by_contra hlt
  exact h (by simp [get, hlt])

variable {st : SchedThreadState}

theorem lt_of_get_eq_some (h : s.get i = some st) : i < maxThreads :=
  lt_of_get (h.trans_ne (Option.some_ne_none st))

/-- Rewriting a registered thread's state. -/
theorem get_setState_of_some (h : s.get i = some st) (j : Nat) (x : Option SchedThreadState) :
    (s.setState i x).get j = if i = j then x else s.get j := by
  rw [get_setState]
  simp [lt_of_get_eq_some h]

@[simp] theorem tryCurrentFor_setState (s : SchedState) (i : Nat)
    (x : Option SchedThreadState) (c : Fin maxCpus) :
    (s.setState i x).tryCurrentFor c = s.tryCurrentFor c := rfl

@[simp] theorem get_setCurrent (s : SchedState) (c : Fin maxCpus) (i j : Nat) :
    (s.setCurrent c i).get j = s.get j := rfl

@[simp] theorem tryCurrentFor_setCurrent (s : SchedState) (c c' : Fin maxCpus) (i : Nat) :
    (s.setCurrent c i).tryCurrentFor c' = if c = c' then some i else s.tryCurrentFor c' := rfl

theorem isCurrent_iff : s.isCurrent i = true ↔ ∃ c, s.tryCurrentFor c = some i := by
  simp [isCurrent, any_eq_true]

@[simp] theorem get_newConst (i : Nat) : newConst.get i = none := by
  simp [get, newConst]

@[simp] theorem tryCurrentFor_newConst (c : Fin maxCpus) : newConst.tryCurrentFor c = none := rfl

/-! ## The invariant -/

/-- What a valid scheduler state satisfies. -/
structure Inv (s : SchedState) : Prop where
  /-- A CPU's current thread is registered. -/
  current_registered : ∀ c i, s.tryCurrentFor c = some i → s.get i ≠ none
  /-- No thread is current on two CPUs. -/
  current_injective : ∀ c c' i,
    s.tryCurrentFor c = some i → s.tryCurrentFor c' = some i → c = c'
  /-- Every Running thread is current on some CPU. -/
  running_current : ∀ i, s.get i = some .running → ∃ c, s.tryCurrentFor c = some i
  /-- A CPU's current thread is never Ready. -/
  current_not_ready : ∀ c i, s.tryCurrentFor c = some i → s.get i ≠ some .ready

/-- A Ready thread is not current anywhere. -/
theorem Inv.ready_not_current (h : s.Inv) (hi : s.get i = some .ready) (c : Fin maxCpus) :
    s.tryCurrentFor c ≠ some i :=
  fun hc => h.current_not_ready c i hc hi

theorem inv_newConst : newConst.Inv where
  current_registered := by simp
  current_injective := by simp
  running_current := by simp
  current_not_ready := by simp

/-- The number of CPUs that hold thread `i`, when no two CPUs share a thread. -/
theorem countP_current_eq_one_iff
    (hinj : ∀ c c' i, s.tryCurrentFor c = some i → s.tryCurrentFor c' = some i → c = c') :
    (finRange maxCpus).countP (fun c => s.tryCurrentFor c == some i) = 1 ↔
      ∃ c, s.tryCurrentFor c = some i := by
  constructor
  · grind [countP_pos_iff]
  · rintro ⟨c, hc⟩
    -- under injectivity the predicate is equality with `c`
    have hpred : ∀ d ∈ finRange maxCpus,
        (s.tryCurrentFor d == some i) = true ↔ (d == c) = true := by
      intro d _
      simp only [beq_iff_eq]
      exact ⟨fun hd => hinj d c i hd hc, fun hd => hd ▸ hc⟩
    rw [countP_congr hpred]
    exact count_eq_one_of_mem (nodup_finRange _) (mem_finRange c)

/-- The code's runtime check decides the invariant. -/
theorem checkInvariants_iff : s.checkInvariants = true ↔ s.Inv := by
  simp only [checkInvariants, Bool.and_eq_true, all_eq_true, mem_finRange,
    mem_range, forall_const]
  constructor
  · rintro ⟨⟨hcur, hrun⟩, hready⟩
    have hinj : ∀ c c' i, s.tryCurrentFor c = some i → s.tryCurrentFor c' = some i → c = c' := by
      grind
    refine ⟨fun c i hc => ?_, hinj, fun i hi => ?_, fun c i hc hi => ?_⟩
    · grind
    · have h := hrun i (lt_of_get_eq_some hi)
      exact (countP_current_eq_one_iff hinj).mp (by simpa [hi] using h)
    · have h := hready c
      simp [hc, hi] at h
  · intro h
    refine ⟨⟨fun c => ?_, fun i _ => ?_⟩, fun c => ?_⟩
    · cases hc : s.tryCurrentFor c with
      | none => rfl
      | some i =>
        have hreg := h.current_registered c i hc
        have hsep : ∀ c2, s.tryCurrentFor c2 = some i → c2 = c :=
          fun c2 h2 => h.current_injective c2 c i h2 hc
        have hlt : i < maxThreads := lt_of_get hreg
        simp only [Bool.and_eq_true, all_eq_true, mem_finRange, forall_const]
        grind [Nat.blt_eq, Option.isSome_iff_ne_none]
    · by_cases hi : s.get i = some .running
      · have hone := (countP_current_eq_one_iff h.current_injective).mpr
          (h.running_current i hi)
        simp [hone]
      · simp [hi]
    · grind [h.current_not_ready]

/-! ## The two shapes of state change -/

/-- Rewriting one thread's state in place keeps the invariant when a current thread stays registered
    and not Ready, and only a current thread becomes Running. -/
theorem Inv.setState (h : s.Inv) {x : Option SchedThreadState}
    (hcur : ∀ c, s.tryCurrentFor c = some i → x ≠ none ∧ x ≠ some .ready)
    (hrun : x = some .running → ∃ c, s.tryCurrentFor c = some i) : (s.setState i x).Inv := by
  refine ⟨fun c j hc => ?_, h.current_injective, fun j hj => ?_, fun c j hc => ?_⟩
  · rw [get_setState]
    split
    · next heq => exact (hcur c (heq.1 ▸ hc)).1
    · exact h.current_registered c j hc
  · rw [get_setState] at hj
    split at hj
    · next heq => exact heq.1 ▸ hrun hj
    · exact h.running_current j hj
  · rw [get_setState]
    split
    · next heq => exact (hcur c (heq.1 ▸ hc)).2
    · exact h.current_not_ready c j hc

/-- Handing CPU `c` to the Running thread `i`, once everything else is in order
    on the other CPUs. -/
theorem inv_setCurrent (hi : s.get i = some .running) (hfree : ∀ d, s.tryCurrentFor d ≠ some i)
    (hcur : ∀ d j, d ≠ c → s.tryCurrentFor d = some j → s.get j ≠ none ∧ s.get j ≠ some .ready)
    (hinj : ∀ d d' j, s.tryCurrentFor d = some j → s.tryCurrentFor d' = some j → d = d')
    (hrun : ∀ j, j ≠ i → s.get j = some .running → ∃ d, d ≠ c ∧ s.tryCurrentFor d = some j) :
    (s.setCurrent c i).Inv := by
  have hother : ∀ d j, (s.setCurrent c i).tryCurrentFor d = some j →
      s.get j ≠ none ∧ s.get j ≠ some .ready := by
    intro d j hd
    rw [tryCurrentFor_setCurrent] at hd
    split at hd
    · cases hd
      simp [hi]
    · next hne => exact hcur d j (Ne.symm hne) hd
  refine ⟨fun d j hd => (hother d j hd).1, fun d d' j hd hd' => ?_, fun j hj => ?_,
    fun d j hd => (hother d j hd).2⟩
  · rw [tryCurrentFor_setCurrent] at hd hd'
    split at hd <;> split at hd' <;> rename_i h1 h2
    · exact h1.symm.trans h2
    · exact absurd (Option.some.inj hd ▸ hd') (hfree d')
    · exact absurd (Option.some.inj hd' ▸ hd) (hfree d)
    · exact hinj d d' j hd hd'
  · by_cases hji : j = i
    · exact ⟨c, by rw [tryCurrentFor_setCurrent, if_pos rfl, hji]⟩
    · obtain ⟨d, hdc, hd⟩ := hrun j hji hj
      exact ⟨d, by rw [tryCurrentFor_setCurrent, if_neg (Ne.symm hdc), hd]⟩

/-- Switching `c` from its current thread `cur`, left in state `x`, to the Ready thread `i`. -/
theorem Inv.switch (h : s.Inv) {cur : Nat} (hc : s.tryCurrentFor c = some cur)
    (hi : s.get i = some .ready) {x : SchedThreadState} (hx : x ≠ .running) :
    (((s.setState cur (some x)).setState i (some .running)).setCurrent c i).Inv := by
  obtain ⟨st, hst⟩ := Option.ne_none_iff_exists'.mp (h.current_registered c cur hc)
  have hget : ∀ j, ((s.setState cur (some x)).setState i (some .running)).get j
      = if i = j then some .running else if cur = j then some x else s.get j := by
    intro j
    rw [get_setState, get_setState]
    simp [lt_of_get_eq_some hi, lt_of_get_eq_some hst]
  refine inv_setCurrent (by rw [hget, if_pos rfl]) (h.ready_not_current hi) (fun d j hdc hd => ?_)
    h.current_injective fun j hji hj => ?_
  · have hcj : cur ≠ j := fun heq => hdc (h.current_injective d c j hd (heq ▸ hc))
    rw [hget, if_neg hcj]
    split
    · simp
    · exact ⟨h.current_registered d j hd, h.current_not_ready d j hd⟩
  · rw [hget, if_neg (Ne.symm hji)] at hj
    split at hj
    · exact absurd (Option.some.inj hj) hx
    · next hne =>
      obtain ⟨d, hd⟩ := h.running_current j hj
      exact ⟨d, fun heq => hne (Option.some.inj (hc.symm.trans (heq ▸ hd))), hd⟩

/-- Handing an idle CPU, or one whose current thread is not Running, to the Ready thread `i`. -/
theorem Inv.dispatch (h : s.Inv) (hi : s.get i = some .ready)
    (hc : ∀ cur, s.tryCurrentFor c = some cur → s.get cur ≠ some .running) :
    ((s.setState i (some .running)).setCurrent c i).Inv := by
  have hget : ∀ j, (s.setState i (some .running)).get j
      = if i = j then some .running else s.get j := fun j => get_setState_of_some hi j _
  refine inv_setCurrent (by rw [hget, if_pos rfl]) (h.ready_not_current hi) (fun d j _ hd => ?_)
    h.current_injective fun j hji hj => ?_
  · rw [hget]
    split
    · simp
    · exact ⟨h.current_registered d j hd, h.current_not_ready d j hd⟩
  · rw [hget, if_neg (Ne.symm hji)] at hj
    obtain ⟨d, hd⟩ := h.running_current j hj
    exact ⟨d, fun heq => hc j (heq ▸ hd) hj, hd⟩

end SchedState

end Lockjaw.Sched
