/-
  Lockjaw.Wait.Wakeups

  No wakeup is lost as long as nobody registers where another thread is
  registered and a notification is last listed with its least threshold: a
  thread Blocked in `sys_wait_any` is then the readiness waiter of each of its
  objects, and none of them is ready.
-/

import Lockjaw.Wait.Runs

namespace Lockjaw.Wait

open Sched Ipc

/-! ## The readiness mask -/

theorem foldl_mask_eq_zero_iff (l : List Bool) (k mask : Nat) :
    (l.zipIdx k).foldl (fun m x => if x.1 = true then m ||| 1 <<< x.2 else m) mask = 0 ↔
      mask = 0 ∧ ∀ b ∈ l, b = false := by
  induction l generalizing k mask with
  | nil => simp
  | cons b l ih =>
    rw [List.zipIdx_cons, List.foldl_cons, ih]
    cases b with
    | false => simp
    | true =>
      have hne : mask ||| 1 <<< k ≠ 0 := by
        rw [Ne, Nat.or_eq_zero_iff, Nat.one_shiftLeft]
        exact fun hz => Nat.two_pow_pos k |>.ne' hz.2
      simp [hne]

theorem computeReadyMask_eq_zero_iff (l : List Bool) :
    computeReadyMask l = 0 ↔ ∀ b ∈ l, b = false :=
  (foldl_mask_eq_zero_iff l 0 0).trans (and_iff_right rfl)

namespace Sys

variable {x x' : Sys} {a : Spec} {cpu : Fin maxCpus} {t n e : Kva}

theorem checkReadiness_eq_zero_iff (objs : List WaitObject) :
    x.checkReadiness objs = 0 ↔ ∀ o ∈ objs, x.isReady o = false := by
  rw [checkReadiness, computeReadyMask_eq_zero_iff]
  simp

theorem Watched.not_ready {o : WaitObject} (h : x.Watched t o) : x.isReady o = false := by
  cases o with
  | endpoint e => exact decide_eq_false h.2
  | notification n th =>
    exact decide_eq_false (UInt64.not_le.mpr (UInt64.lt_of_lt_of_le h.2.2 h.2.1))

/-! ## Registering on every object -/

def thresholdsOn (n : Kva) (objs : List WaitObject) : List UInt64 :=
  objs.filterMap fun o =>
    match o with
    | .notification m th => if m = n then some th else none
    | .endpoint _ => none

variable {objs : List WaitObject} {deadline now : UInt64} {out : WaitOut}

theorem mem_thresholdsOn {th : UInt64} :
    th ∈ thresholdsOn n objs ↔ .notification n th ∈ objs := by grind [thresholdsOn]

/-- Nobody is registered on the object. -/
def Unclaimed (x : Sys) : WaitObject → Prop
  | .endpoint e => (x.endpoint e).readinessWaiter = 0
  | .notification n _ => (x.notification n).readinessWaiter = 0

/-- A call of `sys_wait_any` that blocks finds its objects unclaimed, and lists
    no notification with a threshold below the last one it lists for it. -/
def Exclusive (x : Sys) : Action → Prop
  | .waitAny _ objs deadline now =>
    x.checkReadiness objs = 0 → hasExpired deadline now = false →
      (∀ o ∈ objs, x.Unclaimed o) ∧
      ∀ n th last, .notification n th ∈ objs → (thresholdsOn n objs).getLast? = some last →
        last ≤ th
  | _ => True

/-- Who is registered on an endpoint after the walk. -/
theorem foldl_set_endpoint (ht : t ≠ 0) (objs : List WaitObject) (x : Sys) :
    ((objs.foldl (fun x o => x.setReadinessWaiter t o) x).endpoint e).readinessWaiter =
      if (x.endpoint e).readinessWaiter = 0 ∧ .endpoint e ∈ objs then t
      else (x.endpoint e).readinessWaiter := by
  induction objs generalizing x with
  | nil => simp
  | cons o objs ih =>
    rw [List.foldl_cons, ih]
    cases o with
    | notification m th =>
      simp only [List.mem_cons, reduceCtorEq, false_or]
      rfl
    | endpoint e' =>
      by_cases he : e = e'
      · subst he
        by_cases hw : (x.endpoint e).readinessWaiter = 0
        · simp [Sys.setReadinessWaiter, registerIgnoring_eq, hw, ht]
        · simp [Sys.setReadinessWaiter, registerIgnoring_eq, hw]
      · simp [Sys.setReadinessWaiter, he]

/-- Who is registered on a notification after the walk, and with which threshold. -/
theorem foldl_set_notification (ht : t ≠ 0) (objs : List WaitObject) (x : Sys) :
    ((objs.foldl (fun x o => x.setReadinessWaiter t o) x).notification n).readinessWaiter =
      (if (x.notification n).readinessWaiter = 0 ∧ thresholdsOn n objs ≠ [] then t
        else (x.notification n).readinessWaiter) ∧
    ((objs.foldl (fun x o => x.setReadinessWaiter t o) x).notification n).readinessThreshold =
      (thresholdsOn n objs).getLast?.getD (x.notification n).readinessThreshold := by
  induction objs generalizing x with
  | nil => simp [thresholdsOn]
  | cons o objs ih =>
    rw [List.foldl_cons, (ih _).1, (ih _).2]
    cases o with
    | endpoint e => exact ⟨rfl, rfl⟩
    | notification m th =>
      by_cases hm : n = m
      · subst hm
        have hcons : thresholdsOn n (.notification n th :: objs) =
            th :: thresholdsOn n objs := by
          simp [thresholdsOn]
        rw [hcons, List.getLast?_cons]
        by_cases hw : (x.notification n).readinessWaiter = 0
        · simp [Sys.setReadinessWaiter, registerIgnoring_eq, hw, ht]
        · simp [Sys.setReadinessWaiter, registerIgnoring_eq, hw]
      · have hcons : thresholdsOn n (.notification m th :: objs) = thresholdsOn n objs := by
          simp [thresholdsOn, Ne.symm hm]
        rw [hcons]
        simp [Sys.setReadinessWaiter, hm]

/-- The objects of whoever is Blocked in `sys_wait_any`. -/
def Heard (x : Sys) : Prop :=
  ∀ t, x.waiting t = some .any → x.toKernel.Blocked t →
    ∀ o ∈ (x.wait t).waitObjects, x.Watched t o

theorem Heard.calm (h : x.Heard) (hcalm : x.Calm x') : x'.Heard := by
  intro t ht hb o ho
  obtain ⟨ht', hb', hobjs, hw⟩ := hcalm t ht hb
  rw [hobjs] at ho
  exact hw o ho (h t ht' hb' o ho)

/-- A thread enters `sys_wait_any` on objects nobody else waits for. -/
theorem Heard.waitSlow (h : x.Heard) (hinv : x.Inv a) (hfree : x.Free cpu t)
    (hready : ∀ o ∈ objs, x.isReady o = false) (hunclaimed : ∀ o ∈ objs, x.Unclaimed o)
    (hleast : ∀ n th last, .notification n th ∈ objs →
      (thresholdsOn n objs).getLast? = some last → last ≤ th) {s : SchedState}
    (hbl : ∀ u, BlockedIn s x.threads u ↔ x.toKernel.Blocked u ∨ u = t) :
    (objs.foldl (fun x o => x.setReadinessWaiter t o) (x.parkedOn t s objs deadline)).Heard := by
  have ht : t ≠ 0 := hfree.1.ne_zero hinv.table
  have hsame := sameWaits_foldl (fun x o => sameWaits_setReadinessWaiter x t o) objs
    (x.parkedOn t s objs deadline)
  intro v hv hb o ho
  rw [hsame.waiting] at hv
  rw [hsame.wait] at ho
  have hb' : x.toKernel.Blocked v ∨ v = t := by
    refine (hbl v).mp ?_
    have hbv : BlockedIn _ _ v := hb
    rw [hsame.sched, hsame.threads] at hbv
    exact hbv
  by_cases hvt : v = t
  · -- the new waiter: its objects were free and not ready
    subst hvt
    have ho' : o ∈ objs := by simpa [parkedOn] using ho
    cases o with
    | endpoint e =>
      have hw : (x.endpoint e).readinessWaiter = 0 := hunclaimed _ ho'
      have hst : (x.endpoint e).state ≠ .hasWaiters := of_decide_eq_false (hready _ ho')
      refine ⟨?_, by rw [hsame.state]; exact hst⟩
      rw [foldl_set_endpoint ht]
      exact if_pos ⟨hw, ho'⟩
    | notification n th =>
      have hw : (x.notification n).readinessWaiter = 0 := hunclaimed _ ho'
      have hmem : th ∈ thresholdsOn n objs := mem_thresholdsOn.mpr ho'
      have hne : thresholdsOn n objs ≠ [] := List.ne_nil_of_mem hmem
      obtain ⟨last, hlast⟩ : ∃ last, (thresholdsOn n objs).getLast? = some last :=
        ⟨_, List.getLast?_eq_some_getLast hne⟩
      have hlt : (x.notification n).state.value < last := by
        have hr := hready _ (mem_thresholdsOn.mp (List.mem_of_getLast? hlast))
        exact UInt64.not_le.mp (of_decide_eq_false hr)
      obtain ⟨h1, h2⟩ := foldl_set_notification (n := n) ht objs (x.parkedOn v s objs deadline)
      refine ⟨h1.trans (if_pos ⟨hw, hne⟩), ?_, ?_⟩
      · rw [h2, hlast]
        exact hleast n th last ho' hlast
      · rw [h2, hlast, hsame.value]
        exact hlt
  · -- everybody else is registered elsewhere
    have hv' : x.waiting v = some .any := by
      simpa [parkedOn, hvt] using hv
    have ho' : o ∈ (x.wait v).waitObjects := by
      simpa [parkedOn, hvt] using ho
    have hvz : v ≠ 0 := hinv.ne_zero (by rw [hv']; exact Option.some_ne_none _)
    have hw := h v hv' (hb'.resolve_right hvt) o ho'
    cases o with
    | endpoint e =>
      refine ⟨?_, by rw [hsame.state]; exact hw.2⟩
      rw [foldl_set_endpoint ht]
      refine (if_neg fun hz => ?_).trans hw.1
      exact hvz (hw.1.symm.trans hz.1)
    | notification n th =>
      have hnot : thresholdsOn n objs = [] := by
        by_contra hne
        obtain ⟨th', hth'⟩ := List.exists_mem_of_ne_nil _ hne
        have hz : (x.notification n).readinessWaiter = 0 :=
          hunclaimed _ (mem_thresholdsOn.mp hth')
        exact hvz (hw.1.symm.trans hz)
      obtain ⟨h1, h2⟩ := foldl_set_notification (n := n) ht objs (x.parkedOn t s objs deadline)
      rw [hnot] at h1 h2
      refine ⟨h1.trans ((if_neg fun hz => hz.2 rfl).trans hw.1), ?_, ?_⟩
      · rw [h2]
        exact hw.2.1
      · rw [h2, hsame.value]
        exact hw.2.2

section

variable (hfree : x.Free cpu t) (hexec : x.sysWaitAny cpu objs deadline now = .ok (x', out))
include hfree hexec

/-- A call of `sys_wait_any` answers at once, with the mask, or enters the slow path. -/
theorem sysWaitAny_out :
    (x' = x ∧ (out = .invalidParameter ∨ out = .returned (x.checkReadiness objs) ∧
      (x.checkReadiness objs = 0 → hasExpired deadline now = true))) ∨
    (out = .blocked ∧ x.checkReadiness objs = 0 ∧ hasExpired deadline now = false ∧
      x.waitSlow cpu t objs deadline = .ok x') := by
  have hcur := lift_current hfree.1
  unfold Sys.sysWaitAny at hexec
  split at hexec
  · obtain ⟨rfl, rfl⟩ := Prod.mk.inj (Except.ok.inj hexec)
    exact Or.inl ⟨rfl, Or.inl rfl⟩
  · rw [hcur, ok_bind] at hexec
    split at hexec
    · next hmask =>
      obtain ⟨rfl, rfl⟩ := Prod.mk.inj (Except.ok.inj hexec)
      exact Or.inl ⟨rfl, Or.inr ⟨rfl, fun hz => absurd hz hmask⟩⟩
    · next hmask =>
      have hzero := not_not.mp hmask
      split at hexec
      · next hexp =>
        obtain ⟨rfl, rfl⟩ := Prod.mk.inj (Except.ok.inj hexec)
        exact Or.inl ⟨rfl, Or.inr ⟨by rw [hzero], fun _ => hexp⟩⟩
      · next hexp =>
        cases hslow : x.waitSlow cpu t objs deadline with
        | error p =>
          rw [hslow] at hexec
          cases hexec
        | ok y =>
          rw [hslow, ok_bind] at hexec
          obtain ⟨rfl, rfl⟩ := Prod.mk.inj (Except.ok.inj hexec)
          exact Or.inr ⟨rfl, hzero, by simpa using hexp, rfl⟩

/-- A call of `sys_wait_any` either changes nothing or enters the slow path. -/
theorem sysWaitAny_cases :
    x' = x ∨ x.checkReadiness objs = 0 ∧ hasExpired deadline now = false ∧
      x.waitSlow cpu t objs deadline = .ok x' :=
  (sysWaitAny_out hfree hexec).imp And.left And.right

end

theorem exec_waitAny_cases (hfree : x.Free cpu t)
    (hexec : x.exec (.waitAny cpu objs deadline now) = .ok x') :
    x' = x ∨ x.checkReadiness objs = 0 ∧ hasExpired deadline now = false ∧
      x.waitSlow cpu t objs deadline = .ok x' := by
  cases hsys : x.sysWaitAny cpu objs deadline now with
  | error p =>
    simp only [Sys.exec, hsys] at hexec
    cases hexec
  | ok r =>
    simp only [Sys.exec, hsys, ok_bind] at hexec
    obtain rfl := Except.ok.inj hexec
    exact sysWaitAny_cases hfree hsys

theorem Run.heard (hrun : Run Exclusive x) : x.Heard := by
  induction hrun with
  | boot p => exact fun t ht => by cases ht
  | @step x x' act hrun henabled hP hexec ih =>
    obtain ⟨a, hinv⟩ := hrun.inv
    by_cases hact : ∀ cpu objs deadline now, act ≠ .waitAny cpu objs deadline now
    · obtain ⟨x2, a', hok, -, hcalm⟩ :=
        hinv.exec henabled ((hinv.exec_ok_iff henabled).mp ⟨_, hexec⟩)
      obtain rfl := Except.ok.inj (hok.symm.trans hexec)
      exact ih.calm (hcalm hact)
    · push Not at hact
      obtain ⟨cpu, objs, deadline, now, rfl⟩ := hact
      obtain ⟨t, hfree⟩ := henabled
      rcases exec_waitAny_cases hfree hexec with rfl | ⟨hmask, hexp, hslow⟩
      · exact ih
      · obtain ⟨hunclaimed, hleast⟩ := hP hmask hexp
        obtain ⟨s, hok, -, -, hbl⟩ := hinv.waitSlow hfree objs deadline
        obtain rfl := Except.ok.inj (hok.symm.trans hslow)
        exact ih.waitSlow hinv hfree ((checkReadiness_eq_zero_iff objs).mp hmask) hunclaimed
          hleast hbl

end Sys

end Lockjaw.Wait
