/-
  Lockjaw.Wait.Timeline

  The timeline semaphore over whole runs.  Its state is split between the pure machine
  (`has_waiter`, threshold), the kernel object (`blocked_tcb_kva`) and the scheduler; the
  joint invariant says that they agree, and everything else follows from what one action
  does to a timeline.
-/

import Lockjaw.Wait.Safety
import Lockjaw.Wait.Wakes

namespace Lockjaw.Wait

open Ipc NotificationState

namespace NotificationState

variable {s s' : NotificationState} {v threshold : UInt64}

theorem signalled_of_below (h : s.value < v) (hbelow : s.hasWaiter = true → v < s.waitThreshold) :
    s.signalled v = { s with value := v } := by
  have hno : ¬ (s.hasWaiter = true ∧ s.waitThreshold ≤ v) := fun hr =>
    UInt64.not_le.mpr (hbelow hr.1) hr.2
  simp only [signalled, signal, if_neg (UInt64.not_le.mpr h), if_neg hno]

/-- The three things a signal can do. -/
theorem signalled_cases (s : NotificationState) (v : UInt64) :
    (v ≤ s.value ∧ s.signalled v = s) ∨
    (s.value < v ∧ s.hasWaiter = true ∧ s.waitThreshold ≤ v ∧ s.signalled v = ⟨v, false, 0⟩) ∨
    (s.value < v ∧ (s.hasWaiter = true → v < s.waitThreshold) ∧
      s.signalled v = { s with value := v }) := by
  by_cases hle : v ≤ s.value
  · exact Or.inl ⟨hle, by simp only [signalled, signal, if_pos hle]⟩
  · have hlt := UInt64.not_le.mp hle
    by_cases hr : s.hasWaiter = true ∧ s.waitThreshold ≤ v
    · exact Or.inr (Or.inl ⟨hlt, hr.1, hr.2, by simp only [signalled, signal, if_neg hle, if_pos hr]⟩)
    · have hbelow : s.hasWaiter = true → v < s.waitThreshold := fun hw =>
        UInt64.not_le.mp fun hle => hr ⟨hw, hle⟩
      exact Or.inr (Or.inr ⟨hlt, hbelow, signalled_of_below hlt hbelow⟩)

theorem value_signalled (s : NotificationState) (v : UInt64) :
    (s.signalled v).value = if s.value < v then v else s.value := by
  rcases s.signalled_cases v with ⟨hle, heq⟩ | ⟨hlt, -, -, heq⟩ | ⟨hlt, -, heq⟩ <;> rw [heq]
  · rw [if_neg (UInt64.not_lt.mpr hle)]
  · rw [if_pos hlt]
  · rw [if_pos hlt]

/-- A wait that blocks found nobody waiting and the value below its threshold. -/
theorem of_wait_block (h : s.wait threshold = .ok (s', .block)) :
    s.hasWaiter = false ∧ s.value < threshold ∧
      s' = { s with hasWaiter := true, waitThreshold := threshold } := by grind [wait]

end NotificationState

namespace Sys

variable {x x' : Sys} {a : Spec} {cpu : Fin maxCpus} {t n : Kva} {act : Action}

/-- Thread `t` is Blocked on the timeline of `n`. -/
def WaitsOn (x : Sys) (n t : Kva) : Prop :=
  x.waiting t = some (.notification n) ∧ x.toKernel.Blocked t

/-- The recorded waiters are those that wait, and they wait for a value to come. -/
structure Timed (x : Sys) : Prop where
  recorded : ∀ n t, x.WaitsOn n t →
    (x.notification n).state.hasWaiter = true ∧ (x.notification n).blockedTcbKva = t
  below : ∀ n, (x.notification n).state.hasWaiter = true →
    (x.notification n).state.value < (x.notification n).state.waitThreshold

/-- A signal releases the recorded waiter exactly when it reaches its threshold. -/
theorem Timed.released_iff (htimed : x.Timed) (hwaits : x.WaitsOn n t) (v : UInt64) :
    x.releasedBySignal n v = some t ↔ (x.notification n).state.waitThreshold ≤ v := by
  obtain ⟨hwaiter, hkva⟩ := htimed.recorded n t hwaits
  unfold releasedBySignal
  dsimp only
  rw [hkva]
  constructor
  · intro h
    split at h
    · next hr => exact hr.2.2
    · cases h
  · intro hreached
    rw [if_pos ⟨UInt64.lt_of_lt_of_le (htimed.below n hwaiter) hreached, hwaiter, hreached⟩]

/-- A recorded waiter below its threshold stays recorded. -/
theorem Timed.still_recorded (htimed : x.Timed) (heff : x.Effect act x')
    (hwaits : x.WaitsOn n t) (hnot : ∀ v, x.signalOf act = some (n, v) →
      v < (x.notification n).state.waitThreshold) :
    (x'.notification n).state.hasWaiter = true ∧ (x'.notification n).blockedTcbKva = t ∧
      (x'.notification n).state.waitThreshold = (x.notification n).state.waitThreshold := by
  obtain ⟨hwaiter, hkva⟩ := htimed.recorded n t hwaits
  rcases heff.timeline n with ⟨v, hv, hstate, hkva'⟩ | ⟨_, _, _, _, _, hblock, -⟩ |
    ⟨-, hstate, hkva'⟩
  · have hlt := hnot v hv
    rcases (x.notification n).state.signalled_cases v with ⟨-, heq⟩ | ⟨-, -, hreached, -⟩ |
      ⟨-, -, heq⟩
    all_goals grind
  · rw [(of_wait_block hblock).1] at hwaiter
    cases hwaiter
  · rw [hstate, hkva']
    exact ⟨hwaiter, hkva, rfl⟩

theorem Timed.exec (htimed : x.Timed) (heff : x.Effect act x') : x'.Timed := by
  refine ⟨fun n t hwaits => ?_, fun n hwaiter => ?_⟩
  · rcases heff.entered t n hwaits.1 with hold | ⟨cpu, threshold, -, -, hblock, hkva⟩
    · have hne : x.waiting t ≠ none := by
        rw [hold]
        exact Option.some_ne_none _
      obtain ⟨hblocked, hwakes⟩ := (heff.blocked t hne).mp hwaits.2
      have hbefore : x.WaitsOn n t := ⟨hold, hblocked⟩
      obtain ⟨h1, h2, -⟩ := htimed.still_recorded heff hbefore fun v hv =>
        UInt64.not_le.mp fun hle => hwakes (Or.inr (Or.inl ⟨n, v, hv,
          (htimed.released_iff hbefore v).mpr hle⟩))
      exact ⟨h1, h2⟩
    · rw [(of_wait_block hblock).2.2]
      exact ⟨rfl, hkva⟩
  · rcases heff.timeline n with ⟨v, -, hstate, -⟩ | ⟨_, _, _, _, _, hblock, -⟩ | ⟨-, hstate, -⟩
    · rw [hstate] at hwaiter ⊢
      rcases (x.notification n).state.signalled_cases v with ⟨-, heq⟩ | ⟨-, -, -, heq⟩ |
        ⟨-, hbelow, heq⟩ <;> rw [heq] at hwaiter ⊢
      · exact htimed.below n hwaiter
      · cases hwaiter
      · exact hbelow hwaiter
    · obtain ⟨-, hlt, heq⟩ := of_wait_block hblock
      rw [heq]
      exact hlt
    · rw [hstate] at hwaiter ⊢
      exact htimed.below n hwaiter

variable {P : Sys → Action → Prop}

theorem Run.timed (hrun : Run P x) : x.Timed := by
  induction hrun with
  | boot p => exact ⟨fun n t h => (by cases h.1), fun n h => by cases h⟩
  | step act hrun henabled _ hexec ih =>
    obtain ⟨a, h⟩ := hrun.inv
    exact ih.exec (h.exec_effect henabled hexec)

/-! ## One action -/

/-- A timeline moves by signals only, and never back. -/
theorem Effect.value (heff : x.Effect act x') (n : Kva) :
    (∀ v, x.signalOf act = some (n, v) → (x'.notification n).state.value =
      if (x.notification n).state.value < v then v else (x.notification n).state.value) ∧
    ((∀ v, x.signalOf act ≠ some (n, v)) →
      (x'.notification n).state.value = (x.notification n).state.value) := by
  rcases heff.timeline n with ⟨v, hv, hstate, -⟩ | ⟨_, _, _, hact, _, hblock, -⟩ |
    ⟨hno, hstate, -⟩
  · grind [value_signalled]
  · rw [(of_wait_block hblock).2.2]
    refine ⟨fun v hv => ?_, fun _ => rfl⟩
    rw [hact] at hv
    cases hv
  · exact ⟨fun v hv => absurd hv (hno v), fun _ => by rw [hstate]⟩

theorem Effect.value_le (heff : x.Effect act x') (n : Kva) :
    (x.notification n).state.value ≤ (x'.notification n).state.value := by grind [heff.value]

/-- The waiter waits on while the value is below its threshold, and a signal that reaches
    the threshold releases it. -/
theorem Timed.waiter_exec (htimed : x.Timed) (hinv' : x'.Inv a) (heff : x.Effect act x')
    (hwaits : x.WaitsOn n t) :
    ((x'.notification n).state.value < (x.notification n).state.waitThreshold →
      x'.WaitsOn n t ∧ (x'.notification n).state.waitThreshold =
        (x.notification n).state.waitThreshold) ∧
    ((x.notification n).state.waitThreshold ≤ (x'.notification n).state.value →
      (∃ v, x.signalOf act = some (n, v) ∧ (x.notification n).state.waitThreshold ≤ v) ∧
        ¬ x'.toKernel.Blocked t) := by
  obtain ⟨hwaiter, -⟩ := htimed.recorded n t hwaits
  have hbelow := htimed.below n hwaiter
  constructor
  · intro hlt
    obtain ⟨hwaiter', hkva', hthreshold⟩ := htimed.still_recorded heff hwaits fun v hv => by
      rw [(heff.value n).1 v hv] at hlt
      split at hlt
      · exact hlt
      · next hle => exact UInt64.lt_of_le_of_lt (UInt64.not_lt.mp hle) hlt
    exact ⟨hkva' ▸ hinv'.blocked_waiter n hwaiter', hthreshold⟩
  · intro hreached
    have hsignal : ∃ v, x.signalOf act = some (n, v) := by grind [heff.value]
    obtain ⟨v, hv⟩ := hsignal
    have hle : (x.notification n).state.waitThreshold ≤ v := by grind [heff.value]
    refine ⟨⟨v, hv, hle⟩, fun hb => ?_⟩
    have hne : x.waiting t ≠ none := by
      rw [hwaits.1]
      exact Option.some_ne_none _
    exact ((heff.blocked t hne).mp hb).2
      (Or.inr (Or.inl ⟨n, v, hv, (htimed.released_iff hwaits v).mpr hle⟩))

/-! ## From the call to its return -/

/-- While a thread is inside its wait, the value has reached the threshold or the thread is
    recorded with it. -/
theorem During.reached_or_recorded {acts : List Action}
    {threshold : UInt64} (hdur : During P t (.notification n) x acts x') (hrun : Run P x)
    (hstart : (x.notification n).state.hasWaiter = true ∧ (x.notification n).blockedTcbKva = t ∧
      (x.notification n).state.waitThreshold = threshold) :
    threshold ≤ (x'.notification n).state.value ∨
      (x'.notification n).state.hasWaiter = true ∧ (x'.notification n).blockedTcbKva = t ∧
        (x'.notification n).state.waitThreshold = threshold := by
  induction hdur with
  | start _ => exact Or.inr hstart
  | @step y y' acts act hdur henabled hP hexec hin ih =>
    obtain ⟨a, h⟩ := (hdur.run hrun).inv
    have heff := h.exec_effect henabled hexec
    rcases ih with hreached | ⟨hwaiter, hkva, hthreshold⟩
    · exact Or.inl (UInt64.le_trans hreached (heff.value_le n))
    · by_cases hreached : threshold ≤ (y'.notification n).state.value
      · exact Or.inl hreached
      · right
        have htimed := (hdur.run hrun).timed
        have hwaits : y.WaitsOn n t := hkva ▸ h.blocked_waiter n hwaiter
        obtain ⟨a', h'⟩ := (Run.step act (hdur.run hrun) henabled hP hexec).inv
        obtain ⟨hwaits', hsame⟩ := (htimed.waiter_exec h' heff hwaits).1 (by
          rw [hthreshold]
          exact UInt64.not_le.mp hreached)
        have hrec := ((htimed.exec heff).recorded n t hwaits')
        exact ⟨hrec.1, hrec.2, hsame.trans hthreshold⟩

/-- The timeline semaphore in every reachable state.  A waiter is recorded exactly while a
    thread is Blocked on the timeline, and then the value is below its threshold.  Every action
    moves the value by its signal only and never back; the recorded waiter is released by the
    first signal that reaches its threshold and waits on until then.  The value a wait returns
    is at least its threshold, at once or after any number of other actions. -/
theorem timeline_semaphore (hrun : Run (fun _ _ => True) x) (n : Kva) :
    (∀ t, ((x.notification n).state.hasWaiter = true ∧ (x.notification n).blockedTcbKva = t) ↔
      x.WaitsOn n t) ∧
    ((x.notification n).state.hasWaiter = true →
      (x.notification n).state.value < (x.notification n).state.waitThreshold) ∧
    (∀ act x', x.Enabled act → x.exec act = .ok x' →
      (x.notification n).state.value ≤ (x'.notification n).state.value ∧
      (∀ v, x.signalOf act = some (n, v) → (x'.notification n).state.value =
        if (x.notification n).state.value < v then v else (x.notification n).state.value) ∧
      ∀ t, x.WaitsOn n t →
        ((x'.notification n).state.value < (x.notification n).state.waitThreshold →
          x'.WaitsOn n t ∧ (x'.notification n).state.waitThreshold =
            (x.notification n).state.waitThreshold) ∧
        ((x.notification n).state.waitThreshold ≤ (x'.notification n).state.value →
          (∃ v, x.signalOf act = some (n, v) ∧ (x.notification n).state.waitThreshold ≤ v) ∧
            ¬ x'.toKernel.Blocked t)) ∧
    (∀ cpu t threshold x₁ out, x.Free cpu t →
      x.notificationWait cpu n threshold = .ok (x₁, out) →
      (∀ v, out = .returned v → threshold.toNat ≤ v) ∧
      (out = .blocked → ∀ acts x₂, During (fun _ _ => True) t (.notification n) x₁ acts x₂ →
        ∀ cpu' x₃ v, x₂.toKernel.Executes cpu' t → x₂.resumeWait cpu' = .ok (x₃, .returned v) →
          threshold.toNat ≤ v)) := by
  obtain ⟨a, h⟩ := hrun.inv
  have htimed := hrun.timed
  refine ⟨fun t => ⟨fun hrec => hrec.2 ▸ h.blocked_waiter n hrec.1, htimed.recorded n t⟩,
    htimed.below n, fun act x' henabled hexec => ?_, fun cpu t threshold x₁ out hfree hwait => ?_⟩
  · have heff := h.exec_effect henabled hexec
    obtain ⟨a', h'⟩ := (Run.step act hrun henabled trivial hexec).inv
    exact ⟨heff.value_le n, (heff.value n).1, fun t => htimed.waiter_exec h' heff⟩
  · have hexec : x.exec (.waitNotification cpu n threshold) = .ok x₁ := Sim.bind_ok hwait rfl
    have hrun₁ := Run.step (.waitNotification cpu n threshold) hrun ⟨t, hfree⟩ trivial hexec
    rcases h.notificationWait_cases hfree hwait with
      (⟨-, err, rfl⟩ | ⟨-, rfl, hle⟩) | ⟨rfl, st, hst, henters⟩
    · exact ⟨fun v hv => (by cases hv), fun hout => (by cases hout)⟩
    · refine ⟨fun v hv => ?_, fun hout => (by cases hout)⟩
      cases hv
      exact UInt64.le_iff_toNat_le.mp hle
    · refine ⟨fun v hv => (by cases hv), fun _ acts x₂ hdur cpu' x₃ v hexe hres => ?_⟩
      have hstart : (x₁.notification n).state.hasWaiter = true ∧
          (x₁.notification n).blockedTcbKva = t ∧
          (x₁.notification n).state.waitThreshold = threshold := by
        rw [henters.state, (of_wait_block hst).2.2]
        exact ⟨rfl, henters.kva, rfl⟩
      obtain ⟨a₂, h₂⟩ := (hdur.run hrun₁).inv
      rw [resumeWait_notification hexe hdur.inside] at hres
      cases hres
      rcases hdur.reached_or_recorded hrun₁ hstart with hle | ⟨hwaiter, hkva, -⟩
      · exact UInt64.le_iff_toNat_le.mp hle
      · -- a thread that executes is not the recorded waiter
        have hblocked := (h₂.blocked_waiter n hwaiter).2
        rw [hkva] at hblocked
        exact absurd hblocked (hexe.not_blocked h₂.table)

/-- Thread 1 waits for value 2 on a new notification. -/
theorem timeline_semaphore_waiting :
    ∃ x, Run (fun _ _ => True) x ∧ x.WaitsOn 10 1 ∧
      (x.notification 10).state.value < (x.notification 10).state.waitThreshold ∧
      ∀ act x', x.Enabled act → x.exec act = .ok x' →
        (x'.notification 10).state.value < 2 → x'.WaitsOn 10 1 := by
  obtain ⟨x, hrun, hwaits, hstate⟩ := exists_run
    [.kernel (.addThread 1), .waitNotification 0 10 2]
    (Q := fun x => (x.waiting 1 = some (.notification 10) ∧ x.toKernel.Blocked 1) ∧
      (x.notification 10).state = ⟨0, true, 2⟩) (by decide +kernel)
  have hsem := timeline_semaphore hrun 10
  refine ⟨x, hrun, hwaits, hsem.2.1 (by rw [hstate]), fun act x' hen hexec hlt => ?_⟩
  refine (((hsem.2.2.1 act x' hen hexec).2.2 1 hwaits).1 ?_).1
  rw [hstate]
  exact hlt

end Sys

end Lockjaw.Wait
