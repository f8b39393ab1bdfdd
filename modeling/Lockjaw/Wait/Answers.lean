/-
  Lockjaw.Wait.Answers

  What `sys_wait_any` answers.  The mask is computed from the objects when the
  call returns, so a bit is set exactly for an object that is ready then.  It is
  computed again after the wakeup, though, and by then the object that woke the
  thread need not be ready any more: somebody else may have received the message,
  or the thread was woken for the threshold of another one.  Where neither
  happens, the answer 0 means that the deadline has expired.
-/

import Lockjaw.Wait.Timeline

namespace Lockjaw.Wait

open Sched Ipc Lib Rendezvous List Option

/-! ## The readiness mask, bit by bit -/

theorem testBit_foldl_mask (l : List Bool) (k mask i : Nat) :
    ((l.zipIdx k).foldl (fun m x => if x.1 = true then m ||| 1 <<< x.2 else m) mask).testBit i =
      true ↔ mask.testBit i = true ∨ k ≤ i ∧ l[i - k]? = some true := by
  induction l generalizing k mask with
  | nil => simp
  | cons b l ih =>
    have hbit : (mask ||| 1 <<< k).testBit i = true ↔ mask.testBit i = true ∨ k = i := by
      rw [Nat.testBit_or, Nat.one_shiftLeft, Nat.testBit_two_pow, Bool.or_eq_true,
        decide_eq_true_eq]
    rw [zipIdx_cons, foldl_cons, ih, getElem?_cons]
    by_cases hki : k = i
    · subst hki
      cases b <;> simp
    · have hstep : (k + 1 ≤ i ∧ l[i - (k + 1)]? = some true) ↔
          k ≤ i ∧ (if i - k = 0 then some b else l[i - k - 1]?) = some true := by
        rw [← Nat.sub_sub]
        constructor
        · rintro ⟨hle, hl⟩
          exact ⟨by omega, by rw [if_neg (by omega)]; exact hl⟩
        · grind
      grind

section Machine

variable {a : Spec} {t e : Kva}

/-- An operation that readies an endpoint queues its thread there. -/
theorem issue_readied {op : Op Kva Kva Msg UInt64} (h : Watch.readied a op = some e) :
    ((a.issue t op).1.ep e).state = .hasWaiters := by
  cases op with
  | send e' m c =>
    grind [EpQueue.state, issue, send, Sim.state_append_singleton,
      Watch.readied]
  | call e' r m c =>
    simp only [Watch.readied] at h
    split at h
    · next hidle =>
      cases h
      obtain ⟨hnone, hidle⟩ := hidle
      have hbound : ¬ (a.bound r).isSome = true := by simpa using hnone
      cases hep : a.ep e with
      | receiver v => simp [hep, EpQueue.state] at hidle
      | waiting l =>
        simp only [issue, call, if_neg hbound, hep]
        simp [Sim.state_append_singleton]
    · cases h
  | recv e' => cases h
  | recvNb e' => cases h
  | reply m => cases h

end Machine

namespace Sys

variable {x x' : Sys} {a : Spec} {cpu : Fin maxCpus} {t n e : Kva} {act : Action}
  {objs : List WaitObject} {deadline now : UInt64}

/-- Bit `i` of the mask is set exactly when object `i` is ready. -/
def Answers (x : Sys) (objs : List WaitObject) (m : Nat) : Prop :=
  ∀ i, m.testBit i = true ↔ ∃ o, objs[i]? = some o ∧ x.isReady o = true

theorem answers_checkReadiness (x : Sys) (objs : List WaitObject) :
    x.Answers objs (x.checkReadiness objs) := by
  intro i
  rw [checkReadiness, computeReadyMask, testBit_foldl_mask]
  simp

/-! ## Who is told is told the truth -/

/-- Nobody is disturbed by the action: a thread that blocks finds nobody registered on its
    notifications, and an endpoint whose waiter has been woken and has not returned yet keeps
    a message. -/
structure Undisturbed (x : Sys) (act : Action) : Prop where
  unclaimed : ∀ cpu objs deadline now, act = .waitAny cpu objs deadline now →
    x.checkReadiness objs = 0 → hasExpired deadline now = false →
    ∀ n th, .notification n th ∈ objs → (x.notification n).readinessWaiter = 0
  kept : ∀ x' t e, x.exec act = .ok x' → x.waiting t = some .any → ¬ x.toKernel.Blocked t →
    .endpoint e ∈ (x.wait t).waitObjects → (x.endpoint e).state = .hasWaiters →
    (x'.endpoint e).state = .hasWaiters

/-- The threshold a notification keeps is one that its readiness waiter listed. -/
def Matched (x : Sys) : Prop :=
  ∀ n, (x.notification n).readinessWaiter ≠ 0 →
    .notification n (x.notification n).readinessThreshold ∈
      (x.wait (x.notification n).readinessWaiter).waitObjects

/-- The registration is as it was, and so is what the thread listed. -/
theorem Matched.keep (h : x.Matched) (hinv : x.Inv a) (hinv' : x'.Inv a') (heff : x.Effect act x')
    (hkeep : KeepsReadiness (x.notification n) (x'.notification n))
    (hne : (x'.notification n).readinessWaiter ≠ 0) :
    .notification n (x'.notification n).readinessThreshold ∈
      (x'.wait (x'.notification n).readinessWaiter).waitObjects := by
  obtain hzero | ⟨hw, hth⟩ := hkeep
  · exact absurd hzero hne
  · have hany' := (hinv'.notif_waiter n _ rfl hne).1
    rw [hw] at hne hany' ⊢
    have hany := (hinv.notif_waiter n _ rfl hne).1
    have hsome : x.waiting (x.notification n).readinessWaiter ≠ none := by
      rw [hany]
      exact some_ne_none _
    rw [hth, heff.objects _ hsome (hany'.trans hany.symm)]
    exact h n hne

/-- A thread registers on notifications nobody else is registered on. -/
theorem Matched.waitSlow (h : x.Matched) (hinv : x.Inv a) (hfree : x.Free cpu t) {s : SchedState}
    (hunclaimed : ∀ n th, .notification n th ∈ objs → (x.notification n).readinessWaiter = 0) :
    (objs.foldl (fun x o => x.setReadinessWaiter t o) (x.parkedOn t s objs deadline)).Matched := by
  have ht : t ≠ 0 := hfree.1.ne_zero hinv.table
  have hsame := sameWaits_foldl (fun x o => sameWaits_setReadinessWaiter x t o) objs
    (x.parkedOn t s objs deadline)
  intro n hne
  obtain ⟨hw, hth⟩ := foldl_set_notification (n := n) ht objs (x.parkedOn t s objs deadline)
  have hnotif : (x.parkedOn t s objs deadline).notification n = x.notification n := rfl
  rw [hnotif] at hw hth
  by_cases hlisted : thresholdsOn n objs = []
  · -- not among the objects of the new waiter
    rw [hlisted] at hw hth
    rw [if_neg fun hz => hz.2 rfl] at hw
    rw [hw] at hne ⊢
    have hany := (hinv.notif_waiter n _ rfl hne).1
    have hwt : (x.notification n).readinessWaiter ≠ t :=
      hfree.ne_of_waiting (by rw [hany]; exact some_ne_none _)
    rw [hth, hsame.wait]
    simpa [parkedOn, hwt] using h n hne
  · obtain ⟨th, hmem⟩ := exists_mem_of_ne_nil _ hlisted
    have hzero := hunclaimed n th (mem_thresholdsOn.mp hmem)
    rw [if_pos ⟨hzero, hlisted⟩] at hw
    have hlast := getLast?_eq_some_getLast hlisted
    rw [hw, hth, hlast, getD_some, hsame.wait]
    simpa [parkedOn] using
      mem_thresholdsOn.mp (mem_of_getLast? hlast)

theorem Run.matched (hrun : Run Undisturbed x) : x.Matched := by
  induction hrun with
  | boot p => exact fun n hne => absurd rfl hne
  | @step x x' act hrun henabled hP hexec ih =>
    obtain ⟨a, hinv⟩ := hrun.inv
    obtain ⟨a', hinv'⟩ := (Run.step act hrun henabled hP hexec).inv
    have heff := hinv.exec_effect henabled hexec
    by_cases hact : ∀ cpu objs deadline now, act ≠ .waitAny cpu objs deadline now
    · exact fun n => ih.keep hinv hinv' heff (heff.readiness hact n)
    · push Not at hact
      obtain ⟨cpu, objs, deadline, now, rfl⟩ := hact
      obtain ⟨t, hfree⟩ := henabled
      rcases exec_waitAny_cases hfree hexec with rfl | ⟨hmask, hexp, hslow⟩
      · exact ih
      · obtain ⟨s, hok, -, -, -⟩ := hinv.waitSlow hfree objs deadline
        obtain rfl := Except.ok.inj (hok.symm.trans hslow)
        exact ih.waitSlow hinv hfree (hP.unclaimed _ _ _ _ rfl hmask hexp)

/-- Whom an action tells, it tells of an endpoint or of a timeline. -/
theorem told_cases (h : x.told act = some t) :
    (∃ cpu op, act = .kernel (.issue cpu op)) ∨
    ∃ n v, x.signalOf act = some (n, v) ∧ x.toldBySignal n v = some t := by
  cases act with
  | kernel act =>
    cases act with
    | issue cpu op => exact Or.inl ⟨cpu, op, rfl⟩
    | resume | preempt | parked | idle | addThread => cases h
  | signal cpu n v => exact Or.inr ⟨n, v, rfl, h⟩
  | irq cpu intid now =>
    obtain ⟨n, hn, htold⟩ := bind_eq_some_iff.mp h
    refine Or.inr ⟨n, _, ?_, htold⟩
    rw [signalOf, hn]
    rfl
  | waitNotification | waitAny | resumeWait | bindIrq | unmaskIrq | start => cases h

variable {op : Op Kva Kva Msg UInt64} {acts : List Action}

/-- An endpoint that an operation readies is ready afterwards. -/
theorem Inv.issue_ready (h : x.Inv a) (henabled : x.Enabled (.kernel (.issue cpu op)))
    (hexec : x.exec (.kernel (.issue cpu op)) = .ok x')
    (hready : Watch.readied a op = some e) : (x'.endpoint e).state = .hasWaiters := by
  obtain ⟨⟨t, hexe, hpending, hcall⟩, hout⟩ := id henabled
  have hfirst := (h.exec_ok_iff henabled).mp ⟨x', hexec⟩
  obtain ⟨k', hipc, hsim, -⟩ :=
    h.sim.ipc hexe (h.sim.phase_running hpending) op hcall (h.wakeable hfirst)
  have hk : x.toKernel.exec (.issue cpu op) = .ok (k', some (.issue t op (a.issue t op).2)) :=
    Sim.bind_ok hexe.currentTcbKva (Sim.bind_ok hipc rfl)
  have hsys : x.exec (.kernel (.issue cpu op)) = .ok (x.setKernel k') :=
    Sim.bind_ok (congrArg lift hk) rfl
  obtain rfl := Except.ok.inj (hsys.symm.trans hexec)
  exact ((hsim.ep e).state).trans (issue_readied hready)

/-- A thread that is told has a ready object. -/
theorem Matched.told_ready (h : x.Matched) (hinv : x.Inv a) (henabled : x.Enabled act)
    (hexec : x.exec act = .ok x') (ht : t ≠ 0) (htold : x.told act = some t) :
    ∃ o ∈ (x.wait t).waitObjects, x'.isReady o = true := by
  rcases told_cases htold with ⟨cpu, op, rfl⟩ | ⟨n, v, hsignal, htold'⟩
  · rw [hinv.told_issue] at htold
    obtain ⟨e, he, hwaiter⟩ := map_eq_some_iff.mp htold
    exact ⟨.endpoint e, (hinv.ep_waiter e t hwaiter ht).2,
      decide_eq_true (hinv.issue_ready henabled hexec he)⟩
  · unfold toldBySignal at htold'
    dsimp only at htold'
    split at htold'
    · next hreached =>
      have hwaiter := some.inj htold'
      have hmem := h n (by rw [hwaiter]; exact ht)
      rw [hwaiter] at hmem
      refine ⟨_, hmem, decide_eq_true ?_⟩
      rw [((hinv.exec_effect henabled hexec).value n).1 v hsignal, if_pos hreached.1]
      exact hreached.2
    · cases htold'

/-! ## From the call to its return -/

/-- A tick among the actions has found the deadline expired. -/
def ExpiredIn (deadline : UInt64) (acts : List Action) : Prop :=
  ∃ cpu now, .irq cpu timerIntid now ∈ acts ∧ hasExpired deadline now = true

/-- Thread `t`, inside its call, is Blocked with its deadline, or has something to answer. -/
structure Answering (x : Sys) (t : Kva) (objs : List WaitObject) (deadline : UInt64)
    (acts : List Action) : Prop where
  objects : (x.wait t).waitObjects = objs
  state : (x.toKernel.Blocked t ∧ (x.wait t).waitDeadline = deadline) ∨
    ¬ x.toKernel.Blocked t ∧ ((∃ o ∈ objs, x.isReady o = true) ∨ ExpiredIn deadline acts)

/-- What is ready stays ready for a thread that has been woken. -/
theorem Undisturbed.still_ready (hP : x.Undisturbed act) (heff : x.Effect act x')
    (hexec : x.exec act = .ok x') (hany : x.waiting t = some .any)
    (hblocked : ¬ x.toKernel.Blocked t) {o : WaitObject} (ho : o ∈ (x.wait t).waitObjects)
    (hready : x.isReady o = true) : x'.isReady o = true := by
  cases o with
  | endpoint e =>
    exact decide_eq_true (hP.kept x' t e hexec hany hblocked ho (of_decide_eq_true hready))
  | notification n th =>
    exact decide_eq_true (UInt64.le_trans (of_decide_eq_true hready) (heff.value_le n))

theorem Answering.step (h : x.Answering t objs deadline acts)
    (hinv : x.Inv a) (hmatched : x.Matched) (henabled : x.Enabled act) (hP : x.Undisturbed act)
    (hexec : x.exec act = .ok x') (hany : x.waiting t = some .any)
    (hany' : x'.waiting t = some .any) : x'.Answering t objs deadline (acts ++ [act]) := by
  have heff := hinv.exec_effect henabled hexec
  have hsome : x.waiting t ≠ none := by
    rw [hany]
    exact some_ne_none _
  refine ⟨(heff.objects t hsome (hany'.trans hany.symm)).trans h.objects, ?_⟩
  rcases h.state with ⟨hblocked, hdeadline⟩ | ⟨hblocked, hanswer⟩
  · by_cases hwakes : x.Wakes act t
    · have hnot : ¬ x'.toKernel.Blocked t := fun hb => ((heff.blocked t hsome).mp hb).2 hwakes
      refine Or.inr ⟨hnot, ?_⟩
      rcases hwakes with htold | ⟨n, v, -, hrel⟩ | ⟨c, now, rfl, -, hexp⟩
      · obtain ⟨o, ho, hready⟩ := hmatched.told_ready hinv henabled hexec (hinv.ne_zero hsome) htold
        exact Or.inl ⟨o, h.objects ▸ ho, hready⟩
      · -- a thread inside `sys_wait_any` is released by no timeline
        grind [hinv.blocked_waiter, releasedBySignal]
      · rw [hdeadline] at hexp
        exact Or.inr ⟨c, now, mem_append_right _ (mem_singleton_self _), hexp⟩
    · have hb := (heff.blocked t hsome).mpr ⟨hblocked, hwakes⟩
      exact Or.inl ⟨hb, (heff.deadline t hsome hb).trans hdeadline⟩
  · refine Or.inr ⟨fun hb => hblocked ((heff.blocked t hsome).mp hb).1, ?_⟩
    rcases hanswer with ⟨o, ho, hready⟩ | ⟨c, now, hmem, hexp⟩
    · exact Or.inl ⟨o, ho, hP.still_ready heff hexec hany hblocked (h.objects ▸ ho) hready⟩
    · exact Or.inr ⟨c, now, mem_append_left _ hmem, hexp⟩

theorem During.answering (hdur : During Undisturbed t .any x acts x')
    (hrun : Run Undisturbed x) (hstart : x.Answering t objs deadline []) :
    x'.Answering t objs deadline acts := by
  induction hdur with
  | start _ => exact hstart
  | step act hdur henabled hP hexec hin ih =>
    obtain ⟨a, hinv⟩ := (hdur.run hrun).inv
    exact ih.step hinv (hdur.run hrun).matched henabled hP hexec hdur.inside hin

/-- Leaving the call changes the readiness of nothing. -/
theorem isReady_leave (x : Sys) (t : Kva) (o : WaitObject) :
    ((x.waitCleanup t).setWaiting t none).isReady o = x.isReady o := by
  obtain ⟨-, -, -, -, hstate, hnotification⟩ := waitCleanup_frame x t
  cases o with
  | endpoint e => exact congrArg isEndpointReady (hstate e)
  | notification n th =>
    exact congrArg (fun s => isNotificationReady s.value th) (hnotification n).1

/-- A call that blocks has stored its objects and its deadline. -/
theorem Inv.answering_blocked (h : x.Inv a) (hfree : x.Free cpu t)
    (hslow : x.waitSlow cpu t objs deadline = .ok x') : x'.Answering t objs deadline [] := by
  obtain ⟨s, hok, -, -, hbl⟩ := h.waitSlow hfree objs deadline
  obtain rfl := Except.ok.inj (hok.symm.trans hslow)
  have hsame := sameWaits_foldl (fun x o => sameWaits_setReadinessWaiter x t o) objs
    (x.parkedOn t s objs deadline)
  have hwait : (objs.foldl (fun x o => x.setReadinessWaiter t o)
      (x.parkedOn t s objs deadline)).wait t = ⟨objs, deadline⟩ := by
    rw [hsame.wait]
    simp [parkedOn]
  refine ⟨by rw [hwait], Or.inl ⟨?_, by rw [hwait]⟩⟩
  simp only [Kernel.Blocked, hsame.sched, hsame.threads]
  exact (hbl t).mpr (Or.inr rfl)

/-! ## The answer -/

/-- In a run in which nobody is disturbed, every bit of the mask that `sys_wait_any` returns says
    whether its object is ready at the return.  The mask is 0 only when the deadline has expired: at
    the call, or at a tick since then.  In particular a call without deadline never answers 0. -/
theorem wait_any_answers (hrun : Run Undisturbed x) (hfree : x.Free cpu t)
    (hP : x.Undisturbed (.waitAny cpu objs deadline now)) {x₁ : Sys} {out : WaitOut}
    (hcall : x.sysWaitAny cpu objs deadline now = .ok (x₁, out)) :
    (∀ m, out = .returned m →
      x₁.Answers objs m ∧ (m = 0 → hasExpired deadline now = true ∧ deadline ≠ noDeadline)) ∧
    (out = .blocked → ∀ acts x₂, During Undisturbed t .any x₁ acts x₂ →
      ∀ cpu', x₂.toKernel.Executes cpu' t → ∃ x₃ m, x₂.resumeWait cpu' = .ok (x₃, .returned m) ∧
        x₃.Answers objs m ∧ (m = 0 → ExpiredIn deadline acts ∧ deadline ≠ noDeadline)) := by
  have hno : ∀ now, hasExpired deadline now = true → deadline ≠ noDeadline := by
    rintro now hexp rfl
    cases hexp
  obtain ⟨a, h⟩ := hrun.inv
  rcases sysWaitAny_out hfree hcall with ⟨rfl, rfl | ⟨rfl, hzero⟩⟩ | ⟨rfl, -, -, hslow⟩
  · exact ⟨fun m hm => (by cases hm), fun hout => (by cases hout)⟩
  · refine ⟨fun m hm => ?_, fun hout => (by cases hout)⟩
    cases hm
    exact ⟨answers_checkReadiness _ objs, fun hz => ⟨hzero hz, hno now (hzero hz)⟩⟩
  · refine ⟨fun m hm => (by cases hm), fun _ acts x₂ hdur cpu' hexe => ?_⟩
    have hexec : x.exec (.waitAny cpu objs deadline now) = .ok x₁ := Sim.bind_ok hcall rfl
    have hrun₁ := Run.step (.waitAny cpu objs deadline now) hrun ⟨t, hfree⟩ hP hexec
    obtain ⟨a₂, h₂⟩ := (hdur.run hrun₁).inv
    have hans := hdur.answering hrun₁ (h.answering_blocked hfree hslow)
    -- the thread runs again, so it was woken: an object is ready, or a tick found the deadline over
    have hanswer := (hans.state.resolve_left fun hb => hexe.not_blocked h₂.table hb.1).2
    refine ⟨_, _, resumeWait_any hexe hdur.inside, ?_, fun hz => ?_⟩
    · rw [hans.objects]
      exact answers_checkReadiness _ objs
    · rw [hans.objects, checkReadiness_eq_zero_iff] at hz
      rcases hanswer with ⟨o, ho, hready⟩ | hexp
      · have hnot := hz o ho
        rw [isReady_leave, hready] at hnot
        cases hnot
      · obtain ⟨c, now', hmem, hexp'⟩ := hexp
        exact ⟨⟨c, now', hmem, hexp'⟩, hno now' hexp'⟩

/-- Thread 1 waits for a notification, thread 2 signals it, and the answer is not 0. -/
theorem wait_any_answers_signalled :
    ∃ x x₁ x₂ x₃ m, Run Undisturbed x ∧ x.Free 0 1 ∧
      x.sysWaitAny 0 [.notification 10 1] noDeadline 0 = .ok (x₁, .blocked) ∧
      During Undisturbed 1 .any x₁ [.signal 1 10 1] x₂ ∧
      x₂.resumeWait 0 = .ok (x₃, .returned m) ∧ m ≠ 0 := by
  have hquiet : ∀ (x : Sys) act, x.Quiet → x.Undisturbed act := fun x act h =>
    ⟨fun _ _ _ _ _ _ _ n _ _ => h.2 n, fun _ t _ _ ht => by rw [h.1 t] at ht; cases ht⟩
  obtain ⟨x, ⟨hrun, hnone⟩, hfree, ⟨x₁, _⟩, hcall, rfl, hwaiting, henabled, x₂, hexec, hwaiting₂,
      hexe⟩ := exists_quiet Kernel.threeThreads (P := Undisturbed) (fun x act => hquiet x _)
    (Q := fun x => x.Free 0 1 ∧
      ∃ r, x.sysWaitAny 0 [.notification 10 1] noDeadline 0 = .ok r ∧ r.2 = .blocked ∧
        r.1.waiting 1 = some .any ∧ r.1.Enabled (.signal 1 10 1) ∧
        ∃ x₂, r.1.exec (.signal 1 10 1) = .ok x₂ ∧ x₂.waiting 1 = some .any ∧
          x₂.toKernel.Executes 0 1) (by decide +kernel)
  have hexec₁ : x.exec (.waitAny 0 [.notification 10 1] noDeadline 0) = .ok x₁ :=
    Sim.bind_ok hcall rfl
  obtain ⟨a, hinv⟩ := (Run.step (.waitAny 0 [.notification 10 1] noDeadline 0) hrun ⟨1, hfree⟩
    (hquiet x _ hnone) hexec₁).inv
  have hP : x₁.Undisturbed (.signal 1 10 1) := by
    refine ⟨fun _ _ _ _ hact => (by cases hact), fun x' t e hx' _ _ _ hready => ?_⟩
    have hfirst := (hinv.exec_ok_iff henabled).mp ⟨x', hx'⟩
    obtain ⟨x'', r, hsignal, -, hsig⟩ := hinv.notificationSignal hfirst
    have hexec' : x₁.exec (.signal 1 10 1) = .ok x'' := Sim.bind_ok hsignal rfl
    obtain rfl := Except.ok.inj (hexec'.symm.trans hx')
    rw [hsig.endpoint]
    exact hready
  have hdur : During Undisturbed 1 .any x₁ [.signal 1 10 1] x₂ :=
    .step _ (.start hwaiting) henabled hP hexec hwaiting₂
  obtain ⟨x₃, m, hres, -, hzero⟩ :=
    (wait_any_answers hrun hfree (hquiet x _ hnone) hcall).2 rfl _ x₂ hdur 0 hexe
  exact ⟨x, x₁, x₂, x₃, m, hrun, hfree, hcall, hdur, hres, fun hm => (hzero hm).2 rfl⟩

/-- A call without deadline on `objs` blocks, and is answered 0. -/
def AnsweredZero (objs : List WaitObject) : Prop :=
  ∃ x x₁ acts x₂ x₃, Run (fun _ _ => True) x ∧ x.Free 0 1 ∧
    x.sysWaitAny 0 objs noDeadline 0 = .ok (x₁, .blocked) ∧
    During (fun _ _ => True) 1 .any x₁ acts x₂ ∧ x₂.toKernel.Executes 0 1 ∧
    x₂.resumeWait 0 = .ok (x₃, .returned 0)

/-- Two actions come between the call of thread 1 and its answer. -/
theorem answeredZero_of_replay (objs : List WaitObject) (act1 act2 : Action)
    (h : ∃ x ∈ replay (fun x act => decide (x.Enabled act)) (fun x act => (x.exec act).toOption)
      (boot id) (Kernel.threeThreads.map .kernel), x.Free 0 1 ∧
        ∃ r, x.sysWaitAny 0 objs noDeadline 0 = .ok r ∧ r.2 = .blocked ∧
          r.1.waiting 1 = some .any ∧ r.1.Enabled act1 ∧
        ∃ y, r.1.exec act1 = .ok y ∧ y.waiting 1 = some .any ∧ y.Enabled act2 ∧
        ∃ z, y.exec act2 = .ok z ∧ z.waiting 1 = some .any ∧ z.toKernel.Executes 0 1 ∧
        ∃ r', z.resumeWait 0 = .ok r' ∧ r'.2 = .returned 0) : AnsweredZero objs := by
  obtain ⟨x, hrun, hfree, ⟨x₁, _⟩, hcall, rfl, h1, hen1, y, hy, h₂, hen2, z, hz, h3, hexe, ⟨x₃, _⟩,
    hres, rfl⟩ := exists_run _ h
  exact ⟨x, x₁, _, z, x₃, hrun, hfree, hcall,
    .step act2 (.step act1 (.start h1) hen1 trivial hy h₂) hen2 trivial hz h3, hexe, hres⟩

/-- Thread 1 waits for an endpoint.  Thread 2 sends, which wakes it; thread 3 receives the
    message before thread 1 looks again. -/
theorem answeredZero_drained : AnsweredZero [.endpoint 10] :=
  answeredZero_of_replay _ (.kernel (.issue 1 (.send 10 (Vector.replicate 4 0) 0)))
    (.kernel (.issue 2 (.recv 10))) (by decide +kernel)

/-- Thread 1 waits for a value of 2.  Thread 3 waits for 1 on the same notification; its
    registration is refused, but its threshold is stored.  Thread 2 signals 1, which wakes
    thread 1. -/
theorem answeredZero_overwritten : AnsweredZero [.notification 10 2] :=
  answeredZero_of_replay _ (.waitAny 2 [.notification 10 1] noDeadline 0) (.signal 1 10 1)
    (by decide +kernel)

/-- Calls without deadline are answered 0 after the message that woke them has been taken, and
    after the threshold they asked for has been overwritten. -/
theorem wait_any_without_deadline_answers_zero :
    AnsweredZero [.endpoint 10] ∧ AnsweredZero [.notification 10 2] :=
  ⟨answeredZero_drained, answeredZero_overwritten⟩

end Sys

end Lockjaw.Wait
