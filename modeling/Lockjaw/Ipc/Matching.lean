/-
  Lockjaw.Ipc.Matching

  What the delivery invariant says to a reader of the trace: which thread a
  Reply is bound to, what the `n`-th receive on an endpoint returned, where a
  finished send or call went, and which reply a finished call came back with.
-/

import Lockjaw.Ipc.Delivery

namespace Lockjaw.Ipc

open Lib Event Option

variable {T E R M K : Type} {tr : List (Event T E R M K)} {a : Rendezvous T E R M K}
variable {t u : T} {e e' : E} {r : R} {i j n n' : Nat}

/-- Thread `t` is inside a call it issued with Reply `r`. -/
def InCall (tr : List (Event T E R M K)) (t : T) (r : R) : Prop :=
  ∃ (i : Nat) (e : E) (m : M) (k : K),
    Open tr t i ∧ tr[i]? = some (.issue t (.call e r m k) .blocked)

/-! ## Ranks -/

section Ranks

variable [DecidableEq E]

variable {ev : Event T E R M K} {res : Res M K}

theorem Event.receivesAt_unique (h : ev.receivesAt e = true)
    (h' : ev.receivesAt e' = true) : e = e' := by
  cases ev with
  | resume => simp [receivesAt] at h
  | issue t op out =>
    cases op <;> simp_all [receivesAt]

theorem Event.arrivesAt_unique (h : ev.arrivesAt e = true)
    (h' : ev.arrivesAt e' = true) : e = e' := by
  cases ev with
  | resume => simp [arrivesAt] at h
  | issue t op out =>
    cases op <;> simp_all [arrivesAt]

theorem Event.not_arrivesAt_of_receivesAt (h : ev.receivesAt e = true) :
    ev.arrivesAt e' = false := by
  cases ev with
  | resume => rfl
  | issue t op out =>
    cases op <;> simp_all [receivesAt, arrivesAt]

/-- A receive has one endpoint and one rank. -/
theorem receives_unique (h : (receives e tr)[n]? = some i) (h' : (receives e' tr)[n']? = some i) :
    e = e' ∧ n = n' := by
  obtain ⟨ev, hev, hrec⟩ := mem_receives h
  obtain ⟨ev', hev', hrec'⟩ := mem_receives h'
  obtain rfl := some.inj (hev.symm.trans hev')
  obtain rfl := receivesAt_unique hrec hrec'
  exact ⟨rfl, positions_rank_unique h h'⟩

theorem arrivals_unique (h : (arrivals e tr)[n]? = some i) (h' : (arrivals e' tr)[n']? = some i) :
    e = e' ∧ n = n' := by
  obtain ⟨ev, hev, harr⟩ := mem_arrivals h
  obtain ⟨ev', hev', harr'⟩ := mem_arrivals h'
  obtain rfl := some.inj (hev.symm.trans hev')
  obtain rfl := arrivesAt_unique harr harr'
  exact ⟨rfl, positions_rank_unique h h'⟩

theorem not_receives_of_arrivals (h : (arrivals e tr)[n]? = some i)
    (h' : (receives e' tr)[n']? = some i) : False := by
  obtain ⟨ev, hev, harr⟩ := mem_arrivals h
  obtain ⟨ev', hev', hrec⟩ := mem_receives h'
  obtain rfl := some.inj (hev.symm.trans hev')
  rw [not_arrivesAt_of_receivesAt hrec] at harr
  cases harr

/-- The right result of a receive is the message that arrived at its rank. -/
theorem Correct.of_receives (h : Correct tr i res) (hi : (receives e tr)[n]? = some i) :
    ∃ j ev m k, (arrivals e tr)[n]? = some j ∧ tr[j]? = some ev ∧ ev.payload = some (m, k) ∧
      res = .message m k := by
  obtain ⟨ev, hev, hrec⟩ := mem_receives hi
  cases h with
  | send _ hn _ => exact absurd hi (not_receives_of_arrivals hn)
  | call _ hj => exact absurd hi (not_receives_of_arrivals hj)
  | @receive _ j n' e' m k ev' hi' hj hev' hmsg =>
    obtain ⟨rfl, rfl⟩ := receives_unique hi hi'
    exact ⟨j, ev', m, k, hj, hev', hmsg, rfl⟩
  | reply hev' =>
    obtain rfl := some.inj (hev.symm.trans hev')
    cases hrec
  | failed hev' =>
    obtain rfl := some.inj (hev.symm.trans hev')
    rw [receivesAt_failed] at hrec
    cases hrec

/-- A finished send or call has a receive at its rank. -/
theorem Correct.of_arrivals (h : Correct tr j res)
    (hj : (arrivals e tr)[n]? = some j) : n < (receives e tr).length := by
  obtain ⟨ev, hev, harr⟩ := mem_arrivals hj
  cases h with
  | send _ hn hlt =>
    obtain ⟨rfl, rfl⟩ := arrivals_unique hj hn
    exact hlt
  | call _ hj' hi =>
    obtain ⟨rfl, rfl⟩ := arrivals_unique hj hj'
    exact lt_length_of_getElem? hi
  | receive hi => exact (not_receives_of_arrivals hj hi).elim
  | reply hev' =>
    obtain rfl := some.inj (hev.symm.trans hev')
    cases harr
  | failed hev' =>
    obtain rfl := some.inj (hev.symm.trans hev')
    rw [arrivesAt_failed] at harr
    cases harr

/-- A finished call was refused, or came back with the answer of the thread that received it. -/
theorem Correct.of_call {out : Out M K} {m : M} {k : K} (h : Correct tr j res)
    (hev : tr[j]? = some (.issue t (.call e r m k) out)) :
    (∃ err, res = .failed err) ∨ ∃ (n i l : Nat) (ev : Event T E R M K) (m' : M),
      (arrivals e tr)[n]? = some j ∧ (receives e tr)[n]? = some i ∧ tr[i]? = some ev ∧
      Answers tr ev.thread i l m' ∧ res = .replied m' := by
  cases h with
  | send hev' =>
    have heq := hev.symm.trans hev'
    simp at heq
  | @call i _ l n _ _ _ _ _ m' _ ev hev' hj hi hrecv hu hans => grind
  | receive hi =>
    obtain ⟨ev, hget, hrec⟩ := mem_receives hi
    obtain rfl := some.inj (hev.symm.trans hget)
    cases hrec
  | reply hev' =>
    have heq := hev.symm.trans hev'
    simp at heq
  | @failed _ _ _ err => exact Or.inl ⟨err, rfl⟩

/-- A thread answers what it received once. -/
theorem Hist.answers_unique (hist : Hist tr a) {l l' : Nat} {m m' : M} (h : Answers tr u i l m)
    (h' : Answers tr u i l' m') : l = l' ∧ m = m' := by
  -- between two replies of one thread there is a receive of that thread
  have hle : ∀ {l l' m m'}, Answers tr u i l m → Answers tr u i l' m' → ¬ l < l' := by
    intro l l' m m' h h' hlt
    obtain ⟨i', hi', hrecv, hfirst⟩ := hist.replies u l' ⟨m', h'.reply⟩
    have hli : l ≤ i' := by
      by_contra hlt'
      exact hfirst l (by omega) hlt ⟨m, h.reply⟩
    exact h'.first i' (Nat.lt_of_lt_of_le h.after hli) hi' hrecv
  grind [h'.reply, h.reply]

end Ranks

/-! ## Open operations against phases -/

section Phases

theorem exists_entryAt {l : List (Entry T R M K)} {js : List Nat}
    (h : List.Forall₂ (EntryAt tr e) l js) {x : Entry T R M K} (hx : x ∈ l) :
    ∃ j, EntryAt tr e x j := by
  induction h with
  | nil => cases hx
  | @cons y j l js hy _ ih =>
    rcases List.mem_cons.mp hx with rfl | hx
    · exact ⟨j, hy⟩
    · exact ih hx

variable [DecidableEq E]

/-- A queued thread is inside the operation it is queued for. -/
theorem Hist.open_of_queued (hist : Hist tr a) (hinv : a.Inv) (hq : (a.phase t).queuedOn = some e) :
    ∃ (x : Entry T R M K) (j : Nat), a.phase t = x.phaseAt e ∧ Open tr t j ∧
      tr[j]? = some (.issue t (x.op e) .blocked) := by
  obtain ⟨x, hx, rfl⟩ := hinv.queued_entry t e hq
  have hqueue := hist.queue e
  cases hep : a.ep e with
  | receiver u => simp [hep] at hx
  | waiting l =>
    rw [hep] at hqueue hx
    obtain ⟨j, hopen, hev⟩ := exists_entryAt hqueue.2 hx
    exact ⟨x, j, hinv.entry_phase e x (by rw [hep]; exact hx), hopen, hev⟩

/-- A Reply is bound to the thread that is blocked in a call made with it. -/
theorem Hist.bound_iff (hist : Hist tr a) (hinv : a.Inv) :
    a.bound r = some t ↔ (a.phase t).isBlocked = true ∧ InCall tr t r := by
  rw [hinv.bound_iff]
  constructor
  · rintro (⟨e, hphase⟩ | hphase)
    · obtain ⟨x, j, hx, hopen, hev⟩ := hist.open_of_queued hinv (e := e) (by rw [hphase]; rfl)
      refine ⟨by rw [hphase]; rfl, j, e, x.msg, x.token, hopen, ?_⟩
      grind [Entry.op]
    · obtain ⟨u, hu⟩ := hinv.awaiting_held t r hphase
      obtain ⟨e, m, k, j, -, -, -, hopen, hev, -⟩ := hist.held u t r hu hphase
      exact ⟨by rw [hphase]; rfl, j, e, m, k, hopen, hev⟩
  · rintro ⟨hblocked, j, e, m, k, hopen, hev⟩
    -- a thread has one open event, so being inside a call fixes its phase
    cases hphase : a.phase t with
    | running | woken => simp [hphase, Phase.isBlocked] at hblocked
    | receiving e' =>
      have hq := hist.queue e'
      rw [(hinv.receiver_iff e' t).mpr hphase] at hq
      obtain ⟨-, i, hi, hopen'⟩ := hq
      obtain rfl := hopen.unique hopen'
      obtain ⟨ev, hget, hrec⟩ := mem_receives hi
      obtain rfl := some.inj (hev.symm.trans hget)
      cases hrec
    | sending e' =>
      obtain ⟨x, j', hx, hopen', hev'⟩ := hist.open_of_queued hinv (e := e') (by rw [hphase]; rfl)
      grind [hopen.unique, Entry.op]
    | calling e' r' =>
      obtain ⟨x, j', hx, hopen', hev'⟩ := hist.open_of_queued hinv (e := e') (by rw [hphase]; rfl)
      obtain rfl := hopen.unique hopen'
      have hr : x.reply = some r' := by grind
      have heq := hev.symm.trans hev'
      simp only [Entry.op, hr, some.injEq, issue.injEq, Op.call.injEq] at heq
      exact Or.inl ⟨e', by rw [heq.2.1.2.1]⟩
    | awaiting r' =>
      obtain ⟨u, hu⟩ := hinv.awaiting_held t r' hphase
      obtain ⟨e', m', k', j', -, -, -, hopen', hev', -⟩ := hist.held u t r' hu hphase
      grind [hopen.unique]

/-- A receive that has a message at its rank has returned it, or its thread is about to. -/
theorem Hist.receive_done (hist : Hist tr a) (hinv : a.Inv) (hi : (receives e tr)[n]? = some i)
    (hn : n < (arrivals e tr).length) :
    (∃ res, Completes tr i res) ∨ ∃ t res, Open tr t i ∧ a.phase t = .woken res := by
  obtain ⟨ev, hev, hrec⟩ := mem_receives hi
  cases ev with
  | resume => cases hrec
  | issue t op out =>
    cases out with
    | returned res => exact Or.inl ⟨res, Or.inl ⟨t, op, hev⟩⟩
    | blocked =>
      refine (hist.blocked i t op hev).symm.imp_right fun hopen => ⟨t, ?_⟩
      -- a blocked phase would make the open operation another one
      have hqueued : ∀ e', (a.phase t).queuedOn = some e' → False := by
        intro e' hq
        obtain ⟨x, j, -, hopen', hev'⟩ := hist.open_of_queued hinv hq
        obtain rfl := hopen.unique hopen'
        have heq := hev.symm.trans hev'
        simp only [some.injEq, issue.injEq, true_and, and_true] at heq
        subst heq
        cases hr : x.reply <;> simp [Entry.op, hr, receivesAt] at hrec
      cases hphase : a.phase t with
      | running => exact absurd hphase (hist.busy t i hopen)
      | woken res => exact ⟨res, hopen, rfl⟩
      | sending e' | calling e' => exact (hqueued e' (by rw [hphase]; rfl)).elim
      | awaiting r' =>
        obtain ⟨u, hu⟩ := hinv.awaiting_held t r' hphase
        obtain ⟨e', m', k', j', -, -, -, hopen', hev', -⟩ := hist.held u t r' hu hphase
        obtain rfl := hopen.unique hopen'
        have heq := hev.symm.trans hev'
        simp only [some.injEq, issue.injEq, true_and, and_true] at heq
        subst heq
        cases hrec
      | receiving e' =>
        have hq := hist.queue e'
        rw [(hinv.receiver_iff e' t).mpr hphase] at hq
        obtain ⟨-, j, hj, hopen'⟩ := hq
        grind [hopen.unique, receives_unique]

end Phases

end Lockjaw.Ipc
