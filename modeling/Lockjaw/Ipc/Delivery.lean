/-
  Lockjaw.Ipc.Delivery

  The run invariant behind message delivery.  `Hist tr a` ties the state of
  the rendezvous machine to the trace that led to it: the messages waiting at
  an endpoint are the arrivals no receive has been matched with yet, a parked
  receiver is the one receive that is ahead of the arrivals, the result held
  for a woken thread is the right one, and a held Reply remembers which
  receive it came from.
-/

import Lockjaw.Ipc.History

namespace Lockjaw.Ipc

open Lib Event List

variable {T E R M K : Type}

/-! ## The invariant -/

/-- The operation behind a queued entry of endpoint `e`. -/
def Entry.op (e : E) (x : Entry T R M K) : Op E R M K :=
  match x.reply with
  | none => .send e x.msg x.token
  | some r => .call e r x.msg x.token

/-- The entry is the open operation of its thread, issued at `j`. -/
structure EntryAt (tr : List (Event T E R M K)) (e : E) (x : Entry T R M K) (j : Nat) : Prop where
  isOpen : Open tr x.thread j
  event : tr[j]? = some (.issue x.thread (x.op e) .blocked)

/-- The event at `l` is a successful reply of thread `u`. -/
def RepliesBy (tr : List (Event T E R M K)) (u : T) (l : Nat) : Prop :=
  ∃ m, tr[l]? = some (.issue u (.reply m) (.returned .done))

section Invariant

variable [DecidableEq E]

/-- The queue of `e` against the history: queued messages are the unmatched
    arrivals, a parked receiver is the unmatched receive. -/
def QueueHist (tr : List (Event T E R M K)) (e : E) : EpQueue T R M K → Prop
  | .waiting l => (receives e tr).length ≤ (arrivals e tr).length ∧
      List.Forall₂ (EntryAt tr e) l ((arrivals e tr).drop (receives e tr).length)
  | .receiver t => (receives e tr).length = (arrivals e tr).length + 1 ∧
      ∃ i, (receives e tr)[(arrivals e tr).length]? = some i ∧ Open tr t i

/-- Thread `u` has neither received nor replied since `i`. -/
def Quiet (tr : List (Event T E R M K)) (u : T) (i : Nat) : Prop :=
  ∀ j, i < j → ¬ ReceivesBy tr u j ∧ ¬ RepliesBy tr u j

/-- Thread `u` owes thread `t` an answer through Reply `r`: `t`'s open call was
    matched with a receive of `u`, and `u` has not turned to anything since. -/
def Held (tr : List (Event T E R M K)) (u t : T) (r : R) : Prop :=
  ∃ (e : E) (m : M) (k : K) (j n i : Nat) (ev : Event T E R M K),
    Open tr t j ∧ tr[j]? = some (.issue t (.call e r m k) .blocked) ∧
    (arrivals e tr)[n]? = some j ∧ (receives e tr)[n]? = some i ∧
    tr[i]? = some ev ∧ ev.thread = u ∧ Quiet tr u i

/-- The state `a` is what the history `tr` leads to. -/
structure Hist (tr : List (Event T E R M K)) (a : Rendezvous T E R M K) : Prop where
  queue : ∀ e, QueueHist tr e (a.ep e)
  woken : ∀ t res, a.phase t = .woken res → ∃ i, Open tr t i ∧ Correct tr i res
  held : ∀ u t r, a.holds u = some r → a.phase t = .awaiting r → Held tr u t r
  replies : ∀ u l, RepliesBy tr u l → ∃ i, i < l ∧ ReceivesBy tr u i ∧
    ∀ l', i < l' → l' < l → ¬ RepliesBy tr u l'
  completed : ∀ i res, Completes tr i res → Correct tr i res
  busy : ∀ t i, Open tr t i → a.phase t ≠ .running
  blocked : ∀ i t op, tr[i]? = some (.issue t op .blocked) → Open tr t i ∨ ∃ res, Completes tr i res

theorem hist_init : Hist [] (Rendezvous.init : Rendezvous T E R M K) where
  queue := fun _ => ⟨Nat.le_refl _, by simp [arrivals]⟩
  woken := fun _ _ h => by simp [Rendezvous.init] at h
  held := fun _ _ _ h => by simp [Rendezvous.init] at h
  replies := fun _ _ h => by simp [RepliesBy] at h
  completed := fun _ _ h => by simp [Completes] at h
  busy := fun _ _ h => by simp [Open] at h
  blocked := fun _ _ _ h => by simp at h

end Invariant

/-! ## One more event, queue by queue -/

section Queue

variable {tr : List (Event T E R M K)} {ev : Event T E R M K} {e : E} {x : Entry T R M K}
  {l : List (Entry T R M K)} {t u : T} {j : Nat}

theorem EntryAt.snoc (h : EntryAt tr e x j) (hne : x.thread ≠ ev.thread) :
    EntryAt (tr ++ [ev]) e x j :=
  ⟨h.isOpen.snoc_of_ne hne.symm, getElem?_snoc_of_some h.event ev⟩

theorem forall₂_entryAt_snoc {js : List Nat} (h : List.Forall₂ (EntryAt tr e) l js)
    (hne : ∀ x ∈ l, x.thread ≠ ev.thread) : List.Forall₂ (EntryAt (tr ++ [ev]) e) l js := by
  induction h with
  | nil => exact .nil
  | cons hx _ ih =>
    refine .cons (hx.snoc (hne _ mem_cons_self)) (ih fun y hy => ?_)
    exact hne y (mem_cons_of_mem _ hy)

variable [DecidableEq E]

/-- An event elsewhere. -/
theorem QueueHist.frame {q : EpQueue T R M K} (h : QueueHist tr e q)
    (harr : ev.arrivesAt e = false) (hrec : ev.receivesAt e = false)
    (hne : ∀ u ∈ q.threads, u ≠ ev.thread) : QueueHist (tr ++ [ev]) e q := by
  cases q with
  | waiting l =>
    obtain ⟨hle, hentries⟩ := h
    simp only [QueueHist, arrivals_snoc_of_false harr, receives_snoc_of_false hrec]
    exact ⟨hle, forall₂_entryAt_snoc hentries fun x hx => hne _ (mem_map_of_mem hx)⟩
  | receiver t =>
    obtain ⟨hlen, i, hi, hopen⟩ := h
    simp only [QueueHist, arrivals_snoc_of_false harr, receives_snoc_of_false hrec]
    exact ⟨hlen, i, hi, hopen.snoc_of_ne (hne t (mem_singleton_self t)).symm⟩

/-- An arrival joins the queue. -/
theorem QueueHist.enqueue (h : QueueHist tr e (.waiting l)) (harr : ev.arrivesAt e = true)
    (hrec : ev.receivesAt e = false) (hne : ∀ y ∈ l, y.thread ≠ ev.thread)
    (hx : EntryAt (tr ++ [ev]) e x tr.length) : QueueHist (tr ++ [ev]) e (.waiting (l ++ [x])) := by
  obtain ⟨hle, hentries⟩ := h
  simp only [QueueHist, arrivals_snoc_of_true harr, receives_snoc_of_false hrec,
    length_append, length_singleton, drop_append_of_le_length hle]
  exact ⟨by omega, rel_append (forall₂_entryAt_snoc hentries hne) (.cons hx .nil)⟩

/-- An arrival goes straight to the parked receiver. -/
theorem QueueHist.deliver (h : QueueHist tr e (.receiver u)) (harr : ev.arrivesAt e = true)
    (hrec : ev.receivesAt e = false) : QueueHist (tr ++ [ev]) e (.waiting []) := by
  obtain ⟨hlen, -⟩ := h
  simp only [QueueHist, arrivals_snoc_of_true harr, receives_snoc_of_false hrec,
    length_append, length_singleton]
  refine ⟨by omega, ?_⟩
  rw [drop_eq_nil_of_le (by simp; omega)]
  exact .nil

/-- A receive finds nothing and parks. -/
theorem QueueHist.park (h : QueueHist tr e (.waiting [])) (harr : ev.arrivesAt e = false)
    (hrec : ev.receivesAt e = true) (hopen : Open (tr ++ [ev]) t tr.length) :
    QueueHist (tr ++ [ev]) e (.receiver t) := by
  obtain ⟨hle, hentries⟩ := h
  have hge := drop_eq_nil_iff.mp (forall₂_nil_left_iff.mp hentries)
  have hlen : (arrivals e tr).length = (receives e tr).length := by omega
  simp only [QueueHist, arrivals_snoc_of_false harr, receives_snoc_of_true hrec,
    length_append, length_singleton]
  exact ⟨by omega, tr.length, by simp [hlen], hopen⟩

/-- The oldest message waiting is the arrival at the next receive's rank. -/
theorem QueueHist.head (h : QueueHist tr e (.waiting (x :: l))) :
    ∃ j, (arrivals e tr)[(receives e tr).length]? = some j ∧ EntryAt tr e x j ∧
      List.Forall₂ (EntryAt tr e) l ((arrivals e tr).drop ((receives e tr).length + 1)) := by
  obtain ⟨-, hentries⟩ := h
  grind [forall₂_cons_left_iff, head?_drop, tail_drop]

/-- A receive takes the oldest message. -/
theorem QueueHist.take (h : QueueHist tr e (.waiting (x :: l))) (harr : ev.arrivesAt e = false)
    (hrec : ev.receivesAt e = true) (hne : ∀ y ∈ l, y.thread ≠ ev.thread) :
    QueueHist (tr ++ [ev]) e (.waiting l) := by
  obtain ⟨j, hj, -, hl⟩ := h.head
  have hlt := lt_length_of_getElem? hj
  simp only [QueueHist, arrivals_snoc_of_false harr, receives_snoc_of_true hrec,
    length_append, length_singleton]
  exact ⟨by omega, forall₂_entryAt_snoc hl hne⟩

/-- What an arrival gives the parked receiver. -/
theorem QueueHist.delivered (h : QueueHist tr e (.receiver u)) (harr : ev.arrivesAt e = true)
    {m : M} {k : K} (hmsg : ev.payload = some (m, k)) (hne : ev.thread ≠ u) :
    ∃ i, Open (tr ++ [ev]) u i ∧ Correct (tr ++ [ev]) i (.message m k) := by
  obtain ⟨-, i, hi, hopen⟩ := h
  exact ⟨i, hopen.snoc_of_ne hne, .receive (receives_getElem?_snoc hi ev)
    (positions_getElem?_length harr) (getElem?_snoc_length tr ev) hmsg⟩

end Queue

/-! ## One more event, thread by thread -/

section Threads

variable [DecidableEq E] {tr : List (Event T E R M K)} {ev : Event T E R M K} {t u : T} {r : R}
  {i : Nat}

variable {e e' : E} {op : Op E R M K} {out : Out M K} {err : IpcError} {n : Nat}

theorem Event.receivesAt_recv {t : T}
    (hop : op = .recv e ∨ op = .recvNb e) (hout : out.isFailed = false) :
    (issue t op out).receivesAt e' = decide (e = e') := by
  rcases hop with rfl | rfl <;> simp [receivesAt, hout]

theorem Event.arrivesAt_recv {t : T}
    (hop : op = .recv e ∨ op = .recvNb e) : (issue t op out).arrivesAt e' = false := by
  rcases hop with rfl | rfl <;> rfl

theorem Event.arrivesAt_failed {t : T} :
    (issue t op (.returned (.failed err))).arrivesAt e = false := by
  cases op <;> simp [arrivesAt, Out.isFailed]

theorem Event.receivesAt_failed {t : T} :
    (issue t op (.returned (.failed err))).receivesAt e = false := by
  cases op <;> simp [receivesAt, Out.isFailed]

/-- A receive of the oldest message is matched with it. -/
theorem Hist.taken {a : Rendezvous T E R M K} {x : Entry T R M K} {l : List (Entry T R M K)}
    (h : Hist tr a) (hep : a.ep e = .waiting (x :: l)) (hop : op = .recv e ∨ op = .recvNb e)
    {t : T} (hev : ev = .issue t op (.returned (.message x.msg x.token))) :
    ∃ j n : Nat, EntryAt tr e x j ∧ (arrivals e (tr ++ [ev]))[n]? = some j ∧
      (receives e (tr ++ [ev]))[n]? = some tr.length := by
  have hq := h.queue e
  rw [hep] at hq
  obtain ⟨j, hj, hx, -⟩ := hq.head
  have hrec : ev.receivesAt e = true := by rw [hev, receivesAt_recv hop rfl]; simp
  exact ⟨j, _, hx, arrivals_getElem?_snoc hj ev, positions_getElem?_length hrec⟩

/-- A receive of the oldest message of `e`, as any endpoint sees it. -/
theorem QueueHist.takeOr {q : E → EpQueue T R M K}
    {x : Entry T R M K} {l : List (Entry T R M K)} (h : QueueHist tr e' (q e'))
    (hep : q e = .waiting (x :: l)) (hop : op = .recv e ∨ op = .recvNb e)
    (hne : ∀ u ∈ (q e').threads,
      u ≠ (issue t op (.returned (.message x.msg x.token)) : Event T E R M K).thread) :
    QueueHist (tr ++ [.issue t op (.returned (.message x.msg x.token))]) e'
      (if e' = e then .waiting l else q e') := by
  by_cases he : e' = e
  · subst he
    rw [hep] at h hne
    rw [if_pos rfl]
    exact h.take (arrivesAt_recv hop) (by rw [receivesAt_recv hop rfl]; simp)
      (fun y hy => hne _ (mem_map_of_mem (mem_cons_of_mem _ hy)))
  · rw [if_neg he]
    exact h.frame (arrivesAt_recv hop)
      (by rw [receivesAt_recv hop rfl]; simp [Ne.symm he]) hne

/-- The new event is no receive and no reply of `u`. -/
def Event.quietFor (ev : Event T E R M K) (u : T) : Prop :=
  ev.thread = u → (∀ e, ev.receivesAt e = false) ∧ ∀ m, ev ≠ .issue u (.reply m) (.returned .done)

theorem Quiet.snoc (h : Quiet tr u i) (hev : ev.quietFor u) : Quiet (tr ++ [ev]) u i := by
  intro j hij
  constructor
  · rintro ⟨ev', e, hget, hu, he⟩
    rcases getElem?_snoc_cases hget with ⟨-, hget⟩ | ⟨-, rfl⟩
    · exact (h j hij).1 ⟨ev', e, hget, hu, he⟩
    · simp [(hev hu).1 e] at he
  · rintro ⟨m, hget⟩
    rcases getElem?_snoc_cases hget with ⟨-, hget⟩ | ⟨-, rfl⟩
    · exact (h j hij).2 ⟨m, hget⟩
    · exact (hev rfl).2 m rfl

theorem Held.snoc (h : Held tr u t r) (ht : ev.thread ≠ t) (hev : ev.quietFor u) :
    Held (tr ++ [ev]) u t r := by
  obtain ⟨e, m, k, j, n, i, ev', hopen, hcall, hj, hi, hget, hu, hquiet⟩ := h
  exact ⟨e, m, k, j, n, i, ev', hopen.snoc_of_ne ht, getElem?_snoc_of_some hcall ev,
    arrivals_getElem?_snoc hj ev, receives_getElem?_snoc hi ev, getElem?_snoc_of_some hget ev, hu,
    hquiet.snoc hev⟩

/-- Nothing of `u` follows its latest event. -/
theorem quiet_of_lastBy (h : LastBy thread tr u i) : Quiet tr u i := by
  intro j hij
  constructor
  · rintro ⟨ev, e, hget, hu, -⟩
    exact h.2 j ev hij hget hu
  · rintro ⟨m, hget⟩
    exact h.2 j _ hij hget rfl

theorem mem_receives (h : (receives e tr)[n]? = some i) :
    ∃ ev, tr[i]? = some ev ∧ ev.receivesAt e = true :=
  mem_positions.mp (mem_of_getElem? h)

theorem mem_arrivals (h : (arrivals e tr)[n]? = some i) :
    ∃ ev, tr[i]? = some ev ∧ ev.arrivesAt e = true :=
  mem_positions.mp (mem_of_getElem? h)

theorem Held.receivesBy (h : Held tr u t r) : ∃ i, ReceivesBy tr u i ∧ Quiet tr u i := by
  obtain ⟨e, m, k, j, n, i, ev, -, -, -, hi, hget, hu, hquiet⟩ := h
  obtain ⟨ev', hget', hrec⟩ := mem_receives hi
  obtain rfl := Option.some.inj (hget.symm.trans hget')
  exact ⟨i, ⟨ev, e, hget, hu, hrec⟩, hquiet⟩

/-- The reply of a thread that holds a call answers that call. -/
theorem Held.correct (h : Held tr u t r) (m : M) :
    ∃ j, Open tr t j ∧
      Correct (tr ++ [.issue u (.reply m) (.returned .done)]) j (.replied m) := by
  obtain ⟨e, m', k, j, n, i, ev, hopen, hcall, hj, hi, hget, hu, hquiet⟩ := h
  have hlt := lt_length_of_getElem? hget
  refine ⟨j, hopen, .call (getElem?_snoc_of_some hcall _) (arrivals_getElem?_snoc hj _)
    (receives_getElem?_snoc hi _) (getElem?_snoc_of_some hget _) hu
    ⟨getElem?_snoc_length tr _, hlt, fun j hij hjl hrecv => ?_⟩⟩
  exact (hquiet j hij).1 (hrecv.of_snoc hjl)

end Threads

/-! ## One step -/

namespace Rendezvous

variable [DecidableEq T] [DecidableEq E] [DecidableEq R]
variable {a a' : Rendezvous T E R M K} {tr : List (Event T E R M K)} {ev : Event T E R M K}

section

variable (h : Move a ev a')
include h

/-- Only threads that are not blocked act. -/
theorem Move.not_blocked : (a.phase ev.thread).isBlocked = false := by
  cases h with
  | resume hwoken => simp [thread, hwoken, Phase.isBlocked]
  | failed hrun | sendDeliver hrun | sendQueue hrun | park hrun | takeSend _ hrun
  | takeCall _ hrun | callDeliver hrun | callQueue hrun | replyDeliver hrun =>
    simp [thread, hrun, Phase.isBlocked]

variable {u v : T} {res : Res M K} {i : Nat}

theorem Move.ne_of_blocked (hu : (a.phase u).isBlocked = true) : u ≠ ev.thread := by
  rintro rfl
  rw [h.not_blocked] at hu
  cases hu

section

variable (hist : Hist tr a)
include hist

/-- The queues keep up with the history. -/
theorem Move.queue (hinv : a.Inv) (e' : E) : QueueHist (tr ++ [ev]) e' (a'.ep e') := by
  have hne : ∀ u ∈ (a.ep e').threads, u ≠ ev.thread := fun u hu =>
    h.ne_of_blocked (hinv.isBlocked_of_mem_threads hu)
  have hold := hist.queue e'
  -- at any other endpoint than its own a move is only one more event
  cases h with
  | failed => exact hold.frame arrivesAt_failed receivesAt_failed hne
  | resume | replyDeliver => exact hold.frame rfl rfl hne
  | @sendDeliver t u e m k hrun hep =>
    rw [setPhase_ep, setEp_ep]
    by_cases he : e' = e
    · subst he
      rw [hep] at hold
      rw [if_pos rfl]
      exact hold.deliver (by simp [arrivesAt, Out.isFailed]) rfl
    · rw [if_neg he]
      exact hold.frame (by simp [arrivesAt, Ne.symm he]) rfl hne
  | @callDeliver t u e r m k hrun hbound hep =>
    rw [setPhase_ep, setHolds_ep, setPhase_ep, setEp_ep]
    by_cases he : e' = e
    · subst he
      rw [hep] at hold
      rw [if_pos rfl]
      exact hold.deliver (by simp [arrivesAt, Out.isFailed]) rfl
    · rw [if_neg he]
      exact hold.frame (by simp [arrivesAt, Ne.symm he]) rfl hne
  | @sendQueue t e m k l hrun hep | @callQueue t e r m k l hrun hbound hep =>
    rw [setPhase_ep, setEp_ep]
    by_cases he : e' = e
    · subst he
      rw [hep] at hold hne
      rw [if_pos rfl]
      exact hold.enqueue (by simp [arrivesAt, Out.isFailed]) rfl
        (fun y hy => hne _ (mem_map_of_mem hy))
        ⟨open_snoc tr t _, getElem?_snoc_length tr _⟩
    · rw [if_neg he]
      exact hold.frame (by simp [arrivesAt, Ne.symm he]) rfl hne
  | @park t e hrun hholds hep =>
    rw [setPhase_ep, setEp_ep]
    by_cases he : e' = e
    · subst he
      rw [hep] at hold
      rw [if_pos rfl]
      exact hold.park rfl (by simp [receivesAt, Out.isFailed]) (open_snoc tr t _)
    · rw [if_neg he]
      exact hold.frame rfl (by simp [receivesAt, Ne.symm he]) hne
  | @takeSend t e op x l hop hrun hholds hep hr =>
    rw [setPhase_ep, setEp_ep]
    exact hold.takeOr hep hop hne
  | @takeCall t e op x l r hop hrun hholds hep hr =>
    rw [setHolds_ep, setPhase_ep, setEp_ep]
    exact hold.takeOr hep hop hne

/-- A woken thread holds the right result. -/
theorem Move.woken (hinv : a.Inv)
    (hv : a'.phase v = .woken res) : ∃ i, Open (tr ++ [ev]) v i ∧ Correct (tr ++ [ev]) i res := by
  -- threads woken before this step
  have hold : a.phase v = .woken res → ev.thread ≠ v →
      ∃ i, Open (tr ++ [ev]) v i ∧ Correct (tr ++ [ev]) i res := by
    intro hw hne
    obtain ⟨i, hopen, hcorrect⟩ := hist.woken v res hw
    exact ⟨i, hopen.snoc_of_ne hne, hcorrect.snoc ev⟩
  have hne : ∀ {t}, a.phase t = .running → a.phase v = .woken res → t ≠ v := by
    rintro t hrun hw rfl
    rw [hrun] at hw
    cases hw
  have hblocked : ∀ {u}, (a.phase u).isBlocked = true → ev.thread ≠ u :=
    fun hu => (h.ne_of_blocked hu).symm
  cases h with
  | failed hrun => exact hold hv (hne hrun hv)
  | @resume t res' hwoken =>
    by_cases hvt : v = t
    · simp [hvt] at hv
    · exact hold (by simpa [hvt] using hv) (Ne.symm hvt)
  | @sendDeliver t u e m k hrun hep =>
    by_cases hvu : v = u
    · subst hvu
      simp only [setPhase_phase, if_true, Phase.woken.injEq] at hv
      subst hv
      have hq := hist.queue e
      rw [hep] at hq
      refine hq.delivered (by simp [arrivesAt, Out.isFailed]) rfl (hblocked ?_)
      rw [(hinv.receiver_iff e v).mp hep]
      rfl
    · have hw : a.phase v = .woken res := by simpa [hvu] using hv
      exact hold hw (hne hrun hw)
  | @sendQueue t e m k l hrun hep | @park t e hrun hholds hep
  | @callQueue t e r m k l hrun hbound hep =>
    have hvt : v ≠ t := by
      rintro rfl
      simp at hv
    exact hold (by simpa [hvt] using hv) (Ne.symm hvt)
  | @takeSend t e op x l hop hrun hholds hep hr =>
    by_cases hvx : v = x.thread
    · subst hvx
      simp only [setPhase_phase, if_true, Phase.woken.injEq] at hv
      subst hv
      obtain ⟨j, n, hx, hj, hi⟩ := hist.taken hep hop rfl
      have hev := hx.event
      simp only [Entry.op, hr] at hev
      refine ⟨j, hx.isOpen.snoc_of_ne (hblocked ?_),
        .send (getElem?_snoc_of_some hev _) hj (lt_length_of_getElem? hi)⟩
      rw [hinv.entry_phase e x (by rw [hep]; exact mem_cons_self)]
      simp [Entry.phaseAt, hr, Phase.isBlocked]
    · have hw : a.phase v = .woken res := by simpa [hvx] using hv
      exact hold hw (hne hrun hw)
  | @takeCall t e op x l r hop hrun hholds hep hr =>
    have hvx : v ≠ x.thread := by
      rintro rfl
      simp at hv
    have hw : a.phase v = .woken res := by simpa [hvx] using hv
    exact hold hw (hne hrun hw)
  | @callDeliver t u e r m k hrun hbound hep =>
    have hvt : v ≠ t := by
      rintro rfl
      simp at hv
    by_cases hvu : v = u
    · subst hvu
      simp only [setPhase_phase, if_neg hvt, setHolds_phase, if_true, Phase.woken.injEq] at hv
      subst hv
      have hq := hist.queue e
      rw [hep] at hq
      exact hq.delivered (by simp [arrivesAt, Out.isFailed]) rfl (Ne.symm hvt)
    · exact hold (by simpa [hvu, hvt] using hv) (Ne.symm hvt)
  | @replyDeliver t c r m hrun hholds hbound =>
    have hc := hinv.awaiting_of_holds hholds hbound
    by_cases hvc : v = c
    · subst hvc
      simp only [setHolds_phase, setBound_phase, setPhase_phase, if_true,
        Phase.woken.injEq] at hv
      subst hv
      obtain ⟨j, hopen, hcorrect⟩ := (hist.held t v r hholds hc).correct m
      exact ⟨j, hopen.snoc_of_ne (hblocked (by rw [hc]; rfl)), hcorrect⟩
    · have hw : a.phase v = .woken res := by simpa [hvc] using hv
      exact hold hw (hne hrun hw)

/-- Whatever an operation returns is right. -/
theorem Move.completed
    (hcompletes : Completes (tr ++ [ev]) i res) : Correct (tr ++ [ev]) i res := by
  rcases hcompletes.snoc_cases with hold | ⟨rfl, t, op, rfl⟩ | ⟨t, rfl, hopen⟩
  · exact (hist.completed i res hold).snoc ev
  · -- the operation returned at once
    cases h with
    | failed => exact .failed (getElem?_snoc_length tr _)
    | @sendDeliver t u e m k hrun hep =>
      have hq := hist.queue e
      rw [hep] at hq
      refine .send (getElem?_snoc_length tr _) (positions_getElem?_length
        (by simp [arrivesAt, Out.isFailed])) (Nat.lt_of_lt_of_le ?_
        (positions_length_le_snoc _ tr _))
      have hlen : (receives e tr).length = (arrivals e tr).length + 1 := hq.1
      simp only [receives, arrivals] at hlen
      omega
    | @takeSend t e op x l hop hrun hholds hep hr | @takeCall t e op x l r hop hrun hholds hep hr =>
      obtain ⟨j, n, hx, hj, hi⟩ := hist.taken hep hop rfl
      refine .receive hi hj (getElem?_snoc_of_some hx.event _) ?_
      cases hr : x.reply <;> simp [Entry.op, hr, payload]
    | replyDeliver => exact .reply (getElem?_snoc_length tr _)
  · -- the thread came back from its open operation
    cases h with
    | resume hwoken =>
      obtain ⟨j, hopen', hcorrect⟩ := hist.woken t res hwoken
      rw [hopen.unique hopen']
      exact hcorrect.snoc _

/-- A successful reply follows a receive of the same thread. -/
theorem Move.replies (hinv : a.Inv) {l : Nat} (hreply : RepliesBy (tr ++ [ev]) u l) :
    ∃ i, i < l ∧ ReceivesBy (tr ++ [ev]) u i ∧
      ∀ l', i < l' → l' < l → ¬ RepliesBy (tr ++ [ev]) u l' := by
  have hback : ∀ {l'}, l' < tr.length → RepliesBy (tr ++ [ev]) u l' → RepliesBy tr u l' := by
    rintro l' hl' ⟨m, hm⟩
    rcases getElem?_snoc_cases hm with ⟨-, hm⟩ | ⟨heq, -⟩
    · exact ⟨m, hm⟩
    · omega
  have hfwd : ∀ {i}, ReceivesBy tr u i → ReceivesBy (tr ++ [ev]) u i := by
    rintro i ⟨ev', e, hget, hrest⟩
    exact ⟨ev', e, getElem?_snoc_of_some hget ev, hrest⟩
  obtain ⟨m, hm⟩ := hreply
  rcases getElem?_snoc_cases hm with ⟨hl, hm⟩ | ⟨rfl, rfl⟩
  · obtain ⟨i, hi, hrecv, hfirst⟩ := hist.replies u l ⟨m, hm⟩
    exact ⟨i, hi, hfwd hrecv, fun l' h1 h2 hr => hfirst l' h1 h2 (hback (Nat.lt_trans h2 hl) hr)⟩
  · cases h with
    | @replyDeliver t c r m hrun hholds hbound =>
      obtain ⟨i, hrecv, hquiet⟩ :=
        (hist.held u c r hholds (hinv.awaiting_of_holds hholds hbound)).receivesBy
      obtain ⟨ev', e, hget, -⟩ := id hrecv
      exact ⟨i, lt_length_of_getElem? hget, hfwd hrecv, fun l' h1 h2 hr =>
        (hquiet l' h1).2 (hback h2 hr)⟩

/-- A held Reply remembers its receive. -/
theorem Move.held (hinv : a.Inv) (hinv' : a'.Inv)
    {r : R} (hu : a'.holds u = some r) (hv : a'.phase v = .awaiting r) :
    Held (tr ++ [ev]) u v r := by
  -- debts from before this step, unless the event is the holder's
  have hold : a.holds u = some r → a.phase v = .awaiting r → ev.quietFor u →
      Held (tr ++ [ev]) u v r := by
    intro hu hv hquiet
    refine (hist.held u v r hu hv).snoc (h.ne_of_blocked ?_).symm hquiet
    rw [hv]
    rfl
  have hother : ∀ {t op out}, ev = .issue t op out → a.holds t = none → a.holds u = some r →
      ev.quietFor u := by
    rintro t op out rfl hnone hu rfl
    simp [thread, hnone] at hu
  cases h with
  | failed => exact hold hu hv fun _ => ⟨fun _ => receivesAt_failed, by simp⟩
  | @resume t res hwoken | @sendQueue t e m k l hrun hep
  | @callQueue t e r' m k l hrun hbound hep =>
    have hvt : v ≠ t := by
      rintro rfl
      simp at hv
    exact hold hu (by simpa [hvt] using hv) fun _ => ⟨fun _ => rfl, by simp⟩
  | @sendDeliver t w e m k hrun hep =>
    have hvw : v ≠ w := by
      rintro rfl
      simp at hv
    exact hold hu (by simpa [hvw] using hv) fun _ => ⟨fun _ => rfl, by simp⟩
  | @park t e hrun hholds hep => grind
  | @takeSend t e op x l hop hrun hholds hep hr => grind
  | @takeCall t e op x l r' hop hrun hholds hep hr =>
    by_cases hut : u = t
    · subst hut
      obtain rfl : r' = r := by simpa using hu
      -- the caller is the one whose message was just taken
      have hvx : v = x.thread := by
        have hbv := (hinv'.bound_iff r' v).mpr (Or.inr hv)
        have hbx := (hinv'.bound_iff r' x.thread).mpr (Or.inr (by simp))
        exact Option.some.inj (hbv.symm.trans hbx)
      subst hvx
      obtain ⟨j, n, hx, hj, hi⟩ := hist.taken hep hop rfl
      have hev := hx.event
      simp only [Entry.op, hr] at hev
      have hne : u ≠ x.thread := (hinv.thread_ne_of_running hrun
        (by rw [hep]; exact mem_cons_self)).symm
      exact ⟨e, x.msg, x.token, j, n, tr.length, _, hx.isOpen.snoc_of_ne hne,
        getElem?_snoc_of_some hev _, hj, hi, getElem?_snoc_length tr _, rfl,
        quiet_of_lastBy (lastBy_snoc thread tr _)⟩
    · have hu' : a.holds u = some r := by simpa [hut] using hu
      have hvx : v ≠ x.thread := by
        rintro rfl
        obtain rfl : r' = r := by simpa using hv
        exact hut (hinv'.holds_injective u t r' hu (by simp))
      exact hold hu' (by simpa [hvx] using hv) (hother rfl hholds hu')
  | @callDeliver t w e r' m k hrun hbound hep =>
    have hwt : w ≠ t := by grind [hinv.receiver_iff]
    by_cases huw : u = w
    · subst huw
      obtain rfl : r' = r := by simpa using hu
      have hvt : v = t := by
        have hbv := (hinv'.bound_iff r' v).mpr (Or.inr hv)
        have hbt := (hinv'.bound_iff r' t).mpr (Or.inr (by simp))
        exact Option.some.inj (hbv.symm.trans hbt)
      subst hvt
      have hq := hist.queue e
      rw [hep] at hq
      obtain ⟨-, i, hi, hopen⟩ := hq
      have hopen' : Open (tr ++ [.issue v (.call e r' m k) .blocked]) u i :=
        hopen.snoc_of_ne (Ne.symm hwt)
      obtain ⟨hlast, op, hev⟩ := hopen'
      exact ⟨e, m, k, tr.length, _, i, _, open_snoc tr v _, getElem?_snoc_length tr _,
        positions_getElem?_length (by simp [arrivesAt, Out.isFailed]),
        receives_getElem?_snoc hi _, hev, rfl, quiet_of_lastBy hlast⟩
    · have hu' : a.holds u = some r := by simpa [huw] using hu
      have hvt : v ≠ t := by
        rintro rfl
        obtain rfl : r' = r := by simpa using hv
        exact huw (hinv'.holds_injective u w r' hu (by simp))
      have hvw : v ≠ w := by
        rintro rfl
        simp [hvt] at hv
      exact hold hu' (by simpa [hvt, hvw] using hv) fun _ => ⟨fun _ => rfl, by simp⟩
  | @replyDeliver t c r' m hrun hholds hbound =>
    have hut : u ≠ t := by
      rintro rfl
      simp at hu
    have hvc : v ≠ c := by
      rintro rfl
      simp at hv
    exact hold (by simpa [hut] using hu) (by simpa [hvc] using hv) fun heq =>
      absurd heq (Ne.symm hut)

end

/-- A thread that acts and blocks is inside its operation afterwards. -/
theorem Move.returned_of_running (hv : a'.phase ev.thread = .running)
    (op : Op E R M K) : ev ≠ .issue ev.thread op .blocked := by
  cases h with
  | failed | takeSend | takeCall | replyDeliver | resume | sendDeliver => simp
  | sendQueue | park | callQueue | callDeliver => simp [thread] at hv

/-- A thread that is not itself acting is outside any operation only if it was before. -/
theorem Move.running_of_ne (hv : a'.phase v = .running)
    (hne : ev.thread ≠ v) : a.phase v = .running := by
  cases h with
  | failed => exact hv
  | @resume t => simpa [Ne.symm (show t ≠ v from hne)] using hv
  | @sendQueue t | @park t | @callQueue t =>
    simpa [Ne.symm (show t ≠ v from hne)] using hv
  | @sendDeliver t u =>
    have hvu : v ≠ u := by
      rintro rfl
      simp at hv
    simpa [hvu] using hv
  | @takeSend t e op x | @takeCall t e op x =>
    have hvx : v ≠ x.thread := by
      rintro rfl
      simp at hv
    simpa [hvx] using hv
  | @callDeliver t u => grind
  | @replyDeliver t c =>
    have hvc : v ≠ c := by
      rintro rfl
      simp at hv
    simpa [hvc] using hv

theorem Move.busy (hist : Hist tr a) (hopen : Open (tr ++ [ev]) v i) : a'.phase v ≠ .running := by
  intro hv
  by_cases hne : ev.thread = v
  · subst hne
    obtain ⟨hlast, op, hget⟩ := hopen
    rw [hlast.unique (lastBy_snoc thread tr ev), getElem?_snoc_length] at hget
    exact h.returned_of_running hv op (Option.some.inj hget)
  · exact hist.busy v i (hopen.of_snoc_of_ne hne) (h.running_of_ne hv hne)

theorem Move.blocked (hist : Hist tr a) {t : T} {op : Op E R M K}
    (hget : (tr ++ [ev])[i]? = some (.issue t op .blocked)) :
    Open (tr ++ [ev]) t i ∨ ∃ res, Completes (tr ++ [ev]) i res := by
  rcases getElem?_snoc_cases hget with ⟨-, hget⟩ | ⟨rfl, rfl⟩
  · rcases hist.blocked i t op hget with hopen | ⟨res, hres⟩
    · by_cases hne : ev.thread = t
      · -- the next event of a busy thread takes it out of its operation
        have hbusy := hist.busy t i hopen
        cases h with
        | @resume t' res hwoken =>
          obtain rfl : t' = t := hne
          exact Or.inr ⟨res, hopen.completes⟩
        | failed hrun | sendDeliver hrun | sendQueue hrun | park hrun | takeSend _ hrun
        | takeCall _ hrun | callDeliver hrun | callQueue hrun | replyDeliver hrun =>
          exact absurd (hne ▸ hrun) hbusy
      · exact Or.inl (hopen.snoc_of_ne hne)
    · exact Or.inr ⟨res, hres.snoc ev⟩
  · exact Or.inl (open_snoc tr t op)

end

theorem Step.hist (hstep : Step a ev a') (hist : Hist tr a) (hinv : a.Inv) :
    Hist (tr ++ [ev]) a' where
  queue := hstep.move.queue hist hinv
  woken := fun _ _ => hstep.move.woken hist hinv
  held := fun _ _ _ => hstep.move.held hist hinv (hinv.step hstep)
  replies := fun _ _ => hstep.move.replies hist hinv
  completed := fun _ _ => hstep.move.completed hist
  busy := fun _ _ => hstep.move.busy hist
  blocked := fun _ _ _ => hstep.move.blocked hist

/-- Every run of the machine keeps the history straight. -/
theorem Run.hist (hrun : Run tr a) : Hist tr a := by
  induction hrun with
  | nil => exact hist_init
  | snoc hrun hstep ih => exact hstep.hist ih hrun.inv

end Rendezvous

end Lockjaw.Ipc
