/-
  Lockjaw.Ipc.Rendezvous

  What endpoints and Reply objects are for, without pointers: an endpoint is
  a FIFO of arrived messages or one parked receiver, a thread is in one phase
  of one operation, and a Reply links a caller to the thread that has to
  answer it.

  Threads, endpoints, Replies, messages and tokens are arbitrary types.  The
  kernel's endpoint code is shown to simulate this machine in
  `Lockjaw.Ipc.Refine`; the machine's own invariant is here.
-/

import Mathlib.Data.List.Nodup

set_option linter.unusedSectionVars false

namespace Lockjaw.Ipc

open Function

inductive IpcError where
  /-- Another receiver already queued, or reply slot occupied. -/
  | endpointBusy
  /-- No bound caller for reply. -/
  | noCaller
  /-- Non-blocking receive found no waiters. -/
  | wouldBlock
  /-- Call attempted with already-bound Reply. -/
  | replyBound
  deriving DecidableEq, Repr

section Machine

variable (T E R M K : Type)

/-- An IPC operation as a thread issues it. -/
inductive Op where
  | send (e : E) (m : M) (k : K)
  | recv (e : E)
  | recvNb (e : E)
  | call (e : E) (r : R) (m : M) (k : K)
  | reply (m : M)
  deriving DecidableEq, Repr

/-- What an operation returns. -/
inductive Res where
  /-- `Ok(())` of a send or a reply. -/
  | done
  /-- A received message, with the receiver's `last_caller_token`. -/
  | message (m : M) (token : K)
  /-- The answer to a call. -/
  | replied (m : M)
  | failed (e : IpcError)
  deriving DecidableEq, Repr

/-- How an operation ends its first atomic section. -/
inductive Out where
  | blocked
  | returned (res : Res M K)
  deriving DecidableEq, Repr

/-- One observable event: an operation runs up to its return or block point,
    or a blocked operation is resumed and returns. -/
inductive Event where
  | issue (t : T) (op : Op E R M K) (out : Out M K)
  | resume (t : T) (res : Res M K)
  deriving DecidableEq, Repr

/-- A queued message: a Send has no Reply, a Call carries one. -/
structure Entry where
  thread : T
  msg : M
  token : K
  reply : Option R
  deriving DecidableEq, Repr

/-- What an endpoint holds. -/
inductive EpQueue where
  | waiting (l : List (Entry T R M K))
  | receiver (t : T)
  deriving DecidableEq, Repr

/-- Where a thread stands. -/
inductive Phase where
  /-- Not inside an operation. -/
  | running
  | sending (e : E)
  | receiving (e : E)
  | calling (e : E) (r : R)
  /-- The call was taken; its answer is outstanding. -/
  | awaiting (r : R)
  /-- The blocked operation is over; its result has not been returned yet. -/
  | woken (res : Res M K)
  deriving DecidableEq, Repr

/-- The rendezvous machine. -/
structure Rendezvous where
  ep : E → EpQueue T R M K
  phase : T → Phase E R M K
  holds : T → Option R
  bound : R → Option T

end Machine

variable {T E R M K : Type}

/-- A thread in this phase is off the CPU until somebody else acts. -/
def Phase.isBlocked : Phase E R M K → Bool
  | .running | .woken _ => false
  | .sending _ | .receiving _ | .calling _ _ | .awaiting _ => true

namespace Rendezvous

/-- No operation in progress anywhere. -/
def init : Rendezvous T E R M K where
  ep := fun _ => .waiting []
  phase := fun _ => .running
  holds := fun _ => none
  bound := fun _ => none

variable [DecidableEq T] [DecidableEq E] [DecidableEq R]

@[simps phase holds bound]
def setEp (a : Rendezvous T E R M K) (e : E) (q : EpQueue T R M K) : Rendezvous T E R M K :=
  { a with ep := update a.ep e q }

@[simps ep holds bound]
def setPhase (a : Rendezvous T E R M K) (t : T) (p : Phase E R M K) : Rendezvous T E R M K :=
  { a with phase := update a.phase t p }

@[simps ep phase bound]
def setHolds (a : Rendezvous T E R M K) (t : T) (r : Option R) : Rendezvous T E R M K :=
  { a with holds := update a.holds t r }

@[simps ep phase holds]
def setBound (a : Rendezvous T E R M K) (r : R) (t : Option T) : Rendezvous T E R M K :=
  { a with bound := update a.bound r t }

/-! ### What each update reads back as -/

attribute [grind =] setEp_phase setEp_holds setEp_bound setPhase_ep setPhase_holds setPhase_bound
  setHolds_ep setHolds_phase setHolds_bound setBound_ep setBound_phase setBound_holds

section Updates

variable {a : Rendezvous T E R M K} {t u : T} {e e' : E} {r r' : R}

@[simp, grind =] theorem setEp_ep (q : EpQueue T R M K) :
    (a.setEp e q).ep e' = if e' = e then q else a.ep e' := by
  simp [setEp, update_apply]

@[simp, grind =] theorem setPhase_phase (p : Phase E R M K) :
    (a.setPhase t p).phase u = if u = t then p else a.phase u := by
  simp [setPhase, update_apply]

@[simp, grind =] theorem setHolds_holds (x : Option R) :
    (a.setHolds t x).holds u = if u = t then x else a.holds u := by
  simp [setHolds, update_apply]

theorem setHolds_self {x : Option R} (h : a.holds t = x) : a.setHolds t x = a := by
  rw [setHolds, ← h, update_eq_self]

@[simp, grind =] theorem setBound_bound (x : Option T) :
    (a.setBound r x).bound r' = if r' = r then x else a.bound r' := by
  simp [setBound, update_apply]

end Updates

/-- A message arrives from a Send: hand it to the parked receiver or queue it. -/
def send (a : Rendezvous T E R M K) (t : T) (e : E) (m : M) (k : K) :
    Rendezvous T E R M K × Out M K :=
  match a.ep e with
  | .receiver u => ((a.setEp e (.waiting [])).setPhase u (.woken (.message m k)), .returned .done)
  | .waiting l =>
    ((a.setEp e (.waiting (l ++ [⟨t, m, k, none⟩]))).setPhase t (.sending e), .blocked)

/-- Take the oldest message, or park. -/
def recv (a : Rendezvous T E R M K) (t : T) (e : E) : Rendezvous T E R M K × Out M K :=
  if (a.holds t).isSome then (a, .returned (.failed .endpointBusy))
  else
    match a.ep e with
    | .receiver _ => (a, .returned (.failed .endpointBusy))
    | .waiting [] => ((a.setEp e (.receiver t)).setPhase t (.receiving e), .blocked)
    | .waiting (x :: l) =>
      match x.reply with
      | none =>
        ((a.setEp e (.waiting l)).setPhase x.thread (.woken .done),
          .returned (.message x.msg x.token))
      | some r =>
        (((a.setEp e (.waiting l)).setPhase x.thread (.awaiting r)).setHolds t (some r),
          .returned (.message x.msg x.token))

/-- Receive only if something is queued. -/
def recvNb (a : Rendezvous T E R M K) (t : T) (e : E) : Rendezvous T E R M K × Out M K :=
  match a.ep e with
  | .receiver _ | .waiting [] => (a, .returned (.failed .wouldBlock))
  | .waiting (_ :: _) => a.recv t e

/-- A message arrives from a Call: bind the Reply, then as a Send does; the
    caller blocks either way. -/
def call (a : Rendezvous T E R M K) (t : T) (e : E) (r : R) (m : M) (k : K) :
    Rendezvous T E R M K × Out M K :=
  if (a.bound r).isSome then (a, .returned (.failed .replyBound))
  else
    match a.ep e with
    | .receiver u =>
      (((((a.setBound r (some t)).setEp e (.waiting [])).setPhase u
        (.woken (.message m k))).setHolds u (some r)).setPhase t (.awaiting r), .blocked)
    | .waiting l =>
      (((a.setBound r (some t)).setEp e (.waiting (l ++ [⟨t, m, k, some r⟩]))).setPhase t
        (.calling e r), .blocked)

/-- Answer the call this thread holds. -/
def reply (a : Rendezvous T E R M K) (t : T) (m : M) : Rendezvous T E R M K × Out M K :=
  match a.holds t with
  | none => (a, .returned (.failed .noCaller))
  | some r =>
    match a.bound r with
    | none => (a, .returned (.failed .noCaller))
    | some c =>
      (((a.setPhase c (.woken (.replied m))).setBound r none).setHolds t none, .returned .done)

/-- Issue an operation. -/
def issue (a : Rendezvous T E R M K) (t : T) : Op E R M K → Rendezvous T E R M K × Out M K
  | .send e m k => a.send t e m k
  | .recv e => a.recv t e
  | .recvNb e => a.recvNb t e
  | .call e r m k => a.call t e r m k
  | .reply m => a.reply t m

/-- One step of the machine: a thread outside any operation issues one, or a
    woken thread returns its result. -/
inductive Step : Rendezvous T E R M K → Event T E R M K → Rendezvous T E R M K → Prop
  | issue {a : Rendezvous T E R M K} {t : T} (op : Op E R M K) (hrun : a.phase t = .running) :
      Step a (.issue t op (a.issue t op).2) (a.issue t op).1
  | resume {a : Rendezvous T E R M K} {t : T} {res : Res M K} (hwoken : a.phase t = .woken res) :
      Step a (.resume t res) (a.setPhase t .running)

/-- Runs of the machine with their event traces, oldest event first. -/
inductive Run : List (Event T E R M K) → Rendezvous T E R M K → Prop
  | nil : Run [] init
  | snoc {tr : List (Event T E R M K)} {a a' : Rendezvous T E R M K} {ev : Event T E R M K}
      (hrun : Run tr a) (hstep : Step a ev a') : Run (tr ++ [ev]) a'

/-! ## The invariant -/

end Rendezvous

/-- The messages queued at an endpoint, oldest first. -/
@[simp, grind] def EpQueue.entries : EpQueue T R M K → List (Entry T R M K)
  | .waiting l => l
  | .receiver _ => []

/-- The threads queued at an endpoint, receivers included. -/
@[simp] def EpQueue.threads : EpQueue T R M K → List T
  | .waiting l => l.map Entry.thread
  | .receiver t => [t]

theorem EpQueue.mem_threads_of_mem_entries {q : EpQueue T R M K} {x : Entry T R M K}
    (hx : x ∈ q.entries) : x.thread ∈ q.threads := by
  cases q with
  | waiting l => exact List.mem_map_of_mem hx
  | receiver u => simp at hx

/-- The phase of the thread behind an entry of endpoint `e`. -/
@[grind] def Entry.phaseAt (e : E) (x : Entry T R M K) : Phase E R M K :=
  match x.reply with
  | none => .sending e
  | some r => .calling e r

/-- The endpoint whose message queue a thread in this phase sits in. -/
@[grind] def Phase.queuedOn : Phase E R M K → Option E
  | .sending e | .calling e _ => some e
  | _ => none

namespace Rendezvous

/-- The links between endpoints, phases and Replies. -/
structure Inv (a : Rendezvous T E R M K) : Prop where
  entry_phase : ∀ e x, x ∈ (a.ep e).entries → a.phase x.thread = x.phaseAt e
  queued_entry : ∀ t e, (a.phase t).queuedOn = some e → ∃ x ∈ (a.ep e).entries, x.thread = t
  entries_nodup : ∀ e, ((a.ep e).entries.map Entry.thread).Nodup
  receiver_iff : ∀ e t, a.ep e = .receiver t ↔ a.phase t = .receiving e
  receiver_holds : ∀ e t, a.ep e = .receiver t → a.holds t = none
  bound_iff : ∀ r t, a.bound r = some t ↔
    (∃ e, a.phase t = .calling e r) ∨ a.phase t = .awaiting r
  awaiting_held : ∀ t r, a.phase t = .awaiting r → ∃ u, a.holds u = some r
  holds_awaiting : ∀ u r, a.holds u = some r → ∃ t, a.phase t = .awaiting r
  holds_injective : ∀ u u' r, a.holds u = some r → a.holds u' = some r → u = u'

theorem inv_init : (init : Rendezvous T E R M K).Inv := by
  constructor <;> simp [init, Phase.queuedOn]

/-! ## Preservation

In each case the fields that must exhibit a queue entry, a holder or an awaiting
caller name it; the others only look at untouched threads and are closed by `grind`. -/

variable [DecidableEq T] [DecidableEq E] [DecidableEq R]
variable {a : Rendezvous T E R M K} {t : T}

variable {e : E} {u : T} {x : Entry T R M K} {l : List (Entry T R M K)} {r : R}

section

variable (h : a.Inv)
include h

/-- The threads of a queue are inside a blocking operation. -/
theorem Inv.isBlocked_of_mem_threads (hu : u ∈ (a.ep e).threads) :
    (a.phase u).isBlocked = true := by
  cases hep : a.ep e with
  | waiting l =>
    rw [hep] at hu
    obtain ⟨x, hx, rfl⟩ := List.mem_map.mp hu
    rw [h.entry_phase e x (by rw [hep]; exact hx)]
    cases hr : x.reply <;> simp [Entry.phaseAt, hr, Phase.isBlocked]
  | receiver v =>
    rw [hep] at hu
    obtain rfl := List.mem_singleton.mp hu
    rw [(h.receiver_iff e u).mp hep]
    rfl

/-- A thread outside the phases of a blocked operation is in no queue. -/
theorem Inv.thread_ne_of_running (hrun : a.phase t = .running)
    (hx : x ∈ (a.ep e).entries) : x.thread ≠ t := by
  have hphase := h.entry_phase e x hx
  rintro rfl
  cases hr : x.reply <;> simp [hrun, Entry.phaseAt, hr] at hphase

/-- Handing a message to the parked receiver. -/
theorem Inv.send_receiver (hep : a.ep e = .receiver u) (m : M)
    (k : K) : ((a.setEp e (.waiting [])).setPhase u (.woken (.message m k))).Inv := by
  have hu := (h.receiver_iff e u).mp hep
  obtain ⟨hentry, hqueued, hdistinct, hreceiver, hidle, hlinked, hheld, hawaited, hone⟩ := h
  constructor
  case awaiting_held =>
    intro t' r hw
    exact hheld t' r (by grind)
  case holds_awaiting =>
    intro v r hv
    obtain ⟨t', ht'⟩ := hawaited v r hv
    exact ⟨t', by grind⟩
  all_goals grind

/-- Queueing a message behind the others. -/
theorem Inv.send_waiting (hrun : a.phase t = .running) (hep : a.ep e = .waiting l) (m : M) (k : K) :
    ((a.setEp e (.waiting (l ++ [⟨t, m, k, none⟩]))).setPhase t (.sending e)).Inv := by
  have hne : ∀ x ∈ l, x.thread ≠ t := fun x hx =>
    h.thread_ne_of_running (e := e) hrun (by rw [hep]; exact hx)
  obtain ⟨hentry, hqueued, hdistinct, hreceiver, hidle, hlinked, hheld, hawaited, hone⟩ := h
  constructor
  case queued_entry =>
    intro t' e' hq
    by_cases ht : t' = t
    · obtain rfl : e = e' := by grind
      exact ⟨⟨t, m, k, none⟩, by grind, ht.symm⟩
    · obtain ⟨x, hx, hxt⟩ := hqueued t' e' (by grind)
      exact ⟨x, by grind, hxt⟩
  case awaiting_held =>
    intro t' r hw
    exact hheld t' r (by grind)
  case holds_awaiting =>
    intro v r hv
    obtain ⟨t', ht'⟩ := hawaited v r hv
    exact ⟨t', by grind⟩
  all_goals grind

theorem Inv.send (hrun : a.phase t = .running) (e : E) (m : M) (k : K) :
    (a.send t e m k).1.Inv := by grind [h.send_receiver, h.send_waiting, Rendezvous.send]

/-- Parking on an empty endpoint. -/
theorem Inv.recv_park (hrun : a.phase t = .running) (hholds : a.holds t = none)
    (hep : a.ep e = .waiting []) : ((a.setEp e (.receiver t)).setPhase t (.receiving e)).Inv := by
  obtain ⟨hentry, hqueued, hdistinct, hreceiver, hidle, hlinked, hheld, hawaited, hone⟩ := h
  constructor
  case awaiting_held =>
    intro t' r hw
    exact hheld t' r (by grind)
  case holds_awaiting =>
    intro v r hv
    obtain ⟨t', ht'⟩ := hawaited v r hv
    exact ⟨t', by grind⟩
  all_goals grind

/-- Taking a Send off the queue. -/
theorem Inv.recv_send (hep : a.ep e = .waiting (x :: l)) (hr : x.reply = none) :
    ((a.setEp e (.waiting l)).setPhase x.thread (.woken .done)).Inv := by
  have hxe : x ∈ (a.ep e).entries := by rw [hep]; exact List.mem_cons_self
  have hphase : a.phase x.thread = .sending e := by
    simpa [Entry.phaseAt, hr] using h.entry_phase e x hxe
  have hnodup : (x.thread :: l.map Entry.thread).Nodup := by
    simpa [hep] using h.entries_nodup e
  obtain ⟨hentry, hqueued, hdistinct, hreceiver, hidle, hlinked, hheld, hawaited, hone⟩ := h
  constructor
  case awaiting_held =>
    intro t' r hw
    exact hheld t' r (by grind)
  case holds_awaiting =>
    intro v r hv
    obtain ⟨t', ht'⟩ := hawaited v r hv
    exact ⟨t', by grind⟩
  all_goals grind

section

variable (hrun : a.phase t = .running)
include hrun

/-- Taking a Call off the queue: its Reply goes to the receiver. -/
theorem Inv.recv_call (hholds : a.holds t = none)
    (hep : a.ep e = .waiting (x :: l)) (hr : x.reply = some r) :
    (((a.setEp e (.waiting l)).setPhase x.thread (.awaiting r)).setHolds t (some r)).Inv := by
  have hxe : x ∈ (a.ep e).entries := by rw [hep]; exact List.mem_cons_self
  have hphase : a.phase x.thread = .calling e r := by
    simpa [Entry.phaseAt, hr] using h.entry_phase e x hxe
  have hbound : a.bound r = some x.thread := (h.bound_iff r _).mpr (Or.inl ⟨e, hphase⟩)
  -- the Reply's only caller is still queued, so nobody holds it yet
  have hfree : ∀ v, a.holds v ≠ some r := by
    intro v hv
    obtain ⟨c, hc⟩ := h.holds_awaiting v r hv
    have hcb := (h.bound_iff r c).mpr (Or.inr hc)
    obtain rfl : c = x.thread := Option.some.inj (hcb.symm.trans hbound)
    simp [hphase] at hc
  have hnodup : (x.thread :: l.map Entry.thread).Nodup := by
    simpa [hep] using h.entries_nodup e
  obtain ⟨hentry, hqueued, hdistinct, hreceiver, hidle, hlinked, hheld, hawaited, hone⟩ := h
  constructor
  case awaiting_held =>
    intro t' r' hw
    by_cases hx : r' = r
    · exact ⟨t, by grind⟩
    · obtain ⟨v, hv⟩ := hheld t' r' (by grind)
      exact ⟨v, by grind⟩
  case holds_awaiting =>
    intro v r' hv
    by_cases hx : r' = r
    · exact ⟨x.thread, by grind⟩
    · obtain ⟨t', ht'⟩ := hawaited v r' (by grind)
      exact ⟨t', by grind⟩
  all_goals grind

theorem Inv.recv (e : E) : (a.recv t e).1.Inv := by
  unfold Rendezvous.recv
  by_cases hholds : (a.holds t).isSome
  · rw [if_pos hholds]
    exact h
  · rw [if_neg hholds]
    have hnone : a.holds t = none := by simpa using hholds
    grind [h.recv_call, h.recv_park, h.recv_send]

theorem Inv.recvNb (e : E) : (a.recvNb t e).1.Inv := by grind [h.recv, Rendezvous.recvNb]

/-- A call meets the parked receiver. -/
theorem Inv.call_receiver (hbound : a.bound r = none) (hep : a.ep e = .receiver u) (m : M) (k : K) :
    (((((a.setBound r (some t)).setEp e (.waiting [])).setPhase u
      (.woken (.message m k))).setHolds u (some r)).setPhase t (.awaiting r)).Inv := by
  have hu := (h.receiver_iff e u).mp hep
  have hut : u ≠ t := by
    rintro rfl
    simp [hrun] at hu
  have hnobody : ∀ c, a.phase c ≠ .awaiting r := by
    intro c hc
    simp [(h.bound_iff r c).mpr (Or.inr hc)] at hbound
  have hnotcalling : ∀ c e', a.phase c ≠ .calling e' r := by
    intro c e' hc
    simp [(h.bound_iff r c).mpr (Or.inl ⟨e', hc⟩)] at hbound
  have hfree : ∀ v, a.holds v ≠ some r := by
    intro v hv
    obtain ⟨c, hc⟩ := h.holds_awaiting v r hv
    exact hnobody c hc
  have huholds := h.receiver_holds e u hep
  obtain ⟨hentry, hqueued, hdistinct, hreceiver, hidle, hlinked, hheld, hawaited, hone⟩ := h
  constructor
  case awaiting_held =>
    intro t' r' hw
    by_cases hx : r' = r
    · exact ⟨u, by grind⟩
    · obtain ⟨v, hv⟩ := hheld t' r' (by grind)
      exact ⟨v, by grind⟩
  case holds_awaiting =>
    intro v r' hv
    by_cases hx : r' = r
    · exact ⟨t, by grind⟩
    · obtain ⟨t', ht'⟩ := hawaited v r' (by grind)
      exact ⟨t', by grind⟩
  all_goals grind

/-- A call queues behind the others. -/
theorem Inv.call_waiting (hbound : a.bound r = none) (hep : a.ep e = .waiting l) (m : M) (k : K) :
    (((a.setBound r (some t)).setEp e (.waiting (l ++ [⟨t, m, k, some r⟩]))).setPhase t
      (.calling e r)).Inv := by
  have hne : ∀ x ∈ l, x.thread ≠ t := fun x hx =>
    h.thread_ne_of_running (e := e) hrun (by rw [hep]; exact hx)
  have hnobody : ∀ c, a.phase c ≠ .awaiting r := by
    intro c hc
    simp [(h.bound_iff r c).mpr (Or.inr hc)] at hbound
  have hnotcalling : ∀ c e', a.phase c ≠ .calling e' r := by
    intro c e' hc
    simp [(h.bound_iff r c).mpr (Or.inl ⟨e', hc⟩)] at hbound
  obtain ⟨hentry, hqueued, hdistinct, hreceiver, hidle, hlinked, hheld, hawaited, hone⟩ := h
  constructor
  case queued_entry =>
    intro t' e' hq
    by_cases ht : t' = t
    · obtain rfl : e = e' := by grind
      exact ⟨⟨t, m, k, some r⟩, by grind, ht.symm⟩
    · obtain ⟨x, hx, hxt⟩ := hqueued t' e' (by grind)
      exact ⟨x, by grind, hxt⟩
  case awaiting_held =>
    intro t' r' hw
    exact hheld t' r' (by grind)
  case holds_awaiting =>
    intro v r' hv
    obtain ⟨t', ht'⟩ := hawaited v r' hv
    exact ⟨t', by grind⟩
  all_goals grind

theorem Inv.call (e : E) (r : R) (m : M) (k : K) : (a.call t e r m k).1.Inv := by
  unfold Rendezvous.call
  by_cases hb : (a.bound r).isSome
  · rw [if_pos hb]
    exact h
  · rw [if_neg hb]
    have hnone : a.bound r = none := by simpa using hb
    grind [h.call_receiver, h.call_waiting]

end

/-- The thread a held Reply is bound to is awaiting it. -/
theorem Inv.awaiting_of_holds {c : T} (hholds : a.holds u = some r)
    (hbound : a.bound r = some c) : a.phase c = .awaiting r := by
  obtain ⟨c', hc'⟩ := h.holds_awaiting u r hholds
  have hb' := (h.bound_iff r c').mpr (Or.inr hc')
  obtain rfl : c' = c := Option.some.inj (hb'.symm.trans hbound)
  exact hc'

/-- Answering a held call. -/
theorem Inv.reply_deliver {c : T} (hholds : a.holds t = some r)
    (hbound : a.bound r = some c) (m : M) :
    (((a.setPhase c (.woken (.replied m))).setBound r none).setHolds t none).Inv := by
  have hc := h.awaiting_of_holds hholds hbound
  have honly : ∀ v, a.holds v = some r → v = t := fun v hv => h.holds_injective v t r hv hholds
  obtain ⟨hentry, hqueued, hdistinct, hreceiver, hidle, hlinked, hheld, hawaited, hone⟩ := h
  constructor
  case awaiting_held =>
    intro t' r' hw
    have ht' : t' ≠ c ∧ a.phase t' = .awaiting r' := by grind
    have hr' : r' ≠ r := by
      rintro rfl
      have hb' := (hlinked r' t').mpr (Or.inr ht'.2)
      exact ht'.1 (Option.some.inj (hb'.symm.trans hbound))
    obtain ⟨v, hv⟩ := hheld t' r' ht'.2
    exact ⟨v, by grind⟩
  case holds_awaiting =>
    intro v r' hv
    obtain ⟨t', ht'⟩ := hawaited v r' (by grind)
    exact ⟨t', by grind⟩
  all_goals grind

theorem Inv.reply (m : M) : (a.reply t m).1.Inv := by
  grind [h.reply_deliver, Rendezvous.reply]

/-- Returning from a woken operation. -/
theorem Inv.resume {res : Res M K} (hwoken : a.phase t = .woken res) :
    (a.setPhase t .running).Inv := by
  obtain ⟨hentry, hqueued, hdistinct, hreceiver, hidle, hlinked, hheld, hawaited, hone⟩ := h
  constructor
  case awaiting_held =>
    intro t' r' hw
    exact hheld t' r' (by grind)
  case holds_awaiting =>
    intro v r' hv
    obtain ⟨t', ht'⟩ := hawaited v r' hv
    exact ⟨t', by grind⟩
  all_goals grind

theorem Inv.step {a' : Rendezvous T E R M K} {ev : Event T E R M K}
    (hstep : Step a ev a') : a'.Inv := by
  cases hstep with
  | resume hwoken => exact h.resume hwoken
  | issue op hrun =>
    cases op with
    | send e m k => exact h.send hrun e m k
    | recv e => exact h.recv hrun e
    | recvNb e => exact h.recvNb hrun e
    | call e r m k => exact h.call hrun e r m k
    | reply m => exact h.reply m

end

/-- The invariant holds along every run. -/
theorem Run.inv {tr : List (Event T E R M K)} (hrun : Run tr a) : a.Inv := by
  induction hrun with
  | nil => exact inv_init
  | snoc _ hstep ih => exact ih.step hstep

end Rendezvous

end Lockjaw.Ipc
