/-
  Lockjaw.Ipc.History

  What a run of the rendezvous machine did, read off its event trace.  The
  `n`-th receive on an endpoint (in the order the receives were issued) takes
  the message of the `n`-th arrival (in the order the sends and calls were
  issued).  `Correct tr i res` says that `res` is the right result for the
  operation issued at position `i`, in terms of that matching; `Hist` carries
  it through a run, from the queues and the parked receiver to the results
  that woken threads still have to return.
-/

import Lockjaw.Lib.Trace
import Lockjaw.Ipc.Rendezvous

namespace Lockjaw.Ipc

open Lib

variable {T E R M K : Type}

/-! ## Reading a trace -/

def Event.thread : Event T E R M K → T
  | .issue t _ _ => t
  | .resume t _ => t

/-- The operation was refused. -/
def Out.isFailed : Out M K → Bool
  | .returned (.failed _) => true
  | _ => false

/-- The message and token an event passes in. -/
def Event.payload : Event T E R M K → Option (M × K)
  | .issue _ (.send _ m k) _ | .issue _ (.call _ _ m k) _ => some (m, k)
  | _ => none

section Endpoints

variable [DecidableEq E]

/-- A send or a call that `e` accepted. -/
def Event.arrivesAt (e : E) : Event T E R M K → Bool
  | .issue _ (.send e' _ _) out | .issue _ (.call e' _ _ _) out => e' = e && !out.isFailed
  | _ => false

/-- A receive that `e` accepted: it took a message, or parked. -/
def Event.receivesAt (e : E) : Event T E R M K → Bool
  | .issue _ (.recv e') out | .issue _ (.recvNb e') out => e' = e && !out.isFailed
  | _ => false

/-- The sends and calls that arrived at `e`, in order. -/
def arrivals (e : E) (tr : List (Event T E R M K)) : List Nat := positions (Event.arrivesAt e) tr

/-- The receives on `e`, in order. -/
def receives (e : E) (tr : List (Event T E R M K)) : List Nat :=
  positions (Event.receivesAt e) tr

/-- The event at `i` is a successful receive of thread `u`. -/
def ReceivesBy (tr : List (Event T E R M K)) (u : T) (i : Nat) : Prop :=
  ∃ ev e, tr[i]? = some ev ∧ ev.thread = u ∧ ev.receivesAt e = true

/-- The reply at `l` answers what thread `u` received at `i`: it is `u`'s
    successful reply, with no other receive of `u` in between. -/
structure Answers (tr : List (Event T E R M K)) (u : T) (i l : Nat) (m : M) : Prop where
  reply : tr[l]? = some (.issue u (.reply m) (.returned .done))
  after : i < l
  first : ∀ j, i < j → j < l → ¬ ReceivesBy tr u j

end Endpoints

/-- Thread `t` is inside the operation it issued at `i`. -/
def Open (tr : List (Event T E R M K)) (t : T) (i : Nat) : Prop :=
  LastBy Event.thread tr t i ∧ ∃ op, tr[i]? = some (.issue t op .blocked)

/-- The operation issued at `i` has returned `res`: at once, or when its
    thread was resumed out of it. -/
def Completes (tr : List (Event T E R M K)) (i : Nat) (res : Res M K) : Prop :=
  (∃ t op, tr[i]? = some (.issue t op (.returned res))) ∨
    ∃ t j, Open (tr.take j) t i ∧ tr[j]? = some (.resume t res)

/-- `res` is the right result of the operation issued at `i`. -/
inductive Correct [DecidableEq E] (tr : List (Event T E R M K)) : Nat → Res M K → Prop
  /-- A send is done once a receive is matched with it. -/
  | send {i n : Nat} {t : T} {e : E} {m : M} {k : K} {out : Out M K}
      (hev : tr[i]? = some (.issue t (.send e m k) out)) (hn : (arrivals e tr)[n]? = some i)
      (hlt : n < (receives e tr).length) : Correct tr i .done
  /-- A receive returns what arrived at its own rank. -/
  | receive {i j n : Nat} {e : E} {m : M} {k : K} {ev : Event T E R M K}
      (hi : (receives e tr)[n]? = some i) (hj : (arrivals e tr)[n]? = some j)
      (hev : tr[j]? = some ev) (hmsg : ev.payload = some (m, k)) : Correct tr i (.message m k)
  /-- A call returns the answer of the thread that received it. -/
  | call {i j l n : Nat} {t u : T} {e : E} {r : R} {m m' : M} {k : K} {ev : Event T E R M K}
      (hev : tr[j]? = some (.issue t (.call e r m k) .blocked))
      (hj : (arrivals e tr)[n]? = some j) (hi : (receives e tr)[n]? = some i)
      (hrecv : tr[i]? = some ev) (hu : ev.thread = u) (hans : Answers tr u i l m') :
      Correct tr j (.replied m')
  | reply {i : Nat} {t : T} {m : M}
      (hev : tr[i]? = some (.issue t (.reply m) (.returned .done))) : Correct tr i .done
  | failed {i : Nat} {t : T} {op : Op E R M K} {err : IpcError}
      (hev : tr[i]? = some (.issue t op (.returned (.failed err)))) : Correct tr i (.failed err)

/-! ## One more event -/

section Growth

variable {tr : List (Event T E R M K)} {ev : Event T E R M K} {t u : T} {i j l : Nat}

theorem Open.snoc_of_ne (h : Open tr t i) (hne : ev.thread ≠ t) : Open (tr ++ [ev]) t i := by
  obtain ⟨hlast, op, hev⟩ := h
  exact ⟨hlast.snoc_of_ne hne, op, getElem?_snoc_of_some hev ev⟩

theorem Open.of_snoc_of_ne (h : Open (tr ++ [ev]) t i) (hne : ev.thread ≠ t) : Open tr t i := by
  obtain ⟨⟨-, hlast⟩, op, hev⟩ := h
  rcases getElem?_snoc_cases hev with ⟨-, hev⟩ | ⟨-, rfl⟩
  · exact ⟨⟨⟨_, hev, rfl⟩, fun j x hj hx => hlast j x hj (getElem?_snoc_of_some hx ev)⟩, op, hev⟩
  · exact absurd rfl hne

/-- A thread is inside at most one operation. -/
theorem Open.unique (h : Open tr t i) (h' : Open tr t j) : i = j := h.1.unique h'.1

theorem open_snoc (tr : List (Event T E R M K)) (t : T) (op : Op E R M K) :
    Open (tr ++ [.issue t op .blocked]) t tr.length :=
  ⟨lastBy_snoc Event.thread tr (.issue t op .blocked), op, getElem?_snoc_length tr _⟩

variable {res : Res M K}

theorem Completes.snoc (h : Completes tr i res) (ev : Event T E R M K) :
    Completes (tr ++ [ev]) i res := by
  rcases h with ⟨t, op, hev⟩ | ⟨t, j, hopen, hev⟩
  · exact Or.inl ⟨t, op, getElem?_snoc_of_some hev ev⟩
  · refine Or.inr ⟨t, j, ?_, getElem?_snoc_of_some hev ev⟩
    rw [List.take_append_of_le_length (Nat.le_of_lt (lt_length_of_getElem? hev))]
    exact hopen

/-- Resuming a thread completes its open operation. -/
theorem Open.completes (h : Open tr t i) : Completes (tr ++ [.resume t res]) i res := by
  refine Or.inr ⟨t, tr.length, ?_, getElem?_snoc_length tr _⟩
  rw [List.take_left]
  exact h

/-- The new completions: the new event itself returned, or it resumed the
    thread out of its open operation. -/
theorem Completes.snoc_cases (h : Completes (tr ++ [ev]) i res) :
    Completes tr i res ∨ (i = tr.length ∧ ∃ t op, ev = .issue t op (.returned res)) ∨
      ∃ t, ev = .resume t res ∧ Open tr t i := by
  rcases h with ⟨t, op, hev⟩ | ⟨t, j, hopen, hev⟩
  · rcases getElem?_snoc_cases hev with ⟨-, hev⟩ | ⟨hi, heq⟩
    · exact Or.inl (Or.inl ⟨t, op, hev⟩)
    · exact Or.inr (Or.inl ⟨hi, t, op, heq⟩)
  · rcases getElem?_snoc_cases hev with ⟨hj, hev⟩ | ⟨rfl, heq⟩
    · rw [List.take_append_of_le_length (Nat.le_of_lt hj)] at hopen
      exact Or.inl (Or.inr ⟨t, j, hopen, hev⟩)
    · rw [List.take_left] at hopen
      exact Or.inr (Or.inr ⟨t, heq, hopen⟩)

variable [DecidableEq E] {e : E} {n : Nat}

theorem arrivals_snoc_of_true (h : ev.arrivesAt e = true) :
    arrivals e (tr ++ [ev]) = arrivals e tr ++ [tr.length] := positions_snoc_of_true h

theorem arrivals_snoc_of_false (h : ev.arrivesAt e = false) :
    arrivals e (tr ++ [ev]) = arrivals e tr := positions_snoc_of_false h

theorem receives_snoc_of_true (h : ev.receivesAt e = true) :
    receives e (tr ++ [ev]) = receives e tr ++ [tr.length] := positions_snoc_of_true h

theorem receives_snoc_of_false (h : ev.receivesAt e = false) :
    receives e (tr ++ [ev]) = receives e tr := positions_snoc_of_false h

theorem arrivals_getElem?_snoc (h : (arrivals e tr)[n]? = some i) (ev : Event T E R M K) :
    (arrivals e (tr ++ [ev]))[n]? = some i := positions_getElem?_snoc h ev

theorem receives_getElem?_snoc (h : (receives e tr)[n]? = some i) (ev : Event T E R M K) :
    (receives e (tr ++ [ev]))[n]? = some i := positions_getElem?_snoc h ev

theorem ReceivesBy.of_snoc (h : ReceivesBy (tr ++ [ev]) u i) (hi : i < tr.length) :
    ReceivesBy tr u i := by
  obtain ⟨ev', e, hev, hu, he⟩ := h
  rcases getElem?_snoc_cases hev with ⟨-, hev⟩ | ⟨heq, -⟩
  · exact ⟨ev', e, hev, hu, he⟩
  · omega

theorem Answers.snoc {m : M} (h : Answers tr u i l m) (ev : Event T E R M K) :
    Answers (tr ++ [ev]) u i l m := by
  have hl := lt_length_of_getElem? h.reply
  exact ⟨getElem?_snoc_of_some h.reply ev, h.after, fun j hij hjl hrecv =>
    h.first j hij hjl (hrecv.of_snoc (Nat.lt_trans hjl hl))⟩

/-- What is right stays right. -/
theorem Correct.snoc (h : Correct tr i res) (ev : Event T E R M K) :
    Correct (tr ++ [ev]) i res := by
  cases h with
  | send hev hn hlt =>
    exact .send (getElem?_snoc_of_some hev ev) (arrivals_getElem?_snoc hn ev)
      (Nat.lt_of_lt_of_le hlt (positions_length_le_snoc _ tr ev))
  | receive hi hj hev hmsg =>
    exact .receive (receives_getElem?_snoc hi ev) (arrivals_getElem?_snoc hj ev)
      (getElem?_snoc_of_some hev ev) hmsg
  | call hev hj hi hrecv hu hans =>
    exact .call (getElem?_snoc_of_some hev ev) (arrivals_getElem?_snoc hj ev)
      (receives_getElem?_snoc hi ev) (getElem?_snoc_of_some hrecv ev) hu (hans.snoc ev)
  | reply hev => exact .reply (getElem?_snoc_of_some hev ev)
  | failed hev => exact .failed (getElem?_snoc_of_some hev ev)

end Growth

/-! ## What one step can do -/

namespace Rendezvous

variable [DecidableEq T] [DecidableEq E] [DecidableEq R]

/-- The steps of the machine, one constructor per branch. -/
inductive Move (a : Rendezvous T E R M K) :
    Event T E R M K → Rendezvous T E R M K → Prop
  | failed {t : T} {op : Op E R M K} {err : IpcError} (hrun : a.phase t = .running) :
      Move a (.issue t op (.returned (.failed err))) a
  | sendDeliver {t u : T} {e : E} {m : M} {k : K} (hrun : a.phase t = .running)
      (hep : a.ep e = .receiver u) :
      Move a (.issue t (.send e m k) (.returned .done))
        ((a.setEp e (.waiting [])).setPhase u (.woken (.message m k)))
  | sendQueue {t : T} {e : E} {m : M} {k : K} {l : List (Entry T R M K)}
      (hrun : a.phase t = .running) (hep : a.ep e = .waiting l) :
      Move a (.issue t (.send e m k) .blocked)
        ((a.setEp e (.waiting (l ++ [⟨t, m, k, none⟩]))).setPhase t (.sending e))
  | park {t : T} {e : E} (hrun : a.phase t = .running) (hholds : a.holds t = none)
      (hep : a.ep e = .waiting []) :
      Move a (.issue t (.recv e) .blocked) ((a.setEp e (.receiver t)).setPhase t (.receiving e))
  | takeSend {t : T} {e : E} {op : Op E R M K} {x : Entry T R M K} {l : List (Entry T R M K)}
      (hop : op = .recv e ∨ op = .recvNb e) (hrun : a.phase t = .running)
      (hholds : a.holds t = none) (hep : a.ep e = .waiting (x :: l)) (hr : x.reply = none) :
      Move a (.issue t op (.returned (.message x.msg x.token)))
        ((a.setEp e (.waiting l)).setPhase x.thread (.woken .done))
  | takeCall {t : T} {e : E} {op : Op E R M K} {x : Entry T R M K} {l : List (Entry T R M K)}
      {r : R} (hop : op = .recv e ∨ op = .recvNb e) (hrun : a.phase t = .running)
      (hholds : a.holds t = none) (hep : a.ep e = .waiting (x :: l)) (hr : x.reply = some r) :
      Move a (.issue t op (.returned (.message x.msg x.token)))
        (((a.setEp e (.waiting l)).setPhase x.thread (.awaiting r)).setHolds t (some r))
  | callDeliver {t u : T} {e : E} {r : R} {m : M} {k : K} (hrun : a.phase t = .running)
      (hbound : a.bound r = none) (hep : a.ep e = .receiver u) :
      Move a (.issue t (.call e r m k) .blocked)
        (((((a.setBound r (some t)).setEp e (.waiting [])).setPhase u
          (.woken (.message m k))).setHolds u (some r)).setPhase t (.awaiting r))
  | callQueue {t : T} {e : E} {r : R} {m : M} {k : K} {l : List (Entry T R M K)}
      (hrun : a.phase t = .running) (hbound : a.bound r = none) (hep : a.ep e = .waiting l) :
      Move a (.issue t (.call e r m k) .blocked)
        (((a.setBound r (some t)).setEp e (.waiting (l ++ [⟨t, m, k, some r⟩]))).setPhase t
          (.calling e r))
  | replyDeliver {t c : T} {r : R} {m : M} (hrun : a.phase t = .running)
      (hholds : a.holds t = some r) (hbound : a.bound r = some c) :
      Move a (.issue t (.reply m) (.returned .done))
        (((a.setPhase c (.woken (.replied m))).setBound r none).setHolds t none)
  | resume {t : T} {res : Res M K} (hwoken : a.phase t = .woken res) :
      Move a (.resume t res) (a.setPhase t .running)

variable {a a' : Rendezvous T E R M K} {ev : Event T E R M K} {t : T}

theorem move_recv {e : E} {op : Op E R M K} (hop : op = .recv e ∨ op = .recvNb e)
    (hrun : a.phase t = .running) (hpark : a.ep e = .waiting [] → op = .recv e) :
    Move a (.issue t op (a.recv t e).2) (a.recv t e).1 := by
  unfold recv
  by_cases hholds : (a.holds t).isSome
  · rw [if_pos hholds]
    exact .failed hrun
  · rw [if_neg hholds]
    have hnone : a.holds t = none := by simpa using hholds
    match hep : a.ep e with
    | .receiver u => exact .failed hrun
    | .waiting [] =>
      rw [hpark hep]
      exact .park hrun hnone hep
    | .waiting (x :: l) => grind [Move.takeCall, Move.takeSend]

/-- Every step is one of the moves. -/
theorem Step.move (hstep : Step a ev a') : Move a ev a' := by
  cases hstep with
  | resume hwoken => exact .resume hwoken
  | @issue t op hrun =>
    cases op with
    | send e m k =>
      simp only [Rendezvous.issue, Rendezvous.send]
      cases hep : a.ep e with
      | receiver u => exact .sendDeliver hrun hep
      | waiting l => exact .sendQueue hrun hep
    | recv e => exact move_recv (Or.inl rfl) hrun fun _ => rfl
    | recvNb e =>
      simp only [Rendezvous.issue, Rendezvous.recvNb]
      cases hep : a.ep e with
      | receiver u => exact .failed hrun
      | waiting l =>
        cases l with
        | nil => exact .failed hrun
        | cons x l => exact move_recv (Or.inr rfl) hrun fun hnil => by simp [hep] at hnil
    | call e r m k =>
      simp only [Rendezvous.issue, Rendezvous.call]
      by_cases hb : (a.bound r).isSome
      · rw [if_pos hb]
        exact .failed hrun
      · rw [if_neg hb]
        have hnone : a.bound r = none := by simpa using hb
        cases hep : a.ep e with
        | receiver u => exact .callDeliver hrun hnone hep
        | waiting l => exact .callQueue hrun hnone hep
    | reply m => grind [Move.failed, Move.replyDeliver, Rendezvous.issue, Rendezvous.reply]

end Rendezvous

end Lockjaw.Ipc
