/-
  Lockjaw.Smp.TicketLock

  The ticket lock under the giant kernel lock, `lockjaw-types/src/ticket_lock.rs`, and
  any number of CPUs that take and release it.

  An atomic step is one access to one of the two counters: `lock` takes a ticket, then
  loads `now_serving` until it reads that ticket, and `unlock` advances `now_serving`.
  A schedule names the CPU of every step, so it is an arbitrary interleaving, and the
  counters wrap around as often as it is long.

  The purpose is `Fifo`: one holder and the CPUs behind it, oldest first.  The tickets
  in use are consecutive and there are fewer than `2 ^ 32` of them, so no two are equal
  and only the oldest can read its own number.
-/

import Mathlib.Data.UInt

namespace Lockjaw.Smp

open Function List

structure TicketLock where
  nextTicket : UInt32
  nowServing : UInt32
  deriving DecidableEq, Repr

namespace TicketLock

def new : TicketLock := ⟨0, 0⟩

/-- The `fetch_add` that opens `lock`: the ticket, and the lock after it. -/
def takeTicket (l : TicketLock) : UInt32 × TicketLock :=
  (l.nextTicket, { l with nextTicket := l.nextTicket + 1 })

/-- The loop of `lock` ends when the load of `now_serving` reads this. -/
def serves (l : TicketLock) (ticket : UInt32) : Bool := l.nowServing == ticket

def unlock (l : TicketLock) : TicketLock := { l with nowServing := l.nowServing + 1 }

end TicketLock

/-- Where a CPU stands: outside, in the loop of `lock`, or past it and before its `unlock`. -/
inductive Place where
  | outside
  | spinning (ticket : UInt32)
  | inside
  deriving DecidableEq, Repr

/-- What an atomic step did. -/
inductive LockEvent (α : Type) where
  | takes (c : α)
  | spins (c : α)
  | acquires (c : α)
  | unlocks (c : α)
  deriving DecidableEq, Repr

namespace LockEvent

variable {α : Type}

/-- Who took tickets, in this order. -/
def taken (es : List (LockEvent α)) : List α :=
  es.filterMap fun | takes c => some c | _ => none

/-- Who acquired the lock, in this order. -/
def acquired (es : List (LockEvent α)) : List α :=
  es.filterMap fun | acquires c => some c | _ => none

end LockEvent

open LockEvent

/-- `n` CPUs around one lock. -/
structure Contention (n : Nat) where
  lock : TicketLock
  place : Fin n → Place

namespace Contention

variable {n : Nat}

def new : Contention n := ⟨.new, fun _ => .outside⟩

/-- The next atomic step of a CPU. -/
def step (s : Contention n) (c : Fin n) : Contention n × LockEvent (Fin n) :=
  match s.place c with
  | .outside =>
    (⟨s.lock.takeTicket.2, update s.place c (.spinning s.lock.takeTicket.1)⟩, .takes c)
  | .spinning ticket =>
    if s.lock.serves ticket then
      ({ s with place := update s.place c .inside }, .acquires c)
    else (s, .spins c)
  | .inside => (⟨s.lock.unlock, update s.place c .outside⟩, .unlocks c)

/-- The steps of a schedule, one CPU after the other. -/
def run (s : Contention n) : List (Fin n) → Contention n × List (LockEvent (Fin n))
  | [] => (s, [])
  | c :: cs => (((s.step c).1.run cs).1, (s.step c).2 :: ((s.step c).1.run cs).2)

end Contention

/-! ## First come, first served -/

/-- The purpose of the lock: at most one holder, and behind it those who wait, oldest first. -/
structure Fifo (α : Type) where
  holder : Option α
  waiting : List α

namespace Fifo

variable {α : Type} {f f' : Fifo α} {e : LockEvent α}

def members (f : Fifo α) : List α := f.holder.toList ++ f.waiting

inductive Step : Fifo α → LockEvent α → Fifo α → Prop
  | takes (f : Fifo α) (c : α) : Step f (.takes c) { f with waiting := f.waiting ++ [c] }
  | spins (f : Fifo α) (c : α) : Step f (.spins c) f
  | acquires (c : α) (l : List α) : Step ⟨none, c :: l⟩ (.acquires c) ⟨some c, l⟩
  | unlocks (c : α) (l : List α) : Step ⟨some c, l⟩ (.unlocks c) ⟨none, l⟩

/-- Whoever waited or comes has acquired the lock or waits afterwards, in the same order. -/
theorem Step.order (h : Step f e f') : f.waiting ++ taken [e] = acquired [e] ++ f'.waiting := by
  cases h <;> simp [taken, acquired]

end Fifo

/-! ## The counters against the queue -/

theorem ofNat_add_one (k : Nat) : UInt32.ofNat k + 1 = UInt32.ofNat (k + 1) :=
  (UInt32.ofNat_add k 1).symm

/-- Of fewer than `2 ^ 32` consecutive tickets only the first has its number. -/
theorem eq_zero_of_ofNat_eq {k i : Nat} (hi : i < 2 ^ 32)
    (h : UInt32.ofNat k = UInt32.ofNat (k + i)) : i = 0 := by
  have hmod : k % 2 ^ 32 = (k + i) % 2 ^ 32 := by
    have hnat := congrArg UInt32.toNat h
    rwa [UInt32.toNat_ofNat', UInt32.toNat_ofNat'] at hnat
  omega

namespace Contention

variable {n : Nat} {s : Contention n} {served : Nat} {f : Fifo (Fin n)} {c : Fin n}

/-- The state represents the queue `f` once `served` tickets are served.  The holder has
    ticket `served`, and those who wait have the tickets after it. -/
structure Represents (s : Contention n) (served : Nat) (f : Fifo (Fin n)) : Prop where
  nodup : f.members.Nodup
  serving : s.lock.nowServing = UInt32.ofNat served
  next : s.lock.nextTicket = UInt32.ofNat (served + f.members.length)
  outside : ∀ c, c ∉ f.members → s.place c = .outside
  holds : ∀ c, f.holder = some c → s.place c = .inside
  waits : ∀ i c, f.waiting[i]? = some c →
    s.place c = .spinning (UInt32.ofNat (served + f.holder.toList.length + i))

theorem represents_new : (new : Contention n).Represents 0 ⟨none, []⟩ where
  nodup := nodup_nil
  serving := rfl
  next := rfl
  outside _ _ := rfl
  holds _ h := by cases h
  waits i c h := by simp at h

section

variable (h : s.Represents served f)
include h

theorem Represents.holder_of_inside (hc : s.place c = .inside) : f.holder = some c := by
  by_cases hmem : c ∈ f.members
  · rcases mem_append.mp hmem with hh | hw
    · simpa using hh
    · obtain ⟨i, hi⟩ := mem_iff_getElem?.mp hw
      rw [h.waits i c hi] at hc
      cases hc
  · rw [h.outside c hmem] at hc
    cases hc

/-- Who spins waits, and its ticket says how far from the front. -/
theorem Represents.index_of_spinning {ticket : UInt32}
    (hc : s.place c = .spinning ticket) : ∃ i, f.waiting[i]? = some c ∧
      ticket = UInt32.ofNat (served + f.holder.toList.length + i) := by
  by_cases hmem : c ∈ f.members
  · rcases mem_append.mp hmem with hh | hw
    · rw [h.holds c (by simpa using hh)] at hc
      cases hc
    · obtain ⟨i, hi⟩ := mem_iff_getElem?.mp hw
      exact ⟨i, hi, Place.spinning.inj (hc.symm.trans (h.waits i c hi))⟩
  · rw [h.outside c hmem] at hc
    cases hc

/-- There are no more tickets in use than CPUs. -/
theorem Represents.length_le : f.members.length ≤ n := by
  simpa using h.nodup.length_le_card

theorem Represents.takes (hc : s.place c = .outside) :
    (s.step c).1.Represents served { f with waiting := f.waiting ++ [c] } := by
  have hnew : c ∉ f.members := by
    intro hmem
    rcases mem_append.mp hmem with hh | hw
    · simp [h.holds c (by simpa using hh)] at hc
    · obtain ⟨i, hi⟩ := mem_iff_getElem?.mp hw
      simp [h.waits i c hi] at hc
  have hmembers : ({ f with waiting := f.waiting ++ [c] } : Fifo (Fin n)).members =
      f.members ++ [c] := by
    simp [Fifo.members]
  simp only [step, hc, TicketLock.takeTicket]
  refine ⟨?_, h.serving, ?_, fun d hd => ?_, fun d hd => ?_, fun i d hd => ?_⟩
  · rw [hmembers]
    exact h.nodup.append (nodup_singleton c) (by simpa using hnew)
  · simp only [hmembers, h.next, ofNat_add_one, length_append, length_singleton,
      Nat.add_assoc]
  · rw [hmembers, mem_append, not_or, mem_singleton] at hd
    show update s.place c _ d = _
    rw [update_of_ne hd.2, h.outside d hd.1]
  · have hne : d ≠ c := by
      rintro rfl
      exact hnew (by simp [Fifo.members, show f.holder = some d from hd])
    show update s.place c _ d = _
    rw [update_of_ne hne, h.holds d hd]
  · rcases Nat.lt_or_ge i f.waiting.length with hlt | hge
    · rw [getElem?_append_left hlt] at hd
      have hne : d ≠ c := by
        rintro rfl
        exact hnew (mem_append_right _ (mem_of_getElem? hd))
      show update s.place c _ d = _
      rw [update_of_ne hne, h.waits i d hd]
    · -- the new ticket stands right behind the others
      obtain ⟨hi, rfl⟩ : i = f.waiting.length ∧ c = d := by
        grind
      show update s.place c _ c = _
      rw [update_self, h.next, hi, Fifo.members, length_append, Nat.add_assoc]

/-- The load reads a waiting CPU's own ticket only at the front of a free lock. -/
theorem Represents.front_of_serves (hn : n < 2 ^ 32) {i : Nat} (hi : f.waiting[i]? = some c)
    (hserves : s.lock.serves (UInt32.ofNat (served + f.holder.toList.length + i)) = true) :
    ∃ l, f = ⟨none, c :: l⟩ := by
  have hlt := (List.getElem?_eq_some_iff.mp hi).1
  have hlen := h.length_le
  rw [Fifo.members, List.length_append] at hlen
  rw [TicketLock.serves, beq_iff_eq, h.serving, Nat.add_assoc] at hserves
  have hzero := eq_zero_of_ofNat_eq (by omega) hserves
  obtain ⟨holder, waiting⟩ := f
  cases holder with
  | some d => simp at hzero
  | none =>
    cases waiting with
    | nil => simp at hi
    | cons d l =>
      obtain rfl : i = 0 := by simpa using hzero
      exact ⟨l, by simpa using hi⟩

end

variable {l : List (Fin n)}

theorem Represents.acquires (h : s.Represents served ⟨none, c :: l⟩) :
    ({ s with place := update s.place c .inside } : Contention n).Represents served
      ⟨some c, l⟩ := by
  have hnodup : c ∉ l ∧ l.Nodup := nodup_cons.mp h.nodup
  refine ⟨h.nodup, h.serving, h.next, fun d hd => ?_, fun d hd => ?_, fun i d hd => ?_⟩
  · have hne : d ≠ c := fun heq => hd (heq ▸ mem_cons_self)
    simp only [update_of_ne hne]
    exact h.outside d hd
  · cases hd
    exact update_self ..
  · have hne : d ≠ c := fun heq => hnodup.1 (heq ▸ mem_of_getElem? hd)
    simp only [update_of_ne hne]
    rw [h.waits (i + 1) d hd]
    show Place.spinning (UInt32.ofNat (served + 0 + (i + 1))) =
      .spinning (UInt32.ofNat (served + 1 + i))
    rw [Nat.add_zero, Nat.add_comm i, Nat.add_assoc]

theorem Represents.unlocks (h : s.Represents served ⟨some c, l⟩) :
    (⟨s.lock.unlock, update s.place c .outside⟩ : Contention n).Represents
      (served + 1) ⟨none, l⟩ := by
  have hnodup : c ∉ l ∧ l.Nodup := nodup_cons.mp h.nodup
  refine ⟨hnodup.2, ?_, ?_, fun d hd => ?_, fun d hd => (by cases hd), fun i d hd => ?_⟩
  · rw [TicketLock.unlock, h.serving, ofNat_add_one]
  · rw [TicketLock.unlock, h.next]
    show UInt32.ofNat (served + (l.length + 1)) = UInt32.ofNat (served + 1 + l.length)
    rw [Nat.add_comm l.length, Nat.add_assoc]
  · by_cases heq : d = c
    · subst heq
      exact update_self ..
    · simp only [update_of_ne heq]
      exact h.outside d fun hmem => (mem_cons.mp hmem).elim heq hd
  · have hne : d ≠ c := fun heq => hnodup.1 (heq ▸ mem_of_getElem? hd)
    simp only [update_of_ne hne]
    exact h.waits i d hd

/-- Every atomic step is one of the queue. -/
theorem Represents.step (h : s.Represents served f) (hn : n < 2 ^ 32) (c : Fin n) :
    ∃ served' f', (s.step c).1.Represents served' f' ∧ Fifo.Step f (s.step c).2 f' := by
  cases hc : s.place c with
  | outside =>
    have hstep : (s.step c).2 = .takes c := by simp [Contention.step, hc]
    exact ⟨served, _, h.takes hc, hstep ▸ .takes f c⟩
  | spinning ticket =>
    obtain ⟨i, hi, rfl⟩ := h.index_of_spinning hc
    simp only [Contention.step, hc]
    split
    · next hserves =>
      obtain ⟨l, rfl⟩ := h.front_of_serves hn hi hserves
      exact ⟨served, _, h.acquires, .acquires c l⟩
    · exact ⟨served, f, h, .spins f c⟩
  | inside =>
    obtain ⟨holder, l⟩ := f
    obtain rfl : holder = some c := h.holder_of_inside hc
    simp only [Contention.step, hc]
    exact ⟨served + 1, _, h.unlocks, .unlocks c l⟩

theorem Represents.run (h : s.Represents served f) (hn : n < 2 ^ 32) (schedule : List (Fin n)) :
    ∃ served' f', (s.run schedule).1.Represents served' f' ∧
      f.waiting ++ taken (s.run schedule).2 = acquired (s.run schedule).2 ++ f'.waiting := by
  induction schedule generalizing s served f with
  | nil => exact ⟨served, f, h, by simp [Contention.run, taken, acquired]⟩
  | cons c cs ih =>
    obtain ⟨served1, f1, h1, hstep⟩ := h.step hn c
    obtain ⟨served2, f2, h2, hrun⟩ := ih h1
    refine ⟨served2, f2, h2, ?_⟩
    have hsplit : ∀ (e : LockEvent (Fin n)) es, taken (e :: es) = taken [e] ++ taken es ∧
        acquired (e :: es) = acquired [e] ++ acquired es :=
      fun e es => ⟨filterMap_append (l := [e]), filterMap_append (l := [e])⟩
    rw [Contention.run, (hsplit _ _).1, (hsplit _ _).2, ← append_assoc, hstep.order,
      append_assoc, hrun, append_assoc]

/-- Under every interleaving of fewer than `2 ^ 32` CPUs at most one is between its `lock`
    and its `unlock`, and the `k`-th to acquire the lock is the `k`-th to take a ticket. -/
theorem ticket_lock_fifo (hn : n < 2 ^ 32) (schedule : List (Fin n)) :
    (∀ c d, ((new : Contention n).run schedule).1.place c = .inside →
      ((new : Contention n).run schedule).1.place d = .inside → c = d) ∧
    acquired ((new : Contention n).run schedule).2 <+:
      taken ((new : Contention n).run schedule).2 := by
  obtain ⟨served, f, h, horder⟩ := represents_new.run hn schedule
  refine ⟨fun c d hc hd => ?_, f.waiting, horder.symm⟩
  exact Option.some.inj ((h.holder_of_inside hc).symm.trans (h.holder_of_inside hd))

/-- Three CPUs take tickets in the order 2, 0, 1; the first two have had the lock. -/
theorem ticket_lock_fifo_three :
    acquired ((new : Contention 3).run [2, 0, 1, 0, 2, 1, 2, 1, 0]).2 = [2, 0] ∧
    acquired ((new : Contention 3).run [2, 0, 1, 0, 2, 1, 2, 1, 0]).2 <+:
      taken ((new : Contention 3).run [2, 0, 1, 0, 2, 1, 2, 1, 0]).2 :=
  ⟨by decide, (ticket_lock_fifo (by decide) _).2⟩

end Contention

end Lockjaw.Smp
