/-
  Lockjaw.Lib.IntrusiveQueue

  Singly linked FIFO queues threaded through the nodes themselves: a head
  pointer, a tail pointer and one `next` field per node, with a null value
  ending the chain.  `IsQueue` ties the three to the list of queued nodes;
  the `enqueue`/`dequeue` rules say how the list changes when the pointers
  are updated, and the `congr` rules are the frame for every other queue.
-/

import Mathlib.Data.List.Nodup

namespace Lockjaw.Lib

open List

variable {α : Type*}

/-- Following `next` from `h` visits exactly `l` and ends in `null`. -/
def Linked (next : α → α) (null : α) : α → List α → Prop
  | h, [] => h = null
  | h, x :: xs => h = x ∧ x ≠ null ∧ Linked next null (next x) xs

/-- The queue with these head and tail pointers holds exactly `l`, head first. -/
structure IsQueue (next : α → α) (null head tail : α) (l : List α) : Prop where
  linked : Linked next null head l
  nodup : l.Nodup
  tail_eq : tail = l.getLast?.getD null

variable {next next' : α → α} {null head tail x : α} {l : List α}

/-! ## Chains -/

variable {h : α}

theorem Linked.ne_null (hl : Linked next null h l) : ∀ y ∈ l, y ≠ null := by
  induction l generalizing h with
  | nil => simp
  | cons y ys ih =>
    obtain ⟨-, hy, hrest⟩ := hl
    grind

/-- A chain depends only on the `next` fields of its own nodes. -/
theorem Linked.congr (hl : Linked next null h l)
    (heq : ∀ y ∈ l, next' y = next y) : Linked next' null h l := by
  induction l generalizing h with
  | nil => exact hl
  | cons y ys ih =>
    obtain ⟨rfl, hy, hrest⟩ := hl
    refine ⟨rfl, hy, ?_⟩
    rw [heq h mem_cons_self]
    exact ih hrest fun z hz => heq z (mem_cons_of_mem _ hz)

/-- Redirecting the last node of a non-empty chain to a fresh node. -/
theorem Linked.snoc {last : α} (hl : Linked next null h l) (hlast : l.getLast? = some last)
    (hnodup : l.Nodup) (hx : x ≠ null) (hxnext : next' x = null) (htail : next' last = x)
    (heq : ∀ y ∈ l, y ≠ last → next' y = next y) : Linked next' null h (l ++ [x]) := by
  induction l generalizing h with
  | nil => simp at hlast
  | cons y ys ih =>
    obtain ⟨rfl, hy, hrest⟩ := hl
    obtain ⟨hnot, hnodup'⟩ := nodup_cons.mp hnodup
    cases ys with
    | nil =>
      obtain rfl : h = last := by simpa using hlast
      exact ⟨rfl, hy, by rw [htail]; exact ⟨rfl, hx, hxnext⟩⟩
    | cons z zs =>
      have hlast' : (z :: zs).getLast? = some last := by simpa using hlast
      have hne : h ≠ last := by
        rintro rfl
        exact hnot (mem_of_getLast? hlast')
      refine ⟨rfl, hy, ?_⟩
      rw [heq h mem_cons_self hne]
      exact ih hrest hlast' hnodup' fun w hw => heq w (mem_cons_of_mem _ hw)

/-! ## Queues -/

namespace IsQueue

/-- Queues are unaffected by changes to other nodes. -/
theorem congr (h : IsQueue next null head tail l) (heq : ∀ y ∈ l, next' y = next y) :
    IsQueue next' null head tail l :=
  ⟨h.linked.congr heq, h.nodup, h.tail_eq⟩

theorem empty (next : α → α) (null : α) : IsQueue next null null null [] :=
  ⟨rfl, nodup_nil, rfl⟩

theorem head_cons (h : IsQueue next null head tail (x :: l)) : head = x := h.linked.1

theorem ne_null (h : IsQueue next null head tail l) : ∀ y ∈ l, y ≠ null := h.linked.ne_null

theorem tail_mem (h : IsQueue next null head tail l) (hl : l ≠ []) : tail ∈ l := by
  rw [h.tail_eq, getLast?_eq_getLast_of_ne_nil hl]
  exact getLast_mem hl

/-- The second node, or null at the end of a one-node queue. -/
theorem next_head (h : IsQueue next null head tail (x :: l)) : next x = null ↔ l = [] := by
  have hrest : Linked next null (next x) l := h.linked.2.2
  cases l with
  | nil => exact ⟨fun _ => rfl, fun _ => hrest⟩
  | cons y ys => exact ⟨fun hn => absurd (hrest.1.symm.trans hn) hrest.2.1, fun hn => by simp at hn⟩

/-- Enqueue on an empty queue: the node becomes head and tail. -/
theorem enqueue_nil (hx : x ≠ null) (hxnext : next' x = null) : IsQueue next' null x x [x] :=
  ⟨⟨rfl, hx, hxnext⟩, nodup_singleton x, rfl⟩

/-- Enqueue on a non-empty queue: the old tail links to the node. -/
theorem enqueue_cons (h : IsQueue next null head tail l) (hl : l ≠ []) (hx : x ≠ null)
    (hmem : x ∉ l) (hxnext : next' x = null) (htail : next' tail = x)
    (heq : ∀ y ∈ l, y ≠ tail → next' y = next y) : IsQueue next' null head x (l ++ [x]) := by
  have hlast : l.getLast? = some tail := by
    rw [h.tail_eq, getLast?_eq_getLast_of_ne_nil hl]
    rfl
  refine ⟨h.linked.snoc hlast h.nodup hx hxnext htail heq, ?_, by simp⟩
  grind [h.nodup]

/-- Dequeue: the head's successor becomes head, and the tail is cleared when
    the queue is drained. -/
theorem dequeue [DecidableEq α] (h : IsQueue next null head tail (x :: l))
    (heq : ∀ y ∈ l, next' y = next y) :
    IsQueue next' null (next x) (if next x = null then null else tail) l := by
  refine ⟨h.linked.2.2.congr heq, (nodup_cons.mp h.nodup).2, ?_⟩
  grind [h.next_head, h.tail_eq]

end IsQueue

end Lockjaw.Lib
