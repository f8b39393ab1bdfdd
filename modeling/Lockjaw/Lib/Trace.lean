/-
  Lockjaw.Lib.Trace

  Positions in an event trace that grows at the end.  `positions p tr` lists,
  in order, where the events satisfying `p` stand; `LastBy who tr b i` says
  that the latest event of agent `b` stands at `i`.  Both are stated so that
  one more event is one rewrite, and everything said about a position stays
  true as the trace grows.
-/

import Mathlib.Data.List.Induction
import Mathlib.Data.List.Nodup
import Mathlib.Order.Basic

namespace Lockjaw.Lib

open List

variable {α β : Type} {tr : List α} {ev : α} {i : Nat}

/-! ## Appending one event -/

theorem getElem?_snoc_of_some (h : tr[i]? = some ev) (x : α) : (tr ++ [x])[i]? = some ev := by grind

theorem getElem?_snoc_length (tr : List α) (x : α) : (tr ++ [x])[tr.length]? = some x := by
  simp

/-- An event of the longer trace is an old one or the new one. -/
theorem getElem?_snoc_cases {x : α} (h : (tr ++ [x])[i]? = some ev) :
    (i < tr.length ∧ tr[i]? = some ev) ∨ (i = tr.length ∧ x = ev) := by grind

theorem lt_length_of_getElem? (h : tr[i]? = some ev) : i < tr.length :=
  (List.getElem?_eq_some_iff.mp h).1

/-! ## Positions of the events of one kind -/

/-- Where the events satisfying `p` stand, first to last. -/
def positions (p : α → Bool) (tr : List α) : List Nat :=
  (tr.zipIdx.filter fun x => p x.1).map Prod.snd

variable {p : α → Bool} {n : Nat}

@[simp] theorem positions_nil : positions p [] = [] := rfl

theorem positions_snoc (p : α → Bool) (tr : List α) (ev : α) :
    positions p (tr ++ [ev]) = positions p tr ++ if p ev then [tr.length] else [] := by
  cases hp : p ev <;> simp [positions, zipIdx_append, hp]

theorem positions_snoc_of_true (hp : p ev = true) :
    positions p (tr ++ [ev]) = positions p tr ++ [tr.length] := by
  rw [positions_snoc, if_pos hp]

theorem positions_snoc_of_false (hp : p ev = false) :
    positions p (tr ++ [ev]) = positions p tr := by
  simp [positions_snoc, hp]

theorem mem_positions : i ∈ positions p tr ↔ ∃ ev, tr[i]? = some ev ∧ p ev = true := by
  simp only [positions, mem_map, mem_filter, Prod.exists, exists_eq_right,
    mem_zipIdx_iff_getElem?]

/-- A position keeps its rank as the trace grows. -/
theorem positions_getElem?_snoc (h : (positions p tr)[n]? = some i) (ev : α) :
    (positions p (tr ++ [ev]))[n]? = some i := by
  obtain ⟨hlt, -⟩ := List.getElem?_eq_some_iff.mp h
  rw [positions_snoc, getElem?_append_left hlt]
  exact h

theorem positions_length_le_snoc (p : α → Bool) (tr : List α) (ev : α) :
    (positions p tr).length ≤ (positions p (tr ++ [ev])).length := by
  rw [positions_snoc, length_append]
  exact Nat.le_add_right _ _

/-- The new event takes the last rank. -/
theorem positions_getElem?_length (hp : p ev = true) :
    (positions p (tr ++ [ev]))[(positions p tr).length]? = some tr.length := by
  rw [positions_snoc_of_true hp]
  simp

theorem positions_pairwise (p : α → Bool) (tr : List α) : (positions p tr).Pairwise (· < ·) := by
  induction tr using reverseRecOn with
  | nil => exact List.Pairwise.nil
  | append_singleton tr ev ih =>
    cases hp : p ev with
    | false =>
      rw [positions_snoc_of_false hp]
      exact ih
    | true =>
      rw [positions_snoc_of_true hp]
      refine pairwise_append.mpr ⟨ih, pairwise_singleton _ _, fun x hx y hy => ?_⟩
      obtain ⟨ev', hev', -⟩ := mem_positions.mp hx
      rw [mem_singleton.mp hy]
      exact lt_length_of_getElem? hev'

/-- An event has one rank. -/
theorem positions_rank_unique {n' : Nat} (h : (positions p tr)[n]? = some i)
    (h' : (positions p tr)[n']? = some i) : n = n' := by
  have hnodup : (positions p tr).Nodup :=
    (positions_pairwise p tr).imp fun hlt => Nat.ne_of_lt hlt
  grind [hnodup.getElem_inj_iff]

/-! ## The latest event of an agent -/

/-- The latest event of agent `b` stands at `i`. -/
def LastBy (who : α → β) (tr : List α) (b : β) (i : Nat) : Prop :=
  (∃ ev, tr[i]? = some ev ∧ who ev = b) ∧ ∀ j ev, i < j → tr[j]? = some ev → who ev ≠ b

variable {who : α → β} {b : β} {j : Nat}

theorem LastBy.unique (h : LastBy who tr b i) (h' : LastBy who tr b j) : i = j := by
  obtain ⟨⟨ev, hev, hb⟩, hlast⟩ := h
  obtain ⟨⟨ev', hev', hb'⟩, hlast'⟩ := h'
  grind

theorem LastBy.snoc_of_ne (h : LastBy who tr b i) (hne : who ev ≠ b) :
    LastBy who (tr ++ [ev]) b i := by
  obtain ⟨⟨ev', hev', hb⟩, hlast⟩ := h
  refine ⟨⟨ev', getElem?_snoc_of_some hev' ev, hb⟩, fun j x hj hx => ?_⟩
  grind

theorem lastBy_snoc (who : α → β) (tr : List α) (ev : α) :
    LastBy who (tr ++ [ev]) (who ev) tr.length := by
  refine ⟨⟨ev, getElem?_snoc_length tr ev, rfl⟩, fun j x hj hx => ?_⟩
  grind

end Lockjaw.Lib
