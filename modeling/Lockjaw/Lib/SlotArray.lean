/-
  Lockjaw.Lib.SlotArray

  A fixed array of slots that is searched from the front: an entry goes into
  the first slot that qualifies, and the first slot that matches is read or
  cleared.

  `setFirst_some` says where such a write goes.  The rules derived from it are
  stated for what a table of slots is used for: every entry keeps a property
  (`setFirst_forall`), and any two entries stay apart (`setFirst_pairwise`).
-/

import Mathlib.Data.List.Basic

namespace Lockjaw.Lib

variable {α : Type} {p : α → Bool} {b x : α} {l l' : List α} {P : α → Prop} {R : α → α → Prop}

/-- Overwrite the first slot satisfying `p` with `b`. -/
def setFirst (p : α → Bool) (b : α) : List α → Option (List α)
  | [] => none
  | x :: xs => if p x then some (b :: xs) else (setFirst p b xs).map (x :: ·)

/-- The write replaces the first slot satisfying `p` and nothing else. -/
theorem setFirst_some (h : setFirst p b l = some l') :
    ∃ pre x post, l = pre ++ x :: post ∧ l.find? p = some x ∧ p x = true ∧
      (∀ y ∈ pre, p y = false) ∧ l' = pre ++ b :: post := by
  induction l generalizing l' with
  | nil => cases h
  | cons x xs ih =>
    unfold setFirst at h
    cases hx : p x with
    | true =>
      rw [if_pos hx] at h
      cases h
      exact ⟨[], x, xs, rfl, by simp [hx], hx, by simp, rfl⟩
    | false => grind [Option.map_eq_some_iff]

/-- The write goes past the slots that do not qualify. -/
theorem setFirst_append {post : List α} (hl : ∀ y ∈ l, p y = false) (hx : p x = true) :
    setFirst p b (l ++ x :: post) = some (l ++ b :: post) := by
  induction l with
  | nil => simp [setFirst, hx]
  | cons y l ih => simp_all [setFirst]

/-- The write fails exactly when no slot qualifies. -/
theorem setFirst_none : setFirst p b l = none ↔ l.find? p = none := by
  induction l with
  | nil => simp [setFirst]
  | cons x xs ih =>
    cases hx : p x <;> simp [setFirst, hx, ih]

/-- Finding the index first and writing there later is the same write. -/
theorem setFirst_eq_set {i : Nat} (h : l.findIdx? p = some i) (b : α) :
    setFirst p b l = some (l.set i b) := by
  induction l generalizing i with
  | nil => cases h
  | cons x xs ih =>
    rw [List.findIdx?_cons] at h
    unfold setFirst
    cases hx : p x with
    | true =>
      simp only [hx, if_true] at h ⊢
      cases h
      rfl
    | false =>
      simp only [hx, Bool.false_eq_true, if_false] at h ⊢
      obtain ⟨j, hj, rfl⟩ := Option.map_eq_some_iff.mp h
      rw [ih hj]
      rfl

section

variable (h : setFirst p b l = some l')
include h

theorem setFirst_mem (hx : x ∈ l') : x = b ∨ x ∈ l := by
  obtain ⟨pre, y, post, rfl, -, -, -, rfl⟩ := setFirst_some h
  simp only [List.mem_append, List.mem_cons] at hx ⊢
  tauto

/-- The new entry is there afterwards. -/
theorem setFirst_mem_self : b ∈ l' := by
  obtain ⟨pre, y, post, rfl, -, -, -, rfl⟩ := setFirst_some h
  simp

theorem setFirst_forall (hl : ∀ x ∈ l, P x) (hb : P b) : ∀ x ∈ l', P x := by
  intro x hx
  rcases setFirst_mem h hx with rfl | hx
  · exact hb
  · exact hl x hx

/-- Entries stay pairwise apart if the new entry is apart from every old one. -/
theorem setFirst_pairwise (hl : l.Pairwise R) (hb : ∀ x ∈ l, R x b ∧ R b x) : l'.Pairwise R := by
  obtain ⟨pre, y, post, rfl, -, -, -, rfl⟩ := setFirst_some h
  grind [List.pairwise_cons]

/-- In a pairwise apart array, an entry that is still there after the write is
    the new one or is apart from the entry the write replaced. -/
theorem setFirst_apart (hl : l.Pairwise R) (hsymm : ∀ x y, R x y → R y x) (hx : x ∈ l') :
    x = b ∨ ∃ y, l.find? p = some y ∧ R x y := by
  obtain ⟨pre, y, post, rfl, hf, -, -, rfl⟩ := setFirst_some h
  grind

end

end Lockjaw.Lib
