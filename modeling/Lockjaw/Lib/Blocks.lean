/-
  Lockjaw.Lib.Blocks

  A sequence that is stored in blocks of one size and read at a position: the
  blocks before the position are skipped (`drop_flatten`), and from there on each
  block gives what it has up to the length asked for (`take_drop_append`).
  `writeAt` replaces a window of a buffer, and `scatter` cuts a sequence along a
  list of lengths.
-/

import Mathlib.Data.List.Basic
import Mathlib.Algebra.GroupWithZero.Nat

namespace Lockjaw.Lib

open List

variable {α : Type*} {blocks : List (List α)} {b : Nat}

theorem length_flatten_of_forall
    (h : ∀ B ∈ blocks, B.length = b) : blocks.flatten.length = blocks.length * b := by
  induction blocks with
  | nil => simp
  | cons B blocks ih => grind

/-- Skipping `k` blocks skips `k * b` elements. -/
theorem drop_flatten (h : ∀ B ∈ blocks, B.length = b) (k : Nat) :
    blocks.flatten.drop (k * b) = (blocks.drop k).flatten := by
  induction blocks generalizing k with
  | nil => simp
  | cons B blocks ih =>
    obtain ⟨hB, hrest⟩ := forall_mem_cons.mp h
    cases k with
    | zero => simp
    | succ k =>
      rw [flatten_cons, drop_succ_cons, ← ih hrest, Nat.succ_mul, Nat.add_comm,
        ← drop_drop, ← hB, drop_left]

/-- Reading `n` elements from `off` on takes what the first block has and the rest after it. -/
theorem take_drop_append {B : List α} {off : Nat} (hoff : off ≤ B.length) (rest : List α)
    (n : Nat) :
    ((B ++ rest).drop off).take n =
      (B.drop off).take (min (B.length - off) n) ++ rest.take (n - min (B.length - off) n) := by
  rw [drop_append_of_le_length hoff, take_append, length_drop]
  congr 1
  · rw [Nat.min_comm, ← length_drop, take_eq_take_min]
  · congr 1
    omega

/-! ## Windows of a buffer -/

/-- `buf` with `chunk` from `off` on. -/
def writeAt (buf : List α) (off : Nat) (chunk : List α) : List α :=
  buf.take off ++ chunk ++ buf.drop (off + chunk.length)

variable {buf chunk : List α} {off : Nat}

theorem length_writeAt (h : off + chunk.length ≤ buf.length) :
    (writeAt buf off chunk).length = buf.length := by
  simp only [writeAt, length_append, length_take, length_drop]
  omega

theorem take_writeAt (h : off ≤ buf.length) (chunk : List α) :
    (writeAt buf off chunk).take (off + chunk.length) = buf.take off ++ chunk := by grind [writeAt]

/-! ## Cutting along lengths -/

/-- `xs` cut into pieces of at most the given lengths. -/
def scatter : List Nat → List α → List (List α)
  | [], _ => []
  | n :: ns, xs => xs.take n :: scatter ns (xs.drop n)

theorem scatter_nil (ns : List Nat) : scatter ns ([] : List α) = ns.map fun _ => [] := by
  induction ns with
  | nil => rfl
  | cons n ns ih => rw [scatter, take_nil, drop_nil, ih, map_cons]

/-- Pieces with enough room hold everything. -/
theorem flatten_scatter {ns : List Nat} {xs : List α} (h : xs.length ≤ ns.sum) :
    (scatter ns xs).flatten = xs := by
  induction ns generalizing xs with
  | nil =>
    rw [sum_nil, Nat.le_zero, length_eq_zero_iff] at h
    subst h
    rfl
  | cons n ns ih =>
    rw [sum_cons] at h
    rw [scatter, flatten_cons, ih, take_append_drop]
    rw [length_drop]
    omega

end Lockjaw.Lib
