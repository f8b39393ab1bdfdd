/-
  Lockjaw.Lib.FirstFit

  First-fit search for a run of free positions: one pass over `0 .. n - 1`
  that carries the start and the length of the current run and stops at the
  first run that is long enough.
-/

import Mathlib.Order.Lattice.Nat

namespace Lockjaw.Lib

/-- A run of `count` positions from `k` on, inside `0 .. n - 1` and all free. -/
structure FreeRun (used : Nat → Bool) (n count k : Nat) : Prop where
  pos : 0 < count
  le : k + count ≤ n
  free : ∀ i, k ≤ i → i < k + count → used i = false

/-- The pass from position `i` on, with `rest` positions to go. -/
def firstFit (used : Nat → Bool) (count : Nat) : Nat → Nat → Option Nat → Nat → Option Nat
  | 0, _, _, _ => none
  | rest + 1, i, runStart, runLen =>
    if used i then firstFit used count rest (i + 1) none 0
    else
      let start := runStart.getD i
      if runLen + 1 = count then some start
      else firstFit used count rest (i + 1) (some start) (runLen + 1)

variable {used : Nat → Bool} {n count b rest r : Nat} {runStart : Option Nat}

/-- The pass returns the lowest run.  The invariant: the current run starts at
    `b`, is free and of length `r`, too short, and no long enough run starts
    before it. -/
theorem firstFit_from (hn : b + r + rest = n) (hstart : runStart.getD (b + r) = b)
    (hlen : r < count) (hfree : ∀ i, b ≤ i → i < b + r → used i = false)
    (hlow : ∀ k, FreeRun used n count k → b ≤ k) (k : Nat) :
    firstFit used count rest (b + r) runStart r = some k ↔
      IsLeast {k | FreeRun used n count k} k := by
  induction rest generalizing b r runStart with
  | zero =>
    refine ⟨fun h => (Option.some_ne_none _ h.symm).elim, fun h => ?_⟩
    have := hlow k h.1
    have := h.1.le
    omega
  | succ rest ih =>
    rw [firstFit]
    split
    · next hused =>
      -- a used position ends the run: every long enough run starts after it
      refine ih (b := b + r + 1) (r := 0) (by omega) rfl (by omega) (by omega) ?_
      intro j hj
      have := hlow j hj
      by_contra hle
      rw [hj.free (b + r) (by omega) (by omega)] at hused
      cases hused
    · next hused =>
      have hfree' : ∀ i, b ≤ i → i < b + (r + 1) → used i = false := by
        intro i hi hlt
        rcases Nat.lt_succ_iff_lt_or_eq.mp hlt with h | rfl
        · exact hfree i hi h
        · simpa using hused
      dsimp only
      rw [hstart]
      split
      · next hcount =>
        have hleast : IsLeast {k | FreeRun used n count k} b :=
          ⟨⟨by omega, by omega, fun i hi hlt => hfree' i hi (by omega)⟩, fun k hk => hlow k hk⟩
        rw [Option.some_inj]
        exact ⟨fun h => h ▸ hleast, hleast.unique⟩
      · exact ih (by omega) rfl (by omega) hfree' hlow

theorem firstFit_eq_some_iff (hcount : 0 < count) (k : Nat) :
    firstFit used count n 0 none 0 = some k ↔ IsLeast {k | FreeRun used n count k} k :=
  firstFit_from (b := 0) (by omega) rfl hcount (by omega) (fun _ _ => Nat.zero_le _) k

end Lockjaw.Lib
