/-
  Lockjaw.Lib.RingScan

  Circular search over the indices `0 .. n-1`: start just after a stop index,
  advance modulo `n`, and give up on coming back to the stop index.  This is
  the loop of a round-robin selector, with the loop's own exit test and no
  assumption on what is searched for.

  The scan carries fuel.  `ringScan_isSome` shows that `n` units are always
  enough when the stop index is in range, so the fuel never decides a result.
-/

import Mathlib.Data.Nat.ModEq

namespace Lockjaw.Lib

/-- Circular scan from `next`.  `none` means the fuel ran out, `some none`
    that the scan came back to `stop`, `some (some i)` that `i` was found. -/
def ringScan (p : Nat → Bool) (n stop : Nat) : Nat → Nat → Option (Option Nat)
  | 0, _ => none
  | fuel + 1, next =>
    if p next then some (some next)
    else if (next + 1) % n = stop then some none
    else ringScan p n stop fuel ((next + 1) % n)

variable {p : Nat → Bool} {n stop : Nat} {k i a d : Nat}

/-- Position `k` steps after `stop` is the last one exactly when `k + 1 = n`. -/
theorem ring_succ_eq_stop_iff (hstop : stop < n) (hk1 : 1 ≤ k) (hk : k < n) :
    ((stop + k) % n + 1) % n = stop ↔ k + 1 = n := by
  have hstep : ((stop + k) % n + 1) % n = (stop + (k + 1)) % n := by
    rw [Nat.mod_add_mod, Nat.add_assoc]
  rw [hstep]
  constructor
  · intro h
    by_contra hne
    have hlt : k + 1 < n := by omega
    by_cases hwrap : stop + (k + 1) < n
    · rw [Nat.mod_eq_of_lt hwrap] at h
      omega
    · have hmod : (stop + (k + 1)) % n = stop + (k + 1) - n := by
        rw [Nat.mod_eq_sub_mod (by omega), Nat.mod_eq_of_lt (by omega)]
      omega
  · intro h
    rw [h, Nat.add_mod_right, Nat.mod_eq_of_lt hstop]

/-- Every index other than `stop` is met between `1` and `n - 1` steps after it. -/
theorem exists_ring_offset (hstop : stop < n) (hi : i < n) (hne : i ≠ stop) :
    ∃ k, 1 ≤ k ∧ k < n ∧ (stop + k) % n = i := by
  by_cases h : stop < i
  · exact ⟨i - stop, by omega, by omega, by
      rw [Nat.add_sub_cancel' (by omega), Nat.mod_eq_of_lt hi]⟩
  · refine ⟨n - stop + i, by omega, by omega, ?_⟩
    have hsum : stop + (n - stop + i) = i + n := by omega
    rw [hsum, Nat.add_mod_right, Nat.mod_eq_of_lt hi]

/-- A found index is in range and satisfies the predicate. -/
theorem ringScan_found {fuel next : Nat} (hnext : next < n)
    (h : ringScan p n stop fuel next = some (some i)) : p i = true ∧ i < n := by
  induction fuel generalizing next with
  | zero => simp [ringScan] at h
  | succ fuel ih => grind [Nat.mod_lt, ringScan]

/-- From `k` steps after `stop`, a scan that comes back has seen every later
    position, and enough fuel makes it either find something or come back. -/
theorem ringScan_from (hstop : stop < n) :
    ∀ fuel k, 1 ≤ k → k < n → n ≤ k + fuel →
      (ringScan p n stop fuel ((stop + k) % n)).isSome ∧
      (ringScan p n stop fuel ((stop + k) % n) = some none →
        ∀ j, k ≤ j → j < n → p ((stop + j) % n) = false) := by
  intro fuel
  induction fuel with
  | zero => intro k _ hk hfuel; omega
  | succ fuel ih =>
    intro k hk1 hk hfuel
    have hiff := ring_succ_eq_stop_iff hstop hk1 hk
    simp only [ringScan]
    by_cases hp : p ((stop + k) % n) = true
    · simp [hp]
    · rw [if_neg hp]
      by_cases hback : ((stop + k) % n + 1) % n = stop
      · grind
      · have hmore : k + 1 < n := by
          have : k + 1 ≠ n := fun h => hback (hiff.mpr h)
          omega
        have hnext : ((stop + k) % n + 1) % n = (stop + (k + 1)) % n := by
          rw [Nat.mod_add_mod, Nat.add_assoc]
        rw [if_neg hback, hnext]
        obtain ⟨hsome, hall⟩ := ih (k + 1) (by omega) hmore (by omega)
        grind

/-- `n` units of fuel suffice for a full round. -/
theorem ringScan_isSome (hstop : stop < n) (hn : 2 ≤ n) :
    (ringScan p n stop n ((stop + 1) % n)).isSome :=
  (ringScan_from hstop n 1 (by omega) (by omega) (by omega)).1

/-- A full round that finds nothing has refuted every index but `stop`. -/
theorem ringScan_none (hstop : stop < n) (hn : 2 ≤ n)
    (h : ringScan p n stop n ((stop + 1) % n) = some none) (hi : i < n)
    (hne : i ≠ stop) : p i = false := by
  obtain ⟨k, hk1, hk, rfl⟩ := exists_ring_offset hstop hi hne
  exact (ringScan_from hstop n 1 (by omega) (by omega) (by omega)).2 h k hk1 hk

/-- What a scan finds is the first match from where it starts. -/
theorem ringScan_first (hstop : stop < n) :
    ∀ fuel k, 1 ≤ k → k < n → ringScan p n stop fuel ((stop + k) % n) = some (some i) →
      ∃ j, k ≤ j ∧ j < n ∧ i = (stop + j) % n ∧
        ∀ m, k ≤ m → m < j → p ((stop + m) % n) = false := by
  intro fuel
  induction fuel with
  | zero => intro k _ _ h; simp [ringScan] at h
  | succ fuel ih =>
    intro k hk1 hk h
    simp only [ringScan] at h
    by_cases hp : p ((stop + k) % n) = true
    · rw [if_pos hp] at h
      have hi : (stop + k) % n = i := Option.some.inj (Option.some.inj h)
      exact ⟨k, Nat.le_refl k, hk, hi.symm, fun m hkm hmk => by omega⟩
    · rw [if_neg hp] at h
      by_cases hback : ((stop + k) % n + 1) % n = stop
      · simp [hback] at h
      · have hmore : k + 1 ≠ n := fun hn => hback ((ring_succ_eq_stop_iff hstop hk1 hk).mpr hn)
        rw [if_neg hback, Nat.mod_add_mod, Nat.add_assoc] at h
        obtain ⟨j, hkj, hj, hij, hfirst⟩ := ih (k + 1) (by omega) (by omega) h
        refine ⟨j, by omega, hj, hij, fun m hkm hmj => ?_⟩
        rcases Nat.eq_or_lt_of_le hkm with rfl | hlt
        · simpa using hp
        · exact hfirst m hlt hmj

/-! ## Distance along the ring -/

/-- How many steps forward from `a` lead to `b`. -/
def ringDist (n a b : Nat) : Nat := (b + n - a) % n

theorem ringDist_lt (hn : 0 < n) (a b : Nat) : ringDist n a b < n := Nat.mod_lt _ hn

/-- Going `k` of the `d` steps leaves `d - k`. -/
theorem ringDist_advance (ha : a < n) (hkd : k ≤ d) (hd : d < n) :
    ringDist n ((a + k) % n) ((a + d) % n) = d - k := by
  have hmod (x : Nat) (hx : x < n + n) : x % n = if x < n then x else x - n := by
    split
    · exact Nat.mod_eq_of_lt ‹_›
    · rw [Nat.mod_eq_sub_mod (by omega), Nat.mod_eq_of_lt (by omega)]
  have hk := hmod (a + k) (by omega)
  have hd' := hmod (a + d) (by omega)
  have hlt := Nat.mod_lt (a + d) (show n > 0 by omega)
  unfold ringDist
  rw [hmod _ (by omega), hk, hd']
  split_ifs <;> omega

theorem ringDist_offset (ha : a < n) (hd : d < n) : ringDist n a ((a + d) % n) = d := by
  have h := ringDist_advance ha (Nat.zero_le d) hd
  rwa [Nat.add_zero, Nat.mod_eq_of_lt ha, Nat.sub_zero] at h

/-- Two different indices are apart. -/
theorem ringDist_pos {b : Nat} (ha : a < n) (hb : b < n) (hne : b ≠ a) : 0 < ringDist n a b := by
  obtain ⟨k, hk1, hk, rfl⟩ := exists_ring_offset ha hb hne
  rw [ringDist_offset ha hk]
  exact hk1

/-- A round that finds an index other than the match `t` has come closer to `t`. -/
theorem ringScan_closer (hstop : stop < n) (hn : 2 ≤ n) {t : Nat}
    (h : ringScan p n stop n ((stop + 1) % n) = some (some i)) (ht : t < n) (hpt : p t = true)
    (hts : t ≠ stop) (hit : i ≠ t) : ringDist n i t < ringDist n stop t := by
  obtain ⟨d, hd1, hd, rfl⟩ := exists_ring_offset hstop ht hts
  obtain ⟨j, hj1, hj, rfl, hfirst⟩ := ringScan_first hstop n 1 (by omega) (by omega) h
  have hjd : j ≤ d := by grind
  rw [ringDist_advance hstop hjd hd, ringDist_offset hstop hd]
  omega

end Lockjaw.Lib
