/-
  Lockjaw.Wait.Deadline

  How the deadlines of `sys_wait_any` are built
  (`lockjaw-types/src/time.rs`: `deadline_in`, `ticks_to_nanos`,
  `nanos_to_ticks`).

  The `u128` intermediates are natural numbers.  `satMul128` cuts the products
  as the code does; `mul_toNat_le` shows that they never need it, and that the
  sum of the round-up does not overflow.
-/

import Lockjaw.Wait.Safety
import Mathlib.Order.Bounds.Basic

namespace Lockjaw.Wait

def nsPerSec : Nat := 1000000000

/-- `u128::saturating_mul`. -/
def satMul128 (a b : Nat) : Nat := min (a * b) (2 ^ 128 - 1)

/-- A `u128` result cut to `u64`, saturating. -/
def clamp64 (x : Nat) : UInt64 := if 2 ^ 64 - 1 < x then UInt64.ofNat (2 ^ 64 - 1) else .ofNat x

/-- Ticks to nanoseconds, rounded down. -/
def ticksToNanos (ticks freq : UInt64) : UInt64 :=
  if freq = 0 then 0 else clamp64 (satMul128 ticks.toNat nsPerSec / freq.toNat)

/-- Nanoseconds to ticks, rounded up. -/
def nanosToTicks (nanos freq : UInt64) : UInt64 :=
  if freq = 0 then 0
  else clamp64 ((satMul128 nanos.toNat freq.toNat + nsPerSec - 1) / nsPerSec)

/-- `MonoTicks::deadline_in`: `u64::MAX` stays reserved for the sentinel. -/
def deadlineIn (start nanos freq : UInt64) : UInt64 :=
  let raw := clamp64 (start.toNat + (nanosToTicks nanos freq).toNat)
  if raw = noDeadline then noDeadline - 1 else raw

/-- The deadline saturates: the tick it asks for is not below the sentinel. -/
def Saturates (start nanos freq : UInt64) : Prop :=
  2 ^ 64 - 1 ≤ start.toNat + (nanos.toNat * freq.toNat + nsPerSec - 1) / nsPerSec

variable {start nanos freq t : UInt64}

@[simp] theorem clamp64_toNat (x : Nat) : (clamp64 x).toNat = min x (2 ^ 64 - 1) := by
  unfold clamp64
  split
  · rw [UInt64.toNat_ofNat']
    omega
  · rw [UInt64.toNat_ofNat', Nat.mod_eq_of_lt (by omega)]
    omega

/-- The products of the two conversions fit `u128`, with room for the round-up. -/
theorem mul_toNat_le (a b : UInt64) : a.toNat * b.toNat + nsPerSec ≤ 2 ^ 128 - 1 := by
  have hprod : a.toNat * b.toNat ≤ (2 ^ 64 - 1) * (2 ^ 64 - 1) :=
    Nat.mul_le_mul (Nat.le_pred_of_lt a.toNat_lt) (Nat.le_pred_of_lt b.toNat_lt)
  unfold nsPerSec
  omega

theorem nanosToTicks_toNat (hfreq : freq ≠ 0) : (nanosToTicks nanos freq).toNat =
    min ((nanos.toNat * freq.toNat + nsPerSec - 1) / nsPerSec) (2 ^ 64 - 1) := by
  have hfit : nanos.toNat * freq.toNat ≤ 2 ^ 128 - 1 :=
    Nat.le_of_add_right_le (mul_toNat_le nanos freq)
  rw [nanosToTicks, if_neg hfreq, clamp64_toNat, satMul128, Nat.min_eq_left hfit]

/-- Rounding down after enough ticks reaches the duration, and only then: the
    saturation at `u64::MAX` does not matter, since no duration exceeds it. -/
theorem le_ticksToNanos_iff (hfreq : freq ≠ 0) : nanos ≤ ticksToNanos t freq ↔
    (nanos.toNat * freq.toNat + nsPerSec - 1) / nsPerSec ≤ t.toNat := by
  have hpos : 0 < freq.toNat := Nat.pos_of_ne_zero fun h => hfreq (UInt64.toNat_inj.mp h)
  have hfit : t.toNat * nsPerSec ≤ 2 ^ 128 - 1 := by
    have := t.toNat_lt
    unfold nsPerSec
    omega
  have hmax : nanos.toNat ≤ 2 ^ 64 - 1 := Nat.le_pred_of_lt nanos.toNat_lt
  rw [UInt64.le_iff_toNat_le, ticksToNanos, if_neg hfreq, clamp64_toNat, satMul128,
    Nat.min_eq_left hfit, Nat.le_min, Nat.le_div_iff_mul_le hpos]
  generalize nanos.toNat * freq.toNat = prod
  unfold nsPerSec
  omega

/-- Without saturation the deadline is the start plus the rounded-up ticks. -/
theorem deadlineIn_toNat (hfreq : freq ≠ 0) (hsat : ¬ Saturates start nanos freq) :
    (deadlineIn start nanos freq).toNat =
      start.toNat + (nanos.toNat * freq.toNat + nsPerSec - 1) / nsPerSec := by
  unfold Saturates at hsat
  have hraw : (clamp64 (start.toNat + (nanosToTicks nanos freq).toNat)).toNat =
      start.toNat + (nanos.toNat * freq.toNat + nsPerSec - 1) / nsPerSec := by
    rw [clamp64_toNat, nanosToTicks_toNat hfreq]
    omega
  have hne : clamp64 (start.toNat + (nanosToTicks nanos freq).toNat) ≠ noDeadline := by
    intro h
    have hmax : noDeadline.toNat = 2 ^ 64 - 1 := rfl
    rw [h] at hraw
    omega
  rw [deadlineIn, if_neg hne, hraw]

/-- No deadline, saturated or not, is the sentinel. -/
theorem deadlineIn_ne : deadlineIn start nanos freq ≠ noDeadline := by
  unfold deadlineIn
  dsimp only
  split
  · decide
  · assumption

/-- A deadline that did not saturate is the first tick at which the elapsed
    ticks amount to the duration; it is a real deadline, not before the start. -/
theorem deadlineIn_least (start nanos freq : UInt64) (hfreq : freq ≠ 0)
    (hsat : ¬ Saturates start nanos freq) :
    IsLeast {t | start ≤ t ∧ nanos ≤ ticksToNanos (t - start) freq}
      (deadlineIn start nanos freq) ∧
    deadlineIn start nanos freq ≠ noDeadline ∧ start ≤ deadlineIn start nanos freq := by
  have hd := deadlineIn_toNat hfreq hsat
  have hstart : start ≤ deadlineIn start nanos freq := by
    rw [UInt64.le_iff_toNat_le, hd]
    exact Nat.le_add_right _ _
  refine ⟨⟨⟨hstart, ?_⟩, ?_⟩, deadlineIn_ne, hstart⟩
  · rw [le_ticksToNanos_iff hfreq, UInt64.toNat_sub_of_le _ _ hstart]
    omega
  · rintro t ⟨hle, hnanos⟩
    rw [le_ticksToNanos_iff hfreq, UInt64.toNat_sub_of_le _ _ hle] at hnanos
    rw [UInt64.le_iff_toNat_le] at hle ⊢
    omega

/-- One microsecond at a frequency that does not divide a second. -/
theorem deadlineIn_least_micro : deadlineIn 100 1000 54000001 = 155 ∧
    IsLeast {t | 100 ≤ t ∧ 1000 ≤ ticksToNanos (t - 100) 54000001} (155 : UInt64) :=
  ⟨by decide, (deadlineIn_least 100 1000 54000001 (by decide) (by unfold Saturates; decide)).1⟩

/-- In every run, a tick leaves a thread that sleeps until `deadline_in` asleep exactly while its
    duration is not over. -/
theorem tick_wakes_after_duration {x : Sys} {P : Sys → Sys.Action → Prop} (hrun : x.Run P)
    {u : Ipc.Kva} (hasleep : x.toKernel.Blocked u) (hfreq : freq ≠ 0)
    (hsat : ¬ Saturates start nanos freq)
    (hdeadline : (x.wait u).waitDeadline = deadlineIn start nanos freq) (hle : start ≤ t)
    (cpu : Fin Sched.maxCpus) : ∃ x', x.handleTick cpu t = .ok x' ∧
      (x'.toKernel.Blocked u ↔ ticksToNanos (t - start) freq < nanos) := by
  obtain ⟨a, hinv⟩ := hrun.inv
  obtain ⟨x', htick, -, -, hticked, -⟩ := hinv.handleTick cpu t
  have hstart := UInt64.le_iff_toNat_le.mp hle
  have hiff : nanos ≤ ticksToNanos (t - start) freq ↔ deadlineIn start nanos freq ≤ t := by
    rw [le_ticksToNanos_iff hfreq, UInt64.toNat_sub_of_le _ _ hle, UInt64.le_iff_toNat_le,
      deadlineIn_toNat hfreq hsat]
    omega
  refine ⟨x', htick, (hticked.blocked u).trans ?_⟩
  rw [hdeadline, hasExpired, if_neg deadlineIn_ne, decide_eq_false_iff_not, ← hiff, UInt64.not_le]
  exact and_iff_right hasleep

/-- A thread that waits for a microsecond is woken by the tick at its end. -/
theorem tick_wakes_after_duration_micro : ∃ x x' : Sys, x.toKernel.Blocked 1 ∧
    x.handleTick 0 155 = .ok x' ∧ ¬ x'.toKernel.Blocked 1 := by
  obtain ⟨x, hrun, hasleep, hdeadline⟩ := Sys.exists_run
    [.kernel (.addThread 1), .waitAny 0 [.notification 10 1] (deadlineIn 100 1000 54000001) 100]
    (Q := fun x => x.toKernel.Blocked 1 ∧ (x.wait 1).waitDeadline = deadlineIn 100 1000 54000001)
    (by decide +kernel)
  obtain ⟨x', htick, hiff⟩ := tick_wakes_after_duration hrun hasleep (by decide)
    (by unfold Saturates; decide) hdeadline (t := 155) (by decide) 0
  exact ⟨x, x', hasleep, htick, fun h => absurd (hiff.mp h) (by decide)⟩

end Lockjaw.Wait
