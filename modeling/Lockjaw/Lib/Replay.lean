/-
  Lockjaw.Lib.Replay

  Runs of an executable machine that are given by their actions.  `replay`
  takes the actions one after the other; what holds at the start and is kept by
  every enabled action that returns holds where the replay ends, so a decidable
  property of some run is settled by evaluating one.  `Guarded` is for machines
  whose actions always return: each comes in a state that allows it.
-/

import Mathlib.Logic.Basic

namespace Lockjaw.Lib

variable {σ α ε : Type}

/-- The state after the actions, if each is enabled in its turn and returns. -/
def replay (enabled : σ → α → Bool) (next : σ → α → Option σ) (x : σ) : List α → Option σ
  | [] => some x
  | a :: acts => if enabled x a then (next x a).bind (replay enabled next · acts) else none

variable {enabled : σ → α → Bool} {next : σ → α → Option σ} {R Q : σ → Prop}

theorem replay_keeps (hstep : ∀ x y a, R x → enabled x a = true → next x a = some y → R y)
    {acts : List α} {x y : σ} (hx : R x) (h : replay enabled next x acts = some y) : R y := by
  induction acts generalizing x with
  | nil =>
    cases h
    exact hx
  | cons a acts ih =>
    rw [replay] at h
    split at h
    · obtain ⟨z, hz, hrest⟩ := Option.bind_eq_some_iff.mp h
      exact ih (hstep x z a hx ‹_› hz) hrest
    · cases h

theorem exists_of_replay (acts : List α) {x : σ} (hx : R x)
    (hstep : ∀ x y a, R x → enabled x a = true → next x a = some y → R y)
    (h : ∃ y ∈ replay enabled next x acts, Q y) : ∃ y, R y ∧ Q y := by
  obtain ⟨y, hy, hq⟩ := h
  exact ⟨y, replay_keeps hstep hx hy, hq⟩

/-! ## Actions that always return -/

/-- Every action is allowed in the state it is taken in. -/
def Guarded (next : σ → α → σ) (ok : σ → α → Prop) : σ → List α → Prop
  | _, [] => True
  | x, a :: acts => ok x a ∧ Guarded next ok (next x a) acts

instance decidableGuarded {next : σ → α → σ} {ok : σ → α → Prop} [∀ x a, Decidable (ok x a)] :
    (x : σ) → (acts : List α) → Decidable (Guarded next ok x acts)
  | _, [] => inferInstanceAs (Decidable True)
  | x, a :: acts =>
    have : Decidable (Guarded next ok (next x a) acts) := decidableGuarded (next x a) acts
    inferInstanceAs (Decidable (_ ∧ _))

theorem guarded_append {next : σ → α → σ} {ok : σ → α → Prop} {x : σ} {acts acts' : List α} :
    Guarded next ok x (acts ++ acts') ↔
      Guarded next ok x acts ∧ Guarded next ok (acts.foldl next x) acts' := by
  induction acts generalizing x with
  | nil => exact (iff_of_eq (true_and _)).symm
  | cons a acts ih => exact (and_congr_right' ih).trans and_assoc.symm

section

variable {next : σ → α → σ} {ok : σ → α → Prop} {W : σ → Prop} {x : σ} {acts : List α}
  (hback : ∀ x a, ok x a → W (next x a) → W x)
include hback

theorem Guarded.within (h : Guarded next ok x acts) (hw : W (acts.foldl next x)) : W x := by
  induction acts generalizing x with
  | nil => exact hw
  | cons a acts ih => exact hback x a h.1 (ih h.2 hw)

/-- What allowed actions keep within a bound that is never left for good holds in the end. -/
theorem Guarded.keeps (hstep : ∀ x a, R x → ok x a → W (next x a) → R (next x a))
    (h : Guarded next ok x acts) (hx : R x) (hw : W (acts.foldl next x)) :
    R (acts.foldl next x) := by
  induction acts generalizing x with
  | nil => exact hx
  | cons a acts ih => exact ih h.2 (hstep x a hx h.1 (h.2.within hback hw)) hw

end

/-! ## What can be seen of a result -/

theorem ok_of_toOption {r : Except ε α} {a : α} (h : r.toOption = some a) : r = .ok a := by
  cases r with
  | ok b =>
    cases h
    rfl
  | error e => cases h

instance decidableExistsSome {p : α → Prop} [DecidablePred p] (o : Option α) :
    Decidable (∃ a, o = some a ∧ p a) := inferInstanceAs (Decidable (∃ a ∈ o, p a))

instance decidableExistsOk {p : α → Prop} [DecidablePred p] (r : Except ε α) :
    Decidable (∃ a, r = .ok a ∧ p a) :=
  match r with
  | .ok a => decidable_of_iff (p a) (by simp)
  | .error _ => isFalse (by simp)

instance decidableEqError [DecidableEq ε] (r : Except ε α) (e : ε) : Decidable (r = .error e) :=
  match r with
  | .ok _ => isFalse (by simp)
  | .error e' => decidable_of_iff (e' = e) (by simp)

end Lockjaw.Lib
