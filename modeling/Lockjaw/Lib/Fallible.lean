/-
  Lockjaw.Lib.Fallible

  Computations over a mutable state that end in one of three ways: they
  return a value, they fail with an error (and the state keeps what was
  written before the failure), or they stop the whole machine.

  `Outcome.Sat Q E C` is the postcondition of such a computation: `Q` for a
  return, `E` for an error, `C` for a stop.  The `sat_*` lemmas push it through
  the primitives and through `>>=`; a loop over a list is handled by
  `forEach_sat`, whose invariant speaks of the elements still to come.
-/

import Mathlib.Data.List.Basic

namespace Lockjaw.Lib

/-- How a computation over `σ` ends. -/
inductive Outcome (σ ε π α : Type) where
  | ok (a : α) (s : σ)
  | err (e : ε) (s : σ)
  | stop (p : π)

/-- A computation over `σ` with errors `ε` and fatal stops `π`. -/
def Fallible (σ ε π α : Type) : Type := σ → Outcome σ ε π α

variable {σ ε π α β : Type}

namespace Outcome

/-- Continue with `k` after a return. -/
def andThen (o : Outcome σ ε π α) (k : α → Fallible σ ε π β) : Outcome σ ε π β :=
  match o with
  | .ok a s => k a s
  | .err e s => .err e s
  | .stop p => .stop p

/-- Postcondition: `Q` on a return, `E` on an error, `C` on a stop. -/
def Sat (Q : α → σ → Prop) (E : ε → σ → Prop) (C : π → Prop) : Outcome σ ε π α → Prop
  | .ok a s => Q a s
  | .err e s => E e s
  | .stop p => C p

instance {Q : α → σ → Prop} {E : ε → σ → Prop} {C : π → Prop} [∀ a s, Decidable (Q a s)]
    [∀ e s, Decidable (E e s)] [∀ p, Decidable (C p)] (o : Outcome σ ε π α) :
    Decidable (o.Sat Q E C) :=
  match o with
  | .ok a s => inferInstanceAs (Decidable (Q a s))
  | .err e s => inferInstanceAs (Decidable (E e s))
  | .stop p => inferInstanceAs (Decidable (C p))

variable {Q Q' : α → σ → Prop} {E E' : ε → σ → Prop} {C C' : π → Prop} {o : Outcome σ ε π α}

theorem Sat.mono (h : o.Sat Q E C) (hQ : ∀ a s, Q a s → Q' a s)
    (hE : ∀ e s, E e s → E' e s) (hC : ∀ p, C p → C' p) : o.Sat Q' E' C' := by
  cases o with
  | ok a s => exact hQ a s h
  | err e s => exact hE e s h
  | stop p => exact hC p h

/-- Two postconditions of the same run hold together. -/
theorem Sat.and (h : o.Sat Q E C) (h' : o.Sat Q' E' C') :
    o.Sat (fun a s => Q a s ∧ Q' a s) (fun e s => E e s ∧ E' e s) (fun p => C p ∧ C' p) := by
  cases o with
  | ok a s => exact ⟨h, h'⟩
  | err e s => exact ⟨h, h'⟩
  | stop p => exact ⟨h, h'⟩

end Outcome

namespace Fallible

instance {Q : σ → Prop} [DecidablePred Q] [DecidableEq α] (m : Fallible σ ε π α) (s : σ) (a : α) :
    Decidable (∃ s', m s = .ok a s' ∧ Q s') :=
  match m s with
  | .ok a' s' => decidable_of_iff (a' = a ∧ Q s') (by simp)
  | .err _ _ | .stop _ => isFalse (by simp)

instance : Monad (Fallible σ ε π) where
  pure a := fun s => .ok a s
  bind m k := fun s => (m s).andThen k

/-- Read a part of the state. -/
def read (f : σ → α) : Fallible σ ε π α := fun s => .ok (f s) s

/-- Write the state. -/
def modify (f : σ → σ) : Fallible σ ε π Unit := fun s => .ok () (f s)

/-- Return an error, keeping the state. -/
def fail (e : ε) : Fallible σ ε π α := fun s => .err e s

/-- Stop the machine. -/
def stop (p : π) : Fallible σ ε π α := fun _ => .stop p

/-- A pure computation with errors. -/
def ofExcept : Except ε α → Fallible σ ε π α
  | .ok a => pure a
  | .error e => fail e

/-- The value of an option, or an error. -/
def orFail (o : Option α) (e : ε) : Fallible σ ε π α :=
  match o with
  | some a => pure a
  | none => fail e

def orStop (o : Option α) (p : π) : Fallible σ ε π α :=
  match o with
  | some a => pure a
  | none => stop p

/-- Translate the errors of a computation. -/
def mapErr {ε' : Type} (f : ε → ε') (m : Fallible σ ε π α) : Fallible σ ε' π α := fun s =>
  match m s with
  | .ok a s => .ok a s
  | .err e s => .err (f e) s
  | .stop p => .stop p

/-- Run `f` on each element, from the left. -/
def forEach (f : α → Fallible σ ε π Unit) : List α → Fallible σ ε π Unit
  | [] => pure ()
  | a :: as => do f a; forEach f as

end Fallible

open Fallible

section Rules

variable {Q : α → σ → Prop} {E : ε → σ → Prop} {C : π → Prop} {s : σ}

@[simp] theorem pure_apply (a : α) : (pure a : Fallible σ ε π α) s = .ok a s := rfl

@[simp] theorem bind_apply (m : Fallible σ ε π α) (k : α → Fallible σ ε π β) :
    (m >>= k) s = (m s).andThen k := rfl

@[simp] theorem read_apply (f : σ → α) : (read f : Fallible σ ε π α) s = .ok (f s) s := rfl

@[simp] theorem modify_apply (f : σ → σ) : (modify f : Fallible σ ε π Unit) s = .ok () (f s) := rfl

@[simp] theorem fail_apply (e : ε) : (fail e : Fallible σ ε π α) s = .err e s := rfl

@[simp] theorem stop_apply (p : π) : (stop p : Fallible σ ε π α) s = .stop p := rfl

@[simp] theorem ofExcept_ok_apply (a : α) : (ofExcept (.ok a) : Fallible σ ε π α) s = .ok a s := rfl

@[simp] theorem orFail_some_apply (a : α) (e : ε) :
    (orFail (some a) e : Fallible σ ε π α) s = .ok a s := rfl

@[simp] theorem orStop_some_apply (a : α) (p : π) :
    (orStop (some a) p : Fallible σ ε π α) s = .ok a s := rfl

@[simp] theorem andThen_ok (a : α) (k : α → Fallible σ ε π β) :
    (Outcome.ok a s : Outcome σ ε π α).andThen k = k a s := rfl

@[simp] theorem andThen_err (e : ε) (k : α → Fallible σ ε π β) :
    (Outcome.err e s : Outcome σ ε π α).andThen k = .err e s := rfl

@[simp] theorem andThen_stop (p : π) (k : α → Fallible σ ε π β) :
    (Outcome.stop p : Outcome σ ε π α).andThen k = .stop p := rfl

@[simp] theorem sat_ok (a : α) : (Outcome.ok a s : Outcome σ ε π α).Sat Q E C ↔ Q a s := Iff.rfl

@[simp] theorem sat_err (e : ε) : (Outcome.err e s : Outcome σ ε π α).Sat Q E C ↔ E e s := Iff.rfl

@[simp] theorem sat_stop (p : π) : (Outcome.stop p : Outcome σ ε π α).Sat Q E C ↔ C p := Iff.rfl

variable {R : β → σ → Prop} {k : α → Fallible σ ε π β} {m : Fallible σ ε π α}

/-- Sequencing: the first part's return postcondition is that the rest meets the goal. -/
theorem Outcome.Sat.andThen {o : Outcome σ ε π α}
    (h : o.Sat (fun a s => (k a s).Sat R E C) E C) : (o.andThen k).Sat R E C := by
  cases o with
  | ok a s => exact h
  | err e s => exact h
  | stop p => exact h

/-- Sequencing at a `do` block. -/
theorem bind_sat (h : (m s).Sat (fun a s => (k a s).Sat R E C) E C) : ((m >>= k) s).Sat R E C :=
  Outcome.Sat.andThen h

/-- Where nothing is asked of a failure, only the last step counts. -/
theorem bind_sat_any (h : ∀ a s, (k a s).Sat R (fun _ _ => True) fun _ => True) :
    ((m >>= k) s).Sat R (fun _ _ => True) fun _ => True := by
  apply bind_sat
  cases m s with
  | ok a s' => exact h a s'
  | err | stop => trivial

/-- Both parts of a sequence that returns have returned. -/
theorem bind_eq_ok {b : β} {s' : σ}
    (h : (m >>= k) s = .ok b s') : ∃ a s1, m s = .ok a s1 ∧ k a s1 = .ok b s' := by
  rw [bind_apply] at h
  cases hm : m s with
  | ok a s1 =>
    rw [hm] at h
    exact ⟨a, s1, rfl, h⟩
  | err e s1 =>
    rw [hm] at h
    cases h
  | stop p =>
    rw [hm] at h
    cases h

end Rules

/-! ## Computations that leave the state alone -/

/-- `m` leaves state `s` as it is, whether it returns or fails; what it returns
    meets `Q`, and it stops only in `C`. -/
def Keeps (s : σ) (m : Fallible σ ε π α) (Q : α → Prop) (C : π → Prop) : Prop :=
  (m s).Sat (fun a s' => s' = s ∧ Q a) (fun _ s' => s' = s) C

namespace Keeps

variable {ε' : Type} {s : σ} {m : Fallible σ ε π α} {Q : α → Prop} {C : π → Prop}

theorem pure {a : α} (h : Q a) : Keeps s (Pure.pure a : Fallible σ ε π α) Q C := ⟨rfl, h⟩

theorem fail {e : ε} : Keeps s (Fallible.fail e : Fallible σ ε π α) Q C := rfl

theorem stop {p : π} (h : C p) : Keeps s (Fallible.stop p : Fallible σ ε π α) Q C := h

variable {Q' : α → Prop} {k : α → Fallible σ ε π β}

theorem mono {C' : π → Prop} (h : Keeps s m Q C) (hQ : ∀ a, Q a → Q' a)
    (hC : ∀ p, C p → C' p) : Keeps s m Q' C' :=
  Outcome.Sat.mono h (fun a _ ⟨hs, hq⟩ => ⟨hs, hQ a hq⟩) (fun _ _ hs => hs) hC

/-- Two things established of the same run, the second whatever stops it. -/
theorem and (h : Keeps s m Q C) (h' : Keeps s m Q' fun _ => True) :
    Keeps s m (fun a => Q a ∧ Q' a) C :=
  (Outcome.Sat.and h h').mono (fun _ _ ⟨h1, h2⟩ => ⟨h1.1, h1.2, h2.2⟩) (fun _ _ h => h.1)
    fun _ h => h.1

theorem bind {Q' : β → Prop} (h : Keeps s m Q C)
    (hk : ∀ a, Q a → Keeps s (k a) Q' C) : Keeps s (m >>= k) Q' C := by
  apply bind_sat
  refine Outcome.Sat.mono h ?_ (fun _ _ hs => hs) (fun _ hp => hp)
  rintro a _ ⟨rfl, hq⟩
  exact hk a hq

/-- A first part with a known return. -/
theorem bind_ok {Q' : β → Prop} {a : α} (heq : m s = .ok a s)
    (hk : Keeps s (k a) Q' C) : Keeps s (m >>= k) Q' C := by
  rw [Keeps, bind_apply, heq]
  exact hk

theorem bind_orFail {o : Option β} {e : ε} {k : β → Fallible σ ε π α}
    (hk : ∀ b, o = some b → Keeps s (k b) Q C) : Keeps s (orFail o e >>= k) Q C := by
  cases o with
  | some b => exact hk b rfl
  | none => exact fail

theorem mapErr {m : Fallible σ ε' π α} {f : ε' → ε} (h : Keeps s m Q C) :
    Keeps s (Fallible.mapErr f m) Q C := by
  unfold Keeps Fallible.mapErr at *
  cases hm : m s with
  | ok a s' => rw [hm] at h; exact h
  | err e s' => rw [hm] at h; exact h
  | stop p => rw [hm] at h; exact h

/-- The three ways such a computation ends. -/
theorem cases (h : Keeps s m Q C) :
    (∃ a, m s = .ok a s ∧ Q a) ∨ (∃ e, m s = .err e s) ∨ ∃ p, m s = .stop p ∧ C p := by
  unfold Keeps at h
  cases hm : m s with
  | ok a s' =>
    rw [hm] at h
    obtain ⟨rfl, hq⟩ := h
    exact .inl ⟨a, rfl, hq⟩
  | err e s' =>
    rw [hm] at h
    cases (show s' = s from h)
    exact .inr (.inl ⟨e, rfl⟩)
  | stop p =>
    rw [hm] at h
    exact .inr (.inr ⟨p, rfl, h⟩)

end Keeps

end Lockjaw.Lib
