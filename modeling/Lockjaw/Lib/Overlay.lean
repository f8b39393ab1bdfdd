/-
  Lockjaw.Lib.Overlay

  A finite map written over by a list of entries, where a later entry for a key
  supersedes an earlier one.  `overlay_flatMap` is the rule for entries that come
  in groups: what stands under a key is the last group's that has the key.
-/

import Mathlib.Data.List.Induction

namespace Lockjaw.Lib

variable {κ β γ : Type*} [DecidableEq κ]

/-- `m` after the entries, in order. -/
def overlay (m : κ → Option β) : List (κ × β) → κ → Option β
  | [] => m
  | (k, b) :: rest => overlay (fun k' => if k' = k then some b else m k') rest

variable {m : κ → Option β} {entries : List (κ × β)} {k : κ} {b : β}

theorem overlay_append (entries' : List (κ × β)) :
    overlay m (entries ++ entries') = overlay (overlay m entries) entries' := by
  induction entries generalizing m with
  | nil => rfl
  | cons e rest ih => exact ih

theorem overlay_of_not_key (h : ∀ b, (k, b) ∉ entries) : overlay m entries k = m k := by
  induction entries generalizing m with
  | nil => rfl
  | cons e rest ih =>
    have hne : k ≠ e.1 := by
      rintro rfl
      exact h e.2 List.mem_cons_self
    unfold overlay
    rw [ih fun b hb => h b (List.mem_cons_of_mem _ hb), if_neg hne]

/-- Entries that agree on a key leave their common value there. -/
theorem overlay_of_key (h : (k, b) ∈ entries) (huniq : ∀ b', (k, b') ∈ entries → b' = b) :
    overlay m entries k = some b := by
  induction entries generalizing m with
  | nil => cases h
  | cons e rest ih =>
    unfold overlay
    grind [overlay_of_not_key]

/-- Each group `g` has the keys that `has g` says, and under them what `value g` says. -/
theorem overlay_flatMap (group : γ → List (κ × β)) (has : γ → κ → Bool) (value : γ → κ → β)
    (hgroup : ∀ g k b, (k, b) ∈ group g ↔ has g k = true ∧ b = value g k) (gs : List γ) (k : κ) :
    overlay m (gs.flatMap group) k =
      match (gs.filter (has · k)).getLast? with
      | some g => some (value g k)
      | none => m k := by
  induction gs using List.reverseRecOn with
  | nil => rfl
  | append_singleton gs g ih =>
    rw [List.flatMap_append, overlay_append, List.filter_append, List.flatMap_singleton]
    cases hg : has g k with
    | true =>
      have hkeep : [g].filter (has · k) = [g] := by simp [hg]
      rw [hkeep, List.getLast?_concat]
      exact overlay_of_key ((hgroup g k _).mpr ⟨hg, rfl⟩) fun b hb => ((hgroup g k b).mp hb).2
    | false =>
      have hdrop : [g].filter (has · k) = [] := by simp [hg]
      rw [hdrop, List.append_nil, overlay_of_not_key fun b hb => ?_, ih]
      have hhas := ((hgroup g k b).mp hb).1
      simp [hg] at hhas

end Lockjaw.Lib
