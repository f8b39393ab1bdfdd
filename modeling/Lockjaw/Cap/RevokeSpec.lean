/-
  Lockjaw.Cap.RevokeSpec

  What the two revocation walks compute.

  The validate walk is read-only and succeeds exactly when every recorded
  mapping of the header is present in its page table and the counters agree.
  The apply walk empties the same slots; it clears the recorded ranges one
  after the other, so it succeeds exactly when no two recorded ranges of one
  process overlap, and stops in `clear_validated_pte` otherwise.
-/

import Lockjaw.Cap.Revoke

namespace Lockjaw.Cap

open Lib Lib.Fallible Cap.System List
open AddressSpace (SameTables vaPages)

/-! ## The live processes -/

theorem mem_uniqueFrom {p : ProcKva} (ts : List (Option Tcb)) :
    ∀ visited, p ∈ uniqueFrom visited ts ↔
      p ∉ visited ∧ ∃ t, some t ∈ ts ∧ t.process = some p := by
  induction ts with
  | nil => intro visited; simp [uniqueFrom]
  | cons t ts ih =>
    intro visited
    cases t with
    | none => simp [uniqueFrom, ih]
    | some t =>
      rw [uniqueFrom]
      cases hp : t.process with
      | none =>
        rw [ih]
        grind
      | some q =>
        dsimp only
        by_cases hq : q ∈ visited
        · rw [if_pos hq, ih]
          grind
        · rw [if_neg hq, mem_cons, ih]
          grind

theorem nodup_uniqueFrom (ts : List (Option Tcb)) : ∀ visited, (uniqueFrom visited ts).Nodup := by
  induction ts with
  | nil => intro visited; exact nodup_nil
  | cons t ts ih =>
    intro visited
    cases t with
    | none => exact ih visited
    | some t => grind [mem_uniqueFrom, uniqueFrom]

namespace System

variable {s : System} {p : ProcKva}

/-- A process is live when a registered thread belongs to it. -/
theorem mem_uniqueProcesses :
    p ∈ s.uniqueProcesses ↔ ∃ t, some t ∈ s.threads ∧ t.process = some p := by
  simp [uniqueProcesses, mem_uniqueFrom]

theorem nodup_uniqueProcesses : s.uniqueProcesses.Nodup := nodup_uniqueFrom _ _

end System

/-! ## What the slots of a table record -/

/-- The visits of a walk over `slots` for header `h`. -/
def visits (h : HeaderKva) (p : ProcKva) : Nat → List HandleEntry → List SlotVisit
  | _, [] => []
  | i, e :: es =>
    match e.kind with
    | .pageSet kva va =>
      if kva ≠ h then visits h p (i + 1) es else ⟨p, i, va⟩ :: visits h p (i + 1) es
    | _ => visits h p (i + 1) es

/-- First pages of the ranges at which slots record a mapping of `h`. -/
def rangesOf (h : HeaderKva) (slots : List HandleEntry) : List Nat :=
  slots.filterMap fun e =>
    match e.kind with
    | .pageSet kva va => if kva = h ∧ va ≠ 0#32 then some va.toNat else none
    | _ => none

/-- The table without the slots naming `h`. -/
def eraseHeader (h : HeaderKva) (slots : List HandleEntry) : List HandleEntry :=
  slots.map fun e => if e.names h then HandleEntry.EMPTY else e

/-- A slot as the walks for `h` see it: passed over, unmapped, or mapped. -/
inductive SlotView (h : HeaderKva) (e : HandleEntry) : Prop where
  | other (hn : e.names h = false) (hm : e.maps h = false)
      (hv : ∀ p i es, visits h p i (e :: es) = visits h p (i + 1) es)
      (hr : ∀ es, rangesOf h (e :: es) = rangesOf h es)
  | unmapped (hk : e.kind = .pageSet h 0#32) (hn : e.names h = true) (hm : e.maps h = false)
      (hr : ∀ es, rangesOf h (e :: es) = rangesOf h es)
  | mapped (va : VaPage) (hva : va ≠ 0#32) (hk : e.kind = .pageSet h va)
      (hn : e.names h = true) (hm : e.maps h = true)
      (hr : ∀ es, rangesOf h (e :: es) = va.toNat :: rangesOf h es)

theorem slotView (h : HeaderKva) (e : HandleEntry) : SlotView h e := by
  obtain ⟨r, k⟩ := e
  cases k with
  | pageSet kva va =>
    by_cases hk : kva = h
    · subst hk
      by_cases hva : va = 0#32
      · subst hva
        exact .unmapped rfl (by simp) (by simp) fun es => by simp [rangesOf]
      · exact .mapped va hva rfl (by simp) (by simpa using hva) fun es => by simp [rangesOf, hva]
    · exact .other (by simp [hk]) (by simp [hk]) (fun p i es => by simp [visits, hk])
        (fun es => by simp [rangesOf, hk])
  | _ => exact .other rfl rfl (fun _ _ _ => rfl) (fun _ => rfl)

variable {h : HeaderKva} {e : HandleEntry} {es : List HandleEntry}

theorem refsIn_cons : refsIn h (e :: es) = refsIn h es + (if e.names h then 1 else 0) :=
  countP_cons

theorem mapsIn_cons : mapsIn h (e :: es) = mapsIn h es + (if e.maps h then 1 else 0) :=
  countP_cons

theorem eraseHeader_cons :
    eraseHeader h (e :: es)
      = (if e.names h then HandleEntry.EMPTY else e) :: eraseHeader h es := rfl

theorem mem_rangesOf {v : Nat} {slots : List HandleEntry} :
    v ∈ rangesOf h slots ↔
      ∃ (i : Nat) (e : HandleEntry) (va : VaPage), slots[i]? = some e ∧ e.kind = .pageSet h va ∧
        va ≠ 0#32 ∧ va.toNat = v := by
  rw [rangesOf, mem_filterMap]
  constructor
  · grind [getElem?_of_mem]
  · rintro ⟨i, e, va, hi, hk, hva, rfl⟩
    exact ⟨e, mem_of_getElem? hi, by simp [hk, hva]⟩

/-- Every recorded mapping of `h` in `slots` is present in `sp`. -/
def AllMapped (h : HeaderKva) (pages : List PhysAddr) (sp : AddressSpace)
    (slots : List HandleEntry) : Prop :=
  ∀ v ∈ rangesOf h slots, sp.Mapped v pages

/-! ## The validate walk -/

section Validate

variable {s : System} {p : ProcKva} {P : Process} {ent : PageSetEntry}

def System.dataPages (s : System) (h : HeaderKva) (n : Nat) : List PhysAddr :=
  (range n).map (s.headers h).pages

theorem pagesSlice_eq (s : System) (h : HeaderKva) (n : Nat) :
    BackedHeader.pagesSlice ⟨s.headers h, n⟩ = s.dataPages h n := rfl

variable {ε : Type}

theorem readHeaderBacked_apply (he : s.entryOf h = some ent) :
    (readHeaderBacked h : Fallible System ε Panic _) s = .ok ⟨s.headers h, ent.count⟩ s := by
  simp [readHeaderBacked, he, orStop]

theorem getProcess_apply (hP : s.procs p = some P) :
    (getProcess p : Fallible System ε Panic _) s = .ok P s := by
  simp [getProcess, hP, orStop]

/-- The errors of a walk are failed range checks; counters are compared later. -/
def ValidateWalk.UnmapErrors (w : ValidateWalk) : Prop :=
  ∀ a b c d, w.firstError ≠ some (.accountingMismatch a b c d)

/-- One visit of a mapped slot checks its range. -/
theorem validateVisit_mapped (he : s.entryOf h = some ent) (i : Nat) {va : VaPage}
    (hva : va ≠ 0#32) (w : ValidateWalk) :
    ∃ w', validateVisit h p P i va w s = .ok w' s ∧
      w'.visited = w.visited ++ [⟨p, i, va⟩] ∧ w'.walkedRefcount = w.walkedRefcount + 1 ∧
      (w'.firstError = none ↔
        w.firstError = none ∧ P.space.Mapped va.toNat (s.dataPages h ent.count)) ∧
      (w'.firstError = none → w'.walkedMapCount = w.walkedMapCount + 1) ∧
      (w.UnmapErrors → w'.UnmapErrors) := by
  have hiff : P.space.validatePteMatch (va.toNat * pageSize) (s.dataPages h ent.count) = .ok () ↔
      P.space.Mapped va.toNat (s.dataPages h ent.count) := AddressSpace.validatePteMatch_ok_iff
  simp only [validateVisit, if_neg hva, bind_apply, readHeaderBacked_apply he, andThen_ok,
    BackedHeader.pagesSlice]
  unfold dataPages at hiff ⊢
  cases hval : P.space.validatePteMatch (va.toNat * pageSize)
      ((range ent.count).map (s.headers h).pages) with
  | error k =>
    refine ⟨_, rfl, rfl, rfl, ?_, (fun hc => by cases hc), fun _ a b c d hc => by cases hc⟩
    grind
  | ok u =>
    refine ⟨_, rfl, rfl, rfl, ?_, fun _ => rfl, fun hw => hw⟩
    rw [hval] at hiff
    exact ⟨fun hw => ⟨hw, hiff.mp rfl⟩, fun hw => hw.1⟩

theorem slotRevokeValidate_spec (he : s.entryOf h = some ent) (slots : List HandleEntry) :
    ∀ (i : Nat) (w : ValidateWalk), ∃ w', slotRevokeValidate h p P slots i w s = .ok w' s ∧
      w'.visited = w.visited ++ visits h p i slots ∧
      w'.walkedRefcount = w.walkedRefcount + refsIn h slots ∧
      (w'.firstError = none ↔
        w.firstError = none ∧ AllMapped h (s.dataPages h ent.count) P.space slots) ∧
      (w'.firstError = none → w'.walkedMapCount = w.walkedMapCount + mapsIn h slots) ∧
      (w.UnmapErrors → w'.UnmapErrors) := by
  induction slots with
  | nil =>
    intro i w
    exact ⟨w, rfl, by simp [visits], rfl, by simp [AllMapped, rangesOf], fun _ => rfl,
      fun hw => hw⟩
  | cons e es ih =>
    intro i w
    -- a slot that does not name `h`, an unmapped handle to it, a mapped one
    rcases slotView h e with ⟨hn, hm, hv, hr⟩ | ⟨hk, hn, hm, hr⟩ | ⟨va, hva, hk, hn, hm, hr⟩
    · obtain ⟨w', hrun, h1, h2, h3, h4, h5⟩ := ih (i + 1) w
      refine ⟨w', ?_, by rw [hv, h1], by rw [refsIn_cons, hn, h2]; rfl, ?_, ?_, h5⟩
      · rw [← hrun, slotRevokeValidate]
        obtain ⟨r, k⟩ := e
        cases k with
        | pageSet kva va =>
          have hne : kva ≠ h := by simpa using hn
          simp only [hne, ne_eq, not_false_eq_true, if_true]
        | _ => rfl
      · simp only [h3, AllMapped, hr]
      · rw [mapsIn_cons, hm]; exact h4
    · obtain ⟨w', hrun, h1, h2, h3, h4, h5⟩ := ih (i + 1)
        { w with visited := w.visited ++ [⟨p, i, 0#32⟩], walkedRefcount := w.walkedRefcount + 1 }
      refine ⟨w', ?_, ?_, ?_, ?_, ?_, h5⟩
      · rw [slotRevokeValidate]
        simp only [hk, ne_eq, not_true_eq_false, if_false, bind_apply, validateVisit, if_true,
          pure_apply, andThen_ok]
        exact hrun
      · rw [h1]; simp [visits, hk]
      · rw [h2, refsIn_cons, hn, if_pos rfl, Nat.add_comm (refsIn h es), ← Nat.add_assoc]
      · simp only [h3, AllMapped, hr]
      · rw [mapsIn_cons, hm]; exact h4
    · obtain ⟨w1, hrun1, g1, g2, g3, g4, g5⟩ := validateVisit_mapped (p := p) (P := P) he i hva w
      obtain ⟨w', hrun, h1, h2, h3, h4, h5⟩ := ih (i + 1) w1
      refine ⟨w', ?_, ?_, ?_, ?_, ?_, fun hw => h5 (g5 hw)⟩
      · rw [slotRevokeValidate]
        simp only [hk, ne_eq, not_true_eq_false, if_false, bind_apply, hrun1, andThen_ok]
        exact hrun
      · rw [h1, g1]; simp [visits, hk]
      · rw [h2, g2, refsIn_cons, hn, if_pos rfl]; omega
      · simp only [h3, g3, AllMapped, hr, and_assoc, forall_mem_cons]
      · intro hnone
        have hw1 : w1.firstError = none := (h3.mp hnone).1
        rw [h4 hnone, g4 hw1, mapsIn_cons, hm, if_pos rfl]
        omega

/-- Sum of a count of handle slots over the processes `ps`. -/
def System.countOver (s : System) (c : List HandleEntry → Nat) (ps : List ProcKva) : Nat :=
  (ps.map fun p => ((s.procs p).map fun P => c P.handles).getD 0).sum

/-- Handle slots naming `h` in the processes `ps`. -/
def System.refsOver (s : System) (h : HeaderKva) (ps : List ProcKva) : Nat :=
  s.countOver (refsIn h) ps

/-- Handle slots recording a mapping of `h` in the processes `ps`. -/
def System.mapsOver (s : System) (h : HeaderKva) (ps : List ProcKva) : Nat :=
  s.countOver (mapsIn h) ps

/-- The visits of a walk over the processes `ps`. -/
def System.visitsOver (s : System) (h : HeaderKva) (ps : List ProcKva) : List SlotVisit :=
  ps.flatMap fun p => ((s.procs p).map fun P => visits h p 0 P.handles).getD []

section

variable (hP : s.procs p = some P)
include hP

theorem System.countOver_cons (c : List HandleEntry → Nat)
    (ps : List ProcKva) : s.countOver c (p :: ps) = c P.handles + s.countOver c ps := by
  simp [countOver, hP]

theorem System.refsOver_cons (ps : List ProcKva) :
    s.refsOver h (p :: ps) = refsIn h P.handles + s.refsOver h ps := countOver_cons hP _ ps

theorem System.mapsOver_cons (ps : List ProcKva) :
    s.mapsOver h (p :: ps) = mapsIn h P.handles + s.mapsOver h ps := countOver_cons hP _ ps

theorem System.visitsOver_cons (ps : List ProcKva) :
    s.visitsOver h (p :: ps) = visits h p 0 P.handles ++ s.visitsOver h ps := by
  simp [visitsOver, hP]

end

/-- A failed walk skips the remaining processes. -/
theorem validateProcesses_failed (ps : List ProcKva) {w : ValidateWalk}
    (hw : w.firstError.isSome) : validateProcesses h ps w s = .ok w s := by
  induction ps with
  | nil => rfl
  | cons p ps ih => rw [validateProcesses, if_pos hw]; exact ih

theorem validateProcesses_spec (he : s.entryOf h = some ent) (ps : List ProcKva) :
    ∀ w : ValidateWalk, (∀ p ∈ ps, (s.procs p).isSome) → w.firstError = none →
      ∃ w', validateProcesses h ps w s = .ok w' s ∧
        (w'.firstError = none ↔ ∀ p ∈ ps, ∀ P, s.procs p = some P →
          AllMapped h (s.dataPages h ent.count) P.space P.handles) ∧
        (w'.firstError = none →
          w'.visited = w.visited ++ s.visitsOver h ps ∧
          w'.walkedRefcount = w.walkedRefcount + s.refsOver h ps ∧
          w'.walkedMapCount = w.walkedMapCount + s.mapsOver h ps) ∧
        (w.UnmapErrors → w'.UnmapErrors) := by
  induction ps with
  | nil =>
    intro w _ hw
    refine ⟨w, rfl, by simp [hw], fun _ => ?_, fun hw => hw⟩
    simp [visitsOver, refsOver, mapsOver, countOver]
  | cons p ps ih =>
    intro w hlive hw
    obtain ⟨P, hP⟩ := Option.isSome_iff_exists.mp (hlive p mem_cons_self)
    obtain ⟨w1, hrun, h1, h2, h3, h4, h5⟩ :=
      slotRevokeValidate_spec (p := p) (P := P) he P.handles 0 w
    have hstep : validateProcesses h (p :: ps) w s = validateProcesses h ps w1 s := by
      rw [validateProcesses, if_neg (by simp [hw])]
      simp [getProcess_apply hP, hrun]
    rw [hstep]
    cases hw1 : w1.firstError with
    | some err =>
      -- the first process failed: the rest is skipped and the error stands
      grind [validateProcesses_failed]
    | none =>
      obtain ⟨w', hrun', g1, g2, g3⟩ :=
        ih w1 (fun q hq => hlive q (mem_cons_of_mem _ hq)) hw1
      have hhead := (h3.mp hw1).2
      refine ⟨w', hrun', ?_, fun hnone => ?_, fun hw => g3 (h5 hw)⟩
      · grind
      · obtain ⟨k1, k2, k3⟩ := g2 hnone
        rw [k1, k2, k3, h1, h2, h4 hw1, visitsOver_cons hP, refsOver_cons hP,
          mapsOver_cons hP]
        simp only [append_assoc, true_and]
        omega

end Validate

/-! ## The apply walk over one table -/

/-- Two ranges of `n` pages do not overlap. -/
def Apart (n a b : Nat) : Prop := a + n ≤ b ∨ b + n ≤ a

instance (n a b : Nat) : Decidable (Apart n a b) := inferInstanceAs (Decidable (_ ∨ _))

/-- Page `w` lies in one of the ranges of `n` pages that start at `starts`. -/
def Covered (n : Nat) (starts : List Nat) (w : Nat) : Prop := ∃ v ∈ starts, v ≤ w ∧ w < v + n

/-- `sp'` is `sp` without the entries of the pages covered by `starts`. -/
structure ErasedAll (sp sp' : AddressSpace) (n : Nat) (starts : List Nat) : Prop where
  tables : SameTables sp sp'
  gone : ∀ w, w < vaPages → Covered n starts w → sp'.pte w = none
  kept : ∀ w, w < vaPages → ¬ Covered n starts w → sp'.pte w = sp.pte w

/-- The whole range of `n` pages from `v` on is mapped. -/
def Present (sp : AddressSpace) (n v : Nat) : Prop :=
  v + n ≤ vaPages ∧ ∀ j, j < n → (sp.pte (v + j)).isSome

section Apply

variable {sp₀ : AddressSpace} {n : Nat} {p : ProcKva}

theorem ErasedAll.nil : ErasedAll sp₀ sp₀ n [] :=
  ⟨.refl, fun _ _ ⟨_, hm, _⟩ => by simp at hm, fun _ _ _ => rfl⟩

variable {sp : AddressSpace} {done : List Nat} {v : Nat} {a : ApplyState} {va : VaPage}

/-- Clearing one more range, apart from those already cleared. -/
theorem ErasedAll.clear
    (her : ErasedAll sp₀ sp n done) (hv : Present sp₀ n v) (hap : ∀ u ∈ done, Apart n u v) :
    ∃ sp', sp.clearValidatedPte (v * pageSize) n = some sp' ∧
      ErasedAll sp₀ sp' n (done ++ [v]) := by
  have hsome : ∀ j, j < n → (sp.pte (v + j)).isSome := by
    intro j hj
    rw [her.kept (v + j) (by have := hv.1; omega) ?_]
    · exact hv.2 j hj
    · rintro ⟨u, hu, h1, h2⟩
      rcases hap u hu with h | h <;> omega
  obtain ⟨sp', hclear, her'⟩ := AddressSpace.clearValidatedPte_spec hv.1 hsome
  refine ⟨sp', hclear, her.tables.trans her'.tables, fun w hw hcov => ?_, fun w hw hcov => ?_⟩
  · rw [her'.pte w hw]
    by_cases hin : v ≤ w ∧ w < v + n
    · rw [if_pos hin]
    · rw [if_neg hin]
      obtain ⟨u, hu, hr⟩ := hcov
      rcases mem_append.mp hu with hu | hu
      · exact her.gone w hw ⟨u, hu, hr⟩
      · rw [mem_singleton.mp hu] at hr
        exact absurd hr hin
  · have hin : ¬ (v ≤ w ∧ w < v + n) := fun hin => hcov ⟨v, by simp, hin⟩
    rw [her'.pte w hw, if_neg hin]
    exact her.kept w hw fun ⟨u, hu, hr⟩ => hcov ⟨u, mem_append_left _ hu, hr⟩

/-- Clearing a range that overlaps a cleared one meets an empty entry. -/
theorem ErasedAll.clear_none {u : Nat}
    (her : ErasedAll sp₀ sp n done) (hv : v + n ≤ vaPages) (hu : u ∈ done)
    (hap : ¬ Apart n u v) : sp.clearValidatedPte (v * pageSize) n = none := by
  unfold Apart at hap
  refine AddressSpace.clearValidatedPte_none hv ⟨max u v - v, by omega, ?_⟩
  exact her.gone _ (by omega) ⟨u, hu, by omega, by omega⟩

/-- What the walk over `slots` leaves of the accumulator, on success. -/
structure Applied (h : HeaderKva) (n : Nat) (p : ProcKva) (i : Nat) (slots : List HandleEntry)
    (sp₀ : AddressSpace) (done : List Nat) (a a' : ApplyState) : Prop where
  space : ErasedAll sp₀ a'.space n (done ++ rangesOf h slots)
  refcount : a'.refcount + refsIn h slots = a.refcount
  mapCount : a'.mapCount + mapsIn h slots = a.mapCount
  stats : a'.stats = ⟨a.stats.processes, a.stats.slots + refsIn h slots,
    a.stats.mappings + mapsIn h slots, a.stats.visited ++ visits h p i slots⟩

/-- The accumulator after a visit of an unmapped slot. -/
def ApplyState.dropSlot (a : ApplyState) (p : ProcKva) (i : Nat) : ApplyState where
  space := a.space
  refcount := a.refcount - 1
  mapCount := a.mapCount
  stats := ⟨a.stats.processes, a.stats.slots + 1, a.stats.mappings,
    a.stats.visited ++ [⟨p, i, 0#32⟩]⟩

/-- The accumulator after a visit of a mapped slot, with its range cleared. -/
def ApplyState.dropMapping (a : ApplyState) (p : ProcKva) (i : Nat) (va : VaPage)
    (sp : AddressSpace) : ApplyState where
  space := sp
  refcount := a.refcount - 1
  mapCount := a.mapCount - 1
  stats := ⟨a.stats.processes, a.stats.slots + 1, a.stats.mappings + 1,
    a.stats.visited ++ [⟨p, i, va⟩]⟩

theorem applyVisit_unmapped (count : Option Nat) (i : Nat) (hr : 0 < a.refcount) :
    applyVisit count p i 0#32 a = .ok (a.dropSlot p i) := by
  simp [applyVisit, ApplyState.dropSlot, Nat.ne_of_gt hr]

theorem applyVisit_mapped (i : Nat) (hva : va ≠ 0#32)
    (hclear : a.space.clearValidatedPte (va.toNat * pageSize) n = some sp)
    (hr : 0 < a.refcount) (hm : 0 < a.mapCount) :
    applyVisit (some n) p i va a = .ok (a.dropMapping p i va sp) := by
  simp [applyVisit, ApplyState.dropMapping, hva, hclear, Nat.ne_of_gt hr, Nat.ne_of_gt hm]

/-- A slot the walk passes over. -/
theorem slotRevokeApply_other (count : Option Nat) (i : Nat) (hn : e.names h = false)
    (a : ApplyState) :
    slotRevokeApply h count p (e :: es) i a
      = (slotRevokeApply h count p es (i + 1) a).map fun r => (e :: r.1, r.2) := by
  rw [slotRevokeApply]
  obtain ⟨r, k⟩ := e
  cases k with
  | pageSet kva va =>
    have hne : kva ≠ h := by simpa using hn
    simp only [hne, ne_eq, not_false_eq_true, if_true]
  | _ => rfl

/-- A slot the walk empties. -/
theorem slotRevokeApply_visit {count : Option Nat} {i : Nat}
    (hk : e.kind = .pageSet h va) {a' : ApplyState} (hv : applyVisit count p i va a = .ok a') :
    slotRevokeApply h count p (e :: es) i a
      = (slotRevokeApply h count p es (i + 1) a').map fun r => (HandleEntry.EMPTY :: r.1, r.2) := by
  rw [slotRevokeApply]
  simp only [hk, ne_eq, not_true_eq_false, if_false, hv]

/-- The walk over mapped ranges succeeds when they are pairwise apart, and stops in
    `clear_validated_pte` when two of them overlap. -/
theorem slotRevokeApply_spec (slots : List HandleEntry) :
    ∀ (i : Nat) (a : ApplyState) (done : List Nat), ErasedAll sp₀ a.space n done →
      (∀ v ∈ rangesOf h slots, Present sp₀ n v) → refsIn h slots ≤ a.refcount →
      mapsIn h slots ≤ a.mapCount → done.Pairwise (Apart n) →
      ((done ++ rangesOf h slots).Pairwise (Apart n) →
        ∃ a', slotRevokeApply h (some n) p slots i a = .ok (eraseHeader h slots, a') ∧
          Applied h n p i slots sp₀ done a a') ∧
      (¬ (done ++ rangesOf h slots).Pairwise (Apart n) →
        slotRevokeApply h (some n) p slots i a = .error .clearValidatedPte) := by
  -- `done` are the ranges cleared so far: `a.space` is `sp₀` without them
  induction slots with
  | nil =>
    intro i a done her _ _ _ hd
    refine ⟨fun _ => ⟨a, rfl, by simpa [rangesOf] using her, by simp [refsIn], by simp [mapsIn],
      by simp [refsIn, mapsIn, visits]⟩, fun hnot => ?_⟩
    exact absurd (by simpa [rangesOf] using hd) hnot
  | cons e es ih =>
    intro i a done her hpres hrefs hmaps hd
    rw [refsIn_cons] at hrefs
    rw [mapsIn_cons] at hmaps
    rw [eraseHeader_cons]
    rcases slotView h e with ⟨hn, hm, hv, hr⟩ | ⟨hk, hn, hm, hr⟩ | ⟨va, hva, hk, hn, hm, hr⟩ <;>
      rw [hr] at hpres ⊢ <;> rw [hn] at hrefs ⊢ <;> rw [hm] at hmaps
    · obtain ⟨hok, hstuck⟩ := ih (i + 1) a done her hpres hrefs hmaps hd
      rw [slotRevokeApply_other _ _ hn]
      refine ⟨fun hpair => ?_, fun hnot => by rw [hstuck hnot]; rfl⟩
      obtain ⟨a', hrun, happ⟩ := hok hpair
      refine ⟨a', by rw [hrun]; rfl, ?_⟩
      constructor
      all_goals grind [happ.mapCount, happ.refcount, happ.space, happ.stats, mapsIn_cons,
        refsIn_cons]
    · rw [if_pos rfl] at hrefs
      obtain ⟨hok, hstuck⟩ := ih (i + 1) (a.dropSlot p i) done her hpres
        (Nat.le_sub_one_of_lt hrefs) hmaps hd
      rw [slotRevokeApply_visit hk (applyVisit_unmapped (some n) i (by omega))]
      refine ⟨fun hpair => ?_, fun hnot => by rw [hstuck hnot]; rfl⟩
      obtain ⟨a', hrun, happ⟩ := hok hpair
      have h1 := happ.refcount
      simp only [ApplyState.dropSlot] at h1
      refine ⟨a', by rw [hrun]; rfl, ?_⟩
      constructor
      · rw [hr]; exact happ.space
      · rw [refsIn_cons, hn, if_pos rfl]; omega
      all_goals grind [happ.mapCount, happ.stats, ApplyState.dropSlot, mapsIn_cons, refsIn_cons,
        visits]
    · rw [if_pos rfl] at hrefs hmaps
      -- a range that overlaps an earlier one finds a page gone, and the walk stops there
      by_cases hap : ∀ u ∈ done, Apart n u va.toNat
      · obtain ⟨sp, hclear, her'⟩ := her.clear (hpres _ mem_cons_self) hap
        obtain ⟨hok, hstuck⟩ := ih (i + 1) (a.dropMapping p i va sp) (done ++ [va.toNat]) her'
          (fun v hv => hpres v (mem_cons_of_mem _ hv)) (Nat.le_sub_one_of_lt hrefs)
          (Nat.le_sub_one_of_lt hmaps)
          (pairwise_append.mpr ⟨hd, pairwise_singleton _ _, by simpa using hap⟩)
        rw [slotRevokeApply_visit hk (applyVisit_mapped i hva hclear (by omega) (by omega))]
        refine ⟨fun hpair => ?_, fun hnot => by rw [hstuck (by simpa using hnot)]; rfl⟩
        obtain ⟨a', hrun, happ⟩ := hok (by simpa using hpair)
        have h1 := happ.refcount
        have h2 := happ.mapCount
        simp only [ApplyState.dropMapping] at h1 h2
        refine ⟨a', by rw [hrun]; rfl, ?_⟩
        constructor
        · rw [hr]; simpa using happ.space
        · rw [refsIn_cons, hn, if_pos rfl]; omega
        · rw [mapsIn_cons, hm, if_pos rfl]; omega
        · rw [happ.stats, refsIn_cons, mapsIn_cons, hn, hm]
          simp [visits, hk, ApplyState.dropMapping]
          omega
      · refine ⟨fun hpair => absurd (fun u hu => (pairwise_append.mp hpair).2.2 u hu _
          mem_cons_self) hap, fun _ => ?_⟩
        simp only [not_forall] at hap
        obtain ⟨u, hu, huv⟩ := hap
        have hclear := her.clear_none (hpres _ mem_cons_self).1 hu huv
        rw [slotRevokeApply]
        simp only [hk, ne_eq, not_true_eq_false, if_false, applyVisit, if_neg hva, hclear]

end Apply

/-! ## The apply walk over the processes -/

/-- `s'` is `s` after the handles to `h` were revoked in the processes `ps`:
    the slots naming `h` are empty, exactly the pages they record are unmapped,
    the counters dropped by as many, and nothing else changed. -/
structure RevokedIn (h : HeaderKva) (n : Nat) (ps : List ProcKva) (s s' : System) : Prop where
  frame : ∃ procs headers, s' = { s with procs := procs, headers := headers }
  refcount : (s'.headers h).refcount + s.refsOver h ps = (s.headers h).refcount
  mapCount : (s'.headers h).mapCount + s.mapsOver h ps = (s.headers h).mapCount
  header : (s'.headers h).origin = (s.headers h).origin ∧ (s'.headers h).pages = (s.headers h).pages
  otherHeader : ∀ k, k ≠ h → s'.headers k = s.headers k
  inside : ∀ p ∈ ps, ∀ P, s.procs p = some P → ∃ sp,
    s'.procs p = some { P with handles := eraseHeader h P.handles, space := sp } ∧
    ErasedAll P.space sp n (rangesOf h P.handles)
  outside : ∀ p, p ∉ ps → s'.procs p = s.procs p

/-- No two recorded ranges of `h` in process `P` overlap. -/
def RangesApart (h : HeaderKva) (n : Nat) (P : Process) : Prop :=
  (rangesOf h P.handles).Pairwise (Apart n)

section ApplyProcesses

variable {s : System} {p : ProcKva} {P : Process} {ent : PageSetEntry}

def walkedState (h : HeaderKva) (p : ProcKva) (P : Process) (a : ApplyState) (s : System) :
    System :=
  (s.setProc p { P with handles := eraseHeader h P.handles, space := a.space }).setHeader h
    { s.headers h with refcount := a.refcount, mapCount := a.mapCount }

variable {s' : System} {ps : List ProcKva} {a : ApplyState} {n : Nat} {st : RevokeStats}

variable {s : System}

/-- A count over processes depends on their handle tables only. -/
theorem countOver_congr {c : List HandleEntry → Nat}
    (heq : ∀ q ∈ ps, (s'.procs q).map Process.handles = (s.procs q).map Process.handles) :
    s'.countOver c ps = s.countOver c ps := by
  unfold countOver
  congr 1
  apply map_congr_left
  intro q hq
  have := congrArg (fun o => (o.map c).getD 0) (heq q hq)
  simpa [Option.map_map, Function.comp_def] using this

theorem refsOver_congr
    (heq : ∀ q ∈ ps, s'.procs q = s.procs q) : s'.refsOver h ps = s.refsOver h ps :=
  countOver_congr fun q hq => by rw [heq q hq]

theorem mapsOver_congr
    (heq : ∀ q ∈ ps, s'.procs q = s.procs q) : s'.mapsOver h ps = s.mapsOver h ps :=
  countOver_congr fun q hq => by rw [heq q hq]

theorem visitsOver_congr
    (heq : ∀ q ∈ ps, s'.procs q = s.procs q) : s'.visitsOver h ps = s.visitsOver h ps := by
  grind [map_congr_left, visitsOver]

theorem walkedState_procs_of_ne {q : ProcKva} (hq : q ≠ p) :
    (walkedState h p P a s).procs q = s.procs q := by simp [walkedState, hq]

/-- The counters left by a walk over one process, seen from its state. -/
theorem applyProcesses_cons (he : s.entryOf h = some ent) (hP : s.procs p = some P)
    (ps : List ProcKva) (st : RevokeStats) :
    applyProcesses h (p :: ps) st s =
      match slotRevokeApply h (some ent.count) p P.handles 0
          ⟨P.space, (s.headers h).refcount, (s.headers h).mapCount,
            { st with processes := st.processes + 1 }⟩ with
      | .error x => .stop x
      | .ok (handles, a) => applyProcesses h ps a.stats
          ((s.setProc p { P with handles, space := a.space }).setHeader h
            { s.headers h with refcount := a.refcount, mapCount := a.mapCount }) := by
  rw [applyProcesses]
  simp only [bind_apply, getProcess_apply hP, andThen_ok, read_apply, he, Option.map_some]
  cases slotRevokeApply h (some ent.count) p P.handles 0
      ⟨P.space, (s.headers h).refcount, (s.headers h).mapCount,
        { st with processes := st.processes + 1 }⟩ with
  | error x => rfl
  | ok r => rfl

/-- One process walked, then the rest. -/
theorem RevokedIn.cons (hP : s.procs p = some P) (hp : p ∉ ps)
    (happ : Applied h n p 0 P.handles P.space []
      ⟨P.space, (s.headers h).refcount, (s.headers h).mapCount, st⟩ a)
    (hrest : RevokedIn h n ps (walkedState h p P a s) s') : RevokedIn h n (p :: ps) s s' := by
  have hne : ∀ q ∈ ps, q ≠ p := fun q hq heq => hp (heq ▸ hq)
  have hcongr : ∀ q ∈ ps, (walkedState h p P a s).procs q = s.procs q := fun q hq =>
    walkedState_procs_of_ne (hne q hq)
  have hr := hrest.refcount
  have hm := hrest.mapCount
  have h1 := happ.refcount
  have h2 := happ.mapCount
  rw [refsOver_congr hcongr] at hr
  rw [mapsOver_congr hcongr] at hm
  simp only [walkedState, headers_setHeader_self] at hr hm
  dsimp only at h1 h2
  constructor
  · obtain ⟨pr, hd, heq⟩ := hrest.frame
    exact ⟨pr, hd, heq⟩
  · rw [refsOver_cons hP]; omega
  · rw [mapsOver_cons hP]; omega
  · have := hrest.header
    simpa [walkedState] using this
  · intro k hk
    rw [hrest.otherHeader k hk]
    simp [walkedState, hk]
  · intro q hq Q hQ
    rcases mem_cons.mp hq with rfl | hq
    · rw [hP] at hQ
      cases hQ
      refine ⟨a.space, ?_, by simpa using happ.space⟩
      rw [hrest.outside q hp]
      simp [walkedState]
    · exact hrest.inside q hq Q (by rw [hcongr q hq]; exact hQ)
  · intro q hq
    rw [mem_cons, not_or] at hq
    rw [hrest.outside q hq.2, walkedState_procs_of_ne hq.1]

/-- What the apply walk needs of the processes it visits. -/
structure Ready (s : System) (h : HeaderKva) (n : Nat) (ps : List ProcKva) : Prop where
  nodup : ps.Nodup
  live : ∀ p ∈ ps, (s.procs p).isSome
  present : ∀ p ∈ ps, ∀ P, s.procs p = some P → ∀ v ∈ rangesOf h P.handles, Present P.space n v
  refs : s.refsOver h ps ≤ (s.headers h).refcount
  maps : s.mapsOver h ps ≤ (s.headers h).mapCount

/-- After a successful walk over the first process the rest is ready. -/
theorem Ready.tail (hready : Ready s h n (p :: ps)) (hP : s.procs p = some P)
    (happ : Applied h n p 0 P.handles P.space []
      ⟨P.space, (s.headers h).refcount, (s.headers h).mapCount, st⟩ a) :
    Ready (walkedState h p P a s) h n ps := by
  have hp : p ∉ ps := (nodup_cons.mp hready.nodup).1
  have hcongr : ∀ q ∈ ps, (walkedState h p P a s).procs q = s.procs q := fun q hq =>
    walkedState_procs_of_ne fun heq => hp (heq ▸ hq)
  have hr := hready.refs
  have hm := hready.maps
  have h1 := happ.refcount
  have h2 := happ.mapCount
  rw [refsOver_cons hP] at hr
  rw [mapsOver_cons hP] at hm
  dsimp only at h1 h2
  constructor
  · exact (nodup_cons.mp hready.nodup).2
  · intro q hq
    rw [hcongr q hq]
    exact hready.live q (mem_cons_of_mem _ hq)
  · intro q hq Q hQ
    exact hready.present q (mem_cons_of_mem _ hq) Q (by rw [← hcongr q hq]; exact hQ)
  all_goals grind [headers_setHeader_self, mapsOver_congr, refsOver_congr, walkedState]

/-- The walk over the first process. -/
theorem Ready.head (hready : Ready s h n (p :: ps)) (hP : s.procs p = some P) (st : RevokeStats) :
    (RangesApart h n P → ∃ a, slotRevokeApply h (some n) p P.handles 0
        ⟨P.space, (s.headers h).refcount, (s.headers h).mapCount, st⟩
        = .ok (eraseHeader h P.handles, a) ∧ Applied h n p 0 P.handles P.space []
          ⟨P.space, (s.headers h).refcount, (s.headers h).mapCount, st⟩ a) ∧
    (¬ RangesApart h n P → slotRevokeApply h (some n) p P.handles 0
        ⟨P.space, (s.headers h).refcount, (s.headers h).mapCount, st⟩
        = .error .clearValidatedPte) := by
  have hr := hready.refs
  have hm := hready.maps
  rw [refsOver_cons hP] at hr
  rw [mapsOver_cons hP] at hm
  exact slotRevokeApply_spec P.handles 0 _ [] .nil (hready.present p mem_cons_self P hP)
    (by dsimp only; omega) (by dsimp only; omega) .nil

theorem applyProcesses_ok (ps : List ProcKva) :
    ∀ (st : RevokeStats) (s : System), s.entryOf h = some ent → Ready s h ent.count ps →
      (∀ p ∈ ps, ∀ P, s.procs p = some P → RangesApart h ent.count P) →
      ∃ st' s', applyProcesses h ps st s = .ok st' s' ∧ RevokedIn h ent.count ps s s' ∧
        st' = ⟨st.processes + ps.length, st.slots + s.refsOver h ps,
          st.mappings + s.mapsOver h ps, st.visited ++ s.visitsOver h ps⟩ := by
  induction ps with
  | nil =>
    intro st s _ _ _
    refine ⟨st, s, rfl, ⟨⟨_, _, rfl⟩, rfl, rfl, ⟨rfl, rfl⟩, fun _ _ => rfl, ?_,
      fun _ _ => rfl⟩, ?_⟩
    · intro p hp; cases hp
    · simp [refsOver, mapsOver, countOver, visitsOver]
  | cons p ps ih =>
    intro st s he hready hapart
    obtain ⟨P, hP⟩ := Option.isSome_iff_exists.mp (hready.live p mem_cons_self)
    have hp : p ∉ ps := (nodup_cons.mp hready.nodup).1
    obtain ⟨a, hrun, happ⟩ := (hready.head hP { st with processes := st.processes + 1 }).1
      (hapart p mem_cons_self P hP)
    -- the walk over `p` leaves the processes after it as they were
    have hcongr : ∀ q ∈ ps, (walkedState h p P a s).procs q = s.procs q := fun q hq =>
      walkedState_procs_of_ne fun heq => hp (heq ▸ hq)
    obtain ⟨st', s', hrun', hrev, hst⟩ := ih a.stats (walkedState h p P a s) he
      (hready.tail hP happ) (fun q hq Q hQ =>
        hapart q (mem_cons_of_mem _ hq) Q (by rw [← hcongr q hq]; exact hQ))
    refine ⟨st', s', ?_, hrev.cons hP hp happ, ?_⟩
    · rw [applyProcesses_cons he hP, hrun]
      exact hrun'
    · rw [hst, refsOver_congr hcongr, mapsOver_congr hcongr, visitsOver_congr hcongr, happ.stats,
        refsOver_cons hP, mapsOver_cons hP, visitsOver_cons hP]
      simp only [length_cons, append_assoc, RevokeStats.mk.injEq, and_true]
      omega

theorem applyProcesses_stuck (ps : List ProcKva) :
    ∀ (st : RevokeStats) (s : System), s.entryOf h = some ent → Ready s h ent.count ps →
      (∃ p ∈ ps, ∃ P, s.procs p = some P ∧ ¬ RangesApart h ent.count P) →
      applyProcesses h ps st s = .stop .clearValidatedPte := by
  induction ps with
  | nil => rintro st s _ _ ⟨p, hp, _⟩; cases hp
  | cons p ps ih =>
    rintro st s he hready ⟨q, hq, Q, hQ, hnot⟩
    obtain ⟨P, hP⟩ := Option.isSome_iff_exists.mp (hready.live p mem_cons_self)
    rw [applyProcesses_cons he hP]
    obtain ⟨hok, hstuck⟩ := hready.head hP { st with processes := st.processes + 1 }
    by_cases hapart : RangesApart h ent.count P
    · obtain ⟨a, hrun, happ⟩ := hok hapart
      rw [hrun]
      have hqp : q ≠ p := by
        rintro rfl
        rw [hP] at hQ; cases hQ; exact hnot hapart
      exact ih a.stats (walkedState h p P a s) he (hready.tail hP happ)
        ⟨q, (mem_cons.mp hq).resolve_left hqp, Q,
          by rw [walkedState_procs_of_ne hqp]; exact hQ, hnot⟩
    · rw [hstuck hapart]

end ApplyProcesses

end Lockjaw.Cap
