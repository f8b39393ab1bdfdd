/-
  Lockjaw.Cap.Revocation

  The two phases of a revocation as one operation.

  From a state whose counters are right, validation is read-only.  If it
  succeeds, the apply phase removes every handle to the header exactly when no
  two recorded ranges of one process overlap; two overlapping ranges pass the
  validation (both are present in the page table) and the second clear finds
  the entries of the first one gone.
-/

import Lockjaw.Cap.RevokeSpec

namespace Lockjaw.Cap

open Lib Cap.System
open AddressSpace (vaPages)

/-! ## The accounting invariant -/

/-- Every registered header counts the slots that name it, and those that
    record a mapping of it, over the handle tables of the live processes. -/
structure System.Accounting (s : System) : Prop where
  live : ∀ p ∈ s.uniqueProcesses, (s.procs p).isSome
  refcount : ∀ h ent, s.entryOf h = some ent →
    (s.headers h).refcount = s.refsOver h s.uniqueProcesses
  mapCount : ∀ h ent, s.entryOf h = some ent →
    (s.headers h).mapCount = s.mapsOver h s.uniqueProcesses

/-- No live process records two overlapping ranges of `h`. -/
def System.NoOverlap (s : System) (h : HeaderKva) (n : Nat) : Prop :=
  ∀ p ∈ s.uniqueProcesses, ∀ P, s.procs p = some P → RangesApart h n P

/-- Every recorded mapping of `h` is in its process's page table. -/
def System.MappingsPresent (s : System) (h : HeaderKva) (n : Nat) : Prop :=
  ∀ p ∈ s.uniqueProcesses, ∀ P, s.procs p = some P →
    AllMapped h (s.dataPages h n) P.space P.handles

/-- `s'` is `s` with every handle to `h` revoked: in every live process the
    slots naming `h` are empty and exactly the pages they record are unmapped;
    both counters are zero; nothing else changed. -/
structure Revoked (h : HeaderKva) (n : Nat) (s s' : System) : Prop where
  revoked : RevokedIn h n s.uniqueProcesses s s'
  refcount : (s'.headers h).refcount = 0
  mapCount : (s'.headers h).mapCount = 0

section Phases

variable {s : System} {h : HeaderKva} {ent : PageSetEntry}

/-- An entry found for `h` is in the table and names `h`. -/
theorem entryOf_some (he : s.entryOf h = some ent) :
    ∃ id, s.table id = some ent ∧ ent.headerKva = h := by
  grind [Option.bind_eq_some_iff, entryOf, findByHeaderKva]

variable {n v : Nat}

theorem length_dataPages : (s.dataPages h n).length = n := by simp [dataPages]

theorem getElem?_dataPages {i : Nat} :
    (s.dataPages h n)[i]? = if i < n then some ((s.headers h).pages i) else none := by
  unfold dataPages
  by_cases hi : i < n
  · simp [hi]
  · simp [hi]

/-- A recorded range that matches its PageSet is present. -/
theorem Present.of_mapped {sp : AddressSpace} (hv : v < 2 ^ 32)
    (hn : n ≤ maxPracticalPagesPerSet) (hm : sp.Mapped v (s.dataPages h n)) : Present sp n v := by
  constructor
  · unfold vaPages
    unfold maxPracticalPagesPerSet at hn
    omega
  · intro j hj
    obtain ⟨e, he, -⟩ := hm j _ (by rw [getElem?_dataPages, if_pos hj])
    rw [he]
    rfl

theorem lt_of_mem_rangesOf {slots : List HandleEntry} (hv : v ∈ rangesOf h slots) : v < 2 ^ 32 := by
  obtain ⟨_, _, va, -, -, -, rfl⟩ := mem_rangesOf.mp hv
  exact va.isLt

/-- The validate walk of a state whose process pointers are good. -/
theorem validateWalk_spec (hlive : ∀ p ∈ s.uniqueProcesses, (s.procs p).isSome)
    (he : s.entryOf h = some ent) :
    ∃ w, validateWalk h s = .ok w s ∧ (w.firstError = none ↔ s.MappingsPresent h ent.count) ∧
      (w.firstError = none → w.visited = s.visitsOver h s.uniqueProcesses ∧
        w.walkedRefcount = s.refsOver h s.uniqueProcesses ∧
        w.walkedMapCount = s.mapsOver h s.uniqueProcesses) ∧ w.UnmapErrors := by
  obtain ⟨w, hrun, hnone, hcounts, herr⟩ :=
    validateProcesses_spec he s.uniqueProcesses .start hlive rfl
  refine ⟨w, hrun, hnone, fun hw => ?_, herr fun a b c d hc => by cases hc⟩
  obtain ⟨h1, h2, h3⟩ := hcounts hw
  simp only [ValidateWalk.start, List.nil_append, Nat.zero_add] at h1 h2 h3
  exact ⟨h1, h2, h3⟩

section

variable (hacc : s.Accounting) (he : s.entryOf h = some ent)
include hacc he

/-- Validation is read-only; in an accounted state it succeeds exactly when the recorded mappings
    are in the page tables, and it never reports a mismatch of the counters. -/
theorem revokeValidate_spec :
    ∃ r, revokeValidate h s = .ok r s ∧ (r = .ok () ↔ s.MappingsPresent h ent.count) ∧
      ∀ a b c d, r ≠ .error (.accountingMismatch a b c d) := by
  obtain ⟨w, hrun, hnone, hcounts, herr⟩ := validateWalk_spec hacc.live he
  simp only [revokeValidate, bind_apply, read_apply, andThen_ok, hrun]
  cases hw : w.firstError with
  | some x =>
    refine ⟨.error x, rfl, ?_, fun a b c d hc => herr a b c d ?_⟩
    · rw [hw] at hnone
      simpa using hnone
    · rw [hw]
      cases hc
      rfl
  | none =>
    obtain ⟨-, h2, h3⟩ := hcounts hw
    rw [if_neg (by rw [h2, h3, hacc.refcount h ent he, hacc.mapCount h ent he]; simp)]
    exact ⟨.ok (), rfl, by simpa using hnone.mp hw, fun _ _ _ _ hc => by cases hc⟩

section

variable (hmap : s.MappingsPresent h ent.count)
include hmap

/-- An accounted state whose recorded mappings are present is ready for the apply walk. -/
theorem System.Accounting.ready : Ready s h ent.count s.uniqueProcesses where
  nodup := nodup_uniqueProcesses
  live := hacc.live
  present p hp P hP v hv :=
    .of_mapped (lt_of_mem_rangesOf hv) ent.count_le (hmap p hp P hP v hv)
  refs := Nat.le_of_eq (hacc.refcount h ent he).symm
  maps := Nat.le_of_eq (hacc.mapCount h ent he).symm

/-- The apply phase on a validated header without overlapping ranges. -/
theorem revokeApply_ok (hno : s.NoOverlap h ent.count) :
    ∃ st s', revokeApply h s = .ok st s' ∧ Revoked h ent.count s s' ∧
      st.visited = s.visitsOver h s.uniqueProcesses := by
  obtain ⟨st, s', hrun, hrev, hst⟩ :=
    applyProcesses_ok s.uniqueProcesses .start s he (hacc.ready he hmap) hno
  have hr := hrev.refcount
  have hm := hrev.mapCount
  rw [hacc.refcount h ent he] at hr
  rw [hacc.mapCount h ent he] at hm
  refine ⟨st, s', hrun, ⟨hrev, by omega, by omega⟩, ?_⟩
  rw [hst]
  rfl

/-- The apply phase on a validated header with overlapping ranges. -/
theorem revokeApply_stuck (hno : ¬ s.NoOverlap h ent.count) :
    revokeApply h s = .stop .clearValidatedPte := by
  simp only [System.NoOverlap, not_forall] at hno
  obtain ⟨p, hp, P, hP, hnot⟩ := hno
  exact applyProcesses_stuck s.uniqueProcesses .start s he (hacc.ready he hmap) ⟨p, hp, P, hP, hnot⟩

end

end

/-- From an accounted state and for a registered header: validation returns and changes nothing, and
    after it succeeded, the apply phase revokes the header, visiting the slots validation visited,
    exactly when no process records two overlapping ranges of it. -/
theorem revoke_exact_iff_noOverlap (hacc : s.Accounting) (he : s.entryOf h = some ent) :
    (∃ r, consumePagesetValidate h s = .ok r s) ∧
    (consumePagesetValidate h s = .ok (.ok ()) s →
      ((∃ st s' w, revokeApply h s = .ok st s' ∧ Revoked h ent.count s s' ∧
          validateWalk h s = .ok w s ∧ st.visited = w.visited) ↔
        s.NoOverlap h ent.count)) := by
  obtain ⟨r, hval, hiff, -⟩ := revokeValidate_spec hacc he
  refine ⟨⟨r, hval⟩, fun hok => ?_⟩
  have hmap : s.MappingsPresent h ent.count := by
    rw [consumePagesetValidate, hval] at hok
    cases hok
    exact hiff.mp rfl
  constructor
  · rintro ⟨st, s', w, hrun, -, -, -⟩
    apply Classical.byContradiction
    intro hno
    rw [revokeApply_stuck hacc he hmap hno] at hrun
    cases hrun
  · intro hno
    obtain ⟨st, s', hrun, hrev, hvis⟩ := revokeApply_ok hacc he hmap hno
    obtain ⟨w, hwalk, hnone, hcounts, -⟩ := validateWalk_spec hacc.live he
    exact ⟨st, s', w, hrun, hrev, hwalk, by rw [hvis, (hcounts (hnone.mpr hmap)).1]⟩

end Phases

/-! ## A process that maps one PageSet twice -/

/-- A one-page PageSet in frame 200, mapped at pages 1 and 2. -/
def twiceSpace : AddressSpace where
  l0 := 100
  l1 := 101
  l2 := 102
  tables i := if i = 0 then
      some ⟨103, fun j =>
        if j = 1 ∨ j = 2 then some (buildUserPage (200 * pageSize) .normal) else none⟩
    else none

/-- A process holding two handles to header 0, recorded at `a` and `b`. -/
def twiceProcess (a b : VaPage) : Process where
  space := twiceSpace
  handleTable := 11
  handles := [⟨Rights.readWrite, .pageSet 0 a⟩, ⟨Rights.readWrite, .pageSet 0 b⟩]
  threadCount := 1
  ownedPages := []

/-- The system with that process alone. -/
def twiceSystem (a b : VaPage) : System where
  table id := if id = 0 then some ⟨1, 0, .buddy, by decide, by decide⟩ else none
  used h := decide (h = 0)
  headers _ := ⟨2, 2, some .buddy, fun _ => 200 * pageSize⟩
  free _ := false
  dmaFree _ := false
  kvmFree := 0
  threads := [some ⟨12, some 10, .image⟩]
  procs p := if p = 10 then some (twiceProcess a b) else none
  objects _ := none
  dtbPagesetId := 1

theorem twiceSystem_accounting {a b : VaPage} (ha : a ≠ 0#32) (hb : b ≠ 0#32) :
    (twiceSystem a b).Accounting := by
  have hlive : (twiceSystem a b).uniqueProcesses = [10] := rfl
  have hzero : ∀ h ent, (twiceSystem a b).entryOf h = some ent → h = 0 := by
    intro h ent he
    obtain ⟨id, hid, rfl⟩ := entryOf_some he
    simp only [twiceSystem] at hid
    split at hid
    · cases hid; rfl
    · cases hid
  have hP : (twiceSystem a b).procs 10 = some (twiceProcess a b) := rfl
  constructor
  · rw [hlive]
    intro p hp
    rw [List.mem_singleton.mp hp]
    rfl
  · intro h ent he
    rw [hlive, refsOver_cons hP, hzero h ent he]
    rfl
  · intro h ent he
    rw [hlive, mapsOver_cons hP, hzero h ent he]
    simp [twiceSystem, twiceProcess, mapsIn, mapsOver, countOver, ha, hb]

/-- Two handles recorded at pages 1 and 2: validated, apart, revoked. -/
theorem revoke_exact_apart :
    (twiceSystem 1 2).Accounting ∧
    consumePagesetValidate 0 (twiceSystem 1 2) = .ok (.ok ()) (twiceSystem 1 2) ∧
    ∃ st s' w, revokeApply 0 (twiceSystem 1 2) = .ok st s' ∧ Revoked 0 1 (twiceSystem 1 2) s' ∧
      validateWalk 0 (twiceSystem 1 2) = .ok w (twiceSystem 1 2) ∧ st.visited = w.visited := by
  have hacc : (twiceSystem 1 2).Accounting := twiceSystem_accounting (by decide) (by decide)
  have hval : consumePagesetValidate 0 (twiceSystem 1 2) = .ok (.ok ()) (twiceSystem 1 2) := rfl
  refine ⟨hacc, hval, ?_⟩
  have hent : (twiceSystem 1 2).entryOf 0 = some ⟨1, 0, .buddy, by decide, by decide⟩ := rfl
  refine ((revoke_exact_iff_noOverlap hacc hent).2 hval).mpr ?_
  intro p hp P hP
  have hp' : p = 10 := List.mem_singleton.mp hp
  subst hp'
  cases hP
  exact List.pairwise_pair.mpr (by decide)

/-- Two handles recorded at the same page: the counters are right and the
    validation succeeds, and the apply phase panics. -/
theorem revoke_overlap_panics :
    (twiceSystem 1 1).Accounting ∧ ((twiceSystem 1 1).entryOf 0).isSome ∧
    consumePagesetValidate 0 (twiceSystem 1 1) = .ok (.ok ()) (twiceSystem 1 1) ∧
    revokeApply 0 (twiceSystem 1 1) = .stop .clearValidatedPte :=
  ⟨twiceSystem_accounting (by decide) (by decide), rfl, rfl, rfl⟩

end Lockjaw.Cap
