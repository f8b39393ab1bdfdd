/-
  Lockjaw.Cap.CreateRuns

  The apply phase of `sys_create_process` as a run of moves.

  The donation and every PageSet of the mapping list are consumed one after the
  other.  They were validated together, before the first of them was revoked;
  a revocation of one does not disturb the mappings of another, because a page
  that maps data of both would make one frame belong to two PageSets.  Then the
  child is made of the loose frames.
-/

import Lockjaw.Cap.ExitRuns
import Lockjaw.Cap.Provision

namespace Lockjaw.Cap

open Lib Lib.Fallible Cap.System List
open AddressSpace (vaPages)

/-! ## One consume after another -/

section Persist

variable {t t' : Ledger} {h k : HeaderKva} {c d : Nat} {s : System}

theorem RefOk.used (hok : RefOk s ⟨h, c⟩) (htab : TableOk s) : s.used h = true := by
  obtain ⟨id, ent, hent, rfl, -⟩ := hok
  exact htab.used id ent hent

/-- The header determines the count. -/
theorem RefOk.unique (hok : RefOk s ⟨h, c⟩) (hok' : RefOk s ⟨h, d⟩) (htab : TableOk s) : d = c := by
  obtain ⟨id, ent, hent, hh, rfl, -⟩ := hok
  obtain ⟨id', ent', hent', hh', rfl, -⟩ := hok'
  grind [htab.unique]

/-- Frames of two PageSets are different. -/
theorem Inv.page_ne (hinv : Inv t) (hh : RefOk t.sys ⟨h, c⟩) (hk : RefOk t.sys ⟨k, d⟩) (hne : k ≠ h)
    {i j : Nat} (hi : i < c) (hj : j < d) : t.sys.pageAt k j ≠ t.sys.pageAt h i := by
  intro heq
  have h1 := (hinv.refData hh).owned i hi
  have h2 := (hinv.refData hk).owned j hj
  have h3 : t.owner (t.sys.pageAt k j / pageSize) = .pageSet k := h2
  rw [heq, show t.owner (t.sys.pageAt h i / pageSize) = .pageSet h from h1] at h3
  cases h3
  exact hne rfl

/-- The ranges of another header do not change. -/
theorem rangesOf_eraseHeader (hne : k ≠ h) (slots : List HandleEntry) :
    rangesOf k (eraseHeader h slots) = rangesOf k slots := by
  unfold rangesOf eraseHeader
  rw [filterMap_map]
  refine filterMap_congr fun e _ => ?_
  by_cases hn : e.names h = true
  · obtain ⟨va, hkind⟩ := HandleEntry.names_iff.mp hn
    simp [Function.comp, hn, hkind, hne.symm, HandleEntry.EMPTY]
  · simp [Function.comp, hn]

variable {id : Fin maxPagesets} {ent : PageSetEntry}

section

variable (hc : Consumed id ent t t')
include hc

theorem Consumed.used (hne : k ≠ ent.headerKva) : t'.sys.used k = t.sys.used k := by
  obtain ⟨s', hrev, hs'⟩ := hc.sys
  obtain ⟨procs, headers, rfl⟩ := hrev.revoked.frame
  rw [hs', used_setUsed, if_neg hne]
  rfl

/-- Another PageSet is still registered, with its pages. -/
theorem Consumed.ref (hent : t.sys.table id = some ent)
    (hk : RefOk t.sys ⟨k, d⟩) (hne : k ≠ ent.headerKva) :
    RefOk t'.sys ⟨k, d⟩ ∧ t'.sys.headers k = t.sys.headers k := by
  obtain ⟨-, -, -, -, htable⟩ := hc.frame
  obtain ⟨s', hrev, hs⟩ := hc.sys
  constructor
  · obtain ⟨id', ent', hent', hh', hc', horg⟩ := hk
    refine ⟨id', ent', ?_, hh', hc', horg⟩
    grind
  · rw [hs]
    exact hrev.revoked.otherHeader k hne

/-- What is registered afterwards is another PageSet that was so before. -/
theorem Consumed.ref_back (htab : TableOk t.sys)
    (hent : t.sys.table id = some ent) (hk : RefOk t'.sys ⟨k, d⟩) :
    RefOk t.sys ⟨k, d⟩ ∧ k ≠ ent.headerKva := by
  obtain ⟨-, -, -, -, htable⟩ := hc.frame
  obtain ⟨id', ent', hent', rfl, hc', horg⟩ := hk
  rw [htable] at hent'
  split at hent'
  · cases hent'
  · rename_i hne
    exact ⟨⟨id', ent', hent', rfl, hc', horg⟩, fun heq =>
      hne (htab.unique id' id ent' ent hent' hent heq)⟩

/-- The mappings of another PageSet are untouched. -/
theorem Consumed.mappings (hinv : Inv t)
    (hent : t.sys.table id = some ent) (horg : ent.origin = .buddy)
    (hmap : t.sys.MappingsPresent ent.headerKva ent.count) (hk : RefOk t.sys ⟨k, d⟩)
    (hne : k ≠ ent.headerKva) (hmapk : t.sys.MappingsPresent k d) : t'.sys.MappingsPresent k d := by
  obtain ⟨hthreads, -⟩ := hc.frame
  obtain ⟨-, hheader⟩ := hc.ref hent hk hne
  have hun : t'.sys.uniqueProcesses = t.sys.uniqueProcesses := by
    unfold uniqueProcesses
    rw [hthreads]
  have hpages : t'.sys.dataPages k d = t.sys.dataPages k d := by
    unfold dataPages
    rw [hheader]
  have hdk : d ≤ maxPracticalPagesPerSet := by
    obtain ⟨_, ent', -, -, hc', -⟩ := hk
    have hcd : ent'.count = d := hc'
    rw [← hcd]
    exact ent'.count_le
  intro p hp P' hP'
  rw [hun] at hp
  obtain ⟨P, hP⟩ := Option.isSome_iff_exists.mp (hinv.threads.mem_uniqueProcesses.mp hp)
  obtain ⟨sp, hsp, her⟩ := hc.proc hinv.threads hP
  rw [hP', Option.some.injEq] at hsp
  subst hsp
  intro v hv i a ha
  have hv' : v ∈ rangesOf k P.handles := by rwa [rangesOf_eraseHeader hne] at hv
  rw [hpages] at ha
  obtain ⟨e, he, hout⟩ := hmapk p hp P hP v hv' i a ha
  have hi : i < d := by
    have := (List.getElem?_eq_some_iff.mp ha).1
    rwa [length_dataPages] at this
  have hvlt := lt_of_mem_rangesOf hv'
  have hlt : v + i < vaPages := by
    unfold vaPages
    unfold maxPracticalPagesPerSet at hdk
    omega
  refine ⟨e, ?_, hout⟩
  rw [her.kept (v + i) hlt ?_]
  · exact he
  -- a covered page maps a page of the other PageSet too
  rintro ⟨v', hv'', hlo, hhi⟩
  have hj : v + i - v' < ent.count := by omega
  obtain ⟨e', he', hout'⟩ := hmap p hp P hP v' hv'' (v + i - v') _
    (by rw [getElem?_dataPages, if_pos hj])
  rw [show v' + (v + i - v') = v + i by omega, he] at he'
  cases he'
  have ha' : a = t.sys.pageAt k i := by
    rw [getElem?_dataPages, if_pos hi, Option.some.injEq] at ha
    exact ha.symm
  rw [hout, ha'] at hout'
  exact hinv.page_ne ⟨id, ent, hent, rfl, rfl, horg⟩ hk hne hj hi hout'

/-- Nor does it matter for the overlap of another PageSet's ranges. -/
theorem Consumed.noOverlap (hinv : Inv t) (hne : k ≠ ent.headerKva)
    (hno : t.sys.NoOverlap k d) : t'.sys.NoOverlap k d := by
  obtain ⟨hthreads, -⟩ := hc.frame
  intro p hp P' hP'
  have hp' : p ∈ t.sys.uniqueProcesses := by
    unfold uniqueProcesses at hp ⊢
    rwa [hthreads] at hp
  obtain ⟨P, hP⟩ := Option.isSome_iff_exists.mp (hinv.threads.mem_uniqueProcesses.mp hp')
  obtain ⟨sp, hsp, -⟩ := hc.proc hinv.threads hP
  rw [hP', Option.some.injEq] at hsp
  subst hsp
  unfold RangesApart
  rw [rangesOf_eraseHeader hne]
  exact hno p hp' P hP

end

end Persist

/-! ## A header that is gone already -/

section Unnamed

variable {s : System} {h : HeaderKva}

theorem slotRevokeApply_unnamed (count : Option Nat) (p : ProcKva) (slots : List HandleEntry) :
    ∀ (i : Nat) (a : ApplyState), (∀ e ∈ slots, e.names h = false) →
      slotRevokeApply h count p slots i a = .ok (slots, a) := by
  induction slots with
  | nil => exact fun _ _ _ => rfl
  | cons e es ih =>
    intro i a hn
    rw [slotRevokeApply_other count i (hn e mem_cons_self),
      ih (i + 1) a fun e' he' => hn e' (mem_cons_of_mem _ he')]
    rfl

theorem applyProcesses_unnamed (ps : List ProcKva) :
    ∀ st, (∀ p ∈ ps, ∃ P, s.procs p = some P ∧ ∀ e ∈ P.handles, e.names h = false) →
      ∃ st', applyProcesses h ps st s = .ok st' s := by
  induction ps with
  | nil => exact fun st _ => ⟨st, rfl⟩
  | cons p ps ih =>
    intro st hps
    obtain ⟨P, hP, hn⟩ := hps p mem_cons_self
    obtain ⟨st', hrest⟩ := ih { st with processes := st.processes + 1 }
      fun q hq => hps q (mem_cons_of_mem _ hq)
    refine ⟨st', ?_⟩
    have hproc : s.setProc p P = s := by
      unfold setProc
      have : (fun q => if q = p then some P else s.procs q) = s.procs := by grind
      rw [this]
    have hhdr : s.setHeader h (s.headers h) = s := by
      unfold setHeader
      have : (fun k => if k = h then s.headers h else s.headers k) = s.headers := by grind
      rw [this]
    simp only [applyProcesses, bind_apply, getProcess_apply hP, andThen_ok, read_apply,
      slotRevokeApply_unnamed _ p P.handles 0 _ hn, modify_apply, hproc]
    have hwalk : applyProcesses h ps { st with processes := st.processes + 1 }
        (s.setHeader h (s.headers h)) = .ok st' s := by
      rw [hhdr]
      exact hrest
    exact hwalk

/-- A header that is not in use is released a second time. -/
theorem Inv.consume_unused {t : Ledger} (hinv : Inv t) (hu : t.sys.used h = false) :
    consumePagesetApply h t.sys = .stop .doubleRelease := by
  have hnames : ∀ p ∈ t.sys.uniqueProcesses,
      ∃ P, t.sys.procs p = some P ∧ ∀ e ∈ P.handles, e.names h = false := by
    intro p hp
    obtain ⟨P, hP⟩ := Option.isSome_iff_exists.mp (hinv.threads.mem_uniqueProcesses.mp hp)
    refine ⟨P, hP, fun e he => Bool.eq_false_iff.mpr fun hn => ?_⟩
    obtain ⟨va, hk⟩ := HandleEntry.names_iff.mp hn
    obtain ⟨r, kind⟩ := e
    cases hk
    have hok : t.sys.used h = true := hinv.slots.procs p P hP _ he
    rw [hu] at hok
    cases hok
  obtain ⟨st, hrun⟩ := applyProcesses_unnamed (s := t.sys) _ .start hnames
  have hfind : t.sys.findByHeaderKva h = none := by
    unfold findByHeaderKva
    rw [find?_eq_none]
    intro id _
    cases hent : t.sys.table id with
    | none => simp
    | some ent => simpa using hinv.table.ne_of_unused hu hent
  simp only [consumePagesetApply, revokeApply, bind_apply, read_apply, andThen_ok, hrun,
    consumeByHeaderKva, hfind, pure_apply, Cap.release, hu, Bool.false_eq_true, if_false,
    stop_apply]

end Unnamed

/-! ## All consumes -/

/-- The PageSets of `hs` were consumed. -/
structure ConsumedAll (hs : List HeaderKva) (t t' : Ledger) : Prop where
  threads : t'.sys.threads = t.sys.threads
  objects : t'.sys.objects = t.sys.objects
  free : t'.sys.free = t.sys.free
  loosed : ∀ f h, h ∈ hs → t.owner f = .pageSet h → t'.owner f = .loose
  kept : ∀ f, (∀ h ∈ hs, t.owner f ≠ .pageSet h) → t'.owner f = t.owner f
  gone : ∀ id ent, t'.sys.table id = some ent →
    t.sys.table id = some ent ∧ ent.headerKva ∉ hs
  settled : Settled t t'

/-- A header is there to be consumed. -/
def Pledged (s : System) (h : HeaderKva) : Prop := ∃ c, RefOk s ⟨h, c⟩ ∧ s.MappingsPresent h c

section All

variable {R : MoveRule} {C : Panic → Prop} {E : SyscallError → Ledger → Prop}

variable {t : Ledger} {hs : List HeaderKva} {t' : Ledger}

theorem ConsumedAll.nil (hpend : t.pending = []) : ConsumedAll [] t t :=
  ⟨rfl, rfl, rfl, fun _ _ h => absurd h not_mem_nil, fun _ _ => rfl,
    fun _ _ h => ⟨h, not_mem_nil⟩, .refl hpend⟩

theorem ConsumedAll.loose (h : ConsumedAll hs t t')
    {f : Frame} (hf : t.owner f = .loose) : t'.owner f = .loose := by
  rw [h.kept f, hf]
  intro k _ hk
  rw [hf] at hk
  cases hk

theorem ConsumedAll.cons {t1 : Ledger} {id : Fin maxPagesets} {ent : PageSetEntry}
    (hc : Consumed id ent t t1) (hinv : Inv t)
    (hent : t.sys.table id = some ent) (hpend : t.pending = []) (hall : ConsumedAll hs t1 t') :
    ConsumedAll (ent.headerKva :: hs) t t' := by
  obtain ⟨hthreads, hobjects, -, hfree, htable⟩ := hc.frame
  refine ⟨hall.threads.trans hthreads, hall.objects.trans hobjects, hall.free.trans hfree,
    fun f h hmem hf => ?_, fun f hf => ?_, fun k ent' hk => ?_,
    (hc.settled hinv.table hent hpend).trans hall.settled⟩
  · grind [hall.loose, hall.loosed, hc.owner]
  · grind [hall.kept, hc.owner]
  · grind [hall.gone, hinv.table.unique]

/-- Consume validated PageSets one after the other.  A header that is gone
    already is released twice; overlapping ranges stop the revocation. -/
theorem consumeAll_runs (hs : List HeaderKva) :
    ∀ {t : Ledger}, Inv t → t.pending = [] → hs.Nodup →
      (∀ id ent, t.sys.table id = some ent → ent.headerKva ∈ hs → R.unregister id) →
      (∀ h ∈ hs, Pledged t.sys h ∨ t.sys.used h = false ∧ C .doubleRelease) →
      (∀ h ∈ hs, ∀ c, RefOk t.sys ⟨h, c⟩ → ¬ t.sys.NoOverlap h c → C .clearValidatedPte) →
      Runs R t (forEach consumePagesetApply hs)
        (fun _ t' => ConsumedAll hs t t' ∧ ∀ h ∈ hs, Pledged t.sys h) E C := by
  induction hs with
  | nil =>
    intro t _ hpend _ _ _ _
    exact .pure ⟨.nil hpend, fun h hh => by cases hh⟩
  | cons h hs ih =>
    intro t hinv hpend hnd hR hpl hover
    rw [nodup_cons] at hnd
    rcases hpl h mem_cons_self with ⟨c, hok, hmap⟩ | ⟨hu, hC⟩
    · obtain ⟨id, ent, hent, rfl, rfl, horg⟩ := hok
      have hok : RefOk t.sys ⟨ent.headerKva, ent.count⟩ := ⟨id, ent, hent, rfl, rfl, horg⟩
      by_cases hno : t.sys.NoOverlap ent.headerKva ent.count
      · obtain ⟨t1, hrun, hmoves, hcons⟩ := hinv.consume hpend hent hmap hno
          (hR id ent hent mem_cons_self) t.sys.objects
        have hrun' : consumePagesetApply ent.headerKva t.sys = .ok () t1.sys := by
          have hsame : t1.sys.setObjects t.sys.objects = t1.sys := by
            rw [← hcons.frame.2.1]
            rfl
          rw [hsame] at hrun
          exact hrun
        have hne : ∀ k ∈ hs, k ≠ ent.headerKva := fun k hk heq => hnd.1 (heq ▸ hk)
        have htab1 := (hmoves.inv hinv).table
        -- a header that is in use now was there to be consumed before
        have hreg : ∀ k ∈ hs, t1.sys.used k = true → Pledged t.sys k := by grind [hcons.used]
        refine .bind_moves hrun' hmoves ((ih (hmoves.inv hinv) (hcons.pending.trans hpend) hnd.2
          (fun k ent' hk hmem => hR k ent' (hcons.table_back hinv.table hent hk).1
            (mem_cons_of_mem _ hmem))
          (fun k hk => ?_) fun k hk d hd hnot => ?_).mono ?_ (fun _ _ _ h => h) fun _ h => h)
        · rcases hpl k (mem_cons_of_mem _ hk) with ⟨d, hd, hmapk⟩ | ⟨hu, hC⟩
          · exact .inl ⟨d, (hcons.ref hent hd (hne k hk)).1,
              hcons.mappings hinv hent horg hmap hd (hne k hk) hmapk⟩
          · exact .inr ⟨(hcons.used (hne k hk)).trans hu, hC⟩
        · obtain ⟨d', hd', -⟩ := hreg k hk (hd.used htab1)
          obtain rfl := hd.unique (hcons.ref hent hd' (hne k hk)).1 htab1
          exact hover k (mem_cons_of_mem _ hk) d' hd' fun hno' =>
            hnot (hcons.noOverlap hinv (hne k hk) hno')
        · rintro _ t' _ ⟨hall, hpled⟩
          refine ⟨hall.cons hcons hinv hent hpend, fun k hk => ?_⟩
          rcases mem_cons.mp hk with rfl | hk
          · exact ⟨_, hok, hmap⟩
          · obtain ⟨d, hd, -⟩ := hpled k hk
            exact hreg k hk (hd.used htab1)
      · refine .of_stop ?_ (hover _ mem_cons_self _ hok hno)
        rw [forEach, bind_apply, consumePagesetApply, bind_apply, revokeApply_stuck
          (hinv.accounting hpend) (hinv.table.entryOf hent) hmap hno, andThen_stop, andThen_stop]
    · refine .of_stop ?_ hC
      rw [forEach, bind_apply, hinv.consume_unused hu, andThen_stop]

end All

/-! ## The donation -/

/-- Frames of the donation the child does not use. -/
def unclaimedFrames (s : System) (donation : PageSetRef) (claimed : Nat) : List Frame :=
  ((s.dataPages donation.header donation.count).drop (processKernelObjPages + claimed)).map
    (· / pageSize)

section Donation

variable {R : MoveRule} {t : Ledger} {donation : PageSetRef}

variable {id : Fin maxPagesets} {ent : PageSetEntry} {claimed : Nat}

theorem Inv.rangesOf_nil (hinv : Inv t)
    (hent : t.sys.table id = some ent) (hm : (t.sys.headers ent.headerKva).mapCount = 0)
    {p : ProcKva} {P : Process} (hP : t.sys.procs p = some P) :
    rangesOf ent.headerKva P.handles = [] := by
  rw [eq_nil_iff_forall_not_mem]
  intro v hv
  obtain ⟨i, e, va, hi, hk, hva, -⟩ := mem_rangesOf.mp hv
  have := hinv.mapCount_pos hP hi (h := ent.headerKva)
    (HandleEntry.maps_iff.mpr ⟨va, hk, hva⟩) hent rfl
  omega

theorem mem_unclaimedFrames {s : System} {f : Frame} :
    f ∈ unclaimedFrames s donation claimed ↔
      ∃ i, processKernelObjPages + claimed ≤ i ∧ i < donation.count ∧
        f = s.pageAt donation.header i / pageSize := by
  unfold unclaimedFrames
  rw [mem_map]
  constructor
  · rintro ⟨a, ha, rfl⟩
    obtain ⟨j, hj⟩ := getElem?_of_mem ha
    rw [getElem?_drop, getElem?_dataPages] at hj
    split at hj
    · rename_i hlt
      cases hj
      exact ⟨_, Nat.le_add_right _ _, hlt, rfl⟩
    · cases hj
  · rintro ⟨i, hlo, hhi, rfl⟩
    refine ⟨s.pageAt donation.header i, mem_of_getElem? (i := i - (processKernelObjPages +
      claimed)) ?_, rfl⟩
    rw [getElem?_drop, getElem?_dataPages, Nat.add_sub_cancel' hlo, if_pos hhi]
    rfl

/-- The donation is consumed and the pages the child does not use are freed. -/
theorem Inv.intoConsumed (hinv : Inv t) (hpend : t.pending = [])
    (hent : t.sys.table id = some ent) (horg : ent.origin = .buddy)
    (hm : (t.sys.headers ent.headerKva).mapCount = 0)
    (hle : claimed ≤ ent.count - processKernelObjPages) (hR : R.unregister id) :
    ∃ t1 t', Cap.intoConsumed ⟨ent.headerKva, ent.count⟩ claimed t.sys = .ok () t'.sys ∧
      Moves R t t' ∧ Consumed id ent t t1 ∧
      Given (unclaimedFrames t.sys ⟨ent.headerKva, ent.count⟩ claimed) t1 t' := by
  have hentry := hinv.table.entryOf hent
  -- the donation is mapped nowhere, so revoking it finds no page to clear
  have hmap : t.sys.MappingsPresent ent.headerKva ent.count := by
    intro p hp P hP v hv
    rw [hinv.rangesOf_nil hent hm hP] at hv
    cases hv
  obtain ⟨t1, hrun, hmoves, hcons⟩ := hinv.consume (R := R) hpend hent hmap
    (hinv.unmapped_ranges hent hm) hR t.sys.objects
  have hsame : t1.sys.setObjects t.sys.objects = t1.sys := by
    rw [← hcons.frame.2.1]
    rfl
  rw [hsame] at hrun
  have hrun' : consumePagesetApply ent.headerKva t.sys = .ok () t1.sys := hrun
  have hdata := hinv.owns.data id ent hent (by rw [horg]; decide)
  have hnd : (unclaimedFrames t.sys ⟨ent.headerKva, ent.count⟩ claimed).Nodup := by
    unfold unclaimedFrames
    rw [map_drop]
    exact hdata.nodup_frames.sublist (drop_sublist _ _)
  have hloose : ∀ f ∈ unclaimedFrames t.sys ⟨ent.headerKva, ent.count⟩ claimed,
      t1.owner f = .loose := by
    intro f hf
    obtain ⟨i, -, hi, rfl⟩ := mem_unclaimedFrames.mp hf
    exact hcons.loose (.inr (hdata.owned i hi))
  obtain ⟨t2, hfree, hmv, hgiven⟩ := (hmoves.inv hinv).deallocPages (R := R) hnd hloose
  refine ⟨t1, t2, ?_, hmoves.trans hmv, hcons, hgiven⟩
  have hlist : ((BackedHeader.pagesSlice ⟨t.sys.headers ent.headerKva, ent.count⟩).drop
      (processKernelObjPages + claimed)).map (· / pageSize)
      = unclaimedFrames t.sys ⟨ent.headerKva, ent.count⟩ claimed := rfl
  simp only [Cap.intoConsumed, if_neg (Nat.not_lt.mpr hle), bind_apply,
    readHeaderBacked_apply hentry, andThen_ok, hrun', hlist, hfree]

end Donation

/-! ## The child -/

section Child

variable {R : MoveRule} {t : Ledger} {C : Panic → Prop} {E : SyscallError → Ledger → Prop}

theorem slotInsert_emptyTable {r : Rights} {k : HandleKind} (hk : k ≠ .empty) :
    slotInsert emptyTable r k = .ok (emptyTable.set 0 ⟨r, k.unmapped⟩, 0) := by
  unfold slotInsert
  rw [if_neg hk]
  rfl

/-- The handle table of the child holds at most a copy of the parent's handle. -/
theorem copyParentHandle_runs (hinv : Inv t) {parent : Option HandleEntry}
    (hparent : ∀ e, parent = some e → SlotOk t.sys e ∧ e.kind ≠ .empty ∧ e.kind.isPageset = false)
    (hC : ∀ e, parent = some e → TokensSpent t.sys e → C .tokenExhausted) :
    Runs R t (copyParentHandle parent) (fun handles t' => Minted t t' ∧
      ∀ e' ∈ handles, e' = .EMPTY ∨ ∃ e, parent = some e ∧ e.CopyOf e' ∧ SlotOk t'.sys e' ∧
        e'.kind.isPageset = false) E C := by
  unfold copyParentHandle
  cases parent with
  | none =>
    refine .pure ⟨.refl, fun e' he' => .inl ?_⟩
    exact eq_of_mem_replicate he'
  | some e =>
    obtain ⟨hok, hne, hps⟩ := hparent e rfl
    refine .bind hinv ((exportKind_runs hinv hok (hC e rfl)).mono
      (fun k t' _ ⟨hmint, hok', hcopy, hpk, _⟩ _ => ?_) (fun _ _ _ h => h) fun _ h => h)
    have hk : k ≠ .empty := by
      rintro rfl
      rcases hcopy.kind with hkind | ⟨f, token, token', -, hkind⟩
      · apply hne
        cases hek : e.kind <;> rw [hek] at hkind <;> first | rfl | cases hkind
      · cases hkind
    rw [slotInsert_emptyTable hk]
    refine .pure ⟨hmint, fun e' he' => ?_⟩
    rcases mem_or_eq_of_mem_set he' with he' | rfl
    · exact .inl (eq_of_mem_replicate he')
    · refine .inr ⟨e, rfl, hcopy, hok', ?_⟩
      rw [hps] at hpk
      cases k <;> first | rfl | cases hpk

end Child

/-! ## The apply phase -/

/-- What a successful creation did. -/
structure Created (donation : PageSetRef) (child : ChildFrames) (built : Provisioned)
    (t t' : Ledger) : Prop where
  settled : Settled t t'
  fresh : t.sys.procs child.process = none
  proc : ∃ handles, t'.sys.procs child.process
    = some ⟨built.space, child.handleTable, handles, 1, built.ownedPages⟩
  thread : some ⟨child.tcb, some child.process, .directMap child.stack⟩ ∈ t'.sys.threads
  freed : ∀ f ∈ unclaimedFrames t.sys donation built.workspaceClaimed, t'.sys.free f = true
  /-- Pages of a consumed PageSet that the child does not own belong to nobody. -/
  lost : ∀ h ∈ built.headers, ∀ f, t.owner f = .pageSet h →
    f ∉ built.ownedPages.map (· / pageSize) → t'.owner f = .loose
  gone : ∀ id ent, t'.sys.table id = some ent → t.sys.table id = some ent ∧
    ent.headerKva ≠ donation.header ∧ ent.headerKva ∉ built.headers

section Apply

variable {R : MoveRule} {t : Ledger} {p : ProcKva} {P : Process} {args : CreateArgs}
  {donation : PageSetRef} {child : ChildFrames} {parent : Option HandleEntry} {built : Provisioned}
  {C : Panic → Prop} {E : SyscallError → Ledger → Prop}

variable {s : System} {stack : PageSetRef} {i : Nat}

/-- Every owned page is a page of a consumed PageSet. -/
theorem BuiltOk.owned_source
    (hb : BuiltOk s P args donation stack built) (hst : RefOk s stack) {a : PhysAddr}
    (ha : a ∈ built.ownedPages) :
    ∃ h ∈ built.headers, ∃ c i, RefOk s ⟨h, c⟩ ∧ i < c ∧ a = s.pageAt h i := by
  rcases (hb.owned a).mp ha with ⟨j, h, i, hj, hn, rfl⟩ | ⟨i, hi, rfl⟩
  · grind [hb.headers, hb.named, hn.unique]
  · exact ⟨stack.header, (hb.headers _).mpr (.inr rfl), stack.count, i, hst, hi, rfl⟩

/-- The pages of the donation the child is made of, in the order of its frame list. -/
def childIndices (claimed : Nat) : List Nat :=
  [0, 1, 3, 2] ++ (range claimed).map (processKernelObjPages + ·)

theorem mem_childIndices {claimed : Nat} (hi : i ∈ childIndices claimed) :
    i < processKernelObjPages + claimed := by
  simp only [childIndices, mem_append, mem_cons, not_mem_nil, or_false,
    mem_map, mem_range] at hi
  unfold processKernelObjPages at *
  omega

theorem nodup_childIndices (claimed : Nat) : (childIndices claimed).Nodup := by
  unfold childIndices
  rw [nodup_append]
  refine ⟨by decide, List.Nodup.map (fun _ _ h => Nat.add_left_cancel h) nodup_range, ?_⟩
  intro a ha b hb
  obtain ⟨j, -, rfl⟩ := mem_map.mp hb
  simp only [mem_cons, not_mem_nil, or_false] at ha
  unfold processKernelObjPages
  omega

/-- The frames of the child are pages of the donation and the owned pages. -/
theorem Prepared.childFrames_perm (hp : Prepared s P args donation child parent built)
    (hb : BuiltOk s P args donation stack built) (handles : List HandleEntry) :
    (childFrameList child.process ⟨built.space, child.handleTable, handles, 1, built.ownedPages⟩
      child.tcb child.stack).Perm ((childIndices built.workspaceClaimed).map
        (fun i => s.pageAt donation.header i / pageSize) ++
          built.ownedPages.map (· / pageSize)) := by
  unfold childFrameList childIndices
  rw [hp.childEq]
  simp only [map_cons, cons_append, nil_append, map_map]
  refine (((((hb.frames.append_right _).cons _).cons _).cons _).cons _)

variable (hinv : Inv t) (hprep : Prepared t.sys P args donation child parent built)
include hinv hprep

theorem Prepared.donation_inj {j : Nat} (hi : i < donation.count) (hj : j < donation.count)
    (heq : t.sys.pageAt donation.header i / pageSize = t.sys.pageAt donation.header j / pageSize) :
    i = j := by
  exact (hinv.refData hprep.donationOk).frame_inj hi hj heq

omit hinv in
/-- Indices of the donation that the child uses are pages of it. -/
theorem Prepared.index_lt (hb : BuiltOk t.sys P args donation stack built)
    (hi : i ∈ childIndices built.workspaceClaimed) : i < donation.count := by
  have h1 := mem_childIndices hi
  have h2 := hb.claimed
  have h3 := hprep.count.1
  unfold processMinPages at h3
  unfold processKernelObjPages at *
  omega

theorem Prepared.childFrames_nodup
    (hb : BuiltOk t.sys P args donation stack built) (hst : RefOk t.sys stack)
    (hnot : donation.header ∉ built.headers) (handles : List HandleEntry) :
    (childFrameList child.process ⟨built.space, child.handleTable, handles, 1, built.ownedPages⟩
      child.tcb child.stack).Nodup := by
  rw [(hprep.childFrames_perm hb handles).nodup_iff, nodup_append]
  refine ⟨?_, ?_, ?_⟩
  · refine List.Nodup.map_on (fun i hi j hj heq => ?_) (nodup_childIndices _)
    exact hprep.donation_inj hinv (hprep.index_lt hb hi) (hprep.index_lt hb hj) heq
  · refine nodup_frames (fun a ha => ?_) hb.ownedNodup
    obtain ⟨h, -, c, i, hok, hi, rfl⟩ := hb.owned_source hst ha
    exact (hinv.goodPage hok hi).1
  · intro f hf g hg heq
    obtain ⟨i, hi, rfl⟩ := mem_map.mp hf
    obtain ⟨a, ha, rfl⟩ := mem_map.mp hg
    obtain ⟨h, hh, c, j, hok, hj, rfl⟩ := hb.owned_source hst ha
    have h1 := (hinv.refData hprep.donationOk).owned i (hprep.index_lt hb hi)
    have h2 := (hinv.refData hok).owned j hj
    have h3 : t.owner (t.sys.pageAt donation.header i / pageSize) = .pageSet h := by
      rw [heq]
      exact h2
    rw [show t.owner (t.sys.pageAt donation.header i / pageSize) = .pageSet donation.header
      from h1] at h3
    cases h3
    exact hnot hh

/-- The owner of a page of another PageSet does not change with the donation. -/
theorem Prepared.ne_of_owner {h : HeaderKva} {f : Frame} (hh : h ≠ donation.header)
    (hf : t.owner f = .pageSet h) : f ∉ unclaimedFrames t.sys donation built.workspaceClaimed := by
  intro hmem
  obtain ⟨i, -, hi, rfl⟩ := mem_unclaimedFrames.mp hmem
  rw [show t.owner (t.sys.pageAt donation.header i / pageSize) = _ from
    (hinv.refData hprep.donationOk).owned i hi] at hf
  cases hf
  exact hh rfl

/-- The apply phase: the donation and the recorded PageSets are consumed and
    the child is made of their pages. -/
theorem applyCreate_runs (hpend : t.pending = []) (hP : t.sys.procs p = some P) (hR : R.Frees t.sys)
    (hins : ∀ e e', parent = some e → e.CopyOf e' → R.insert child.process e')
    (hCtoken : ∀ e, parent = some e → TokensSpent t.sys e → C .tokenExhausted)
    (hCdouble : donation.header ∈ built.headers → C .doubleRelease)
    (hCclear : ∀ h ∈ built.headers, ∀ c, RefOk t.sys ⟨h, c⟩ → ¬ t.sys.NoOverlap h c →
      C .clearValidatedPte) :
    Runs R t (applyCreate donation child parent built)
      (fun _ t' => Created donation child built t t' ∧ donation.header ∉ built.headers) E C := by
  obtain ⟨stack, hst, hstack, hb⟩ := hprep.builtOk
  obtain ⟨id, ent, hent, hh, hcount, horg⟩ := hprep.donationOk
  obtain ⟨dh, dc⟩ := donation
  dsimp only at hh hcount
  subst hh hcount
  have hdata := hinv.refData hprep.donationOk
  obtain ⟨t1, t2, hrun1, hm1, hcons, hgiven⟩ := hinv.intoConsumed (R := R) hpend hent horg
    hprep.unmapped hb.claimed (hR id ent (hinv.held_of_holds hP hprep.resources hent rfl))
  have hinv2 := hm1.inv hinv
  have hpend2 : t2.pending = [] := by rw [hgiven.pending, hcons.pending, hpend]
  have hmapD : t.sys.MappingsPresent ent.headerKva ent.count := by
    intro q _ Q hQ v hv
    rw [hinv.rangesOf_nil hent hprep.unmapped hQ] at hv
    cases hv
  obtain ⟨hthreads1, hobjects1, -, hfree1, htable1⟩ := hcons.frame
  unfold applyCreate
  refine .bind_moves hrun1 hm1 (.bind hinv2 ((consumeAll_runs (R := R) (C := C) built.headers
    hinv2 hpend2 hb.headersNodup (fun k ent' hk hmem => ?_) ?_ ?_).mono ?_
      (fun _ _ _ h => h) fun _ h => h))
  · rw [hgiven.sys] at hk
    obtain ⟨hk, -⟩ := hcons.table_back hinv.table hent hk
    rcases (hb.headers _).mp hmem with ⟨j, i, -, m, r, va, -, hslot, -⟩ | heq
    · exact hR k ent' (hinv.held_of_holds hP ⟨r, va, hslot⟩ hk rfl)
    · exact hR k ent' (hinv.held_of_holds hP hstack hk heq)
  · -- every header but the donation's own is still there
    intro h hmem
    by_cases hne : h = ent.headerKva
    · refine .inr ⟨?_, hCdouble (hne ▸ hmem)⟩
      obtain ⟨s', hrev, hs'⟩ := hcons.sys
      rw [hgiven.sys, hs', hne]
      exact if_pos rfl
    · have hp : ∃ c, RefOk t.sys ⟨h, c⟩ := by
        rcases (hb.headers h).mp hmem with ⟨j, i, hj, hn⟩ | rfl
        · grind [hb.named, hn.unique]
        · exact ⟨stack.count, hst⟩
      obtain ⟨c, hok⟩ := hp
      have hmap := hprep.valid h hmem c hok
      rw [hgiven.sys]
      exact .inl ⟨c, (hcons.ref hent hok hne).1,
        hcons.mappings hinv hent horg hmapD hok hne hmap⟩
  · intro h hmem c hok hnot
    rw [hgiven.sys] at hok hnot
    obtain ⟨hok0, hne⟩ := hcons.ref_back hinv.table hent hok
    exact hCclear h hmem c hok0 fun hno => hnot (hcons.noOverlap hinv hne hno)
  rintro _ t3 hm3 ⟨hall, hpledged⟩ hinv3
  have hnot : ent.headerKva ∉ built.headers := by
    intro hmem
    obtain ⟨c, hok, -⟩ := hpledged _ hmem
    rw [hgiven.sys] at hok
    exact (hcons.ref_back hinv.table hent hok).2 rfl
  have hobjects3 : t3.sys.objects = t.sys.objects := by
    rw [hall.objects, hgiven.sys]
    exact hobjects1
  have hthreads3 : t3.sys.threads = t.sys.threads := by
    rw [hall.threads, hgiven.sys]
    exact hthreads1
  -- the copy of the parent's handle
  have hparent : ∀ e, parent = some e →
      SlotOk t3.sys e ∧ e.kind ≠ .empty ∧ e.kind.isPageset = false := by
    intro e he
    obtain ⟨handle, -, hi, hne, hps⟩ := hprep.parentOk e he
    refine ⟨?_, hne, hps⟩
    have hok := hinv.slots.procs p P hP e (mem_of_getElem? hi)
    unfold SlotOk at hok ⊢
    rw [hobjects3]
    cases hk : e.kind <;> rw [hk] at hok hps <;> first | exact hok | cases hps
  have htoken : ∀ e, parent = some e → TokensSpent t3.sys e → C .tokenExhausted := by
    rintro e he ⟨f, token, n, hk, hn, hlast⟩
    exact hCtoken e he ⟨f, token, n, hk, hobjects3 ▸ hn, hlast⟩
  refine .bind hinv3 ((copyParentHandle_runs hinv3 hparent htoken).mono ?_ (fun _ _ _ h => h)
    fun _ h => h)
  rintro handles t4 hm4 ⟨hmint, hhandles⟩ hinv4
  obtain ⟨hprocs4, htable4, hheaders4, hused4, hthreads4⟩ := hmint.fields
  -- the frames of the other consumed PageSets change hands in `consumeAll` only
  have hloosed : ∀ h ∈ built.headers, ∀ f, t.owner f = .pageSet h → t4.owner f = .loose := by
    intro h hmem f hf
    have hne : h ≠ ent.headerKva := fun heq => hnot (heq ▸ hmem)
    rw [hmint.owner]
    apply hall.loosed f h hmem
    rw [hgiven.owner _ (hprep.ne_of_owner hinv hne hf), hcons.owner, if_neg, hf]
    rw [hf]
    simpa using hne
  -- every frame of the child is loose by now
  have hloose : ∀ f ∈ childFrameList child.process
      ⟨built.space, child.handleTable, handles, 1, built.ownedPages⟩ child.tcb child.stack,
      t4.owner f = .loose := by
    intro f hf
    rcases mem_append.mp ((hprep.childFrames_perm hb handles).mem_iff.mp hf) with hf | hf
    · obtain ⟨i, hi, rfl⟩ := mem_map.mp hf
      have hlt := hprep.index_lt hb hi
      have hown : t2.owner (t.sys.pageAt ent.headerKva i / pageSize) = .loose := by
        rw [hgiven.owner]
        · exact hcons.loose (.inr (hdata.owned i hlt))
        · intro hmem
          obtain ⟨j, hlo, hj, heq⟩ := mem_unclaimedFrames.mp hmem
          have := hprep.donation_inj hinv hlt hj heq
          have := mem_childIndices hi
          omega
      rw [hmint.owner]
      exact hall.loose hown
    · obtain ⟨a, ha, rfl⟩ := mem_map.mp hf
      obtain ⟨h, hmem, c, i, hok, hi, rfl⟩ := hb.owned_source hst ha
      exact hloosed h hmem _ ((hinv.refData hok).owned i hi)
  have hproc : t4.sys.procs child.process = none := by
    cases hQ : t4.sys.procs child.process with
    | none => rfl
    | some Q =>
      have h1 := (hinv4.owns.procs _ Q hQ).process
      rw [hloose child.process mem_cons_self] at h1
      cases h1
  have hroom : (t4.sys.setProc child.process
      ⟨built.space, child.handleTable, handles, 1, built.ownedPages⟩).hasRoom = true := by
    have hr := hprep.room
    unfold hasRoom at hr ⊢
    rw [setProc_threads, hthreads4, hthreads3]
    exact hr
  obtain ⟨i, hi, hadd⟩ := addThread_apply (ε := SyscallError)
    ⟨child.tcb, some child.process, .directMap child.stack⟩ hroom
  have hslots : ∀ e ∈ handles, SlotOk t4.sys e ∧ e.kind.isPageset = false ∧
      (e.kind ≠ .empty → R.insert child.process e) := by
    intro e he
    rcases hhandles e he with rfl | ⟨e0, he0, hcopy, hok, hps⟩
    · exact ⟨.empty, rfl, fun hne => absurd rfl hne⟩
    · exact ⟨hok, hps, fun _ => hins e0 e he0 hcopy⟩
  have hmove : Move R t4 _ := .spawn hproc hi hloose
    (hprep.childFrames_nodup hinv hb hst hnot handles)
    (fun a ha => by
      obtain ⟨h, -, c, j, hok, hj, rfl⟩ := hb.owned_source hst ha
      exact (hinv.goodPage hok hj).1)
    rfl
    (fun e he => (hslots e he).1) (fun e he => (hslots e he).2.1)
    (fun v e hv he => hb.maps v e hv he) (fun e he => (hslots e he).2.2)
  have hset : Settled t t4 := by
    have hset2 : Settled t1 t2 :=
      .of_same hpend2 (by rw [hgiven.sys]; rfl) (by rw [hgiven.sys]; rfl)
    exact (hcons.settled hinv.table hent hpend).trans (hset2.trans
      (hall.settled.trans (.of_same (hmint.pending.trans hall.settled.pending) htable4 hheaders4)))
  refine .of_ok (a := ()) ?_ hmove.one
    ⟨⟨⟨hset.pending, hset.orphan⟩, ?_, ⟨handles, if_pos rfl⟩, ?_, fun f hf => ?_,
      fun h hmem f hf hno => ?_, fun k ent' hk => ?_⟩, hnot⟩
  · simp only [bind_apply, modify_apply, andThen_ok, hadd, if_true, pure_apply]
    rfl
  · have hzero : t.owner child.process = .pageSet ent.headerKva := by
      rw [hprep.childEq]
      exact hdata.owned 0 ent.count_pos
    exact (hinv.owns.inert (by rw [hzero]; rfl)).proc
  · obtain ⟨hlt, -⟩ := List.getElem?_eq_some_iff.mp hi
    exact mem_of_getElem? (getElem?_set_self hlt)
  · obtain ⟨objects, hs4⟩ := hmint.sys
    show t4.sys.free f = true
    rw [hs4]
    show t3.sys.free f = true
    rw [hall.free, hgiven.sys, free_setFree, if_pos hf]
  · have hnotmem : f ∉ childFrameList child.process
        ⟨built.space, child.handleTable, handles, 1, built.ownedPages⟩ child.tcb child.stack := by
      rw [(hprep.childFrames_perm hb handles).mem_iff, mem_append, not_or]
      refine ⟨fun hf' => ?_, hno⟩
      obtain ⟨j, hj, rfl⟩ := mem_map.mp hf'
      rw [show t.owner (t.sys.pageAt ent.headerKva j / pageSize) = _ from
        hdata.owned j (hprep.index_lt hb hj)] at hf
      cases hf
      exact hnot hmem
    show (if f ∈ childFrameList _ _ _ _ then _ else t4.owner f) = _
    rw [if_neg hnotmem, hloosed h hmem f hf]
  · have hk4 : t4.sys.table k = some ent' := hk
    rw [htable4] at hk4
    obtain ⟨hk2, hnotin⟩ := hall.gone k ent' hk4
    rw [hgiven.sys] at hk2
    have hk1 : t1.sys.table k = some ent' := hk2
    grind [hinv.table.unique]

end Apply

/-! ## The call -/

/-- How a call that is not refused stops the kernel. -/
inductive CreateStops (s : System) (P : Process) (args : CreateArgs) : Panic → Prop where
  /-- The sum of the mapping count and the stack pages wrapped. -/
  | overrun (h : 2 ^ 64 ≤ args.mappingCount + maxPracticalPagesPerSet) :
      CreateStops s P args .scratchOverrun
  /-- The stack PageSet is the process-resources PageSet. -/
  | twice {h : HeaderKva} (hst : P.HoldsPageSet args.stackPageset h)
      (hres : P.HoldsPageSet args.processResources h) : CreateStops s P args .doubleRelease
  /-- A process has mapped two handles to a consumed PageSet over each other. -/
  | overlap {h : HeaderKva} {c : Nat}
      (hused : P.HoldsPageSet args.stackPageset h ∨
        ∃ j i, j < args.mappingCount ∧ args.Names P j h i)
      (href : RefOk s ⟨h, c⟩) (hover : ¬ s.NoOverlap h c) : CreateStops s P args .clearValidatedPte
  /-- The endpoint of the copied parent handle is out of tokens. -/
  | token {handle : Nat} {e : HandleEntry} (hcopy : args.parentHandleToCopy = some handle)
      (he : P.handles[handle]? = some e) (hspent : TokensSpent s e) :
      CreateStops s P args .tokenExhausted

/-- What a successful `sys_create_process` did. -/
structure CreateDone (t : Ledger) (P : Process) (args : CreateArgs) (t' : Ledger) : Prop where
  intro ::
  done : ∃ donation child parent built,
    Prepared t.sys P args donation child parent built ∧ donation.header ∉ built.headers ∧
      Created donation child built t t'

theorem sysCreateProcess_runs {R : MoveRule} {t : Ledger} {p : ProcKva} {P : Process}
    {C : Panic → Prop} (hinv : Inv t) (hpend : t.pending = []) (hP : t.sys.procs p = some P)
    (hR : R.Frees t.sys) {info : Option CreateArgs}
    (hapart : ∀ args, info = some args → args.ScratchApart P)
    (hins : ∀ args handle q e e', info = some args → args.parentHandleToCopy = some handle →
      t.sys.procs q = none → P.handles[handle]? = some e → e.kind ≠ .empty →
      e.CopyOf e' → R.insert q e')
    (hC : ∀ args pn, info = some args → CreateStops t.sys P args pn → C pn) :
    Runs R t (sysCreateProcess p info)
      (fun _ t' => ∃ args, info = some args ∧ CreateDone t P args t') (fun _ t' => t' = t) C := by
  unfold sysCreateProcess
  refine .bind_orFail (fun args hargs => ?_) fun _ => rfl
  have hkeeps := Keeps.mapErr (f := CreateProcessError.toSyscallError)
    (prepareCreate_keeps (C := C) hinv hpend hP (hapart args hargs)
      fun h => hC args _ hargs (.overrun h))
  rcases hkeeps.cases with ⟨⟨donation, child, parent, built⟩, heq, hprep⟩ | ⟨e, heq⟩ | ⟨pn, heq, hp⟩
  · refine .bind_ok heq ?_
    dsimp only at hprep ⊢
    obtain ⟨stack, hst, hstack, hb⟩ := hprep.builtOk
    -- the child's process object is the first page of the donation, so no process is there
    have hfresh : t.sys.procs child.process = none := by
      have hpos : 0 < donation.count := by
        have := hprep.count.1
        unfold processMinPages at this
        omega
      have hzero : t.owner child.process = .pageSet donation.header := by
        rw [hprep.childEq]
        exact (hinv.refData hprep.donationOk).owned 0 hpos
      exact (hinv.owns.inert (by rw [hzero]; rfl)).proc
    refine (applyCreate_runs (C := C) hinv hprep hpend hP hR (fun e e' hparent hcopy => ?_)
      (fun e hparent hspent => ?_) (fun hmem => ?_) fun h hmem c href hover => ?_).mono
      (fun _ t' _ hpost => ?_) (fun _ _ _ he => he) fun _ h => h
    · obtain ⟨handle, hcopy', he, hne, -⟩ := hprep.parentOk e hparent
      exact hins args handle _ e e' hargs hcopy' hfresh he hne hcopy
    · obtain ⟨handle, hcopy, he, -⟩ := hprep.parentOk e hparent
      exact hC args _ hargs (.token hcopy he hspent)
    -- each way to stop, as the call's arguments show it
    · rcases (hb.headers _).mp hmem with ⟨j, i, hj, hn⟩ | heq'
      · grind [hb.named, hn.unique]
      · exact hC args _ hargs (.twice (heq' ▸ hstack) hprep.resources)
    · refine hC args _ hargs (.overlap ?_ href hover)
      rcases (hb.headers h).mp hmem with hn | rfl
      · exact .inr hn
      · exact .inl hstack
    · exact ⟨args, hargs, ⟨donation, child, parent, built, hprep, hpost.2, hpost.1⟩⟩
  · exact .bind_err heq rfl
  · refine .of_stop ?_ hp
    rw [bind_apply, heq]
    rfl

end Lockjaw.Cap
