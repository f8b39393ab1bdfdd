/-
  Lockjaw.Cap.ExitRuns

  The teardown of an exited thread as a run of moves.

  The thread leaves its slot and its pages are freed.  With the last thread the
  process goes too: everything it owned becomes loose at once and is then given
  back page by page, and its handles are dropped one slot at a time, each
  counted until its turn comes.
-/

import Lockjaw.Cap.DonateRuns

namespace Lockjaw.Cap

open Lib Lib.Fallible Cap.System List

/-! ## Giving frames back -/

/-- Only the allocators changed, and loose frames outside `fs` stay loose. -/
structure Given (fs : List Frame) (t t' : Ledger) : Prop where
  sys : t'.sys = t.sys.setFree fs true
  owner : ∀ f, f ∉ fs → t'.owner f = t.owner f
  pending : t'.pending = t.pending

section Give

variable {R : MoveRule} {t : Ledger} {fs : List Frame} {f : Frame}

theorem Inv.free_of_loose (hinv : Inv t) (hf : t.owner f = .loose) : t.sys.free f = false := by
  apply Bool.eq_false_iff.mpr
  intro h
  rw [hinv.owns.free f h] at hf
  cases hf

/-- Loose frames, each once, are freed. -/
theorem Inv.deallocPages (hinv : Inv t) (hnd : fs.Nodup) (hloose : ∀ f ∈ fs, t.owner f = .loose) :
    ∃ t', forEach deallocPage fs t.sys = .ok () t'.sys ∧ Moves R t t' ∧ Given fs t t' :=
  ⟨_, deallocPages_apply fs t.sys hnd fun f hf => hinv.free_of_loose (hloose f hf),
    (hinv.giveMove hloose).one, rfl, fun _ hf => if_neg hf, rfl⟩

theorem Inv.deallocPage (hinv : Inv t) (hf : t.owner f = .loose) :
    ∃ t', Cap.deallocPage f t.sys = .ok () t'.sys ∧ Moves R t t' ∧ Given [f] t t' := by
  have hloose : ∀ g ∈ [f], t.owner g = .loose := fun g hg => by
    rw [mem_singleton.mp hg]
    exact hf
  refine ⟨_, ?_, (hinv.giveMove hloose).one, rfl, fun _ hf => if_neg hf, rfl⟩
  simp [Cap.deallocPage, hinv.free_of_loose hf]

end Give

/-! ## Dropping the handles of an exited process -/

section Pending

variable {R : MoveRule} {t : Ledger} {e : HandleEntry} {es : List HandleEntry}

variable {s : System} {h : HeaderKva} {hdr : PageSetHeader} {r : Rights} {va : VaPage}
  {id : Fin maxPagesets} {ent : PageSetEntry}

@[simp] theorem System.setHeader_setHeader {hdr' : PageSetHeader} :
    (s.setHeader h hdr).setHeader h hdr' = s.setHeader h hdr' := by
  unfold setHeader
  simp only [mk.injEq, true_and, and_true]
  funext k
  by_cases hk : k = h <;> simp [hk]

/-- The counters after slot `e` was dropped. -/
def System.uncount (s : System) (e : HandleEntry) : System :=
  { s with headers := fun h => (s.headers h).recount h e .EMPTY }

/-- Dropping a slot that names `h` writes the counters of `h`. -/
theorem uncount_eq (hhdr : hdr = (s.headers h).recount h ⟨r, .pageSet h va⟩ .EMPTY) :
    s.uncount ⟨r, .pageSet h va⟩ = s.setHeader h hdr := by
  symm
  unfold setHeader uncount
  simp only [mk.injEq, true_and, and_true]
  funext k
  by_cases hk : k = h
  · rw [if_pos hk, hk, hhdr]
  · rw [if_neg hk]
    exact (recount_of_not_names _ (names_pageSet_of_ne hk) rfl).symm

/-- What dropping one slot keeps. -/
structure Dropped (es : List HandleEntry) (t t' : Ledger) : Prop where
  pending : t'.pending = es
  orphan : ∀ k ent, Orphan t'.sys k ent → Orphan t.sys k ent
  held : ∀ k ent, Held t'.sys k ent → Held t.sys k ent
  loose : ∀ f, t.owner f = .loose → t'.owner f = .loose

theorem Dropped.trans {es es' : List HandleEntry} {t t' t'' : Ledger} (h : Dropped es t t')
    (h' : Dropped es' t' t'') : Dropped es' t t'' :=
  ⟨h'.pending, fun k ent ho => h.orphan k ent (h'.orphan k ent ho),
    fun k ent hh => h.held k ent (h'.held k ent hh), fun f hf => h'.loose f (h.loose f hf)⟩

/-- The counters of the PageSet of a slot under teardown. -/
theorem Inv.pending_pos (hinv : Inv t) (hpend : t.pending = e :: es)
    (hent : t.sys.table id = some ent) :
    (e.names ent.headerKva = true → 0 < (t.sys.headers ent.headerKva).refcount) ∧
      (e.maps ent.headerKva = true → 0 < (t.sys.headers ent.headerKva).mapCount) := by
  constructor
  · intro hn
    rw [hinv.accounts.refcount id ent hent, hpend, refsIn_cons, if_pos hn]
    omega
  · intro hm
    rw [hinv.accounts.mapCount id ent hent, hpend, mapsIn_cons, if_pos hm]
    omega

/-- The last step of dropping a slot of `ent`: `s` is the state before its
    reference is taken away. -/
theorem Inv.dropNamed (hinv : Inv t) (hpend : t.pending = ⟨r, .pageSet ent.headerKva va⟩ :: es)
    (hent : t.sys.table id = some ent) (hR : R.unregister id)
    (hs : t.sys.uncount ⟨r, .pageSet ent.headerKva va⟩
      = s.setHeader ent.headerKva { s.headers ent.headerKva with
        refcount := (s.headers ent.headerKva).refcount - 1 })
    (hpos : (s.headers ent.headerKva).refcount ≠ 0) :
    ∃ t', Cap.decRefcountAndMaybeFree ent.headerKva s = .ok () t'.sys ∧ Moves R t t' ∧
      Dropped es t t' := by
  have hmove : Move R t ⟨t.sys.uncount ⟨r, .pageSet ent.headerKva va⟩, t.owner, es⟩ :=
    .dropPending hpend
  have hinv1 := hinv.move hmove
  obtain ⟨t', hdec, hmoves, hend⟩ := hinv1.decRefcountAndMaybeFree (R := R) hent hR hs hpos
  refine ⟨t', hdec, hmove.one.trans hmoves, ?_⟩
  -- the counters of the other PageSets stay
  have hother : ∀ k ent', k ≠ id → t.sys.table k = some ent' →
      ((t.sys.uncount ⟨r, .pageSet ent.headerKva va⟩).headers ent'.headerKva)
        = t.sys.headers ent'.headerKva := by
    intro k ent' hk htk
    have hne : ent'.headerKva ≠ ent.headerKva := fun heq =>
      hk (hinv.table.unique k id ent' ent htk hent heq)
    exact recount_of_not_names _ (names_pageSet_of_ne hne) rfl
  have hdown : ∀ k ent', k ≠ id → Orphan (t.sys.uncount ⟨r, .pageSet ent.headerKva va⟩) k ent' →
      Orphan t.sys k ent' := fun k ent' hk ho => ⟨ho.1, hother k ent' hk ho.1 ▸ ho.2⟩
  have hheld : ∀ k ent', Held (t.sys.uncount ⟨r, .pageSet ent.headerKva va⟩) k ent' →
      Held t.sys k ent' := by
    intro k ent' hh
    refine ⟨hh.1, ?_⟩
    by_cases hk : k = id
    · subst hk
      obtain rfl : ent' = ent := Option.some.inj (hh.1.symm.trans hent)
      exact Nat.ne_of_gt ((hinv.pending_pos hpend hent).1 (by simp))
    · exact hother k ent' hk hh.1 ▸ hh.2
  rcases hend with ⟨rfl, hne⟩ | hrel
  · refine ⟨rfl, fun k ent' ho => hdown k ent' ?_ ho, hheld, fun _ hf => hf⟩
    rintro rfl
    obtain rfl : ent' = ent := Option.some.inj (ho.1.symm.trans hent)
    exact hne ho.2
  · refine ⟨hrel.pending, fun k ent' ho => ?_, fun k ent' hh => hheld k ent' (hrel.held hh),
      fun f hf => ?_⟩
    all_goals grind [hrel.orphan, hrel.owner]

/-- One slot of an exited process is dropped. -/
theorem Inv.cleanupEntry (hinv : Inv t) (hpend : t.pending = e :: es) (hR : R.Frees t.sys) :
    ∃ t', Cap.cleanupEntry e t.sys = .ok () t'.sys ∧ Moves R t t' ∧ Dropped es t t' := by
  by_cases hk : e.kind.isPageset = true
  · obtain ⟨r, kind⟩ := e
    cases kind with
    | pageSet h va =>
      have hu : t.sys.used h = true :=
        hinv.slots.pending ⟨r, .pageSet h va⟩ (by rw [hpend]; exact mem_cons_self)
      obtain ⟨id, ent, hent, rfl, -⟩ := hinv.table.registered_entry hu
      have hr := (hinv.pending_pos hpend hent).1 (by simp)
      by_cases hva : va = 0#32
      · subst hva
        unfold Cap.cleanupEntry
        rw [decideCloseHandle_unmapped]
        exact hinv.dropNamed hpend hent (hR id ent ⟨hent, Nat.ne_of_gt hr⟩)
          (uncount_eq (by simp [PageSetHeader.recount])) (Nat.ne_of_gt hr)
      -- a mapped slot gives up its mapping count first; the tables themselves are gone
      · have hm := (hinv.pending_pos hpend hent).2 (by simpa using hva)
        have hb : (va != 0#32) = true := bne_iff_ne.mpr hva
        obtain ⟨t', hdec, hmoves, hdrop⟩ := hinv.dropNamed (R := R) hpend hent
          (hR id ent ⟨hent, Nat.ne_of_gt hr⟩)
          (s := t.sys.setHeader ent.headerKva { t.sys.headers ent.headerKva with
            mapCount := (t.sys.headers ent.headerKva).mapCount - 1 })
          (by
            rw [setHeader_setHeader]
            exact uncount_eq (by simp [PageSetHeader.recount, hb]))
          (by simpa using Nat.ne_of_gt hr)
        refine ⟨t', ?_, hmoves, hdrop⟩
        unfold Cap.cleanupEntry
        rw [decideCloseHandle_mapped hva]
        simp [decBothAndMaybeFree, decMapCount, if_neg (Nat.ne_of_gt hm), hdec]
    | _ => cases hk
  · have hk' : e.kind.isPageset = false := Bool.eq_false_iff.mpr hk
    have hmove : Move R t _ := .dropPending hpend
    have hsame : (fun h => (t.sys.headers h).recount h e .EMPTY) = t.sys.headers := by
      funext h
      exact recount_of_not_names _ (HandleEntry.names_of_not_pageset hk') rfl
    rw [hsame] at hmove
    refine ⟨_, ?_, hmove.one, rfl, fun _ _ ho => ho, fun _ _ hh => hh, fun _ hf => hf⟩
    unfold Cap.cleanupEntry
    obtain ⟨r, kind⟩ := e
    cases kind <;> first | rfl | cases hk'

/-- All slots of an exited process are dropped. -/
theorem Inv.cleanupEntries (es : List HandleEntry) :
    ∀ {t : Ledger}, Inv t → t.pending = es → R.Frees t.sys →
      ∃ t', forEach Cap.cleanupEntry es t.sys = .ok () t'.sys ∧ Moves R t t' ∧ Dropped [] t t' := by
  induction es with
  | nil =>
    intro t _ hpend _
    exact ⟨t, rfl, .refl, hpend, fun _ _ ho => ho, fun _ _ hh => hh, fun _ hf => hf⟩
  | cons e es ih =>
    intro t hinv hpend hR
    obtain ⟨t1, h1, hm1, hd1⟩ := hinv.cleanupEntry hpend hR
    obtain ⟨t2, h2, hm2, hd2⟩ := ih (hm1.inv hinv) hd1.pending (hR.mono hd1.held)
    refine ⟨t2, ?_, hm1.trans hm2, hd1.trans hd2⟩
    rw [forEach, bind_apply, h1, andThen_ok, h2]

end Pending

/-! ## The thread -/

section Thread

variable {R : MoveRule} {t : Ledger} {c : Tcb}

/-- The stack page and the TCB page of a thread given back. -/
def System.freeThread (s : System) (c : Tcb) : System :=
  match c.stack with
  | .image => s
  | .pool f => ((s.setFree [f] true).setFree [c.frame] true).setKvmFree (s.kvmFree + 2)
  | .directMap f => (s.setFree [f] true).setFree [c.frame] true

variable {s : System} {f : Frame} {p : ProcKva}

theorem freeThreadPages_apply (hst : c.stack.frame? = some f)
    (hf : s.free f = false) (hc : s.free c.frame = false) (hne : c.frame ≠ f) :
    freeThreadPages c s = .ok () (s.freeThread c) := by
  have hc' : (s.setFree [f] true).free c.frame = false := by
    rw [free_setFree, if_neg (by simpa using hne)]
    exact hc
  unfold freeThreadPages freeThread
  cases hs : c.stack with
  | image =>
    rw [hs] at hst
    cases hst
  | pool g =>
    rw [hs] at hst
    cases hst
    simp [deallocPage, hf, hc']
  | directMap g =>
    rw [hs] at hst
    cases hst
    simp [deallocPage, hf, hc']

/-- The pages of a thread that left its slot go back. -/
theorem Inv.freeThread (hinv : Inv t) (hst : c.stack.frame? = some f)
    (hf : t.owner f = .loose) (hc : t.owner c.frame = .loose) (hne : c.frame ≠ f) :
    ∃ t', t'.sys = t.sys.freeThread c ∧ Moves R t t' ∧
      (∀ g, g ≠ f → g ≠ c.frame → t'.owner g = t.owner g) ∧ t'.pending = t.pending := by
  obtain ⟨t1, -, hm1, hg1⟩ := hinv.deallocPage (R := R) hf
  have hinv1 := hm1.inv hinv
  have hc1 : t1.owner c.frame = .loose := by
    rw [hg1.owner _ (by simpa using hne)]
    exact hc
  obtain ⟨t2, -, hm2, hg2⟩ := hinv1.deallocPage (R := R) hc1
  have hsys : t2.sys = (t.sys.setFree [f] true).setFree [c.frame] true := by
    rw [hg2.sys, hg1.sys]
  have hown : ∀ g, g ≠ f → g ≠ c.frame → t2.owner g = t.owner g := by
    intro g hgf hgc
    rw [hg2.owner g (by simpa using hgc), hg1.owner g (by simpa using hgf)]
  have hpend : t2.pending = t.pending := hg2.pending.trans hg1.pending
  unfold System.freeThread
  cases hs : c.stack with
  | image =>
    rw [hs] at hst
    cases hst
  | pool g =>
    rw [hs] at hst
    cases hst
    refine ⟨⟨t2.sys.setKvmFree (t.sys.kvmFree + 2), t2.owner, t2.pending⟩, ?_,
      .tail (hm1.trans hm2) ((hm2.inv hinv1).kvmMove _), hown, hpend⟩
    dsimp only
    rw [hsys]
  | directMap g =>
    rw [hs] at hst
    cases hst
    exact ⟨t2, hsys, hm1.trans hm2, hown, hpend⟩

theorem freeThread_setProc {P : Process} :
    (s.freeThread c).setProc p P = (s.setProc p P).freeThread c := by
  unfold freeThread
  cases c.stack <;> rfl

theorem freeThread_dropProc : (s.freeThread c).dropProc p = (s.dropProc p).freeThread c := by
  unfold freeThread
  cases c.stack <;> rfl

theorem freeThread_procs : (s.freeThread c).procs = s.procs := by
  unfold freeThread
  cases c.stack <;> rfl

theorem freeThread_pageSets :
    (s.freeThread c).table = s.table ∧ (s.freeThread c).headers = s.headers := by
  unfold freeThread
  cases c.stack <;> exact ⟨rfl, rfl⟩

end Thread

/-! ## The process -/

section Teardown

variable {R : MoveRule} {t : Ledger} {c : Tcb} {i : Nat} {C : Panic → Prop} {p : ProcKva}
  {P : Process}

/-- Page frames of aligned, distinct addresses are distinct. -/
theorem nodup_frames {as : List PhysAddr} (hal : ∀ a ∈ as, a % pageSize = 0) (hnd : as.Nodup) :
    (as.map (· / pageSize)).Nodup := by
  refine List.Nodup.map_on (fun a ha b hb heq => ?_) hnd
  have heq' : a / pageSize = b / pageSize := heq
  calc a = pageSize * (a / pageSize) := by
        rw [Nat.mul_div_cancel' (Nat.dvd_of_mod_eq_zero (hal a ha))]
    _ = pageSize * (b / pageSize) := by rw [heq']
    _ = b := Nat.mul_div_cancel' (Nat.dvd_of_mod_eq_zero (hal b hb))

/-- A count beyond the array stops the kernel. -/
theorem Inv.freeOwnedPages_stop (hinv : Inv t)
    (halign : ∀ a ∈ P.ownedPages, a % pageSize = 0) (hndo : P.ownedPages.Nodup)
    (hloose : ∀ f ∈ P.ownedPages.map (· / pageSize), t.owner f = .loose)
    (hlen : maxOwnedPages < P.ownedPages.length) :
    freeOwnedPages P t.sys = .stop .ownedPagesIndex := by
  have hsub : ∀ a ∈ P.ownedPages.take maxOwnedPages, a ∈ P.ownedPages :=
    fun a ha => mem_of_mem_take ha
  obtain ⟨t1, h1, -, -⟩ := hinv.deallocPages (R := .closed)
    (nodup_frames (fun a ha => halign a (hsub a ha)) (hndo.sublist (take_sublist _ _)))
    fun f hf => by
      obtain ⟨a, ha, rfl⟩ := mem_map.mp hf
      exact hloose _ (mem_map_of_mem (hsub a ha))
  rw [freeOwnedPages, bind_apply, h1, andThen_ok, if_pos hlen, stop_apply]

/-- The frames of a process that lost its last thread are freed and its handles dropped. -/
theorem Inv.teardown (hinv : Inv t) (hpend : t.pending = P.handles)
    (hlen : P.ownedPages.length ≤ maxOwnedPages)
    (halign : ∀ a ∈ P.ownedPages, a % pageSize = 0) (hndo : P.ownedPages.Nodup)
    (hnd : (p :: P.handleTable :: P.space.tableFrames ++ P.ownedPages.map (· / pageSize)).Nodup)
    (hloose : ∀ f ∈ p :: P.handleTable :: P.space.tableFrames ++ P.ownedPages.map (· / pageSize),
      t.owner f = .loose) (hR : R.Frees t.sys) :
    ∃ t', (do
        freeOwnedPages P
        forEach Cap.deallocPage P.space.tableFrames
        forEach Cap.cleanupEntry P.handles
        Cap.deallocPage P.handleTable
        Cap.deallocPage p : KernelM Unit) t.sys = .ok () t'.sys ∧ Moves R t t' ∧ Settled t t' := by
  simp only [cons_append, nodup_cons, mem_cons, mem_append, not_or,
    nodup_append] at hnd hloose
  obtain ⟨⟨hpt, hptab, hpown⟩, ⟨httab, htown⟩, hndt, -, hdisj⟩ := hnd
  -- owned pages, tables, handles, the handle table, the process: each step finds its frames still
  -- loose
  obtain ⟨t1, h1, hm1, hg1⟩ := hinv.deallocPages (R := R) (nodup_frames halign hndo)
    fun f hf => hloose f (.inr (.inr (.inr hf)))
  have hinv1 := hm1.inv hinv
  obtain ⟨t2, h2, hm2, hg2⟩ := hinv1.deallocPages (R := R) hndt fun f hf => by
    rw [hg1.owner f fun hf' => hdisj f hf f hf' rfl]
    exact hloose f (.inr (.inr (.inl hf)))
  have hinv2 := hm2.inv hinv1
  obtain ⟨t3, h3, hm3, hd3⟩ := Inv.cleanupEntries (R := R) P.handles hinv2
    (by rw [hg2.pending, hg1.pending, hpend]) (hR.mono fun k ent hh => by
      rw [hg2.sys, hg1.sys] at hh
      exact ⟨hh.1, hh.2⟩)
  have hinv3 := hm3.inv hinv2
  have hl3 : ∀ f, f ∉ P.ownedPages.map (· / pageSize) → f ∉ P.space.tableFrames →
      t.owner f = .loose → t3.owner f = .loose := by
    intro f hfo hft hf
    refine hd3.loose f ?_
    rw [hg2.owner f hft, hg1.owner f hfo]
    exact hf
  obtain ⟨t4, h4, hm4, hg4⟩ := hinv3.deallocPage (R := R)
    (hl3 P.handleTable htown httab (hloose _ (.inr (.inl rfl))))
  have hinv4 := hm4.inv hinv3
  have hp4 : t4.owner p = .loose := by
    rw [hg4.owner p (by simpa using hpt)]
    exact hl3 p hpown hptab (hloose p (.inl rfl))
  obtain ⟨t5, h5, hm5, hg5⟩ := hinv4.deallocPage (R := R) hp4
  refine ⟨t5, ?_, hm1.trans (hm2.trans (hm3.trans (hm4.trans hm5))), ?_, fun k ent ho => ?_⟩
  · simp [freeOwnedPages, take_of_length_le hlen, Nat.not_lt.mpr hlen, h1, h2, h3, h4, h5]
  · rw [hg5.pending, hg4.pending, hd3.pending]
  · rw [hg5.sys, hg4.sys] at ho
    have ho' := hd3.orphan k ent ⟨ho.1, ho.2⟩
    rw [hg2.sys, hg1.sys] at ho'
    exact ⟨ho'.1, ho'.2⟩

variable {owner : Frame → Owner}

/-- The frames of a process, each once. -/
theorem ProcessOwned.nodup_all (h : ProcessOwned owner p P) :
    (p :: P.handleTable :: P.space.tableFrames ++ P.ownedPages.map (· / pageSize)).Nodup := by
  have howned : ∀ f ∈ P.ownedPages.map (· / pageSize), owner f = .owned p := by
    intro f hf
    obtain ⟨a, ha, rfl⟩ := mem_map.mp hf
    exact h.owned a ha
  -- frames with different owners are different
  have hne : ∀ {f g : Frame} {o o' : Owner}, owner f = o → owner g = o' → o ≠ o' → f ≠ g := by
    rintro f g o o' hf hg hoo rfl
    exact hoo (hf.symm.trans hg)
  simp only [cons_append, nodup_cons, mem_cons, mem_append, not_or,
    nodup_append]
  refine ⟨⟨hne h.process h.handleTable nofun, fun hm => ?_, fun hm => ?_⟩,
    ⟨fun hm => ?_, fun hm => ?_⟩, h.nodup, nodup_frames h.aligned h.ownedNodup, ?_⟩
  all_goals grind [h.handleTable, h.process, h.tables]

/-- The teardown of the exited thread in slot `i`. -/
theorem finishExit_runs (hinv : Inv t) (hpend : t.pending = [])
    (hi : t.sys.threads[i]? = some (some c)) (hR : R.Frees t.sys)
    (hC : c.stack = .image → C .bootTcbExited)
    (hCowned : ∀ p P, t.sys.procs p = some P → maxOwnedPages < P.ownedPages.length →
      C .ownedPagesIndex) {E : SyscallError → Ledger → Prop} :
    Runs R t (finishExit i c) (fun _ t' => Settled t t') E C := by
  obtain ⟨p, hc, hsome⟩ := hinv.threads.process i c hi
  obtain ⟨P, hP⟩ := Option.isSome_iff_exists.mp hsome
  have hpos := hinv.threads.pos p P hP
  have htcb := hinv.owns.tcb i c hi
  cases hst : c.stack.frame? with
  | none =>
    have himage : c.stack = .image := by
      cases hs : c.stack <;> rw [hs] at hst <;> first | rfl | cases hst
    refine .of_stop ?_ (hC himage)
    simp [finishExit, freeThreadPages, himage]
  | some f =>
    have hstack := hinv.owns.stack i c f hi hst
    have hne : c.frame ≠ f := by
      intro heq
      rw [heq, hstack] at htcb
      cases htcb
    have hnotfree : ∀ g o, t.owner g = o → o ≠ .free → t.sys.free g = false := by
      grind [hinv.owns.free]
    have hfree := freeThreadPages_apply (s := t.sys.setThreads (t.sys.threads.set i none)) hst
      (hnotfree f _ hstack nofun) (hnotfree c.frame _ htcb nofun) hne
    have hP' : ((t.sys.setThreads (t.sys.threads.set i none)).freeThread c).procs p = some P := by
      rw [freeThread_procs]
      exact hP
    by_cases hone : P.threadCount = 1
    · -- the process goes with its last thread
      have hmove : Move R t _ := .reapLast hi hc hP hone hpend
      have hinv1 := hinv.move hmove
      obtain ⟨t2, hs2, hm2, ho2, hp2⟩ := hinv1.freeThread (R := R) hst
        (if_pos (.inr (.inl hstack))) (if_pos (.inl htcb)) hne
      have hown := hinv.owns.procs p P hP
      have hloose : ∀ g ∈ p :: P.handleTable :: P.space.tableFrames ++
          P.ownedPages.map (· / pageSize), t2.owner g = .loose := by
        intro g hg
        have hog : t.owner g = .process p ∨ t.owner g = .handleTable p ∨ t.owner g = .table p ∨
            t.owner g = .owned p := by
          grind [hown.handleTable, hown.owned, hown.process, hown.tables]
        rw [ho2 g ?_ ?_]
        · exact if_pos (.inr (.inr hog))
        · rintro rfl
          rw [hstack] at hog
          simp at hog
        · rintro rfl
          rw [htcb] at hog
          simp at hog
      by_cases hlen : P.ownedPages.length ≤ maxOwnedPages
      swap
      · have hstop := (hm2.inv hinv1).freeOwnedPages_stop hown.aligned hown.ownedNodup
          (fun f hf => hloose f (mem_append_right _ hf)) (Nat.lt_of_not_le hlen)
        refine .of_stop ?_ (hCowned p P hP (Nat.lt_of_not_le hlen))
        rw [hs2] at hstop
        simp only [finishExit, bind_apply, modify_apply, andThen_ok, hfree, hc,
          orStop_some_apply, getProcess_apply hP', if_neg (Nat.ne_of_gt hpos), if_pos hone,
          Cap.teardown, freeThread_dropProc]
        rw [hstop]
        rfl
      obtain ⟨t3, hrun, hm3, hset⟩ := (hm2.inv hinv1).teardown (R := R) hp2 hlen hown.aligned
        hown.ownedNodup hown.nodup_all hloose (hR.mono fun k ent hh => by
          rw [hs2] at hh
          unfold Held at hh
          rw [freeThread_pageSets.1, freeThread_pageSets.2] at hh
          exact ⟨hh.1, hh.2⟩)
      refine .of_ok (a := ()) ?_ (hmove.one.trans (hm2.trans hm3))
        ⟨hset.pending, fun k ent ho => ?_⟩
      · rw [hs2] at hrun
        simp only [finishExit, bind_apply, modify_apply, andThen_ok, hfree, hc,
          orStop_some_apply, getProcess_apply hP', if_neg (Nat.ne_of_gt hpos), if_pos hone,
          Cap.teardown, freeThread_dropProc]
        exact hrun
      · have ho' := hset.orphan k ent ho
        rw [hs2] at ho'
        unfold Orphan at ho'
        rw [freeThread_pageSets.1, freeThread_pageSets.2] at ho'
        exact ⟨ho'.1, ho'.2⟩
    · have hmove : Move R t _ := .reap hi hc hP (by omega)
      have hinv1 := hinv.move hmove
      obtain ⟨t2, hs2, hm2, -, hp2⟩ := hinv1.freeThread (R := R) hst
        (if_pos (.inr hstack)) (if_pos (.inl htcb)) hne
      refine .of_ok (a := ()) ?_ (hmove.one.trans hm2) ⟨hp2.trans hpend, fun k ent ho => ?_⟩
      · simp [finishExit, hfree, hc, getProcess_apply hP', if_neg (Nat.ne_of_gt hpos), if_neg hone,
          freeThread_setProc, hs2]
      · rw [hs2] at ho
        unfold Orphan at ho
        rw [freeThread_pageSets.1, freeThread_pageSets.2] at ho
        exact ⟨ho.1, ho.2⟩

end Teardown

end Lockjaw.Cap
