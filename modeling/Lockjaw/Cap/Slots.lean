/-
  Lockjaw.Cap.Slots

  Handle slots and PageSets as the kernel code changes them: a handle put into
  a table together with its count, a handle taken out and the PageSet released
  with the last one, a PageSet registered and published.

  Each block is a few writes of the source that only together make moves of
  the ledger.  `Settled` is what every system call keeps besides the invariant:
  nothing is left under teardown, and no PageSet is left that nobody refers to.
-/

import Mathlib.Data.List.Nodup
import Lockjaw.Cap.Runs

namespace Lockjaw.Cap

open Lib Cap.System HandleEntry PageSetHeader List

/-! ## Registered PageSets -/

section Registered

variable {s : System} {t : Ledger} {id : Fin maxPagesets} {ent : PageSetEntry} {h : HeaderKva}

theorem TableOk.findByHeaderKva (htab : TableOk s) (hent : s.table id = some ent) :
    s.findByHeaderKva ent.headerKva = some id := by
  have hex : ((finRange maxPagesets).find? fun k =>
      (s.table k).any fun e => e.headerKva == ent.headerKva).isSome := by
    rw [find?_isSome]
    exact ⟨id, mem_finRange id, by simp [hent]⟩
  obtain ⟨k, hk⟩ := Option.isSome_iff_exists.mp hex
  have hp := find?_some hk
  cases hk' : s.table k with
  | none => simp [hk'] at hp
  | some ent' =>
    have heq : ent'.headerKva = ent.headerKva := by simpa [hk'] using hp
    rw [System.findByHeaderKva, hk, htab.unique k id ent' ent hk' hent heq]

theorem TableOk.entryOf (htab : TableOk s) (hent : s.table id = some ent) :
    s.entryOf ent.headerKva = some ent := by
  rw [System.entryOf, htab.findByHeaderKva hent, Option.bind_some, hent]

theorem TableOk.registered_entry (htab : TableOk s) (hu : s.used h = true) :
    ∃ id ent, s.table id = some ent ∧ ent.headerKva = h ∧ s.entryOf h = some ent := by
  obtain ⟨id, ent, hent, rfl⟩ := htab.registered h hu
  exact ⟨id, ent, hent, rfl, htab.entryOf hent⟩

theorem mapsOver_le_refsOver (ps : List ProcKva) : s.mapsOver h ps ≤ s.refsOver h ps := by
  unfold mapsOver refsOver countOver
  induction ps with
  | nil => exact Nat.le_refl 0
  | cons p ps ih =>
    simp only [map_cons, sum_cons]
    refine Nat.add_le_add ?_ ih
    cases s.procs p with
    | none => exact Nat.le_refl 0
    | some P => exact mapsIn_le_refsIn

/-- Every mapping is also a reference. -/
theorem Inv.mapCount_le (hinv : Inv t) (hent : t.sys.table id = some ent) :
    (t.sys.headers ent.headerKva).mapCount ≤ (t.sys.headers ent.headerKva).refcount := by
  rw [hinv.accounts.refcount id ent hent, hinv.accounts.mapCount id ent hent]
  exact Nat.add_le_add (mapsOver_le_refsOver _) mapsIn_le_refsIn

variable {p : ProcKva} {P : Process} {e : HandleEntry}

/-- The counters of the header a slot names. -/
theorem Inv.refcount_pos (hinv : Inv t) (hP : t.sys.procs p = some P) (he : e ∈ P.handles)
    (hn : e.names h = true) (hent : t.sys.table id = some ent) (hh : ent.headerKva = h) :
    0 < (t.sys.headers h).refcount := by grind [hinv.not_named]

theorem Inv.mapCount_pos (hinv : Inv t)
    (hP : t.sys.procs p = some P) {i : Nat} (he : P.handles[i]? = some e)
    (hm : e.maps h = true) (hent : t.sys.table id = some ent) (hh : ent.headerKva = h) :
    0 < (t.sys.headers h).mapCount := by
  subst hh
  rw [hinv.accounts.mapCount id ent hent]
  apply Nat.add_pos_left
  unfold mapsOver countOver
  apply List.sum_pos_iff_exists_pos_nat.mpr
  have hmem : p ∈ t.sys.uniqueProcesses := hinv.threads.mem_uniqueProcesses.mpr (by rw [hP]; rfl)
  exact ⟨_, List.mem_map.mpr ⟨p, hmem, by simp [hP]⟩, mapsIn_pos_of_maps he hm⟩

end Registered

/-! ## Slot writes and their counts -/

section PutSlot

variable {s : System} {p : ProcKva} {P : Process} {i : Nat} {e e' : HandleEntry} {h : HeaderKva}
  {space : AddressSpace}

theorem recount_of_not_names (hdr : PageSetHeader) (hn : e.names h = false)
    (hn' : e'.names h = false) : hdr.recount h e e' = hdr := by
  have hm := Bool.eq_false_iff.mpr (mt names_of_maps (Bool.eq_false_iff.mp hn))
  have hm' := Bool.eq_false_iff.mpr (mt names_of_maps (Bool.eq_false_iff.mp hn'))
  simp [recount, hn, hn', hm, hm']

variable {r : Rights} {va : VaPage}

/-- A handle of `h` that gets a mapping. -/
theorem recount_map (hdr : PageSetHeader) (hva : va ≠ 0#32) :
    hdr.recount h ⟨r, .pageSet h 0#32⟩ ⟨r, .pageSet h va⟩
      = { hdr with mapCount := hdr.mapCount + 1 } := by
  simp [recount, hva]

/-- A handle of `h` that loses its mapping. -/
theorem recount_unmap (hdr : PageSetHeader) (hva : va ≠ 0#32) :
    hdr.recount h ⟨r, .pageSet h va⟩ ⟨r, .pageSet h 0#32⟩
      = { hdr with mapCount := hdr.mapCount - 1 } := by
  have hb : (va != 0#32) = true := bne_iff_ne.mpr hva
  simp [recount, hb]

theorem names_pageSet_of_ne {k : HeaderKva} (hk : k ≠ h) :
    names k ⟨r, .pageSet h va⟩ = false := by
  rw [names_pageSet]
  exact beq_eq_false_iff_ne.mpr (Ne.symm hk)

/-- A slot write followed by the write of the one header it counts for. -/
theorem System.putSlot_eq {hdr : PageSetHeader}
    (hother : ∀ k, k ≠ h → e.names k = false ∧ e'.names k = false)
    (hhdr : hdr = (s.headers h).recount h e e') :
    (s.setProc p { P with handles := P.handles.set i e', space }).setHeader h hdr
      = s.putSlot p P i e e' space := by
  unfold setHeader putSlot
  simp only [mk.injEq, true_and, and_true, setProc]
  funext k
  by_cases hk : k = h
  · rw [if_pos hk, hk, hhdr]
  · rw [if_neg hk]
    exact (recount_of_not_names _ (hother k hk).1 (hother k hk).2).symm

/-- A slot write that counts for no header. -/
theorem System.putSlot_eq_setProc (hnone : ∀ k, e.names k = false ∧ e'.names k = false) :
    s.setProc p { P with handles := P.handles.set i e', space } = s.putSlot p P i e e' space := by
  unfold putSlot
  have : (fun h => (s.headers h).recount h e e') = s.headers := by
    funext k
    exact recount_of_not_names _ (hnone k).1 (hnone k).2
  rw [this]
  rfl

end PutSlot

/-! ## Releasing a PageSet -/

/-- Replace the state of both frame allocators. -/
def System.setAllocators (s : System) (free dma : Frame → Bool) : System :=
  { s with free := free, dmaFree := dma }

/-- The PageSet of `h` left slot `id` and its frames went back to their
    allocator; nothing else changed. -/
structure Released (id : Fin maxPagesets) (h : HeaderKva) (t t' : Ledger) : Prop where
  sys : ∃ free dma, t'.sys = ((t.sys.setEntry id none).setUsed h false).setAllocators free dma
  free : ∀ f, t.owner f ≠ .pageSet h → t'.sys.free f = t.sys.free f
  owner : ∀ f, t.owner f ≠ .pageSet h → t'.owner f = t.owner f
  pending : t'.pending = t.pending

section Release

variable {R : MoveRule} {t : Ledger} {id : Fin maxPagesets} {ent : PageSetEntry}

/-- Take a PageSet out of the table and give some of its frames back. -/
theorem Inv.release (hinv : Inv t) (hent : t.sys.table id = some ent)
    (hr : (t.sys.headers ent.headerKva).refcount = 0)
    (hm : (t.sys.headers ent.headerKva).mapCount = 0) (hR : R.unregister id)
    (free dma : Frame → Bool) (hkeep : ∀ f, t.owner f ≠ .pageSet ent.headerKva →
      free f = t.sys.free f ∧ dma f = t.sys.dmaFree f)
    (hone : ∀ f, ¬ (free f = true ∧ dma f = true)) :
    ∃ t', t'.sys = ((t.sys.setEntry id none).setUsed ent.headerKva false).setAllocators free dma ∧
      Moves R t t' ∧ Released id ent.headerKva t t' := by
  let owner : Frame → Owner := fun f =>
    if t.owner f = .pageSet ent.headerKva then
      if free f then .free else if dma f then .dma else .loose
    else t.owner f
  refine ⟨⟨_, owner, t.pending⟩, rfl,
    .tail (Move.unregister hent hr hm hR).one
      (Move.frames free dma t.sys.kvmFree owner ?_ ?_ ?_),
    ⟨⟨_, _, rfl⟩, fun f hf => (hkeep f hf).1, fun f hf => if_neg hf, rfl⟩⟩
  · intro f
    simp only [owner, Owner.Spare]
    grind
  · grind [hinv.owns.free]
  · grind [hinv.owns.dma]

variable {owner : Frame → Owner} {o : Owner} {pages : Nat → PhysAddr} {n : Nat}

/-- Different pages lie in different frames. -/
theorem DataOwned.frame_inj (hd : DataOwned owner o pages n) {i j : Nat} (hi : i < n) (hj : j < n)
    (heq : pages i / pageSize = pages j / pageSize) : i = j := by
  refine hd.inj i j hi hj ?_
  calc pages i = pageSize * (pages i / pageSize) := by
        rw [Nat.mul_div_cancel' (Nat.dvd_of_mod_eq_zero (hd.aligned i hi))]
    _ = pageSize * (pages j / pageSize) := by rw [heq]
    _ = pages j := Nat.mul_div_cancel' (Nat.dvd_of_mod_eq_zero (hd.aligned j hj))

/-- The frames of the data pages of a PageSet, each once. -/
theorem DataOwned.nodup_frames (hd : DataOwned owner o pages n) :
    (((range n).map pages).map (· / pageSize)).Nodup := by
  grind [hd.frame_inj, List.Nodup.map_on]

theorem Owns.not_both (ho : Owns t) (f : Frame) :
    ¬ (t.sys.free f = true ∧ t.sys.dmaFree f = true) := by
  rintro ⟨h1, h2⟩
  have := ho.free f h1
  rw [ho.dma f h2] at this
  cases this

/-- The frames of a PageSet are in no allocator. -/
theorem Inv.dataFrames (hinv : Inv t) (hent : t.sys.table id = some ent)
    (horg : ent.origin ≠ .externallyOwned) :
    ∀ f ∈ ((range ent.count).map (t.sys.headers ent.headerKva).pages).map (· / pageSize),
      t.owner f = .pageSet ent.headerKva ∧ t.sys.free f = false ∧ t.sys.dmaFree f = false := by
  intro f hf
  have hown : t.owner f = .pageSet ent.headerKva := by
    simp only [map_map, mem_map, mem_range] at hf
    obtain ⟨i, hi, rfl⟩ := hf
    exact (hinv.owns.data id ent hent horg).owned i hi
  grind [hinv.owns.free, hinv.owns.dma]

theorem consumeByHeaderKva_apply {s : System} (htab : TableOk s) (hent : s.table id = some ent) :
    consumeByHeaderKva ent.headerKva s = .ok () (s.setEntry id none) := by
  simp [consumeByHeaderKva, htab.findByHeaderKva hent]

/-- A PageSet nobody refers to is freed. -/
theorem Inv.freeByHeaderKva (hinv : Inv t) (hent : t.sys.table id = some ent)
    (hr : (t.sys.headers ent.headerKva).refcount = 0)
    (hm : (t.sys.headers ent.headerKva).mapCount = 0) (hR : R.unregister id) :
    ∃ t', freeByHeaderKva ent.headerKva t.sys = .ok () t'.sys ∧ Moves R t t' ∧
      Released id ent.headerKva t t' := by
  have htab := hinv.table
  have hback := readHeaderBacked_apply (ε := SyscallError) (htab.entryOf hent)
  have horigin := htab.origin id ent hent
  have hused := htab.used id ent hent
  -- the table and the header pool do not look at the free frames
  have hrest : ∀ (free dma : Frame → Bool),
      (do consumeByHeaderKva ent.headerKva; Cap.release ent.headerKva : KernelM Unit)
        (t.sys.setAllocators free dma) =
      .ok () (((t.sys.setEntry id none).setUsed ent.headerKva false).setAllocators
        free dma) := by
    intro free dma
    have htab' : TableOk (t.sys.setAllocators free dma) :=
      htab.of_same rfl rfl fun _ _ => ⟨rfl, rfl⟩
    have hent' : (t.sys.setAllocators free dma).table id = some ent := hent
    have hused' : ((t.sys.setAllocators free dma).setEntry id none).used ent.headerKva = true :=
      hused
    rw [bind_apply, consumeByHeaderKva_apply htab' hent', andThen_ok, release_apply hused']
    rfl
  have hone := hinv.owns.not_both
  cases horg : ent.origin with
  | externallyOwned =>
    obtain ⟨t', hs, hmoves, hrel⟩ := hinv.release hent hr hm hR
      t.sys.free t.sys.dmaFree (fun _ _ => ⟨rfl, rfl⟩) hone
    refine ⟨t', ?_, hmoves, hrel⟩
    rw [hs, ← hrest]
    simp only [Cap.freeByHeaderKva, bind_apply, hback, andThen_ok, horigin, horg]
    rfl
  | buddy =>
    have hnd := (hinv.owns.data id ent hent (by rw [horg]; decide)).nodup_frames
    have hown := hinv.dataFrames hent (by rw [horg]; decide)
    generalize hfs : ((range ent.count).map (t.sys.headers ent.headerKva).pages).map
        (· / pageSize) = fs at hown hnd
    obtain ⟨t', hs, hmoves, hrel⟩ := hinv.release hent hr hm hR
      (fun f => if f ∈ fs then true else t.sys.free f) t.sys.dmaFree (by grind) (by grind)
    refine ⟨t', ?_, hmoves, hrel⟩
    have hloop := deallocPages_apply fs t.sys hnd fun f hf => (hown f hf).2.1
    rw [hs, ← hrest]
    simp only [Cap.freeByHeaderKva, bind_apply, hback, andThen_ok, horigin, horg,
      BackedHeader.pagesSlice, hfs, hloop]
    rfl
  | dmaPool =>
    have hnd := (hinv.owns.data id ent hent (by rw [horg]; decide)).nodup_frames
    have hown := hinv.dataFrames hent (by rw [horg]; decide)
    have hrun := htab.dmaRun id ent hent horg
    have hlist : frameRun ((t.sys.headers ent.headerKva).pages 0 / pageSize) ent.count
        = ((range ent.count).map (t.sys.headers ent.headerKva).pages).map
          (· / pageSize) := by
      rw [map_map]
      refine map_congr_left fun i hi => ?_
      rw [Function.comp, hrun i (mem_range.mp hi), Nat.add_mul_div_right _ _ (by decide)]
    have hget : BackedHeader.getPage ⟨t.sys.headers ent.headerKva, ent.count⟩ 0
        = some ((t.sys.headers ent.headerKva).pages 0) := by
      have := ent.count_pos
      rw [BackedHeader.getPage, if_neg (by dsimp only; omega)]
    rw [← hlist] at hown hnd
    generalize hfs : frameRun ((t.sys.headers ent.headerKva).pages 0 / pageSize) ent.count = fs
      at hown hnd
    obtain ⟨t', hs, hmoves, hrel⟩ := hinv.release hent hr hm hR
      t.sys.free (fun f => if f ∈ fs then true else t.sys.dmaFree f) (by grind) (by grind)
    refine ⟨t', ?_, hmoves, hrel⟩
    have hloop := dmaFreePages_apply fs t.sys hnd fun f hf => (hown f hf).2.2
    rw [hs, ← hrest]
    simp only [Cap.freeByHeaderKva, bind_apply, hback, andThen_ok, horigin, horg, hget, hfs,
      hloop]
    rfl

end Release

/-! ## PageSets nobody refers to -/

/-- The PageSet in slot `id` has no handle. -/
def Orphan (s : System) (id : Fin maxPagesets) (ent : PageSetEntry) : Prop :=
  s.table id = some ent ∧ (s.headers ent.headerKva).refcount = 0

/-- The PageSet in slot `id` has a handle. -/
def Held (s : System) (id : Fin maxPagesets) (ent : PageSetEntry) : Prop :=
  s.table id = some ent ∧ (s.headers ent.headerKva).refcount ≠ 0

/-- The rule lets PageSets that have a handle go. -/
def MoveRule.Frees (R : MoveRule) (s : System) : Prop :=
  ∀ id ent, Held s id ent → R.unregister id

theorem MoveRule.Frees.mono {R : MoveRule} {s s' : System} (hR : R.Frees s)
    (hheld : ∀ id ent, Held s' id ent → Held s id ent) : R.Frees s' :=
  fun id ent h => hR id ent (hheld id ent h)

/-- What a system call keeps besides the invariant: no slot is left under
    teardown, and a PageSet without a handle had none before. -/
structure Settled (t t' : Ledger) : Prop where
  pending : t'.pending = []
  orphan : ∀ id ent, Orphan t'.sys id ent → Orphan t.sys id ent

theorem Settled.refl {t : Ledger} (hpend : t.pending = []) : Settled t t := ⟨hpend, fun _ _ h => h⟩

theorem Settled.trans {t t' t'' : Ledger} (h : Settled t t') (h' : Settled t' t'') :
    Settled t t'' := ⟨h'.pending, fun id ent ho => h.orphan id ent (h'.orphan id ent ho)⟩

/-- A state with the same PageSets and counters. -/
theorem Settled.of_same {t t' : Ledger} (hpend : t'.pending = [])
    (htable : t'.sys.table = t.sys.table) (hheaders : t'.sys.headers = t.sys.headers) :
    Settled t t' :=
  ⟨hpend, fun id ent ho => by unfold Orphan at *; rw [← htable, ← hheaders]; exact ho⟩

/-- Counted from a state with the same PageSets and counters. -/
theorem Settled.from_same {t t1 t' : Ledger} (h : Settled t1 t')
    (htable : t1.sys.table = t.sys.table) (hheaders : t1.sys.headers = t.sys.headers) :
    Settled t t' :=
  ⟨h.pending, fun id ent ho => by
    have := h.orphan id ent ho
    unfold Orphan at *
    rwa [← htable, ← hheaders]⟩

section Drop

variable {R : MoveRule} {t t' : Ledger} {id : Fin maxPagesets} {ent : PageSetEntry}
  {h : HeaderKva}

variable {k : Fin maxPagesets} {ent' : PageSetEntry}

/-- A released PageSet is gone; the others are as they were. -/
theorem Released.entry (hrel : Released id h t t') (hk : t'.sys.table k = some ent') :
    k ≠ id ∧ t.sys.table k = some ent' ∧ t'.sys.headers = t.sys.headers := by
  obtain ⟨free, dma, hs⟩ := hrel.sys
  rw [hs] at hk ⊢
  simp only [setAllocators, setUsed_table, table_setEntry] at hk
  split at hk
  · cases hk
  · rename_i hne
    exact ⟨hne, hk, rfl⟩

theorem Released.orphan (hrel : Released id h t t')
    (ho : Orphan t'.sys k ent') : k ≠ id ∧ Orphan t.sys k ent' := by
  obtain ⟨hk, htab, hheaders⟩ := hrel.entry ho.1
  exact ⟨hk, htab, hheaders ▸ ho.2⟩

theorem Released.held (hrel : Released id h t t')
    (hh : Held t'.sys k ent') : Held t.sys k ent' := by
  obtain ⟨-, htab, hheaders⟩ := hrel.entry hh.1
  exact ⟨htab, hheaders ▸ hh.2⟩

/-- Drop one handle reference.  `t` is the ledger after the count went down. -/
theorem Inv.decRefcountAndMaybeFree (hinv : Inv t) (hent : t.sys.table id = some ent)
    (hR : R.unregister id) {s : System}
    (hs : t.sys = s.setHeader ent.headerKva { s.headers ent.headerKva with
      refcount := (s.headers ent.headerKva).refcount - 1 })
    (hpos : (s.headers ent.headerKva).refcount ≠ 0) :
    ∃ t', Cap.decRefcountAndMaybeFree ent.headerKva s = .ok () t'.sys ∧ Moves R t t' ∧
      (t' = t ∧ (t.sys.headers ent.headerKva).refcount ≠ 0 ∨ Released id ent.headerKva t t') := by
  have hmap : (s.headers ent.headerKva).mapCount = (t.sys.headers ent.headerKva).mapCount := by
    rw [hs]
    simp
  have href : (t.sys.headers ent.headerKva).refcount
      = (s.headers ent.headerKva).refcount - 1 := by
    rw [hs]
    simp
  have hle := hinv.mapCount_le hent
  have hdec : decRefcount ent.headerKva s
      = .ok (decide ((s.headers ent.headerKva).refcount - 1 = 0) &&
          decide ((s.headers ent.headerKva).mapCount = 0)) t.sys := by
    simp [decRefcount, if_neg hpos, ← hs]
  by_cases hzero : (s.headers ent.headerKva).refcount - 1 = 0
  · obtain ⟨t', hfree, hmoves, hrel⟩ := hinv.freeByHeaderKva hent (by omega) (by omega) hR
    refine ⟨t', ?_, hmoves, Or.inr hrel⟩
    have hm0 : (s.headers ent.headerKva).mapCount = 0 := by omega
    simp only [Cap.decRefcountAndMaybeFree, bind_apply, hdec, andThen_ok, hzero, hm0, decide_true,
      Bool.and_self, if_true, hfree]
  · refine ⟨t, ?_, .refl, Or.inl ⟨rfl, by omega⟩⟩
    simp [Cap.decRefcountAndMaybeFree, hdec, hzero]

variable {p : ProcKva} {P : Process} {i : Nat} {r : Rights}

/-- What a PageSet handle of a process names is registered. -/
theorem Inv.slot_entry (hinv : Inv t) (hP : t.sys.procs p = some P) {va : VaPage}
    (hi : P.handles[i]? = some ⟨r, .pageSet h va⟩) :
    ∃ id ent, t.sys.table id = some ent ∧ ent.headerKva = h ∧ t.sys.entryOf h = some ent :=
  hinv.table.registered_entry (hinv.slots.procs p P hP _ (mem_of_getElem? hi))

/-- An unmapped PageSet handle is taken out of its slot, and the PageSet is
    freed with the last one. -/
theorem Inv.dropHandle (hinv : Inv t) (hpend : t.pending = []) (hP : t.sys.procs p = some P)
    (hi : P.handles[i]? = some ⟨r, .pageSet h 0#32⟩) (hR : R.Frees t.sys) :
    ∃ t', Cap.decRefcountAndMaybeFree h
        (t.sys.setProc p { P with handles := P.handles.set i .EMPTY }) = .ok () t'.sys ∧
      Moves R t t' ∧ Settled t t' := by
  obtain ⟨id, ent, hent, rfl, -⟩ := hinv.slot_entry hP hi
  have hpos : 0 < (t.sys.headers ent.headerKva).refcount :=
    hinv.refcount_pos hP (mem_of_getElem? hi) (by simp) hent rfl
  have hmove : Move R t ⟨t.sys.putSlot p P i ⟨r, .pageSet ent.headerKva 0#32⟩ .EMPTY P.space,
      t.owner, t.pending⟩ :=
    .slot .EMPTY hP hi (by simp [maps]) (fun _ => rfl) .empty (Or.inl rfl)
  have hinv1 := hinv.move hmove
  have hs : t.sys.putSlot p P i ⟨r, .pageSet ent.headerKva 0#32⟩ .EMPTY P.space
      = (t.sys.setProc p { P with handles := P.handles.set i .EMPTY }).setHeader ent.headerKva
        { t.sys.headers ent.headerKva with
          refcount := (t.sys.headers ent.headerKva).refcount - 1 } := by
    refine (putSlot_eq (fun k hk => ⟨names_pageSet_of_ne hk, rfl⟩) ?_).symm
    simp [recount]
  obtain ⟨t', hdec, hmoves, hend⟩ := hinv1.decRefcountAndMaybeFree hent
    (hR id ent ⟨hent, Nat.ne_of_gt hpos⟩) hs (Nat.ne_of_gt hpos)
  refine ⟨t', hdec, hmove.one.trans hmoves, ?_⟩
  -- only the count of this PageSet went down
  have hdown : ∀ k ent', k ≠ id → Orphan (t.sys.putSlot p P i ⟨r, .pageSet ent.headerKva 0#32⟩
      .EMPTY P.space) k ent' → Orphan t.sys k ent' := by
    intro k ent' hk ho
    refine ⟨ho.1, ?_⟩
    have hne : ent'.headerKva ≠ ent.headerKva := fun heq =>
      hk (hinv.table.unique k id ent' ent ho.1 hent heq)
    have := ho.2
    rwa [hs, headers_setHeader_of_ne hne] at this
  rcases hend with ⟨rfl, hne⟩ | hrel
  · refine ⟨hpend, fun k ent' ho => hdown k ent' ?_ ho⟩
    rintro rfl
    have hentk : (t.sys.putSlot p P i ⟨r, .pageSet ent.headerKva 0#32⟩ .EMPTY P.space).table k
        = some ent := hent
    obtain rfl : ent' = ent := Option.some.inj (ho.1.symm.trans hentk)
    exact hne ho.2
  · refine ⟨hrel.pending.trans hpend, fun k ent' ho => ?_⟩
    obtain ⟨hk, ho'⟩ := hrel.orphan ho
    exact hdown k ent' hk ho'

end Drop

/-! ## Handing out a handle -/

section Grant

variable {R : MoveRule} {t : Ledger} {id : Fin maxPagesets} {ent : PageSetEntry} {p : ProcKva}
  {P : Process} {s : System} {r : Rights}

theorem insertHandle_cases (hP : s.procs p = some P) (r : Rights) (k : HandleKind) :
    insertHandle p r k s = .ok none s ∨
      ∃ i e, P.handles[i]? = some e ∧ e.kind = .empty ∧
        insertHandle p r k s
          = .ok (some i) (s.setProc p { P with handles := P.handles.set i ⟨r, k.unmapped⟩ }) := by
  simp only [insertHandle, bind_apply, getProcess_apply hP, andThen_ok]
  cases hins : slotInsert P.handles r k with
  | error x => exact Or.inl rfl
  | ok res =>
    obtain ⟨slots, i⟩ := res
    -- the insertion fills an empty slot and records no mapping
    obtain ⟨e, he, hk, rfl⟩ : ∃ e, P.handles[i]? = some e ∧ e.kind = .empty ∧
        slots = P.handles.set i ⟨r, k.unmapped⟩ := by
      grind [findEmptySlot_some, slotInsert]
    exact Or.inr ⟨i, e, he, hk, rfl⟩

variable {e : HandleEntry} {i : Nat}

theorem HandleEntry.names_of_empty (he : e.kind = .empty) (h : HeaderKva) : e.names h = false :=
  names_of_not_pageset (by rw [he]; rfl)

theorem HandleEntry.maps_of_empty (he : e.kind = .empty) (h : HeaderKva) : e.maps h = false :=
  maps_of_not_pageset (by rw [he]; rfl)

theorem orphan_putSlot_fill {e' : HandleEntry} (he : e.kind = .empty)
    {k : Fin maxPagesets} {ent' : PageSetEntry} {space : AddressSpace}
    (ho : Orphan (s.putSlot p P i e e' space) k ent') :
    Orphan s k ent' ∧ e'.names ent'.headerKva = false := by
  have hcount : (s.headers ent'.headerKva).refcount + (e'.names ent'.headerKva).toNat
      - (e.names ent'.headerKva).toNat = 0 := ho.2
  rw [names_of_empty he] at hcount
  cases hn : e'.names ent'.headerKva with
  | false =>
    rw [hn] at hcount
    exact ⟨⟨ho.1, by simpa using hcount⟩, rfl⟩
  | true =>
    rw [hn] at hcount
    simp at hcount

/-- A new handle to a registered PageSet goes into an empty slot and is counted. -/
theorem Inv.grant (hinv : Inv t) (hP : t.sys.procs p = some P)
    (hi : P.handles[i]? = some e) (he : e.kind = .empty) (hent : t.sys.table id = some ent)
    (hlt : (t.sys.headers ent.headerKva).refcount < u32Max)
    (hR : R.insert p ⟨r, .pageSet ent.headerKva 0#32⟩) :
    ∃ t', incRefcount ent.headerKva (t.sys.setProc p { P with
        handles := P.handles.set i ⟨r, .pageSet ent.headerKva 0#32⟩ }) = .ok () t'.sys ∧
      Moves R t t' ∧
      t' = ⟨t.sys.putSlot p P i e ⟨r, .pageSet ent.headerKva 0#32⟩ P.space, t.owner,
        t.pending⟩ := by
  refine ⟨_, ?_, Move.one (.slot ⟨r, .pageSet ent.headerKva 0#32⟩ hP hi
    (maps_of_empty he) (by simp) (hinv.table.used id ent hent) (Or.inr ⟨he, hR⟩)), rfl⟩
  simp only [incRefcount, bind_apply, read_apply, andThen_ok, setProc_headers,
    if_neg (Nat.not_le.mpr hlt), modify_apply]
  congr 1
  refine putSlot_eq
    (fun k hk => ⟨names_of_empty he k, names_pageSet_of_ne hk⟩) ?_
  simp [recount, names_of_empty he, maps_of_empty he]

/-- `insertHandle` of a PageSet handle followed by the count. -/
theorem Runs.grant {α : Type} {k : Option Nat → KernelM α} {f : Nat → α} {va : VaPage}
    {Q : α → Ledger → Prop} {E : SyscallError → Ledger → Prop} {C : Panic → Prop}
    (hinv : Inv t) (hpend : t.pending = []) (hP : t.sys.procs p = some P)
    (hent : t.sys.table id = some ent) (hR : R.insert p ⟨r, .pageSet ent.headerKva 0#32⟩)
    (hk : ∀ i, k (some i) = (do incRefcount ent.headerKva; Pure.pure (f i)))
    (hC : u32Max ≤ (t.sys.headers ent.headerKva).refcount → C .refcountOverflow)
    (hnone : Runs R t (k none) Q E C) (hsome : ∀ i t', t'.pending = [] →
      (∀ k ent', Orphan t'.sys k ent' → Orphan t.sys k ent' ∧ ent'.headerKva ≠ ent.headerKva) →
      Q (f i) t') : Runs R t (insertHandle p r (.pageSet ent.headerKva va) >>= k) Q E C := by
  rcases insertHandle_cases hP r (.pageSet ent.headerKva va) with hins | ⟨i, e, hi, he, hins⟩
  · exact .bind_ok hins hnone
  · by_cases hlt : (t.sys.headers ent.headerKva).refcount < u32Max
    · obtain ⟨t', hinc, hmoves, ht'⟩ := hinv.grant (r := r) hP hi he hent hlt hR
      refine .of_ok (a := f i) ?_ hmoves (hsome i t' (by rw [ht']; exact hpend) ?_)
      · rw [bind_apply, hins, andThen_ok, hk, bind_apply]
        rw [show HandleKind.unmapped (.pageSet ent.headerKva va) = .pageSet ent.headerKva 0#32
          from rfl, hinc]
        rfl
      · intro k' ent' ho
        rw [ht'] at ho
        obtain ⟨ho', hn⟩ := orphan_putSlot_fill he ho
        refine ⟨ho', fun heq => ?_⟩
        rw [heq] at hn
        simp at hn
    · refine .of_stop ?_ (hC (Nat.not_lt.mp hlt))
      rw [bind_apply, hins, andThen_ok, hk]
      simp [incRefcount, if_pos (Nat.not_lt.mp hlt)]

end Grant

end Lockjaw.Cap
