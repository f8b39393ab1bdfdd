/-
  Lockjaw.Cap.MapRuns

  The system calls on existing PageSet handles, as runs of moves: map, unmap,
  close and export.

  A mapping writes the page table first and the slot and its counter after it,
  so the three writes are one move of the ledger; the same holds for an unmap.
-/

import Lockjaw.Cap.AllocRuns

namespace Lockjaw.Cap

open Lib Cap.System HandleEntry

/-! ## Slot reads -/

section Lookup

variable {P : Process} {handle : Nat} {required : Rights} {e : HandleEntry}

theorem lookupAny_ok (h : lookupAny P handle required = .ok e) :
    P.handles[handle]? = some e ∧ e.kind ≠ .empty := by
  unfold lookupAny at h
  cases hs : slotLookup P.handles handle required with
  | error x => rw [hs] at h; cases h
  | ok e' =>
    rw [hs] at h
    cases h
    exact ⟨(slotLookup_ok hs).1, (slotLookup_ok hs).2.1⟩

theorem lookup_ok {expected : ObjectType} (h : lookup P handle required expected = .ok e) :
    P.handles[handle]? = some e ∧ Rights.contains e.rights required = true := by
  unfold lookup at h
  cases hs : slotLookup P.handles handle required with
  | error x => rw [hs] at h; cases h
  | ok e' => grind [slotLookup_ok]

variable {h : HeaderKva} {slots : List HandleEntry} {i : Nat} {r : Rights} {va : VaPage}
  {s : System} {p : ProcKva}

theorem lookupPageSet_ok (hl : lookupPageSet P handle required = .ok h) :
    ∃ r va, P.handles[handle]? = some ⟨r, .pageSet h va⟩ ∧ Rights.contains r required = true := by
  unfold lookupPageSet at hl
  cases hs : lookup P handle required .pageSet with
  | error x => rw [hs] at hl; cases hl
  | ok e =>
    rw [hs] at hl
    obtain ⟨hi, hr⟩ := lookup_ok hs
    obtain ⟨r, k⟩ := e
    cases k <;> cases hl
    exact ⟨r, _, hi, hr⟩

theorem slotGetMappedVa_of (hi : slots[i]? = some ⟨r, .pageSet h va⟩) :
    slotGetMappedVa slots i = .ok va := by
  simp [slotGetMappedVa, hi]

theorem setMappedVa_apply {v : VaPage}
    (hP : s.procs p = some P) (hi : P.handles[handle]? = some ⟨r, .pageSet h va⟩) :
    setMappedVa p handle v s = .ok () (s.setProc p { P with
      handles := P.handles.set handle ⟨r, .pageSet h v⟩ }) := by
  simp [setMappedVa, getProcess_apply hP, slotSetMappedVa, hi]

theorem removeHandle_apply (hP : s.procs p = some P)
    (hi : P.handles[handle]? = some e) (hk : e.kind ≠ .empty) :
    removeHandle p handle s = .ok () (s.setProc p { P with
      handles := P.handles.set handle .EMPTY }) := by
  simp [removeHandle, getProcess_apply hP, slotRemove, hi, hk]

end Lookup

/-! ## Mapping -/

section Map

variable {R : MoveRule} {t : Ledger} {p : ProcKva} {P : Process}

variable {va n : Nat} {s : System} {i : Nat} {e e' : HandleEntry} {space : AddressSpace}
  {k : Fin maxPagesets} {ent : PageSetEntry}

/-- What the range check accepts. -/
theorem validateMapping_ok {l2 l3 : Nat} (h : validateMapping va n = .ok l2 l3)
    (hal : va % pageSize = 0) :
    va / pageSize = l2 * 512 + l3 ∧ l3 < 512 ∧ va / pageSize + n ≤ 2 ^ 18 := by
  grind [pageSize, pageTableIndices, userVaEnd, validateMapping]

/-- A slot change that keeps the references keeps the orphans. -/
theorem orphan_putSlot_same (hn : ∀ h, e'.names h = e.names h)
    (ho : Orphan (s.putSlot p P i e e' space) k ent) : Orphan s k ent := by
  refine ⟨ho.1, ?_⟩
  have hcount : (s.headers ent.headerKva).refcount + (e'.names ent.headerKva).toNat
      - (e.names ent.headerKva).toNat = 0 := ho.2
  rw [hn] at hcount
  omega

theorem held_putSlot_same (hn : ∀ h, e'.names h = e.names h)
    (hh : Held (s.putSlot p P i e e' space) k ent) : Held s k ent := by
  refine ⟨hh.1, fun hzero => hh.2 ?_⟩
  show (s.headers ent.headerKva).refcount + (e'.names ent.headerKva).toNat
      - (e.names ent.headerKva).toNat = 0
  rw [hn]
  omega

/-- The page-table part of a mapping: refused without effect, or the tables
    are written and the frames for new ones taken. -/
theorem Inv.mapPagesInExisting (hinv : Inv t) (hP : t.sys.procs p = some P)
    (hal : va % pageSize = 0) (h : HeaderKva) (attr : MapMemoryAttribute) (pick : List Frame) :
    (∃ x, Cap.mapPagesInExisting p va ⟨t.sys.headers h, n⟩ attr pick t.sys = .ok (.error x) t.sys) ∨
      ∃ space, pick.Nodup ∧ (∀ f ∈ pick, t.sys.free f = true) ∧ va / pageSize + n ≤ 2 ^ 18 ∧
        AddressSpace.MapSpec (t.sys.dataPages h n) attr (va / pageSize) 0 n pick P.space space ∧
        Cap.mapPagesInExisting p va ⟨t.sys.headers h, n⟩ attr pick t.sys
          = .ok (.ok ()) ((t.sys.setFree pick false).setProc p { P with space }) := by
  unfold Cap.mapPagesInExisting
  simp only [bind_apply, getProcess_apply hP, andThen_ok]
  cases hval : validateMapping va n with
  | errorOutOfRange => exact Or.inl ⟨_, rfl⟩
  | errorTooManyPages => exact Or.inl ⟨_, rfl⟩
  | ok l2 l3 =>
    obtain ⟨hva, hl3, hle⟩ := validateMapping_ok hval hal
    simp only [bind_apply]
    rcases takeFrames_cases (neededL3Allocs P.space (l2Regions l2 l3 n)) pick t.sys with
      htake | ⟨hlen, hnd, hfree, htake⟩
    · refine Or.inl ⟨.outOfPages, ?_⟩
      simp only [htake, andThen_ok]
      rfl
    · obtain ⟨space, happ, hspec⟩ := AddressSpace.applyRegions_spec (t.sys.dataPages h n) attr n
        l2 l3 n 0 pick P.space (Nat.le_refl n) hl3 (by rw [← hva]; exact hle) hlen
      rw [← hva] at hspec
      refine Or.inr ⟨space, hnd, hfree, hle, hspec, ?_⟩
      -- a free frame holds nothing that the zeroing could destroy
      have hzero : (t.sys.setFree pick false).overwriteAll pick = t.sys.setFree pick false :=
        overwriteAll_eq fun f hf => by
          have hi := hinv.owns.inert (f := f) (by rw [hinv.owns.free f (hfree f hf)]; rfl)
          exact ⟨hi.proc, hi.procs, hi.threads, hi.object⟩
      have hP' : (t.sys.setFree pick false).procs p = some P := hP
      have happ' : applyRegions (t.sys.dataPages h n) attr (l2Regions l2 l3 n) pick P.space
          = some space := happ
      simp only [htake, andThen_ok, bind_apply, modify_apply, hzero, getProcess_apply hP',
        pagesSlice_eq, happ']
      rfl

theorem sysMapPages_runs (hinv : Inv t) (hpend : t.pending = []) (hP : t.sys.procs p = some P)
    {C : Panic → Prop} (hC : C .mapCountOverflow) (handle va attrRaw : Nat) (pick : List Frame)
    (hR : ∀ s r id ent, s.procs = t.sys.procs → s.table = t.sys.table → t.sys.table id = some ent →
      P.handles[handle]? = some ⟨r, .pageSet ent.headerKva 0#32⟩ →
      R.map s p (va / pageSize) ent.count) :
    Runs R t (sysMapPages p handle va attrRaw pick) (fun _ t' => Settled t t')
      (fun _ t' => Settled t t') C := by
  unfold sysMapPages
  refine .bind_orFail (fun attr _ => ?_) fun _ => .refl hpend
  split
  · exact .fail (.refl hpend)
  rename_i hva
  rw [not_or, not_not] at hva
  refine .bind_ok (getProcess_apply hP) (.bind_ofExcept (fun e he => ?_) fun _ _ => .refl hpend)
  obtain ⟨hi, -⟩ := lookup_ok he
  cases hget : slotGetMappedVa P.handles handle with
  | error x => exact .fail (.refl hpend)
  | ok vaPage =>
    dsimp only
    split
    · exact .fail (.refl hpend)
    rename_i hzero
    rw [not_not] at hzero
    obtain ⟨r, kind⟩ := e
    cases kind with
    | pageSet h va0 =>
      rw [slotGetMappedVa_of hi, Except.ok.injEq] at hget
      rw [hget, hzero] at hi
      obtain ⟨id, ent, hent, rfl, hentry⟩ := hinv.slot_entry hP hi
      refine .bind_ok (readHeaderBacked_apply hentry) ?_
      dsimp only
      rw [hinv.table.origin id ent hent]
      dsimp only
      split
      · exact .fail (.refl hpend)
      rcases hinv.mapPagesInExisting hP (n := ent.count) hva.2 ent.headerKva attr pick with
        ⟨x, hmap⟩ | ⟨space, hnd, hfree, hle, hspec, hmap⟩
      · exact .bind_ok hmap (.fail (.refl hpend))
      -- the frames are taken, then table, slot and counter change together
      have htook := hinv.takeMove (R := R) hfree
      have hnat : (BitVec.ofNat 32 (va / pageSize)).toNat = va / pageSize := by
        rw [BitVec.toNat_ofNat, Nat.mod_eq_of_lt (by omega)]
      have hne : BitVec.ofNat 32 (va / pageSize) ≠ 0#32 := by grind [pageSize]
      by_cases hlt : (t.sys.headers ent.headerKva).mapCount < u32Max
      · have hmove : Move R ⟨t.sys.setFree pick false,
            fun f => if f ∈ pick then .loose else t.owner f, t.pending⟩ _ :=
          .map hP hi hne hent rfl
            (by rw [hnat]; exact hle) (by rw [hnat]; exact hspec) (fun f hf => if_pos hf) hnd
            (by rw [hnat]; exact hR _ r id ent rfl rfl hent hi)
        refine .of_ok (a := ()) ?_ (.tail htook.one hmove) ⟨hpend, fun k ent' ho => ?_⟩
        · have hset := setMappedVa_apply (s := (t.sys.setFree pick false).setProc p
            { P with space }) (P := { P with space }) (v := BitVec.ofNat 32 (va / pageSize))
            (procs_setProc_self) hi
          simp only [bind_apply, hmap, andThen_ok, hset, incMapCount, read_apply,
            setProc_headers, setFree_headers, if_neg (Nat.not_le.mpr hlt),
            modify_apply, setProc_setProc]
          congr 1
          refine putSlot_eq
            (fun k hk => ⟨names_pageSet_of_ne hk, names_pageSet_of_ne hk⟩) ?_
          rw [recount_map _ hne]
          rfl
        · exact (orphan_putSlot_same (s := t.sys.setFree pick false)
            (fun _ => by rw [names_pageSet, names_pageSet]) ho)
      · refine .of_stop ?_ hC
        have hset := setMappedVa_apply (s := (t.sys.setFree pick false).setProc p
          { P with space }) (P := { P with space }) (v := BitVec.ofNat 32 (va / pageSize))
          (procs_setProc_self) hi
        simp [hmap, hset, incMapCount, if_pos (Nat.not_lt.mp hlt)]
    | _ => exact .fail (.refl hpend)

end Map

/-! ## Unmapping and closing -/

section Unmap

variable {R : MoveRule} {t : Ledger} {p : ProcKva} {P : Process} {C : Panic → Prop}

/-- Clearing a recorded range: refused without effect, or exactly the range is
    removed.  It never stops half way. -/
theorem unmapValidated_cases {s : System} (hP : s.procs p = some P) (h : HeaderKva) {n : Nat}
    (hn : n ≤ maxPracticalPagesPerSet) (va : VaPage) :
    (∃ i, unmapValidated p (va.toNat * pageSize) (s.dataPages h n) s = .ok (.error i) s) ∨
      ∃ space, P.space.Mapped va.toNat (s.dataPages h n) ∧
        AddressSpace.Erased P.space space va.toNat n ∧
        unmapValidated p (va.toNat * pageSize) (s.dataPages h n) s
          = .ok (.ok ()) (s.setProc p { P with space }) := by
  simp only [unmapValidated, bind_apply, getProcess_apply hP, andThen_ok]
  cases hval : P.space.validatePteMatch (va.toNat * pageSize) (s.dataPages h n) with
  | error i => exact Or.inl ⟨i, rfl⟩
  | ok u =>
    have hmap := AddressSpace.validatePteMatch_ok_iff.mp hval
    have hpres := Present.of_mapped va.isLt hn hmap
    obtain ⟨space, hclear, her⟩ := AddressSpace.clearValidatedPte_spec hpres.1 hpres.2
    refine Or.inr ⟨space, hmap, her, ?_⟩
    simp only [length_dataPages, hclear]
    rfl

theorem sysUnmapPages_runs (hinv : Inv t) (hpend : t.pending = []) (hP : t.sys.procs p = some P)
    (handle va : Nat) :
    Runs R t (sysUnmapPages p handle va) (fun _ t' => Settled t t') (fun _ t' => Settled t t')
      C := by
  unfold sysUnmapPages
  refine .bind_ok (getProcess_apply hP) (.bind_ofExcept (fun e he => ?_) fun _ _ => .refl hpend)
  obtain ⟨hi, -⟩ := lookup_ok he
  cases hget : slotGetMappedVa P.handles handle with
  | error x => exact .fail (.refl hpend)
  | ok vaPage =>
    dsimp only
    split
    · exact .fail (.refl hpend)
    rename_i hne
    split
    · exact .fail (.refl hpend)
    rename_i hva
    rw [not_not] at hva
    subst hva
    obtain ⟨r, kind⟩ := e
    cases kind with
    | pageSet h va0 =>
      rw [slotGetMappedVa_of hi, Except.ok.injEq] at hget
      subst hget
      obtain ⟨id, ent, hent, rfl, hentry⟩ := hinv.slot_entry hP hi
      refine .bind_ok (readHeaderBacked_apply hentry) ?_
      rw [pagesSlice_eq]
      rcases unmapValidated_cases hP ent.headerKva ent.count_le va0 with
        ⟨i, hun⟩ | ⟨space, hmap, her, hun⟩
      · exact .bind_ok hun (.fail (.refl hpend))
      have hmove : Move R t _ := .unmap hP hi hne hent rfl hmap her
      -- the handle itself is a reference, so the PageSet stays
      have hm := hinv.mapCount_pos hP hi (h := ent.headerKva)
        (by simpa using hne) hent rfl
      have hr := hinv.refcount_pos hP (List.mem_of_getElem? hi) (h := ent.headerKva)
        (by simp) hent rfl
      refine .of_ok (a := ()) ?_ hmove.one ⟨hpend, fun k ent' ho => ?_⟩
      · have hset := setMappedVa_apply (s := t.sys.setProc p { P with space })
          (P := { P with space }) (v := 0#32) procs_setProc_self hi
        simp only [bind_apply, hun, andThen_ok, hset, decMapCount, read_apply,
          setProc_headers, setProc_setProc, if_neg (Nat.ne_of_gt hm),
          modify_apply, pure_apply, Nat.ne_of_gt hr, decide_false, Bool.and_false,
          Bool.false_eq_true, if_false]
        congr 1
        grind [putSlot_eq, names_pageSet_of_ne, recount_unmap]
      · exact orphan_putSlot_same
          (fun _ => by rw [names_pageSet, names_pageSet]) ho
    | _ => exact .fail (.refl hpend)

variable {e : HandleEntry} {handle : Nat} {r : Rights} {h : HeaderKva} {va : VaPage}

/-- Slots of other kinds than PageSet are not counted. -/
theorem not_names_of_objType (hk : e.kind.isPageset = false) (k : HeaderKva) :
    e.names k = false ∧ names k .EMPTY = false :=
  ⟨names_of_not_pageset hk, rfl⟩

/-- Emptying a slot of another kind. -/
theorem removeOther_moves (hpend : t.pending = []) (hP : t.sys.procs p = some P)
    (hi : P.handles[handle]? = some e) (hk : e.kind.isPageset = false) :
    ∃ t', t'.sys = t.sys.setProc p { P with handles := P.handles.set handle .EMPTY } ∧
      Moves R t t' ∧ Settled t t' := by
  have hnames : ∀ h, names h .EMPTY = e.names h := fun h =>
    (names_of_not_pageset hk).symm
  refine ⟨_, (putSlot_eq_setProc (not_names_of_objType hk)).symm,
    Move.one (.slot .EMPTY hP hi (fun _ => maps_of_not_pageset hk) (fun _ => rfl)
      .empty (Or.inl rfl)), hpend, fun k ent ho => orphan_putSlot_same hnames ho⟩

theorem decideCloseHandle_unmapped :
    decideCloseHandle (some ⟨r, .pageSet h 0#32⟩) = .removeAndDecRef h := rfl

theorem decideCloseHandle_mapped (hva : va ≠ 0#32) :
    decideCloseHandle (some ⟨r, .pageSet h va⟩) = .unmapThenRemove h va := if_pos hva

/-- A mapped handle is unmapped and dropped. -/
theorem Inv.dropMapped (hinv : Inv t) (hpend : t.pending = []) (hP : t.sys.procs p = some P)
    {id : Fin maxPagesets} {ent : PageSetEntry} (hent : t.sys.table id = some ent)
    (hi : P.handles[handle]? = some ⟨r, .pageSet ent.headerKva va⟩) (hva : va ≠ 0#32)
    {space : AddressSpace}
    (hmap : P.space.Mapped va.toNat (t.sys.dataPages ent.headerKva ent.count))
    (her : AddressSpace.Erased P.space space va.toNat ent.count) (hR : R.Frees t.sys) :
    ∃ t', decBothAndMaybeFree ent.headerKva (t.sys.setProc p { P with
        handles := P.handles.set handle .EMPTY, space }) = .ok () t'.sys ∧
      Moves R t t' ∧ Settled t t' := by
  -- two moves, the unmapping and then the drop, for one write of the slot in the kernel
  have hmove : Move R t _ := .unmap hP hi hva hent rfl hmap her
  have hinv1 := hinv.move hmove
  have hm := hinv.mapCount_pos hP hi (h := ent.headerKva) (by simpa using hva) hent rfl
  obtain ⟨hlen, -⟩ := List.getElem?_eq_some_iff.mp hi
  obtain ⟨t', hdec, hmoves, hset⟩ := hinv1.dropHandle (R := R) hpend
    (P := { P with handles := P.handles.set handle ⟨r, .pageSet ent.headerKva 0#32⟩, space })
    procs_setProc_self (i := handle) (r := r) (h := ent.headerKva)
    (List.getElem?_set_self hlen) (hR.mono fun k ent' h => held_putSlot_same (fun _ => by
      rw [names_pageSet, names_pageSet]) h)
  refine ⟨t', ?_, hmove.one.trans hmoves, hset.pending, fun k ent' ho => ?_⟩
  · have hslot : t.sys.putSlot p P handle ⟨r, .pageSet ent.headerKva va⟩
        ⟨r, .pageSet ent.headerKva 0#32⟩ space = (t.sys.setProc p { P with
          handles := P.handles.set handle ⟨r, .pageSet ent.headerKva 0#32⟩, space }).setHeader
          ent.headerKva { t.sys.headers ent.headerKva with
            mapCount := (t.sys.headers ent.headerKva).mapCount - 1 } :=
      (putSlot_eq (fun k hk => ⟨names_pageSet_of_ne hk, names_pageSet_of_ne hk⟩)
        (recount_unmap _ hva).symm).symm
    have hcomm : ∀ X : Process, (t.sys.putSlot p P handle ⟨r, .pageSet ent.headerKva va⟩
        ⟨r, .pageSet ent.headerKva 0#32⟩ space).setProc p X = (t.sys.setProc p X).setHeader
          ent.headerKva { t.sys.headers ent.headerKva with
            mapCount := (t.sys.headers ent.headerKva).mapCount - 1 } := by
      intro X
      rw [hslot]
      exact congrArg (setHeader · ent.headerKva _) (setProc_setProc X)
    rw [hcomm, List.set_set] at hdec
    simp [decBothAndMaybeFree, decMapCount, if_neg (Nat.ne_of_gt hm), hdec]
  · exact orphan_putSlot_same (fun _ => by
      rw [names_pageSet, names_pageSet]) (hset.orphan k ent' ho)

theorem sysCloseHandle_runs (hinv : Inv t) (hpend : t.pending = []) (hP : t.sys.procs p = some P)
    (hR : R.Frees t.sys) (handle : Nat) :
    Runs R t (sysCloseHandle p handle) (fun _ t' => Settled t t') (fun _ t' => Settled t t')
      C := by
  unfold sysCloseHandle
  refine .bind_ok (getProcess_apply hP) ?_
  cases hl : lookupAny P handle Rights.none with
  | error x => exact .fail (.refl hpend)
  | ok e =>
    obtain ⟨hi, hne⟩ := lookupAny_ok hl
    have hopt : (Except.ok e : Except SyscallError HandleEntry).toOption = some e := rfl
    rw [hopt]
    have hrem := removeHandle_apply hP hi hne
    by_cases hk : e.kind.isPageset = true
    · obtain ⟨r, kind⟩ := e
      cases kind with
      | pageSet h va =>
        by_cases hva : va = 0#32
        · subst hva
          obtain ⟨t', hdec, hmoves, hset⟩ := hinv.dropHandle hpend hP hi hR
          refine .of_ok (a := ()) ?_ hmoves hset
          rw [decideCloseHandle_unmapped]
          simp [hrem, hdec]
        · obtain ⟨id, ent, hent, rfl, hentry⟩ := hinv.slot_entry hP hi
          rw [decideCloseHandle_mapped hva]
          refine .bind_ok (readHeaderBacked_apply hentry) ?_
          rw [pagesSlice_eq]
          -- a page that is not what the handle records stops the call before any change
          rcases unmapValidated_cases hP ent.headerKva ent.count_le va with
            ⟨i, hun⟩ | ⟨space, hmap, her, hun⟩
          · exact .bind_ok hun (.fail (.refl hpend))
          obtain ⟨t', hdec, hmoves, hset⟩ :=
            hinv.dropMapped hpend hP hent hi hva hmap her hR
          refine .of_ok (a := ()) ?_ hmoves hset
          have hrem' := removeHandle_apply (s := t.sys.setProc p { P with space })
            (P := { P with space }) procs_setProc_self hi hne
          simp [hun, hrem', hdec]
      | _ => cases hk
    · have hk' : e.kind.isPageset = false := Bool.eq_false_iff.mpr hk
      have hclose : decideCloseHandle (some e) = .removeOnly := by
        obtain ⟨r, kind⟩ := e
        cases kind <;> first | rfl | exact absurd rfl hne | cases hk'
      obtain ⟨t', hs, hmoves, hset⟩ := removeOther_moves hpend hP hi hk'
      refine .of_ok (a := ()) ?_ hmoves hset
      rw [hclose, hs]
      exact hrem

end Unmap

/-! ## Export -/

/-- `e'` is a copy of `e`: the same rights to the same object, without a
    mapping; an endpoint handle gets a token of its own. -/
structure HandleEntry.CopyOf (e e' : HandleEntry) : Prop where
  rights : e'.rights = e.rights
  kind : e'.kind = e.kind.unmapped ∨
    ∃ f token token', e.kind = .endpoint f token ∧ e'.kind = .endpoint f (some token')

section Export

variable {R : MoveRule} {t : Ledger} {p q : ProcKva} {P Q : Process} {C : Panic → Prop}

/-- A handle to a kernel object goes into an empty slot. -/
theorem grantObject_cases (hQ : t.sys.procs q = some Q) (hpend : t.pending = [])
    {r : Rights} {k : HandleKind} (hk : k.isPageset = false)
    (hok : SlotOk t.sys ⟨r, k.unmapped⟩) (hR : R.insert q ⟨r, k.unmapped⟩) :
    insertHandle q r k t.sys = .ok none t.sys ∨
      ∃ i t', insertHandle q r k t.sys = .ok (some i) t'.sys ∧ Moves R t t' ∧ Settled t t' := by
  have hk' : (k.unmapped).isPageset = false := by
    cases k <;> first | rfl | cases hk
  rcases insertHandle_cases hQ r k with hins | ⟨i, e, hi, he, hins⟩
  · exact Or.inl hins
  · have hnot : ∀ h, names h ⟨r, k.unmapped⟩ = false := fun h =>
      names_of_not_pageset hk'
    refine Or.inr ⟨i, _, ?_, Move.one (.slot ⟨r, k.unmapped⟩ hQ hi (maps_of_empty he)
      (fun h => maps_of_not_pageset hk') hok (Or.inr ⟨he, hR⟩)), hpend,
      fun k ent ho => (orphan_putSlot_fill he ho).1⟩
    rw [hins]
    congr 1
    exact putSlot_eq_setProc fun h => ⟨names_of_empty he h, hnot h⟩

/-- Only kernel objects changed. -/
structure Minted (t t' : Ledger) : Prop where
  sys : ∃ objects, t'.sys = { t.sys with objects := objects }
  owner : t'.owner = t.owner
  pending : t'.pending = t.pending

theorem Minted.refl : Minted t t := ⟨⟨_, rfl⟩, rfl, rfl⟩

theorem Minted.fields {t' : Ledger} (hm : Minted t t') :
    t'.sys.procs = t.sys.procs ∧ t'.sys.table = t.sys.table ∧ t'.sys.headers = t.sys.headers ∧
      t'.sys.used = t.sys.used ∧ t'.sys.threads = t.sys.threads := by
  obtain ⟨objects, hs⟩ := hm.sys
  rw [hs]
  exact ⟨rfl, rfl, rfl, rfl, rfl⟩

theorem HandleEntry.CopyOf.unmapped (e : HandleEntry) : e.CopyOf ⟨e.rights, e.kind.unmapped⟩ :=
  ⟨rfl, .inl rfl⟩

variable {ε : Type} {E : ε → Ledger → Prop}

/-- A live endpoint gives a token, unless it has given its last. -/
theorem mintCallerToken_runs (hinv : Inv t) {f : Frame}
    {o : KernelObject} (ho : t.sys.objects f = some o) (hgood : o.Good .endpoint)
    (hC : ∀ n, t.sys.objects f = some (.endpoint n) → 2 ^ 64 ≤ n + 1 → C .tokenExhausted) :
    Runs R t (mintCallerToken f) (fun _ t' => Minted t t' ∧
      ∃ o', t'.sys.objects f = some o' ∧ o'.Good .endpoint) E C := by
  have hown : t.owner f = .object := hinv.owns.objects f (by rw [ho]; rfl)
  cases o with
  | endpoint n =>
    obtain ⟨-, hpos⟩ := hgood
    by_cases hlast : n + 1 ≥ 2 ^ 64
    · refine .of_stop ?_ (hC n ho hlast)
      simp only [mintCallerToken, bind_apply, read_apply, andThen_ok, ho,
        if_neg (Nat.ne_of_gt hpos), if_pos hlast, stop_apply]
    · have hmove : Move R t _ := .object f (.endpoint (n + 1)) (Or.inr hown)
        fun type o' ho' hg => by
          rw [ho, Option.some.injEq] at ho'
          subst ho'
          exact ⟨hg.1, Nat.succ_pos n⟩
      refine .of_ok (a := n) ?_ hmove.one ⟨⟨⟨_, rfl⟩, ?_, rfl⟩, .endpoint (n + 1), if_pos rfl,
        rfl, Nat.succ_pos n⟩
      · simp only [mintCallerToken, bind_apply, read_apply, andThen_ok, ho,
          if_neg (Nat.ne_of_gt hpos), if_neg hlast, modify_apply, pure_apply]
      · grind
  | notification => cases hgood
  | reply => cases hgood

/-- The handle is to an endpoint that has given out its last token. -/
def TokensSpent (s : System) (e : HandleEntry) : Prop :=
  ∃ f token n, e.kind = .endpoint f token ∧ s.objects f = some (.endpoint n) ∧ 2 ^ 64 ≤ n + 1

/-- The kind of a copy: the same object, with a token if it is an endpoint. -/
theorem exportKind_runs (hinv : Inv t) {e : HandleEntry}
    (hok : SlotOk t.sys e) (hC : TokensSpent t.sys e → C .tokenExhausted) :
    Runs R t (exportKind e.kind) (fun k t' => Minted t t' ∧ SlotOk t'.sys ⟨e.rights, k.unmapped⟩ ∧
      e.CopyOf ⟨e.rights, k.unmapped⟩ ∧ k.isPageset = e.kind.isPageset ∧
      (e.kind.isPageset = true → k = e.kind ∧ t' = t)) E C := by
  obtain ⟨r, kind⟩ := e
  cases kind with
  | endpoint f token =>
    obtain ⟨o, ho, hgood⟩ := hok
    refine .bind hinv ((mintCallerToken_runs hinv ho hgood fun n hn hlast =>
      hC ⟨f, token, n, rfl, hn, hlast⟩).mono (fun token' t' _ hm _ => ?_) (fun _ _ _ h => h)
      fun _ h => h)
    exact .pure ⟨hm.1, hm.2, ⟨rfl, .inr ⟨f, token, token', rfl, rfl⟩⟩, rfl, fun h => by cases h⟩
  | empty | pageSet h va
  | notification f | reply f => exact .pure ⟨.refl, hok, .unmapped _, rfl, fun _ => ⟨rfl, rfl⟩⟩
  | _ => exact hok.elim

theorem sysExportHandle_runs (hinv : Inv t) (hpend : t.pending = []) (hP : t.sys.procs p = some P)
    {caller : Option ProcKva} (hlive : ∀ q, caller = some q → (t.sys.procs q).isSome) {handle : Nat}
    (hR : ∀ q e e', caller = some q → P.handles[handle]? = some e → e.kind ≠ .empty →
      e.CopyOf e' → R.insert q e') (hC : C .refcountOverflow) (hC' : C .tokenExhausted) :
    Runs R t (sysExportHandle p caller handle) (fun _ t' => Settled t t')
      (fun _ t' => Settled t t') C := by
  unfold sysExportHandle
  refine .bind_orFail (fun q hq => ?_) fun _ => .refl hpend
  obtain ⟨Q, hQ⟩ := Option.isSome_iff_exists.mp (hlive q hq)
  refine .bind_ok (getProcess_apply hP) (.bind_ofExcept (fun e he => ?_) fun _ _ => .refl hpend)
  obtain ⟨hi, hne⟩ := lookupAny_ok he
  have hok := hinv.slots.procs p P hP e (List.mem_of_getElem? hi)
  refine .bind hinv ((exportKind_runs hinv hok fun _ => hC').mono
    (fun k t' _ ⟨hmint, hok', hcopy, hpk, hsame⟩ hinv' => ?_) (fun _ _ _ h => h) fun _ h => h)
  -- the copy may carry a new token; it names the same object
  have hins := hR q e _ hq hi hne hcopy
  obtain ⟨hprocs, htable, hheaders, -, -⟩ := hmint.fields
  by_cases hk : e.kind.isPageset = true
  · obtain ⟨rfl, rfl⟩ := hsame hk
    obtain ⟨r, kind⟩ := e
    cases kind with
    | pageSet h va =>
      obtain ⟨id, ent, hent, rfl, -⟩ := hinv.table.registered_entry hok
      exact .grant (f := fun i => i) hinv hpend hQ hent hins (fun _ => rfl) (fun _ => hC)
        (.fail (.refl hpend)) fun _ _ hp horph => ⟨hp, fun k e ho => (horph k e ho).1⟩
    | _ => cases hk
  · have hk' : k.isPageset = false := by
      rw [hpk]
      exact Bool.eq_false_iff.mpr hk
    have hpend' : t'.pending = [] := hmint.pending.trans hpend
    rcases grantObject_cases (t := t') (hprocs ▸ hQ) hpend' hk' hok' hins with
      hfull | ⟨i, t'', hput, hmoves, hset⟩
    · exact .bind_ok hfull (.fail (.of_same hpend' htable hheaders))
    · refine .bind_moves hput hmoves ?_
      have hset' : Settled t t'' := hset.from_same htable hheaders
      cases k <;> first | exact .pure hset' | cases hk'

end Export

end Lockjaw.Cap
