/-
  Lockjaw.Cap.AllocRuns

  The system calls that make PageSets, as runs of moves: allocation from the
  buddy allocator and from the DMA pool, device pages, and the boot information
  PageSet.

  A new PageSet is registered with no handle (`Fresh`) and then published: its
  first handle goes into the caller's table, or it is taken back.
-/

import Mathlib.Data.List.GetD
import Lockjaw.Cap.Slots

namespace Lockjaw.Cap

open Lib Cap.System

/-! ## Frames in the kernel's hands -/

section Frames

variable {R : MoveRule} {t : Ledger} {fs : List Frame}

/-- Free frames are taken from the buddy allocator. -/
theorem Inv.takeMove (hinv : Inv t) (hfree : ∀ f ∈ fs, t.sys.free f = true) :
    Move R t ⟨t.sys.setFree fs false, fun f => if f ∈ fs then .loose else t.owner f,
      t.pending⟩ := by
  have hown := hinv.owns
  refine .frames _ t.sys.dmaFree t.sys.kvmFree _ (fun f => ?_) (fun f hf => ?_) fun f hf => ?_
  · grind [hown.free, Owner.Spare]
  · grind [hown.free]
  · grind [hown.dma f hf, hown.free]

/-- Loose frames go back to the buddy allocator. -/
theorem Inv.giveMove (hinv : Inv t) (hloose : ∀ f ∈ fs, t.owner f = .loose) :
    Move R t ⟨t.sys.setFree fs true, fun f => if f ∈ fs then .free else t.owner f,
      t.pending⟩ := by
  have hown := hinv.owns
  refine .frames _ t.sys.dmaFree t.sys.kvmFree _ (fun f => ?_) (fun f hf => ?_) fun f hf => ?_
  · grind [Owner.Spare]
  · grind [hown.free]
  · grind [hown.dma]

/-- Pages are taken from the DMA pool. -/
theorem Inv.takeDmaMove (hinv : Inv t) (hfree : ∀ f ∈ fs, t.sys.dmaFree f = true) :
    Move R t ⟨t.sys.setDmaFree fs false, fun f => if f ∈ fs then .loose else t.owner f,
      t.pending⟩ := by
  have hown := hinv.owns
  refine .frames t.sys.free _ t.sys.kvmFree _ (fun f => ?_) (fun f hf => ?_) fun f hf => ?_
  · grind [hown.dma, Owner.Spare]
  · grind [hown.free f hf, hown.dma]
  · grind [hown.dma]

/-- Loose pages go back to the DMA pool. -/
theorem Inv.giveDmaMove (hinv : Inv t) (hloose : ∀ f ∈ fs, t.owner f = .loose) :
    Move R t ⟨t.sys.setDmaFree fs true, fun f => if f ∈ fs then .dma else t.owner f,
      t.pending⟩ := by
  have hown := hinv.owns
  refine .frames t.sys.free _ t.sys.kvmFree _ (fun f => ?_) (fun f hf => ?_) fun f hf => ?_
  · grind [Owner.Spare]
  · grind [hown.free]
  · grind [hown.dma]

end Frames

/-! ## Registration -/

/-- A new PageSet in slot `id`, without a handle. -/
structure Fresh (id : Fin maxPagesets) (t t' : Ledger) : Prop where
  empty : t.sys.table id = none
  entry : ∃ ent, t'.sys.table id = some ent ∧ t.sys.used ent.headerKva = false ∧
    (t'.sys.headers ent.headerKva).refcount = 0 ∧ (t'.sys.headers ent.headerKva).mapCount = 0
  orphan : ∀ k ent, Orphan t'.sys k ent → k = id ∨ Orphan t.sys k ent
  procs : t'.sys.procs = t.sys.procs
  pending : t'.pending = t.pending

section Register

variable {R : MoveRule} {t : Ledger} {h : HeaderKva} {n : Nat} {pages : Nat → PhysAddr}
  {hdr : PageSetHeader}

/-- Header slot `h` is claimed and its header written. -/
def System.claimed (s : System) (h : HeaderKva) (hdr : PageSetHeader) : System :=
  (s.setUsed h true).setHeader h hdr

variable {s : System}

@[simp] theorem System.claimed_setHeader {hdr' : PageSetHeader} :
    (s.claimed h hdr).setHeader h hdr' = s.claimed h hdr' := by
  unfold claimed setHeader
  simp only [mk.injEq, true_and, and_true]
  funext k
  by_cases hk : k = h <;> simp [hk]

/-- Giving a claimed slot back leaves only a written header. -/
theorem System.claimed_setUsed (hu : s.used h = false) :
    (s.claimed h hdr).setUsed h false = s.setHeader h hdr := by
  unfold claimed setUsed setHeader
  simp only [mk.injEq, true_and, and_true]
  funext k
  by_cases hk : k = h
  · rw [if_pos hk, hk, hu]
  · rw [if_neg hk, if_neg hk]

theorem release_claimed (hu : s.used h = false) :
    release h (s.claimed h hdr) = .ok () (s.setHeader h hdr) := by
  rw [release_apply (by simp [claimed, used_setUsed]), claimed_setUsed hu]

theorem System.claimed_setFree (fs : List Frame) (b : Bool) :
    (s.claimed h hdr).setFree fs b = (s.setFree fs b).claimed h hdr := rfl

theorem System.claimed_setDmaFree (fs : List Frame) (b : Bool) :
    (s.claimed h hdr).setDmaFree fs b = (s.setDmaFree fs b).claimed h hdr := rfl

theorem claim_cases' (n : Nat) (s : System) :
    claim n s = .ok none s ∨
      ∃ h, s.used h = false ∧ claim n s = .ok (some h) (s.claimed h .zeroed) := claim_cases n s

/-- Writing an unused header leaves every PageSet as it was. -/
theorem Inv.settled_header (hinv : Inv t) (hpend : t.pending = []) (hu : t.sys.used h = false) :
    Settled t ⟨t.sys.setHeader h hdr, t.owner, t.pending⟩ := by
  refine ⟨hpend, fun k ent ho => ⟨ho.1, ?_⟩⟩
  have hne := hinv.table.ne_of_unused hu ho.1
  have hcount := ho.2
  rwa [headers_setHeader_of_ne hne] at hcount

/-- Enter a claimed header into the table. -/
theorem Inv.insertNew (hinv : Inv t) (origin : PageSetOrigin) (hu : t.sys.used h = false)
    (hdata : origin ≠ .externallyOwned → DataOwned t.owner .loose pages n)
    (hdev : origin = .externallyOwned → ∀ i, i < n → R.device (pages i))
    (hrun : origin = .dmaPool → DmaRun pages n) (hR : ∀ id, t.sys.table id = none → R.register id) :
    insertIntoTable n h origin (t.sys.claimed h ⟨0, 0, some origin, pages⟩)
        = .ok none (t.sys.claimed h ⟨0, 0, some origin, pages⟩) ∨
      ∃ id t', insertIntoTable n h origin (t.sys.claimed h ⟨0, 0, some origin, pages⟩)
          = .ok (some id) t'.sys ∧ Moves R t t' ∧ Fresh id t t' := by
  rcases insertIntoTable_cases n h origin (t.sys.claimed h ⟨0, 0, some origin, pages⟩) with
    hins | ⟨id, ent, hid, rfl, rfl, rfl, hins⟩
  · exact Or.inl hins
  · have hnone : t.sys.table id = none := hid
    refine Or.inr ⟨id, _, hins, Move.one (.register id ent pages hnone hu hdata hdev hrun
      (hR id hnone)), hnone, ⟨ent, ?_, hu, ?_⟩, fun k ent' ho => ?_, rfl, rfl⟩
    · exact if_pos rfl
    · constructor <;> simp
    · by_cases hk : k = id
      · exact Or.inl hk
      · have htab : t.sys.table k = some ent' := by
          have := ho.1
          rwa [table_setEntry, if_neg hk] at this
        refine Or.inr ⟨htab, ?_⟩
        have hne := hinv.table.ne_of_unused hu htab
        have hcount := ho.2
        simpa [hne] using hcount

/-- Addresses of loose frames, each once. -/
theorem dataOwned_pageAddrs {owner : Frame → Owner} {fs : List Frame} (hnd : fs.Nodup)
    (hloose : ∀ f ∈ fs, owner f = .loose) : DataOwned owner .loose (pageAddrs fs) fs.length := by
  have hget : ∀ i, i < fs.length → pageAddrs fs i = fs.getD i 0 * pageSize := fun _ _ => rfl
  constructor
  · intro i hi
    rw [hget i hi, Nat.mul_mod_left]
  · intro i hi
    rw [hget i hi, Nat.mul_div_cancel _ (by decide)]
    apply hloose
    rw [List.getD_eq_getElem _ _ hi]
    exact List.getElem_mem hi
  · intro i j hi hj heq
    rw [hget i hi, hget j hj] at heq
    have heq' := Nat.eq_of_mul_eq_mul_right (by decide) heq
    rw [List.getD_eq_getElem _ _ hi, List.getD_eq_getElem _ _ hj] at heq'
    exact (List.Nodup.getElem_inj_iff hnd).mp heq'

@[simp] theorem length_frameRun (first n : Nat) : (frameRun first n).length = n := by
  simp [frameRun]

theorem dmaRun_frameRun (first n : Nat) : DmaRun (pageAddrs (frameRun first n)) n := by
  intro i hi
  have hpos : 0 < n := Nat.lt_of_le_of_lt (Nat.zero_le i) hi
  have hat : ∀ j, j < n → (frameRun first n).getD j 0 = first + j := by
    intro j hj
    rw [List.getD_eq_getElem _ _ (by simpa using hj)]
    simp [frameRun]
  simp only [pageAddrs, hat i hi, hat 0 hpos, Nat.add_zero, Nat.add_mul]

end Register

variable {id : Fin maxPagesets}

/-- A new PageSet, counted from a state with the same PageSets. -/
theorem Fresh.of_same {t t1 t' : Ledger} (hf : Fresh id t1 t')
    (htable : t1.sys.table = t.sys.table) (hused : t1.sys.used = t.sys.used)
    (hheaders : t1.sys.headers = t.sys.headers) (hprocs : t1.sys.procs = t.sys.procs)
    (hpend : t1.pending = t.pending) : Fresh id t t' := by
  refine ⟨htable ▸ hf.empty, ?_, fun k ent ho => ?_, hf.procs.trans hprocs,
    hf.pending.trans hpend⟩
  · rw [← hused]
    exact hf.entry
  · refine (hf.orphan k ent ho).imp_right fun ho' => ?_
    unfold Orphan at *
    rwa [← htable, ← hheaders]

/-! ## Allocation -/

section Alloc

variable {R : MoveRule} {t : Ledger} {C : Panic → Prop}

/-- Free frames can be zeroed while a header slot is claimed. -/
theorem Inv.overwriteClaimed (hinv : Inv t) {fs : List Frame} {h : HeaderKva}
    {hdr : PageSetHeader} (hfree : ∀ f ∈ fs, t.sys.free f = true) :
    ((t.sys.setFree fs false).claimed h hdr).overwriteAll fs
      = (t.sys.setFree fs false).claimed h hdr := by
  refine overwriteAll_eq fun f hf => ?_
  have hi := hinv.owns.inert (f := f) (by rw [hinv.owns.free f (hfree f hf)]; rfl)
  exact ⟨hi.proc, hi.procs, hi.threads, hi.object⟩

/-- A claimed header slot that is given back at once. -/
theorem Inv.unclaimed (hinv : Inv t) (hpend : t.pending = []) {h : HeaderKva}
    (hu : t.sys.used h = false) {e : SyscallError} {m : KernelM (Fin maxPagesets)}
    (heq : m t.sys = .err e (t.sys.setHeader h .zeroed)) :
    Runs R t m (fun id t' => Fresh id t t') (fun _ t' => Settled t t') C :=
  .of_err heq (Move.header h .zeroed hu).one (hinv.settled_header hpend hu)

section

variable (hinv : Inv t) (hpend : t.pending = []) (hR : ∀ id, t.sys.table id = none → R.register id)
include hinv hpend hR

theorem allocPages_runs (count : Nat) (pick : List Frame) :
    Runs R t (allocPages count pick) (fun id t' => Fresh id t t') (fun _ t' => Settled t t') C := by
  unfold allocPages
  split
  · exact .fail (.refl hpend)
  rcases claim_cases' (headerPagesFor count) t.sys with hclaim | ⟨h, hu, hclaim⟩
  · exact .bind_ok hclaim (.fail (.refl hpend))
  rcases takeFrames_cases count pick (t.sys.claimed h .zeroed) with htake | ⟨rfl, hnd, hfree, htake⟩
  · refine hinv.unclaimed hpend hu (e := .outOfMemory) ?_
    simp only [bind_apply, hclaim, andThen_ok, htake, release_claimed hu]
    rfl
  -- the frames are in the kernel's hands now
  have htook := hinv.takeMove (R := R) hfree
  have hinv1 := hinv.move htook
  have hown : ∀ f ∈ pick, (if f ∈ pick then Owner.loose else t.owner f) = .loose :=
    fun f hf => if_pos hf
  have hdata := dataOwned_pageAddrs hnd hown
  have hu1 : (t.sys.setFree pick false).used h = false := hu
  rcases hinv1.insertNew (R := R) .buddy hu1 (fun _ => hdata) (fun h => by cases h)
    (fun h => by cases h) hR with
    hins | ⟨id, t', hins, hmv, hfresh⟩
  · refine .of_err (e := .outOfPageSets) ?_
      (.tail htook.one (.header h ⟨0, 0, some .buddy, pageAddrs pick⟩ hu1))
      ((hinv1.settled_header hpend hu).from_same rfl rfl)
    simp only [bind_apply, hclaim, andThen_ok, htake, modify_apply, claimed_setFree,
      hinv.overwriteClaimed hfree, claimed_setHeader, hins, release_claimed hu1]
    rfl
  · refine .of_ok ?_ (htook.one.trans hmv) (hfresh.of_same rfl rfl rfl rfl rfl)
    simp only [bind_apply, hclaim, andThen_ok, htake, modify_apply, claimed_setFree,
      hinv.overwriteClaimed hfree, claimed_setHeader, hins]
    rfl

theorem allocPagesContiguous_runs (count : Nat) (first : Option Frame) :
    Runs R t (allocPagesContiguous count first) (fun id t' => Fresh id t t')
      (fun _ t' => Settled t t') C := by
  unfold allocPagesContiguous
  split
  · exact .fail (.refl hpend)
  dsimp only
  split
  · exact .fail (.refl hpend)
  have hpos : 0 < 2 ^ orderForCount count := Nat.two_pow_pos _
  generalize 2 ^ orderForCount count = actualCount at hpos
  rcases claim_cases' (headerPagesFor actualCount) t.sys with hclaim | ⟨h, hu, hclaim⟩
  · exact .bind_ok hclaim (.fail (.refl hpend))
  cases first with
  | none =>
    rcases takeFrames_cases actualCount [] (t.sys.claimed h .zeroed) with htake | ⟨hlen, -⟩
    · refine hinv.unclaimed hpend hu (e := .outOfMemory) ?_
      simp only [bind_apply, hclaim, andThen_ok, htake, release_claimed hu]
      rfl
    · rw [← hlen] at hpos
      exact absurd hpos (Nat.lt_irrefl 0)
  | some f =>
    rcases takeFrames_cases actualCount (frameRun f actualCount) (t.sys.claimed h .zeroed) with
      htake | ⟨-, hnd, hfree, htake⟩
    · refine hinv.unclaimed hpend hu (e := .outOfMemory) ?_
      simp only [bind_apply, hclaim, andThen_ok, htake, release_claimed hu]
      rfl
    generalize hpick : frameRun f actualCount = pick at hnd hfree htake
    have hlen : pick.length = actualCount := hpick ▸ length_frameRun f actualCount
    subst hlen
    have htook := hinv.takeMove (R := R) hfree
    have hinv1 := hinv.move htook
    have hown : ∀ f ∈ pick, (if f ∈ pick then Owner.loose else t.owner f) = .loose :=
      fun f hf => if_pos hf
    have hdata := dataOwned_pageAddrs hnd hown
    have hu1 : (t.sys.setFree pick false).used h = false := hu
    rcases hinv1.insertNew (R := R) .buddy hu1 (fun _ => hdata) (fun h => by cases h)
      (fun h => by cases h) hR with
      hins | ⟨id, t', hins, hmv, hfresh⟩
    · -- the frames go back before the header
      have hgive := hinv1.giveMove (R := R) hown
      have hinv2 := hinv1.move hgive
      have hback := deallocPages_apply pick ((t.sys.setFree pick false).claimed h
        ⟨0, 0, some .buddy, pageAddrs pick⟩) hnd fun f hf => by
          simp [claimed, free_setFree, hf]
      have hu2 : ((t.sys.setFree pick false).setFree pick true).used h = false := hu
      refine .of_err (e := .outOfPageSets) ?_
        (.tail (.tail htook.one hgive) (.header h ⟨0, 0, some .buddy, pageAddrs pick⟩ hu2))
        ((hinv2.settled_header hpend hu2).from_same rfl rfl)
      simp only [bind_apply, hclaim, andThen_ok, hpick, htake, modify_apply, claimed_setFree,
        hinv.overwriteClaimed hfree, claimed_setHeader, hins, hback,
        release_claimed hu2]
      rfl
    · refine .of_ok ?_ (htook.one.trans hmv) (hfresh.of_same rfl rfl rfl rfl rfl)
      simp only [bind_apply, hclaim, andThen_ok, hpick, htake, modify_apply, claimed_setFree,
        hinv.overwriteClaimed hfree, claimed_setHeader, hins]
      rfl

theorem allocDmaPages_runs (count : Nat) (first : Option Frame) :
    Runs R t (allocDmaPages count first) (fun id t' => Fresh id t t')
      (fun _ t' => Settled t t') C := by
  unfold allocDmaPages
  split
  · exact .fail (.refl hpend)
  rcases claim_cases' (headerPagesFor count) t.sys with hclaim | ⟨h, hu, hclaim⟩
  · exact .bind_ok hclaim (.fail (.refl hpend))
  by_cases hbig : count > dmaPoolPages
  · refine hinv.unclaimed hpend hu (e := .invalidParameter) ?_
    simp only [bind_apply, hclaim, andThen_ok, if_pos hbig, release_claimed hu]
    rfl
  cases first with
  | none =>
    refine hinv.unclaimed hpend hu (e := .outOfMemory) ?_
    simp only [bind_apply, hclaim, andThen_ok, if_neg hbig, release_claimed hu]
    rfl
  | some f =>
    rcases takeDmaFrames_cases (frameRun f count) (t.sys.claimed h .zeroed) with
      htake | ⟨hnd, hfree, htake⟩
    · refine hinv.unclaimed hpend hu (e := .outOfMemory) ?_
      simp only [bind_apply, hclaim, andThen_ok, if_neg hbig, htake, release_claimed hu]
      rfl
    have htook := hinv.takeDmaMove (R := R) hfree
    have hinv1 := hinv.move htook
    have hown : ∀ g ∈ frameRun f count,
        (if g ∈ frameRun f count then Owner.loose else t.owner g) = .loose :=
      fun g hg => if_pos hg
    have hdata := dataOwned_pageAddrs hnd hown
    rw [length_frameRun] at hdata
    have hu1 : (t.sys.setDmaFree (frameRun f count) false).used h = false := hu
    rcases hinv1.insertNew (R := R) .dmaPool hu1 (fun _ => hdata) (fun h => by cases h)
      (fun _ => dmaRun_frameRun f count) hR with hins | ⟨id, t', hins, hmv, hfresh⟩
    -- the table is full: the frames go back to the pool
    · have hgive := hinv1.giveDmaMove (R := R) hown
      have hinv2 := hinv1.move hgive
      have hback := dmaFreePages_apply (frameRun f count)
        ((t.sys.setDmaFree (frameRun f count) false).claimed h
          ⟨0, 0, some .dmaPool, pageAddrs (frameRun f count)⟩) hnd fun g hg => by
            simp [claimed, dmaFree_setDmaFree, hg]
      have hu2 : ((t.sys.setDmaFree (frameRun f count) false).setDmaFree (frameRun f count)
          true).used h = false := hu
      refine .of_err (e := .outOfPageSets) ?_ (.tail (.tail htook.one hgive)
          (.header h ⟨0, 0, some .dmaPool, pageAddrs (frameRun f count)⟩ hu2))
        ((hinv2.settled_header hpend hu2).from_same rfl rfl)
      simp only [bind_apply, hclaim, andThen_ok, if_neg hbig, htake, modify_apply,
        claimed_setDmaFree, claimed_setHeader, hins, hback, release_claimed hu2]
      rfl
    · refine .of_ok ?_ (htook.one.trans hmv) (hfresh.of_same rfl rfl rfl rfl rfl)
      simp only [bind_apply, hclaim, andThen_ok, if_neg hbig, htake, modify_apply,
        claimed_setDmaFree, claimed_setHeader, hins]
      rfl

theorem registerDevicePage_runs {physAddr : PhysAddr} (hdev : R.device physAddr) :
    Runs R t (registerDevicePage physAddr) (fun id t' => Fresh id t t')
      (fun _ t' => Settled t t') C := by
  unfold registerDevicePage
  rcases claim_cases' (headerPagesFor 1) t.sys with hclaim | ⟨h, hu, hclaim⟩
  · exact .bind_ok hclaim (.fail (.refl hpend))
  rcases hinv.insertNew (R := R) (n := 1) .externallyOwned hu (fun hne => absurd rfl hne)
    (fun _ _ _ => hdev) (fun h => by cases h) hR with hins | ⟨id, t', hins, hmv, hfresh⟩
  · refine .of_err (e := .outOfPageSets) ?_
      (Move.header h ⟨0, 0, some .externallyOwned, fun _ => physAddr⟩ hu).one
      (hinv.settled_header hpend hu)
    simp only [bind_apply, hclaim, andThen_ok, modify_apply, claimed_setHeader, hins,
      release_claimed hu]
    rfl
  · refine .of_ok ?_ hmv hfresh
    simp only [bind_apply, hclaim, andThen_ok, modify_apply, claimed_setHeader, hins]
    rfl

end

/-- The header of a new PageSet is given back. -/
theorem Inv.freeHeaderPage (hinv : Inv t) {ent : PageSetEntry}
    (hent : t.sys.table id = some ent) (hr : (t.sys.headers ent.headerKva).refcount = 0)
    (hm : (t.sys.headers ent.headerKva).mapCount = 0) (hR : R.unregister id) :
    ∃ t', freeHeaderPage ent.headerKva t.sys = .ok () t'.sys ∧ Moves R t t' ∧
      Released id ent.headerKva t t' := by
  obtain ⟨t', hs, hmoves, hrel⟩ := hinv.release hent hr hm hR t.sys.free t.sys.dmaFree
    (fun _ _ => ⟨rfl, rfl⟩) hinv.owns.not_both
  refine ⟨t', ?_, hmoves, hrel⟩
  have hused : (t.sys.setEntry id none).used ent.headerKva = true :=
    hinv.table.used id ent hent
  rw [Cap.freeHeaderPage, bind_apply, consumeByHeaderKva_apply hinv.table hent, andThen_ok,
    release_apply hused, hs]
  rfl

end Alloc

/-! ## The calls -/

section Calls

variable {R : MoveRule} {t : Ledger} {C : Panic → Prop} {p : ProcKva} {P : Process}

/-- A new PageSet gets its first handle, or is taken back. -/
theorem publishPageset_runs {t' : Ledger} (hfresh : Fresh id t t')
    (hinv : Inv t') (hpend : t.pending = []) (hP : t.sys.procs p = some P)
    (hR : ∀ h, t.sys.used h = false → R.insert p ⟨Rights.readWrite, .pageSet h 0#32⟩)
    {undo : HeaderKva → KernelM Unit}
    (hundo : ∀ ent, t'.sys.table id = some ent → (t'.sys.headers ent.headerKva).refcount = 0 →
      (t'.sys.headers ent.headerKva).mapCount = 0 →
      ∃ t'', undo ent.headerKva t'.sys = .ok () t''.sys ∧ Moves R t' t'' ∧
        Released id ent.headerKva t' t'') :
    Runs R t' (publishPageset p id undo) (fun _ t'' => Settled t t'') (fun _ t'' => Settled t t'')
      C := by
  obtain ⟨ent, hent, hunused, hr, hm⟩ := hfresh.entry
  have hpend' : t'.pending = [] := hfresh.pending.trans hpend
  unfold publishPageset
  refine .bind_read (.bind_orFail (fun ent' hent' => ?_) fun hnone => ?_)
  · obtain rfl : ent' = ent := Option.some.inj (hent'.symm.trans hent)
    refine .grant (f := fun i => i) hinv hpend' (hfresh.procs ▸ hP) hent
      (hR _ hunused) (fun _ => rfl) (fun hge => ?_) ?_ fun i t'' hp horph => ?_
    · rw [hr] at hge
      exact absurd hge (by decide)
    -- no slot was free: the PageSet is undone and leaves no orphan
    · obtain ⟨t'', hfree, hmv, hrel⟩ := hundo ent' hent hr hm
      refine .bind_moves hfree hmv (.fail ⟨hrel.pending.trans hpend', fun k e ho => ?_⟩)
      obtain ⟨hk, ho'⟩ := hrel.orphan ho
      exact (hfresh.orphan k e ho').resolve_left hk
    · refine ⟨hp, fun k e ho => ?_⟩
      obtain ⟨ho', hne⟩ := horph k e ho
      refine (hfresh.orphan k e ho').resolve_left ?_
      rintro rfl
      obtain rfl : e = ent' := Option.some.inj (ho'.1.symm.trans hent)
      exact hne rfl
  · rw [hent] at hnone
    cases hnone

variable (hinv : Inv t) (hpend : t.pending = []) (hP : t.sys.procs p = some P)
  (hreg : ∀ id, t.sys.table id = none → R.register id ∧ R.unregister id)
  (hins : ∀ h, t.sys.used h = false → R.insert p ⟨Rights.readWrite, .pageSet h 0#32⟩)
include hinv hpend hP hreg hins

theorem sysAllocPages_runs (count : Nat) (flags : BitVec 64) (pick : List Frame)
    (first : Option Frame) :
    Runs R t (sysAllocPages p count flags pick first) (fun _ t' => Settled t t')
      (fun _ t' => Settled t t') C := by
  have hpublish : ∀ (id : Fin maxPagesets) (t' : Ledger), Fresh id t t' → Inv t' →
      Runs R t' (publishPageset p id freeByHeaderKva) (fun _ t'' => Settled t t'')
        (fun _ t'' => Settled t t'') C := fun id t' hfresh hinv' =>
    publishPageset_runs hfresh hinv' hpend hP hins fun ent hent hr hm =>
      hinv'.freeByHeaderKva hent hr hm (hreg id hfresh.empty).2
  unfold sysAllocPages
  split
  · exact .fail (.refl hpend)
  · split
    · exact .bind hinv ((allocPagesContiguous_runs hinv hpend (fun id hid => (hreg id hid).1)
        count first).mono (fun id t' _ hf => hpublish id t' hf) (fun _ _ _ h => h) fun _ h => h)
    · exact .bind hinv ((allocPages_runs hinv hpend (fun id hid => (hreg id hid).1)
        count pick).mono (fun id t' _ hf => hpublish id t' hf) (fun _ _ _ h => h) fun _ h => h)

theorem sysAllocDmaPages_runs (count : Nat) (first : Option Frame) :
    Runs R t (sysAllocDmaPages p count first) (fun _ t' => Settled t t')
      (fun _ t' => Settled t t') C :=
  .bind hinv ((allocDmaPages_runs hinv hpend (fun id hid => (hreg id hid).1) count first).mono
    (fun id _ _ hf hinv' => publishPageset_runs hf hinv' hpend hP hins fun _ hent hr hm =>
      hinv'.freeByHeaderKva hent hr hm (hreg id hf.empty).2) (fun _ _ _ h => h) fun _ h => h)

theorem sysRegisterDevicePage_runs {physAddr : PhysAddr} (hdev : R.device physAddr) :
    Runs R t (sysRegisterDevicePage p physAddr) (fun _ t' => Settled t t')
      (fun _ t' => Settled t t') C :=
  .bind hinv ((registerDevicePage_runs hinv hpend (fun id hid => (hreg id hid).1) hdev).mono
    (fun id _ _ hf hinv' => publishPageset_runs hf hinv' hpend hP hins fun _ hent hr hm =>
      hinv'.freeHeaderPage hent hr hm (hreg id hf.empty).2) (fun _ _ _ h => h) fun _ h => h)

omit hreg hins in
theorem sysGetBootInfo_runs (hins : ∀ ent, t.sys.table t.sys.dtbPagesetId = some ent →
      R.insert p ⟨Rights.readWrite, .pageSet ent.headerKva 0#32⟩) (hC : C .refcountOverflow) :
    Runs R t (sysGetBootInfo p) (fun _ t' => Settled t t') (fun _ t' => Settled t t') C := by
  unfold sysGetBootInfo
  refine .bind_read (.bind_orFail (fun ent hent => ?_) fun _ => .refl hpend)
  exact .grant (f := fun i => i) hinv hpend hP hent (hins ent hent) (fun _ => rfl)
    (fun _ => hC) (.fail (.refl hpend))
    fun _ _ hp horph => ⟨hp, fun k e ho => (horph k e ho).1⟩

end Calls

end Lockjaw.Cap
