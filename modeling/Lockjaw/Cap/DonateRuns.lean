/-
  Lockjaw.Cap.DonateRuns

  Consuming a PageSet, and the system calls that turn one donated page into a
  kernel object or into a thread, as runs of moves.

  A consume is a revocation and an unregistration; afterwards the frames of
  the PageSet are loose.  The new kernel object is written into its frame
  before the consume, and no step of the consume looks at it.
-/

import Lockjaw.Cap.MapRuns

namespace Lockjaw.Cap

open Lib Lib.Fallible

/-! ## Consume -/

/-- The PageSet in slot `id` was revoked and unregistered; its frames are loose. -/
structure Consumed (id : Fin maxPagesets) (ent : PageSetEntry) (t t' : Ledger) : Prop where
  sys : ∃ s', Revoked ent.headerKva ent.count t.sys s' ∧
    t'.sys = (s'.setEntry id none).setUsed ent.headerKva false
  owner : ∀ f, t'.owner f = if t.owner f = .pageSet ent.headerKva then .loose else t.owner f
  pending : t'.pending = t.pending

/-- Replace all kernel objects. -/
def System.setObjects (s : System) (objects : Frame → Option KernelObject) : System :=
  { s with objects := objects }

section Consume

variable {R : MoveRule} {t t' : Ledger} {id : Fin maxPagesets} {ent : PageSetEntry}

namespace Consumed

section

variable (hc : Consumed id ent t t')
include hc

theorem frame :
    t'.sys.threads = t.sys.threads ∧ t'.sys.objects = t.sys.objects ∧
      t'.sys.kvmFree = t.sys.kvmFree ∧ t'.sys.free = t.sys.free ∧
      ∀ k, t'.sys.table k = if k = id then none else t.sys.table k := by
  obtain ⟨s', hrev, hs⟩ := hc.sys
  obtain ⟨procs, headers, rfl⟩ := hrev.revoked.frame
  rw [hs]
  exact ⟨rfl, rfl, rfl, rfl, fun _ => rfl⟩

/-- A process is still there, with its threads. -/
theorem proc (hth : ThreadsOk t.sys) {p : ProcKva} {P : Process} (hP : t.sys.procs p = some P) :
    ∃ sp, t'.sys.procs p = some { P with
        handles := eraseHeader ent.headerKva P.handles, space := sp } ∧
      ErasedAll P.space sp ent.count (rangesOf ent.headerKva P.handles) := by
  obtain ⟨s', hrev, hs⟩ := hc.sys
  have hlive : p ∈ t.sys.uniqueProcesses := hth.mem_uniqueProcesses.mpr (by rw [hP]; rfl)
  obtain ⟨sp, hs', her⟩ := hrev.revoked.inside p hlive P hP
  refine ⟨sp, ?_, her⟩
  rw [hs]
  exact hs'

theorem loose {f : Frame}
    (hf : t.owner f = .loose ∨ t.owner f = .pageSet ent.headerKva) : t'.owner f = .loose := by
  grind [hc.owner]

variable {k : Fin maxPagesets} {ent' : PageSetEntry}

section

variable (htab : TableOk t.sys) (hent : t.sys.table id = some ent)
include htab hent

/-- The PageSets left are other ones that were there before. -/
theorem table_back (hk : t'.sys.table k = some ent') :
    t.sys.table k = some ent' ∧ ent'.headerKva ≠ ent.headerKva := by grind [hc.frame, htab.unique]

theorem settled (hpend : t.pending = []) : Settled t t' := by
  refine ⟨hc.pending.trans hpend, fun k ent' ho => ?_⟩
  obtain ⟨htk, hne⟩ := hc.table_back htab hent ho.1
  obtain ⟨s', hrev, hs⟩ := hc.sys
  have hcount := ho.2
  rw [hs] at hcount
  refine ⟨htk, ?_⟩
  rw [← hrev.revoked.otherHeader _ hne]
  exact hcount

/-- A PageSet with a handle had one before. -/
theorem held (hh : Held t'.sys k ent') : Held t.sys k ent' := by
  obtain ⟨htk, hne⟩ := hc.table_back htab hent hh.1
  obtain ⟨s', hrev, hs⟩ := hc.sys
  have hcount := hh.2
  rw [hs] at hcount
  refine ⟨htk, ?_⟩
  rw [← hrev.revoked.otherHeader _ hne]
  exact hcount

end

end

end Consumed

/-- The counters are those of the live processes. -/
theorem Inv.accounting (hinv : Inv t) (hpend : t.pending = []) : t.sys.Accounting where
  live p hp := hinv.threads.mem_uniqueProcesses.mp hp
  refcount h ent he := by
    obtain ⟨id, hent, rfl⟩ := entryOf_some he
    rw [hinv.accounts.refcount id ent hent, hpend]
    rfl
  mapCount h ent he := by
    obtain ⟨id, hent, rfl⟩ := entryOf_some he
    rw [hinv.accounts.mapCount id ent hent, hpend]
    rfl

/-- A header without mappings has every mapping present, and none overlap. -/
theorem Inv.unmapped_ranges (hinv : Inv t) (hent : t.sys.table id = some ent)
    (hm : (t.sys.headers ent.headerKva).mapCount = 0) :
    t.sys.NoOverlap ent.headerKva ent.count := by
  intro p hp P hP
  have hnil : rangesOf ent.headerKva P.handles = [] := by
    rw [List.eq_nil_iff_forall_not_mem]
    intro v hv
    obtain ⟨i, e, va, hi, hk, hva, -⟩ := mem_rangesOf.mp hv
    have := hinv.mapCount_pos hP hi (h := ent.headerKva)
      (HandleEntry.maps_iff.mpr ⟨va, hk, hva⟩) hent rfl
    omega
  unfold RangesApart
  rw [hnil]
  exact .nil

/-- Consume a validated PageSet, whatever the kernel objects hold. -/
theorem Inv.consume (hinv : Inv t) (hpend : t.pending = []) (hent : t.sys.table id = some ent)
    (hmap : t.sys.MappingsPresent ent.headerKva ent.count)
    (hno : t.sys.NoOverlap ent.headerKva ent.count) (hR : R.unregister id)
    (objects : Frame → Option KernelObject) :
    ∃ t', consumePagesetApply ent.headerKva (t.sys.setObjects objects)
        = .ok () (t'.sys.setObjects objects) ∧ Moves R t t' ∧ Consumed id ent t t' := by
  have hacc := hinv.accounting hpend
  have hentry := hinv.table.entryOf hent
  obtain ⟨st, s', hrun, hrev, -⟩ := revokeApply_ok (s := t.sys.setObjects objects)
    ⟨hacc.live, hacc.refcount, hacc.mapCount⟩ hentry hmap hno
  -- the walk reads no kernel object, so what it did holds for the old objects too
  obtain ⟨procs, headers, rfl⟩ := hrev.revoked.frame
  have hrev' : Revoked ent.headerKva ent.count t.sys
      { t.sys with procs := procs, headers := headers } :=
    ⟨⟨⟨procs, headers, rfl⟩, hrev.revoked.refcount, hrev.revoked.mapCount, hrev.revoked.header,
      hrev.revoked.otherHeader, hrev.revoked.inside, hrev.revoked.outside⟩,
      hrev.refcount, hrev.mapCount⟩
  have hmove : Move R t ⟨{ t.sys with procs := procs, headers := headers }, t.owner, t.pending⟩ :=
    .revoke hent hpend hrev'
  have hun := (Move.unregister (R := R) (t := ⟨{ t.sys with procs := procs, headers := headers },
    t.owner, t.pending⟩) hent hrev'.refcount hrev'.mapCount hR)
  refine ⟨_, ?_, .tail hmove.one hun, ⟨_, hrev', rfl⟩, fun _ => rfl, rfl⟩
  have hfind : System.findByHeaderKva { t.sys.setObjects objects with
      procs := procs, headers := headers } ent.headerKva = some id :=
    hinv.table.findByHeaderKva hent
  have hused : (System.setEntry { t.sys.setObjects objects with
      procs := procs, headers := headers } id none).used ent.headerKva = true :=
    hinv.table.used id ent hent
  simp only [consumePagesetApply, bind_apply, hrun, andThen_ok, consumeByHeaderKva, read_apply,
    hfind, modify_apply, release_apply hused]
  rfl

end Consume

/-! ## Donation of one page -/

section Donate

variable {R : MoveRule} {t : Ledger} {p : ProcKva} {P : Process} {C : Panic → Prop}

section

variable (hinv : Inv t)
include hinv

/-- The PageSet of a handle, if a donation accepts it. -/
theorem validateBuddyPageset_cases (hP : t.sys.procs p = some P) (handle lo hi : Nat) :
    (∃ e, validateBuddyPageset p handle lo hi t.sys = .err e t.sys) ∨
      ∃ id ent r va, t.sys.table id = some ent ∧ ent.origin = .buddy ∧
        (t.sys.headers ent.headerKva).mapCount = 0 ∧ lo ≤ ent.count ∧ ent.count ≤ hi ∧
        P.handles[handle]? = some ⟨r, .pageSet ent.headerKva va⟩ ∧
        validateBuddyPageset p handle lo hi t.sys = .ok (ent.headerKva, ent.count) t.sys := by
  simp only [validateBuddyPageset, bind_apply, getProcess_apply hP, andThen_ok]
  cases hl : lookupPageSet P handle Rights.write with
  | error x => exact Or.inl ⟨x, rfl⟩
  | ok h =>
    obtain ⟨r, va, hi', -⟩ := lookupPageSet_ok hl
    obtain ⟨id, ent, hent, rfl, hentry⟩ := hinv.slot_entry hP hi'
    simp only [ofExcept_ok_apply, andThen_ok, bind_apply, readHeaderBacked_apply hentry,
      hinv.table.origin id ent hent]
    cases horg : ent.origin with
    | buddy =>
      dsimp only
      by_cases hm : (t.sys.headers ent.headerKva).mapCount = 0
      · rw [if_neg (not_not.mpr hm)]
        by_cases hc : lo ≤ ent.count ∧ ent.count ≤ hi
        · rw [if_pos hc]
          exact Or.inr ⟨id, ent, r, va, hent, horg, hm, hc.1, hc.2, hi', rfl⟩
        · rw [if_neg hc]
          exact Or.inl ⟨_, rfl⟩
      · rw [if_pos hm]
        exact Or.inl ⟨_, rfl⟩
    | dmaPool => exact Or.inl ⟨_, rfl⟩
    | externallyOwned => exact Or.inl ⟨_, rfl⟩

/-- Frame `f` was the page of a PageSet and is loose now. -/
structure Donated (f : Frame) (t t' : Ledger) : Prop where
  was : ∃ h, t.owner f = .pageSet h
  loose : t'.owner f = .loose
  keep : ∀ g, t.owner g = .loose → t'.owner g = .loose
  threads : t'.sys.threads = t.sys.threads
  objects : t'.sys.objects = t.sys.objects
  procs : ∀ q, (t.sys.procs q).isSome → (t'.sys.procs q).isSome
  settled : Settled t t'
  held : ∀ k ent, Held t'.sys k ent → Held t.sys k ent

/-- A number of free pages of the KVM window. -/
theorem Inv.kvmMove (n : Nat) : Move R t ⟨t.sys.setKvmFree n, t.owner, t.pending⟩ :=
  .frames t.sys.free t.sys.dmaFree n t.owner (fun _ => Or.inl rfl) hinv.owns.free hinv.owns.dma

/-- A page is donated: refused without effect, or the PageSet is consumed
    around the initialisation of the page. -/
theorem Inv.donate (hpend : t.pending = []) (hP : t.sys.procs p = some P)
    (handle : Nat) {init : Frame → KernelM Unit} (objects : Frame → Frame → Option KernelObject)
    (hinit : ∀ f h n, t.owner f = .pageSet h →
      init f (t.sys.setKvmFree n) = .ok () ((t.sys.setKvmFree n).setObjects (objects f)))
    (hR : R.Frees t.sys) :
    (∃ e, donateOneKernelPage p handle init t.sys = .err e t.sys) ∨
      ∃ f t', donateOneKernelPage p handle init t.sys = .ok f (t'.sys.setObjects (objects f)) ∧
        Moves R t t' ∧ Donated f t t' := by
  rcases validateBuddyPageset_cases hinv hP handle 1 1 with
    ⟨e, hval⟩ | ⟨id, ent, r, va, hent, horg, hm, hlo, -, hslot, hval⟩
  · refine Or.inl ⟨e, ?_⟩
    simp [donateOneKernelPage, hval]
  have hentry := hinv.table.entryOf hent
  have hget : BackedHeader.getPage ⟨t.sys.headers ent.headerKva, ent.count⟩ 0
      = some ((t.sys.headers ent.headerKva).pages 0) :=
    if_neg (by dsimp only; omega)
  obtain ⟨res, hvalid, hiff, -⟩ := revokeValidate_spec (hinv.accounting hpend) hentry
  cases res with
  | error x =>
    refine Or.inl ⟨.invalidHandle, ?_⟩
    simp [donateOneKernelPage, hval, readHeaderBacked_apply hentry, hget, consumePagesetValidate,
      hvalid]
  | ok u =>
    by_cases hkvm : t.sys.kvmFree = 0
    · refine Or.inl ⟨.outOfMemory, ?_⟩
      simp [donateOneKernelPage, hval, readHeaderBacked_apply hentry, hget, consumePagesetValidate,
        hvalid, if_pos hkvm]
    have href : 0 < (t.sys.headers ent.headerKva).refcount :=
      hinv.refcount_pos hP (List.mem_of_getElem? hslot) (by simp) hent rfl
    -- a page of the window is reserved, then the PageSet is consumed
    have hkmove := hinv.kvmMove (R := R) (t.sys.kvmFree - 1)
    have hinv1 := hinv.move hkmove
    have hown : t.owner ((t.sys.headers ent.headerKva).pages 0 / pageSize)
        = .pageSet ent.headerKva :=
      (hinv.owns.data id ent hent (by rw [horg]; decide)).owned 0 ent.count_pos
    generalize hf : (t.sys.headers ent.headerKva).pages 0 / pageSize = f at hown
    obtain ⟨t', happ, hmoves, hcons⟩ := hinv1.consume (R := R) hpend hent (hiff.mp rfl)
      (hinv.unmapped_ranges hent hm) (hR id ent ⟨hent, Nat.ne_of_gt href⟩) (objects f)
    obtain ⟨hthreads, hobjects, -⟩ := hcons.frame
    refine Or.inr ⟨f, t', ?_, hkmove.one.trans hmoves, ⟨_, hown⟩, hcons.loose (.inr hown),
      fun g hg => hcons.loose (.inl hg), hthreads, hobjects, fun q hq => ?_, ?_, ?_⟩
    · simp [donateOneKernelPage, hval, readHeaderBacked_apply hentry, hget, consumePagesetValidate,
        hvalid, if_neg hkvm, hf, hinit f _ _ hown, happ]
    · obtain ⟨Q, hQ⟩ := Option.isSome_iff_exists.mp hq
      obtain ⟨sp, hQ', -⟩ := hcons.proc hinv1.threads hQ
      rw [hQ']
      rfl
    · exact (hcons.settled hinv1.table hent hpend).from_same rfl rfl
    · exact fun k ent' h => hcons.held hinv1.table hent h

variable {f : Frame}

/-- A new object in a loose frame. -/
theorem Inv.objectMove (hf : t.owner f = .loose) (o : KernelObject) :
    Move R t ⟨t.sys.setObject f o, fun g => if g = f then .object else t.owner g, t.pending⟩ := by
  refine .object f o (Or.inl hf) fun type o' ho' => ?_
  have := hinv.owns.objects f (by rw [ho']; rfl)
  rw [hf] at this
  cases this

/-- Writing an object over the page of a PageSet changes the objects only. -/
theorem Inv.initObject (o : KernelObject) {h : HeaderKva} {n : Nat} (hf : t.owner f = .pageSet h) :
    Cap.initObject o f (t.sys.setKvmFree n) = .ok () ((t.sys.setKvmFree n).setObjects
      fun g => if g = f then some o else t.sys.objects g) := by
  have hi := hinv.owns.inert (f := f) (by rw [hf]; rfl)
  have hover : (t.sys.setKvmFree n).overwrite f = t.sys.setKvmFree n :=
    System.Inert.overwrite_eq ⟨hi.proc, hi.procs, hi.threads, hi.object⟩
  simp only [Cap.initObject, bind_apply, modify_apply, andThen_ok, hover]
  rfl

section

variable (hpend : t.pending = []) (hP : t.sys.procs p = some P) (handle : Nat)
include hpend hP handle

/-- A donated page becomes a kernel object, with a handle to it. -/
theorem createKernelObject_runs {makeKind : Frame → HandleKind}
    {o : KernelObject} (hkind : ∀ f, (makeKind f).isPageset = false)
    (hok : ∀ (f : Frame) (s : System), s.objects f = some o →
      SlotOk s ⟨Rights.readWrite, (makeKind f).unmapped⟩) (hR : R.Frees t.sys)
    (hins : ∀ f, t.sys.objects f = none → R.insert p ⟨Rights.readWrite, (makeKind f).unmapped⟩) :
    Runs R t (createKernelObject p handle makeKind o) (fun _ t' => Settled t t')
      (fun _ t' => Settled t t') C := by
  unfold createKernelObject
  rcases hinv.donate hpend hP handle (fun f g => if g = f then some o else t.sys.objects g)
    (fun f h n hf => hinv.initObject o hf) hR with ⟨e, herr⟩ | ⟨f, t', hdon, hmoves, hd⟩
  · exact .bind_err herr (.refl hpend)
  have hinv' := hmoves.inv hinv
  have hmove := hinv'.objectMove (R := R) hd.loose o
  have hinv2 := hinv'.move hmove
  obtain ⟨P', hP'⟩ := Option.isSome_iff_exists.mp (hd.procs p (by rw [hP]; rfl))
  have hset : Settled t ⟨t'.sys.setObject f o, fun g => if g = f then .object else t'.owner g,
      t'.pending⟩ := ⟨hd.settled.pending, hd.settled.orphan⟩
  -- the page belonged to a PageSet, so no object was there
  have hnone : t.sys.objects f = none := by
    obtain ⟨h, hh⟩ := hd.was
    exact (hinv.owns.inert (by rw [hh]; rfl)).object
  have hsys : t'.sys.setObjects (fun g => if g = f then some o else t.sys.objects g)
      = t'.sys.setObject f o := by
    rw [← hd.objects]
    rfl
  refine .bind_moves (hsys ▸ hdon) (.tail hmoves hmove) ?_
  rcases grantObject_cases (R := R) (t := ⟨t'.sys.setObject f o, _, t'.pending⟩) hP'
    hd.settled.pending (hkind f) (hok f _ (if_pos rfl)) (hins f hnone) with
    hfull | ⟨i, t'', hput, hmv, hset'⟩
  · refine .bind_ok hfull ?_
    -- no slot is free: the kernel mapping goes back, the page stays with the kernel
    have hk := hinv2.kvmMove (R := R) (t'.sys.kvmFree + 1)
    exact .bind_moves rfl hk.one (.fail ⟨hset.pending, hset.orphan⟩)
  · exact .bind_moves hput hmv (.pure (hset.trans hset'))

/-- The three kinds of object differ in the handle they get. -/
theorem sysCreateEndpoint_runs (hR : R.Frees t.sys)
    (hins : ∀ f, t.sys.objects f = none → R.insert p ⟨Rights.readWrite, .endpoint f none⟩) :
    Runs R t (sysCreateEndpoint p handle) (fun _ t' => Settled t t') (fun _ t' => Settled t t') C :=
  createKernelObject_runs hinv hpend hP handle (fun _ => rfl)
    (fun _ _ ho => ⟨.endpoint 1, ho, rfl, Nat.one_pos⟩) hR hins

theorem sysCreateNotification_runs (hR : R.Frees t.sys)
    (hins : ∀ f, t.sys.objects f = none → R.insert p ⟨Rights.readWrite, .notification f⟩) :
    Runs R t (sysCreateNotification p handle) (fun _ t' => Settled t t')
      (fun _ t' => Settled t t') C :=
  createKernelObject_runs hinv hpend hP handle (fun _ => rfl)
    (fun _ _ ho => ⟨.notification, ho, rfl⟩) hR hins

theorem sysCreateReply_runs (hR : R.Frees t.sys)
    (hins : ∀ f, t.sys.objects f = none → R.insert p ⟨Rights.readWrite, .reply f⟩) :
    Runs R t (sysCreateReply p handle) (fun _ t' => Settled t t') (fun _ t' => Settled t t') C :=
  createKernelObject_runs hinv hpend hP handle (fun _ => rfl)
    (fun _ _ ho => ⟨.reply, ho, rfl⟩) hR hins

end

end

end Donate

/-! ## Threads -/

section Threads

variable {R : MoveRule} {t : Ledger} {p : ProcKva} {P : Process} {C : Panic → Prop}

theorem addThread_apply {ε : Type} {s : System} (c : Tcb) (hroom : s.hasRoom = true) :
    ∃ i, s.threads[i]? = some none ∧
      addThread (ε := ε) c s = .ok true (s.setThreads (s.threads.set i (some c))) := by
  unfold System.hasRoom at hroom
  obtain ⟨o, hmem, ho⟩ := List.any_eq_true.mp hroom
  cases hf : s.threads.findIdx? (·.isNone) with
  | none =>
    rw [List.findIdx?_eq_none_iff] at hf
    rw [hf o hmem] at ho
    cases ho
  | some i =>
    obtain ⟨hlt, hp, -⟩ := List.findIdx?_eq_some_iff_getElem.mp hf
    refine ⟨i, ?_, ?_⟩
    · rw [List.getElem?_eq_getElem hlt, Option.isNone_iff_eq_none.mp hp]
    · simp [addThread, hf]

theorem sysCreateThread_runs (hinv : Inv t) (hpend : t.pending = []) (hP : t.sys.procs p = some P)
    (entryPoint stackTop stackBase stackHandle tcbHandle : Nat) (hR : R.Frees t.sys) :
    Runs R t (sysCreateThread p entryPoint stackTop stackBase stackHandle tcbHandle)
      (fun _ t' => Settled t t') (fun _ t' => Settled t t') C := by
  unfold sysCreateThread
  split
  · exact .fail (.refl hpend)
  split
  · exact .fail (.refl hpend)
  split
  · exact .fail (.refl hpend)
  refine .bind_read ?_
  split
  · exact .fail (.refl hpend)
  rename_i hroom
  simp only [Bool.not_eq_true', Bool.not_eq_false] at hroom
  have hkeep : ∀ f h n, t.owner f = .pageSet h → (fun _ => pure () : Frame → KernelM Unit) f
      (t.sys.setKvmFree n) = .ok () ((t.sys.setKvmFree n).setObjects t.sys.objects) :=
    fun f h n hf => rfl
  rcases hinv.donate (R := R) hpend hP stackHandle (fun _ => t.sys.objects) hkeep hR with
    ⟨e, herr⟩ | ⟨stack, t1, hdon, hmv, hd⟩
  · exact .bind_err herr (.refl hpend)
  have hinv1 := hmv.inv hinv
  have hsys : t1.sys.setObjects t.sys.objects = t1.sys := by
    rw [← hd.objects]
    rfl
  rw [hsys] at hdon
  refine .bind_moves hdon hmv ?_
  obtain ⟨P₁, hP1⟩ := Option.isSome_iff_exists.mp (hd.procs p (by rw [hP]; rfl))
  -- both pages hold nothing the kernel reads
  have hinit : ∀ f h n, t1.owner f = .pageSet h →
      (do modify (System.overwrite stack); modify (System.overwrite f) : KernelM Unit)
        (t1.sys.setKvmFree n) = .ok () ((t1.sys.setKvmFree n).setObjects t1.sys.objects) := by
    intro f h n hf
    have hi := hinv1.owns.inert (f := stack) (by rw [hd.loose]; rfl)
    have hi' := hinv1.owns.inert (f := f) (by rw [hf]; rfl)
    have h1 : (t1.sys.setKvmFree n).overwrite stack = t1.sys.setKvmFree n :=
      System.Inert.overwrite_eq ⟨hi.proc, hi.procs, hi.threads, hi.object⟩
    have h2 : (t1.sys.setKvmFree n).overwrite f = t1.sys.setKvmFree n :=
      System.Inert.overwrite_eq ⟨hi'.proc, hi'.procs, hi'.threads, hi'.object⟩
    simp only [bind_apply, modify_apply, andThen_ok, h1, h2]
    rfl
  rcases hinv1.donate (R := R) hd.settled.pending hP1 tcbHandle (fun _ => t1.sys.objects) hinit
    (hR.mono hd.held) with ⟨e, herr⟩ | ⟨tcb, t2, hdon2, hmv2, hd2⟩
  · exact .bind_err herr hd.settled
  have hsys2 : t2.sys.setObjects t1.sys.objects = t2.sys := by
    rw [← hd2.objects]
    rfl
  rw [hsys2] at hdon2
  refine .bind_moves hdon2 hmv2 ?_
  obtain ⟨P₂, hP2⟩ := Option.isSome_iff_exists.mp (hd2.procs p (by rw [hP1]; rfl))
  have hthreads : t2.sys.threads = t.sys.threads := hd2.threads.trans hd.threads
  have hroom2 :
      (t2.sys.setProc p { P₂ with threadCount := P₂.threadCount + 1 }).hasRoom = true := by
    unfold System.hasRoom at *
    rw [System.setProc_threads, hthreads]
    exact hroom
  obtain ⟨i, hi, hadd⟩ := addThread_apply (ε := SyscallError) ⟨tcb, some p, .pool stack⟩ hroom2
  have hne : tcb ≠ stack := by
    rintro rfl
    obtain ⟨h, hh⟩ := hd2.was
    rw [hd.loose] at hh
    cases hh
  have hmove : Move R t2 _ := .thread hP2 hi hd2.loose (hd2.keep stack hd.loose) hne
  refine .of_ok (a := ()) ?_ hmove.one (hd.settled.trans ⟨hd2.settled.pending, hd2.settled.orphan⟩)
  simp only [incThreadCount, bind_apply, getProcess_apply hP2, andThen_ok, modify_apply, hadd,
    if_true, pure_apply]
  rfl

end Threads

end Lockjaw.Cap
