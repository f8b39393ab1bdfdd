/-
  Lockjaw.Cap.LedgerOwns

  Every move keeps the ledger of frames: each move changes the owner of the
  frames it names, all of which were loose, in an allocator, or part of what
  the move takes apart.
-/

import Lockjaw.Cap.Ledger

namespace Lockjaw.Cap

open Cap.System

open AddressSpace (SameTables)

/-! ## Changing owners -/

/-- The owners of the frames of process `p`. -/
def Owner.OfProcess (p : ProcKva) (o : Owner) : Prop :=
  o = .process p ∨ o = .handleTable p ∨ o = .table p ∨ o = .owned p

section Mono

variable {owner owner' : Frame → Owner} {p : ProcKva} {P : Process}

theorem DataOwned.mono {o : Owner} {pages : Nat → PhysAddr} {n : Nat}
    (hd : DataOwned owner o pages n) (hk : ∀ f, owner f = o → owner' f = o) :
    DataOwned owner' o pages n :=
  ⟨hd.aligned, fun i hi => hk _ (hd.owned i hi), hd.inj⟩

theorem ProcessOwned.mono (hp : ProcessOwned owner p P)
    (hk : ∀ f, (owner f).OfProcess p → owner' f = owner f) : ProcessOwned owner' p P where
  process := (hk p (.inl hp.process)).trans hp.process
  handleTable := (hk _ (.inr (.inl hp.handleTable))).trans hp.handleTable
  tables f hf := (hk f (.inr (.inr (.inl (hp.tables f hf))))).trans (hp.tables f hf)
  nodup := hp.nodup
  aligned := hp.aligned
  owned a ha := (hk _ (.inr (.inr (.inr (hp.owned a ha))))).trans (hp.owned a ha)
  ownedNodup := hp.ownedNodup

/-- The frames of a process depend on its tables and owned pages only. -/
theorem ProcessOwned.of_same {P' : Process} (hp : ProcessOwned owner p P)
    (hht : P'.handleTable = P.handleTable) (hsp : P'.space.tableFrames = P.space.tableFrames)
    (how : P'.ownedPages = P.ownedPages) : ProcessOwned owner p P' := by
  constructor
  all_goals grind [hp.aligned, hp.handleTable, hp.nodup, hp.owned, hp.ownedNodup, hp.process,
    hp.tables]

end Mono

/-- A change of owners that only touches frames whose owner satisfies `K`. -/
structure Recolour (K : Owner → Prop) (owner owner' : Frame → Owner) : Prop where
  keep : ∀ f, ¬ K (owner f) → owner' f = owner f
  proper : ¬ K .other

namespace Recolour

variable {K : Owner → Prop} {t : Ledger} {owner' : Frame → Owner}

section

variable (hr : Recolour K t.owner owner')
include hr

theorem keep_eq {f : Frame} {o : Owner} (hf : t.owner f = o) (ho : ¬ K o) : owner' f = o := by
  rw [hr.keep f (by rw [hf]; exact ho), hf]

theorem bound (ho : Owns t) : ∀ f, owner' f ≠ .other → f < 2 ^ 36 := by
  intro f hf
  apply ho.bound f
  intro hother
  exact hf (hr.keep_eq hother hr.proper)

theorem data {h : HeaderKva} (hk : ¬ K (.pageSet h))
    {pages : Nat → PhysAddr} {n : Nat} (hd : DataOwned t.owner (.pageSet h) pages n) :
    DataOwned owner' (.pageSet h) pages n :=
  hd.mono fun _ hf => hr.keep_eq hf hk

variable {p : ProcKva} {P : Process}

theorem process (hk : ∀ o : Owner, o.OfProcess p → ¬ K o) (hp : ProcessOwned t.owner p P) :
    ProcessOwned owner' p P :=
  hp.mono fun f hf => hr.keep f (hk _ hf)

end

theorem process_loose (hr : Recolour (· = .loose) t.owner owner')
    (hp : ProcessOwned t.owner p P) : ProcessOwned owner' p P :=
  hr.process (by rintro o (rfl | rfl | rfl | rfl) <;> simp) hp

/-- What the system uses is not loose, so loose frames may be given to anybody. -/
theorem owns (hr : Recolour (· = .loose) t.owner owner') (ho : Owns t) :
    Owns ⟨t.sys, owner', t.pending⟩ where
  free f hf := hr.keep_eq (ho.free f hf) (by simp)
  dma f hf := hr.keep_eq (ho.dma f hf) (by simp)
  bound := hr.bound ho
  data id ent hid hor := hr.data (by simp) (ho.data id ent hid hor)
  procs _ _ hP := hr.process_loose (ho.procs _ _ hP)
  tcb i c hc := hr.keep_eq (ho.tcb i c hc) (by simp)
  stack i c f hc hf := hr.keep_eq (ho.stack i c f hc hf) (by simp)
  objects f hf := hr.keep_eq (ho.objects f hf) (by simp)

end Recolour

/-! ## Moves that change frames or slots -/

section Moves

variable {t : Ledger} {p : ProcKva} {P : Process}

variable {owner : Frame → Owner} {space : AddressSpace} {pending : List HandleEntry}
  {id : Fin maxPagesets} {ent : PageSetEntry} {s' : System} {i : Nat} {tcb stack : Frame}

section

variable (ho : Owns t)
include ho

theorem Owns.frames {free dma : Frame → Bool} {kvm : Nat}
    (howner : ∀ f, owner f = t.owner f ∨ (t.owner f).Spare ∧ (owner f).Spare)
    (hfree : ∀ f, free f = true → owner f = .free) (hdma : ∀ f, dma f = true → owner f = .dma) :
    Owns ⟨{ t.sys with free := free, dmaFree := dma, kvmFree := kvm }, owner, t.pending⟩ := by
  have hr : Recolour Owner.Spare t.owner owner :=
    ⟨fun f hf => (howner f).resolve_right fun h => hf h.1, by simp [Owner.Spare]⟩
  constructor
  · exact hfree
  · exact hdma
  · exact hr.bound ho
  · exact fun id ent hid hor => hr.data (by simp [Owner.Spare]) (ho.data id ent hid hor)
  · intro p P hP
    refine hr.process (fun o h => ?_) (ho.procs p P hP)
    rcases h with rfl | rfl | rfl | rfl <;> simp [Owner.Spare]
  all_goals grind [ho.objects, ho.stack, ho.tcb, Owner.Spare]

/-- A slot change, with new tables made of loose frames. -/
theorem Owns.putSlot (hP : t.sys.procs p = some P) (i : Nat) (e e' : HandleEntry)
    {fs : List Frame} (hfs : ∀ f ∈ fs, t.owner f = .loose)
    (hnodup : fs.Nodup) (hperm : space.tableFrames.Perm (fs ++ P.space.tableFrames)) :
    Owns ⟨t.sys.putSlot p P i e e' space, fun f => if f ∈ fs then .table p else t.owner f,
      t.pending⟩ := by
  have hr : Recolour (· = .loose) t.owner fun f => if f ∈ fs then .table p else t.owner f :=
    ⟨fun f hf => if_neg fun hmem => hf (hfs f hmem), by simp⟩
  have hown := ho.procs p P hP
  refine { hr.owns ho with procs := fun q Q hQ => ?_ }
  simp only [System.putSlot, System.procs_setProc] at hQ
  split at hQ
  · rename_i hq
    subst hq
    cases hQ
    have hkeep := hr.process_loose hown
    refine { hkeep with tables := fun f hf => ?_, nodup := ?_ }
    all_goals grind [hown.nodup, hown.tables]
  · exact hr.process_loose (ho.procs q Q hQ)

/-- A slot change that keeps the tables. -/
theorem Owns.putSlot_same (hP : t.sys.procs p = some P) (i : Nat)
    (e e' : HandleEntry) (hsp : SameTables P.space space) :
    Owns ⟨t.sys.putSlot p P i e e' space, t.owner, t.pending⟩ := by
  have h := ho.putSlot hP i e e' (by simp : ∀ f ∈ [], t.owner f = .loose) List.nodup_nil
    (by rw [hsp.tableFrames, List.nil_append])
  simpa using h

theorem Owns.object {f : Frame} (o : KernelObject)
    (hown : t.owner f = .loose ∨ t.owner f = .object) :
    Owns ⟨t.sys.setObject f o, fun g => if g = f then .object else t.owner g, t.pending⟩ := by
  have hr : Recolour (· = .loose) t.owner fun g => if g = f then .object else t.owner g :=
    ⟨by grind, by simp⟩
  refine { hr.owns ho with objects := fun g hg => ?_ }
  have hob := ho.objects g
  simp only [setObject] at hg
  grind

/-- Only the pages of registered headers matter. -/
theorem Owns.of_headers {headers : HeaderKva → PageSetHeader}
    (hpages : ∀ id ent, t.sys.table id = some ent →
      (headers ent.headerKva).pages = (t.sys.headers ent.headerKva).pages) :
    Owns ⟨{ t.sys with headers := headers }, t.owner, pending⟩ where
  free := ho.free
  dma := ho.dma
  bound := ho.bound
  data id ent hid hor := by
    rw [hpages id ent hid]
    exact ho.data id ent hid hor
  procs := ho.procs
  tcb := ho.tcb
  stack := ho.stack
  objects := ho.objects

theorem Owns.register (htab : TableOk t.sys)
    {pages : Nat → PhysAddr} (hu : t.sys.used ent.headerKva = false)
    (hdata : ent.origin ≠ .externallyOwned → DataOwned t.owner .loose pages ent.count) :
    Owns ⟨((t.sys.setUsed ent.headerKva true).setHeader ent.headerKva
          ⟨0, 0, some ent.origin, pages⟩).setEntry id (some ent),
        fun f => if ent.origin ≠ .externallyOwned ∧ ∃ i, i < ent.count ∧ f = pages i / pageSize
          then .pageSet ent.headerKva else t.owner f, t.pending⟩ := by
  have hr : Recolour (· = .loose) t.owner fun f =>
      if ent.origin ≠ .externallyOwned ∧ ∃ i, i < ent.count ∧ f = pages i / pageSize
      then .pageSet ent.headerKva else t.owner f := by
    refine ⟨fun f hf => if_neg ?_, by simp⟩
    rintro ⟨hor, i, hi, rfl⟩
    exact hf ((hdata hor).owned i hi)
  refine { hr.owns ho with data := fun id' ent' hid' hor => ?_ }
  rw [table_setEntry] at hid'
  by_cases hne : id' = id
  · rw [if_pos hne, Option.some.injEq] at hid'
    subst hid'
    simp only [setEntry_headers, headers_setHeader_self]
    have hd := hdata hor
    exact ⟨hd.aligned, fun i hi => if_pos ⟨hor, i, hi, rfl⟩, hd.inj⟩
  · rw [if_neg hne] at hid'
    have hh := htab.ne_of_unused hu hid'
    simp only [setEntry_headers, headers_setHeader_of_ne hh]
    exact hr.data (by simp) (ho.data id' ent' hid' hor)

theorem Owns.unregister (htab : TableOk t.sys) (hent : t.sys.table id = some ent) :
    Owns ⟨(t.sys.setEntry id none).setUsed ent.headerKva false,
      fun f => if t.owner f = .pageSet ent.headerKva then .loose else t.owner f, t.pending⟩ := by
  have hr : Recolour (· = .pageSet ent.headerKva) t.owner fun f =>
      if t.owner f = .pageSet ent.headerKva then .loose else t.owner f :=
    ⟨fun f hf => if_neg hf, by simp⟩
  constructor
  · exact fun f hf => hr.keep_eq (ho.free f hf) (by simp)
  · exact fun f hf => hr.keep_eq (ho.dma f hf) (by simp)
  · exact hr.bound ho
  · intro id' ent' hid' hor
    simp only [setUsed_table, table_setEntry] at hid'
    by_cases hne : id' = id
    · rw [if_pos hne] at hid'
      cases hid'
    · rw [if_neg hne] at hid'
      have hh : ent'.headerKva ≠ ent.headerKva := fun heq =>
        hne (htab.unique id' id ent' ent hid' hent heq)
      exact hr.data (by simpa using hh) (ho.data id' ent' hid' hor)
  · intro p P hP
    refine hr.process (fun o h => ?_) (ho.procs p P hP)
    rcases h with rfl | rfl | rfl | rfl <;> simp
  · exact fun i c hc => hr.keep_eq (ho.tcb i c hc) (by simp)
  · exact fun i c f hc hf => hr.keep_eq (ho.stack i c f hc hf) (by simp)
  · exact fun f hf => hr.keep_eq (ho.objects f hf) (by simp)

theorem Owns.revoke (hth : ThreadsOk t.sys) {h : HeaderKva} {n : Nat}
    (hrev : Revoked h n t.sys s') : Owns ⟨s', t.owner, t.pending⟩ := by
  have hprocs : ∀ p P, s'.procs p = some P → ProcessOwned t.owner p P := by
    intro p P hP
    obtain ⟨Q, sp, hQ, rfl, her⟩ := hrev.proc hth hP
    exact (ho.procs p Q hQ).of_same rfl her.tables.tableFrames rfl
  have hpages : ∀ k, (s'.headers k).pages = (t.sys.headers k).pages := by
    grind [hrev.revoked.header, hrev.revoked.otherHeader]
  obtain ⟨procs, headers, rfl⟩ := hrev.revoked.frame
  constructor
  · exact ho.free
  · exact ho.dma
  · exact ho.bound
  all_goals grind [ho.data, ho.objects, ho.stack, ho.tcb]

end

/-! ## Threads and processes -/

/-- A thread slot after one slot changed. -/
theorem getElem?_set_cases {α : Type} {l : List α} {j : Nat} {a b : α}
    (h : (l.set i a)[j]? = some b) : i = j ∧ a = b ∨ i ≠ j ∧ l[j]? = some b := by
  rw [List.getElem?_set] at h
  grind

/-- A new thread of `p` in slot `i`, made of loose frames. -/
theorem Owns.addThread (ho : Owns t) {c : Tcb}
    (hr : Recolour (· = .loose) t.owner owner) (hproc : ProcessOwned owner p P)
    (htcb : owner c.frame = .tcb i) (hstack : ∀ f, c.stack.frame? = some f → owner f = .stack i) :
    Owns ⟨(t.sys.setProc p P).setThreads (t.sys.threads.set i (some c)), owner, t.pending⟩ := by
  refine { hr.owns ho with procs := fun q Q hQ => ?_, tcb := fun j c' hc => ?_,
                           stack := fun j c' f hc hf => ?_ }
  · simp only [setThreads_procs, procs_setProc] at hQ
    grind [ho.procs, hr.process_loose]
  · rcases getElem?_set_cases hc with ⟨rfl, heq⟩ | ⟨-, hold⟩
    · cases heq
      exact htcb
    · exact hr.keep_eq (ho.tcb j c' hold) (by simp)
  · rcases getElem?_set_cases hc with ⟨rfl, heq⟩ | ⟨-, hold⟩
    · cases heq
      exact hstack f hf
    · exact hr.keep_eq (ho.stack j c' f hold hf) (by simp)

theorem Owns.thread (ho : Owns t) (hP : t.sys.procs p = some P)
    (htcb : t.owner tcb = .loose) (hstack : t.owner stack = .loose) (hne : tcb ≠ stack) :
    Owns ⟨(t.sys.setProc p { P with threadCount := P.threadCount + 1 }).setThreads
        (t.sys.threads.set i (some ⟨tcb, some p, .pool stack⟩)),
      fun f => if f = tcb then .tcb i else if f = stack then .stack i else t.owner f,
      t.pending⟩ := by
  have hr : Recolour (· = .loose) t.owner
      fun f => if f = tcb then .tcb i else if f = stack then .stack i else t.owner f :=
    ⟨by grind, by simp⟩
  refine ho.addThread hr ((hr.process_loose (ho.procs p P hP)).of_same rfl rfl rfl) (if_pos rfl)
    fun f hf => ?_
  cases hf
  exact (if_neg hne.symm).trans (if_pos rfl)

/-- The frames of the new process, as their owners see them. -/
theorem processOwned_child (owner : Frame → Owner) (i : Nat)
    (hnodup : (childFrameList p P tcb stack).Nodup)
    (haligned : ∀ a ∈ P.ownedPages, a % pageSize = 0)
    (howner : ∀ f ∈ childFrameList p P tcb stack, owner f = childOwner p P i tcb stack f) :
    ProcessOwned owner p P ∧ owner tcb = .tcb i ∧ owner stack = .stack i := by
  simp only [childFrameList, List.cons_append, List.nodup_cons, List.mem_cons, List.mem_append,
    not_or, List.nodup_append] at hnodup howner
  obtain ⟨⟨hp1, hp2, hp3, hp4, hp5⟩, ⟨ht1, ht2, ht3, ht4⟩, ⟨hc1, hc2, hc3⟩, ⟨hs1, hs2⟩,
    hn1, hn2, hn3⟩ := hnodup
  have hmem : ∀ a ∈ P.ownedPages, a / pageSize ∈ P.ownedPages.map (· / pageSize) := fun a ha =>
    List.mem_map_of_mem ha
  have hon : P.ownedPages.Nodup :=
    List.Pairwise.of_map _ (fun a b hab heq => hab (congrArg (· / pageSize) heq)) hn2
  -- `childOwner` tests the frames one after another; each is none of those before it
  refine ⟨⟨?_, ?_, fun f hf => ?_, hn1, haligned, fun a ha => ?_, hon⟩, ?_, ?_⟩
  · rw [howner p (.inl rfl)]
    simp [childOwner]
  · rw [howner _ (.inr (.inl rfl))]
    simp [childOwner, Ne.symm hp1]
  · rw [howner f (.inr (.inr (.inr (.inr (.inl hf)))))]
    have h1 : f ≠ p := by rintro rfl; exact hp4 hf
    have h2 : f ≠ P.handleTable := by rintro rfl; exact ht3 hf
    grind [childOwner]
  · rw [howner _ (.inr (.inr (.inr (.inr (.inr (hmem a ha))))))]
    have h1 : a / pageSize ≠ p := fun h => hp5 (h ▸ hmem a ha)
    have h2 : a / pageSize ≠ P.handleTable := fun h => ht4 (h ▸ hmem a ha)
    have h3 : a / pageSize ≠ tcb := fun h => hc3 (h ▸ hmem a ha)
    have h4 : a / pageSize ≠ stack := fun h => hs2 (h ▸ hmem a ha)
    have h5 : a / pageSize ∉ P.space.tableFrames := fun h => hn3 _ h _ (hmem a ha) rfl
    simp [childOwner, h1, h2, h3, h4, h5]
  · rw [howner tcb (.inr (.inr (.inl rfl)))]
    simp [childOwner, Ne.symm hp2, Ne.symm ht1]
  · rw [howner stack (.inr (.inr (.inr (.inl rfl))))]
    simp [childOwner, Ne.symm hp3, Ne.symm ht2, Ne.symm hc1]

theorem Owns.spawn (ho : Owns t) (hloose : ∀ f ∈ childFrameList p P tcb stack, t.owner f = .loose)
    (hnodup : (childFrameList p P tcb stack).Nodup)
    (haligned : ∀ a ∈ P.ownedPages, a % pageSize = 0) :
    Owns ⟨(t.sys.setProc p P).setThreads
        (t.sys.threads.set i (some ⟨tcb, some p, .directMap stack⟩)),
      fun f => if f ∈ childFrameList p P tcb stack then childOwner p P i tcb stack f
        else t.owner f, t.pending⟩ := by
  have hr : Recolour (· = .loose) t.owner fun f =>
      if f ∈ childFrameList p P tcb stack then childOwner p P i tcb stack f else t.owner f :=
    ⟨fun f hf => if_neg fun hmem => hf (hloose f hmem), by simp⟩
  obtain ⟨hchild, htcb, hstack⟩ := processOwned_child
    (fun f => if f ∈ childFrameList p P tcb stack then childOwner p P i tcb stack f
      else t.owner f) i hnodup haligned fun f hf => if_pos hf
  refine ho.addThread hr hchild htcb fun f hf => ?_
  cases hf
  exact hstack

/-- A thread is gone, and with it what `K` covers. -/
theorem Owns.reapWith (ho : Owns t) (K : Owner → Prop) [DecidablePred K]
    (hthreads : s'.threads = t.sys.threads.set i none)
    (hsame : s'.free = t.sys.free ∧ s'.dmaFree = t.sys.dmaFree ∧ s'.table = t.sys.table ∧
      s'.headers = t.sys.headers ∧ s'.objects = t.sys.objects)
    (hprocs : ∀ q Q', s'.procs q = some Q' → ∃ Q, t.sys.procs q = some Q ∧
      (∀ o : Owner, o.OfProcess q → ¬ K o) ∧ Q'.handleTable = Q.handleTable ∧
      Q'.space = Q.space ∧ Q'.ownedPages = Q.ownedPages)
    (hother : ∀ j, j ≠ i → ¬ K (.tcb j) ∧ ¬ K (.stack j))
    (hK : ¬ K .other ∧ ¬ K .free ∧ ¬ K .dma ∧ ¬ K .object ∧ ∀ h, ¬ K (.pageSet h)) :
    Owns ⟨s', fun f => if K (t.owner f) then .loose else t.owner f, pending⟩ := by
  obtain ⟨h1, h2, h3, h4, h5⟩ := hsame
  obtain ⟨k1, k2, k3, k4, k5⟩ := hK
  have hr : Recolour K t.owner fun f => if K (t.owner f) then .loose else t.owner f :=
    ⟨fun f hf => if_neg hf, k1⟩
  constructor
  · exact fun f hf => hr.keep_eq (ho.free f (by rw [← h1]; exact hf)) k2
  · exact fun f hf => hr.keep_eq (ho.dma f (by rw [← h2]; exact hf)) k3
  · exact hr.bound ho
  · intro id ent hid hor
    simp only [h3] at hid
    simp only [h4]
    exact hr.data (k5 _) (ho.data id ent hid hor)
  · intro q Q' hQ'
    obtain ⟨Q, hQ, hk, e1, e2, e3⟩ := hprocs q Q' hQ'
    exact (hr.process hk (ho.procs q Q hQ)).of_same e1 (by rw [e2]) e3
  · grind [ho.tcb]
  all_goals grind [ho.objects, ho.stack]

theorem Owns.reap (ho : Owns t) (hP : t.sys.procs p = some P) :
    Owns ⟨(t.sys.setThreads (t.sys.threads.set i none)).setProc p
        { P with threadCount := P.threadCount - 1 },
      fun f => if t.owner f = .tcb i ∨ t.owner f = .stack i then .loose else t.owner f,
      t.pending⟩ := by
  refine ho.reapWith (fun o => o = .tcb i ∨ o = .stack i) rfl ⟨rfl, rfl, rfl, rfl, rfl⟩ ?_ ?_
    (by simp)
  · intro q Q' hQ'
    have hk : ∀ o : Owner, o.OfProcess q → ¬ (o = .tcb i ∨ o = .stack i) := by
      rintro o (rfl | rfl | rfl | rfl) <;> simp
    rw [procs_setProc] at hQ'
    split at hQ'
    · rename_i hq
      subst hq
      cases hQ'
      exact ⟨P, hP, hk, rfl, rfl, rfl⟩
    · exact ⟨Q', hQ', hk, rfl, rfl, rfl⟩
  · intro j hj
    simp [hj]

theorem Owns.reapLast (ho : Owns t) (pending : List HandleEntry) :
    Owns ⟨(t.sys.setThreads (t.sys.threads.set i none)).dropProc p,
      fun f => if t.owner f = .tcb i ∨ t.owner f = .stack i ∨ t.owner f = .process p ∨
          t.owner f = .handleTable p ∨ t.owner f = .table p ∨ t.owner f = .owned p
        then .loose else t.owner f, pending⟩ := by
  refine ho.reapWith (fun o => o = .tcb i ∨ o = .stack i ∨ o = .process p ∨
    o = .handleTable p ∨ o = .table p ∨ o = .owned p) rfl ⟨rfl, rfl, rfl, rfl, rfl⟩ ?_ ?_ (by simp)
  · intro q Q' hQ'
    rw [procs_dropProc] at hQ'
    by_cases hq : q = p
    · rw [if_pos hq] at hQ'
      cases hQ'
    · rw [if_neg hq] at hQ'
      refine ⟨Q', hQ', ?_, rfl, rfl, rfl⟩
      rintro o (rfl | rfl | rfl | rfl) <;> simp [hq]
  · intro j hj
    simp [hj]

end Moves

/-- Every move keeps the ledger of frames. -/
theorem Owns.move {R : MoveRule} {t t' : Ledger} (ho : Owns t) (htab : TableOk t.sys)
    (hth : ThreadsOk t.sys) (hm : Move R t t') : Owns t' := by
  cases hm with
  | frames free dma kvm owner howner hfree hdma => exact ho.frames howner hfree hdma
  | slot e' hP hi hm hm' hok => exact ho.putSlot_same hP _ _ _ .refl
  | map hP hi hva hent hh hle hspec hloose hnodup hR =>
    exact ho.putSlot hP _ _ _ hloose hnodup hspec.frames
  | unmap hP hi hva hent hh hmap herased => exact ho.putSlot_same hP _ _ _ herased.tables
  | object f o hown hgood => exact ho.object o hown
  | header h hdr hu =>
    exact ho.of_headers fun id ent hid => by rw [if_neg (htab.ne_of_unused hu hid)]
  | register id ent pages hid hu hdata hdev => exact ho.register htab hu hdata
  | unregister hent hr hm hR => exact ho.unregister htab hent
  | revoke hent hpend hrev => exact ho.revoke hth hrev
  | thread hP hi htcb hstack hne => exact ho.thread hP htcb hstack hne
  | spawn hp hi hloose hnodup haligned hcount hslots hno hmaps hR =>
    exact ho.spawn hloose hnodup haligned
  | reap hi hc hP hcount => exact ho.reap hP
  | reapLast hi hc hP hcount hpend => exact ho.reapLast _
  | dropPending hpend => exact ho.of_headers fun _ _ _ => rfl

end Lockjaw.Cap
