/-
  Lockjaw.Cap.Accounting

  The reference and mapping counts of PageSets over whole runs.

  In a run that never creates a process with the process-resources PageSet as
  its scratch PageSet, every registered header counts the handle slots that
  name it, and a PageSet goes with its last handle.  A process created the
  other way gets pages recorded as its own that were never given to it; its
  exit frees them, and the next allocation wipes what lives there.
-/

import Lockjaw.Cap.Machine
import Lockjaw.Cap.MoveEffects

namespace Lockjaw.Cap

/-- An event that makes PageSets leaves those that are there alone. -/
theorem Event.register_or_keep (ev : Event) (s : System) :
    (∀ id, ¬ (ev.rule s).register id) ∨
      ∀ id ent, s.table id = some ent → ¬ (ev.rule s).unregister id := by
  have hmaking : ∀ id ent, s.table id = some ent → ¬ s.table id = none := by
    intro id ent h hnone
    rw [h] at hnone
    cases hnone
  cases ev with
  | exit i => exact .inl fun _ => id
  | call p c =>
    cases c with
    | allocPages => exact .inr hmaking
    | allocDmaPages => exact .inr hmaking
    | registerDevicePage => exact .inr hmaking
    | _ => exact .inl fun _ => id

/-! ## Last handles -/

/-- Number of handle slots of live processes that name `h`. -/
def System.refs (s : System) (h : HeaderKva) : Nat := s.refsOver h s.uniqueProcesses

variable {t : Ledger} {id : Fin maxPagesets} {ent : PageSetEntry}

theorem Inv.registered_of_refs (hinv : Inv t) {h : HeaderKva}
    (hpos : 0 < t.sys.refs h) : ∃ id ent, t.sys.table id = some ent ∧ ent.headerKva = h := by
  refine hinv.table.registered h ?_
  by_contra hu
  refine Nat.lt_irrefl 0 (Nat.lt_of_lt_of_eq hpos (countOver_eq_zero fun q _ Q hQ => ?_))
  refine List.countP_eq_zero.mpr fun e he hn => hu ?_
  have hok := hinv.slots.procs q Q hQ e he
  grind [HandleEntry.names, SlotOk]

/-- The counter of a PageSet between events. -/
theorem Inv.refcount_eq_refs (hinv : Inv t) (hpend : t.pending = [])
    (hent : t.sys.table id = some ent) :
    (t.sys.headers ent.headerKva).refcount = t.sys.refs ent.headerKva := by
  rw [hinv.accounts.refcount id ent hent, hpend]
  rfl

/-- Only a PageSet with a handle may go. -/
theorem Event.unregister_refs (ev : Event) (hinv : Inv t) (hpend : t.pending = [])
    (hent : t.sys.table id = some ent)
    (hun : (ev.rule t.sys).unregister id) : 0 < t.sys.refs ent.headerKva := by
  have hmaking : ¬ t.sys.table id = none := by
    rw [hent]
    nofun
  have htaking : (∃ ent', Held t.sys id ent') → 0 < t.sys.refs ent.headerKva := by
    rintro ⟨ent', hent', hne⟩
    grind [hinv.refcount_eq_refs]
  cases ev with
  | exit i => exact htaking hun
  | call p c =>
    cases c with
    | allocPages | allocDmaPages | registerDevicePage => exact absurd hun hmaking
    | getBootInfo | exportHandle | mapPages | unmapPages => exact hun.elim
    | closeHandle | createEndpoint | createNotification | createReply | createThread
    | createProcess => exact htaking hun

/-- A PageSet with a handle stays registered exactly as long as it has one. -/
theorem Inv.registered_iff_refs {t' : Ledger} {ev : Event} (hinv : Inv t)
    (hpend : t.pending = []) (hmoves : Moves (ev.rule t.sys) t t') (hset : Settled t t')
    (hent : t.sys.table id = some ent) (hpos : 0 < t.sys.refs ent.headerKva) :
    t'.sys.table id = some ent ↔ 0 < t'.sys.refs ent.headerKva := by
  have hinv' := hmoves.inv hinv
  constructor
  · intro hent'
    by_contra hzero
    -- without a handle it had none before
    have horphan := (hset.orphan id ent ⟨hent', (hinv'.refcount_eq_refs hset.pending hent').trans
      (Nat.eq_zero_of_not_pos hzero)⟩).2
    rw [hinv.refcount_eq_refs hpend hent] at horphan
    omega
  · intro hpos'
    rcases Event.register_or_keep ev t.sys with hreg | hkeep
    all_goals grind [hinv'.registered_of_refs, hinv.table.unique, hmoves.table_back,
      hmoves.table_keep]

/-! ## Runs -/

/-- In every run whose created processes have a scratch PageSet of their own: the counters are those
    of the handle slots, validation never reports a mismatch, no counter is decremented below zero,
    and a PageSet that has handles is freed by the event that takes the last one. -/
theorem run_accounting {b : BootConfig} {s : System} (hrun : Run b (fun s ev => ev.Apart s) s) :
    s.Accounting ∧
    (∀ h ent, s.entryOf h = some ent → ∃ r, revokeValidate h s = .ok r s ∧
      ∀ a b c d, r ≠ .error (.accountingMismatch a b c d)) ∧
    ∀ ev : Event, ev.Enabled s → ev.Apart s →
      ev.exec s ≠ .stop .refcountUnderflow ∧ ev.exec s ≠ .stop .mapCountUnderflow ∧
      ∀ s', ev.next s = some s' → ∀ id ent, s.table id = some ent → 0 < s.refs ent.headerKva →
        (s'.table id = some ent ↔ 0 < s'.refs ent.headerKva) := by
  obtain ⟨t, rfl, hinv, hpend, -⟩ :=
    hrun.induct (J := fun _ => True) (fun _ _ h => h) trivial fun _ _ _ _ _ _ _ _ _ _ _ => trivial
  refine ⟨hinv.accounting hpend, fun h ent hent => ?_, fun ev henabled hapart => ⟨?_, ?_, ?_⟩⟩
  · obtain ⟨r, hval, -, hno⟩ := revokeValidate_spec (hinv.accounting hpend) hent
    exact ⟨r, hval, hno⟩
  · intro hstop
    have hruns := Event.runs hinv hpend henabled hapart
    rw [Runs, hstop] at hruns
    cases hruns with
    | create _ hpn => cases hpn
  · intro hstop
    have hruns := Event.runs hinv hpend henabled hapart
    rw [Runs, hstop] at hruns
    cases hruns with
    | create _ hpn => cases hpn
  · intro s' hnext id ent hent hpos
    obtain ⟨t', rfl, hmoves, hset⟩ := Event.next_moves hinv hpend henabled hapart hnext
    exact hinv.registered_iff_refs hpend hmoves hset hent hpos

/-- Init allocates a PageSet of one page and maps it. -/
def smallAlloc : List Event :=
  [.call 10 (.allocPages 1 0#64 [64] none), .call 10 (.mapPages 0 0x1000000 0 [65])]

theorem run_accounting_mapped : ∃ s, Run smallBoot (fun s ev => ev.Apart s) s ∧
    (s.headers 1).refcount = 1 ∧ (s.headers 1).mapCount = 1 ∧ s.Accounting := by
  obtain ⟨s, hrun, href, hmap⟩ := Run.exists_of_events smallBoot
    (fun s ev => ev.Apart s) smallAlloc
    (Q := fun s => (s.headers 1).refcount = 1 ∧ (s.headers 1).mapCount = 1) (by decide +kernel)
  exact ⟨s, hrun, href, hmap, (run_accounting hrun).1⟩

/-- In every run each frame has one owner: an allocator, a PageSet, a process, a thread or a kernel
    object. -/
theorem run_frames_owned {b : BootConfig} {s : System} (hrun : Run b (fun s ev => ev.Apart s) s) :
    ∃ owner, Owns ⟨s, owner, []⟩ := by
  obtain ⟨⟨_, owner, _⟩, rfl, hinv, rfl⟩ := hrun.inv
  exact ⟨owner, hinv.owns⟩

/-- Init and its child: the child's process object in frame 100, its stack page in frame 131. -/
theorem run_frames_owned_child : ∃ s owner, Run smallBoot (fun s ev => ev.Apart s) s ∧
    (s.procs 100).isSome = true ∧ Owns ⟨s, owner, []⟩ ∧ owner 100 = .process 100 ∧
    owner 131 = .owned 100 := by
  obtain ⟨s, hrun, C, hC, hmem⟩ := Run.exists_of_events smallBoot (fun s ev => ev.Apart s) childRun
    (Q := fun s => ∃ C ∈ s.procs 100, 131 * pageSize ∈ C.ownedPages) (by decide +kernel)
  obtain ⟨owner, howns⟩ := run_frames_owned hrun
  have hC' := howns.procs 100 C hC
  exact ⟨s, owner, hrun, by rw [hC]; rfl, howns, hC'.process, hC'.owned _ hmem⟩

/-- In every run the header pool and the PageSet table agree, every handle names a live object of
    its kind, and the processes are those of the threads, each with its number of threads. -/
theorem run_handles_live {b : BootConfig} {s : System} (hrun : Run b (fun s ev => ev.Apart s) s) :
    TableOk s ∧ (∀ p P, s.procs p = some P → ∀ e ∈ P.handles, SlotOk s e) ∧ ThreadsOk s := by
  obtain ⟨t, rfl, hinv, -⟩ := hrun.inv
  exact ⟨hinv.table, hinv.slots.procs, hinv.threads⟩

/-- Init exports a PageSet to its child: both handles name the live object. -/
theorem run_handles_live_shared : ∃ s P C e, Run smallBoot (fun s ev => ev.Apart s) s ∧
    s.procs 10 = some P ∧ s.procs 100 = some C ∧ P.handles[0]? = some e ∧
    C.handles[0]? = some e ∧ e.kind ≠ .empty ∧ SlotOk s e ∧ ThreadsOk s := by
  obtain ⟨s, hrun, P, hP, C, hC, e, he, he', hne⟩ := Run.exists_of_events smallBoot
    (fun s ev => ev.Apart s)
    (childRun ++ [.call 10 (.allocPages 1 0#64 [64] none), .call 10 (.exportHandle (some 100) 0)])
    (Q := fun s => ∃ P ∈ s.procs 10, ∃ C ∈ s.procs 100, ∃ e ∈ P.handles[0]?,
      C.handles[0]? = some e ∧ e.kind ≠ .empty) (by decide +kernel)
  obtain ⟨-, hslots, hthreads⟩ := run_handles_live hrun
  exact ⟨s, P, C, e, hrun, hP, hC, he, he', hne, hslots 10 P hP e (List.mem_of_getElem? he),
    hthreads⟩

/-- A call that names the 15-page PageSet in slot 0 as process resources and as scratch.  The buffer
    entries land on the process object: the third entry's address is its count of owned pages, the
    fourth one's its third owned page. -/
def overlayArgs (victim : Frame) : CreateArgs where
  written i := [⟨0x400000, 1, 0, 1#64⟩, ⟨0x401000, 1, 1, 0#64⟩, ⟨3, 1, 0, 0#64⟩,
    ⟨victim * pageSize, 1, 0, 0#64⟩][i]?
  mappingCount := 4
  stackPageset := 2
  scratchPageset := 0
  parentHandleToCopy := none
  processResources := 0
  overlay := .fails .outOfMemory

/-- Init makes a process that owns the frame of init's own handle table, the
    process exits, and the frame is allocated again. -/
def overlayRun : List Event :=
  [.call 10 (.allocPages 15 0#64 (frameRun 100 15) none),
   .call 10 (.allocPages 2 0#64 [131, 128] none),
   .call 10 (.allocPages 1 0#64 [140] none),
   .call 10 (.allocPages 1 0#64 [150] none),
   .call 10 (.createProcess (some (overlayArgs 11))),
   .exit 1,
   .call 10 (.allocPages 1 0#64 [11] none)]

/-- After that run a registered header counts a handle that no table holds. -/
theorem overlaid_scratch_loses_handles : ∃ s, Run smallBoot (fun _ _ => True) s ∧
    ∃ ent, s.entryOf 4 = some ent ∧ (s.headers 4).refcount = 1 ∧ s.refs 4 = 0 := by
  obtain ⟨s, hrun, ent, hent⟩ := Run.exists_of_events smallBoot (fun _ _ => True) overlayRun
    (Q := fun s => ∃ ent ∈ s.entryOf 4, (s.headers 4).refcount = 1 ∧ s.refs 4 = 0)
    (by decide +kernel)
  exact ⟨s, hrun, ent, hent⟩

end Lockjaw.Cap
