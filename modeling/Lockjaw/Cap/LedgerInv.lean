/-
  Lockjaw.Cap.LedgerInv

  Every move keeps the PageSet table, the slots, the threads and the counters,
  and so the whole invariant.
-/

import Lockjaw.Cap.LedgerOwns

namespace Lockjaw.Cap

open Cap.System HandleEntry List Option

/-! ## Threads -/

section Threads

variable {s s' : System} {p : ProcKva} {P : Process}

/-- Threads and thread counts as before. -/
theorem ThreadsOk.of_same (ht : ThreadsOk s) (hthreads : s'.threads = s.threads)
    (hprocs : ∀ q, (s'.procs q).map Process.threadCount = (s.procs q).map Process.threadCount) :
    ThreadsOk s' := by
  have hback : ∀ q Q', s'.procs q = some Q' →
      ∃ Q, s.procs q = some Q ∧ Q.threadCount = Q'.threadCount := by
    intro q Q' hQ'
    have h := hprocs q
    rw [hQ', map_some] at h
    obtain ⟨Q, hQ, hc⟩ := map_eq_some_iff.mp h.symm
    exact ⟨Q, hQ, hc⟩
  constructor
  · intro i c hc
    rw [hthreads] at hc
    grind [ht.process, isSome_map]
  · intro q Q' hQ'
    obtain ⟨Q, hQ, hc⟩ := hback q Q' hQ'
    rw [← hc, ht.count q Q hQ, threadsOf, threadsOf, hthreads]
  · intro q Q' hQ'
    obtain ⟨Q, hQ, hc⟩ := hback q Q' hQ'
    rw [← hc]
    exact ht.pos q Q hQ

variable {c : Tcb} {i : Nat} {old new : Option Tcb}

theorem threadOf_self (hc : c.process = some p) : threadOf p (some c) = true := by
  simp [threadOf, hc]

/-- The thread count of a process after one thread slot changed. -/
theorem threadsOf_set (hi : s.threads[i]? = some old)
    (s' : System) (hthreads : s'.threads = s.threads.set i new) (q : ProcKva) :
    s'.threadsOf q + (if threadOf q old then 1 else 0)
      = s.threadsOf q + (if threadOf q new then 1 else 0) := by
  rw [threadsOf, hthreads]
  exact countP_set_add hi

/-- A process without an object has no threads. -/
theorem ThreadsOk.threadsOf_eq_zero (ht : ThreadsOk s) (hp : s.procs p = none) :
    s.threadsOf p = 0 := by
  rw [threadsOf, countP_eq_zero]
  intro o ho hof
  cases o with
  | none => cases hof
  | some c => grind [ht.process, getElem?_of_mem, threadOf]

/-- A thread slot of process `p` changes, and `p` with it. -/
theorem ThreadsOk.setSlot (ht : ThreadsOk s)
    (hi : s.threads[i]? = some old) (hthreads : s'.threads = s.threads.set i new)
    (hof : ∀ c, old = some c ∨ new = some c → c.process = some p)
    (hother : ∀ q, q ≠ p → s'.procs q = s.procs q)
    (hself : ∀ Q, s'.procs p = some Q → Q.threadCount = s'.threadsOf p ∧ 0 < Q.threadCount)
    (hgone : s'.procs p = none → s'.threadsOf p = 0) : ThreadsOk s' := by
  constructor
  · intro j d hd
    obtain ⟨q, hq, hsome⟩ : ∃ q, d.process = some q ∧ (q ≠ p → (s.procs q).isSome) := by
      grind [ht.process]
    refine ⟨q, hq, ?_⟩
    by_cases hqp : q = p
    · -- a process that is gone has no thread left
      subst hqp
      refine isSome_iff_ne_none.mpr fun hnone => ?_
      have hzero := countP_eq_zero.mp (hgone hnone)
      exact hzero _ (mem_of_getElem? hd) (threadOf_self hq)
    · rw [hother q hqp]
      exact hsome hqp
  · intro q Q hQ
    by_cases hqp : q = p
    · subst hqp
      exact (hself Q hQ).1
    · rw [hother q hqp] at hQ
      have hfalse : ∀ o, old = o ∨ new = o → threadOf q o = false := by
        rintro (_ | c) ho
        · rfl
        · simp [threadOf, hof c ho, Ne.symm hqp]
      have h := threadsOf_set hi _ hthreads q
      grind [ht.count]
  · grind [ht.pos]

/-- Adding thread `c` of process `p` in a free slot. -/
theorem ThreadsOk.add (ht : ThreadsOk s) {P' : Process}
    (hi : s.threads[i]? = some none) (hc : c.process = some p)
    (hcount : P'.threadCount = s.threadsOf p + 1) :
    ThreadsOk ((s.setProc p P').setThreads (s.threads.set i (some c))) := by
  have h := threadsOf_set hi ((s.setProc p P').setThreads (s.threads.set i (some c))) rfl p
  rw [threadOf_self hc, if_pos rfl] at h
  refine ht.setSlot hi rfl (by simp [hc]) (fun q hq => if_neg hq) (fun Q hQ => ?_) (by simp)
  obtain rfl : P' = Q := by simpa using hQ
  rw [hcount]
  exact ⟨h.symm, Nat.succ_pos _⟩

section

variable (ht : ThreadsOk s) (hi : s.threads[i]? = some (some c)) (hc : c.process = some p)
  (hP : s.procs p = some P)
include ht hi hc hP

/-- Removing a thread of a process that has others. -/
theorem ThreadsOk.reap (hcount : 1 < P.threadCount) :
    ThreadsOk ((s.setThreads (s.threads.set i none)).setProc p
      { P with threadCount := P.threadCount - 1 }) := by
  have h := threadsOf_set hi ((s.setThreads (s.threads.set i none)).setProc p
    { P with threadCount := P.threadCount - 1 }) rfl p
  rw [threadOf_self hc, if_pos rfl, ← ht.count p P hP] at h
  refine ht.setSlot hi rfl (by simp [hc]) (fun q hq => if_neg hq) (fun Q hQ => ?_) (by simp)
  obtain rfl := some.inj (procs_setProc_self.symm.trans hQ)
  exact ⟨Nat.sub_eq_of_eq_add h.symm, Nat.sub_pos_of_lt hcount⟩

/-- Removing the last thread of a process together with the process. -/
theorem ThreadsOk.reapLast (hcount : P.threadCount = 1) :
    ThreadsOk ((s.setThreads (s.threads.set i none)).dropProc p) := by
  have h := threadsOf_set hi ((s.setThreads (s.threads.set i none)).dropProc p) rfl p
  rw [threadOf_self hc, if_pos rfl, ← ht.count p P hP, hcount] at h
  refine ht.setSlot hi rfl (by simp [hc]) (fun q hq => if_neg hq) (fun Q hQ => ?_)
    fun _ => Nat.succ.inj h
  simp [procs_dropProc] at hQ

end

end Threads

variable {p : ProcKva} {s : System}

/-- What a written process object keeps, all processes keep. -/
theorem map_setProc {α : Type} (g : Process → α) {P P' : Process}
    (hP : s.procs p = some P) (hg : g P' = g P) (q : ProcKva) :
    ((s.setProc p P').procs q).map g = (s.procs q).map g := by grind [procs_setProc]

variable {R : MoveRule} {e : HandleEntry} {h : HeaderKva} {owner : Frame → Owner} {t t' : Ledger}

theorem ThreadsOk.move (ht : ThreadsOk t.sys) (hm : Move R t t') :
    ThreadsOk t'.sys := by
  cases hm with
  | frames | object | header | register | unregister | dropPending =>
    exact ht.of_same rfl fun _ => rfl
  | slot _ hP | map hP | unmap hP => exact ht.of_same rfl (map_setProc _ hP rfl)
  | revoke hent hpend hrev =>
    obtain ⟨procs, headers, heq⟩ := hrev.revoked.frame
    refine ht.of_same (by rw [heq]) fun q => ?_
    grind [hrev.revoked.inside, hrev.revoked.outside, ht.mem_uniqueProcesses,
      isSome_iff_exists]
  | thread hP hi htcb hstack hne =>
    exact ht.add hi rfl (by rw [← ht.count _ _ hP])
  | spawn hp hi hloose hnodup haligned hcount hslots hno hmaps hR =>
    exact ht.add hi rfl (by rw [hcount, ht.threadsOf_eq_zero hp])
  | reap hi hc hP hcount => exact ht.reap hi hc hP hcount
  | reapLast hi hc hP hcount hpend => exact ht.reapLast hi hc hP hcount

/-! ## The table and the slots -/

section Table

variable {s s' : System}

/-- The table as before, with the origins and pages of its headers. -/
theorem TableOk.of_same (ht : TableOk s) (htable : s'.table = s.table) (hused : s'.used = s.used)
    (hheader : ∀ h, s.used h = true → (s'.headers h).origin = (s.headers h).origin ∧
      (s'.headers h).pages = (s.headers h).pages) : TableOk s' := by
  constructor
  · rw [htable, hused]; exact ht.used
  · rw [htable]; exact ht.unique
  · rw [htable, hused]; exact ht.registered
  · intro id ent hid
    rw [htable] at hid
    rw [(hheader _ (ht.used id ent hid)).1]
    exact ht.origin id ent hid
  · intro id ent hid
    rw [htable] at hid
    rw [(hheader _ (ht.used id ent hid)).2]
    exact ht.dmaRun id ent hid

variable {id : Fin maxPagesets} {ent : PageSetEntry}

theorem TableOk.register (ht : TableOk s)
    {pages : Nat → PhysAddr} (hid : s.table id = none) (hu : s.used ent.headerKva = false)
    (hrun : ent.origin = .dmaPool → DmaRun pages ent.count) :
    TableOk (((s.setUsed ent.headerKva true).setHeader ent.headerKva
      ⟨0, 0, some ent.origin, pages⟩).setEntry id (some ent)) := by
  -- the header was free, so no other entry has it
  have hne : ∀ id' ent', s.table id' = some ent' → ent'.headerKva ≠ ent.headerKva :=
    fun id' ent' => ht.ne_of_unused hu
  constructor
  · intro id' ent' h'
    rw [table_setEntry] at h'
    simp only [setEntry_used, setHeader_used, used_setUsed]
    split at h'
    · rw [some.injEq] at h'
      rw [if_pos (by rw [h'])]
    · rw [if_neg (hne id' ent' h')]
      exact ht.used id' ent' h'
  · intro id1 id2 ent1 ent2 h1 h2 heq
    rw [table_setEntry] at h1 h2
    split at h1
    · split at h2
      · rename_i e1 e2
        rw [e1, e2]
      · rw [some.injEq] at h1
        exact absurd heq.symm (h1 ▸ hne id2 ent2 h2)
    · split at h2
      · rw [some.injEq] at h2
        exact absurd heq (h2 ▸ hne id1 ent1 h1)
      · exact ht.unique id1 id2 ent1 ent2 h1 h2 heq
  · intro h hh
    simp only [setEntry_used, setHeader_used, used_setUsed] at hh
    by_cases heq : h = ent.headerKva
    · exact ⟨id, ent, by rw [table_setEntry, if_pos rfl], heq.symm⟩
    · rw [if_neg heq] at hh
      obtain ⟨id', ent', h', hk⟩ := ht.registered h hh
      have hid' : id' ≠ id := by
        rintro rfl
        rw [hid] at h'
        cases h'
      exact ⟨id', ent', by rw [table_setEntry, if_neg hid']; exact h', hk⟩
  · intro id' ent' h'
    rw [table_setEntry] at h'
    simp only [setEntry_headers]
    split at h'
    · rw [some.injEq] at h'
      subst h'
      rw [headers_setHeader_self]
    · rw [headers_setHeader_of_ne (hne id' ent' h')]
      exact ht.origin id' ent' h'
  · intro id' ent' h'
    rw [table_setEntry] at h'
    simp only [setEntry_headers]
    split at h'
    · rw [some.injEq] at h'
      subst h'
      rw [headers_setHeader_self]
      exact hrun
    · rw [headers_setHeader_of_ne (hne id' ent' h')]
      exact ht.dmaRun id' ent' h'

theorem TableOk.unregister (ht : TableOk s) (hent : s.table id = some ent) :
    TableOk ((s.setEntry id none).setUsed ent.headerKva false) := by
  have hold : ∀ id' ent', ((s.setEntry id none).setUsed ent.headerKva false).table id' = some ent' →
      s.table id' = some ent' ∧ ent'.headerKva ≠ ent.headerKva := by
    intro id' ent' h'
    simp only [setUsed_table, table_setEntry] at h'
    split at h'
    · cases h'
    · rename_i hne
      exact ⟨h', fun heq => hne (ht.unique id' id ent' ent h' hent heq)⟩
  constructor
  · intro id' ent' h'
    obtain ⟨h', hne⟩ := hold id' ent' h'
    rw [used_setUsed, if_neg hne]
    exact ht.used id' ent' h'
  · intro id1 id2 ent1 ent2 h1 h2
    exact ht.unique id1 id2 ent1 ent2 (hold _ _ h1).1 (hold _ _ h2).1
  · intro h hh
    rw [used_setUsed] at hh
    split at hh
    · cases hh
    · rename_i hne
      obtain ⟨id', ent', h', hk⟩ := ht.registered h hh
      have hid' : id' ≠ id := by grind
      refine ⟨id', ent', ?_, hk⟩
      simp only [setUsed_table, table_setEntry, if_neg hid']
      exact h'
  · intro id' ent' h'
    exact ht.origin id' ent' (hold _ _ h').1
  · intro id' ent' h'
    exact ht.dmaRun id' ent' (hold _ _ h').1

end Table

theorem TableOk.move (ht : TableOk t.sys) (hm : Move R t t') : TableOk t'.sys := by
  cases hm with
  | frames | slot | map | unmap | object | thread | spawn | reap | reapLast | dropPending =>
    exact ht.of_same rfl rfl fun _ _ => ⟨rfl, rfl⟩
  | header h hdr hu =>
    refine ht.of_same rfl rfl fun k hk => ?_
    grind [headers_setHeader_of_ne]
  | register id ent pages hid hu hdata hdev hrun => exact ht.register hid hu hrun
  | unregister hent hr hm hR => exact ht.unregister hent
  | revoke hent hpend hrev =>
    grind [hrev.revoked.frame, hrev.revoked.header, hrev.revoked.otherHeader, ht.of_same]

/-- A slot stays good while headers and objects do. -/
theorem SlotOk.mono {s s' : System} (he : SlotOk s e)
    (hused : ∀ h va, e.kind = .pageSet h va → s.used h = true → s'.used h = true)
    (hobj : ∀ f o, s.objects f = some o →
      ∃ o', s'.objects f = some o' ∧ ∀ type, o.Good type → o'.Good type) : SlotOk s' e := by
  obtain ⟨r, k⟩ := e
  have hlive : ∀ f type, (∃ o, s.objects f = some o ∧ o.Good type) →
      ∃ o, s'.objects f = some o ∧ o.Good type := by
    rintro f type ⟨o, ho, hgood⟩
    obtain ⟨o', ho', hkeep⟩ := hobj f o ho
    exact ⟨o', ho', hkeep type hgood⟩
  cases k with
  | empty => trivial
  | pageSet h va => exact hused h va rfl he
  | endpoint f token => exact hlive f _ he
  | notification f => exact hlive f _ he
  | reply f => exact hlive f _ he
  | handleTable f => exact he
  | threadControlBlock f => exact he
  | process f => exact he

theorem SlotOk.empty : SlotOk s HandleEntry.EMPTY := trivial

/-- Same headers in use and same objects. -/
theorem SlotOk.of_same {s s' : System} (he : SlotOk s e)
    (hused : s'.used = s.used) (hobj : s'.objects = s.objects) : SlotOk s' e :=
  he.mono (fun _ _ _ h => by rw [hused]; exact h) (fun f o hf => ⟨o, by rw [hobj]; exact hf,
    fun _ h => h⟩)

variable {P : Process}

/-- A slot that names a header keeps the header's count positive. -/
theorem refsOver_pos {ps : List ProcKva}
    (hp : p ∈ ps) (hP : s.procs p = some P) (he : e ∈ P.handles)
    (hn : e.names h = true) : 0 < s.refsOver h ps := by
  unfold refsOver countOver
  apply List.sum_pos_iff_exists_pos_nat.mpr
  refine ⟨refsIn h P.handles, List.mem_map.mpr ⟨p, hp, by simp [hP]⟩, ?_⟩
  exact countP_pos_iff.mpr ⟨e, he, hn⟩

variable {t : Ledger}

/-- No slot names a header whose count is zero. -/
theorem Inv.not_named (hinv : Inv t) {id : Fin maxPagesets} {ent : PageSetEntry}
    (hent : t.sys.table id = some ent) (hr : (t.sys.headers ent.headerKva).refcount = 0) :
    (∀ p P, t.sys.procs p = some P → ∀ e ∈ P.handles, e.names ent.headerKva = false) ∧
    ∀ e ∈ t.pending, e.names ent.headerKva = false := by
  have hcount := hinv.accounts.refcount id ent hent
  rw [hr] at hcount
  constructor
  · intro p P hP e he
    apply Bool.eq_false_iff.mpr
    intro hn
    have hmem : p ∈ t.sys.uniqueProcesses :=
      hinv.threads.mem_uniqueProcesses.mpr (by rw [hP]; rfl)
    have := refsOver_pos hmem hP he hn
    omega
  · intro e he
    apply Bool.eq_false_iff.mpr
    intro hn
    have : 0 < refsIn ent.headerKva t.pending := countP_pos_iff.mpr ⟨e, he, hn⟩
    omega

/-- Slots of the other processes and of the written one. -/
theorem procs_setProc_handles {C : HandleEntry → Prop}
    (hs : ∀ q Q, s.procs q = some Q → ∀ e ∈ Q.handles, C e) (hP : ∀ e ∈ P.handles, C e)
    (q : ProcKva) (Q : Process) (hQ : (s.setProc p P).procs q = some Q) : ∀ e ∈ Q.handles, C e := by
  rw [procs_setProc] at hQ
  split at hQ
  · cases hQ
    exact hP
  · exact hs q Q hQ

/-- A slot change: the new slot is good and the others are as before. -/
theorem SlotsOk.putSlot (hs : SlotsOk t)
    (hP : t.sys.procs p = some P) {i : Nat} {e' : HandleEntry} {space : AddressSpace}
    (he' : SlotOk t.sys e') : SlotsOk ⟨t.sys.putSlot p P i e e' space, owner, t.pending⟩ := by
  constructor
  · refine fun q Q hQ x hx => SlotOk.of_same (s := t.sys) (procs_setProc_handles hs.procs
      (fun y hy => ?_) q Q hQ x hx) rfl rfl
    grind [hs.procs]
  · exact fun x hx => (hs.pending x hx).of_same rfl rfl

/-- Slots of a system with the same headers in use and the same objects. -/
theorem SlotsOk.of_same {s' : System}
    {pending : List HandleEntry} (hused : s'.used = t.sys.used) (hobj : s'.objects = t.sys.objects)
    (hprocs : ∀ q Q', s'.procs q = some Q' → ∀ e ∈ Q'.handles, SlotOk t.sys e)
    (hpend : ∀ e ∈ pending, SlotOk t.sys e) : SlotsOk ⟨s', owner, pending⟩ :=
  ⟨fun q Q hQ e he => (hprocs q Q hQ e he).of_same hused hobj,
    fun e he => (hpend e he).of_same hused hobj⟩

theorem mem_eraseHeader {slots : List HandleEntry}
    (he : e ∈ eraseHeader h slots) : e = .EMPTY ∨ e ∈ slots ∧ e.names h = false := by
  obtain ⟨x, hx, rfl⟩ := mem_map.mp he
  grind

theorem SlotsOk.move (hinv : Inv t) (hm : Move R t t') : SlotsOk t' := by
  have hs := hinv.slots
  cases hm with
  | frames | header => exact SlotsOk.of_same rfl rfl hs.procs hs.pending
  | slot e' hP hi hm hm' hok => exact hs.putSlot hP hok
  | map hP hi hva hent hh | unmap hP hi hva hent hh =>
    refine hs.putSlot hP ?_
    rw [SlotOk, ← hh]
    exact hinv.table.used _ _ hent
  | object f o hown hgood =>
    -- an object is only replaced by one that is good for every type it was good for
    have hkeep : ∀ g o', t.sys.objects g = some o' →
        ∃ o'', (t.sys.setObject f o).objects g = some o'' ∧
          ∀ type, o'.Good type → o''.Good type := by
      intro g o' hg
      by_cases hgf : g = f
      · subst hgf
        exact ⟨o, by simp [setObject], fun type => hgood type o' hg⟩
      · exact ⟨o', by simpa [setObject, hgf] using hg, fun _ h => h⟩
    exact ⟨fun q Q hQ e he => (hs.procs q Q hQ e he).mono (fun _ _ _ h => h) hkeep,
      fun e he => (hs.pending e he).mono (fun _ _ _ h => h) hkeep⟩
  | register id ent pages hid hu hdata hdev =>
    have hmono : ∀ e, SlotOk t.sys e → SlotOk (((t.sys.setUsed ent.headerKva true).setHeader
        ent.headerKva ⟨0, 0, some ent.origin, pages⟩).setEntry id (some ent)) e := by
      intro e he
      refine he.mono (fun h va _ hh => ?_) (fun f o hf => ⟨o, hf, fun _ h => h⟩)
      simp only [setEntry_used, setHeader_used, used_setUsed]
      split
      · rfl
      · exact hh
    exact ⟨fun q Q hQ e he => hmono e (hs.procs q Q hQ e he),
      fun e he => hmono e (hs.pending e he)⟩
  | unregister hent hr hm hR =>
    rename_i id ent
    -- the refcount is zero, so no slot names the header that goes
    obtain ⟨hprocs, hpend⟩ := hinv.not_named hent hr
    have hmono : ∀ e : HandleEntry, SlotOk t.sys e → e.names ent.headerKva = false →
        SlotOk ((t.sys.setEntry id none).setUsed ent.headerKva false) e := by
      intro e he hn
      refine he.mono (fun h va hk hh => ?_) (fun f o hf => ⟨o, hf, fun _ h => h⟩)
      rw [used_setUsed, if_neg ?_]
      · exact hh
      · rintro rfl
        rw [names_of_kind hk] at hn
        simp at hn
    exact ⟨fun q Q hQ e he => hmono e (hs.procs q Q hQ e he) (hprocs q Q hQ e he),
      fun e he => hmono e (hs.pending e he) (hpend e he)⟩
  | revoke hent hpend hrev =>
    obtain ⟨procs, headers, heq⟩ := hrev.revoked.frame
    refine SlotsOk.of_same (by rw [heq]) (by rw [heq]) (fun q Q' hQ' e he => ?_) hs.pending
    obtain ⟨Q, sp, hQ, rfl, -⟩ := hrev.proc hinv.threads hQ'
    rcases mem_eraseHeader he with rfl | ⟨hmem, -⟩
    · exact .empty
    · exact hs.procs q Q hQ e hmem
  | thread hP | reap _ _ hP =>
    have hold := hs.procs _ _ hP
    exact SlotsOk.of_same rfl rfl (procs_setProc_handles hs.procs hold) hs.pending
  | spawn hp hi hloose hnodup haligned hcount hslots =>
    exact SlotsOk.of_same rfl rfl (procs_setProc_handles hs.procs hslots) hs.pending
  | reapLast hi hc hP hcount hpend =>
    refine SlotsOk.of_same rfl rfl (fun q Q' hQ' e he => ?_) (hs.procs _ _ hP)
    rw [procs_dropProc] at hQ'
    split at hQ'
    · cases hQ'
    · exact hs.procs q Q' hQ' e he
  | dropPending hpend =>
    refine SlotsOk.of_same rfl rfl hs.procs fun e he => hs.pending e ?_
    rw [hpend]
    exact mem_cons_of_mem _ he

/-! ## The counters -/

section Counts

variable {s s' : System} {p : ProcKva} {P P' : Process} {c : List HandleEntry → Nat}

variable {ps : List ProcKva}

theorem countOver_perm {ps' : List ProcKva} (hperm : ps.Perm ps') :
    s.countOver c ps = s.countOver c ps' := (hperm.map _).sum_nat

/-- Replacing the table of one process of the list. -/
theorem countOver_setProc (hnd : ps.Nodup) (hp : p ∈ ps) (hP : s.procs p = some P) :
    (s.setProc p P').countOver c ps + c P.handles = s.countOver c ps + c P'.handles := by
  obtain ⟨a, b, rfl⟩ := append_of_mem hp
  have hperm : (a ++ p :: b).Perm (p :: (a ++ b)) := perm_middle
  have hnot : p ∉ a ++ b := (nodup_cons.mp (hperm.nodup_iff.mp hnd)).1
  have hrest : (s.setProc p P').countOver c (a ++ b) = s.countOver c (a ++ b) := by
    grind [procs_setProc_of_ne, countOver_congr]
  rw [countOver_perm hperm, countOver_perm hperm, countOver_cons hP,
    countOver_cons procs_setProc_self, hrest]
  omega

/-- The two lists of live processes when the process objects are the same. -/
theorem uniqueProcesses_perm (ht : ThreadsOk s) (ht' : ThreadsOk s')
    (hsame : ∀ q, (s'.procs q).isSome = (s.procs q).isSome) :
    s'.uniqueProcesses.Perm s.uniqueProcesses := by
  rw [perm_ext_iff_of_nodup nodup_uniqueProcesses nodup_uniqueProcesses]
  intro q
  rw [ht.mem_uniqueProcesses, ht'.mem_uniqueProcesses, hsame]

/-- The two lists of live processes when one is new. -/
theorem uniqueProcesses_perm_cons (ht : ThreadsOk s) (ht' : ThreadsOk s') (hp : s.procs p = none)
    (hp' : (s'.procs p).isSome) (hsame : ∀ q, q ≠ p → (s'.procs q).isSome = (s.procs q).isSome) :
    s'.uniqueProcesses.Perm (p :: s.uniqueProcesses) := by
  have hnot : p ∉ s.uniqueProcesses := by
    rw [ht.mem_uniqueProcesses, hp]
    simp
  rw [perm_ext_iff_of_nodup nodup_uniqueProcesses
    (nodup_cons.mpr ⟨hnot, nodup_uniqueProcesses⟩)]
  grind [ht'.mem_uniqueProcesses, ht.mem_uniqueProcesses]

/-- Summing a count that is zero everywhere. -/
theorem countOver_eq_zero
    (hz : ∀ q ∈ ps, ∀ Q, s.procs q = some Q → c Q.handles = 0) : s.countOver c ps = 0 := by
  unfold countOver
  apply List.sum_eq_zero_iff_forall_eq_nat.mpr
  intro n hn
  obtain ⟨q, hq, rfl⟩ := List.mem_map.mp hn
  cases hQ : s.procs q with
  | none => rfl
  | some Q => simp [hz q hq Q hQ]

end Counts

/-- Slots satisfying `q`, in the live processes and among the pending ones. -/
def Ledger.total (t : Ledger) (q : HandleEntry → Bool) : Nat :=
  t.sys.countOver (countP q) t.sys.uniqueProcesses + t.pending.countP q

/-- A counter of the headers and the slots it counts, all of which name the header. -/
structure Counter (cnt : PageSetHeader → Nat) (counted : HeaderKva → HandleEntry → Bool) :
    Prop where
  names : ∀ h e, counted h e = true → e.names h = true
  recount : ∀ hdr h e e', cnt (hdr.recount h e e')
    = cnt hdr + (counted h e').toNat - (counted h e).toNat
  zero : ∀ hdr, hdr.refcount = 0 → hdr.mapCount = 0 → cnt hdr = 0

theorem counter_refcount : Counter PageSetHeader.refcount fun h e => e.names h :=
  ⟨fun _ _ h => h, fun _ _ _ _ => rfl, fun _ h _ => h⟩

theorem counter_mapCount : Counter PageSetHeader.mapCount fun h e => e.maps h :=
  ⟨fun _ _ => names_of_maps, fun _ _ _ _ => rfl, fun _ _ h => h⟩

/-- The counter of every registered header is right. -/
def Counts (cnt : PageSetHeader → Nat) (counted : HeaderKva → HandleEntry → Bool) (t : Ledger) :
    Prop :=
  ∀ id ent, t.sys.table id = some ent →
    cnt (t.sys.headers ent.headerKva) = t.total (counted ent.headerKva)

theorem Accounts.of_counts (ha : Accounts t)
    (hkeep : ∀ {cnt : PageSetHeader → Nat} {counted : HeaderKva → HandleEntry → Bool},
      Counter cnt counted → Counts cnt counted t → Counts cnt counted t') : Accounts t' :=
  ⟨hkeep counter_refcount ha.refcount, hkeep counter_mapCount ha.mapCount⟩

section Counters

variable {t t' : Ledger} {cnt : PageSetHeader → Nat} {counted : HeaderKva → HandleEntry → Bool}

variable {h : HeaderKva} {e : HandleEntry} {p : ProcKva} {P : Process} {i : Nat}

theorem Counter.not_counted (hc : Counter cnt counted)
    (hn : e.names h = false) : counted h e = false :=
  Bool.eq_false_iff.mpr fun hcount => by simp [hc.names h e hcount] at hn

/-- The same entries with the same counters, over the same number of slots. -/
theorem Counts.of_total (hcounts : Counts cnt counted t)
    (htable : ∀ id ent, t'.sys.table id = some ent → t.sys.table id = some ent ∧
      t'.sys.headers ent.headerKva = t.sys.headers ent.headerKva)
    (htotal : ∀ h, t'.total (counted h) = t.total (counted h)) : Counts cnt counted t' := by
  intro id ent hid
  obtain ⟨hold, hheader⟩ := htable id ent hid
  rw [hheader, hcounts id ent hold, htotal]

/-- Erasing the slots of `h` leaves the count of another header. -/
theorem Counter.countP_eraseHeader (hc : Counter cnt counted) {k : HeaderKva} (hk : k ≠ h)
    (slots : List HandleEntry) :
    (eraseHeader h slots).countP (counted k) = slots.countP (counted k) := by
  unfold eraseHeader
  rw [countP_map]
  refine countP_congr fun e _ => ?_
  by_cases hn : e.names h = true
  · obtain ⟨va, hkind⟩ := names_iff.mp hn
    have hother := hc.not_counted (h := k) (e := e)
      (by simp [names_of_kind hkind, hk.symm])
    simp [Function.comp, hn, hother, hc.not_counted names_empty]
  · simp [Function.comp, hn]

theorem Counter.countP_eraseHeader_self (hc : Counter cnt counted)
    (slots : List HandleEntry) : (eraseHeader h slots).countP (counted h) = 0 := by
  refine countP_eq_zero.mpr fun e he => ?_
  rcases mem_eraseHeader he with rfl | ⟨-, hn⟩
  · simp [hc.not_counted names_empty]
  · simp [hc.not_counted hn]

theorem ite_toNat (b : Bool) : (if b = true then 1 else 0) = b.toNat := by
  cases b <;> rfl

/-- A slot change moves the total by the slot's own contribution. -/
theorem total_putSlot (ht : ThreadsOk t.sys)
    (hP : t.sys.procs p = some P) (hi : P.handles[i]? = some e)
    (e' : HandleEntry) (space : AddressSpace) (owner : Frame → Owner) (q : HandleEntry → Bool) :
    (Ledger.mk (t.sys.putSlot p P i e e' space) owner t.pending).total q + (q e).toNat
      = t.total q + (q e').toNat := by
  have hmem : p ∈ t.sys.uniqueProcesses := ht.mem_uniqueProcesses.mpr (by rw [hP]; rfl)
  have hcount : (t.sys.setProc p { P with handles := P.handles.set i e', space }).countOver
        (countP q) t.sys.uniqueProcesses + P.handles.countP q
      = t.sys.countOver (countP q) t.sys.uniqueProcesses + (P.handles.set i e').countP q :=
    countOver_setProc nodup_uniqueProcesses hmem hP
  have hset := @countP_set_add _ q _ _ _ e' hi
  rw [ite_toNat, ite_toNat] at hset
  change (t.sys.setProc p { P with handles := P.handles.set i e', space }).countOver
        (countP q) t.sys.uniqueProcesses + t.pending.countP q + (q e).toNat
      = t.sys.countOver (countP q) t.sys.uniqueProcesses + t.pending.countP q + (q e').toNat
  omega

theorem Counts.putSlot (hcounts : Counts cnt counted t) (hc : Counter cnt counted)
    (ht : ThreadsOk t.sys) (hP : t.sys.procs p = some P)
    (hi : P.handles[i]? = some e) (e' : HandleEntry) (space : AddressSpace)
    (owner : Frame → Owner) :
    Counts cnt counted ⟨t.sys.putSlot p P i e e' space, owner, t.pending⟩ := by
  intro id ent hid
  have h := total_putSlot ht hP hi e' space owner (counted ent.headerKva)
  rw [← hcounts id ent hid] at h
  exact (hc.recount _ _ e e').trans (Nat.sub_eq_of_eq_add h.symm)

/-- The totals of a ledger with the same handle tables. -/
theorem total_of_handles (ht : ThreadsOk t.sys) (ht' : ThreadsOk t'.sys)
    (hprocs : ∀ q, (t'.sys.procs q).map Process.handles = (t.sys.procs q).map Process.handles)
    (hpend : t'.pending = t.pending) (q : HandleEntry → Bool) : t'.total q = t.total q := by
  have hperm := uniqueProcesses_perm ht ht' fun p => by
    have h := congrArg isSome (hprocs p)
    rwa [isSome_map, isSome_map] at h
  unfold Ledger.total
  rw [hpend, countOver_perm hperm, countOver_congr fun p _ => hprocs p]

/-- The total of a ledger with one process more. -/
theorem total_of_new (ht : ThreadsOk t.sys) (ht' : ThreadsOk t'.sys)
    (hp : t.sys.procs p = none) (hp' : t'.sys.procs p = some P)
    (hsame : ∀ k, k ≠ p → t'.sys.procs k = t.sys.procs k) (q : HandleEntry → Bool) :
    t'.sys.countOver (countP q) t'.sys.uniqueProcesses
      = P.handles.countP q + t.sys.countOver (countP q) t.sys.uniqueProcesses := by
  have hperm := uniqueProcesses_perm_cons ht ht' hp (by rw [hp']; rfl)
    fun k hk => by rw [hsame k hk]
  rw [countOver_perm hperm, countOver_cons hp', countOver_congr]
  intro k hk
  rw [hsame]
  rintro rfl
  rw [ht.mem_uniqueProcesses, hp] at hk
  cases hk

theorem Counter.total_unused (hc : Counter cnt counted) (hs : SlotsOk t)
    (hu : t.sys.used h = false) : t.total (counted h) = 0 := by
  have hno : ∀ e, SlotOk t.sys e → counted h e = false := by
    refine fun e he => hc.not_counted (Bool.eq_false_iff.mpr fun hn => ?_)
    grind [names_iff, SlotOk]
  grind [hs.pending, hs.procs, Ledger.total, countP_eq_zero, countOver_eq_zero]

section

variable (hcounts : Counts cnt counted t) (hc : Counter cnt counted)
include hcounts hc

theorem Counts.register
    (hs : SlotsOk t) (htab : TableOk t.sys) {id : Fin maxPagesets} {ent : PageSetEntry}
    {pages : Nat → PhysAddr} {owner : Frame → Owner} (hu : t.sys.used ent.headerKva = false) :
    Counts cnt counted ⟨((t.sys.setUsed ent.headerKva true).setHeader ent.headerKva
      ⟨0, 0, some ent.origin, pages⟩).setEntry id (some ent), owner, t.pending⟩ := by
  intro id' ent' h'
  simp only [table_setEntry, setHeader_table, setUsed_table] at h'
  simp only [setEntry_headers]
  split at h'
  · cases h'
    rw [headers_setHeader_self, hc.zero _ rfl rfl]
    exact (hc.total_unused hs hu).symm
  · rw [headers_setHeader_of_ne (htab.ne_of_unused hu h')]
    exact hcounts id' ent' h'

theorem Counts.revoke (ht : ThreadsOk t.sys) {n : Nat} {s' : System} (hpend : t.pending = [])
    (hrev : Revoked h n t.sys s') : Counts cnt counted ⟨s', t.owner, t.pending⟩ := by
  have ⟨procs, headers, heq⟩ := hrev.revoked.frame
  have huniq : s'.uniqueProcesses = t.sys.uniqueProcesses := by rw [heq]; rfl
  have htable : s'.table = t.sys.table := by rw [heq]
  have hinside : ∀ q ∈ t.sys.uniqueProcesses,
      (s'.procs q).map Process.handles = (t.sys.procs q).map fun Q => eraseHeader h Q.handles := by
    intro q hq
    obtain ⟨Q, hQ⟩ := isSome_iff_exists.mp (ht.mem_uniqueProcesses.mp hq)
    obtain ⟨sp, hQ', -⟩ := hrev.revoked.inside q hq Q hQ
    rw [hQ, hQ']
    rfl
  have hcount : ∀ c : List HandleEntry → Nat, s'.countOver c s'.uniqueProcesses
      = t.sys.countOver (fun l => c (eraseHeader h l)) t.sys.uniqueProcesses := by
    intro c
    rw [huniq]
    unfold countOver
    congr 1
    apply map_congr_left
    intro q hq
    have := congrArg (fun o => (o.map c).getD 0) (hinside q hq)
    simpa [Option.map_map, Function.comp_def] using this
  intro id ent hid
  rw [htable] at hid
  rw [Ledger.total, hpend, hcount, countP_nil, Nat.add_zero]
  by_cases hk : ent.headerKva = h
  · rw [hk, hc.zero _ hrev.refcount hrev.mapCount, countOver_eq_zero fun _ _ Q _ =>
      hc.countP_eraseHeader_self Q.handles]
  · have hold := hcounts id ent hid
    rw [Ledger.total, hpend, countP_nil, Nat.add_zero] at hold
    simp only [hrev.revoked.otherHeader _ hk, hold, hc.countP_eraseHeader hk]

theorem Counts.dropPending {es : List HandleEntry} (hpend : t.pending = e :: es) :
    Counts cnt counted ⟨{ t.sys with headers := fun h => (t.sys.headers h).recount h e .EMPTY },
      t.owner, es⟩ := by
  intro id ent hid
  refine (hc.recount _ _ e .EMPTY).trans (Nat.sub_eq_of_eq_add ?_)
  rw [hc.not_counted names_empty, hcounts id ent hid, Ledger.total, hpend,
    countP_cons, ite_toNat]
  exact (Nat.add_assoc _ _ _).symm

end

end Counters

theorem Accounts.move (hinv : Inv t) (ht' : ThreadsOk t'.sys)
    (hm : Move R t t') : Accounts t' := by
  have ht := hinv.threads
  refine hinv.accounts.of_counts fun {cnt counted} hc hcounts => ?_
  cases hm with
  | frames | object => exact hcounts.of_total (fun _ _ hid => ⟨hid, rfl⟩) fun _ => rfl
  | slot _ hP hi | map hP hi | unmap hP hi => exact hcounts.putSlot hc ht hP hi _ _ _
  | header h hdr hu =>
    exact hcounts.of_total (fun id ent hid => ⟨hid, headers_setHeader_of_ne
      (hinv.table.ne_of_unused hu hid)⟩) fun _ => rfl
  | register id ent pages hid hu hdata hdev => exact hcounts.register hc hinv.slots hinv.table hu
  | unregister hent hr hm hR =>
    refine hcounts.of_total (fun id' ent' h' => ?_) fun _ => rfl
    simp only [setUsed_table, table_setEntry] at h'
    split at h'
    · cases h'
    · exact ⟨h', rfl⟩
  | revoke hent hpend hrev => exact hcounts.revoke hc ht hpend hrev
  | thread hP | reap _ _ hP =>
    exact hcounts.of_total (fun _ _ hid => ⟨hid, rfl⟩) fun h =>
      total_of_handles ht ht' (map_setProc _ hP rfl) rfl _
  | spawn hp hi hloose hnodup haligned hcount hslots hno hmaps hR =>
    rename_i p P i tcb stack
    -- the new table names no PageSet, so it adds nothing to the totals
    refine hcounts.of_total (fun _ _ hid => ⟨hid, rfl⟩) fun h => ?_
    have hzero : P.handles.countP (counted h) = 0 := countP_eq_zero.mpr fun e he => by
      simp [hc.not_counted (names_of_not_pageset (hno e he))]
    unfold Ledger.total
    rw [total_of_new ht ht' hp procs_setProc_self fun k hk =>
      procs_setProc_of_ne hk, hzero, Nat.zero_add]
  | reapLast hi _ hP hcount hpend =>
    -- the slots of the process are counted as pending from here on
    refine hcounts.of_total (fun _ _ hid => ⟨hid, rfl⟩) fun h => ?_
    unfold Ledger.total
    rw [hpend, total_of_new ht' ht (if_pos rfl) hP fun k hk => (if_neg hk).symm]
    simp only [countP_nil]
    omega
  | dropPending hpend => exact hcounts.dropPending hc hpend

theorem Inv.move (hinv : Inv t) (hm : Move R t t') : Inv t' := by
  have ht' : ThreadsOk t'.sys := hinv.threads.move hm
  exact
    { owns := hinv.owns.move hinv.table hinv.threads hm
      table := hinv.table.move hm
      slots := SlotsOk.move hinv hm
      threads := ht'
      accounts := Accounts.move hinv ht' hm }

theorem Moves.inv (h : Moves R t t') (hinv : Inv t) : Inv t' := by
  induction h with
  | refl => exact hinv
  | tail _ hm ih => exact ih.move hm

end Lockjaw.Cap
