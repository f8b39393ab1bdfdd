/-
  Lockjaw.Cap.Provision

  The part of `sys_create_process` that may still be refused.

  Everything it writes goes into pages of PageSets the caller holds, which no
  object of the kernel lives in; so it leaves the kernel state as it is, and
  what it hands to the apply phase is determined by the mapping list.  This
  holds as long as the scratch PageSet and the process-resources PageSet are
  different ones.
-/

import Lockjaw.Cap.DonateRuns

namespace Lockjaw.Cap

open Lib Lib.Fallible AddressSpace AddressSpaceBuilder List

/-! ## PageSets of the call -/

/-- The reference names a registered PageSet of the buddy allocator. -/
def RefOk (s : System) (ps : PageSetRef) : Prop :=
  ∃ id ent, s.table id = some ent ∧ ent.headerKva = ps.header ∧ ent.count = ps.count ∧
    ent.origin = .buddy

def System.pageAt (s : System) (h : HeaderKva) (i : Nat) : PhysAddr := (s.headers h).pages i

/-- A whole frame that a page-table entry can hold. -/
def GoodPage (a : PhysAddr) : Prop := a % pageSize = 0 ∧ a / pageSize < 2 ^ 36

section Refs

variable {t : Ledger} {ps : PageSetRef} {C : Panic → Prop}

section

variable (hinv : Inv t) (hok : RefOk t.sys ps)
include hinv hok

/-- The pages of a PageSet are its own, each once. -/
theorem Inv.refData :
    DataOwned t.owner (.pageSet ps.header) (t.sys.headers ps.header).pages ps.count := by
  obtain ⟨id, ent, hent, hh, hc, horg⟩ := hok
  have := hinv.owns.data id ent hent (by rw [horg]; decide)
  rwa [hh, hc] at this

variable {i : Nat}

theorem Inv.goodPage (hi : i < ps.count) : GoodPage (t.sys.pageAt ps.header i) := by
  have hd := hinv.refData hok
  refine ⟨hd.aligned i hi, hinv.owns.bound _ ?_⟩
  rw [show t.owner (t.sys.pageAt ps.header i / pageSize) = _ from hd.owned i hi]
  simp

/-- A page of a PageSet can be written without harm. -/
theorem Inv.overwritePage (hi : i < ps.count) :
    t.sys.overwrite (t.sys.pageAt ps.header i / pageSize) = t.sys :=
  (hinv.owns.inert (by
    rw [show t.owner (t.sys.pageAt ps.header i / pageSize) = _ from
      (hinv.refData hok).owned i hi]
    rfl)).overwrite_eq

theorem PageSetRef.page_apply {ε : Type} (i : Nat) : ps.page (ε := ε) i t.sys
      = .ok (if i ≥ ps.count then none else some (t.sys.pageAt ps.header i)) t.sys := by
  obtain ⟨id, ent, hent, hh, hc, -⟩ := hok
  have hentry : t.sys.entryOf ps.header = some ent := hh ▸ hinv.table.entryOf hent
  simp only [PageSetRef.page, bind_apply, readHeaderBacked_apply hentry, andThen_ok, pure_apply,
    BackedHeader.getPage, hc]
  rfl

end

variable {p : ProcKva} {P : Process}

theorem lookupHeader_keeps (hP : t.sys.procs p = some P) (handle : Nat) :
    Keeps t.sys (lookupHeader p handle)
      (fun h => ∃ r va, P.handles[handle]? = some ⟨r, .pageSet h va⟩) C := by
  refine .bind_ok (getProcess_apply hP) (.mapErr ?_)
  cases hl : lookupPageSet P handle Rights.read with
  | error e => exact .fail
  | ok h =>
    obtain ⟨r, va, hi, -⟩ := lookupPageSet_ok hl
    exact .pure ⟨r, va, hi⟩

theorem buddyRef_keeps (hinv : Inv t) (hP : t.sys.procs p = some P) {handle : Nat} {h : HeaderKva}
    {r : Rights} {va : VaPage} (hi : P.handles[handle]? = some ⟨r, .pageSet h va⟩) :
    Keeps t.sys (buddyRef h) (fun ps => RefOk t.sys ps ∧ ps.header = h) C := by
  obtain ⟨id, ent, hent, rfl, hentry⟩ := hinv.slot_entry hP hi
  refine .bind_ok (readHeaderBacked_apply hentry) ?_
  dsimp only
  rw [hinv.table.origin id ent hent]
  cases horg : ent.origin with
  | buddy => exact .pure ⟨⟨id, ent, hent, rfl, rfl, horg⟩, rfl⟩
  | dmaPool => exact .fail
  | externallyOwned => exact .fail

end Refs

/-! ## The builder -/

def wsFrame (s : System) (donation : PageSetRef) (i : Nat) : Frame :=
  s.pageAt donation.header (processKernelObjPages + i) / pageSize

/-- The tables are the claimed workspace pages, and every entry maps a page that meets `A`. -/
structure BuilderOk (s : System) (donation : PageSetRef) (A : PhysAddr → Prop)
    (b : AddressSpaceBuilder) : Prop where
  claimed : b.claimed ≤ donation.count - processKernelObjPages
  frames : b.space.tableFrames.Perm ((range b.claimed).map (wsFrame s donation))
  maps : ∀ v e, v < vaPages → b.space.pte v = some e → A e.outputAddr

variable {s : System} {A' : PhysAddr → Prop} {sp : AddressSpace} {i j v : Nat} {e : Pte}
  {h : HeaderKva}

theorem BuilderOk.mono {donation : PageSetRef} {A : PhysAddr → Prop}
    {b : AddressSpaceBuilder} (hb : BuilderOk s donation A b) (hA : ∀ a, A a → A' a) :
    BuilderOk s donation A' b :=
  ⟨hb.claimed, hb.frames, fun v e hv he => hA _ (hb.maps v e hv he)⟩

/-- A good page is what its entry translates to. -/
theorem outputAddr_buildProcessPage {a : PhysAddr} (ha : GoodPage a) (u x : Bool) :
    (buildProcessPage a u x).outputAddr = a := by
  obtain ⟨h1, h2⟩ := ha
  show a / pageSize % 2 ^ 36 * pageSize = a
  rw [Nat.mod_eq_of_lt h2, Nat.div_mul_cancel (Nat.dvd_of_mod_eq_zero h1)]

/-- Writing one entry adds that entry only. -/
theorem pte_setEntry_cases {e' : Pte} (hv : v < vaPages)
    (h : (sp.setEntry i j (some e)).pte v = some e') : e' = e ∨ sp.pte v = some e' := by
  rw [pte_eq hv] at h ⊢
  split at h
  · rename_i hlt
    rw [if_pos hlt]
    unfold setEntry at h
    cases ht : sp.tables i with
    | none =>
      rw [ht] at h
      exact Or.inr h
    | some tab =>
      rw [ht] at h
      by_cases hi : v / 512 = i
      · by_cases hj : v % 512 = j
        · simp [setTable, hi, hj] at h
          exact Or.inl h.symm
        · simp [setTable, hi, hj] at h
          exact Or.inr (by rw [hi, ht]; exact h)
      · simp [setTable, hi] at h
        exact Or.inr (by simpa using h)
  · cases h

/-- A new table has no entries. -/
theorem pte_setTable_empty {f : Frame} (hv : v < vaPages)
    (h : (sp.setTable i ⟨f, fun _ => none⟩).pte v = some e) : sp.pte v = some e := by
  rw [pte_eq hv] at h ⊢
  split at h
  · rename_i hlt
    rw [if_pos hlt]
    grind [setTable]
  · cases h

section Builder

variable {t : Ledger} {donation : PageSetRef} {A : PhysAddr → Prop} {b : AddressSpaceBuilder}
  {C : Panic → Prop}

section

variable (hinv : Inv t) (hok : RefOk t.sys donation)
include hinv hok

theorem claimZeroed_keeps (claimed : Nat) :
    Keeps t.sys (claimZeroed donation claimed) (fun f =>
      claimed < donation.count - processKernelObjPages ∧ f = wsFrame t.sys donation claimed) C := by
  unfold claimZeroed
  split
  · exact .fail
  rename_i hlt
  have hlt' : claimed < donation.count - processKernelObjPages := Nat.not_le.mp hlt
  have hin : processKernelObjPages + claimed < donation.count := by omega
  refine .bind_ok (PageSetRef.page_apply hinv hok _) ?_
  rw [if_neg (Nat.not_le.mpr hin)]
  have hsame := hinv.overwritePage hok hin
  refine .bind_ok (a := t.sys.pageAt donation.header (processKernelObjPages + claimed)) rfl ?_
  refine .bind_ok (a := ()) ?_ (.pure ⟨hlt', rfl⟩)
  rw [modify_apply, hsame]

theorem builderNew_keeps :
    Keeps t.sys (new donation) (BuilderOk t.sys donation A) C := by
  unfold new
  refine .bind (claimZeroed_keeps hinv hok 0) fun l0 h0 => ?_
  refine .bind (claimZeroed_keeps hinv hok 1) fun l1 h1 => ?_
  refine .bind (claimZeroed_keeps hinv hok 2) fun l2 h2 => ?_
  refine .pure ⟨h2.1, ?_, fun v e hv he => ?_⟩
  · rw [h0.2, h1.2, h2.2]
    have htabs : (range 512).filterMap
        (fun _ => (none : Option L3Table).map L3Table.frame) = [] := by
      rw [filterMap_eq_nil_iff]
      intro _ _
      rfl
    unfold tableFrames
    rw [htabs]
    exact (reverse_perm [wsFrame t.sys donation 0, wsFrame t.sys donation 1,
      wsFrame t.sys donation 2])
  · rw [pte_eq hv] at he
    split at he <;> cases he

theorem mapOne_keeps (hb : BuilderOk t.sys donation A b) {m : Mapping} (hm : A m.physAddr)
    (hgood : GoodPage m.physAddr) :
    Keeps t.sys (b.mapOne donation m) (BuilderOk t.sys donation A) C := by
  unfold mapOne
  dsimp only [pageTableIndices]
  have hl2 : m.virtAddr / 2 ^ 21 % 512 < 512 := Nat.mod_lt _ (by decide)
  generalize m.virtAddr / 2 ^ 21 % 512 = i at hl2
  generalize m.virtAddr / 2 ^ 12 % 512 = j
  have hout := outputAddr_buildProcessPage hgood m.userAccessible m.executable
  generalize buildProcessPage m.physAddr m.userAccessible m.executable = entry at hout
  cases ht : b.space.tables i with
  | some tab =>
    refine .pure ⟨hb.claimed, ?_, fun v e hv he => ?_⟩
    · rw [(setEntry_sameTables i j (some entry)).tableFrames]
      exact hb.frames
    · grind [hb.maps, pte_setEntry_cases]
  | none =>
    dsimp only
    split
    · exact .fail
    refine .bind (claimZeroed_keeps hinv hok b.claimed) fun f hf => .pure ⟨hf.1, ?_, ?_⟩
    · rw [(setEntry_sameTables i j (some entry)).tableFrames]
      refine (tableFrames_setTable_new hl2 ht).trans ?_
      rw [range_succ, map_append, hf.2]
      exact (hb.frames.cons _).trans (perm_append_singleton _ _).symm
    · grind [hb.maps, pte_setEntry_cases, pte_setTable_empty]

theorem mapBatch_keeps (hA : ∀ a, A a → GoodPage a) (ms : List Mapping) :
    ∀ {b : AddressSpaceBuilder}, BuilderOk t.sys donation A b → (∀ m ∈ ms, A m.physAddr) →
      Keeps t.sys (mapBatch donation ms b) (BuilderOk t.sys donation A) C := by
  induction ms with
  | nil => exact fun hb _ => .pure hb
  | cons m ms ih =>
    intro b hb hms
    have hm := hms m mem_cons_self
    exact .bind (mapOne_keeps hinv hok hb hm (hA _ hm)) fun b' hb' =>
      ih hb' fun m' hm' => hms m' (mem_cons_of_mem _ hm')

end

end Builder

/-! ## The buffer of pending mappings -/

/-- `N` mappings went through the buffer; what is still in it, and what was
    flushed, maps pages that meet `A`. -/
structure BufferOk (s : System) (donation scratch : PageSetRef) (A : PhysAddr → Prop) (N : Nat)
    (st : Provision) : Prop where
  builder : BuilderOk s donation A st.builder
  buffer : ∀ m ∈ st.buffer, A m.physAddr
  cursor : st.pageIdx * mappingsPerPage + st.buffer.length = N
  page : st.pageIdx < scratch.count
  le : st.buffer.length ≤ mappingsPerPage
  full : st.buffer.length = mappingsPerPage → st.pageIdx + 1 = scratch.count

theorem BufferOk.mono {donation scratch : PageSetRef} {A : PhysAddr → Prop}
    {N : Nat} {st st' : Provision} (hb : BufferOk s donation scratch A N st)
    (hA : ∀ a, A a → A' a) (hbuilder : st'.builder = st.builder) (hbuffer : st'.buffer = st.buffer)
    (hpage : st'.pageIdx = st.pageIdx) : BufferOk s donation scratch A' N st' := by
  constructor
  · rw [hbuilder]
    exact hb.builder.mono hA
  · rw [hbuffer]
    exact fun m hm => hA _ (hb.buffer m hm)
  · rw [hpage, hbuffer]
    exact hb.cursor
  · rw [hpage]
    exact hb.page
  · rw [hbuffer]
    exact hb.le
  · rw [hbuffer, hpage]
    exact hb.full

/-- What a step of the loops leaves alone in the records of the process page. -/
def SameRecords (st st' : Provision) : Prop :=
  st'.ownedPages = st.ownedPages ∧ st'.headers = st.headers ∧ st'.recorded = st.recorded

section Buffer

variable {t : Ledger} {donation scratch : PageSetRef} {A : PhysAddr → Prop} {st : Provision}
  {C : Panic → Prop} {N : Nat}

/-- The cursor overruns the buffer only when all of it is full. -/
theorem putMapping_keeps (hinv : Inv t) (hok : RefOk t.sys donation) (hsc : RefOk t.sys scratch)
    (hA : ∀ a, A a → GoodPage a) (hb : BufferOk t.sys donation scratch A N st) {m : Mapping}
    (hm : A m.physAddr) (hC : scratch.count * mappingsPerPage ≤ N → C .scratchOverrun) :
    Keeps t.sys (putMapping donation scratch m st)
      (fun st' => BufferOk t.sys donation scratch A (N + 1) st' ∧ SameRecords st st') C := by
  have hcursor := hb.cursor
  have hle := hb.le
  have hpage := hb.page
  have hall : ∀ m' ∈ st.buffer ++ [m], A m'.physAddr := by grind [hb.buffer]
  unfold putMapping
  split
  · rename_i hfull
    refine .stop (hC ?_)
    have hlast := hb.full (Nat.le_antisymm hle hfull)
    have hlen : st.buffer.length = mappingsPerPage := Nat.le_antisymm hle hfull
    rw [← hcursor, ← hlast, hlen, Nat.succ_mul]
  rename_i hroom
  dsimp only
  have hlen : (st.buffer ++ [m]).length = st.buffer.length + 1 := by simp
  split
  · rename_i hflush
    refine .bind (.mapErr (mapBatch_keeps hinv hok hA _ hb.builder hall)) fun builder hbuilder => ?_
    refine .bind_ok (PageSetRef.page_apply hinv hsc _) ?_
    rw [if_neg (Nat.not_le.mpr hflush.2)]
    refine .bind_ok (a := t.sys.pageAt scratch.header (st.pageIdx + 1)) rfl ?_
    refine .bind_ok (a := ()) ?_
      (.pure ⟨⟨hbuilder, by simp, ?_, hflush.2, by simp, ?_⟩, rfl, rfl, rfl⟩)
    all_goals grind [hinv.overwritePage, modify_apply]
  · rename_i hstay
    refine .pure ⟨⟨hb.builder, hall, ?_, hpage, ?_, ?_⟩, rfl, rfl, rfl⟩
    all_goals grind

variable {s : System}

theorem pushOwnedPage_keeps (a : PhysAddr) (hnd : st.ownedPages.Nodup) :
    Keeps s (pushOwnedPage a st) (fun st' =>
      (∀ b, b ∈ st'.ownedPages ↔ b ∈ st.ownedPages ∨ b = a) ∧ st'.ownedPages.Nodup ∧
        st' = { st with ownedPages := st'.ownedPages }) C := by
  unfold pushOwnedPage
  split
  · rename_i hmem
    refine .pure ⟨fun b => ⟨.inl, fun h => h.elim id fun h => ?_⟩, hnd, rfl⟩
    rw [h]
    exact hmem
  · rename_i hmem
    split
    · exact .fail
    · refine .pure ⟨fun b => by simp, ?_, rfl⟩
      grind

theorem recordConsumedHeader_keeps (h : HeaderKva) (hnd : st.headers.Nodup) :
    Keeps s (recordConsumedHeader h st) (fun st' =>
      (∀ k, k ∈ st'.headers ↔ k ∈ st.headers ∨ k = h) ∧ st'.headers.Nodup ∧
        st' = { st with headers := st'.headers }) C := by
  unfold recordConsumedHeader
  split
  · rename_i hmem
    refine .pure ⟨fun b => ⟨.inl, fun h' => h'.elim id fun h' => ?_⟩, hnd, rfl⟩
    rw [h']
    exact hmem
  · rename_i hmem
    split
    · exact .fail
    · refine .pure ⟨fun b => by simp, ?_, rfl⟩
      grind

end Buffer

/-! ## The loops -/

/-- Entry `j` of the mapping list names page `i` of the PageSet of `h`. -/
def CreateArgs.Names (args : CreateArgs) (P : Process) (j : Nat) (h : HeaderKva) (i : Nat) : Prop :=
  ∃ m r va, args.mappings j = some m ∧ P.handles[m.pagesetId]? = some ⟨r, .pageSet h va⟩ ∧
    m.pageIndex = i

/-- What the loops recorded after `n` entries of the list and `k` stack pages. -/
structure ProvOk (s : System) (P : Process) (args : CreateArgs)
    (donation scratch stack : PageSetRef) (n k : Nat) (st : Provision) : Prop where
  buffer : BufferOk s donation scratch (· ∈ st.ownedPages) (n + k) st
  named : ∀ j, j < n → ∃ h i c, args.Names P j h i ∧ RefOk s ⟨h, c⟩ ∧ i < c ∧ h ≠ donation.header
  owned : ∀ a, a ∈ st.ownedPages ↔
    (∃ j h i, j < n ∧ args.Names P j h i ∧ a = s.pageAt h i) ∨
      ∃ i, i < k ∧ a = s.pageAt stack.header i
  ownedNodup : st.ownedPages.Nodup
  headers : ∀ h, h ∈ st.headers ↔ ∃ j i, j < n ∧ args.Names P j h i
  headersNodup : st.headers.Nodup
  recorded : st.recorded = n

variable {P : Process}

/-- An entry of the list names one page. -/
theorem CreateArgs.Names.unique {args : CreateArgs} {i' : Nat} {h' : HeaderKva}
    (hn : args.Names P j h i) (hn' : args.Names P j h' i') : h' = h ∧ i' = i := by
  obtain ⟨m, r, va, hm, hs, hi⟩ := hn
  obtain ⟨m', r', va', hm', hs', hi'⟩ := hn'
  grind

section Loops

variable {t : Ledger} {p : ProcKva} {P : Process} {args : CreateArgs}
  {donation scratch stack : PageSetRef} {st : Provision} {C : Panic → Prop} {n k : Nat}

/-- Every recorded page is a whole frame. -/
theorem ProvOk.good (hinv : Inv t) (hst : RefOk t.sys stack) (hk : k ≤ stack.count)
    (hp : ProvOk t.sys P args donation scratch stack n k st) : ∀ a ∈ st.ownedPages, GoodPage a := by
  intro a ha
  rcases (hp.owned a).mp ha with ⟨j, h, i, hj, hn, rfl⟩ | ⟨i, hi, rfl⟩
  · obtain ⟨h', i', c, hn', hok, hi', -⟩ := hp.named j hj
    obtain ⟨rfl, rfl⟩ := hn.unique hn'
    exact hinv.goodPage hok hi'
  · exact hinv.goodPage hst (Nat.lt_of_lt_of_le hi hk)

variable (hinv : Inv t) (hP : t.sys.procs p = some P) (hdon : RefOk t.sys donation)
  (hsc : RefOk t.sys scratch) (hst : RefOk t.sys stack)
  (hC : scratch.count * mappingsPerPage < args.mappingCount + stack.count → C .scratchOverrun)
include hinv hdon hsc hst hC

include hP in
theorem provisionMapping_keeps (hp : ProvOk t.sys P args donation scratch stack n 0 st)
    (hn : n < args.mappingCount) :
    Keeps t.sys (provisionMapping p args donation scratch n st)
      (ProvOk t.sys P args donation scratch stack (n + 1) 0) C := by
  have hgood := hp.good hinv hst (Nat.zero_le _)
  unfold provisionMapping
  refine .bind_orFail fun m hm => .bind (lookupHeader_keeps hP m.pagesetId) ?_
  rintro h ⟨r, va, hslot⟩
  split
  · exact .fail
  rename_i hne
  refine .bind (buddyRef_keeps hinv hP hslot) ?_
  rintro ⟨h', c⟩ ⟨hok, rfl⟩
  refine .bind_ok (PageSetRef.page_apply hinv hok _) ?_
  by_cases hidx : m.pageIndex ≥ c
  · rw [if_pos hidx]
    exact .bind_orFail fun _ hb => by cases hb
  rw [if_neg hidx]
  rw [Nat.not_le] at hidx
  refine .bind_ok (a := t.sys.pageAt h' m.pageIndex) rfl ?_
  have hnames : args.Names P n h' m.pageIndex := ⟨m, r, va, hm, hslot, rfl⟩
  generalize ha : t.sys.pageAt h' m.pageIndex = a
  have hgooda : GoodPage a := ha ▸ hinv.goodPage hok hidx
  -- the mapping may be flushed before its page is recorded
  have hbuf : BufferOk t.sys donation scratch (fun b => b ∈ st.ownedPages ∨ b = a) (n + 0) st :=
    hp.buffer.mono (fun _ => .inl) rfl rfl rfl
  refine .bind (putMapping_keeps hinv hdon hsc (fun b hb => hb.elim (hgood b) fun h => h ▸ hgooda)
    hbuf (m := ⟨m.virtAddr, a, true, _⟩) (.inr rfl) fun hover => hC (by omega)) ?_
  rintro st1 ⟨hb1, ho1, hh1, hr1⟩
  refine .bind (pushOwnedPage_keeps a (ho1 ▸ hp.ownedNodup)) ?_
  rintro st2 ⟨ho2, hnd2, heq2⟩
  rw [ho1] at ho2
  have hh2 : st2.headers = st.headers := by rw [heq2, hh1]
  refine .bind (recordConsumedHeader_keeps h' (hh2 ▸ hp.headersNodup)) ?_
  rintro st3 ⟨hh3, hnd3, heq3⟩
  rw [hh2] at hh3
  have hown : ({ st3 with recorded := st3.recorded + 1 } : Provision).ownedPages
      = st2.ownedPages := by rw [heq3]
  refine .pure ⟨?_, fun j hj => ?_, fun b => ?_, ?_, fun g => ?_, hnd3, ?_⟩
  · grind [hb1.mono]
  · by_cases hj' : j < n
    all_goals grind [hp.named]
  · rw [hown, ho2, hp.owned]
    constructor
    · grind
    · grind [hnames.unique]
  · rw [hown]
    exact hnd2
  · show g ∈ st3.headers ↔ _
    grind [hnames.unique, hp.headers]
  · grind [hp.recorded]

include hP in
theorem provisionMappings_keeps (r : Nat) :
    ∀ {n : Nat} {st : Provision}, ProvOk t.sys P args donation scratch stack n 0 st →
      n + r = args.mappingCount →
      Keeps t.sys (provisionMappings p args donation scratch r n st)
        (ProvOk t.sys P args donation scratch stack args.mappingCount 0) C := by
  induction r with
  | zero =>
    intro n st hp hn
    rw [Nat.add_zero] at hn
    exact .pure (hn ▸ hp)
  | succ r ih =>
    intro n st hp hn
    exact .bind (provisionMapping_keeps hinv hP hdon hsc hst hC hp (by omega))
      fun st' hp' => ih hp' (by omega)

theorem provisionStackPage_keeps
    (hp : ProvOk t.sys P args donation scratch stack args.mappingCount k st)
    (hk : k < stack.count) :
    Keeps t.sys (provisionStackPage donation scratch stack k st)
      (ProvOk t.sys P args donation scratch stack args.mappingCount (k + 1)) C := by
  have hgood := hp.good hinv hst (Nat.le_of_lt hk)
  unfold provisionStackPage
  refine .bind_ok (PageSetRef.page_apply hinv hst _) ?_
  rw [if_neg (Nat.not_le.mpr hk)]
  refine .bind_ok (a := t.sys.pageAt stack.header k) rfl ?_
  have hgooda := hinv.goodPage hst hk
  have hbuf : BufferOk t.sys donation scratch
      (fun b => b ∈ st.ownedPages ∨ b = t.sys.pageAt stack.header k) (args.mappingCount + k) st :=
    hp.buffer.mono (fun _ => .inl) rfl rfl rfl
  refine .bind (putMapping_keeps hinv hdon hsc (fun b hb => hb.elim (hgood b) fun h => h ▸ hgooda)
    hbuf (.inr rfl) fun hover => hC (by omega)) ?_
  rintro st1 ⟨hb1, ho1, hh1, hr1⟩
  refine (pushOwnedPage_keeps (t.sys.pageAt stack.header k) (ho1 ▸ hp.ownedNodup)).mono ?_
    fun _ h => h
  rintro st2 ⟨ho2, hnd2, heq2⟩
  rw [ho1] at ho2
  refine ⟨?_, hp.named, fun b => ?_, hnd2, fun g => ?_, ?_, ?_⟩
  · refine hb1.mono (fun b hb => (ho2 b).mpr hb) ?_ ?_ ?_ <;> rw [heq2]
  · rw [ho2, hp.owned]
    grind
  all_goals grind [hp.headers, hp.headersNodup, hp.recorded]

theorem provisionStack_keeps (r : Nat) :
    ∀ {k : Nat} {st : Provision},
      ProvOk t.sys P args donation scratch stack args.mappingCount k st → k + r = stack.count →
      Keeps t.sys (provisionStack donation scratch stack r k st)
        (ProvOk t.sys P args donation scratch stack args.mappingCount stack.count) C := by
  induction r with
  | zero =>
    intro k st hp hk
    rw [Nat.add_zero] at hk
    exact .pure (hk ▸ hp)
  | succ r ih =>
    intro k st hp hk
    exact .bind (provisionStackPage_keeps hinv hdon hsc hst hC hp (by omega))
      fun st' hp' => ih hp' (by omega)

end Loops

/-! ## The whole phase -/

/-- Slot `handle` holds a PageSet handle to header `h`. -/
def Process.HoldsPageSet (P : Process) (handle : Nat) (h : HeaderKva) : Prop :=
  ∃ r va, P.handles[handle]? = some ⟨r, .pageSet h va⟩

theorem Inv.held_of_holds {t : Ledger} (hinv : Inv t) {p : ProcKva}
    (hP : t.sys.procs p = some P) {handle : Nat} (hh : P.HoldsPageSet handle h)
    {id : Fin maxPagesets} {ent : PageSetEntry} (hent : t.sys.table id = some ent)
    (heq : ent.headerKva = h) : Held t.sys id ent := by
  obtain ⟨r, va, hi⟩ := hh
  exact ⟨hent, Nat.ne_of_gt
    (hinv.refcount_pos hP (mem_of_getElem? hi) (by simp [heq]) hent rfl)⟩

/-- What the mapping list and the stack PageSet determine of the child. -/
structure BuiltOk (s : System) (P : Process) (args : CreateArgs) (donation stack : PageSetRef)
    (built : Provisioned) : Prop where
  claimed : built.workspaceClaimed ≤ donation.count - processKernelObjPages
  frames : built.space.tableFrames.Perm
    ((range built.workspaceClaimed).map (wsFrame s donation))
  maps : ∀ v e, v < vaPages → built.space.pte v = some e → e.outputAddr ∈ built.ownedPages
  named : ∀ j, j < args.mappingCount →
    ∃ h i c, args.Names P j h i ∧ RefOk s ⟨h, c⟩ ∧ i < c ∧ h ≠ donation.header
  owned : ∀ a, a ∈ built.ownedPages ↔
    (∃ j h i, j < args.mappingCount ∧ args.Names P j h i ∧ a = s.pageAt h i) ∨
      ∃ i, i < stack.count ∧ a = s.pageAt stack.header i
  ownedNodup : built.ownedPages.Nodup
  headers : ∀ h, h ∈ built.headers ↔
    (∃ j i, j < args.mappingCount ∧ args.Names P j h i) ∨ h = stack.header
  headersNodup : built.headers.Nodup

/-- What the apply phase starts from. -/
structure Prepared (s : System) (P : Process) (args : CreateArgs) (donation : PageSetRef)
    (child : ChildFrames) (parent : Option HandleEntry) (built : Provisioned) : Prop where
  donationOk : RefOk s donation
  resources : P.HoldsPageSet args.processResources donation.header
  count : processMinPages ≤ donation.count ∧ donation.count ≤ processMaxPages
  unmapped : (s.headers donation.header).mapCount = 0
  childEq : child = ⟨s.pageAt donation.header 0 / pageSize, s.pageAt donation.header 1 / pageSize,
    s.pageAt donation.header 2 / pageSize, s.pageAt donation.header 3 / pageSize⟩
  parentOk : ∀ e, parent = some e → ∃ handle, args.parentHandleToCopy = some handle ∧
    P.handles[handle]? = some e ∧ e.kind ≠ .empty ∧ e.kind.isPageset = false
  room : s.hasRoom = true
  builtOk : ∃ stack, RefOk s stack ∧ P.HoldsPageSet args.stackPageset stack.header ∧
    BuiltOk s P args donation stack built
  valid : ∀ h ∈ built.headers, ∀ c, RefOk s ⟨h, c⟩ → s.MappingsPresent h c

section Prepare

variable {t : Ledger} {p : ProcKva} {P : Process} {args : CreateArgs} {C : Panic → Prop}

variable {donation scratch stack : PageSetRef} {parent : Option HandleEntry}
  {Q : Provisioned → Prop}

theorem buildChild_keeps (hinv : Inv t)
    (hP : t.sys.procs p = some P) (hdon : RefOk t.sys donation) (hsc : RefOk t.sys scratch)
    (hst : RefOk t.sys stack)
    (hC : scratch.count * mappingsPerPage < args.mappingCount + stack.count → C .scratchOverrun) :
    Keeps t.sys (buildChild p args donation scratch stack)
      (BuiltOk t.sys P args donation stack) C := by
  unfold buildChild
  refine .bind (.mapErr (builderNew_keeps (A := (· ∈ ([] : List PhysAddr))) hinv hdon))
    fun builder hbuilder => ?_
  have hpos : 0 < scratch.count := by
    obtain ⟨id, ent, -, -, hc, -⟩ := hsc
    rw [← hc]
    exact ent.count_pos
  -- the loops start with an empty buffer and nothing consumed
  have hp0 : ProvOk t.sys P args donation scratch stack 0 0 ⟨builder, [], 0, [], [], 0⟩ := by
    refine ⟨⟨hbuilder, by simp, rfl, hpos, Nat.zero_le _, ?_⟩, fun j hj => ?_, fun a => ?_, .nil,
      fun h => ?_, .nil, rfl⟩
    · intro h0
      exact absurd (show 0 = mappingsPerPage from h0) (by decide)
    · omega
    · simp
    · simp
  refine .bind (provisionMappings_keeps hinv hP hdon hsc hst hC _ hp0 (Nat.zero_add _))
    fun st1 hp1 => ?_
  refine .bind (provisionStack_keeps hinv hdon hsc hst hC _ hp1 (Nat.zero_add _)) fun st2 hp2 => ?_
  refine .bind (recordConsumedHeader_keeps stack.header hp2.headersNodup) ?_
  rintro st3 ⟨hh3, hnd3, heq3⟩
  have hbuf : BufferOk t.sys donation scratch (· ∈ st2.ownedPages) _ st3 :=
    hp2.buffer.mono (fun _ h => h) (by rw [heq3]) (by rw [heq3]) (by rw [heq3])
  have hown : st3.ownedPages = st2.ownedPages := by rw [heq3]
  refine .bind (.mapErr (mapBatch_keeps hinv hdon (hp2.good hinv hst (Nat.le_refl _)) _
    hbuf.builder hbuf.buffer)) fun b hb => ?_
  refine .pure ⟨hb.claimed, hb.frames, fun v e hv he => ?_, hp2.named, fun a => ?_, ?_,
    fun h => ?_, hnd3⟩
  all_goals grind [hb.maps, hp2.headers, hp2.owned, hp2.ownedNodup]

theorem resolveParentCopy_keeps (hP : t.sys.procs p = some P) (handle : Option Nat) :
    Keeps t.sys (resolveParentCopy p handle) (fun parent => ∀ e, parent = some e →
      ∃ i, handle = some i ∧ P.handles[i]? = some e ∧ e.kind ≠ .empty ∧
        e.kind.isPageset = false) C := by
  unfold resolveParentCopy
  cases handle with
  | none => exact .pure fun e he => by cases he
  | some i =>
    refine .bind_ok (getProcess_apply hP) (.bind (Q := fun e => P.handles[i]? = some e)
      (.mapErr ?_) fun e he => ?_)
    · cases hl : lookupAny P i Rights.none with
      | error x => exact .fail
      | ok e => exact .pure (lookupAny_ok hl).1
    · split
      · exact .fail
      split
      · exact .fail
      rename_i hne hps
      refine .pure fun e' he' => ?_
      cases he'
      exact ⟨i, rfl, he, hne, Bool.eq_false_iff.mpr hps⟩

/-- What the first phase resolved. -/
structure Resolved (s : System) (P : Process) (args : CreateArgs)
    (donation scratch stack : PageSetRef) (parent : Option HandleEntry) : Prop where
  donationOk : RefOk s donation
  resources : P.HoldsPageSet args.processResources donation.header
  count : processMinPages ≤ donation.count ∧ donation.count ≤ processMaxPages
  unmapped : (s.headers donation.header).mapCount = 0
  scratchOk : RefOk s scratch
  scratchHandle : P.HoldsPageSet args.scratchPageset scratch.header
  stackOk : RefOk s stack
  stackHandle : P.HoldsPageSet args.stackPageset stack.header
  parentOk : ∀ e, parent = some e → ∃ handle, args.parentHandleToCopy = some handle ∧
    P.handles[handle]? = some e ∧ e.kind ≠ .empty ∧ e.kind.isPageset = false
  capacity : validateProcessMappings args.mappingCount stack.count
    (scratch.count * mappingsPerPage) = true
  room : s.hasRoom = true

theorem resolveArgs_keeps (hinv : Inv t) (hP : t.sys.procs p = some P) :
    Keeps t.sys (resolveArgs p args)
      (fun r => Resolved t.sys P args r.1 r.2.1 r.2.2.1 r.2.2.2) C := by
  unfold resolveArgs
  refine .bind_ok rfl ?_
  split
  · exact .fail
  rename_i hroom
  simp only [Bool.not_eq_true', Bool.not_eq_false] at hroom
  -- in the order of the source: stack, handle to copy, scratch, capacity, donation
  refine .bind (lookupHeader_keeps hP _) ?_
  rintro h₁ ⟨r1, va1, hs1⟩
  refine .bind (buddyRef_keeps hinv hP hs1) ?_
  rintro stack ⟨hstack, rfl⟩
  refine .bind (resolveParentCopy_keeps hP _) fun parent hparent => ?_
  refine .bind (lookupHeader_keeps hP _) ?_
  rintro h₂ ⟨r2, va2, hs2⟩
  refine .bind (buddyRef_keeps hinv hP hs2) ?_
  rintro scratch ⟨hscratch, rfl⟩
  split
  · exact .fail
  split
  · exact .fail
  rename_i hcap
  simp only [Bool.not_eq_true', Bool.not_eq_false] at hcap
  refine .bind (Q := fun r => ∃ id ent r' va, t.sys.table id = some ent ∧ ent.origin = .buddy ∧
    (t.sys.headers ent.headerKva).mapCount = 0 ∧ processMinPages ≤ ent.count ∧
    ent.count ≤ processMaxPages ∧
    P.handles[args.processResources]? = some ⟨r', .pageSet ent.headerKva va⟩ ∧
    r = (ent.headerKva, ent.count)) (.mapErr ?_) ?_
  · rcases validateBuddyPageset_cases hinv hP args.processResources processMinPages
      processMaxPages with ⟨e, hval⟩ | ⟨id, ent, r, va, h1, h2, h3, h4, h5, h6, hval⟩
    · rw [Keeps, hval]
      rfl
    · rw [Keeps, hval]
      exact ⟨rfl, id, ent, r, va, h1, h2, h3, h4, h5, h6, rfl⟩
  · rintro _ ⟨id, ent, r, va, h1, h2, h3, h4, h5, h6, rfl⟩
    exact .pure ⟨⟨id, ent, h1, rfl, rfl, h2⟩, ⟨r, va, h6⟩, ⟨h4, h5⟩, h3, hscratch, ⟨r2, va2, hs2⟩,
      hstack, ⟨r1, va1, hs1⟩, hparent, hcap, hroom⟩

theorem childFrames_apply (hinv : Inv t) (hdon : RefOk t.sys donation)
    (hcount : processMinPages ≤ donation.count) :
    childFrames donation t.sys = .ok ⟨t.sys.pageAt donation.header 0 / pageSize,
      t.sys.pageAt donation.header 1 / pageSize, t.sys.pageAt donation.header 2 / pageSize,
      t.sys.pageAt donation.header 3 / pageSize⟩ t.sys := by
  have hlt : ∀ i, i < 4 → i < donation.count := by
    intro i hi
    unfold processMinPages at hcount
    omega
  have hframe : ∀ i < 4, donationFrame donation i t.sys =
      .ok (t.sys.pageAt donation.header i / pageSize) t.sys := by
    intro i hi
    simp [donationFrame, PageSetRef.page_apply hinv hdon, if_neg (Nat.not_le.mpr (hlt i hi))]
  simp [childFrames, hframe]

/-- Around the loops only pages of the two PageSets are written. -/
theorem provisionChild_keeps (hinv : Inv t)
    (hres : Resolved t.sys P args donation scratch stack parent)
    (hne : scratch.header ≠ donation.header)
    (hbuild : Keeps t.sys (buildChild p args donation scratch stack) Q C) :
    Keeps t.sys (provisionChild p args donation scratch stack
        ⟨t.sys.pageAt donation.header 0 / pageSize, t.sys.pageAt donation.header 1 / pageSize,
          t.sys.pageAt donation.header 2 / pageSize, t.sys.pageAt donation.header 3 / pageSize⟩)
      Q C := by
  have hdon := hres.donationOk
  have hcount := hres.count.1
  have hwrite : ∀ i, i < 4 →
      (modify (System.overwrite (t.sys.pageAt donation.header i / pageSize)) : CreateM Unit) t.sys
        = .ok () t.sys := by
    intro i hi
    rw [modify_apply, hinv.overwritePage hdon (by unfold processMinPages at hcount; omega)]
  have hpos : 0 < scratch.count := by
    obtain ⟨id, ent, -, -, hc, -⟩ := hres.scratchOk
    rw [← hc]
    exact ent.count_pos
  unfold provisionChild
  refine .bind_ok (hwrite 0 (by decide)) ?_
  refine .bind_ok (PageSetRef.page_apply hinv hres.scratchOk 0) ?_
  rw [if_neg (Nat.not_le.mpr hpos)]
  refine .bind_ok (a := t.sys.pageAt scratch.header 0) rfl ?_
  refine .bind_ok (a := ()) ?_ ?_
  · rw [modify_apply, hinv.overwritePage hres.scratchOk hpos]
  rw [if_neg hne]
  refine .bind hbuild fun built hb => ?_
  exact .bind_ok (hwrite 1 (by decide)) (.bind_ok (hwrite 2 (by decide))
    (.bind_ok (hwrite 3 (by decide)) (.pure hb)))

theorem consumeValidateAll_keeps (hinv : Inv t) (hpend : t.pending = []) (hs : List HeaderKva) :
    ∀ idx, (∀ h ∈ hs, ∃ c, RefOk t.sys ⟨h, c⟩) →
      Keeps t.sys (consumeValidateAll hs idx)
        (fun _ => ∀ h ∈ hs, ∀ c, RefOk t.sys ⟨h, c⟩ → t.sys.MappingsPresent h c) C := by
  induction hs with
  | nil => exact fun idx _ => .pure fun h hh => by cases hh
  | cons h hs ih =>
    intro idx hok
    obtain ⟨c, id, ent, hent, rfl, rfl, -⟩ := hok h mem_cons_self
    obtain ⟨r, hrun, hiff, -⟩ :=
      revokeValidate_spec (hinv.accounting hpend) (hinv.table.entryOf hent)
    have hmap : (mapErr (fun _ => CreateProcessError.consumeValidateFailed idx)
        (consumePagesetValidate ent.headerKva)) t.sys = .ok r t.sys := by
      simp only [mapErr, consumePagesetValidate, hrun]
    unfold consumeValidateAll
    refine .bind_ok hmap ?_
    cases r with
    | error x => exact .fail
    | ok u =>
      refine (ih (idx + 1) fun k hk => hok k (mem_cons_of_mem _ hk)).mono
        (fun _ hrest k hk c hkc => ?_) fun _ h => h
      rcases mem_cons.mp hk with rfl | hk
      · obtain ⟨id', ent', hent', hh', hc', -⟩ := hkc
        grind [hinv.table.unique]
      · exact hrest k hk c hkc

/-- The scratch PageSet and the process-resources PageSet are different ones. -/
def CreateArgs.ScratchApart (args : CreateArgs) (P : Process) : Prop :=
  ∀ h, P.HoldsPageSet args.scratchPageset h → ¬ P.HoldsPageSet args.processResources h

/-- The header that slot `handle` names, if any. -/
def Process.headerAt (P : Process) (handle : Nat) : Option HeaderKva :=
  match P.handles[handle]? with
  | some ⟨_, .pageSet h _⟩ => some h
  | _ => none

theorem Process.headerAt_eq_some {handle : Nat} {h : HeaderKva} :
    P.headerAt handle = some h ↔ P.HoldsPageSet handle h := by grind [HoldsPageSet, headerAt]

instance (args : CreateArgs) (P : Process) : Decidable (args.ScratchApart P) :=
  decidable_of_iff (∀ h ∈ P.headerAt args.scratchPageset,
      ¬ P.headerAt args.processResources = some h) <| by
    simp only [Option.mem_def, Process.headerAt_eq_some]
    rfl

/-- During the call nothing but the buffer lies in the scratch pages, and no process has them
    mapped. -/
def CreateArgs.ScratchPrivate (args : CreateArgs) (s : System) (P : Process) : Prop :=
  args.listInScratch = false ∧
    ∀ h ∈ P.headerAt args.scratchPageset, (s.headers h).mapCount = 0

instance (args : CreateArgs) (s : System) (P : Process) : Decidable (args.ScratchPrivate s P) :=
  inferInstanceAs (Decidable (_ ∧ _))

/-- The buffer is too small only if the sum of the two counts wrapped. -/
theorem Resolved.wraps (hres : Resolved t.sys P args donation scratch stack parent)
    (hover : scratch.count * mappingsPerPage < args.mappingCount + stack.count) :
    2 ^ 64 ≤ args.mappingCount + maxPracticalPagesPerSet := by
  obtain ⟨id, ent, -, -, hc, -⟩ := hres.stackOk
  have hle := ent.count_le
  have hcap := hres.capacity
  simp only [validateProcessMappings, Bool.and_eq_true, decide_eq_true_eq] at hcap
  have hmod := hcap.2
  omega

section

variable (hinv : Inv t) (hpend : t.pending = []) (hP : t.sys.procs p = some P)
  (hapart : args.ScratchApart P)
  (hC : 2 ^ 64 ≤ args.mappingCount + maxPracticalPagesPerSet → C .scratchOverrun)
include hinv hpend hP hapart hC

/-- Up to the apply phase nothing changes.  The one way to stop is a buffer
    that is too small because the sum of the two counts wrapped.  What else the
    loops establish of the child is `Q`. -/
theorem prepareCreate_keeps_and
    (hQ : ∀ donation scratch stack parent, Resolved t.sys P args donation scratch stack parent →
      Keeps t.sys (buildChild p args donation scratch stack) Q (fun _ => True)) :
    Keeps t.sys (prepareCreate p args)
      (fun r => Prepared t.sys P args r.1 r.2.1 r.2.2.1 r.2.2.2 ∧ Q r.2.2.2) C := by
  unfold prepareCreate
  refine .bind (resolveArgs_keeps hinv hP) ?_
  rintro ⟨donation, scratch, stack, parent⟩ hres
  dsimp only at hres ⊢
  have hne : scratch.header ≠ donation.header := fun heq =>
    hapart _ hres.scratchHandle (heq ▸ hres.resources)
  refine .bind_ok (childFrames_apply hinv hres.donationOk hres.count.1) ?_
  have hbuild := Keeps.and (buildChild_keeps hinv hP hres.donationOk hres.scratchOk hres.stackOk
    fun hover => hC (hres.wraps hover)) (hQ donation scratch stack parent hres)
  refine .bind (provisionChild_keeps hinv hres hne hbuild) ?_
  rintro built ⟨hb, hq⟩
  refine .bind_ok rfl ?_
  split
  · exact .fail
  have hrefs : ∀ h ∈ built.headers, ∃ c, RefOk t.sys ⟨h, c⟩ := by
    intro h hh
    rcases (hb.headers h).mp hh with ⟨j, i, hj, hn⟩ | rfl
    · grind [hb.named, hn.unique]
    · exact ⟨stack.count, hres.stackOk⟩
  refine .bind (consumeValidateAll_keeps hinv hpend _ 0 hrefs) fun _ hvalid => ?_
  exact .pure ⟨⟨hres.donationOk, hres.resources, hres.count, hres.unmapped, rfl, hres.parentOk,
    hres.room, ⟨stack, hres.stackOk, hres.stackHandle, hb⟩, hvalid⟩, hq⟩

theorem prepareCreate_keeps :
    Keeps t.sys (prepareCreate p args)
      (fun r => Prepared t.sys P args r.1 r.2.1 r.2.2.1 r.2.2.2) C :=
  (prepareCreate_keeps_and (Q := fun _ => True) hinv hpend hP hapart hC
    fun _ _ _ _ hres => (buildChild_keeps hinv hP hres.donationOk hres.scratchOk
      hres.stackOk fun _ => trivial).mono (fun _ _ => trivial) fun _ h => h).mono
    (fun _ h => h.1) fun _ h => h

end

end Prepare

end Lockjaw.Cap
