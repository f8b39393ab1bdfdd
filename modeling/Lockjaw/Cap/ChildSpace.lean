/-
  Lockjaw.Cap.ChildSpace

  The address space `sys_create_process` builds for a child.

  The mapping list and the stack pages go through the scratch buffer to the builder
  in order, so the tables hold the last entry written for each page: `Laid` says that
  of a list of mappings.  The builder looks at the L2 and L3 indices of an address
  only, so an entry above the first GiB lands on the page of the first GiB with the
  same low bits.
-/

import Lockjaw.Cap.Machine
import Mathlib.Data.List.Induction

namespace Lockjaw.Cap

open Lib AddressSpace AddressSpaceBuilder

/-! ## The last mapping of a page -/

/-- The page of the first GiB whose entry the builder writes for `m`. -/
def Mapping.slot (m : Mapping) : Nat := m.virtAddr / pageSize % 2 ^ 18

/-- The entry it writes. -/
def Mapping.entry (m : Mapping) : Pte := buildProcessPage m.physAddr m.userAccessible m.executable

/-- The last mapping of a list that is written to page `w`. -/
def lastFor (ms : List Mapping) (w : Nat) : Option Mapping := ms.reverse.find? fun m => m.slot = w

theorem lastFor_append_singleton (ms : List Mapping) (m : Mapping) (w : Nat) :
    lastFor (ms ++ [m]) w = if m.slot = w then some m else lastFor ms w := by
  rw [lastFor, List.reverse_append, List.reverse_singleton, List.singleton_append, List.find?_cons]
  by_cases h : m.slot = w
  · rw [if_pos h, decide_eq_true h]
  · rw [if_neg h, decide_eq_false h]
    rfl

variable {ms : List Mapping} {m : Mapping}

theorem lastFor_eq_some {w : Nat} (h : lastFor ms w = some m) :
    m ∈ ms ∧ m.slot = w := by
  refine ⟨List.mem_reverse.mp (List.mem_of_find?_eq_some h), ?_⟩
  simpa using List.find?_some h

/-- A mapping that no later one of its page supersedes is the last of its page. -/
theorem lastFor_eq_of_last {i : Nat} (hi : ms[i]? = some m)
    (hlast : ∀ j m', i < j → ms[j]? = some m' → m'.slot ≠ m.slot) : lastFor ms m.slot = some m := by
  induction ms using List.reverseRecOn with
  | nil => cases hi
  | append_singleton ms m0 ih =>
    rw [lastFor_append_singleton]
    rcases Nat.lt_trichotomy i ms.length with hlt | heq | hgt
    · grind
    all_goals grind

/-- The last mapping of a page is not superseded. -/
theorem exists_last (hm : m ∈ ms) :
    ∃ (i : Nat) (m' : Mapping), ms[i]? = some m' ∧
      m'.virtAddr / pageSize = m.virtAddr / pageSize ∧
      ∀ (j : Nat) (m'' : Mapping), i < j → ms[j]? = some m'' →
        m''.virtAddr / pageSize ≠ m'.virtAddr / pageSize := by
  induction ms using List.reverseRecOn with
  | nil => cases hm
  | append_singleton ms m0 ih =>
    by_cases hpage : m0.virtAddr / pageSize = m.virtAddr / pageSize
    · refine ⟨ms.length, m0, by simp, hpage, fun j m'' hj hm'' => ?_⟩
      grind
    · rcases List.mem_append.mp hm with hm | hm
      · obtain ⟨i, m', hi, heq, hlast⟩ := ih hm
        have hlt : i < ms.length := (List.getElem?_eq_some_iff.mp hi).1
        refine ⟨i, m', by rw [List.getElem?_append_left hlt, hi], heq, fun j m'' hj hm'' => ?_⟩
        rcases Nat.lt_trichotomy j ms.length with hjlt | rfl | hjgt
        all_goals grind
      · rw [List.mem_singleton.mp hm] at hpage
        exact absurd rfl hpage

/-! ## What the builder leaves -/

/-- The tables hold the last mapping of each page, and nothing else. -/
def Laid (sp : AddressSpace) (ms : List Mapping) : Prop :=
  ∀ w < 2 ^ 18, sp.pte w = (lastFor ms w).map Mapping.entry

section Entries

variable {sp : AddressSpace} {i j w : Nat}

theorem pte_setEntry {t : L3Table} {e : Pte} (ht : sp.tables i = some t) (hj : j < 512)
    (hw : w < 2 ^ 18) :
    (sp.setEntry i j (some e)).pte w = if i * 512 + j = w then some e else sp.pte w := by
  have hw' : w < vaPages := Nat.lt_of_lt_of_le hw (by decide)
  rw [pte_eq hw', pte_eq hw', if_pos hw, if_pos hw,
    setEntry, ht]
  grind [setTable]

theorem pte_setTable_fresh {f : Frame} (ht : sp.tables i = none) (hw : w < 2 ^ 18) :
    (sp.setTable i ⟨f, fun _ => none⟩).pte w = sp.pte w := by
  have hw' : w < vaPages := Nat.lt_of_lt_of_le hw (by decide)
  rw [pte_eq hw', pte_eq hw', if_pos hw, if_pos hw]
  grind [setTable]

end Entries

theorem Mapping.slot_eq (m : Mapping) :
    m.virtAddr / 2 ^ 21 % 512 * 512 + m.virtAddr / 2 ^ 12 % 512 = m.slot := by
  show _ = m.virtAddr / 4096 % 2 ^ 18
  omega

section Builder

variable {t : Ledger} {donation scratch : PageSetRef} {b : AddressSpaceBuilder}
  {ms : List Mapping} {m : Mapping} {C : Panic → Prop}

theorem Laid.write {sp sp' : AddressSpace} (h : Laid sp ms)
    (hw : ∀ w < 2 ^ 18, sp'.pte w = if m.slot = w then some m.entry else sp.pte w) :
    Laid sp' (ms ++ [m]) := by
  intro w hlt
  rw [hw w hlt, lastFor_append_singleton]
  by_cases hs : m.slot = w
  · rw [if_pos hs, if_pos hs]
    rfl
  · rw [if_neg hs, if_neg hs]
    exact h w hlt

section

variable (hinv : Inv t) (hok : RefOk t.sys donation)
include hinv hok

theorem mapOne_laid (hb : Laid b.space ms) :
    Keeps t.sys (b.mapOne donation m) (fun b' => Laid b'.space (ms ++ [m])) C := by
  unfold mapOne
  dsimp only [pageTableIndices]
  have hslot := m.slot_eq
  have hl3 : m.virtAddr / 2 ^ 12 % 512 < 512 := Nat.mod_lt _ (by decide)
  generalize m.virtAddr / 2 ^ 21 % 512 = i at hslot
  generalize m.virtAddr / 2 ^ 12 % 512 = j at hslot hl3
  cases ht : b.space.tables i with
  | some tab =>
    refine .pure (hb.write fun w hw => ?_)
    rw [pte_setEntry ht hl3 hw, hslot]
    rfl
  | none =>
    dsimp only
    split
    · exact .fail
    refine .bind (claimZeroed_keeps hinv hok b.claimed) fun f _ => .pure (hb.write fun w hw => ?_)
    have htab : (b.space.setTable i ⟨f, fun _ => none⟩).tables i = some ⟨f, fun _ => none⟩ := by
      simp [setTable]
    rw [pte_setEntry htab hl3 hw, pte_setTable_fresh ht hw, hslot]
    rfl

theorem mapBatch_laid (batch : List Mapping) :
    ∀ {b : AddressSpaceBuilder} {ms : List Mapping}, Laid b.space ms →
    Keeps t.sys (mapBatch donation batch b)
      (fun b' => Laid b'.space (ms ++ batch)) C := by
  induction batch with
  | nil =>
    intro b ms hb
    rw [List.append_nil]
    exact .pure hb
  | cons m batch ih =>
    intro b ms hb
    refine .bind (mapOne_laid hinv hok hb) fun b' hb' => ?_
    have hrest := ih hb'
    rwa [List.append_assoc, List.singleton_append] at hrest

theorem builderNew_laid :
    Keeps t.sys (new donation) (fun b => Laid b.space []) C := by
  unfold new
  refine .bind (claimZeroed_keeps hinv hok 0) fun l0 _ => ?_
  refine .bind (claimZeroed_keeps hinv hok 1) fun l1 _ => ?_
  refine .bind (claimZeroed_keeps hinv hok 2) fun l2 _ => .pure fun w hw => ?_
  rw [pte_eq (Nat.lt_of_lt_of_le hw (by decide)), if_pos hw]
  rfl

end

/-! ## Through the buffer -/

/-- `ms` went into the buffer: part of it is in the tables, the rest is pending. -/
def Wrote (st : Provision) (ms : List Mapping) : Prop :=
  ∃ flushed, Laid st.builder.space flushed ∧ flushed ++ st.buffer = ms

variable {st : Provision}

theorem Wrote.congr {st' : Provision} (h : Wrote st ms) (hbuilder : st'.builder = st.builder)
    (hbuffer : st'.buffer = st.buffer) : Wrote st' ms := by
  rw [Wrote, hbuilder, hbuffer]
  exact h

theorem putMapping_wrote (hinv : Inv t) (hdon : RefOk t.sys donation) (hsc : RefOk t.sys scratch)
    (h : Wrote st ms) (hC : C .scratchOverrun) :
    Keeps t.sys (putMapping donation scratch m st)
      (fun st' => Wrote st' (ms ++ [m])) C := by
  obtain ⟨flushed, hlaid, rfl⟩ := h
  unfold putMapping
  split
  · exact .stop hC
  dsimp only
  split
  · rename_i hflush
    refine .bind (.mapErr (mapBatch_laid hinv hdon _ hlaid)) fun builder hbuilder => ?_
    refine .bind_ok (PageSetRef.page_apply hinv hsc _) ?_
    rw [if_neg (Nat.not_le.mpr hflush.2)]
    refine .bind_ok (a := t.sys.pageAt scratch.header (st.pageIdx + 1)) rfl ?_
    refine .bind_ok (a := ()) ?_ (.pure ⟨_, hbuilder, ?_⟩)
    · rw [modify_apply, hinv.overwritePage hsc hflush.2]
    · rw [List.append_nil, List.append_assoc]
  · exact .pure ⟨flushed, hlaid, (List.append_assoc ..).symm⟩

theorem pushOwnedPage_wrote {a : PhysAddr} (h : Wrote st ms) :
    Keeps t.sys (pushOwnedPage a st) (fun st' => Wrote st' ms) C := by
  unfold pushOwnedPage
  split
  · exact .pure h
  split
  · exact .fail
  · exact .pure (h.congr rfl rfl)

theorem recordConsumedHeader_wrote {k : HeaderKva} (h : Wrote st ms) :
    Keeps t.sys (recordConsumedHeader k st) (fun st' => Wrote st' ms) C := by
  unfold recordConsumedHeader
  split
  · exact .pure h
  split
  · exact .fail
  · exact .pure (h.congr rfl rfl)

end Builder

/-! ## What a call asks for -/

def System.pageCount (s : System) (h : HeaderKva) : Nat := ((s.entryOf h).map (·.count)).getD 0

/-- Entry `j` of the mapping list, resolved. -/
def CreateArgs.request (s : System) (P : Process) (args : CreateArgs) (j : Nat) :
    Option Mapping :=
  (args.mappings j).bind fun m => (P.headerAt m.pagesetId).map fun h =>
    ⟨m.virtAddr, s.pageAt h m.pageIndex, true,
      decide (m.flags &&& processMapFlagExecutable ≠ 0#64)⟩

def stackRequest (s : System) (h : HeaderKva) (i : Nat) : Mapping :=
  ⟨userStackBase + i * pageSize, s.pageAt h i, true, false⟩

/-- Everything the kernel reads: the list, then the stack. -/
def CreateArgs.requests (s : System) (P : Process) (args : CreateArgs) : List Mapping :=
  (List.range args.mappingCount).filterMap (args.request s P) ++
    ((P.headerAt args.stackPageset).map fun h =>
      (List.range (s.pageCount h)).map (stackRequest s h)).getD []

/-- The call with its list where the kernel reads what was written. -/
def CreateArgs.asked (args : CreateArgs) : CreateArgs := { args with listInScratch := false }

section Loops

variable {t : Ledger} {p : ProcKva} {P : Process} {args : CreateArgs}
  {donation scratch stack : PageSetRef} {st : Provision} {C : Panic → Prop} {n k : Nat}

theorem RefOk.pageCount (hinv : Inv t) (hok : RefOk t.sys stack) :
    t.sys.pageCount stack.header = stack.count := by
  obtain ⟨id, ent, hent, hh, hc, -⟩ := hok
  grind [hinv.table.entryOf, System.pageCount]

variable (hinv : Inv t) (hP : t.sys.procs p = some P) (hdon : RefOk t.sys donation)
  (hsc : RefOk t.sys scratch) (hst : RefOk t.sys stack) (hC : C .scratchOverrun)
include hinv hdon hsc hC

include hP in
theorem provisionMapping_wrote (h : Wrote st ((List.range n).filterMap (args.request t.sys P))) :
    Keeps t.sys (provisionMapping p args donation scratch n st)
      (fun st' => Wrote st' ((List.range (n + 1)).filterMap (args.request t.sys P))) C := by
  unfold provisionMapping
  refine .bind_orFail fun m hm => .bind (lookupHeader_keeps hP m.pagesetId) ?_
  rintro k hslot
  split
  · exact .fail
  obtain ⟨r, va, hslot'⟩ := hslot
  refine .bind (buddyRef_keeps hinv hP hslot') ?_
  rintro ⟨h', c⟩ ⟨hok, rfl⟩
  refine .bind_ok (PageSetRef.page_apply hinv hok _) ?_
  by_cases hidx : m.pageIndex ≥ c
  · rw [if_pos hidx]
    exact .bind_orFail fun _ hb => by cases hb
  rw [if_neg hidx]
  refine .bind_ok (a := t.sys.pageAt h' m.pageIndex) rfl ?_
  refine .bind (putMapping_wrote hinv hdon hsc h hC) fun st1 h1 => ?_
  refine .bind (pushOwnedPage_wrote h1) fun st2 h2 => ?_
  refine .bind (recordConsumedHeader_wrote h2) fun st3 h3 => .pure ?_
  have hreq : args.request t.sys P n = some ⟨m.virtAddr, t.sys.pageAt h' m.pageIndex, true,
      decide (m.flags &&& processMapFlagExecutable ≠ 0#64)⟩ := by
    rw [CreateArgs.request, hm, Option.bind_some, Process.headerAt_eq_some.mpr ⟨r, va, hslot'⟩]
    rfl
  rw [List.range_succ, List.filterMap_append, List.filterMap_cons_some hreq, List.filterMap_nil]
  exact h3.congr rfl rfl

include hP in
theorem provisionMappings_wrote (r : Nat) : ∀ {n : Nat} {st : Provision},
    Wrote st ((List.range n).filterMap (args.request t.sys P)) →
    Keeps t.sys (provisionMappings p args donation scratch r n st)
      (fun st' => Wrote st' ((List.range (n + r)).filterMap (args.request t.sys P))) C := by
  induction r with
  | zero => exact fun h => .pure h
  | succ r ih =>
    intro n st h
    refine .bind (provisionMapping_wrote hinv hP hdon hsc hC h) fun st' h' => ?_
    rw [show n + (r + 1) = n + 1 + r by omega]
    exact ih h'

include hst in
theorem provisionStackPage_wrote (hk : k < stack.count)
    (h : Wrote st (ms ++ (List.range k).map (stackRequest t.sys stack.header))) :
    Keeps t.sys (provisionStackPage donation scratch stack k st)
      (fun st' => Wrote st' (ms ++ (List.range (k + 1)).map (stackRequest t.sys stack.header)))
      C := by
  unfold provisionStackPage
  refine .bind_ok (PageSetRef.page_apply hinv hst _) ?_
  rw [if_neg (Nat.not_le.mpr hk)]
  refine .bind_ok (a := t.sys.pageAt stack.header k) rfl ?_
  refine .bind (putMapping_wrote hinv hdon hsc h hC) fun st1 h1 => ?_
  rw [List.range_succ, List.map_append, List.map_singleton, ← List.append_assoc]
  exact pushOwnedPage_wrote h1

include hst in
theorem provisionStack_wrote (r : Nat) : ∀ {k : Nat} {st : Provision},
    k + r ≤ stack.count →
    Wrote st (ms ++ (List.range k).map (stackRequest t.sys stack.header)) →
    Keeps t.sys (provisionStack donation scratch stack r k st)
      (fun st' => Wrote st' (ms ++ (List.range (k + r)).map (stackRequest t.sys stack.header)))
      C := by
  induction r with
  | zero => exact fun _ h => .pure h
  | succ r ih =>
    intro k st hle h
    refine .bind (provisionStackPage_wrote hinv hdon hsc hst hC (by omega) h) fun st' h' => ?_
    rw [show k + (r + 1) = k + 1 + r by omega]
    exact ih (by omega) h'

include hP hst in
/-- The builder ends with everything the call asks for. -/
theorem buildChild_laid :
    Keeps t.sys (buildChild p args donation scratch stack)
      (fun built => Laid built.space ((List.range args.mappingCount).filterMap
        (args.request t.sys P) ++ (List.range stack.count).map (stackRequest t.sys stack.header)))
      C := by
  unfold buildChild
  refine .bind (.mapErr (builderNew_laid hinv hdon)) fun builder hbuilder => ?_
  have h0 : Wrote ⟨builder, [], 0, [], [], 0⟩
      ((List.range 0).filterMap (args.request t.sys P)) := ⟨[], hbuilder, rfl⟩
  refine .bind (provisionMappings_wrote hinv hP hdon hsc hC _ h0) fun st1 h1 => ?_
  rw [Nat.zero_add] at h1
  have h1' : Wrote st1 ((List.range args.mappingCount).filterMap (args.request t.sys P) ++
      (List.range 0).map (stackRequest t.sys stack.header)) := by
    rw [List.range_zero, List.map_nil, List.append_nil]
    exact h1
  refine .bind (provisionStack_wrote hinv hdon hsc hst hC _ (by omega) h1') fun st2 h2 => ?_
  rw [Nat.zero_add] at h2
  refine .bind (recordConsumedHeader_wrote h2) fun st3 h3 => ?_
  obtain ⟨flushed, hlaid, heq⟩ := h3
  refine .bind (.mapErr (mapBatch_laid hinv hdon _ hlaid)) fun b hb => .pure ?_
  exact heq ▸ hb

end Loops

/-! ## The call -/

variable {built : Provisioned} {s s' : System} {args : CreateArgs} {P : Process}

/-- Every page a call asks for is a whole frame. -/
theorem BuiltOk.goodRequests {t : Ledger}
    {donation stack : PageSetRef} (hinv : Inv t)
    (hst : RefOk t.sys stack) (hhold : P.HoldsPageSet args.stackPageset stack.header)
    (hb : BuiltOk t.sys P args donation stack built) :
    (∀ j < args.mappingCount, (args.request t.sys P j).isSome) ∧
      ∀ m ∈ args.requests t.sys P, GoodPage m.physAddr := by
  have hreq : ∀ j < args.mappingCount, ∃ m, args.request t.sys P j = some m ∧
      GoodPage m.physAddr := by
    intro j hj
    obtain ⟨h, i, c, ⟨m, r, va, hm, hslot, rfl⟩, hok, hi, -⟩ := hb.named j hj
    refine ⟨⟨m.virtAddr, t.sys.pageAt h m.pageIndex, true,
      decide (m.flags &&& processMapFlagExecutable ≠ 0#64)⟩, ?_, hinv.goodPage hok hi⟩
    rw [CreateArgs.request, hm, Option.bind_some, Process.headerAt_eq_some.mpr ⟨r, va, hslot⟩]
    rfl
  refine ⟨fun j hj => ?_, fun m hm => ?_⟩
  · obtain ⟨m, hm, -⟩ := hreq j hj
    rw [hm]
    rfl
  · rw [CreateArgs.requests, Process.headerAt_eq_some.mpr hhold, Option.map_some,
      Option.getD_some, hst.pageCount hinv] at hm
    rcases List.mem_append.mp hm with hm | hm
    · grind
    · obtain ⟨i, hi, rfl⟩ := List.mem_map.mp hm
      exact hinv.goodPage hst (List.mem_range.mp hi)

theorem addThread_procs {t : Tcb} {r : Bool}
    (h : (addThread t : KernelM Bool) s = .ok r s') : s'.procs = s.procs := by
  unfold addThread at h
  rw [bind_apply, read_apply, andThen_ok] at h
  cases hfree : s.threads.findIdx? (·.isNone) with
  | none =>
    rw [hfree] at h
    cases h
    rfl
  | some i =>
    rw [hfree] at h
    cases h
    rfl

/-- The child gets the tables that were built. -/
theorem applyCreate_space {donation : PageSetRef} {child : ChildFrames}
    {parent : Option HandleEntry} (h : applyCreate donation child parent built s = .ok () s') :
    ∃ Q, s'.procs child.process = some Q ∧ Q.space = built.space := by
  unfold applyCreate at h
  obtain ⟨_, s1, -, h⟩ := bind_eq_ok h
  obtain ⟨_, s2, -, h⟩ := bind_eq_ok h
  obtain ⟨handles, s3, -, h⟩ := bind_eq_ok h
  obtain ⟨_, s4, hset, h⟩ := bind_eq_ok h
  obtain ⟨added, s5, hadd, h⟩ := bind_eq_ok h
  rw [modify_apply] at hset
  cases hset
  have hprocs := addThread_procs hadd
  cases added with
  | false => cases h
  | true =>
    cases h
    refine ⟨⟨built.space, child.handleTable, handles, 1, built.ownedPages⟩, ?_, rfl⟩
    rw [hprocs, System.setProc]
    simp

/-- What a successful call builds, and from what. -/
theorem sysCreateProcess_laid {t : Ledger} {p : ProcKva}
    (hinv : Inv t) (hpend : t.pending = []) (hP : t.sys.procs p = some P)
    (hapart : args.ScratchApart P) (hcall : sysCreateProcess p (some args) t.sys = .ok () s') :
    ∃ h Q, P.HoldsPageSet args.processResources h ∧
      s'.procs (t.sys.pageAt h 0 / pageSize) = some Q ∧ Laid Q.space (args.requests t.sys P) ∧
      (∀ j < args.mappingCount, (args.request t.sys P j).isSome) ∧
      ∀ m ∈ args.requests t.sys P, GoodPage m.physAddr := by
  have hkeeps := Keeps.mapErr (f := CreateProcessError.toSyscallError)
    (prepareCreate_keeps_and (C := fun _ => True)
      (Q := fun built => Laid built.space (args.requests t.sys P)) hinv hpend hP hapart
      (fun _ => trivial) fun donation scratch stack parent hres => by
        rw [CreateArgs.requests, Process.headerAt_eq_some.mpr hres.stackHandle, Option.map_some,
          Option.getD_some, hres.stackOk.pageCount hinv]
        exact buildChild_laid hinv hP hres.donationOk hres.scratchOk hres.stackOk trivial)
  unfold sysCreateProcess at hcall
  obtain ⟨args', _, hargs, hcall⟩ := bind_eq_ok hcall
  rw [orFail_some_apply] at hargs
  cases hargs
  obtain ⟨r, s1, hprep, hcall⟩ := bind_eq_ok hcall
  rw [Keeps, hprep] at hkeeps
  obtain ⟨rfl, hprepared, hlaid⟩ := hkeeps
  obtain ⟨donation, child, parent, built⟩ := r
  dsimp only at hprepared hlaid hcall
  obtain ⟨Q, hQ, hspace⟩ := applyCreate_space hcall
  obtain ⟨stack, hst, hhold, hb⟩ := hprepared.builtOk
  grind [hb.goodRequests, hprepared.childEq, hprepared.resources]

/-! ## The space that was asked for -/

/-- Translation by the hardware: TTBR0 covers 48-bit addresses. -/
def AddressSpace.translate (sp : AddressSpace) (va : Nat) : Option Pte :=
  if va < 2 ^ 48 then sp.walk va else none

/-- Exactly what `reqs` asks for is mapped: a request that no later one for its page
    supersedes reaches its page, writable by the user and executable there if and only
    if it says so, and no other user page is mapped. -/
structure HoldsExactly (sp : AddressSpace) (reqs : List Mapping) : Prop where
  reached : ∀ (i : Nat) (m : Mapping), reqs[i]? = some m →
    (∀ (j : Nat) (m' : Mapping), i < j → reqs[j]? = some m' →
      m'.virtAddr / pageSize ≠ m.virtAddr / pageSize) →
    ∃ e, sp.translate m.virtAddr = some e ∧ e.outputAddr = m.physAddr ∧ e.ap = 1 ∧
      e.uxn = !m.executable ∧ e.pxn = true
  only : ∀ va < userVaEnd, (sp.translate va).isSome →
    ∃ m ∈ reqs, m.virtAddr / pageSize = va / pageSize

section Exact

variable {sp : AddressSpace} {reqs : List Mapping} {va : Nat}

theorem AddressSpace.walk_eq_pte : sp.walk va = sp.pte (va / pageSize) := by
  have hidx : pageTableIndices va = pageTableIndices (va / pageSize * pageSize) := by
    unfold pageTableIndices
    have h4096 : va / pageSize * pageSize = va / 4096 * 4096 := rfl
    rw [h4096]
    refine Prod.ext ?_ (Prod.ext ?_ (Prod.ext ?_ ?_))
    · show va / 2 ^ 39 % 512 = va / 4096 * 4096 / 2 ^ 39 % 512
      omega
    · show va / 2 ^ 30 % 512 = va / 4096 * 4096 / 2 ^ 30 % 512
      omega
    · show va / 2 ^ 21 % 512 = va / 4096 * 4096 / 2 ^ 21 % 512
      omega
    · show va / 2 ^ 12 % 512 = va / 4096 * 4096 / 2 ^ 12 % 512
      omega
  rw [pte, walk, walk, hidx]

/-- Outside the first GiB nothing is mapped. -/
theorem AddressSpace.lt_of_translate (h : (sp.translate va).isSome) : va < userVaEnd := by
  unfold translate at h
  split at h
  · rename_i hlt
    have hpage : va / pageSize < vaPages := by
      show va / 4096 < 2 ^ 36
      omega
    rw [walk_eq_pte] at h
    have hlt18 : va / 4096 < 2 ^ 18 := lt_of_pte hpage h
    show va < 0x40000000
    omega
  · cases h

theorem Laid.translate (h : Laid sp reqs) (hva : va < userVaEnd) :
    sp.translate va = (lastFor reqs (va / pageSize)).map Mapping.entry := by
  have hva' : va < 0x40000000 := hva
  have hpage : va / pageSize < 2 ^ 18 := by
    show va / 4096 < 2 ^ 18
    omega
  rw [AddressSpace.translate, if_pos (by omega), AddressSpace.walk_eq_pte, h _ hpage]

theorem Mapping.slot_of_lt (h : m.virtAddr < userVaEnd) :
    m.slot = m.virtAddr / pageSize := by
  have h' : m.virtAddr < 0x40000000 := h
  show m.virtAddr / 4096 % 2 ^ 18 = m.virtAddr / 4096
  omega

/-- The tables hold what was asked for exactly when all of it lies in the first GiB. -/
theorem Laid.holdsExactly_iff (h : Laid sp reqs) (hgood : ∀ m ∈ reqs, GoodPage m.physAddr)
    (huser : ∀ m ∈ reqs, m.userAccessible = true) :
    HoldsExactly sp reqs ↔ ∀ m ∈ reqs, m.virtAddr < userVaEnd := by
  constructor
  · intro hexact m hm
    obtain ⟨i, m', hi, hpage, hlast⟩ := exists_last hm
    obtain ⟨e, he, -⟩ := hexact.reached i m' hi hlast
    have hlt : m'.virtAddr < 0x40000000 := lt_of_translate (by rw [he]; rfl)
    have hpage' : m'.virtAddr / 4096 = m.virtAddr / 4096 := hpage
    show m.virtAddr < 0x40000000
    omega
  · intro hlow
    constructor
    · intro i m hi hlast
      have hm : m ∈ reqs := List.mem_of_getElem? hi
      have hslot := Mapping.slot_of_lt (hlow m hm)
      have hfor : lastFor reqs (m.virtAddr / pageSize) = some m := by
        grind [Mapping.slot_of_lt, lastFor_eq_of_last]
      refine ⟨m.entry, ?_, outputAddr_buildProcessPage (hgood m hm) _ _, ?_⟩
      · rw [h.translate (hlow m hm), hfor]
        rfl
      · rw [Mapping.entry, huser m hm]
        exact ⟨rfl, rfl, rfl⟩
    · intro va hva hsome
      rw [h.translate hva, Option.isSome_map] at hsome
      obtain ⟨m, hm⟩ := Option.isSome_iff_exists.mp hsome
      obtain ⟨hmem, hslot⟩ := lastFor_eq_some hm
      exact ⟨m, hmem, by rw [← Mapping.slot_of_lt (hlow m hmem), hslot]⟩

end Exact

theorem CreateArgs.requests_user :
    ∀ m ∈ args.requests s P, m.userAccessible = true := by
  intro m hm
  rcases List.mem_append.mp hm with hm | hm
  · obtain ⟨j, -, hj⟩ := List.mem_filterMap.mp hm
    obtain ⟨e, -, he⟩ := Option.bind_eq_some_iff.mp hj
    obtain ⟨h, -, rfl⟩ := Option.map_eq_some_iff.mp he
    rfl
  · cases hh : P.headerAt args.stackPageset with
    | none =>
      rw [hh] at hm
      cases hm
    | some h =>
      rw [hh] at hm
      obtain ⟨i, -, rfl⟩ := List.mem_map.mp hm
      rfl

/-- In every run, a call that is accepted, with a scratch PageSet of its own that the kernel has to
    itself, gives the child exactly the address space it asks for if and only if every address it
    asks for lies below the end of the user addresses. -/
theorem created_space_exact_iff {b : BootConfig} {s s' : System} {p : ProcKva} {P : Process}
    {args : CreateArgs} (hrun : Run b (fun s ev => ev.Apart s) s) (hP : s.procs p = some P)
    (hapart : args.ScratchApart P) (hprivate : args.ScratchPrivate s P)
    (hcall : sysCreateProcess p (some args) s = .ok () s') :
    ∃ h Q, P.HoldsPageSet args.processResources h ∧
      s'.procs (s.pageAt h 0 / pageSize) = some Q ∧
      (∀ j < args.mappingCount, (args.asked.request s P j).isSome) ∧
      (HoldsExactly Q.space (args.asked.requests s P) ↔
        ∀ m ∈ args.asked.requests s P, m.virtAddr < userVaEnd) := by
  obtain ⟨t, rfl, hinv, hpend⟩ := hrun.inv
  have hread : args.asked = args := by
    rw [CreateArgs.asked, ← hprivate.1]
  rw [hread]
  obtain ⟨h, Q, hres, hQ, hlaid, hsome, hgood⟩ := sysCreateProcess_laid hinv hpend hP hapart hcall
  exact ⟨h, Q, hres, hQ, hsome, hlaid.holdsExactly_iff hgood CreateArgs.requests_user⟩

/-- The call of `childRun`, in the state it is made in. -/
theorem created_space_exact_iff_child : ∃ s s' h Q P, Run smallBoot (fun s ev => ev.Apart s) s ∧
    s.procs 10 = some P ∧ sysCreateProcess 10 (some childArgs) s = .ok () s' ∧
    s'.procs (s.pageAt h 0 / pageSize) = some Q ∧
    HoldsExactly Q.space (childArgs.asked.requests s P) := by
  obtain ⟨s, hrun, P, hP, hapart, hprivate, hlow, s', hcall, -⟩ := Run.exists_of_events smallBoot
    (fun s ev => ev.Apart s) (childRun.take 4)
    (Q := fun s => ∃ P ∈ s.procs 10, childArgs.ScratchApart P ∧ childArgs.ScratchPrivate s P ∧
      (∀ m ∈ childArgs.asked.requests s P, m.virtAddr < userVaEnd) ∧
      ∃ s', sysCreateProcess 10 (some childArgs) s = .ok () s' ∧ (s'.procs 10).isSome)
    (by decide +kernel)
  obtain ⟨h, Q, -, hQ, -, hiff⟩ := created_space_exact_iff hrun hP hapart hprivate hcall
  exact ⟨s, s', h, Q, P, hrun, hP, hcall, hQ, hiff.mpr hlow⟩

/-- A process whose one page of program is asked for at 1 GiB + 4 MiB. -/
def highArgs : CreateArgs := { childArgs with written := fun i => [⟨0x40400000, 1, 0, 1#64⟩][i]? }

/-- That call is accepted.  The page is mapped at 4 MiB, which nobody asked for, and at
    the address that was asked for nothing is. -/
theorem high_address_mapped_elsewhere : ∃ s s' P Q, Run smallBoot (fun s ev => ev.Apart s) s ∧
    s.procs 10 = some P ∧ highArgs.ScratchApart P ∧
    sysCreateProcess 10 (some highArgs) s = .ok () s' ∧ s'.procs 100 = some Q ∧
    (highArgs.asked.requests s P).map (·.virtAddr) = [0x40400000, 0x800000] ∧
    Q.space.translate 0x40400000 = none ∧ (Q.space.translate 0x400000).isSome = true := by
  obtain ⟨s, hrun, P, hP, hapart, hreqs, s', hcall, Q, hQ, hnone, hsome⟩ :=
    Run.exists_of_events smallBoot
    (fun s ev => ev.Apart s) (childRun.take 4) (Q := fun s => ∃ P ∈ s.procs 10,
      highArgs.ScratchApart P ∧ (highArgs.asked.requests s P).map (·.virtAddr) = [0x40400000, 0x800000] ∧
      ∃ s', sysCreateProcess 10 (some highArgs) s = .ok () s' ∧ ∃ Q ∈ s'.procs 100,
        Q.space.translate 0x40400000 = none ∧ (Q.space.translate 0x400000).isSome = true)
      (by decide +kernel)
  exact ⟨s, s', P, Q, hrun, hP, hapart, hcall, hQ, hreqs, hnone, hsome⟩

end Lockjaw.Cap
