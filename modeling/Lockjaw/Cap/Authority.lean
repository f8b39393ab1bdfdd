/-
  Lockjaw.Cap.Authority

  Where the handles of a process come from.

  The device tree is remembered by its slot in the PageSet table.  The slot is
  the boot PageSet's for as long as somebody keeps a handle to it; once the
  last one is closed, the slot goes to the next PageSet that is allocated, and
  `sys_get_boot_info` hands that one out.
-/

import Lockjaw.Cap.Accounting

namespace Lockjaw.Cap

open Lib

/-! ## Where a slot comes from -/

section Slots

variable {R : MoveRule} {t t' : Ledger} {q : ProcKva} {Q' : Process} {e' : HandleEntry}

/-- The object and the rights of a slot, without the address it is mapped at. -/
def HandleEntry.authority (e : HandleEntry) : Rights × HandleKind := (e.rights, e.kind.unmapped)

/-- The authority of `e'` was given to process `q` under the rule, or is one it has in `s`. -/
def MoveRule.Entitles (R : MoveRule) (s : System) (q : ProcKva) (e' : HandleEntry) : Prop :=
  ∃ e, (R.insert q e ∨ ∃ Q, s.procs q = some Q ∧ e ∈ Q.handles) ∧ e.authority = e'.authority

theorem ProcMove.entitles (h : ProcMove R t q Q') (he : e' ∈ Q'.handles)
    (hne : e'.kind ≠ .empty) : R.Entitles t.sys q e' := by
  cases h with
  | same hQ hhandles => exact ⟨e', .inr ⟨_, hQ, hhandles ▸ he⟩, rfl⟩
  | slot hQ hi hm hm' hR heq =>
    subst heq
    rcases List.mem_or_eq_of_mem_set he with he | rfl
    · exact ⟨e', .inr ⟨_, hQ, he⟩, rfl⟩
    · exact ⟨e', .inl (hR.resolve_left fun h => hne (by rw [h]; rfl)).2, rfl⟩
  | map hQ hi _ _ _ _ heq | unmap hQ hi _ _ _ heq =>
    subst heq
    rcases List.mem_or_eq_of_mem_set he with he | rfl
    · exact ⟨e', .inr ⟨_, hQ, he⟩, rfl⟩
    · exact ⟨_, .inr ⟨_, hQ, List.mem_of_getElem? hi⟩, rfl⟩
  | revoke hQ hent herased heq =>
    subst heq
    rcases mem_eraseHeader he with rfl | ⟨he, -⟩
    · exact absurd rfl hne
    · exact ⟨e', .inr ⟨_, hQ, he⟩, rfl⟩
  | spawn hq hno hmaps hR => exact ⟨e', .inl (hR e' he hne), rfl⟩

theorem Moves.entitles (hm : Moves R t t') (hinv : Inv t) (hQ' : t'.sys.procs q = some Q')
    (he : e' ∈ Q'.handles) (hne : e'.kind ≠ .empty) : R.Entitles t.sys q e' := by
  induction hm generalizing Q' e' with
  | refl => exact ⟨e', .inr ⟨Q', hQ', he⟩, rfl⟩
  | tail hmoves hmove ih =>
    obtain ⟨e, hins | ⟨Q, hQ, hmem⟩, hauth⟩ :=
      (hmove.proc (hmoves.inv hinv).threads hQ').entitles he hne
    · exact ⟨e, .inl hins, hauth⟩
    · have hkind : e.kind ≠ .empty := fun h => by
        cases hk : e'.kind <;> simp_all [HandleEntry.authority, HandleKind.unmapped]
      obtain ⟨e₀, h, hauth₀⟩ := ih hQ hmem hkind
      exact ⟨e₀, h, hauth₀.trans hauth⟩

end Slots

/-- In every run, a handle that a process has after an event is one it had before, perhaps with
    another mapping, or one the rule of the event gives it. -/
theorem run_authority_confined {b : BootConfig} {s s' : System}
    (hrun : Run b (fun s ev => ev.Apart s) s) {ev : Event} (henabled : ev.Enabled s)
    (hapart : ev.Apart s) (hnext : ev.next s = some s') {q : ProcKva} {Q' : Process}
    (hQ' : s'.procs q = some Q') {e' : HandleEntry} (he : e' ∈ Q'.handles)
    (hne : e'.kind ≠ .empty) : (ev.rule s).Entitles s q e' := by
  obtain ⟨t, rfl, hinv, hpend⟩ := hrun.inv
  obtain ⟨t', rfl, hmoves, -⟩ := Event.next_moves hinv hpend henabled hapart hnext
  exact hmoves.entitles hinv hQ' he hne

/-- Init asks for the DTB right after boot. -/
theorem run_authority_confined_boot : ∃ e : HandleEntry, e.kind ≠ .empty ∧
    (Event.rule smallBoot.system (.call 10 .getBootInfo)).Entitles smallBoot.system 10 e := by
  obtain ⟨s', hs', Q, hQ, e, he, hne⟩ : ∃ s' ∈ Event.next (.call 10 .getBootInfo) smallBoot.system,
    ∃ Q ∈ s'.procs 10, ∃ e ∈ Q.handles, e.kind ≠ .empty := by decide +kernel
  exact ⟨e, hne, run_authority_confined .boot (by decide +kernel) (by trivial) hs' hQ he hne⟩

/-! ## The device tree -/

section DeviceTree

variable {R : MoveRule} {t t' : Ledger} {b : BootConfig}

theorem Moves.dtbPagesetId (hm : Moves R t t') : t'.sys.dtbPagesetId = t.sys.dtbPagesetId := by
  induction hm with
  | refl => rfl
  | tail _ hmove ih =>
    rw [← ih]
    cases hmove with
    | revoke hent hpend hrev =>
      obtain ⟨procs, headers, rfl⟩ := hrev.revoked.frame
      rfl
    | _ => rfl

/-- The slot remembered for the DTB holds the PageSet registered at boot. -/
structure DtbKept (b : BootConfig) (s : System) : Prop where
  slot : s.dtbPagesetId = b.dtbId
  entry : s.table b.dtbId = some b.dtbEntry
  pages : (s.headers b.dtbHeader).pages = fun i => (b.dtbFirst + i) * pageSize

theorem dtbKept_boot : DtbKept b b.system where
  slot := rfl
  entry := if_pos rfl
  pages := by
    show (if b.dtbHeader = b.dtbHeader then _ else _ : PageSetHeader).pages = _
    rw [if_pos rfl]

/-- The event does not take the last handle to the DTB. -/
def Event.KeepsDtb (b : BootConfig) (s : System) (ev : Event) : Prop :=
  0 < s.refs b.dtbHeader → ∀ s', ev.next s = some s' → 0 < s'.refs b.dtbHeader

/-- An event that lets the DTB go takes its last handle: before the first
    handle is made nothing can name it. -/
theorem DtbKept.step (hkept : DtbKept b t.sys) (hinv : Inv t) (hpend : t.pending = []) {ev : Event}
    (hmoves : Moves (ev.rule t.sys) t t') (hset : Settled t t')
    (hlast : 0 < t.sys.refs b.dtbHeader → 0 < t'.sys.refs b.dtbHeader) : DtbKept b t'.sys := by
  have hentry : t'.sys.table b.dtbId = some b.dtbEntry := by
    by_cases hun : (ev.rule t.sys).unregister b.dtbId
    · refine (hinv.registered_iff_refs hpend hmoves hset hkept.entry ?_).mpr (hlast ?_) <;>
        exact ev.unregister_refs hinv hpend hkept.entry hun
    · exact hmoves.table_keep hun hkept.entry
  have hR := (Event.register_or_keep ev t.sys).imp_right fun hkeep => hkeep _ _ hkept.entry
  exact ⟨hmoves.dtbPagesetId.trans hkept.slot, hentry,
    (hmoves.pages_keep hinv hR hkept.entry hentry).trans hkept.pages⟩

end DeviceTree

/-- As long as the DTB keeps a handle once it has one, `sys_get_boot_info` fails without effect or
    fills one empty slot of its caller with a handle to the PageSet registered at boot. -/
theorem getBootInfo_dtb {b : BootConfig} {s : System}
    (hrun : Run b (fun s ev => ev.Apart s ∧ ev.KeepsDtb b s) s) {p : ProcKva}
    (hp : p ∈ s.uniqueProcesses) :
    (∀ e s', sysGetBootInfo p s = .err e s' → s' = s) ∧
    ∀ handle s', sysGetBootInfo p s = .ok handle s' →
      DtbKept b s' ∧ ∃ P e, s.procs p = some P ∧ P.handles[handle]? = some e ∧ e.kind = .empty ∧
        s'.procs p = some { P with
          handles := P.handles.set handle ⟨Rights.readWrite, .pageSet b.dtbHeader 0#32⟩ } ∧
        ∀ q, q ≠ p → s'.procs q = s.procs q := by
  obtain ⟨t, rfl, hinv, hpend, hkept⟩ := hrun.induct (J := fun t => DtbKept b t.sys)
    (fun _ _ h => h.1) dtbKept_boot fun t t' ev hinv hpend hJ _ hG hmoves hset hnext =>
      hJ.step hinv hpend hmoves hset fun hpos => hG.2 hpos t'.sys hnext
  obtain ⟨P, hP⟩ := hinv.live hp
  have hentry : t.sys.table t.sys.dtbPagesetId = some b.dtbEntry := by
    rw [hkept.slot]
    exact hkept.entry
  rcases insertHandle_cases hP Rights.readWrite (.pageSet b.dtbEntry.headerKva 0#32) with
    hfull | ⟨i, e, hi, he, hins⟩
  · simp only [sysGetBootInfo, bind_apply, read_apply, andThen_ok, hentry, orFail_some_apply,
      hfull, fail_apply]
    exact ⟨fun e s' heq => by cases heq; rfl, fun handle s' heq => by cases heq⟩
  · simp only [sysGetBootInfo, bind_apply, read_apply, andThen_ok, hentry, orFail_some_apply,
      hins, incRefcount]
    split
    · exact ⟨fun e s' heq => (by cases heq), fun handle s' heq => (by cases heq)⟩
    · simp only [modify_apply, andThen_ok, pure_apply]
      refine ⟨fun e s' heq => (by cases heq), fun handle s' heq => ?_⟩
      cases heq
      have hheader : b.dtbEntry.headerKva = b.dtbHeader := rfl
      refine ⟨⟨hkept.slot, hkept.entry, ?_⟩, P, e, hP, hi, he, if_pos rfl, fun q hq => if_neg hq⟩
      rw [hheader]
      simpa using hkept.pages

instance (b : BootConfig) (s : System) (ev : Event) : Decidable (ev.KeepsDtb b s) :=
  inferInstanceAs (Decidable (0 < s.refs b.dtbHeader → ∀ s' ∈ ev.next s, 0 < s'.refs b.dtbHeader))

/-- Init has the DTB open, its child allocates a page, and init asks again. -/
theorem getBootInfo_dtb_open : ∃ s s',
    Run smallBoot (fun s ev => ev.Apart s ∧ ev.KeepsDtb smallBoot s) s ∧
      (s.table 1).isSome = true ∧ sysGetBootInfo 10 s = .ok 1 s' ∧ DtbKept smallBoot s' := by
  obtain ⟨s, hrun, htable, hlive, s', hres, -⟩ := Run.exists_of_events smallBoot
    (fun s ev => ev.Apart s ∧ ev.KeepsDtb smallBoot s)
    (childRun ++ [.call 10 .getBootInfo, .call 100 (.allocPages 1 0#64 [200] none)])
    (Q := fun s => (s.table 1).isSome = true ∧ 10 ∈ s.uniqueProcesses ∧
      ∃ s', sysGetBootInfo 10 s = .ok 1 s' ∧ (s'.procs 10).isSome) (by decide +kernel)
  exact ⟨s, s', hrun, htable, hres, ((getBootInfo_dtb hrun hlive).2 1 s' hres).1⟩

/-- Init opens the DTB and closes it again, and its child allocates a page. -/
def dtbRun : List Event :=
  childRun ++ [.call 10 .getBootInfo, .call 10 (.closeHandle 0),
    .call 100 (.allocPages 1 0#64 [200] none)]

/-- After that run `sys_get_boot_info` gives init a handle to its child's page. -/
theorem getBootInfo_gives_child_page : ∃ s, Run smallBoot (fun s ev => ev.Apart s) s ∧
    ∃ s', Event.next (.call 10 .getBootInfo) s = some s' ∧ ∃ P C,
      s'.procs 10 = some P ∧ P.handles[0]? = some ⟨Rights.readWrite, .pageSet 0 0#32⟩ ∧
      s'.procs 100 = some C ∧ C.handles[0]? = some ⟨Rights.readWrite, .pageSet 0 0#32⟩ ∧
      (s'.headers 0).pages 0 = 200 * pageSize := by
  obtain ⟨s, hrun, s', hs', P, hP, hslot, C, hC, hrest⟩ := Run.exists_of_events smallBoot
    (fun s ev => ev.Apart s) dtbRun
    (Q := fun s => ∃ s' ∈ Event.next (.call 10 .getBootInfo) s,
      ∃ P ∈ s'.procs 10, P.handles[0]? = some ⟨Rights.readWrite, .pageSet 0 0#32⟩ ∧
      ∃ C ∈ s'.procs 100, C.handles[0]? = some ⟨Rights.readWrite, .pageSet 0 0#32⟩ ∧
        (s'.headers 0).pages 0 = 200 * pageSize) (by decide +kernel)
  exact ⟨s, hrun, s', hs', P, C, hP, hslot, hC, hrest⟩

end Lockjaw.Cap
