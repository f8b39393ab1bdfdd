/-
  Lockjaw.Cap.MoveEffects

  What a move does to one entry of the PageSet table, to the data of a
  registered PageSet, to the owner of a frame and to one process.  The
  properties of whole runs are proved over these cases, not over the moves.
-/

import Lockjaw.Cap.LedgerInv

namespace Lockjaw.Cap

/-! ## The PageSet table along a run -/

section Table

variable {R : MoveRule} {t t' : Ledger} {id : Fin maxPagesets} {ent : PageSetEntry}

/-- How one move changes a slot of the PageSet table. -/
theorem Move.table_cases (hm : Move R t t') (id : Fin maxPagesets) :
    t'.sys.table id = t.sys.table id ∨ (t.sys.table id = none ∧ R.register id) ∨
      (t'.sys.table id = none ∧ R.unregister id) := by
  cases hm with
  | register id' ent' pages hid hu hdata hdev hrun hR =>
    by_cases heq : id = id'
    · exact .inr (.inl ⟨heq ▸ hid, heq ▸ hR⟩)
    · exact .inl (if_neg heq)
  | unregister hent hr hm hR =>
    rename_i id' ent'
    by_cases heq : id = id'
    · exact .inr (.inr ⟨if_pos heq, heq ▸ hR⟩)
    · exact .inl (if_neg heq)
  | revoke hent hpend hrev =>
    obtain ⟨procs, headers, rfl⟩ := hrev.revoked.frame
    exact .inl rfl
  | frames | slot | map | unmap | object | header | thread | spawn | reap | reapLast
  | dropPending => exact .inl rfl

/-- Without a rule for new PageSets, the table only loses entries. -/
theorem Moves.table_back (hm : Moves R t t') (hR : ∀ id, ¬ R.register id)
    (h : t'.sys.table id = some ent) : t.sys.table id = some ent := by
  induction hm with
  | refl => exact h
  | tail _ hmove ih => grind [hmove.table_cases]

/-- An entry the rule protects stays. -/
theorem Moves.table_keep (hm : Moves R t t') (hR : ¬ R.unregister id)
    (h : t.sys.table id = some ent) : t'.sys.table id = some ent := by
  induction hm with
  | refl => exact h
  | tail _ hmove ih => grind [hmove.table_cases]

/-- The pages of a PageSet stay the same while it is registered. -/
theorem Move.pages_keep (hinv : Inv t) (hm : Move R t t') (h : t.sys.table id = some ent) :
    (t'.sys.headers ent.headerKva).pages = (t.sys.headers ent.headerKva).pages := by
  have hu := hinv.table.used id ent h
  have hne : ∀ {k : HeaderKva}, t.sys.used k = false → ent.headerKva ≠ k := by
    rintro k hk rfl
    rw [hu] at hk
    cases hk
  cases hm with
  | header h' hdr hu' =>
    show (if ent.headerKva = h' then hdr else t.sys.headers ent.headerKva).pages = _
    rw [if_neg (hne hu')]
  | register id' ent' pages hid hu' hdata hdev hrun hR =>
    show (if ent.headerKva = ent'.headerKva then _ else t.sys.headers ent.headerKva).pages = _
    rw [if_neg (hne hu')]
  | revoke hent hpend hrev => grind [hrev.revoked.header, hrev.revoked.otherHeader]
  | frames | slot | map | unmap | object | unregister | thread | spawn | reap | reapLast
  | dropPending => rfl

/-- A PageSet that is still there after an event has kept its pages. -/
theorem Moves.pages_keep (hm : Moves R t t') (hinv : Inv t)
    (hR : (∀ id, ¬ R.register id) ∨ ¬ R.unregister id) (h : t.sys.table id = some ent)
    (h' : t'.sys.table id = some ent) :
    (t'.sys.headers ent.headerKva).pages = (t.sys.headers ent.headerKva).pages := by
  induction hm with
  | refl => rfl
  | tail hmoves hmove ih =>
    have hmid := hR.elim (fun hreg => hmove.one.table_back hreg h') fun hun =>
      hmoves.table_keep hun h
    rw [hmove.pages_keep (hmoves.inv hinv) hmid, ih hmid]

/-- A PageSet that a slot of a process names stays registered. -/
theorem Move.entry_keep (hinv : Inv t) (hm : Move R t t') (h : t.sys.table id = some ent)
    {q : ProcKva} {Q : Process} (hQ : t.sys.procs q = some Q) {e : HandleEntry}
    (he : e ∈ Q.handles) (hn : e.names ent.headerKva = true) : t'.sys.table id = some ent := by
  rcases hm.table_cases id with heq | ⟨hnone, -⟩ | ⟨hnone, -⟩
  · rw [heq, h]
  · rw [h] at hnone
    cases hnone
  · cases hm with
    | unregister hent hr hm hR =>
      rename_i id' ent'
      by_cases heq : id = id'
      · grind [hinv.not_named]
      · exact (if_neg heq).trans h
    | register id' ent' pages hid hu' hdata hdev hrun hR =>
      by_cases heq : id = id'
      · rw [heq, hid] at h
        cases h
      · exact (if_neg heq).trans h
    | revoke hent hpend hrev =>
      obtain ⟨procs, headers, rfl⟩ := hrev.revoked.frame
      exact h
    | frames | slot | map | unmap | object | header | thread | spawn | reap | reapLast
    | dropPending => exact h

end Table

/-! ## One process -/

/-- What a move did to process `q`, which is `Q'` now. -/
inductive ProcMove (R : MoveRule) (t : Ledger) (q : ProcKva) (Q' : Process) : Prop where
  /-- Its slots and its pages are as before. -/
  | same {Q : Process} (hQ : t.sys.procs q = some Q) (hhandles : Q'.handles = Q.handles)
      (hspace : Q'.space = Q.space) (howned : Q'.ownedPages = Q.ownedPages)
  /-- A slot without a mapping was emptied, or an empty one filled. -/
  | slot {Q : Process} {i : Nat} {e e' : HandleEntry} (hQ : t.sys.procs q = some Q)
      (hi : Q.handles[i]? = some e) (hm : ∀ h, e.maps h = false) (hm' : ∀ h, e'.maps h = false)
      (hR : e' = .EMPTY ∨ e.kind = .empty ∧ R.insert q e')
      (heq : Q' = { Q with handles := Q.handles.set i e' })
  /-- The PageSet of a slot was mapped. -/
  | map {Q : Process} {i : Nat} {r : Rights} {va : VaPage} {id : Fin maxPagesets}
      {ent : PageSetEntry} {attr : MapMemoryAttribute} {fs : List Frame} {space : AddressSpace}
      (hQ : t.sys.procs q = some Q) (hi : Q.handles[i]? = some ⟨r, .pageSet ent.headerKva 0#32⟩)
      (hva : va ≠ 0#32) (hent : t.sys.table id = some ent)
      (hspec : AddressSpace.MapSpec (t.sys.dataPages ent.headerKva ent.count) attr va.toNat 0
        ent.count fs Q.space space)
      (hR : R.map t.sys q va.toNat ent.count)
      (heq : Q' = { Q with handles := Q.handles.set i ⟨r, .pageSet ent.headerKva va⟩, space })
  /-- The recorded range of a slot was cleared. -/
  | unmap {Q : Process} {i : Nat} {r : Rights} {va : VaPage} {id : Fin maxPagesets}
      {ent : PageSetEntry} {space : AddressSpace} (hQ : t.sys.procs q = some Q)
      (hi : Q.handles[i]? = some ⟨r, .pageSet ent.headerKva va⟩) (hva : va ≠ 0#32)
      (hent : t.sys.table id = some ent)
      (herased : AddressSpace.Erased Q.space space va.toNat ent.count)
      (heq : Q' = { Q with handles := Q.handles.set i ⟨r, .pageSet ent.headerKva 0#32⟩, space })
  /-- The handles to a header were revoked. -/
  | revoke {Q : Process} {id : Fin maxPagesets} {ent : PageSetEntry} {space : AddressSpace}
      (hQ : t.sys.procs q = some Q) (hent : t.sys.table id = some ent)
      (herased : ErasedAll Q.space space ent.count (rangesOf ent.headerKva Q.handles))
      (heq : Q' = { Q with handles := eraseHeader ent.headerKva Q.handles, space })
  /-- It is new. -/
  | spawn (hq : t.sys.procs q = none) (hno : ∀ e ∈ Q'.handles, e.kind.isPageset = false)
      (hmaps : MapsOwned Q') (hR : ∀ e ∈ Q'.handles, e.kind ≠ .empty → R.insert q e)

variable {q : ProcKva} {Q' : Process} {R : MoveRule}

theorem ProcMove.refl {t : Ledger} {Q : Process}
    (hQ : t.sys.procs q = some Q) : ProcMove R t q Q := .same hQ rfl rfl rfl

/-- A move that writes process `p` only. -/
theorem procMove_setProc {t : Ledger} {p : ProcKva} {P : Process}
    (hQ' : (if q = p then some P else t.sys.procs q) = some Q') (hp : ProcMove R t p P) :
    ProcMove R t q Q' := by
  by_cases hq : q = p
  · rw [if_pos hq, Option.some.injEq] at hQ'
    subst hq hQ'
    exact hp
  · rw [if_neg hq] at hQ'
    exact .refl hQ'

theorem Move.proc {t t' : Ledger} (hm : Move R t t') (hth : ThreadsOk t.sys)
    (hQ' : t'.sys.procs q = some Q') : ProcMove R t q Q' := by
  cases hm with
  | slot e' hP hi hm hm' hok hR => exact procMove_setProc hQ' (.slot hP hi hm hm' hR rfl)
  | map hP hi hva hent hh hle hspec hloose hnodup hR =>
    subst hh
    exact procMove_setProc hQ' (.map hP hi hva hent hspec hR rfl)
  | unmap hP hi hva hent hh hmap herased =>
    subst hh
    exact procMove_setProc hQ' (.unmap hP hi hva hent herased rfl)
  | revoke hent hpend hrev =>
    obtain ⟨Q, sp, hQ, rfl, her⟩ := hrev.proc hth hQ'
    exact .revoke hQ hent her rfl
  | thread hP hi htcb hstack hne => exact procMove_setProc hQ' (.same hP rfl rfl rfl)
  | spawn hp hi hloose hnodup haligned hcount hslots hno hmaps hR =>
    exact procMove_setProc hQ' (.spawn hp hno hmaps hR)
  | reap hi hc hP hcount => exact procMove_setProc hQ' (.same hP rfl rfl rfl)
  | reapLast hi hc hP hcount hpend =>
    rw [System.procs_dropProc] at hQ'
    split at hQ'
    · cases hQ'
    · exact .refl hQ'
  | frames | object | header | register | unregister | dropPending => exact .refl hQ'

/-! ## Owners that never change -/

/-- Frames outside the allocators and those loaded at boot keep their owner. -/
theorem Move.owner_keep {t t' : Ledger} (hm : Move R t t') {f : Frame}
    (hf : t.owner f = .other ∨ ∃ p, t.owner f = .boot p) : t'.owner f = t.owner f := by
  have hloose : t.owner f ≠ .loose := by
    rcases hf with hf | ⟨p, hf⟩ <;> rw [hf] <;> nofun
  cases hm with
  | frames free dma kvm owner howner hfree hdma =>
    refine (howner f).resolve_right fun h => ?_
    rcases hf with hf | ⟨p, hf⟩ <;> rw [hf] at h <;> simp [Owner.Spare] at h
  | map hP hi hva hent hh hle hspec hfs hnodup hR => exact if_neg fun hmem => hloose (hfs f hmem)
  | object g o hown hgood => grind
  | register id ent pages hid hu hdata hdev hrun hR =>
    refine if_neg ?_
    rintro ⟨horg, i, hi, rfl⟩
    exact hloose ((hdata horg).owned i hi)
  | unregister hent hr hm hR =>
    refine if_neg fun h => ?_
    rcases hf with hf | ⟨p, hf⟩ <;> rw [hf] at h <;> cases h
  | thread hP hi htcb hstack hne => grind
  | spawn hp hi hfs hnodup haligned hcount hslots hno hmaps hR =>
    exact if_neg fun hmem => hloose (hfs f hmem)
  | reap hi hc hP hcount | reapLast hi hc hP hcount hpend =>
    refine if_neg fun h => ?_
    rcases hf with hf | ⟨p, hf⟩ <;> rw [hf] at h <;> simp at h
  | slot | unmap | header | revoke | dropPending => rfl

end Lockjaw.Cap
