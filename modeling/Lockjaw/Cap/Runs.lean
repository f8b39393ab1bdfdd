/-
  Lockjaw.Cap.Runs

  Kernel code as runs of moves.

  `Runs R t m Q E C` says that `m`, started in the state of ledger `t`, only
  makes moves of the ledger and ends in `Q` when it returns, in `E` when it
  fails and in `C` when it stops the kernel.  The rules follow the code; since
  moves keep the invariant, every rule hands it on to the rest.

  The second half gives the primitives of the PageSet table, the header pool
  and the frame allocators one equation each.
-/

import Lockjaw.Cap.LedgerInv
import Lockjaw.Cap.CreateProcess

namespace Lockjaw.Cap

open Lib Lib.Fallible Cap.System List

/-! ## The rules -/

/-- `m` makes moves from `t` on, and ends as described. -/
def Runs {ε α : Type} (R : MoveRule) (t : Ledger) (m : Fallible System ε Panic α)
    (Q : α → Ledger → Prop) (E : ε → Ledger → Prop) (C : Panic → Prop) : Prop :=
  (m t.sys).Sat (fun a s => ∃ t', t'.sys = s ∧ Moves R t t' ∧ Q a t')
    (fun e s => ∃ t', t'.sys = s ∧ Moves R t t' ∧ E e t') C

namespace Runs

variable {ε α β : Type} {R : MoveRule} {t t' : Ledger} {m : Fallible System ε Panic α}
  {Q : α → Ledger → Prop} {E : ε → Ledger → Prop} {C : Panic → Prop}

variable {a : α} {e : ε} {k : α → Fallible System ε Panic β} {Q' : β → Ledger → Prop}

theorem of_ok (heq : m t.sys = .ok a t'.sys) (hm : Moves R t t') (hQ : Q a t') :
    Runs R t m Q E C := by
  rw [Runs, heq]
  exact ⟨t', rfl, hm, hQ⟩

theorem of_err (heq : m t.sys = .err e t'.sys) (hm : Moves R t t') (hE : E e t') :
    Runs R t m Q E C := by
  rw [Runs, heq]
  exact ⟨t', rfl, hm, hE⟩

theorem of_stop {p : Panic} (heq : m t.sys = .stop p) (hC : C p) : Runs R t m Q E C := by
  rw [Runs, heq]
  exact hC

theorem pure (hQ : Q a t) : Runs R t (Pure.pure a) Q E C := of_ok rfl .refl hQ

theorem fail (hE : E e t) : Runs R t (Fallible.fail e) Q E C := of_err rfl .refl hE

theorem mono {Q' : α → Ledger → Prop} {E' : ε → Ledger → Prop} {C' : Panic → Prop}
    (h : Runs R t m Q E C) (hQ : ∀ a t', Moves R t t' → Q a t' → Q' a t')
    (hE : ∀ e t', Moves R t t' → E e t' → E' e t') (hC : ∀ p, C p → C' p) : Runs R t m Q' E' C' :=
  Outcome.Sat.mono h (fun a _ ⟨t', hs, hm, hq⟩ => ⟨t', hs, hm, hQ a t' hm hq⟩)
    (fun e _ ⟨t', hs, hm, he⟩ => ⟨t', hs, hm, hE e t' hm he⟩) hC

/-- Sequencing.  The rest starts where the first part ended, in a state that keeps the invariant. -/
theorem bind (hinv : Inv t) (h : Runs R t m (fun a t' => Inv t' → Runs R t' (k a) Q' E C) E C) :
    Runs R t (m >>= k) Q' E C := by
  apply bind_sat
  refine Outcome.Sat.mono h ?_ (fun e s he => he) (fun p hp => hp)
  rintro a _ ⟨t', rfl, hm, hk⟩
  refine Outcome.Sat.mono (hk (hm.inv hinv)) ?_ ?_ (fun p hp => hp)
  · rintro b s ⟨t'', hs, hm', hq⟩
    exact ⟨t'', hs, hm.trans hm', hq⟩
  · rintro e s ⟨t'', hs, hm', he⟩
    exact ⟨t'', hs, hm.trans hm', he⟩

/-- A first part with a known return. -/
theorem bind_ok
    (heq : m t.sys = .ok a t.sys) (h : Runs R t (k a) Q' E C) : Runs R t (m >>= k) Q' E C := by
  rw [Runs, bind_apply, heq]
  exact h

/-- A first part that fails without effect. -/
theorem bind_err (heq : m t.sys = .err e t.sys) (h : E e t) : Runs R t (m >>= k) Q' E C := by
  refine of_err (e := e) ?_ .refl h
  rw [bind_apply, heq, andThen_err]

/-- A first part with a known return that made moves. -/
theorem bind_moves (heq : m t.sys = .ok a t'.sys) (hm : Moves R t t') (h : Runs R t' (k a) Q' E C) :
    Runs R t (m >>= k) Q' E C := by
  rw [Runs, bind_apply, heq]
  refine Outcome.Sat.mono h ?_ ?_ (fun p hp => hp)
  · rintro b s ⟨t'', hs, hm', hq⟩
    exact ⟨t'', hs, hm.trans hm', hq⟩
  · rintro e s ⟨t'', hs, hm', he⟩
    exact ⟨t'', hs, hm.trans hm', he⟩

variable {k : β → Fallible System ε Panic α}

theorem bind_read {f : System → β}
    (h : Runs R t (k (f t.sys)) Q E C) : Runs R t (read f >>= k) Q E C := bind_ok rfl h

theorem bind_orFail {o : Option β}
    (hsome : ∀ b, o = some b → Runs R t (k b) Q E C) (hnone : o = none → E e t) :
    Runs R t (orFail o e >>= k) Q E C := by
  cases o with
  | some b => exact hsome b rfl
  | none => exact of_err rfl .refl (hnone rfl)

theorem bind_ofExcept {x : Except ε β}
    (hok : ∀ b, x = .ok b → Runs R t (k b) Q E C) (herr : ∀ e, x = .error e → E e t) :
    Runs R t (ofExcept x >>= k) Q E C := by
  cases x with
  | ok b => exact hok b rfl
  | error e => exact of_err rfl .refl (herr e rfl)

end Runs

/-! ## Frames nobody lives in -/

/-- No object the kernel reads lives in frame `f`. -/
structure System.Inert (s : System) (f : Frame) : Prop where
  proc : s.procs f = none
  procs : ∀ p P, s.procs p = some P → P.overwrite f = P
  threads : ∀ c, some c ∈ s.threads → Tcb.overwrite f c = c
  object : s.objects f = none

variable {f : Frame}

theorem System.Inert.overwrite_eq {s : System} (h : s.Inert f) : s.overwrite f = s := by
  have hprocs : (fun p => if p = f then none else (s.procs p).map (Process.overwrite f))
      = s.procs := by
    funext p
    by_cases hp : p = f
    · rw [if_pos hp, hp, h.proc]
    · rw [if_neg hp]
      cases hP : s.procs p with
      | none => rfl
      | some P => rw [Option.map_some, h.procs p P hP]
  have hthreads : s.threads.map (Option.map (Tcb.overwrite f)) = s.threads := by
    have hid : ∀ o ∈ s.threads, Option.map (Tcb.overwrite f) o = id o := by
      intro o ho
      cases o with
      | none => rfl
      | some c => rw [Option.map_some, h.threads c ho, id_eq]
    rw [map_congr_left hid, map_id]
  have hobjects : (fun g => if g = f then none else s.objects g) = s.objects := by
    funext g
    by_cases hg : g = f
    · rw [if_pos hg, hg, h.object]
    · rw [if_neg hg]
  unfold overwrite
  rw [hprocs, hthreads, hobjects]

theorem System.overwriteAll_eq {s : System} {fs : List Frame} (h : ∀ f ∈ fs, s.Inert f) :
    s.overwriteAll fs = s := by
  unfold overwriteAll
  induction fs with
  | nil => rfl
  | cons f fs ih =>
    rw [foldl_cons, (h f mem_cons_self).overwrite_eq]
    exact ih fun g hg => h g (mem_cons_of_mem _ hg)

/-- Owners whose frames hold nothing the kernel reads. -/
def Owner.plain : Owner → Bool
  | .process _ | .handleTable _ | .table _ | .tcb _ | .object => false
  | _ => true

/-- A frame with a plain owner can be written without harm. -/
theorem Owns.inert {t : Ledger} (ho : Owns t) (hf : (t.owner f).plain = true) : t.sys.Inert f := by
  have hne : ∀ o, o.plain = false → t.owner f ≠ o := by
    rintro o hp rfl
    rw [hf] at hp
    cases hp
  constructor
  · cases hP : t.sys.procs f with
    | none => rfl
    | some P => exact absurd (ho.procs f P hP).process (hne _ rfl)
  · intro p P hP
    have hown := ho.procs p P hP
    have htab : f ∉ P.space.tableFrames := fun hm => hne _ rfl (hown.tables f hm)
    have hht : P.handleTable ≠ f := fun heq => hne _ rfl (heq ▸ hown.handleTable)
    unfold Process.overwrite
    rw [AddressSpace.overwrite_of_not_mem htab, if_neg hht]
  · intro c hc
    obtain ⟨i, hi⟩ := getElem?_of_mem hc
    have : c.frame ≠ f := fun heq => hne _ rfl (heq ▸ ho.tcb i c hi)
    rw [Tcb.overwrite, if_neg this]
  · cases hob : t.sys.objects f with
    | none => rfl
    | some o => exact absurd (ho.objects f (by rw [hob]; rfl)) (hne _ rfl)

/-! ## The primitives -/

section Primitives

variable {s : System} {h : HeaderKva} {n : Nat} {pick : List Frame}

theorem claim_cases (n : Nat) (s : System) :
    claim n s = .ok none s ∨ ∃ h, s.used h = false ∧
      claim n s = .ok (some h) ((s.setUsed h true).setHeader h .zeroed) := by
  unfold claim
  split
  · exact Or.inl rfl
  · simp only [bind_apply, read_apply, andThen_ok]
    cases hf : s.freeHeader with
    | none => exact Or.inl rfl
    | some h =>
      refine Or.inr ⟨h, ?_, rfl⟩
      have := find?_some hf
      simpa using this

theorem release_apply (hu : s.used h = true) : release h s = .ok () (s.setUsed h false) := by
  simp [release, hu]

theorem takeFrames_cases (n : Nat) (pick : List Frame) (s : System) :
    takeFrames n pick s = .ok none s ∨
      pick.length = n ∧ pick.Nodup ∧ (∀ f ∈ pick, s.free f = true) ∧
        takeFrames n pick s = .ok (some pick) (s.setFree pick false) := by
  unfold takeFrames
  simp only [bind_apply, read_apply, andThen_ok, id_eq]
  split
  · next hc => exact Or.inr ⟨hc.1, hc.2.1, hc.2.2, rfl⟩
  · exact Or.inl rfl

theorem takeDmaFrames_cases (pick : List Frame) (s : System) :
    takeDmaFrames pick s = .ok none s ∨
      pick.Nodup ∧ (∀ f ∈ pick, s.dmaFree f = true) ∧
        takeDmaFrames pick s = .ok (some pick) (s.setDmaFree pick false) := by
  unfold takeDmaFrames
  simp only [bind_apply, read_apply, andThen_ok, id_eq]
  split
  · next hc => exact Or.inr ⟨hc.1, hc.2, rfl⟩
  · exact Or.inl rfl

/-- Frames that are allocated, each once, all go back. -/
theorem deallocPages_apply (fs : List Frame) :
    ∀ (s : System), fs.Nodup → (∀ f ∈ fs, s.free f = false) →
      forEach deallocPage fs s = .ok () (s.setFree fs true) := by
  induction fs with
  | nil =>
    intro s _ _
    simp [forEach, setFree]
  | cons f fs ih =>
    intro s hnd hfree
    rw [nodup_cons] at hnd
    have hf : s.free f = false := hfree f mem_cons_self
    have hrest : ∀ g ∈ fs, (s.setFree [f] true).free g = false := by
      intro g hg
      have hgf : g ≠ f := fun heq => hnd.1 (heq ▸ hg)
      rw [free_setFree, if_neg (by simpa using hgf)]
      exact hfree g (mem_cons_of_mem _ hg)
    have hstep : deallocPage f s = .ok () (s.setFree [f] true) := by simp [deallocPage, hf]
    rw [forEach, bind_apply, hstep, andThen_ok, ih _ hnd.2 hrest]
    congr 1
    unfold setFree
    grind

theorem dmaFreePages_apply (fs : List Frame) :
    ∀ (s : System), fs.Nodup → (∀ f ∈ fs, s.dmaFree f = false) →
      forEach dmaFreePage fs s = .ok () (s.setDmaFree fs true) := by
  induction fs with
  | nil =>
    intro s _ _
    simp [forEach, setDmaFree]
  | cons f fs ih =>
    intro s hnd hfree
    rw [nodup_cons] at hnd
    have hf : s.dmaFree f = false := hfree f mem_cons_self
    have hrest : ∀ g ∈ fs, (s.setDmaFree [f] true).dmaFree g = false := by
      intro g hg
      have hgf : g ≠ f := fun heq => hnd.1 (heq ▸ hg)
      rw [dmaFree_setDmaFree, if_neg (by simpa using hgf)]
      exact hfree g (mem_cons_of_mem _ hg)
    have hstep : dmaFreePage f s = .ok () (s.setDmaFree [f] true) := by simp [dmaFreePage, hf]
    rw [forEach, bind_apply, hstep, andThen_ok, ih _ hnd.2 hrest]
    congr 1
    unfold setDmaFree
    grind

theorem insertIntoTable_cases (count : Nat) (h : HeaderKva) (origin : PageSetOrigin) (s : System) :
    insertIntoTable count h origin s = .ok none s ∨
      ∃ id ent, s.table id = none ∧ ent.count = count ∧ ent.headerKva = h ∧
        ent.origin = origin ∧
        insertIntoTable count h origin s = .ok (some id) (s.setEntry id (some ent)) := by
  unfold insertIntoTable
  split
  · next hc =>
    simp only [bind_apply, read_apply, andThen_ok, id_eq]
    cases hf : (finRange maxPagesets).find? fun id => (s.table id).isNone with
    | none => exact Or.inl rfl
    | some id =>
      have := find?_some hf
      exact Or.inr ⟨id, ⟨count, h, origin, hc.1, hc.2⟩, by simpa using this, rfl, rfl, rfl, rfl⟩
  · exact Or.inl rfl

end Primitives

end Lockjaw.Cap
