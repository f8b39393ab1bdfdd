/-
  Lockjaw.Cap.Mappings

  The page tables of the processes and the mappings their handle slots record,
  over whole runs.

  Every entry of a page table is there for a reason: it names a page of the
  process, a page of a PageSet that one of its slots records at that address,
  or, for init, a page loaded at boot.  So no process reaches memory of the
  kernel or of the allocators.  The other direction, that the table holds what
  the slots record, needs that no mapping is made over another one.
-/

import Lockjaw.Cap.Authority

namespace Lockjaw.Cap

open Option
open AddressSpace (vaPages)

/-! ## Recorded mappings -/

/-- Slot `i` of `Q` records that `ent` is mapped at page `v`. -/
structure Records (s : System) (Q : Process) (i v : Nat) (ent : PageSetEntry) : Prop where
  registered : ∃ id, s.table id = some ent
  slot : ∃ r va, Q.handles[i]? = some ⟨r, .pageSet ent.headerKva va⟩ ∧ va ≠ 0#32 ∧ va.toNat = v

section Records

variable {R : MoveRule} {t t' : Ledger} {q : ProcKva} {Q Q' : Process} {i v : Nat}
  {ent : PageSetEntry}

theorem Records.forth (hinv : Inv t) (hm : Move R t t') (hQ : t.sys.procs q = some Q)
    (hrec : Records t.sys Q i v ent) (hslot : Q'.handles[i]? = Q.handles[i]?) :
    Records t'.sys Q' i v ent := by
  obtain ⟨⟨id, hid⟩, r, va, hi, hva⟩ := hrec
  exact ⟨⟨id, hm.entry_keep hinv hid hQ (List.mem_of_getElem? hi) (by simp)⟩, r, va,
    hslot.trans hi, hva⟩

/-- A slot that records a mapping is not one of the unmapped ones. -/
theorem Records.maps {s : System} (h : Records s Q i v ent) {e : HandleEntry}
    (hi : Q.handles[i]? = some e) : e.maps ent.headerKva = true := by
  obtain ⟨r, va, hslot, hva, -⟩ := h.slot
  rw [hslot, some.injEq] at hi
  subst hi
  simpa using hva

/-- An entry of a page table after a move was there before, with every record
    over it, or a slot records it since, or it maps a page of the process. -/
theorem ProcMove.pte_cases (hp : ProcMove R t q Q') (hinv : Inv t) (hm : Move R t t') {e : Pte}
    (hv : v < vaPages) (he : Q'.space.pte v = some e) :
    (∃ Q, t.sys.procs q = some Q ∧ Q.space.pte v = some e ∧ Q'.ownedPages = Q.ownedPages ∧
      ∀ i w ent, Records t.sys Q i w ent → w ≤ v → v < w + ent.count →
        Records t'.sys Q' i w ent) ∨
    (∃ i w ent, Records t'.sys Q' i w ent ∧ w ≤ v ∧ v < w + ent.count ∧
      e.frame = pteFrame ((t'.sys.headers ent.headerKva).pages (v - w))) ∨
    e.outputAddr ∈ Q'.ownedPages := by
  cases hp with
  | same hQ hhandles hspace howned =>
    exact .inl ⟨_, hQ, hspace ▸ he, howned, fun i w ent hrec _ _ =>
      hrec.forth hinv hm hQ (by rw [hhandles])⟩
  | @slot Q k e0 e' hQ hk hnm hnm' hR heq =>
    subst heq
    refine .inl ⟨Q, hQ, he, rfl, fun i w ent hrec _ _ => hrec.forth hinv hm hQ ?_⟩
    refine List.getElem?_set_ne ?_
    rintro rfl
    have := hrec.maps hk
    rw [hnm] at this
    cases this
  | @map Q k r va id ent' attr fs space hQ hk hva hent hspec hR heq =>
    subst heq
    obtain ⟨hlt, -⟩ := List.getElem?_eq_some_iff.mp hk
    by_cases hin : va.toNat ≤ v ∧ v < va.toNat + ent'.count
    · -- the entry is of the new mapping
      rw [hspec.pte v hv, if_pos hin, Nat.zero_add, getElem?_dataPages,
        if_pos (by omega : v - va.toNat < ent'.count)] at he
      cases he
      have hid := hm.entry_keep hinv hent hQ (List.mem_of_getElem? hk) (by simp)
      refine .inr (.inl ⟨k, va.toNat, ent', ⟨⟨id, hid⟩, r, va, List.getElem?_set_self hlt, hva,
        rfl⟩, hin.1, hin.2, ?_⟩)
      rw [hm.pages_keep hinv hent]
      rfl
    · refine .inl ⟨Q, hQ, (hspec.pte v hv).symm.trans he |>.symm ▸ ?_, rfl,
        fun i w ent hrec _ _ =>
        hrec.forth hinv hm hQ (List.getElem?_set_ne ?_)⟩
      · rw [if_neg hin]
      · rintro rfl
        have := hrec.maps hk
        simp at this
  | @unmap Q k r va id ent' space hQ hk hva hent herased heq =>
    subst heq
    have hnot : ¬ (va.toNat ≤ v ∧ v < va.toNat + ent'.count) := by
      intro hin
      rw [herased.pte v hv, if_pos hin] at he
      cases he
    rw [herased.pte v hv, if_neg hnot] at he
    refine .inl ⟨Q, hQ, he, rfl, fun i w ent hrec hle hlt =>
      hrec.forth hinv hm hQ (List.getElem?_set_ne ?_)⟩
    -- the cleared range is the one of its slot
    rintro rfl
    obtain ⟨⟨id', hid'⟩, r', va', hslot, -, rfl⟩ := hrec
    grind [hinv.table.unique]
  | @revoke Q id ent' space hQ hent herased heq =>
    subst heq
    have hnot : ¬ Covered ent'.count (rangesOf ent'.headerKva Q.handles) v := by
      intro hcov
      rw [herased.gone v hv hcov] at he
      cases he
    rw [herased.kept v hv hnot] at he
    refine .inl ⟨Q, hQ, he, rfl, fun i w ent hrec hle hlt => hrec.forth hinv hm hQ ?_⟩
    obtain ⟨⟨id', hid'⟩, r', va', hslot, hva', rfl⟩ := hrec
    rw [eraseHeader, List.getElem?_map, hslot, map_some, if_neg]
    -- a range of the revoked header is gone as a whole
    intro hn
    have hh : ent.headerKva = ent'.headerKva := by simpa using hn
    obtain rfl := hinv.table.unique id' id ent ent' hid' hent hh
    obtain rfl : ent = ent' := some.inj (hid'.symm.trans hent)
    exact hnot ⟨va'.toNat, mem_rangesOf.mpr ⟨i, _, va', hslot, rfl, hva', rfl⟩, hle, hlt⟩
  | spawn hq hno hmaps hR => exact .inr (.inr (hmaps v e hv he))

end Records

/-! ## Physical addresses -/

/-- The pages of PageSets that the kernel does not manage satisfy `good`. -/
def System.DevicesIn (s : System) (good : PhysAddr → Prop) : Prop :=
  ∀ id ent, s.table id = some ent → ent.origin = .externallyOwned → ∀ i, i < ent.count →
    good ((s.headers ent.headerKva).pages i)

theorem div_pageSize_lt {a : Nat} : a / pageSize < 2 ^ 36 ↔ a < 2 ^ 48 := by
  unfold pageSize
  omega

section Devices

variable {R : MoveRule} {t t' : Ledger} {good : PhysAddr → Prop}

theorem System.DevicesIn.move (h : t.sys.DevicesIn good) (hinv : Inv t) (hm : Move R t t')
    (hR : ∀ a, R.device a → good a) : t'.sys.DevicesIn good := by
  intro id ent hent horg i hi
  rcases hm.table_cases id with heq | ⟨hnone, -⟩ | ⟨hnone, -⟩
  · rw [heq] at hent
    rw [hm.pages_keep hinv hent]
    exact h id ent hent horg i hi
  · cases hm with
    | register id' ent' pages hid hu hdata hdev hrun hR' =>
      by_cases heq : id = id'
      · obtain rfl : ent' = ent := some.inj ((if_pos heq).symm.trans hent)
        show good ((if ent'.headerKva = ent'.headerKva then _ else _ : PageSetHeader).pages i)
        rw [if_pos rfl]
        exact hR _ (hdev horg i hi)
      · exact absurd (hnone.symm.trans ((if_neg heq).symm.trans hent)) nofun
    | unregister hent' hr hm hR' =>
      rename_i id' ent'
      have htab : (if id = id' then none else t.sys.table id) = some ent := hent
      rw [hnone, ite_self] at htab
      cases htab
    | revoke hent' hpend hrev =>
      obtain ⟨procs, headers, rfl⟩ := hrev.revoked.frame
      exact absurd (hnone.symm.trans hent) nofun
    | frames | slot | map | unmap | object | header | thread | spawn | reap | reapLast
    | dropPending => exact absurd (hnone.symm.trans hent) nofun
  · rw [hnone] at hent
    cases hent

/-- Every page of a PageSet can be named by an entry. -/
theorem Inv.page_lt (hinv : Inv t) (hdev : t.sys.DevicesIn (· < 2 ^ 48)) {id : Fin maxPagesets}
    {ent : PageSetEntry} (hent : t.sys.table id = some ent) {i : Nat} (hi : i < ent.count) :
    (t.sys.headers ent.headerKva).pages i < 2 ^ 48 := by
  by_cases horg : ent.origin = .externallyOwned
  · exact hdev id ent hent horg i hi
  · have hown := (hinv.owns.data id ent hent horg).owned i hi
    exact div_pageSize_lt.mp (hinv.owns.bound _ (by rw [hown]; nofun))

end Devices

/-- A device page the event registers satisfies `good`. -/
def Event.DevicesIn (good : PhysAddr → Prop) : Event → Prop
  | .call _ (.registerDevicePage physAddr) => good physAddr
  | _ => True

theorem Event.DevicesIn.rule {good : PhysAddr → Prop} {ev : Event} (h : ev.DevicesIn good)
    (s : System) (a : PhysAddr) (ha : (ev.rule s).device a) : good a := by
  cases ev with
  | exit i => exact ha.elim
  | call p c =>
    cases c with
    | registerDevicePage physAddr =>
      obtain rfl : a = physAddr := ha
      exact h
    | _ => exact ha.elim

/-! ## Every entry has a reason -/

/-- Why entry `e` may stand at page `v` of process `q`. -/
inductive Justified (b : BootConfig) (s : System) (q : ProcKva) (Q : Process) (v : Nat) (e : Pte) :
    Prop where
  /-- It maps a page the process owns. -/
  | owned (h : e.outputAddr ∈ Q.ownedPages)
  /-- A slot records that a PageSet is mapped over it, with this page. -/
  | recorded {i w : Nat} {ent : PageSetEntry} (hrec : Records s Q i w ent) (hle : w ≤ v)
      (hlt : v < w + ent.count)
      (hframe : (s.headers ent.headerKva).pages (v - w) / pageSize = e.frame)
  /-- It maps a page loaded for init at boot. -/
  | boot (hq : q = b.init) (hf : e.frame ∈ b.loaded)

def System.AllJustified (b : BootConfig) (s : System) : Prop :=
  ∀ q Q, s.procs q = some Q → ∀ v e, v < vaPages → Q.space.pte v = some e → Justified b s q Q v e

/-- Neither the allocators nor the kernel's own data use frame `f`. -/
structure System.NotKernel (s : System) (f : Frame) : Prop where
  free : s.free f = false
  dmaFree : s.dmaFree f = false
  object : s.objects f = none
  tcb : ∀ (i : Nat) (c : Tcb), s.threads[i]? = some (some c) → f ≠ c.frame
  stack : ∀ (i : Nat) (c : Tcb), s.threads[i]? = some (some c) → c.stack.frame? ≠ some f
  process : ∀ p P, s.procs p = some P → f ≠ p ∧ f ≠ P.handleTable ∧ f ∉ P.space.tableFrames

/-- A physical address that an entry can name, outside the memory the kernel manages. -/
def BootConfig.Device (b : BootConfig) (a : PhysAddr) : Prop :=
  a < 2 ^ 48 ∧ b.owner (a / pageSize) = .other

section Justify

variable {b : BootConfig} {R : MoveRule} {t t' : Ledger}

theorem System.AllJustified.move (h : t.sys.AllJustified b) (hinv : Inv t)
    (hdev : t'.sys.DevicesIn (· < 2 ^ 48)) (hm : Move R t t') : t'.sys.AllJustified b := by
  intro q Q' hQ' v e hv he
  rcases (hm.proc hinv.threads hQ').pte_cases hinv hm hv he with
    ⟨Q, hQ, heQ, howned, hkeep⟩ | ⟨i, w, ent, hrec, hle, hlt, hframe⟩ | hown
  · rcases h q Q hQ v e hv heQ with hown | ⟨hrec, hle, hlt, hframe⟩ | ⟨hq, hf⟩
    · exact .owned (howned ▸ hown)
    · obtain ⟨id, hid⟩ := hrec.registered
      exact .recorded (hkeep _ _ _ hrec hle hlt) hle hlt (by rw [hm.pages_keep hinv hid, hframe])
    · exact .boot hq hf
  · obtain ⟨id, hid⟩ := hrec.registered
    refine .recorded hrec hle hlt ?_
    rw [hframe, pteFrame,
      Nat.mod_eq_of_lt (div_pageSize_lt.mpr ((hinv.move hm).page_lt hdev hid (by omega)))]
  · exact .owned hown

/-- Frames with these owners are nobody else's. -/
theorem Owns.notKernel (ho : Owns t) {f : Frame}
    (hf : (∃ q, t.owner f = .owned q) ∨ (∃ h, t.owner f = .pageSet h) ∨ (∃ q, t.owner f = .boot q) ∨
      t.owner f = .other) : t.sys.NotKernel f := by
  have hne : ∀ {o : Owner}, t.owner f = o → (∀ q, o ≠ .owned q) → (∀ h, o ≠ .pageSet h) →
      (∀ q, o ≠ .boot q) → o ≠ .other → False := by
    intro o hfo h1 h2 h3 h4
    rcases hf with ⟨q, hf⟩ | ⟨h, hf⟩ | ⟨q, hf⟩ | hf
    · exact h1 q (hfo.symm.trans hf)
    · exact h2 h (hfo.symm.trans hf)
    · exact h3 q (hfo.symm.trans hf)
    · exact h4 (hfo.symm.trans hf)
  constructor
  · exact Bool.eq_false_iff.mpr fun h => hne (ho.free f h) nofun nofun nofun nofun
  · exact Bool.eq_false_iff.mpr fun h => hne (ho.dma f h) nofun nofun nofun nofun
  · cases hobj : t.sys.objects f with
    | none => rfl
    | some o => exact (hne (ho.objects f (by rw [hobj]; rfl)) nofun nofun nofun nofun).elim
  · rintro i c hi rfl
    exact hne (ho.tcb i c hi) nofun nofun nofun nofun
  · exact fun i c hi hst => hne (ho.stack i c f hi hst) nofun nofun nofun nofun
  · intro p P hP
    have hown := ho.procs p P hP
    grind [hown.handleTable, hown.process, hown.tables]

/-- What holds of the page tables in every state of a run. -/
structure TablesJustified (b : BootConfig) (t : Ledger) : Prop where
  entries : t.sys.AllJustified b
  devices : t.sys.DevicesIn b.Device
  owners : ∀ f, (b.owner f = .other ∨ ∃ p, b.owner f = .boot p) → t.owner f = b.owner f

theorem System.DevicesIn.mono {s : System} {good good' : PhysAddr → Prop} (h : s.DevicesIn good)
    (hgood : ∀ a, good a → good' a) : s.DevicesIn good' :=
  fun id ent hent horg i hi => hgood _ (h id ent hent horg i hi)

theorem TablesJustified.moves (h : TablesJustified b t) (hinv : Inv t) (hm : Moves R t t')
    (hR : ∀ a, R.device a → b.Device a) : TablesJustified b t' := by
  induction hm with
  | refl => exact h
  | tail hmoves hmove ih =>
    have hinv1 := hmoves.inv hinv
    have hdev := ih.devices.move hinv1 hmove hR
    refine ⟨ih.entries.move hinv1 (hdev.mono fun _ h => h.1) hmove, hdev, fun f hf => ?_⟩
    rw [hmove.owner_keep (by rwa [ih.owners f hf]), ih.owners f hf]

theorem tablesJustified_boot (hdtb : ∀ i, i < b.dtbCount → b.owner (b.dtbFirst + i) = .other) :
    TablesJustified b b.ledger where
  entries q Q hQ v e hv he := by
    obtain ⟨rfl, rfl⟩ := BootConfig.procs_system hQ
    refine .boot rfl ?_
    have := b.maps v e hv he
    rwa [Pte.outputAddr, Nat.mul_div_cancel _ (by decide : 0 < pageSize)] at this
  devices id ent hent _ i hi := by
    obtain ⟨-, rfl⟩ := BootConfig.table_system hent
    show b.Device ((if b.dtbHeader = b.dtbHeader then _ else _ : PageSetHeader).pages i)
    rw [if_pos rfl]
    have hi' : i < b.dtbCount := hi
    have hlt : b.dtbFirst + i < 2 ^ 36 :=
      Nat.lt_of_lt_of_le (Nat.add_lt_add_left hi' _) b.dtbBound
    refine ⟨Nat.mul_lt_mul_of_pos_right hlt (by decide : 0 < pageSize), ?_⟩
    rw [Nat.mul_div_cancel _ (by decide : 0 < pageSize)]
    exact hdtb i hi'
  owners _ _ := rfl

/-- The owner of the frame of a justified entry. -/
theorem TablesJustified.owner (h : TablesJustified b t) (hinv : Inv t) {q : ProcKva}
    {Q : Process} (hQ : t.sys.procs q = some Q) {v : Nat} {e : Pte}
    (hjust : Justified b t.sys q Q v e) : t.owner e.frame = .owned q ∨
      (∃ i w ent, Records t.sys Q i w ent ∧ t.owner e.frame = .pageSet ent.headerKva) ∨
      (q = b.init ∧ t.owner e.frame = .boot q) ∨ b.owner e.frame = .other := by
  rcases hjust with hown | @⟨i, w, ent, hrec, hle, hlt, hframe⟩ | ⟨rfl, hf⟩
  · have := (hinv.owns.procs q Q hQ).owned _ hown
    rw [Pte.outputAddr, Nat.mul_div_cancel _ (by decide : 0 < pageSize)] at this
    exact .inl this
  · obtain ⟨id, hid⟩ := hrec.registered
    have hj : v - w < ent.count := by omega
    by_cases horg : ent.origin = .externallyOwned
    · have hdev := (h.devices id ent hid horg _ hj).2
      rw [hframe] at hdev
      exact .inr (.inr (.inr hdev))
    · have hown := (hinv.owns.data id ent hid horg).owned _ hj
      rw [hframe] at hown
      exact .inr (.inl ⟨i, w, ent, hrec, hown⟩)
  · have hboot := BootConfig.owner_loaded hf
    exact .inr (.inr (.inl ⟨rfl, (h.owners _ (.inr ⟨_, hboot⟩)).trans hboot⟩))

/-- A justified entry maps no memory of the kernel. -/
theorem TablesJustified.notKernel (h : TablesJustified b t) (hinv : Inv t) {q : ProcKva}
    {Q : Process} (hQ : t.sys.procs q = some Q) {v : Nat} {e : Pte}
    (hjust : Justified b t.sys q Q v e) : t.sys.NotKernel e.frame := by
  refine hinv.owns.notKernel ?_
  rcases h.owner hinv hQ hjust with hown | ⟨_, _, _, -, hown⟩ | ⟨-, hown⟩ | hown
  · exact .inl ⟨q, hown⟩
  · exact .inr (.inl ⟨_, hown⟩)
  · exact .inr (.inr (.inl ⟨_, hown⟩))
  · exact .inr (.inr (.inr ((h.owners _ (.inl hown)).trans hown)))

end Justify

/-- The event creates no process with a scratch PageSet that is the process-resources PageSet or is
    not private, and registers no device page inside the memory the kernel manages. -/
def Event.Contained (b : BootConfig) (s : System) (ev : Event) : Prop :=
  ev.Apart s ∧ ev.ScratchPrivate s ∧ ev.DevicesIn b.Device

theorem Run.tablesJustified {b : BootConfig}
    (hdtb : ∀ i, i < b.dtbCount → b.owner (b.dtbFirst + i) = .other) {s : System}
    (hrun : Run b (fun s ev => ev.Contained b s) s) :
    ∃ t, t.sys = s ∧ Inv t ∧ TablesJustified b t := by
  obtain ⟨t, hs, hinv, -, hJ⟩ := hrun.induct (J := TablesJustified b) (fun _ _ h => h.1)
    (tablesJustified_boot hdtb) fun t t' ev hinv _ hJ _ hG hmoves _ _ =>
      hJ.moves hinv hmoves (hG.2.2.rule t.sys)
  exact ⟨t, hs, hinv, hJ⟩

/-- Every entry of every page table has a reason, and none maps memory of the allocators or of the
    kernel, in every run of contained events. -/
theorem run_mappings_justified {b : BootConfig}
    (hdtb : ∀ i, i < b.dtbCount → b.owner (b.dtbFirst + i) = .other) {s : System}
    (hrun : Run b (fun s ev => ev.Contained b s) s) {q : ProcKva} {Q : Process}
    (hQ : s.procs q = some Q) {v : Nat} {e : Pte} (hv : v < vaPages)
    (he : Q.space.pte v = some e) : Justified b s q Q v e ∧ s.NotKernel e.frame := by
  obtain ⟨t, rfl, hinv, hJ⟩ := hrun.tablesJustified hdtb
  have hjust := hJ.entries q Q hQ v e hv he
  exact ⟨hjust, hJ.notKernel hinv hQ hjust⟩

instance (b : BootConfig) (a : PhysAddr) : Decidable (b.Device a) :=
  inferInstanceAs (Decidable (a < 2 ^ 48 ∧ b.owner (a / pageSize) = .other))

instance (b : BootConfig) (s : System) (ev : Event) : Decidable (ev.Contained b s) :=
  have : Decidable (ev.DevicesIn b.Device) := decidable_of_iff ((match ev with
    | .call _ (.registerDevicePage physAddr) => decide (b.Device physAddr)
    | _ => true) = true) (by unfold Event.DevicesIn; split <;> simp)
  inferInstanceAs (Decidable (_ ∧ _ ∧ _))

/-- The page of program that init gives its child, and its reason. -/
theorem run_mappings_justified_child : ∃ s Q e,
    Run smallBoot (fun s ev => ev.Contained smallBoot s) s ∧
    s.procs 100 = some Q ∧ Q.space.pte 0x400 = some e ∧ e.frame = 130 ∧
    Justified smallBoot s 100 Q 0x400 e ∧ s.NotKernel 130 := by
  obtain ⟨s, hrun, Q, hQ, e, he, hframe⟩ := Run.exists_of_events smallBoot
    (fun s ev => ev.Contained smallBoot s) childRun
    (Q := fun s => ∃ Q ∈ s.procs 100, ∃ e ∈ Q.space.pte 0x400, e.frame = 130) (by decide +kernel)
  obtain ⟨hjust, hnot⟩ := run_mappings_justified (by decide +kernel) hrun hQ (by decide) he
  exact ⟨s, Q, e, hrun, hQ, he, hframe, hjust, hframe ▸ hnot⟩

/-- In every run of contained events, two processes map the same frame only where both record a
    mapping of the same PageSet, or in a page outside the memory the kernel manages. -/
theorem run_memory_isolated {b : BootConfig}
    (hdtb : ∀ i, i < b.dtbCount → b.owner (b.dtbFirst + i) = .other) {s : System}
    (hrun : Run b (fun s ev => ev.Contained b s) s) {p q : ProcKva}
    (hpq : p ≠ q) {P Q : Process} (hP : s.procs p = some P) (hQ : s.procs q = some Q) {v w : Nat}
    {e e' : Pte} (hv : v < vaPages) (hw : w < vaPages) (he : P.space.pte v = some e)
    (he' : Q.space.pte w = some e') (hframe : e.frame = e'.frame) :
    (∃ ent i v' j w', Records s P i v' ent ∧ Records s Q j w' ent) ∨
      b.owner e.frame = .other := by
  obtain ⟨t, rfl, hinv, hJ⟩ := hrun.tablesJustified hdtb
  have h1 := hJ.owner hinv hP (hJ.entries p P hP v e hv he)
  have h2 := hJ.owner hinv hQ (hJ.entries q Q hQ w e' hw he')
  rw [← hframe] at h2
  rcases h1 with h1 | ⟨i, v', ent, hrec, h1⟩ | ⟨rfl, h1⟩ | h1
  · simp_all
  · rcases h2 with h2 | ⟨j, w', ent', hrec', h2⟩ | ⟨-, h2⟩ | h2
    · cases h1.symm.trans h2
    · obtain ⟨id, hid⟩ := hrec.registered
      obtain ⟨id', hid'⟩ := hrec'.registered
      have hheader := Owner.pageSet.inj (h1.symm.trans h2)
      obtain rfl := hinv.table.unique id id' ent ent' hid hid' hheader
      obtain rfl : ent = ent' := some.inj (hid.symm.trans hid')
      exact .inl ⟨ent, i, v', j, w', hrec, hrec'⟩
    · cases h1.symm.trans h2
    · exact .inr h2
  · simp_all
  · exact .inr h1

/-- Init and its child map one page. -/
theorem run_memory_isolated_shared : ∃ s P Q, s.procs 10 = some P ∧ s.procs 100 = some Q ∧
    ∃ ent i v j w, Records s P i v ent ∧ Records s Q j w ent := by
  obtain ⟨s, hrun, P, hP, e, he, Q, hQ, e', he', hframe, howner⟩ := Run.exists_of_events smallBoot
    (fun s ev => ev.Contained smallBoot s) (childRun ++
      [.call 10 (.allocPages 1 0#64 [64] none), .call 10 (.exportHandle (some 100) 0),
       .call 10 (.mapPages 0 0x1000000 0 [65]), .call 100 (.mapPages 0 0x1000000 0 [66])])
    (Q := fun s => ∃ P ∈ s.procs 10, ∃ e ∈ P.space.pte 0x1000, ∃ Q ∈ s.procs 100,
      ∃ e' ∈ Q.space.pte 0x1000, e.frame = e'.frame ∧ smallBoot.owner e.frame ≠ .other)
    (by decide +kernel)
  exact ⟨s, P, Q, hP, hQ, (run_memory_isolated (by decide +kernel) hrun (by decide) hP hQ
    (by decide) (by decide) he he' hframe).resolve_right howner⟩

/-- Init maps a page, makes a process that owns the frame of it, and the process exits. -/
def overlayMapRun : List Event :=
  [.call 10 (.allocPages 15 0#64 (frameRun 100 15) none),
   .call 10 (.allocPages 2 0#64 [131, 128] none),
   .call 10 (.allocPages 1 0#64 [140] none),
   .call 10 (.allocPages 1 0#64 [150] none),
   .call 10 (.mapPages 3 0x1000000 0 [65]),
   .call 10 (.createProcess (some (overlayArgs 150))),
   .exit 1]

/-- After that run init's page table maps a frame that the allocator has free. -/
theorem overlaid_scratch_maps_free_frame : ∃ s, Run smallBoot (fun _ _ => True) s ∧
    ∃ Q e, s.procs 10 = some Q ∧ Q.space.pte 0x1000 = some e ∧ s.free e.frame = true := by
  obtain ⟨s, hrun, Q, hQ, e, he, hfree⟩ := Run.exists_of_events smallBoot
    (fun _ _ => True) overlayMapRun (Q := fun s =>
    ∃ Q ∈ s.procs 10, ∃ e ∈ Q.space.pte 0x1000, s.free e.frame = true) (by decide +kernel)
  exact ⟨s, hrun, Q, e, hQ, he, hfree⟩

end Lockjaw.Cap
