/-
  Lockjaw.Cap.PageTable

  User page tables: the walks of `lockjaw-types/src/page_table.rs`, the region
  iterator and entry builders of `lockjaw-types/src/vmem.rs`, and the mapping
  passes of `src/arch/aarch64/vmem.rs`.

  A user address space is a tree `L0[0] → L1[0] → L2 → L3`: both builders of
  address spaces install exactly these upper tables, no other entry of L0 or L1
  is ever written and no block descriptor is ever installed.  The tree is kept
  by value, every table with the frame it occupies.

  `pte v` is the entry the walk finds for virtual page `v`; the lemmas state
  each operation by what it does to `pte` and to the frames of the tables.
-/

import Lockjaw.Cap.Handle

namespace Lockjaw.Cap

open List

def pageSize : Nat := 4096

/-- End of the user virtual address range (exclusive). -/
def userVaEnd : Nat := 0x40000000

/-- Largest number of pages in one PageSet. -/
def maxPracticalPagesPerSet : Nat := 16384

/-- Indices of a virtual address at the four levels. -/
def pageTableIndices (va : Nat) : Nat × Nat × Nat × Nat :=
  (va / 2 ^ 39 % 512, va / 2 ^ 30 % 512, va / 2 ^ 21 % 512, va / 2 ^ 12 % 512)

/-! ## Entries -/

/-- A valid L3 page entry.  `frame` is the output address, bits 47:12. -/
structure Pte where
  frame : Frame
  attr : Nat
  ap : Nat
  sh : Nat
  uxn : Bool
  pxn : Bool
  deriving DecidableEq, Repr

/-- The frame an entry built for `phys` names. -/
def pteFrame (phys : PhysAddr) : Frame := phys / pageSize % 2 ^ 36

/-- Physical address of the page an entry maps. -/
def Pte.outputAddr (e : Pte) : PhysAddr := e.frame * pageSize

inductive MapMemoryAttribute where
  | normal
  | device
  | normalNonCacheable
  deriving DecidableEq, Repr

/-- Decode the raw syscall word. -/
def MapMemoryAttribute.fromRaw : Nat → Option MapMemoryAttribute
  | 0 => some .normal
  | 1 => some .device
  | 2 => some .normalNonCacheable
  | _ => none

/-- MAIR index and shareability. -/
def MapMemoryAttribute.toPteAttrs : MapMemoryAttribute → Nat × Nat
  | .normal => (1, 3)
  | .device => (0, 0)
  | .normalNonCacheable => (2, 2)

/-- Entry of a page mapped by `sys_map_pages`. -/
def buildUserPage (phys : PhysAddr) (attr : MapMemoryAttribute) : Pte where
  frame := pteFrame phys
  attr := attr.toPteAttrs.1
  ap := 1
  sh := attr.toPteAttrs.2
  uxn := true
  pxn := true

/-- Entry of a page of a new process. -/
def buildProcessPage (phys : PhysAddr) (userAccessible executable : Bool) : Pte where
  frame := pteFrame phys
  attr := 1
  ap := if userAccessible then 1 else 0
  sh := 3
  uxn := userAccessible && !executable
  pxn := userAccessible

/-! ## The tree -/

/-- An L3 table and the frame that holds it. -/
structure L3Table where
  frame : Frame
  entries : Nat → Option Pte

/-- A user address space; `tables i` is the table behind `L2[i]`. -/
structure AddressSpace where
  l0 : Frame
  l1 : Frame
  l2 : Frame
  tables : Nat → Option L3Table

namespace AddressSpace

/-- The frames of the tree, in the order `free_address_space` releases them. -/
def tableFrames (sp : AddressSpace) : List Frame :=
  (range 512).filterMap (fun i => (sp.tables i).map L3Table.frame) ++ [sp.l2, sp.l1, sp.l0]

/-- Replace the table behind `L2[i]`. -/
def setTable (sp : AddressSpace) (i : Nat) (t : L3Table) : AddressSpace :=
  { sp with tables := fun k => if k = i then some t else sp.tables k }

/-- Write one L3 entry. -/
def setEntry (sp : AddressSpace) (i j : Nat) (e : Option Pte) : AddressSpace :=
  match sp.tables i with
  | none => sp
  | some t => sp.setTable i { t with entries := fun k => if k = j then e else t.entries k }

/-- The page-table walk: the L3 entry that translates `va`.  `L0[l0]` is a table for `l0 = 0` only
    and `L1[l1]` for `l1 = 0` only; everything else faults. -/
def walk (sp : AddressSpace) (va : Nat) : Option Pte :=
  let (l0, l1, l2, l3) := pageTableIndices va
  if l0 = 0 ∧ l1 = 0 then (sp.tables l2).bind fun t => t.entries l3 else none

/-- The entry for virtual page `v`. -/
def pte (sp : AddressSpace) (v : Nat) : Option Pte := sp.walk (v * pageSize)

/-- The pages `va`, `va + 4096`, … are mapped to `expected`, in order; the
    error is the index of the first page that is not. -/
def validatePteMatchFrom (sp : AddressSpace) (va : Nat) : Nat → List PhysAddr → Except Nat Unit
  | _, [] => .ok ()
  | i, p :: ps =>
    match sp.walk (va + i * pageSize) with
    | none => .error i
    | some e => if e.outputAddr ≠ p then .error i else sp.validatePteMatchFrom va (i + 1) ps

def validatePteMatch (sp : AddressSpace) (va : Nat) (expected : List PhysAddr) : Except Nat Unit :=
  sp.validatePteMatchFrom va 0 expected

/-- Zero the entry of one page. -/
def clearEntry (sp : AddressSpace) (va : Nat) : AddressSpace :=
  let (_, _, l2, l3) := pageTableIndices va
  sp.setEntry l2 l3 none

/-- Clear the entries of pages `i .. i + n`; `none` is the panic on a page that does not resolve. -/
def clearValidatedPteFrom (sp : AddressSpace) (va : Nat) : Nat → Nat → Option AddressSpace
  | _, 0 => some sp
  | i, n + 1 =>
    match sp.walk (va + i * pageSize) with
    | none => none
    | some _ => (sp.clearEntry (va + i * pageSize)).clearValidatedPteFrom va (i + 1) n

def clearValidatedPte (sp : AddressSpace) (va count : Nat) : Option AddressSpace :=
  sp.clearValidatedPteFrom va 0 count

/-- Plain data written over frame `f` destroys the table that lives there. -/
def overwrite (f : Frame) (sp : AddressSpace) : AddressSpace :=
  if f = sp.l0 ∨ f = sp.l1 ∨ f = sp.l2 then { sp with tables := fun _ => none }
  else { sp with tables := fun i => (sp.tables i).map fun t =>
    if t.frame = f ∧ i < 512 then { t with entries := fun _ => none } else t }

end AddressSpace

/-! ## Mapping into an existing address space -/

inductive VmemError where
  | tooManyMappings
  | tooManyL3Regions
  | outOfPages
  | invalidParameter
  | outOfPageTables
  deriving DecidableEq, Repr

inductive MapValidation where
  | ok (l2Idx l3Start : Nat)
  | errorOutOfRange
  | errorTooManyPages
  deriving DecidableEq, Repr

/-- Range check of a mapping request. -/
def validateMapping (virtAddr pageCount : Nat) : MapValidation :=
  if pageCount = 0 ∨ pageCount > maxPracticalPagesPerSet then .errorTooManyPages
  else
    let (l0, l1, l2Start, l3Start) := pageTableIndices virtAddr
    if l0 ≠ 0 ∨ l1 ≠ 0 then .errorOutOfRange
    else if virtAddr + pageCount * pageSize > userVaEnd then .errorOutOfRange
    else .ok l2Start l3Start

/-- The part of a mapping that falls into one L2 slot. -/
structure L2Region where
  l2Idx : Nat
  l3Start : Nat
  pagesInRegion : Nat
  dataOffset : Nat
  deriving DecidableEq, Repr

/-- The region iterator.  Every region holds at least one page, so `fuel` pages
    never run out before `remaining` does. -/
def l2RegionsFrom : (fuel nextL2 nextL3 remaining offset : Nat) → List L2Region
  | 0, _, _, _, _ => []
  | fuel + 1, nextL2, nextL3, remaining, offset =>
    if remaining = 0 then []
    else
      let n := min (512 - nextL3) remaining
      { l2Idx := nextL2, l3Start := nextL3, pagesInRegion := n, dataOffset := offset } ::
        l2RegionsFrom fuel (nextL2 + 1) 0 (remaining - n) (offset + n)

def l2Regions (l2Start l3Start pageCount : Nat) : List L2Region :=
  l2RegionsFrom pageCount l2Start l3Start pageCount 0

/-- Pass 1: how many L3 tables the mapping needs. -/
def neededL3Allocs (sp : AddressSpace) (regions : List L2Region) : Nat :=
  regions.countP fun r => (sp.tables r.l2Idx).isNone

/-- Entries of one region: `l3Start + i` maps data page `dataOffset + i`. -/
def writeRegion (pages : List PhysAddr) (attr : MapMemoryAttribute) (r : L2Region)
    (entries : Nat → Option Pte) : Nat → Option Pte :=
  fun j =>
    if r.l3Start ≤ j ∧ j < r.l3Start + r.pagesInRegion then
      (pages[r.dataOffset + (j - r.l3Start)]?).map fun p => buildUserPage p attr
    else entries j

/-- Pass 3: write every region, taking the reserved frames for missing tables.
    `none` is "L3 page reserved in pass 2" failing. -/
def applyRegions (pages : List PhysAddr) (attr : MapMemoryAttribute) :
    List L2Region → List Frame → AddressSpace → Option AddressSpace
  | [], _, sp => some sp
  | r :: rs, frames, sp =>
    match sp.tables r.l2Idx with
    | some t =>
      applyRegions pages attr rs frames
        (sp.setTable r.l2Idx { t with entries := writeRegion pages attr r t.entries })
    | none =>
      match frames with
      | [] => none
      | f :: fs =>
        applyRegions pages attr rs fs
          (sp.setTable r.l2Idx
            { frame := f, entries := writeRegion pages attr r fun _ => none })

/-! ## Page numbers -/

namespace AddressSpace

variable {sp sp' : AddressSpace} {v w n : Nat}

/-- Virtual page numbers below this are told apart by the four indices. -/
def vaPages : Nat := 2 ^ 36

theorem pte_eq (hv : v < vaPages) :
    sp.pte v =
      if v < 2 ^ 18 then (sp.tables (v / 512)).bind fun t => t.entries (v % 512) else none := by
  have h0 : v * pageSize / 2 ^ 39 % 512 = v / 2 ^ 27 := by
    unfold vaPages at hv; unfold pageSize; omega
  have h1 : v * pageSize / 2 ^ 30 % 512 = v / 2 ^ 18 % 512 := by unfold pageSize; omega
  have h2 : v * pageSize / 2 ^ 21 % 512 = v / 512 % 512 := by unfold pageSize; omega
  have h3 : v * pageSize / 2 ^ 12 % 512 = v % 512 := by unfold pageSize; omega
  simp only [pte, walk, pageTableIndices, h0, h1, h2, h3]
  by_cases hlt : v < 2 ^ 18
  · grind
  · have ha : ¬(v / 2 ^ 27 = 0 ∧ v / 2 ^ 18 % 512 = 0) := by omega
    rw [if_neg ha, if_neg hlt]

theorem walk_add (i : Nat) : sp.walk (v * pageSize + i * pageSize) = sp.pte (v + i) := by
  rw [pte, Nat.add_mul]

theorem lt_of_pte (hv : v < vaPages) (h : (sp.pte v).isSome) : v < 2 ^ 18 := by
  by_contra hlt
  rw [pte_eq hv, if_neg hlt] at h
  cases h

/-- The same tables in the same frames; entries may differ. -/
structure SameTables (sp sp' : AddressSpace) : Prop where
  l0 : sp'.l0 = sp.l0
  l1 : sp'.l1 = sp.l1
  l2 : sp'.l2 = sp.l2
  frame : ∀ i, (sp'.tables i).map L3Table.frame = (sp.tables i).map L3Table.frame

theorem SameTables.refl : SameTables sp sp := ⟨rfl, rfl, rfl, fun _ => rfl⟩

theorem SameTables.trans {sp'' : AddressSpace} (h : SameTables sp sp') (h' : SameTables sp' sp'') :
    SameTables sp sp'' :=
  ⟨h'.l0.trans h.l0, h'.l1.trans h.l1, h'.l2.trans h.l2, fun i => (h'.frame i).trans (h.frame i)⟩

theorem SameTables.tableFrames (h : SameTables sp sp') : sp'.tableFrames = sp.tableFrames := by
  simp only [AddressSpace.tableFrames, h.l0, h.l1, h.l2, h.frame]

theorem setEntry_sameTables (i j : Nat) (e : Option Pte) : SameTables sp (sp.setEntry i j e) := by
  unfold setEntry
  cases ht : sp.tables i with
  | none => exact .refl
  | some t =>
    refine ⟨rfl, rfl, rfl, fun k => ?_⟩
    by_cases hk : k = i
    · simp [setTable, hk, ht]
    · simp [setTable, hk]

theorem pte_clearEntry (hv : v < vaPages) (hw : w < vaPages) (hsome : (sp.pte v).isSome) :
    (sp.clearEntry (v * pageSize)).pte w = if w = v then none else sp.pte w := by
  have hlt : v < 2 ^ 18 := lt_of_pte hv hsome
  have h2 : v * pageSize / 2 ^ 21 % 512 = v / 512 := by unfold pageSize; omega
  have h3 : v * pageSize / 2 ^ 12 % 512 = v % 512 := by unfold pageSize; omega
  simp only [clearEntry, pageTableIndices, h2, h3]
  rw [pte_eq hw, pte_eq hw]
  by_cases hwlt : w < 2 ^ 18
  · rw [if_pos hwlt, if_pos hwlt]
    unfold setEntry
    cases ht : sp.tables (v / 512) with
    | none =>
      rw [pte_eq hv, if_pos hlt, ht] at hsome
      cases hsome
    | some t => grind [setTable]
  · have : w ≠ v := fun he => hwlt (he ▸ hlt)
    rw [if_neg hwlt, if_neg hwlt, if_neg this]

/-! ## Validation and clearing of a range -/

/-- The pages from `v` on are mapped to `pages`, in order. -/
def Mapped (sp : AddressSpace) (v : Nat) (pages : List PhysAddr) : Prop :=
  ∀ (i : Nat) (p : PhysAddr), pages[i]? = some p → ∃ e, sp.pte (v + i) = some e ∧ e.outputAddr = p

theorem validatePteMatchFrom_ok_iff (pages : List PhysAddr) :
    ∀ i, sp.validatePteMatchFrom (v * pageSize) i pages = .ok () ↔ sp.Mapped (v + i) pages := by
  induction pages with
  | nil => intro i; simp [validatePteMatchFrom, Mapped]
  | cons p ps ih =>
    intro i
    rw [validatePteMatchFrom, walk_add]
    constructor
    · intro h
      cases he : sp.pte (v + i) with
      | none => rw [he] at h; cases h
      | some e =>
        rw [he] at h
        dsimp only at h
        split at h
        · cases h
        · rename_i heq
          intro j q hq
          cases j with
          | zero =>
            simp only [getElem?_cons_zero, Option.some.injEq] at hq
            exact ⟨e, by simpa using he, by rw [← hq]; simpa using heq⟩
          | succ j =>
            have := (ih (i + 1)).mp h j q (by simpa using hq)
            simpa [Nat.add_assoc, Nat.add_comm 1 j] using this
    · intro h
      obtain ⟨e, he, hout⟩ := h 0 p rfl
      rw [Nat.add_zero] at he
      rw [he]
      dsimp only
      rw [if_neg (by simpa using hout)]
      refine (ih (i + 1)).mpr fun j q hq => ?_
      have := h (j + 1) q (by simpa using hq)
      simpa [Nat.add_assoc, Nat.add_comm 1 j] using this

variable {pages : List PhysAddr} {i : Nat} {t : L3Table} {es : Nat → Option Pte} {f : Frame}
  {attr : MapMemoryAttribute} {r : L2Region} {rem off : Nat}

theorem validatePteMatch_ok_iff :
    sp.validatePteMatch (v * pageSize) pages = .ok () ↔ sp.Mapped v pages := by
  grind [validatePteMatch, validatePteMatchFrom_ok_iff]

/-- `sp'` is `sp` with the entries of `n` pages from `v` on removed. -/
structure Erased (sp sp' : AddressSpace) (v n : Nat) : Prop where
  tables : SameTables sp sp'
  pte : ∀ w, w < vaPages → sp'.pte w = if v ≤ w ∧ w < v + n then none else sp.pte w

theorem clearValidatedPteFrom_spec (n : Nat) :
    ∀ (sp : AddressSpace) (i : Nat), v + i + n ≤ vaPages →
      (∀ j, j < n → (sp.pte (v + i + j)).isSome) →
      ∃ sp', sp.clearValidatedPteFrom (v * pageSize) i n = some sp' ∧ Erased sp sp' (v + i) n := by
  induction n with
  | zero =>
    intro sp i _ _
    refine ⟨sp, rfl, .refl, fun w _ => ?_⟩
    rw [if_neg (by omega)]
  | succ n ih =>
    intro sp i hle hsome
    have h0 : (sp.pte (v + i)).isSome := by simpa using hsome 0 (by omega)
    obtain ⟨e, he⟩ := Option.isSome_iff_exists.mp h0
    have hva : v * pageSize + i * pageSize = (v + i) * pageSize := (Nat.add_mul _ _ _).symm
    have hrest : ∀ j, j < n →
        ((sp.clearEntry ((v + i) * pageSize)).pte (v + (i + 1) + j)).isSome := by
      intro j hj
      rw [pte_clearEntry (by omega) (by omega) h0, if_neg (by omega)]
      have := hsome (j + 1) (by omega)
      rwa [show v + i + (j + 1) = v + (i + 1) + j by omega] at this
    obtain ⟨sp', hclear, her⟩ := ih _ (i + 1) (by omega) hrest
    refine ⟨sp', ?_, (setEntry_sameTables _ _ _).trans her.tables, fun w hw => ?_⟩
    · rw [clearValidatedPteFrom, walk_add, he, hva]
      exact hclear
    · rw [her.pte w hw, pte_clearEntry (by omega) hw h0]
      grind

/-- Clearing a fully mapped range succeeds and removes exactly that range. -/
theorem clearValidatedPte_spec (hle : v + n ≤ vaPages)
    (hsome : ∀ j, j < n → (sp.pte (v + j)).isSome) :
    ∃ sp', sp.clearValidatedPte (v * pageSize) n = some sp' ∧ Erased sp sp' v n :=
  clearValidatedPteFrom_spec n sp 0 (by omega) (by simpa using hsome)

/-- Clearing stops at an unmapped page. -/
theorem clearValidatedPteFrom_none (n : Nat) :
    ∀ (sp : AddressSpace) (i : Nat), v + i + n ≤ vaPages →
      (∃ j, j < n ∧ sp.pte (v + i + j) = none) →
      sp.clearValidatedPteFrom (v * pageSize) i n = none := by
  induction n with
  | zero => intro sp i _ ⟨j, hj, _⟩; omega
  | succ n ih =>
    intro sp i hle ⟨j, hj, hnone⟩
    have hva : v * pageSize + i * pageSize = (v + i) * pageSize := (Nat.add_mul _ _ _).symm
    rw [clearValidatedPteFrom, walk_add, hva]
    cases he : sp.pte (v + i) with
    | none => rfl
    | some e =>
      have hj0 : j ≠ 0 := by
        intro h0
        rw [h0, Nat.add_zero, he] at hnone
        cases hnone
      refine ih _ (i + 1) (by omega) ⟨j - 1, by omega, ?_⟩
      rw [pte_clearEntry (by omega) (by omega) (by rw [he]; rfl), if_neg (by omega)]
      rw [← hnone]
      congr 1
      omega

theorem clearValidatedPte_none (hle : v + n ≤ vaPages)
    (hnone : ∃ j, j < n ∧ sp.pte (v + j) = none) : sp.clearValidatedPte (v * pageSize) n = none :=
  clearValidatedPteFrom_none n sp 0 (by omega) (by simpa using hnone)

/-! ## Frames of the tree -/

/-- Filling an unused position of a finite family adds one element to its list. -/
theorem filterMap_insert_perm {α : Type} {g : Nat → Option α} {a : α} :
    ∀ {l : List Nat}, l.Nodup → i ∈ l → g i = none →
      (l.filterMap fun k => if k = i then some a else g k).Perm (a :: l.filterMap g) := by
  intro l
  induction l with
  | nil => intro _ hmem; cases hmem
  | cons k ks ih =>
    intro hnd hmem hnone
    obtain ⟨hk, hks⟩ := nodup_cons.mp hnd
    by_cases hki : k = i
    · have hrest : (ks.filterMap fun k => if k = i then some a else g k) = ks.filterMap g := by
        apply filterMap_congr
        grind
      subst hki
      rw [filterMap_cons_some (b := a) (by simp), filterMap_cons_none hnone, hrest]
    · have hmem' : i ∈ ks := by grind
      cases hg : g k with
      | none =>
        rw [filterMap_cons_none (by simp [hki, hg]), filterMap_cons_none hg]
        exact ih hks hmem' hnone
      | some b =>
        rw [filterMap_cons_some (by simp [hki, hg]; rfl), filterMap_cons_some hg]
        exact ((ih hks hmem' hnone).cons b).trans (List.Perm.swap a b _)

theorem tableFrames_setTable_new (hi : i < 512) (hnone : sp.tables i = none) :
    (sp.setTable i t).tableFrames.Perm (t.frame :: sp.tableFrames) := by
  have hperm := filterMap_insert_perm (g := fun k => (sp.tables k).map L3Table.frame)
    (i := i) (a := t.frame) (nodup_range (n := 512)) (mem_range.mpr hi) (by simp [hnone])
  have heq : (fun k => ((sp.setTable i t).tables k).map L3Table.frame)
      = fun k => if k = i then some t.frame else (sp.tables k).map L3Table.frame := by
    funext k
    by_cases hk : k = i
    · simp [setTable, hk]
    · simp [setTable, hk]
  unfold tableFrames
  rw [heq]
  exact hperm.append_right _

/-- Rewriting the entries of a table keeps its frame. -/
theorem setTable_sameTables
    (ht : sp.tables i = some t) : SameTables sp (sp.setTable i { t with entries := es }) := by
  refine ⟨rfl, rfl, rfl, fun k => ?_⟩
  by_cases hk : k = i
  · simp [setTable, hk, ht]
  · simp [setTable, hk]

/-- Data written outside the tree leaves it alone. -/
theorem overwrite_of_not_mem (hf : f ∉ sp.tableFrames) : sp.overwrite f = sp := by
  have hup : ¬(f = sp.l0 ∨ f = sp.l1 ∨ f = sp.l2) := by
    intro h
    apply hf
    rcases h with h | h | h <;> simp [tableFrames, h]
  have htab : ∀ i, (sp.tables i).map (fun t =>
      if t.frame = f ∧ i < 512 then { t with entries := fun _ => none } else t) = sp.tables i := by
    intro i
    cases ht : sp.tables i with
    | none => rfl
    | some t =>
      have hne : ¬(t.frame = f ∧ i < 512) := by
        rintro ⟨hfr, hi⟩
        apply hf
        refine mem_append_left _ (mem_filterMap.mpr ⟨i, mem_range.mpr hi, ?_⟩)
        rw [ht, Option.map_some, hfr]
      simp [hne]
  unfold overwrite
  rw [if_neg hup]
  obtain ⟨a, b, c, tabs⟩ := sp
  simp only [mk.injEq, true_and]
  funext i
  exact htab i

/-! ## Mapping -/

/-- Effect of a mapping request of `pages` at page `v`: the range maps the PageSet in order,
    everything else is untouched, and the new tables are in `frames`. -/
structure MapSpec (pages : List PhysAddr) (attr : MapMemoryAttribute) (v off n : Nat)
    (frames : List Frame) (sp sp' : AddressSpace) : Prop where
  pte : ∀ w, w < vaPages → sp'.pte w =
    if v ≤ w ∧ w < v + n then (pages[off + (w - v)]?).map fun p => buildUserPage p attr
    else sp.pte w
  frames : sp'.tableFrames.Perm (frames ++ sp.tableFrames)

/-- Writing one region changes its own pages only. -/
theorem pte_setTable_region (hi : r.l2Idx < 512) (hjk : r.l3Start + r.pagesInRegion ≤ 512)
    (hes : ∀ m, (sp.tables r.l2Idx).bind (fun t => t.entries m) = es m) (hw : w < vaPages) :
    (sp.setTable r.l2Idx ⟨f, writeRegion pages attr r es⟩).pte w
      = if r.l2Idx * 512 + r.l3Start ≤ w ∧ w < r.l2Idx * 512 + r.l3Start + r.pagesInRegion then
          (pages[r.dataOffset + (w - (r.l2Idx * 512 + r.l3Start))]?).map
            fun p => buildUserPage p attr
        else sp.pte w := by
  rw [pte_eq hw, pte_eq hw]
  by_cases hlt : w < 2 ^ 18
  · rw [if_pos hlt, if_pos hlt]
    by_cases hwi : w / 512 = r.l2Idx
    · have htab : (sp.setTable r.l2Idx ⟨f, writeRegion pages attr r es⟩).tables (w / 512)
          = some ⟨f, writeRegion pages attr r es⟩ := by
        simp [setTable, hwi]
      rw [htab]
      dsimp only [Option.bind_some, writeRegion]
      grind
    · rw [if_neg (by omega)]
      simp [setTable, hwi]
  · rw [if_neg hlt, if_neg hlt, if_neg (by omega)]

theorem l2RegionsFrom_succ {fuel j : Nat} (h0 : rem ≠ 0) :
    l2RegionsFrom (fuel + 1) i j rem off = ⟨i, j, min (512 - j) rem, off⟩ ::
      l2RegionsFrom fuel (i + 1) 0 (rem - min (512 - j) rem) (off + min (512 - j) rem) := by
  rw [l2RegionsFrom, if_neg h0]

theorem le_l2Idx_of_mem (fuel : Nat) :
    ∀ (i j rem off : Nat), r ∈ l2RegionsFrom fuel i j rem off → i ≤ r.l2Idx := by
  induction fuel with
  | zero => intro i j rem off h; cases h
  | succ fuel ih =>
    intro i j rem off h
    rw [l2RegionsFrom] at h
    grind

/-- A table written below the remaining regions does not change what they need. -/
theorem neededL3Allocs_setTable {rs : List L2Region}
    (h : ∀ r ∈ rs, r.l2Idx ≠ i) : neededL3Allocs (sp.setTable i t) rs = neededL3Allocs sp rs := by
  apply countP_congr
  intro r hr
  simp [setTable, h r hr]

/-- One region and then the rest of the range. -/
theorem MapSpec.cons {fs frames : List Frame} {v' : Nat}
    (hi : r.l2Idx < 512) (hjk : r.l3Start + r.pagesInRegion ≤ 512)
    (hes : ∀ m, (sp.tables r.l2Idx).bind (fun t => t.entries m) = es m)
    (hv' : rem = 0 ∨ v' = r.l2Idx * 512 + r.l3Start + r.pagesInRegion)
    (hspec : MapSpec pages attr v' (r.dataOffset + r.pagesInRegion) rem fs
      (sp.setTable r.l2Idx ⟨f, writeRegion pages attr r es⟩) sp')
    (hframes : sp'.tableFrames.Perm (frames ++ sp.tableFrames)) :
    MapSpec pages attr (r.l2Idx * 512 + r.l3Start) r.dataOffset (r.pagesInRegion + rem) frames
      sp sp' := by
  refine ⟨fun w hw => ?_, hframes⟩
  rw [hspec.pte w hw, pte_setTable_region hi hjk hes hw]
  grind

theorem MapSpec.nil : MapSpec pages attr v off 0 [] sp sp := by
  refine ⟨fun w _ => by rw [if_neg (by omega)], ?_⟩
  rw [nil_append]

/-- Pass 3 writes the whole range when pass 2 reserved what pass 1 counted. -/
theorem applyRegions_spec (pages : List PhysAddr) (attr : MapMemoryAttribute) (fuel : Nat) :
    ∀ (i j rem off : Nat) (frames : List Frame) (sp : AddressSpace), rem ≤ fuel → j < 512 →
      i * 512 + j + rem ≤ 2 ^ 18 →
      frames.length = neededL3Allocs sp (l2RegionsFrom fuel i j rem off) →
      ∃ sp', applyRegions pages attr (l2RegionsFrom fuel i j rem off) frames sp = some sp' ∧
        MapSpec pages attr (i * 512 + j) off rem frames sp sp' := by
  induction fuel with
  | zero =>
    intro i j rem off frames sp hrem _ _ hlen
    have hnil : frames = [] := eq_nil_of_length_eq_zero hlen
    have h0 : rem = 0 := by omega
    subst hnil h0
    exact ⟨sp, rfl, .nil⟩
  | succ fuel ih =>
    intro i j rem off frames sp hrem hj hle hlen
    by_cases h0 : rem = 0
    · subst h0
      have hregs : l2RegionsFrom (fuel + 1) i j 0 off = [] := rfl
      rw [hregs] at hlen ⊢
      have hnil : frames = [] := eq_nil_of_length_eq_zero hlen
      subst hnil
      exact ⟨sp, rfl, .nil⟩
    · rw [l2RegionsFrom_succ h0] at hlen ⊢
      -- `k` pages go into this region; if any are left, the next one starts a new table
      generalize hk : min (512 - j) rem = k at hlen ⊢
      generalize hr : (⟨i, j, k, off⟩ : L2Region) = r at hlen ⊢
      have hri : r.l2Idx = i := by rw [← hr]
      have hrj : r.l3Start = j := by rw [← hr]
      have hrk : r.pagesInRegion = k := by rw [← hr]
      have hro : r.dataOffset = off := by rw [← hr]
      have hrest : ∀ q ∈ l2RegionsFrom fuel (i + 1) 0 (rem - k) (off + k), q.l2Idx ≠ r.l2Idx := by
        intro q hq
        have := le_l2Idx_of_mem fuel _ _ _ _ hq
        omega
      have hnext : (i + 1) * 512 + 0 = r.l2Idx * 512 + r.l3Start + r.pagesInRegion ∨
          rem - k = 0 := by omega
      have hrem' : r.pagesInRegion + (rem - k) = rem := by omega
      have hbound : (i + 1) * 512 + (rem - k) ≤ 2 ^ 18 := by omega
      have hstep : ∀ {fs : List Frame} (f : Frame) (es : Nat → Option Pte),
          fs.length = neededL3Allocs sp (l2RegionsFrom fuel (i + 1) 0 (rem - k) (off + k)) →
          ∃ sp', applyRegions pages attr (l2RegionsFrom fuel (i + 1) 0 (rem - k) (off + k)) fs
              (sp.setTable r.l2Idx ⟨f, writeRegion pages attr r es⟩) = some sp' ∧
            MapSpec pages attr ((i + 1) * 512 + 0) (r.dataOffset + r.pagesInRegion) (rem - k) fs
              (sp.setTable r.l2Idx ⟨f, writeRegion pages attr r es⟩) sp' := by
        intro fs f es hlen
        rw [hro, hrk]
        refine ih (i + 1) 0 (rem - k) (off + k) fs _ (by omega) (by omega)
          (by rw [Nat.add_zero]; exact hbound) ?_
        rw [neededL3Allocs_setTable hrest]
        exact hlen
      have hgoal : i * 512 + j = r.l2Idx * 512 + r.l3Start := by rw [hri, hrj]
      rw [hgoal, ← hro, ← hrem']
      cases ht : sp.tables r.l2Idx with
      | some t =>
        have hlen' : frames.length
            = neededL3Allocs sp (l2RegionsFrom fuel (i + 1) 0 (rem - k) (off + k)) := by
          simpa [neededL3Allocs, ht] using hlen
        obtain ⟨sp', happ, hspec⟩ := hstep t.frame t.entries hlen'
        refine ⟨sp', ?_, hspec.cons (by omega) (by omega) (by simp [ht]) (by omega) ?_⟩
        · simpa [applyRegions, ht, hro, hrem'] using happ
        · have := hspec.frames
          rwa [(setTable_sameTables ht).tableFrames] at this
      | none =>
        cases frames with
        | nil => simp [neededL3Allocs, ht] at hlen
        | cons f fs =>
          have hlen' : fs.length
              = neededL3Allocs sp (l2RegionsFrom fuel (i + 1) 0 (rem - k) (off + k)) := by
            simpa [neededL3Allocs, ht] using hlen
          obtain ⟨sp', happ, hspec⟩ := hstep f (fun _ => none) hlen'
          grind [hspec.cons, hspec.frames, applyRegions, tableFrames_setTable_new]

end AddressSpace

end Lockjaw.Cap
