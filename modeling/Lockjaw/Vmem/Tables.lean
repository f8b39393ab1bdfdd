/-
  Lockjaw.Vmem.Tables

  Writing page tables: entries as the kernel builds them, stores to memory, and
  what the two stores the mapping code makes do to the translations of a user
  tree.

  A table sits at a page-aligned address, so entries of different tables never
  share a word.  `Tree` collects what a user tree needs for that: `L0[0]` and
  `L1[0]` lead to the L2 table, and no two tables share a frame.  Two steps keep
  it: a store into an L3 table changes the translation of one page
  (`Tree.writePage`), and a zeroed frame put behind an empty L2 entry changes none
  (`Tree.install`).
-/

import Lockjaw.Vmem.Walk
import Mathlib.Data.List.Nodup

namespace Lockjaw.Vmem

open PageTableEntry List

open Cap (pageSize pageTableIndices userVaEnd MapMemoryAttribute)

/-! ## Building entries -/

/-- User and kernel may read and write. -/
def apRwAll : Nat := 1

/-- What `n` contributes to an entry: its low `width` bits, moved up by `shift`. -/
def pteField (n width shift : Nat) : Word := BitVec.ofNat 64 (n % 2 ^ width) <<< shift

namespace PageTableEntry

def newTable (nextTablePhys : Word) : PageTableEntry :=
  ⟨pteValid ||| pteTable ||| (nextTablePhys &&& pteAddrMask)⟩

def newPage (phys : Word) (attr ap sh : Nat) : PageTableEntry :=
  ⟨pteValid ||| pteTable ||| pteField attr 3 pteAttrShift ||| pteField ap 2 pteApShift |||
    pteField sh 2 pteShShift ||| pteAf ||| (phys &&& pteAddrMask)⟩

def withPxn (e : PageTableEntry) : PageTableEntry := ⟨e.raw ||| ptePxn⟩

def withUxn (e : PageTableEntry) : PageTableEntry := ⟨e.raw ||| pteUxn⟩

def isPxn (e : PageTableEntry) : Bool := e.raw &&& ptePxn != 0#64

def isUxn (e : PageTableEntry) : Bool := e.raw &&& pteUxn != 0#64

def attrIndex (e : PageTableEntry) : Nat := (e.raw >>> pteAttrShift &&& 7#64).toNat

def ap (e : PageTableEntry) : Nat := (e.raw >>> pteApShift &&& 3#64).toNat

def sh (e : PageTableEntry) : Nat := (e.raw >>> pteShShift &&& 3#64).toNat

end PageTableEntry

/-- `build_user_page`, with the attributes `select_attrs` gives. -/
def buildUserPage (phys : Word) (attr : MapMemoryAttribute) : PageTableEntry :=
  ((newPage phys attr.toPteAttrs.1 apRwAll attr.toPteAttrs.2).withUxn).withPxn

/-- An entry carries the attributes of a user page mapped with `attr`. -/
structure UserAttrs (attr : MapMemoryAttribute) (e : PageTableEntry) : Prop where
  attrIndex : e.attrIndex = attr.toPteAttrs.1
  ap : e.ap = apRwAll
  sh : e.sh = attr.toPteAttrs.2
  uxn : e.isUxn = true
  pxn : e.isPxn = true

section Bits

variable {x f k : Word}

/-- The address bits of a word. -/
theorem toNat_and_mask (x : Word) :
    (x &&& pteAddrMask).toNat = x.toNat / 2 ^ 12 % 2 ^ 36 * 2 ^ 12 := by
  have hmask : pteAddrMask.toNat = (2 ^ 36 - 1) * 2 ^ 12 := by decide
  apply Nat.eq_of_testBit_eq
  intro i
  rw [BitVec.toNat_and, Nat.testBit_and, hmask, Nat.testBit_mul_two_pow, Nat.testBit_mul_two_pow,
    Nat.testBit_two_pow_sub_one, Nat.testBit_mod_two_pow, Nat.testBit_div_two_pow]
  grind

theorem or_and_distrib (f x k : Word) : (f ||| x) &&& k = (f &&& k) ||| (x &&& k) := by grind

/-- Flags and an address share no bits: the address reads back masked. -/
theorem or_and_mask (hf : f &&& pteAddrMask = 0#64) :
    (f ||| (x &&& pteAddrMask)) &&& pteAddrMask = x &&& pteAddrMask := by
  rw [or_and_distrib, hf, BitVec.and_assoc, BitVec.and_self, BitVec.zero_or]

/-- … and the flags read back. -/
theorem or_and_flags (hk : pteAddrMask &&& k = 0#64) :
    (f ||| (x &&& pteAddrMask)) &&& k = f &&& k := by
  rw [or_and_distrib, BitVec.and_assoc, hk, BitVec.and_zero, BitVec.or_zero]

/-- A field of an entry, read through the mask at its place. -/
theorem shiftRight_and {shift : Nat} (hk : (k <<< shift) >>> shift = k) :
    x >>> shift &&& k = (x &&& k <<< shift) >>> shift := by
  rw [BitVec.ushiftRight_and_distrib, hk]

end Bits

namespace PageTableEntry

theorem isBlock_of_isTable {e : PageTableEntry} (h : e.isTable = true) : e.isBlock = false := by
  rw [isTable_eq, Bool.and_eq_true] at h
  simpa using h.2

theorem isTable_newTable (p : Word) : (newTable p).isTable = true := by
  rw [isTable, newTable, or_and_flags (by decide)]
  decide

theorem outputAddr_newTable (p : Word) : (newTable p).outputAddr = p &&& pteAddrMask :=
  or_and_mask (by decide)

end PageTableEntry

/-- The bits of a user page's entry that do not depend on its address. -/
def userFlags (attr : MapMemoryAttribute) : Word :=
  pteValid ||| pteTable ||| pteField attr.toPteAttrs.1 3 pteAttrShift |||
    pteField apRwAll 2 pteApShift ||| pteField attr.toPteAttrs.2 2 pteShShift ||| pteAf |||
    pteUxn ||| ptePxn

theorem raw_buildUserPage (phys : Word) (attr : MapMemoryAttribute) :
    (buildUserPage phys attr).raw = userFlags attr ||| (phys &&& pteAddrMask) := by
  simp only [buildUserPage, withPxn, withUxn,
    newPage, userFlags]
  ac_rfl

theorem outputAddr_buildUserPage (phys : Word) (attr : MapMemoryAttribute) :
    (buildUserPage phys attr).outputAddr = phys &&& pteAddrMask := by
  rw [outputAddr, raw_buildUserPage]
  apply or_and_mask
  cases attr <;> decide

theorem isValid_buildUserPage (phys : Word) (attr : MapMemoryAttribute) :
    (buildUserPage phys attr).isValid = true := by
  rw [isValid, raw_buildUserPage, or_and_flags (by decide)]
  cases attr <;> decide

theorem userAttrs_buildUserPage (phys : Word) (attr : MapMemoryAttribute) :
    UserAttrs attr (buildUserPage phys attr) := by
  constructor
  · rw [attrIndex, raw_buildUserPage, shiftRight_and (by decide),
      or_and_flags (by decide)]
    cases attr <;> decide
  · rw [ap, raw_buildUserPage, shiftRight_and (by decide),
      or_and_flags (by decide)]
    cases attr <;> decide
  · rw [sh, raw_buildUserPage, shiftRight_and (by decide),
      or_and_flags (by decide)]
    cases attr <;> decide
  · rw [isUxn, raw_buildUserPage, or_and_flags (by decide)]
    cases attr <;> decide
  · rw [isPxn, raw_buildUserPage, or_and_flags (by decide)]
    cases attr <;> decide

/-! ## Stores -/

def writeEntry (mem : Mem) (table : Word) (idx : Nat) (e : PageTableEntry) : Mem := fun a =>
  if a = table + BitVec.ofNat 64 idx * 8#64 then e.raw else mem a

def zeroPage (mem : Mem) (page : Word) : Mem := fun a =>
  if (a - page).toNat < pageSize then 0#64 else mem a

/-- A table at `table` fills a page. -/
def Aligned (table : Word) : Prop := table.toNat % pageSize = 0

section Stores

variable {mem : Mem} {table table' : Word} {i j : Nat} {e : PageTableEntry}

theorem aligned_outputAddr (e : PageTableEntry) : Aligned e.outputAddr := by
  show (e.raw &&& pteAddrMask).toNat % 4096 = 0
  rw [toNat_and_mask]
  omega

theorem toNat_entryAddr (h : Aligned table) (hi : i < 512) :
    (table + BitVec.ofNat 64 i * 8#64).toNat = table.toNat + i * 8 := by
  have hlt := table.isLt
  have h0 : table.toNat % 4096 = 0 := h
  rw [BitVec.toNat_add, BitVec.toNat_mul, BitVec.toNat_ofNat, BitVec.toNat_ofNat]
  omega

/-- Entries of aligned tables are told apart by table and index. -/
theorem entryAddr_inj (h : Aligned table) (h' : Aligned table') (hi : i < 512) (hj : j < 512)
    (heq : table + BitVec.ofNat 64 i * 8#64 = table' + BitVec.ofNat 64 j * 8#64) :
    table = table' ∧ i = j := by
  have hnat := congrArg BitVec.toNat heq
  rw [toNat_entryAddr h hi, toNat_entryAddr h' hj] at hnat
  have h0 : table.toNat % 4096 = 0 := h
  have h0' : table'.toNat % 4096 = 0 := h'
  constructor
  · apply BitVec.eq_of_toNat_eq
    omega
  · omega

theorem readEntry_writeEntry_self : readEntry (writeEntry mem table i e) table i = e := by
  rw [readEntry, writeEntry, if_pos rfl]

theorem readEntry_writeEntry_of_ne (h : Aligned table) (h' : Aligned table') (hi : i < 512)
    (hj : j < 512) (hne : ¬ (table' = table ∧ j = i)) :
    readEntry (writeEntry mem table i e) table' j = readEntry mem table' j := by
  rw [readEntry, writeEntry, if_neg]
  · rfl
  · intro heq
    exact hne (entryAddr_inj h' h hj hi heq)

theorem readEntry_zeroPage_self (hi : i < 512) :
    readEntry (zeroPage mem table) table i = ⟨0#64⟩ := by
  rw [readEntry, zeroPage, if_pos]
  rw [BitVec.add_comm, BitVec.add_sub_cancel, BitVec.toNat_mul, BitVec.toNat_ofNat,
    BitVec.toNat_ofNat]
  show _ < 4096
  omega

theorem readEntry_zeroPage_of_ne (h : Aligned table) (h' : Aligned table') (hi : i < 512)
    (hne : table' ≠ table) : readEntry (zeroPage mem table) table' i = readEntry mem table' i := by
  rw [readEntry, zeroPage, if_neg]
  · rfl
  · intro hlt
    have hsub := toNat_entryAddr h' hi
    have h0 : table.toNat % 4096 = 0 := h
    have h0' : table'.toNat % 4096 = 0 := h'
    rw [BitVec.toNat_sub, hsub] at hlt
    have hlt' : (2 ^ 64 - table.toNat + (table'.toNat + i * 8)) % 2 ^ 64 < 4096 := hlt
    have h1 := table.isLt
    have h2 := table'.isLt
    apply hne
    apply BitVec.eq_of_toNat_eq
    omega

end Stores

/-! ## A user tree -/

/-- The L3 tables behind an L2 table. -/
def l3Frames (mem : Mem) (l2 : Word) : List Word :=
  (range 512).filterMap fun i =>
    if (readEntry mem l2 i).isTable then some (readEntry mem l2 i).outputAddr else none

/-- The frames of the tables a walk of a user address can visit. -/
def tableFrames (mem : Mem) (ttbr0 : Word) : List Word :=
  let l0 := readEntry mem ttbr0 0
  let l1 := readEntry mem l0.outputAddr 0
  if !l0.isTable then [ttbr0]
  else if !l1.isTable then [ttbr0, l0.outputAddr]
  else [ttbr0, l0.outputAddr, l1.outputAddr] ++ l3Frames mem l1.outputAddr

/-- Entry `i` of the L2 table leads to the L3 table at `t`. -/
def L3At (mem : Mem) (l2 : Word) (i : Nat) (t : Word) : Prop :=
  (readEntry mem l2 i).isTable = true ∧ (readEntry mem l2 i).outputAddr = t

/-- A user tree down to the L3 tables: no two tables share a frame. -/
structure Tree (mem : Mem) (ttbr0 l1 l2 : Word) : Prop where
  l0Table : (readEntry mem ttbr0 0).isTable = true
  l0Out : (readEntry mem ttbr0 0).outputAddr = l1
  l1Table : (readEntry mem l1 0).isTable = true
  l1Out : (readEntry mem l1 0).outputAddr = l2
  aligned : Aligned ttbr0
  upper : [ttbr0, l1, l2].Nodup
  apart : ∀ i < 512, ∀ t, L3At mem l2 i t → t ∉ [ttbr0, l1, l2]
  inj : ∀ i < 512, ∀ j < 512, ∀ t, L3At mem l2 i t → L3At mem l2 j t → i = j

/-- What maps user page `v`, read from the L2 table on. -/
def l2Leaf (mem : Mem) (l2 : Word) (v : Nat) : Option (Nat × PageTableEntry) :=
  let e2 := readEntry mem l2 (v / 512)
  let e3 := readEntry mem e2.outputAddr (v % 512)
  if e2.isBlock then some (2, e2)
  else if !e2.isTable then none
  else if !e3.isValid then none
  else some (3, e3)

section Tree

variable {mem : Mem} {ttbr0 l1 l2 t p : Word} {i j : Nat} {e : PageTableEntry}

theorem mem_l3Frames : t ∈ l3Frames mem l2 ↔ ∃ i < 512, L3At mem l2 i t := by
  simp only [l3Frames, mem_filterMap, mem_range, L3At]
  grind

theorem l3Frames_inj (h : (l3Frames mem l2).Nodup) (hi : i < 512) (hj : j < 512)
    (hti : L3At mem l2 i t) (htj : L3At mem l2 j t) : i = j := by
  have hlt : ∀ a b, a < b → b < 512 → L3At mem l2 a t → ¬ L3At mem l2 b t := by
    intro a b hab hb hta htb
    have hpair := pairwise_iff_getElem.mp (pairwise_filterMap.mp h) a b
      (by simp only [length_range]; omega) (by simpa using hb) hab
    rw [getElem_range, getElem_range] at hpair
    refine hpair t ?_ t ?_ rfl
    · rw [if_pos hta.1, hta.2]
    · rw [if_pos htb.1, htb.2]
  grind

/-- A tree whose frames are distinct, once `L0[0]` and `L1[0]` are tables. -/
theorem Tree.of_nodup (halign : Aligned ttbr0) (h : (tableFrames mem ttbr0).Nodup)
    (h0 : (readEntry mem ttbr0 0).isTable = true) (h0' : (readEntry mem ttbr0 0).outputAddr = l1)
    (h1 : (readEntry mem l1 0).isTable = true) (h1' : (readEntry mem l1 0).outputAddr = l2) :
    Tree mem ttbr0 l1 l2 := by
  subst h0' h1'
  simp only [tableFrames, h0, h1, Bool.not_true, Bool.false_eq_true, if_false] at h
  obtain ⟨hupper, hl3, hdisj⟩ := nodup_append.mp h
  exact ⟨h0, rfl, h1, rfl, halign, hupper,
    fun i hi t ht hmem => hdisj t hmem t (mem_l3Frames.mpr ⟨i, hi, ht⟩) rfl,
    fun i hi j hj t => l3Frames_inj hl3 hi hj⟩

theorem L3At.aligned (h : L3At mem l2 i t) : Aligned t := h.2 ▸ aligned_outputAddr _

section

variable (h : Tree mem ttbr0 l1 l2)
include h

theorem Tree.l1_aligned : Aligned l1 := h.l0Out ▸ aligned_outputAddr _

theorem Tree.l2_aligned : Aligned l2 := h.l1Out ▸ aligned_outputAddr _

theorem Tree.ttbr0_ne_l2 : ttbr0 ≠ l2 := by grind [h.upper]

theorem Tree.l1_ne_l2 : l1 ≠ l2 := by grind [h.upper]

/-- A user address translates as its page does from the L2 table on. -/
theorem Tree.leaf_eq {va : Nat} (hva : va < userVaEnd) :
    leaf mem ttbr0 va = l2Leaf mem l2 (va / pageSize) := by
  have hva' : va < 2 ^ 30 := hva
  have hi0 : (pageTableIndices va).1 = 0 := by
    show va / 2 ^ 39 % 512 = 0
    omega
  have hi1 : (pageTableIndices va).2.1 = 0 := by
    show va / 2 ^ 30 % 512 = 0
    omega
  have hi2 : (pageTableIndices va).2.2.1 = va / pageSize / 512 := by
    show va / 2 ^ 21 % 512 = va / 4096 / 512
    omega
  have hi3 : (pageTableIndices va).2.2.2 = va / pageSize % 512 := rfl
  have hblock := isBlock_of_isTable h.l1Table
  simp only [leaf, l2Leaf, hi0, hi1, hi2, hi3, h.l0Table, h.l0Out, h.l1Table, h.l1Out, hblock,
    Bool.not_true, Bool.false_eq_true, if_false]

variable {u : Word} {k v : Nat}

/-- A store into one of the L3 tables leaves the upper tables alone. -/
theorem Tree.readEntry_upper (hi : i < 512) (ht : L3At mem l2 i t)
    (hj : j < 512) (hu : u ∈ [ttbr0, l1, l2]) (hk : k < 512) :
    readEntry (writeEntry mem t j e) u k = readEntry mem u k := by
  have hua : Aligned u := by grind [h.aligned, h.l1_aligned, h.l2_aligned]
  apply readEntry_writeEntry_of_ne ht.aligned hua hj hk
  rintro ⟨rfl, -⟩
  exact h.apart i hi _ ht hu

/-- A tree is a matter of what the upper tables hold. -/
theorem Tree.congr {mem' : Mem}
    (hread : ∀ u ∈ [ttbr0, l1, l2], ∀ k < 512, readEntry mem' u k = readEntry mem u k) :
    Tree mem' ttbr0 l1 l2 := by
  have h0 := hread ttbr0 (by simp) 0 (by omega)
  have h1 := hread l1 (by simp) 0 (by omega)
  have h2 : ∀ k < 512, ∀ t, L3At mem' l2 k t ↔ L3At mem l2 k t := by
    intro k hk t
    rw [L3At, L3At, hread l2 (by simp) k hk]
  refine ⟨h0 ▸ h.l0Table, h0 ▸ h.l0Out, h1 ▸ h.l1Table, h1 ▸ h.l1Out, h.aligned, h.upper, ?_, ?_⟩
  all_goals grind [h.apart, h.inj]

/-- A store into an L3 table changes what maps one page. -/
theorem Tree.writePage (hi : i < 512) (ht : L3At mem l2 i t)
    (hj : j < 512) (he : e.isValid = true) (hv : v < 2 ^ 18) :
    l2Leaf (writeEntry mem t j e) l2 v
      = if v = i * 512 + j then some (3, e) else l2Leaf mem l2 v := by
  have hv512 : v / 512 < 512 := by omega
  have hl2 := h.readEntry_upper (e := e) hi ht hj (u := l2) (by simp) hv512
  simp only [l2Leaf, hl2]
  by_cases htab : (readEntry mem l2 (v / 512)).isTable = true
  · have hblock := isBlock_of_isTable htab
    simp only [hblock, htab, Bool.not_true, Bool.false_eq_true, if_false]
    by_cases hvi : v / 512 = i
    · rw [hvi, ht.2]
      by_cases hvj : v % 512 = j
      · have : v = i * 512 + j := by omega
        rw [if_pos this, hvj, readEntry_writeEntry_self]
        simp [he]
      · have : ¬ v = i * 512 + j := by omega
        rw [if_neg this, readEntry_writeEntry_of_ne ht.aligned ht.aligned hj (by omega)
          (fun hc => hvj hc.2)]
    · -- another L2 entry leads to another table
      have : ¬ v = i * 512 + j := by omega
      rw [if_neg this, readEntry_writeEntry_of_ne ht.aligned (aligned_outputAddr _) hj (by omega)]
      rintro ⟨heq, -⟩
      exact hvi (h.inj _ hv512 _ hi t ⟨htab, heq⟩ ht)
  · have hne : ¬ v = i * 512 + j := by
      rintro rfl
      have : (i * 512 + j) / 512 = i := by omega
      rw [this] at htab
      exact htab ht.1
    simp [htab, hne]

theorem Tree.writeEntry (hi : i < 512) (ht : L3At mem l2 i t)
    (hj : j < 512) (e : PageTableEntry) : Tree (writeEntry mem t j e) ttbr0 l1 l2 :=
  h.congr fun _ hu _ hk => h.readEntry_upper hi ht hj hu hk

end

/-- A frame outside the tree. -/
structure Outside (mem : Mem) (ttbr0 l1 l2 p : Word) : Prop where
  masked : p &&& pteAddrMask = p
  upper : p ∉ [ttbr0, l1, l2]
  l3 : ∀ i < 512, ¬ L3At mem l2 i p

theorem Outside.aligned (h : Outside mem ttbr0 l1 l2 p) : Aligned p :=
  h.masked ▸ aligned_outputAddr ⟨p⟩

/-- The stores that put a fresh table behind an L2 entry. -/
def installL3 (mem : Mem) (l2 : Word) (i : Nat) (p : Word) : Mem :=
  writeEntry (zeroPage mem p) l2 i (.newTable p)

section

variable (h : Tree mem ttbr0 l1 l2) (hp : Outside mem ttbr0 l1 l2 p)
include h hp

theorem Tree.readEntry_install (hi : i < 512) (hu : Aligned u) (hup : u ≠ p) (hk : k < 512)
    (hne : ¬ (u = l2 ∧ k = i)) : readEntry (installL3 mem l2 i p) u k = readEntry mem u k := by
  rw [installL3, readEntry_writeEntry_of_ne h.l2_aligned hu hi hk hne,
    readEntry_zeroPage_of_ne hp.aligned hu hk hup]

theorem l3At_install (hi : i < 512) (hk : k < 512) :
    L3At (installL3 mem l2 i p) l2 k t ↔ if k = i then t = p else L3At mem l2 k t := by
  have hl2p : l2 ≠ p := fun heq => hp.upper (by simp [heq])
  by_cases hki : k = i
  · subst hki
    rw [if_pos rfl, L3At, installL3, readEntry_writeEntry_self,
      outputAddr_newTable, hp.masked]
    exact ⟨fun hc => hc.2.symm, fun hc => ⟨isTable_newTable p, hc.symm⟩⟩
  · rw [if_neg hki, L3At, h.readEntry_install hp hi h.l2_aligned hl2p hk (fun hc => hki hc.2)]
    exact Iff.rfl

theorem Tree.installL3 (hi : i < 512) : Tree (installL3 mem l2 i p) ttbr0 l1 l2 := by
  have hupper := hp.upper
  simp only [mem_cons, not_mem_nil, or_false, not_or] at hupper
  have h0 := h.readEntry_install hp hi h.aligned (Ne.symm hupper.1) (show 0 < 512 by omega)
    (fun hc => h.ttbr0_ne_l2 hc.1)
  have h1 := h.readEntry_install hp hi h.l1_aligned (Ne.symm hupper.2.1) (show 0 < 512 by omega)
    (fun hc => h.l1_ne_l2 hc.1)
  refine ⟨h0 ▸ h.l0Table, h0 ▸ h.l0Out, h1 ▸ h.l1Table, h1 ▸ h.l1Out, h.aligned, h.upper, ?_, ?_⟩
  · grind [h.apart, l3At_install]
  · grind [h.inj, hp.l3, l3At_install]

/-- A fresh table behind an empty entry maps nothing new. -/
theorem Tree.install (hi : i < 512)
    (hempty : (readEntry mem l2 i).isValid = false) (hv : v < 2 ^ 18) :
    l2Leaf (Vmem.installL3 mem l2 i p) l2 v = l2Leaf mem l2 v := by
  have hl2p : l2 ≠ p := fun heq => hp.upper (by simp [heq])
  have hv512 : v / 512 < 512 := by omega
  by_cases hvi : v / 512 = i
  · have hblock := isBlock_of_not_isValid hempty
    have hnot : (readEntry mem l2 i).isTable = false := by
      rw [isTable_eq, hempty, Bool.false_and]
    have hat := (l3At_install (t := p) h hp hi hi).mpr (by rw [if_pos rfl])
    have hzero : readEntry (Vmem.installL3 mem l2 i p) p (v % 512) = ⟨0#64⟩ := by
      rw [Vmem.installL3, readEntry_writeEntry_of_ne h.l2_aligned hp.aligned hi (by omega)
        (fun hc => hl2p hc.1.symm), readEntry_zeroPage_self (by omega)]
    have hblock' := isBlock_of_isTable hat.1
    simp only [l2Leaf, hvi, hblock, hnot, hblock', hat.1, hat.2, hzero]
    rfl
  · have hl2 := h.readEntry_install hp hi h.l2_aligned hl2p hv512 (fun hc => hvi hc.2)
    simp only [l2Leaf, hl2]
    by_cases htab : (readEntry mem l2 (v / 512)).isTable = true
    · have hout : (readEntry mem l2 (v / 512)).outputAddr ≠ p := fun heq =>
        hp.l3 _ hv512 ⟨htab, heq⟩
      have hnl2 : (readEntry mem l2 (v / 512)).outputAddr ≠ l2 := fun heq =>
        h.apart _ hv512 _ ⟨htab, heq⟩ (by simp)
      rw [h.readEntry_install hp hi (aligned_outputAddr _) hout (by omega) (fun hc => hnl2 hc.1)]
    · simp [htab]

/-- A frame outside the tree stays outside when another one joins it. -/
theorem Outside.install {q : Word} (hq : Outside mem ttbr0 l1 l2 q) (hne : q ≠ p) (hi : i < 512) :
    Outside (Vmem.installL3 mem l2 i p) ttbr0 l1 l2 q := by
  refine ⟨hq.masked, hq.upper, fun k hk ht => ?_⟩
  rw [l3At_install h hp hi hk] at ht
  split at ht
  · exact hne ht
  · exact hq.l3 k hk ht

end

end Tree

end Lockjaw.Vmem
