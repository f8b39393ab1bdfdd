/-
  Lockjaw.Vmem.Query

  `query_mapping_run`: how many pages from an address on are mapped, or unmapped,
  alike.  The scan steps over whole regions of the upper levels; its answer is the
  one that a walk for every single page would give, on any contents of memory.
-/

import Mathlib.Order.Bounds.Basic
import Lockjaw.Vmem.Walk

namespace Lockjaw.Vmem

open PageTableEntry

open Cap (pageSize pageTableIndices userVaEnd)

/-! ## The scan -/

/-- How the loop over the entries of an L3 table ends: at an entry of the other status, or at the
    end of the table or of the user range. -/
inductive L3Scan where
  | stopped (count : Nat)
  | finished (va count : Nat)
  deriving DecidableEq, Repr

section

variable (mem : Mem)

/-- The `for` loop over an L3 table, from `l3Idx` on. -/
def scanL3 (l3Table : Word) (firstMapped : Bool) : (n l3Idx va count : Nat) → L3Scan
  | 0, _, va, count => .finished va count
  | n + 1, l3Idx, va, count =>
    if va ≥ userVaEnd then .finished va count
    else if (readEntry mem l3Table l3Idx).isValid != firstMapped then .stopped count
    else scanL3 l3Table firstMapped n (l3Idx + 1) (va + 4096) (count + 1)

/-- The `while` loop over the L2 table: the count when it ends. -/
def scanL2 (l2Table : Word) (firstMapped : Bool) : (fuel va count : Nat) → Nat
  | 0, _, count => count
  | fuel + 1, va, count =>
    if va ≥ userVaEnd then count
    else
      let l2Idx := va / 2 ^ 21 % 512
      if l2Idx ≥ 512 then count
      else
        let l2 := readEntry mem l2Table l2Idx
        let regionEnd := min ((va / 2 ^ 21 + 1) * 2 ^ 21) userVaEnd
        if !l2.isValid then
          if firstMapped then count
          else scanL2 l2Table firstMapped fuel regionEnd (count + (regionEnd - va) / 4096)
        else if l2.isBlock then
          if !firstMapped then count
          else scanL2 l2Table firstMapped fuel regionEnd (count + (regionEnd - va) / 4096)
        else
          let l3Start := va / 2 ^ 12 % 512
          match scanL3 mem l2.outputAddr firstMapped (512 - l3Start) l3Start va count with
          | .stopped count => count
          | .finished va count => scanL2 l2Table firstMapped fuel va count

def userPages : Nat := userVaEnd / pageSize

/-- `query_mapping_run`; every turn of the `while` loop passes at least one page. -/
def queryMappingRun (ttbr0 : Word) (startVa : Nat) : Bool × Nat :=
  if startVa ≥ userVaEnd then (false, 0)
  else
    let l0 := readEntry mem ttbr0 0
    if !l0.isValid || !l0.isTable then (false, (userVaEnd - startVa) / 4096)
    else
      let l1Idx := startVa / 2 ^ 30 % 512
      let l1 := readEntry mem l0.outputAddr l1Idx
      let l1End := min ((l1Idx + 1) * 2 ^ 30) userVaEnd
      if !l1.isValid then (false, (l1End - startVa) / 4096)
      else if l1.isBlock then (true, (l1End - startVa) / 4096)
      else
        let l2Table := l1.outputAddr
        let firstL2 := readEntry mem l2Table (startVa / 2 ^ 21 % 512)
        let firstMapped :=
          if !firstL2.isValid then false
          else if firstL2.isBlock then true
          else (readEntry mem firstL2.outputAddr (startVa / 2 ^ 12 % 512)).isValid
        (firstMapped, scanL2 mem l2Table firstMapped userPages startVa 0)

end

/-! ## Runs -/

/-- From page `v` on exactly `n` pages have the status `b`, or all up to the page `lim`. -/
structure IsRun (status : Nat → Bool) (lim : Nat) (b : Bool) (v n : Nat) : Prop where
  same : ∀ i < n, status (v + i) = b
  le : v + n ≤ lim
  ends : v + n < lim → status (v + n) ≠ b

namespace IsRun

variable {status : Nat → Bool} {lim v n k : Nat} {b : Bool}

theorem stop (hv : v ≤ lim) (h : v < lim → status v ≠ b) : IsRun status lim b v 0 :=
  ⟨fun i hi => absurd hi (Nat.not_lt_zero i), hv, h⟩

theorem extend (hk : ∀ i < k, status (v + i) = b) (h : IsRun status lim b (v + k) n) :
    IsRun status lim b v (k + n) := by
  refine ⟨fun i hi => ?_, by have := h.le; omega, fun hlt => ?_⟩
  · by_cases hik : i < k
    · exact hk i hik
    · have hsame := h.same (i - k) (by omega)
      rwa [show v + k + (i - k) = v + i by omega] at hsame
  · rw [← Nat.add_assoc]
    exact h.ends (by omega)

theorem congr {status' : Nat → Bool} (heq : ∀ w < lim, status' w = status w)
    (h : IsRun status lim b v n) : IsRun status' lim b v n :=
  ⟨fun i hi => (heq _ (by have := h.le; omega)).trans (h.same i hi), h.le,
    fun hlt => by rw [heq _ hlt]; exact h.ends hlt⟩

/-- All pages up to the limit. -/
theorem rest (hv : v ≤ lim) (h : ∀ i < lim - v, status (v + i) = b) :
    IsRun status lim b v (lim - v) :=
  ⟨h, by omega, fun hlt => by omega⟩

/-- A run is as long as possible. -/
theorem isGreatest (h : IsRun status lim b v n) :
    IsGreatest {m | v + m ≤ lim ∧ ∀ i < m, status (v + i) = b} n := by
  refine ⟨⟨h.le, h.same⟩, fun m hm => ?_⟩
  by_contra hlt
  exact h.ends (by have := hm.1; omega) (hm.2 n (by omega))

end IsRun

/-! ## The status of a page -/

variable {mem : Mem} {l2Table : Word} {v : Nat}

/-- Whether page `v` is mapped below the L2 table at `l2Table`. -/
def pageMapped (mem : Mem) (l2Table : Word) (v : Nat) : Bool :=
  (readEntry mem l2Table (v / 512)).isBlock ||
    (readEntry mem l2Table (v / 512)).isTable &&
      (readEntry mem (readEntry mem l2Table (v / 512)).outputAddr (v % 512)).isValid

theorem indices_page (h : v < userPages) :
    pageTableIndices (v * pageSize) = (0, 0, v / 512, v % 512) := by
  unfold userPages userVaEnd pageSize at h
  unfold pageTableIndices pageSize
  refine Prod.ext ?_ (Prod.ext ?_ (Prod.ext ?_ ?_)) <;> dsimp only <;> omega

theorem pageMapped_of_invalid (h : (readEntry mem l2Table (v / 512)).isValid = false) :
    pageMapped mem l2Table v = false := by
  unfold pageMapped
  rw [isTable_eq, isBlock_of_not_isValid h, h]
  rfl

theorem pageMapped_of_block (h : (readEntry mem l2Table (v / 512)).isBlock = true) :
    pageMapped mem l2Table v = true := by
  unfold pageMapped
  rw [h]
  rfl

theorem pageMapped_of_table (hv : (readEntry mem l2Table (v / 512)).isValid = true)
    (hb : (readEntry mem l2Table (v / 512)).isBlock = false) :
    pageMapped mem l2Table v =
      (readEntry mem (readEntry mem l2Table (v / 512)).outputAddr (v % 512)).isValid := by
  unfold pageMapped
  rw [isTable_eq, hv, hb]
  rfl

/-- The status of the first page, as the query determines it. -/
theorem pageMapped_eq (mem : Mem) (l2Table : Word) (v : Nat) :
    pageMapped mem l2Table v =
      if !(readEntry mem l2Table (v / 512)).isValid then false
      else if (readEntry mem l2Table (v / 512)).isBlock then true
      else (readEntry mem (readEntry mem l2Table (v / 512)).outputAddr (v % 512)).isValid := by
  by_cases hv : (readEntry mem l2Table (v / 512)).isValid = true
  swap
  · rw [Bool.not_eq_true] at hv
    rw [if_pos (by rw [hv]; rfl), pageMapped_of_invalid hv]
  rw [if_neg (by rw [hv]; decide)]
  by_cases hb : (readEntry mem l2Table (v / 512)).isBlock = true
  · rw [if_pos hb, pageMapped_of_block hb]
  · rw [if_neg hb, pageMapped_of_table hv (Bool.not_eq_true _ ▸ hb)]

/-! ## What the loops count -/

/-- The loop over an L3 table whose entries from `l3Idx` on are those of the pages from `v` on. -/
theorem scanL3_spec {l3Table : Word} {b : Bool} {status : Nat → Bool} {n l3Idx count : Nat}
    (hentry : ∀ i < n, status (v + i) = (readEntry mem l3Table (l3Idx + i)).isValid)
    (hv : v ≤ userPages) :
    (∃ k, scanL3 mem l3Table b n l3Idx (v * 4096) count = .stopped (count + k) ∧
      IsRun status userPages b v k) ∨
    ∃ k ≤ n, scanL3 mem l3Table b n l3Idx (v * 4096) count =
        .finished ((v + k) * 4096) (count + k) ∧
      (∀ i < k, status (v + i) = b) ∧ v + k ≤ userPages ∧ (k = n ∨ v + k = userPages) := by
  induction n generalizing v l3Idx count with
  | zero =>
    exact .inr ⟨0, Nat.le_refl 0, rfl, fun i hi => absurd hi (Nat.not_lt_zero i), hv, .inl rfl⟩
  | succ n ih =>
    have hlim : v * 4096 ≥ userVaEnd ↔ userPages ≤ v := by
      unfold userPages userVaEnd pageSize
      omega
    rw [scanL3]
    by_cases hend : v * 4096 ≥ userVaEnd
    · rw [if_pos hend]
      exact .inr ⟨0, Nat.zero_le _, rfl, fun i hi => absurd hi (Nat.not_lt_zero i), hv,
        .inr (Nat.le_antisymm hv (hlim.mp hend))⟩
    · rw [if_neg hend]
      have hlt : v < userPages := Nat.lt_of_not_le fun h => hend (hlim.mpr h)
      have hfirst : status v = (readEntry mem l3Table l3Idx).isValid := hentry 0 (Nat.succ_pos n)
      by_cases hstop : ((readEntry mem l3Table l3Idx).isValid != b) = true
      · rw [if_pos hstop]
        refine .inl ⟨0, rfl, .stop hv fun _ => ?_⟩
        rw [hfirst]
        exact bne_iff_ne.mp hstop
      · rw [if_neg hstop, show v * 4096 + 4096 = (v + 1) * 4096 by omega]
        -- this page joins the run, and the rest of the table is a table of `n` entries
        have hsame : ∀ i < 1, status (v + i) = b := by grind
        have hrest : ∀ i < n,
            status (v + 1 + i) = (readEntry mem l3Table (l3Idx + 1 + i)).isValid := by
          intro i hi
          have h := hentry (i + 1) (by omega)
          rwa [show v + (i + 1) = v + 1 + i by omega,
            show l3Idx + (i + 1) = l3Idx + 1 + i by omega] at h
        rcases @ih (v + 1) (l3Idx + 1) (count + 1) hrest hlt with
          ⟨k, hk, hrun⟩ | ⟨k, hkn, hk, hsame', hle, hend'⟩
        · refine .inl ⟨1 + k, ?_, hrun.extend hsame⟩
          rw [hk, Nat.add_assoc]
        · refine .inr ⟨1 + k, by omega, ?_, fun i hi => ?_, by omega, by omega⟩
          · rw [hk, Nat.add_assoc, Nat.add_assoc]
          · by_cases hi1 : i < 1
            · exact hsame i hi1
            · have h := hsame' (i - 1) (by omega)
              rwa [show v + 1 + (i - 1) = v + i by omega] at h

/-- A region that the loop passes as a whole: it reaches to the end of the L2 entry of page `v`, or
    of the user range. -/
def regionEnd (v : Nat) : Nat := min ((v / 512 + 1) * 512) userPages

theorem regionEnd_mul (v : Nat) :
    min ((v * 4096 / 2 ^ 21 + 1) * 2 ^ 21) userVaEnd = regionEnd v * 4096 := by
  unfold regionEnd userPages userVaEnd pageSize
  omega

theorem scanL2_spec {b : Bool} {fuel count : Nat} (hv : v ≤ userPages)
    (hfuel : userPages - v ≤ fuel) :
    ∃ n, scanL2 mem l2Table b fuel (v * 4096) count = count + n ∧
      IsRun (pageMapped mem l2Table) userPages b v n := by
  induction fuel generalizing v count with
  | zero => exact ⟨0, rfl, .stop hv fun hlt => by omega⟩
  | succ fuel ih =>
    rw [scanL2]
    by_cases hend : v * 4096 ≥ userVaEnd
    · rw [if_pos hend]
      refine ⟨0, rfl, .stop hv fun hlt => ?_⟩
      unfold userPages userVaEnd pageSize at hlt
      unfold userVaEnd at hend
      omega
    rw [if_neg hend]
    have hlt : v < userPages := by
      unfold userPages userVaEnd pageSize
      unfold userVaEnd at hend
      omega
    have hidx : v * 4096 / 2 ^ 21 % 512 = v / 512 := by
      unfold userPages userVaEnd pageSize at hlt
      omega
    dsimp only
    rw [regionEnd_mul, hidx, if_neg (by unfold userPages userVaEnd pageSize at hlt; omega)]
    have hregion : v < regionEnd v ∧ regionEnd v ≤ userPages ∧
        regionEnd v ≤ (v / 512 + 1) * 512 := by
      unfold regionEnd
      omega
    obtain ⟨hgt, hle, hin⟩ := hregion
    -- a region with one status `b` is passed, and the loop goes on behind it
    have hskip (hsame : ∀ i < regionEnd v - v, pageMapped mem l2Table (v + i) = b) :
        ∃ n, scanL2 mem l2Table b fuel (regionEnd v * 4096)
            (count + (regionEnd v * 4096 - v * 4096) / 4096) = count + n ∧
          IsRun (pageMapped mem l2Table) userPages b v n := by
      obtain ⟨n, hn, hrun⟩ := @ih (regionEnd v) (count + (regionEnd v * 4096 - v * 4096) / 4096)
        hle (by omega)
      rw [show regionEnd v = v + (regionEnd v - v) by omega] at hrun
      refine ⟨regionEnd v - v + n, ?_, hrun.extend hsame⟩
      rw [hn]
      omega
    have hsamel2 (i : Nat) (hi : i < regionEnd v - v) : (v + i) / 512 = v / 512 := by omega
    by_cases hvalid : (readEntry mem l2Table (v / 512)).isValid = true
    swap
    · rw [Bool.not_eq_true] at hvalid
      rw [if_pos (by rw [hvalid]; rfl)]
      cases b with
      | true =>
        rw [if_pos rfl]
        refine ⟨0, rfl, .stop hv fun _ => ?_⟩
        rw [pageMapped_of_invalid hvalid]
        decide
      | false =>
        rw [if_neg (by decide)]
        refine hskip fun i hi => pageMapped_of_invalid ?_
        rwa [hsamel2 i hi]
    rw [if_neg (by rw [hvalid]; decide)]
    by_cases hblock : (readEntry mem l2Table (v / 512)).isBlock = true
    · rw [if_pos hblock]
      cases b with
      | true =>
        rw [if_neg (by decide)]
        refine hskip fun i hi => pageMapped_of_block ?_
        rwa [hsamel2 i hi]
      | false =>
        rw [if_pos (by decide)]
        refine ⟨0, rfl, .stop hv fun _ => ?_⟩
        rw [pageMapped_of_block hblock]
        decide
    rw [if_neg hblock]
    rw [Bool.not_eq_true] at hblock
    have hl3 : v * 4096 / 2 ^ 12 % 512 = v % 512 := by omega
    rw [hl3]
    have hentry : ∀ i < 512 - v % 512, pageMapped mem l2Table (v + i) =
        (readEntry mem (readEntry mem l2Table (v / 512)).outputAddr (v % 512 + i)).isValid := by
      intro i hi
      have hdiv : (v + i) / 512 = v / 512 := by omega
      have hmod : (v + i) % 512 = v % 512 + i := by omega
      rw [pageMapped_of_table (by rwa [hdiv]) (by rwa [hdiv]), hdiv, hmod]
    rcases @scanL3_spec mem v _ b _ _ _ count hentry hv with
      ⟨k, hk, hrun⟩ | ⟨k, hkn, hk, hsame, hle', hend'⟩
    · rw [hk]
      exact ⟨k, rfl, hrun⟩
    · rw [hk]
      dsimp only
      obtain ⟨n, hn, hrun⟩ := @ih (v + k) (count + k) hle' (by omega)
      exact ⟨k + n, by rw [hn, Nat.add_assoc], hrun.extend hsame⟩

/-! ## Agreement with the walk -/

/-- The run that the query reports, by the walks of its pages. -/
theorem queryMappingRun_isRun (mem : Mem) (ttbr0 : Word) (h : v < userPages) :
    (queryMappingRun mem ttbr0 (v * pageSize)).1 = (leaf mem ttbr0 (v * pageSize)).isSome ∧
      IsRun (fun w => (leaf mem ttbr0 (w * pageSize)).isSome) userPages
        (queryMappingRun mem ttbr0 (v * pageSize)).1 v
        (queryMappingRun mem ttbr0 (v * pageSize)).2 := by
  have hva : ¬ v * pageSize ≥ userVaEnd := by
    unfold userPages userVaEnd pageSize at h
    unfold pageSize userVaEnd
    omega
  have hrest : (userVaEnd - v * pageSize) / 4096 = userPages - v := by
    unfold userPages userVaEnd pageSize
    omega
  have hl1 : v * pageSize / 2 ^ 30 % 512 = 0 := by
    unfold userPages userVaEnd pageSize at h
    unfold pageSize
    omega
  have hl2 : v * pageSize / 2 ^ 21 % 512 = v / 512 := by
    unfold userPages userVaEnd pageSize at h
    unfold pageSize
    omega
  have hl3 : v * pageSize / 2 ^ 12 % 512 = v % 512 := by
    unfold pageSize
    omega
  have hl1End : min ((0 + 1) * 2 ^ 30) userVaEnd = userVaEnd := by decide
  -- where the upper levels decide, all pages up to the end have the status of the first
  have hall {b : Bool} (hb : ∀ w < userPages, (leaf mem ttbr0 (w * pageSize)).isSome = b) :
      b = (leaf mem ttbr0 (v * pageSize)).isSome ∧
        IsRun (fun w => (leaf mem ttbr0 (w * pageSize)).isSome) userPages b v (userPages - v) :=
    ⟨(hb v h).symm, .rest (Nat.le_of_lt h) fun i hi => hb (v + i) (by omega)⟩
  rw [queryMappingRun, if_neg hva]
  dsimp only
  rw [hl1, hl2, hl3, hl1End, hrest]
  generalize hl0 : readEntry mem ttbr0 0 = l0
  generalize hl1e : readEntry mem l0.outputAddr 0 = l1
  have hleaf {w : Nat} (hw : w < userPages) : (leaf mem ttbr0 (w * pageSize)).isSome =
      (l0.isTable && (l1.isBlock || l1.isTable && pageMapped mem l1.outputAddr w)) := by
    grind [indices_page, leaf, pageMapped]
  by_cases h0 : l0.isTable = true
  swap
  · grind
  rw [if_neg (by rw [isValid_of_isTable h0, h0]; decide)]
  by_cases hv1 : l1.isValid = true
  swap
  · rw [Bool.not_eq_true] at hv1
    rw [if_pos (by rw [hv1]; rfl)]
    refine hall fun w hw => ?_
    rw [hleaf hw, isTable_eq l1, isBlock_of_not_isValid hv1, hv1,
      Bool.false_and, Bool.false_and, Bool.or_self, Bool.and_false]
  rw [if_neg (by rw [hv1]; decide)]
  by_cases hb1 : l1.isBlock = true
  · rw [if_pos hb1]
    exact hall fun w hw => by rw [hleaf hw, h0, hb1, Bool.true_or, Bool.true_and]
  rw [if_neg hb1]
  rw [Bool.not_eq_true] at hb1
  have hstatus {w : Nat} (hw : w < userPages) :
      (leaf mem ttbr0 (w * pageSize)).isSome = pageMapped mem l1.outputAddr w := by
    rw [hleaf hw, h0, isTable_eq l1, hv1, hb1, Bool.true_and, Bool.false_or,
      Bool.not_false, Bool.true_and, Bool.true_and]
  rw [← pageMapped_eq]
  obtain ⟨n, hn, hrun⟩ := @scanL2_spec mem l1.outputAddr v (pageMapped mem l1.outputAddr v)
    userPages 0 (Nat.le_of_lt h) (Nat.sub_le userPages v)
  refine ⟨(hstatus h).symm, ?_⟩
  dsimp only
  rw [show v * pageSize = v * 4096 from rfl, hn, Nat.zero_add]
  exact hrun.congr fun w hw => hstatus hw

/-- The query reports whether the first page is mapped, and how far the pages with its status
    reach, as the walk of every page would tell. -/
theorem queryMappingRun_agrees_with_walk (mem : Mem) (ttbr0 : Word) (startVa : Nat)
    (halign : startVa % pageSize = 0) (hlt : startVa < userVaEnd) :
    ((queryMappingRun mem ttbr0 startVa).1 = true ↔ ∃ phys, walk mem ttbr0 startVa = .done phys) ∧
      IsGreatest {n | startVa + n * pageSize ≤ userVaEnd ∧
          ∀ i < n, (walk mem ttbr0 (startVa + i * pageSize)).isDone =
            (queryMappingRun mem ttbr0 startVa).1}
        (queryMappingRun mem ttbr0 startVa).2 := by
  obtain ⟨v, rfl⟩ : ∃ v, startVa = v * pageSize :=
    ⟨startVa / pageSize, by rw [Nat.div_mul_cancel (Nat.dvd_of_mod_eq_zero halign)]⟩
  have hv : v < userPages := by
    unfold pageSize userVaEnd at hlt
    unfold userPages userVaEnd pageSize
    omega
  obtain ⟨hflag, hrun⟩ := queryMappingRun_isRun mem ttbr0 hv
  refine ⟨?_, ?_⟩
  · rw [hflag, ← isDone_walk]
    cases walk mem ttbr0 (v * pageSize) <;> simp [WalkResult.isDone]
  · have hset (n : Nat) : (v * pageSize + n * pageSize ≤ userVaEnd ∧
        ∀ i < n, (walk mem ttbr0 (v * pageSize + i * pageSize)).isDone =
          (queryMappingRun mem ttbr0 (v * pageSize)).1) ↔
        v + n ≤ userPages ∧ ∀ i < n, (leaf mem ttbr0 ((v + i) * pageSize)).isSome =
          (queryMappingRun mem ttbr0 (v * pageSize)).1 := by
      refine and_congr ?_ (forall₂_congr fun i _ => ?_)
      · unfold userPages userVaEnd pageSize
        omega
      · rw [isDone_walk, ← Nat.add_mul]
    simp only [hset]
    exact hrun.isGreatest

/-- Tables at 0x1000, 0x2000 and 0x3000; the first 2 MiB are a block, nothing else is mapped. -/
def blockMem : Mem := fun a =>
  if a = 0x1000#64 then 0x2003#64 else if a = 0x2000#64 then 0x3003#64
  else if a = 0x3000#64 then 0x401#64 else 0#64

theorem queryMappingRun_agrees_with_walk_block :
    queryMappingRun blockMem 0x1000#64 0x1000 = (true, 511) ∧
      (∃ phys, walk blockMem 0x1000#64 0x1000 = .done phys) ∧
      IsGreatest {n | 0x1000 + n * pageSize ≤ userVaEnd ∧
        ∀ i < n, (walk blockMem 0x1000#64 (0x1000 + i * pageSize)).isDone = true} 511 := by
  have heval : queryMappingRun blockMem 0x1000#64 0x1000 = (true, 511) := by decide +kernel
  have h := queryMappingRun_agrees_with_walk blockMem 0x1000#64 0x1000 (by decide) (by decide)
  rw [heval] at h
  exact ⟨heval, h.1.mp rfl, h.2⟩

end Lockjaw.Vmem
