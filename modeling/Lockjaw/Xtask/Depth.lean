/-
  Lockjaw.Xtask.Depth

  The stack bound of the stack checker, `worst_case_depth` of xtask/src/main.rs: the
  frame sizes along the deepest call path, by a recursion that keeps the depth of
  every node it has finished and takes a node in progress for 0.

  `none` stands for a sum that does not fit in 64 bits; the fuel of the recursion, one
  more than the graph has names, is enough.

  The depth kept for a node leaves out the paths through the nodes that were in progress
  when it was finished.  If every cycle is entered at one function (`EnteredOnce`), the
  nodes in progress that matter dominate the finished one, so a path from the entry has
  passed them already and nothing is lost.
-/

import Lockjaw.Xtask.Cycles
import Mathlib.Algebra.GroupWithZero.Nat
import Mathlib.Algebra.Order.BigOperators.Group.Finset

namespace Lockjaw.Xtask

open Relation List

/-! ## Frame sizes -/

def stripLlvmSuffix : List Char → List Char
  | [] => []
  | c :: cs => if " (.llvm.".toList.isPrefixOf (c :: cs) then [] else c :: stripLlvmSuffix cs

/-- `lookup_stack_size`: the name itself, without its suffix, the base of a generic name, a
    wildcard. -/
def lookupStackSize (name : String) (sizes : List (String × Nat)) : Option Nat :=
  let stripped := String.ofList (stripLlvmSuffix name.toList)
  (mapGet sizes name).or <| (if stripped ≠ name then mapGet sizes stripped else none).or <|
    ((sizes.find? fun e => (e.1.toList ++ "::<".toList).isPrefixOf name.toList).map Prod.snd).or <|
    sizes.findSome? fun e =>
      if e.1.toList.getLast? = some '*' ∧ e.1.toList.dropLast.isPrefixOf name.toList then some e.2
      else none

def frame (sizes : List (String × Nat)) (name : String) : Nat :=
  (lookupStackSize name sizes).getD 0

/-! ## The recursion -/

structure DepthState where
  memo : List (String × Nat)
  inProgress : List String

variable (g : CallGraph String) (sizes : List (String × Nat))

/-- The deepest callee so far; `depth` is the recursive call. -/
def deeper (depth : String → DepthState → Option (Nat × DepthState)) (acc : Nat × DepthState)
    (callee : String) : Option (Nat × DepthState) :=
  (depth callee acc.2).map fun r => (max acc.1 r.1, r.2)

def computeDepth : (fuel : Nat) → String → DepthState → Option (Nat × DepthState)
  | 0, _, _ => none
  | fuel + 1, node, s =>
    match mapGet s.memo node with
    | some cached => some (cached, s)
    | none =>
      if node ∈ s.inProgress then some (0, s)
      else
        ((g.callees node).foldlM (deeper (computeDepth fuel))
          (0, { s with inProgress := node :: s.inProgress })).bind fun r =>
        let total := frame sizes node + r.1
        if total < 2 ^ 64 then
          some (total, ⟨(node, total) :: r.2.memo, r.2.inProgress.erase node⟩)
        else none

/-- `worst_case_depth`; the inner `none` is an entry that is not in the graph. -/
def worstCaseDepth (entry : String) : Option (Option Nat) :=
  if entry ∈ g.keys then
    (computeDepth g sizes (g.names.length + 1) entry ⟨[], []⟩).map fun r => some r.1
  else some none

def pathSize (p : List String) : Nat := (p.map (frame sizes)).sum

/-- All frames of the graph together fit in 64 bits. -/
def Fits : Prop := ∑ f ∈ g.names.toFinset, frame sizes f < 2 ^ 64

instance : Decidable (Fits g sizes) := inferInstanceAs (Decidable (_ < _))

/-- The answer for an entry: no path without a repeated function is deeper, and one is as deep. -/
def Bounds (entry : String) : Prop :=
  ∃ d, worstCaseDepth g sizes entry = some (some d) ∧
    (∀ l, List.IsChain g.Calls (entry :: l) → (entry :: l).Nodup →
      pathSize sizes (entry :: l) ≤ d) ∧
    ∃ l, List.IsChain g.Calls (entry :: l) ∧ (entry :: l).Nodup ∧ pathSize sizes (entry :: l) = d

/-! ## Graphs whose cycles are entered at one function -/

variable (entry : String)

/-- The calls from the entry to the first of these functions, the newest first. -/
def CallGraph.Leads (p : List String) : Prop :=
  List.IsChain (fun v u => g.Calls u v) p ∧ p.getLast? = some entry

/-- Every path from the entry to `f` passes `h`. -/
def CallGraph.Dominates (h f : String) : Prop := ∀ p, g.Leads entry (f :: p) → h ∈ f :: p

/-- Every cycle without repetition has a function through which it is entered. -/
def CallGraph.EnteredOnce : Prop :=
  ∀ c, g.IsCycle c → c.Nodup → ∃ h ∈ c, ∀ f ∈ c, g.Dominates entry h f

/-- The depth kept for a node: of the paths without repetition that avoid what dominates it, and
    such a path is finished with it. -/
structure IsDepth (memo : List (String × Nat)) (node : String) (d : Nat) : Prop where
  le : ∀ l, List.IsChain g.Calls (node :: l) → (node :: l).Nodup →
    (∀ h ∈ l, ¬ g.Dominates entry h node) → pathSize sizes (node :: l) ≤ d
  eq : ∃ l, List.IsChain g.Calls (node :: l) ∧ (node :: l).Nodup ∧
    node :: l ⊆ memo.map Prod.fst ∧ pathSize sizes (node :: l) = d

/-- The depths kept are right, and no node in progress has one. -/
structure DepthState.Right (s : DepthState) : Prop where
  depths : ∀ node d, mapGet s.memo node = some d → IsDepth g sizes entry s.memo node d
  open_ : ∀ u ∈ s.inProgress, u ∉ s.memo.map Prod.fst
  nodup : s.inProgress.Nodup

variable {g sizes entry} {node v : String} {l p : List String} {s : DepthState} {fuel : Nat}

theorem pathSize_cons : pathSize sizes (node :: l) = frame sizes node + pathSize sizes l := by
  simp [pathSize]

/-- What dominates a callee, other than itself, dominates the caller. -/
theorem CallGraph.Dominates.caller {h : String} (hdom : g.Dominates entry h v)
    (hcall : g.Calls node v) (hne : h ≠ v) : g.Dominates entry h node := by
  intro p hp
  have hmem := hdom (node :: p)
    ⟨isChain_cons_cons.mpr ⟨hcall, hp.1⟩, by rw [getLast?_cons_cons]; exact hp.2⟩
  exact (mem_cons.mp hmem).resolve_left hne

/-- A call back to a node in progress goes to a function that dominates the caller. -/
theorem CallGraph.EnteredOnce.dominates (hred : g.EnteredOnce entry)
    (hp : g.Leads entry (node :: p)) (hnodup : (node :: p).Nodup) (hcall : g.Calls node v)
    (hv : v ∈ node :: p) : g.Dominates entry v node := by
  obtain ⟨l, hdrop, hchain, hnodup', hlast⟩ := CallGraph.Trail.drop ⟨hp.1, hnodup⟩ hv
  have hcycle : g.IsCycle (v :: l) := by
    refine ⟨v, l, rfl, hchain.append (isChain_singleton v) fun u hu w hw => ?_⟩
    cases Option.mem_unique hu hlast
    cases Option.mem_some.mp hw
    exact hcall
  obtain ⟨h, hh, hdom⟩ := hred _ hcycle hnodup'
  -- the nodes in progress up to `v` are a path from the entry to it, and the rest of the cycle
  -- is not on that path
  obtain ⟨a, b, hab⟩ := append_of_mem hv
  have hentry : g.Leads entry (v :: b) := by
    refine ⟨?_, ?_⟩
    · have := hp.1
      rw [hab] at this
      exact this.right_of_append
    · have := hp.2
      rw [hab, getLast?_append_of_ne_nil _ (by simp)] at this
      exact this
  have hmem := hdom v mem_cons_self b hentry
  suffices h = v by
    subst this
    exact hdom node (mem_of_getLast? hlast)
  rw [hab] at hnodup hdrop
  grind

theorem chain_names (hnode : node ∈ g.names) (h : List.IsChain g.Calls (node :: l)) :
    node :: l ⊆ g.names := by
  induction l generalizing node with
  | nil => simpa using hnode
  | cons v l ih =>
    obtain ⟨hcall, hl⟩ := isChain_cons_cons.mp h
    exact cons_subset.mpr ⟨hnode, ih hcall.mem.2 hl⟩

theorem Fits.lt (hfits : Fits g sizes) (hnode : node ∈ g.names)
    (hchain : List.IsChain g.Calls (node :: l)) (hnodup : (node :: l).Nodup) :
    pathSize sizes (node :: l) < 2 ^ 64 := by
  have hsub := chain_names hnode hchain
  rw [pathSize, ← sum_toFinset _ hnodup]
  exact Nat.lt_of_le_of_lt (Finset.sum_le_sum_of_subset fun u => by simpa using @hsub u) hfits

theorem IsDepth.mono {memo memo' : List (String × Nat)} {d : Nat}
    (h : IsDepth g sizes entry memo node d) (hsub : memo.map Prod.fst ⊆ memo'.map Prod.fst) :
    IsDepth g sizes entry memo' node d := by
  obtain ⟨l, hl, hnodup, hmem, hsum⟩ := h.eq
  exact ⟨h.le, l, hl, hnodup, Subset.trans hmem hsub, hsum⟩

/-- A result: a depth that is kept, or 0 for a node in progress. -/
def Result (g : CallGraph String) (sizes : List (String × Nat)) (entry node : String) (d : Nat)
    (s : DepthState) : Prop :=
  IsDepth g sizes entry s.memo node d ∨ node ∈ s.inProgress ∧ d = 0

/-- A call on a node that the nodes in progress lead to. -/
def Computes (g : CallGraph String) (sizes : List (String × Nat)) (entry : String) (fuel : Nat)
    (depth : String → DepthState → Option (Nat × DepthState)) : Prop :=
  ∀ node s, node ∈ g.names → s.Right g sizes entry → g.Leads entry (node :: s.inProgress) →
    g.unseen s.inProgress < fuel →
    ∃ d s', depth node s = some (d, s') ∧ s'.Right g sizes entry ∧
      s'.inProgress = s.inProgress ∧ s.memo.map Prod.fst ⊆ s'.memo.map Prod.fst ∧
      Result g sizes entry node d s'

theorem Computes.loop {depth : String → DepthState → Option (Nat × DepthState)} {m : Nat}
    (h : Computes g sizes entry fuel depth) (hright : s.Right g sizes entry)
    (hcalls : ∀ v ∈ l, v ∈ g.names ∧ g.Leads entry (v :: s.inProgress))
    (hfuel : g.unseen s.inProgress < fuel) :
    ∃ m' s', l.foldlM (deeper depth) (m, s) = some (m', s') ∧ s'.Right g sizes entry ∧
      s'.inProgress = s.inProgress ∧ s.memo.map Prod.fst ⊆ s'.memo.map Prod.fst ∧ m ≤ m' ∧
      (∀ v ∈ l, ∃ d ≤ m', Result g sizes entry v d s') ∧
      (m' = m ∨ ∃ v ∈ l, Result g sizes entry v m' s') := by
  induction l generalizing m s with
  | nil => exact ⟨m, s, rfl, hright, rfl, Subset.refl _, Nat.le_refl m, by simp, .inl rfl⟩
  | cons v l ih =>
    obtain ⟨hv, hrest⟩ := forall_mem_cons.mp hcalls
    obtain ⟨d, s1, hs1, hright1, hin, hsub, hresult⟩ := h v s hv.1 hright hv.2 hfuel
    rw [← hin] at hrest hfuel
    obtain ⟨m', s', hs', hright', hin', hsub', hle, hall, hsome⟩ :=
      ih hright1 hrest hfuel (m := max m d)
    have hresult' : Result g sizes entry v d s' :=
      hresult.imp (·.mono hsub') fun hv => ⟨hin' ▸ hv.1, hv.2⟩
    refine ⟨m', s', ?_, hright', hin'.trans hin, Subset.trans hsub hsub', by omega, ?_, ?_⟩
    · rw [foldlM_cons, deeper, hs1]
      exact hs'
    · exact forall_mem_cons.mpr ⟨⟨d, by omega, hresult'⟩, hall⟩
    · rcases hsome with rfl | ⟨u, hu, hdu⟩
      · rcases Nat.le_total d m with hdm | hdm
        · exact .inl (Nat.max_eq_left hdm)
        · rw [Nat.max_eq_right hdm]
          exact .inr ⟨v, mem_cons_self, Nat.max_eq_right hdm ▸ hresult'⟩
      · exact .inr ⟨u, mem_cons_of_mem _ hu, hdu⟩

/-- The depth of a node from the results of its callees. -/
theorem isDepth_of_results (hred : g.EnteredOnce entry) {m : Nat} {memo : List (String × Nat)}
    (hp : g.Leads entry (node :: s.inProgress)) (hnodup : (node :: s.inProgress).Nodup)
    (hnew : node ∉ memo.map Prod.fst)
    (hall : ∀ v, g.Calls node v → ∃ d ≤ m, Result g sizes entry v d ⟨memo, node :: s.inProgress⟩)
    (hsome : m = 0 ∨ ∃ v, g.Calls node v ∧
      Result g sizes entry v m ⟨memo, node :: s.inProgress⟩) :
    IsDepth g sizes entry ((node, frame sizes node + m) :: memo) node (frame sizes node + m) := by
  refine ⟨fun l hl hsimple havoid => ?_, ?_⟩
  · rw [pathSize_cons]
    cases l with
    | nil => exact Nat.add_le_add_left (Nat.zero_le m) _
    | cons v l =>
      obtain ⟨hv, hl⟩ := isChain_cons_cons.mp hl
      obtain ⟨d, hle, hd | ⟨hmem, -⟩⟩ := hall v hv
      · refine Nat.add_le_add_left ((hd.le l hl (nodup_cons.mp hsimple).2 ?_).trans hle) _
        intro h hh hdom
        exact havoid h (mem_cons_of_mem _ hh) (hdom.caller hv (by grind))
      -- a callee in progress closes a cycle; by `hred` it dominates the node, so no path counted
      -- here goes through it
      · exact absurd (hred.dominates hp hnodup hv hmem) (havoid v mem_cons_self)
  · have hnil : ∃ l, List.IsChain g.Calls (node :: l) ∧ (node :: l).Nodup ∧
        node :: l ⊆ ((node, frame sizes node + 0) :: memo).map Prod.fst ∧
        pathSize sizes (node :: l) = frame sizes node + 0 :=
      ⟨[], isChain_singleton _, nodup_singleton _, by simp, pathSize_cons⟩
    rcases hsome with rfl | ⟨v, hv, hd | ⟨-, rfl⟩⟩
    · exact hnil
    · obtain ⟨l, hl, hsimple, hsub, rfl⟩ := hd.eq
      refine ⟨v :: l, isChain_cons_cons.mpr ⟨hv, hl⟩, nodup_cons.mpr ⟨fun h => hnew (hsub h),
        hsimple⟩, ?_, pathSize_cons⟩
      exact cons_subset_cons node hsub
    · exact hnil

theorem computes_computeDepth (hred : g.EnteredOnce entry) (hfits : Fits g sizes) (fuel : Nat) :
    Computes g sizes entry fuel (computeDepth g sizes fuel) := by
  induction fuel with
  | zero => exact fun node s _ _ _ hfuel => absurd hfuel (Nat.not_lt_zero _)
  | succ fuel ih =>
    intro node s hnode hright hlead hfuel
    unfold computeDepth
    cases hmemo : mapGet s.memo node with
    | some cached =>
      exact ⟨cached, s, rfl, hright, rfl, Subset.refl _, .inl (hright.depths node cached hmemo)⟩
    | none =>
      dsimp only
      split
      -- a node in progress counts for nothing
      · exact ⟨0, s, rfl, hright, rfl, Subset.refl _, .inr ⟨‹_›, rfl⟩⟩
      rename_i hnew
      -- the node joins those in progress, so fewer nodes are left to enter
      have hless := CallGraph.unseen_cons_lt hnode hnew
      have hnodup : (node :: s.inProgress).Nodup := nodup_cons.mpr ⟨hnew, hright.nodup⟩
      have hclosed : node ∉ s.memo.map Prod.fst := by
        intro hmem
        obtain ⟨e, he, rfl⟩ := mem_map.mp hmem
        simpa using find?_eq_none.mp (Option.map_eq_none_iff.mp hmemo) e he
      obtain ⟨m, s', hs', hright', hin', hsub, -, hall, hsome⟩ := ih.loop (m := 0)
        (s := { s with inProgress := node :: s.inProgress }) (l := g.callees node)
        ⟨hright.depths, forall_mem_cons.mpr ⟨hclosed, hright.open_⟩, hnodup⟩
        (fun v (hv : g.Calls node v) => ⟨hv.mem.2, isChain_cons_cons.mpr ⟨hv, hlead.1⟩,
          by rw [getLast?_cons_cons]; exact hlead.2⟩) (by dsimp only; omega)
      obtain ⟨memo', inProgress'⟩ := s'
      obtain rfl : inProgress' = node :: s.inProgress := hin'
      have hnew' := hright'.open_ node mem_cons_self
      have hdepth := isDepth_of_results hred hlead hnodup hnew' hall
        (hsome.imp id fun ⟨v, hv, h⟩ => ⟨v, hv, h⟩)
      have hlt : frame sizes node + m < 2 ^ 64 := by
        obtain ⟨l, hl, hsimple, -, hsum⟩ := hdepth.eq
        exact hsum ▸ hfits.lt hnode hl hsimple
      refine ⟨_, _, by rw [hs']; exact if_pos hlt, ⟨?_, ?_, ?_⟩, erase_cons_head .., ?_,
        .inl hdepth⟩
      · intro u d hu
        rw [mapGet_cons] at hu
        split at hu
        · subst_vars
          cases hu
          exact hdepth
        · exact (hright'.depths u d hu).mono fun u hu => mem_cons_of_mem _ hu
      · intro u hu
        rw [erase_cons_head] at hu
        simp only [map_cons, mem_cons, not_or]
        exact ⟨fun h => hnew (h ▸ hu), hright'.open_ u (mem_cons_of_mem _ hu)⟩
      · rw [erase_cons_head]
        exact hright.nodup
      · exact fun u hu => mem_cons_of_mem _ (hsub hu)

/-! ## What the bound is good for -/

/-- If every cycle is entered at one function and all frames together fit in 64 bits, the answer
    is the size of the deepest path that repeats no function. -/
theorem depth_bounds_of_enteredOnce (g : CallGraph String) (sizes : List (String × Nat))
    (entry : String) (hkey : entry ∈ g.keys) (hfits : Fits g sizes)
    (hred : g.EnteredOnce entry) : Bounds g sizes entry := by
  obtain ⟨d, s, hd, -, hin, -, hdepth | ⟨hmem, -⟩⟩ := computes_computeDepth hred hfits _ entry
    ⟨[], []⟩ (g.keys_subset hkey) ⟨by simp, by simp, nodup_nil⟩ ⟨isChain_singleton _, rfl⟩
    g.unseen_nil_lt
  · refine ⟨d, by rw [worstCaseDepth, if_pos hkey, hd]; rfl, fun l hl hsimple => ?_, ?_⟩
    · -- nothing but the entry dominates the entry
      refine hdepth.le l hl hsimple fun h hh hdom => ?_
      have := hdom [] ⟨isChain_singleton _, rfl⟩
      grind
    · obtain ⟨l, hl, hsimple, -, hsum⟩ := hdepth.eq
      exact ⟨l, hl, hsimple, hsum⟩
  · rw [hin] at hmem
    cases hmem

/-- "a" and "b" call each other; only "a" is called from outside. -/
def pair : CallGraph String where
  entries := [("main", ["a"]), ("a", ["b", "c"]), ("b", ["a"]), ("c", [])]
  nodup := by decide

def pairSizes : List (String × Nat) := [("main", 16), ("a", 32), ("b", 48), ("c", 8)]

theorem pair_calls {u v : String} (h : pair.Calls u v) :
    u = "main" ∧ v = "a" ∨ u = "a" ∧ (v = "b" ∨ v = "c") ∨ u = "b" ∧ v = "a" := by
  simp only [CallGraph.Calls, CallGraph.callees, pair, mapGet_cons, mapGet_nil] at h
  grind

/-- The recursion is entered through "a", and the answer is the size of main, a, b. -/
theorem depth_bounds_of_enteredOnce_pair :
    worstCaseDepth pair pairSizes "main" = some (some 96) ∧ Bounds pair pairSizes "main" := by
  refine ⟨by decide +kernel, depth_bounds_of_enteredOnce pair pairSizes "main" (by decide)
    (by decide +kernel) ?_⟩
  rintro c ⟨v, l, rfl, hchain⟩ -
  have hcalled : ∀ f ∈ v :: l, ∃ u, pair.Calls u f := by
    intro f hf
    have hpair := isChain_iff_pairwise.mp (hchain.imp fun _ _ => TransGen.single)
    obtain ⟨u, -, hu⟩ := TransGen.tail'_iff.mp (rel_of_pairwise_cons hpair (by grind : f ∈ l ++ [v]))
    exact ⟨u, hu⟩
  refine ⟨"a", ?_, fun f hf p hp => ?_⟩
  · obtain ⟨u, hu⟩ := hcalled v mem_cons_self
    have := pair_calls hu
    cases l <;> grind [pair_calls]
  · obtain ⟨u, hu⟩ := hcalled f hf
    have := pair_calls hu
    cases p with
    | nil => grind [hp.2]
    | cons w p => grind [pair_calls (isChain_cons_cons.mp hp.1).1]

/-- "x" and "b" call each other, "e" calls both, and only "x" calls "c". -/
def knot : CallGraph String where
  entries := [("e", ["x", "b"]), ("x", ["b", "c"]), ("b", ["x"]), ("c", [])]
  nodup := by decide

def knotSizes : List (String × Nat) := [("e", 0), ("x", 0), ("b", 1), ("c", 1)]

/-- The depth kept for "b" is that of "b" while "x" was in progress, so the path from "e" through
    "b" and "x" to "c" is deeper than the answer, in a graph that passes with "x" allowed. -/
theorem deep_path_missed : Passes knot {"x"} ∧ Fits knot knotSizes ∧
    worstCaseDepth knot knotSizes "e" = some (some 1) ∧
    List.IsChain knot.Calls ["e", "b", "x", "c"] ∧ ["e", "b", "x", "c"].Nodup ∧
    pathSize knotSizes ["e", "b", "x", "c"] = 2 :=
  ⟨⟨[["x", "b", "x"]], by decide +kernel, by decide⟩, by decide +kernel, by decide +kernel,
    by simp [CallGraph.Calls, CallGraph.callees, knot], by decide, by decide +kernel⟩

end Lockjaw.Xtask
