/-
  Lockjaw.Xtask.Cycles

  The recursion check of the stack checker, xtask/src/main.rs: `detect_cycles`, a
  depth-first search that reports the cycle each back edge closes, and the filter of
  `check_stack_for_profile` that drops the cycles with an allowed function.

  The maps of the source are hash tables, so a graph here lists its nodes in the
  order in which they are iterated.  The recursion has fuel, one more than the graph
  has names, and that is enough.

  A back edge is reported with the path that led to it, so an allowed function on that
  path hides every other cycle the edge closes.  What the search cannot hide is a cycle
  of `Clear` calls: after a run without an unguarded report no chain of them is infinite.
-/

import Mathlib.Data.Finset.Card
import Mathlib.Data.List.Chain
import Mathlib.Order.WellFounded

namespace Lockjaw.Xtask

open List

/-- `HashMap::get`, of a map by its entries. -/
def mapGet {α β : Type} [DecidableEq α] (entries : List (α × β)) (key : α) : Option β :=
  (entries.find? (·.1 = key)).map Prod.snd

@[simp] theorem mapGet_nil {α β : Type} [DecidableEq α] (key : α) :
    mapGet ([] : List (α × β)) key = none := rfl

@[simp] theorem mapGet_cons {α β : Type} [DecidableEq α] (k : α) (v : β) (entries : List (α × β))
    (key : α) :
    mapGet ((k, v) :: entries) key = if k = key then some v else mapGet entries key := by
  by_cases h : k = key <;> simp [mapGet, h]

structure CallGraph (α : Type) where
  entries : List (α × List α)
  nodup : (entries.map Prod.fst).Nodup

namespace CallGraph

variable {α : Type} [DecidableEq α] (g : CallGraph α)

def keys : List α := g.entries.map Prod.fst

/-- The functions a node calls; none if the graph does not have it. -/
def callees (node : α) : List α := (mapGet g.entries node).getD []

/-- Every name in the graph, with repetitions. -/
def names : List α := g.entries.flatMap fun e => e.1 :: e.2

def Calls (u v : α) : Prop := v ∈ g.callees u

/-- A directed cycle, by its nodes from any one of them on. -/
def IsCycle (c : List α) : Prop := ∃ v l, c = v :: l ∧ List.IsChain g.Calls (v :: l ++ [v])

/-- The call from `u` to `v` is on no cycle without repetition that has an allowed function. -/
def Clear (allowed : Finset α) (u v : α) : Prop :=
  g.Calls u v ∧ ∀ l, List.IsChain g.Calls (v :: l) → (v :: l).Nodup → u ∈ (v :: l).getLast? →
    ∀ f ∈ v :: l, f ∉ allowed

end CallGraph

/-! ## The search -/

/-- The state `dfs_cycles` passes on. -/
structure Search (α : Type) where
  visited : List α
  onStack : List α
  path : List α
  cycles : List (List α)

section

variable {α : Type} [DecidableEq α] (g : CallGraph α)

/-- What `dfs_cycles` does for one neighbor; `dfs` is the recursive call. -/
def visit (dfs : α → Search α → Option (Search α)) (s : Search α) (next : α) :
    Option (Search α) :=
  if next ∉ s.visited then dfs next s
  else if next ∈ s.onStack then
    some { s with cycles := s.cycles ++ [s.path.drop (s.path.idxOf next) ++ [next]] }
  else some s

def dfsCycles : (fuel : Nat) → α → Search α → Option (Search α)
  | 0, _, _ => none
  | fuel + 1, node, s =>
    ((g.callees node).foldlM (visit (dfsCycles fuel)) { s with
      visited := node :: s.visited, onStack := node :: s.onStack, path := s.path ++ [node] }).map
    fun s => { s with path := s.path.dropLast, onStack := s.onStack.erase node }

theorem dfsCycles_succ (fuel : Nat) (node : α) (s : Search α) :
    dfsCycles g (fuel + 1) node s =
      ((g.callees node).foldlM (visit (dfsCycles g fuel)) { s with
        visited := node :: s.visited, onStack := node :: s.onStack, path := s.path ++ [node] }).map
      fun s => { s with path := s.path.dropLast, onStack := s.onStack.erase node } := rfl

def detectCycles : Option (List (List α)) :=
  (g.keys.foldlM (fun s node =>
    if node ∉ s.visited then dfsCycles g (g.names.length + 1) node s else some s)
    ⟨[], [], [], []⟩).map Search.cycles

/-- The reported cycles without an allowed function. -/
def realCycles (allowed : Finset α) (cycles : List (List α)) : List (List α) :=
  cycles.filter fun cycle => !cycle.any (· ∈ allowed)

/-- The checker says "No unguarded cycles". -/
def Passes (allowed : Finset α) : Prop :=
  ∃ cycles, detectCycles g = some cycles ∧ realCycles allowed cycles = []

end

/-! ## A search without an unguarded report -/

section

variable {α : Type} [DecidableEq α] {g : CallGraph α} {allowed : Finset α}

theorem CallGraph.Calls.mem {u v : α} (h : g.Calls u v) : u ∈ g.keys ∧ v ∈ g.names := by
  unfold Calls callees mapGet at h
  cases hget : g.entries.find? (·.1 = u) with
  | none => simp [hget] at h
  | some e =>
    have hmem := mem_of_find?_eq_some hget
    obtain rfl : e.1 = u := by simpa using find?_some hget
    rw [hget] at h
    exact ⟨mem_map_of_mem hmem, mem_flatMap.mpr ⟨e, hmem, mem_cons_of_mem _ h⟩⟩

/-- The calls that led to the nodes of a stack, the newest first. -/
def CallGraph.Trail (g : CallGraph α) (stack : List α) : Prop :=
  List.IsChain (fun v u => g.Calls u v) stack ∧ stack.Nodup

/-- The part of the current path that begins at a node of the stack. -/
theorem CallGraph.Trail.drop {node v : α} {stack : List α} (h : g.Trail (node :: stack))
    (hv : v ∈ node :: stack) : ∃ l,
      (node :: stack).reverse.drop ((node :: stack).reverse.idxOf v) = v :: l ∧
      List.IsChain g.Calls (v :: l) ∧ (v :: l).Nodup ∧ node ∈ (v :: l).getLast? := by
  have hlt : (node :: stack).reverse.idxOf v < (node :: stack).reverse.length :=
    idxOf_lt_length_iff.mpr (mem_reverse.mpr hv)
  have heq := drop_eq_getElem_cons hlt
  rw [getElem_idxOf hlt] at heq
  refine ⟨_, heq, ?_, ?_, ?_⟩
  · rw [← heq]
    exact (isChain_reverse.mpr h.1).drop _
  · rw [← heq]
    exact (nodup_reverse.mpr h.2).sublist (drop_sublist _ _)
  · rw [← heq, getLast?_drop, if_neg (Nat.not_le.mpr hlt)]
    simp

/-- No infinite chain of clear calls begins at `u`. -/
def CallGraph.Ends (g : CallGraph α) (allowed : Finset α) (u : α) : Prop :=
  Acc (fun v u => g.Clear allowed u v) u

/-- Everything the search is done with ends. -/
def Search.Done (g : CallGraph α) (allowed : Finset α) (s : Search α) : Prop :=
  ∀ u ∈ s.visited, u ∉ s.onStack → g.Ends allowed u

/-- How many names of the graph are not among those seen. -/
def CallGraph.unseen (g : CallGraph α) (seen : List α) : Nat :=
  (g.names.toFinset \ seen.toFinset).card

theorem CallGraph.unseen_le {seen seen' : List α} (h : seen ⊆ seen') :
    g.unseen seen' ≤ g.unseen seen :=
  Finset.card_le_card (Finset.sdiff_subset_sdiff (Finset.Subset.refl _)
    fun u => by simpa using @h u)

theorem CallGraph.unseen_cons_lt {seen : List α} {node : α} (hnode : node ∈ g.names)
    (hnew : node ∉ seen) : g.unseen (node :: seen) < g.unseen seen := by
  apply Finset.card_lt_card
  refine ⟨Finset.sdiff_subset_sdiff (Finset.Subset.refl _) (by simp), fun hsub => ?_⟩
  have hmem : node ∈ g.names.toFinset \ (node :: seen).toFinset := hsub (by simp [hnode, hnew])
  simp at hmem

/-- The search is inside the calls of a stack. -/
structure Search.At (stack : List α) (s : Search α) : Prop where
  onStack : s.onStack = stack
  path : s.path = stack.reverse
  visited : stack ⊆ s.visited

/-- From one state of the search to a later one at the same depth. -/
structure Later (g : CallGraph α) (allowed : Finset α) (s s' : Search α) : Prop where
  visited : s.visited ⊆ s'.visited
  onStack : s'.onStack = s.onStack
  path : s'.path = s.path
  cycles : s.cycles ⊆ s'.cycles
  done : realCycles allowed s'.cycles = [] → s.Done g allowed → s'.Done g allowed

theorem realCycles_nil_of_subset {cycles cycles' : List (List α)} (h : cycles ⊆ cycles')
    (hnil : realCycles allowed cycles' = []) : realCycles allowed cycles = [] :=
  filter_eq_nil_iff.mpr fun c hc => filter_eq_nil_iff.mp hnil c (h hc)

theorem Later.refl (s : Search α) : Later g allowed s s :=
  ⟨List.Subset.refl _, rfl, rfl, List.Subset.refl _, fun _ => id⟩

theorem Later.trans {s s' s'' : Search α} (h : Later g allowed s s')
    (h' : Later g allowed s' s'') : Later g allowed s s'' :=
  ⟨Subset.trans h.visited h'.visited, h'.onStack.trans h.onStack, h'.path.trans h.path,
    Subset.trans h.cycles h'.cycles, fun hnil hs =>
      h'.done hnil (h.done (realCycles_nil_of_subset h'.cycles hnil) hs)⟩

theorem Search.At.later {stack : List α} {s s' : Search α} (hs : s.At stack)
    (h : Later g allowed s s') : s'.At stack :=
  ⟨h.onStack.trans hs.onStack, h.path.trans hs.path, Subset.trans hs.visited h.visited⟩

/-- The body of a loop, run inside the calls of this stack with this fuel: it returns, its node is
    visited, and a node on the stack is reported with the path from it on. -/
def Visits (g : CallGraph α) (allowed : Finset α) (fuel : Nat) (stack : List α)
    (body : Search α → α → Option (Search α)) : Prop :=
  ∀ s v, s.At stack → v ∈ g.names → (v ∉ stack → g.Trail (v :: stack)) →
    g.unseen s.visited < fuel → ∃ s', body s v = some s' ∧ Later g allowed s s' ∧
      v ∈ s'.visited ∧ (v ∈ stack → stack.reverse.drop (stack.reverse.idxOf v) ++ [v] ∈ s'.cycles)

theorem Visits.loop {fuel : Nat} {stack l : List α} {body : Search α → α → Option (Search α)}
    {s : Search α} (hbody : Visits g allowed fuel stack body) (hs : s.At stack)
    (hl : ∀ v ∈ l, v ∈ g.names ∧ (v ∉ stack → g.Trail (v :: stack)))
    (hfuel : g.unseen s.visited < fuel) :
    ∃ s', l.foldlM body s = some s' ∧ Later g allowed s s' ∧ ∀ v ∈ l, v ∈ s'.visited ∧
      (v ∈ stack → stack.reverse.drop (stack.reverse.idxOf v) ++ [v] ∈ s'.cycles) := by
  induction l generalizing s with
  | nil => exact ⟨s, rfl, .refl s, by simp⟩
  | cons v l ih =>
    obtain ⟨⟨hv, htrail⟩, hl⟩ := forall_mem_cons.mp hl
    obtain ⟨s1, hs1, hlater, hmem, hreport⟩ := hbody s v hs hv htrail hfuel
    obtain ⟨s', hs', hlater', hrest⟩ := ih (hs.later hlater) hl
      (Nat.lt_of_le_of_lt (CallGraph.unseen_le hlater.visited) hfuel)
    refine ⟨s', by rw [foldlM_cons, hs1]; exact hs', hlater.trans hlater', ?_⟩
    exact forall_mem_cons.mpr
      ⟨⟨hlater'.visited hmem, fun hon => hlater'.cycles (hreport hon)⟩, hrest⟩

/-- A call of `dfs_cycles` on a new node. -/
def Explores (g : CallGraph α) (allowed : Finset α) (fuel : Nat)
    (dfs : α → Search α → Option (Search α)) : Prop :=
  ∀ node s stack, s.At stack → node ∈ g.names → node ∉ s.visited → g.Trail (node :: stack) →
    g.unseen s.visited < fuel →
    ∃ s', dfs node s = some s' ∧ Later g allowed s s' ∧ node ∈ s'.visited

theorem Explores.visits {fuel : Nat} {dfs : α → Search α → Option (Search α)}
    (hdfs : Explores g allowed fuel dfs) (stack : List α) :
    Visits g allowed fuel stack (visit dfs) := by
  intro s v hs hv htrail hfuel
  unfold visit
  split
  · rename_i hnew
    have hoff : v ∉ stack := fun hon => hnew (hs.visited hon)
    obtain ⟨s', hs', hlater, hmem⟩ := hdfs v s stack hs hv hnew (htrail hoff) hfuel
    exact ⟨s', hs', hlater, hmem, fun hon => absurd hon hoff⟩
  · rename_i hold
    split
    · exact ⟨_, rfl, ⟨List.Subset.refl _, rfl, rfl, by simp, fun _ => id⟩, not_not.mp hold,
        fun _ => by simp [hs.path]⟩
    · rename_i hoff
      exact ⟨s, rfl, .refl s, not_not.mp hold, fun hon => absurd (hs.onStack ▸ hon) hoff⟩

theorem explores_dfsCycles (fuel : Nat) : Explores g allowed fuel (dfsCycles g fuel) := by
  induction fuel with
  | zero => exact fun node s _ _ _ _ _ hfuel => absurd hfuel (Nat.not_lt_zero _)
  | succ fuel ih =>
    intro node s stack hs hnode hnew htrail hfuel
    have hless := CallGraph.unseen_cons_lt hnode hnew
    have hat : Search.At (node :: stack)
        ⟨node :: s.visited, node :: s.onStack, s.path ++ [node], s.cycles⟩ :=
      ⟨by rw [hs.onStack], by simp [hs.path], cons_subset_cons node hs.visited⟩
    obtain ⟨s2, hs2, hlater, hcalls⟩ := (ih.visits (node :: stack)).loop hat
      (l := g.callees node)
      (fun v (hv : g.Calls node v) => ⟨hv.mem.2, fun hoff =>
        ⟨isChain_cons_cons.mpr ⟨hv, htrail.1⟩, nodup_cons.mpr ⟨hoff, htrail.2⟩⟩⟩)
      (by dsimp only; omega)
    have hat2 := hat.later hlater
    refine ⟨⟨s2.visited, s2.onStack.erase node, s2.path.dropLast, s2.cycles⟩,
      by rw [dfsCycles_succ, hs2]; rfl, ⟨fun u hu => hlater.visited (mem_cons_of_mem _ hu),
      by rw [hat2.onStack, erase_cons_head, hs.onStack], by simp [hat2.path, hs.path],
      hlater.cycles, fun hnil hdone => ?_⟩, hlater.visited mem_cons_self⟩
    have hends := hlater.done hnil fun u hu hoff => hdone u (by grind) (by grind)
    intro u hu hoff
    by_cases hself : u = node
    · -- every clear call of the node is done: one back to the stack is reported and unguarded
      subst hself
      refine ⟨u, fun v hv => ?_⟩
      obtain ⟨hmem, hreport⟩ := hcalls v hv.1
      refine hends v hmem fun hon => ?_
      rw [hat2.onStack] at hon
      obtain ⟨l, hdrop, hchain, hnodup, hlast⟩ := htrail.drop hon
      have hfree := hv.2 l hchain hnodup hlast
      have hguard := filter_eq_nil_iff.mp hnil _ (hreport hon)
      simp only [hdrop] at hguard
      grind
    · refine hends u hu ?_
      rw [hat2.onStack, erase_cons_head] at hoff
      rw [hat2.onStack]
      simp [hself, hoff]

omit [DecidableEq α] in
theorem CallGraph.keys_subset (g : CallGraph α) : g.keys ⊆ g.names := by
  intro u hu
  obtain ⟨e, he, rfl⟩ := mem_map.mp hu
  exact mem_flatMap.mpr ⟨e, he, mem_cons_self⟩

theorem CallGraph.unseen_nil_lt (g : CallGraph α) : g.unseen [] < g.names.length + 1 :=
  Nat.lt_succ_of_le ((Finset.card_le_card Finset.sdiff_subset).trans (toFinset_card_le _))

/-- The search returns, and if every cycle it reports is guarded then no chain of clear calls is
    infinite. -/
theorem detectCycles_ends (g : CallGraph α) (allowed : Finset α) :
    ∃ cycles, detectCycles g = some cycles ∧
      (realCycles allowed cycles = [] → ∀ u, g.Ends allowed u) := by
  have hvisits : Visits g allowed (g.names.length + 1) [] fun s node =>
      if node ∉ s.visited then dfsCycles g (g.names.length + 1) node s else some s := by
    intro s v hs hv htrail hfuel
    dsimp only
    split
    · obtain ⟨s', hs', hlater, hmem⟩ :=
        explores_dfsCycles _ v s [] hs hv ‹_› (htrail not_mem_nil) hfuel
      exact ⟨s', hs', hlater, hmem, nofun⟩
    · exact ⟨s, rfl, .refl s, not_not.mp ‹_›, nofun⟩
  obtain ⟨s, hs, hlater, hall⟩ := hvisits.loop (s := ⟨[], [], [], []⟩) ⟨rfl, rfl, nil_subset _⟩
    (fun v hv => ⟨g.keys_subset hv, fun _ => ⟨isChain_singleton _, nodup_singleton _⟩⟩)
    g.unseen_nil_lt
  refine ⟨s.cycles, by rw [detectCycles, hs]; rfl, fun hnil u => ⟨u, fun v hv => ?_⟩⟩
  have hdone := hlater.done hnil (by simp [Search.Done])
  exact (hdone u (hall u hv.1.mem.1).1 (by simp [hlater.onStack])).inv hv

open Relation in
omit [DecidableEq α] in
/-- Each function of a cycle leads back to itself. -/
theorem transGen_of_cycle {r : α → α → Prop} {v : α} {l : List α}
    (h : List.IsChain r (v :: l ++ [v])) : TransGen r v v :=
  rel_of_pairwise_cons (isChain_iff_pairwise.mp (h.imp fun _ _ => TransGen.single)) (by simp)

/-- What passes has no cycle of clear calls. -/
theorem Passes.no_clear_cycle (h : Passes g allowed) {v : α} {l : List α} :
    ¬ List.IsChain (g.Clear allowed) (v :: l ++ [v]) := by
  intro hchain
  obtain ⟨cycles, hcycles, hends⟩ := detectCycles_ends g allowed
  obtain ⟨cycles', hcycles', hreal⟩ := h
  obtain rfl := Option.some.inj (hcycles.symm.trans hcycles')
  exact (WellFounded.intro (hends hreal)).transGen.irrefl.irrefl v
    (Relation.transGen_swap.mpr (transGen_of_cycle hchain))

end

/-! ## What the checker lets pass -/

/-- The search returns; and if a graph with an unguarded cycle has one of clear calls, then what
    passes has no unguarded cycle. -/
theorem passes_guarded_of_clear (g : CallGraph String) (allowed : Finset String)
    (hclear : (∃ c, g.IsCycle c ∧ ∀ f ∈ c, f ∉ allowed) →
      ∃ v l, List.IsChain (g.Clear allowed) (v :: l ++ [v])) :
    (detectCycles g).isSome ∧
      (Passes g allowed → ∀ c, g.IsCycle c → ∃ f ∈ c, f ∈ allowed) := by
  obtain ⟨cycles, hcycles, -⟩ := detectCycles_ends g allowed
  refine ⟨by rw [hcycles]; rfl, fun hpass c hc => ?_⟩
  by_contra hfree
  obtain ⟨v, l, hchain⟩ := hclear ⟨c, hc, fun f hf hallowed => hfree ⟨f, hf, hallowed⟩⟩
  exact hpass.no_clear_cycle hchain

/-- A function that calls itself, beside one that does not. -/
def selfCall : CallGraph String where
  entries := [("e", ["x", "y"]), ("x", ["x"]), ("y", [])]
  nodup := by decide

/-- The checker lets the recursion of "x" pass, and it is the only one. -/
theorem passes_guarded_of_clear_selfCall : Passes selfCall {"x"} ∧
    ∀ c, selfCall.IsCycle c → ∃ f ∈ c, f ∈ ({"x"} : Finset String) := by
  have hpass : Passes selfCall {"x"} := ⟨[["x", "x"]], by decide +kernel, by decide⟩
  refine ⟨hpass, (passes_guarded_of_clear selfCall {"x"} ?_).2 hpass⟩
  rintro ⟨c, ⟨v, l, rfl, hchain⟩, hfree⟩
  have hcalls : ∀ u w, selfCall.Calls u w →
      u = "e" ∧ w = "x" ∨ u = "e" ∧ w = "y" ∨ u = "x" ∧ w = "x" := by
    intro u w h
    simp only [CallGraph.Calls, CallGraph.callees, selfCall, mapGet_cons, mapGet_nil] at h
    grind
  -- a function on a cycle is called and calls
  have hcycle := transGen_of_cycle hchain
  obtain ⟨w, hw, -⟩ := Relation.TransGen.head'_iff.mp hcycle
  obtain ⟨u, -, hu⟩ := Relation.TransGen.tail'_iff.mp hcycle
  have hv : v = "x" := by grind
  exact absurd (Finset.mem_singleton.mpr hv) (hfree v (by simp))

/-- "a" and "b" call each other, "a" through "x" too. -/
def detour : CallGraph String where
  entries := [("a", ["x", "b"]), ("x", ["b"]), ("b", ["a"])]
  nodup := by decide

/-- The search goes through "x" first and reports only that cycle, so with "x" allowed "a" and "b"
    may call each other without end. -/
theorem unguarded_cycle_passes : Passes detour {"x"} ∧
    ∃ c, detour.IsCycle c ∧ ∀ f ∈ c, f ∉ ({"x"} : Finset String) :=
  ⟨⟨[["a", "x", "b", "a"]], by decide +kernel, by decide⟩, ["a", "b"], ⟨"a", ["b"], rfl, by
    simp [CallGraph.Calls, CallGraph.callees, detour]⟩, by decide⟩

end Lockjaw.Xtask
