/-
  Lockjaw.Fdt.WalkSpec

  What the walk does, one lemma per token.  `Reach w w'` says that the loop gets
  from `w` to `w'` in some number of turns; a token whose bytes stand at `w.pos`
  gives one such step with the effect stated, and steps compose.

  Two facts hold for any blob: every turn moves on by at least four bytes, so
  the loop's fuel never matters (`walkLoop_fuel`), and a walk with any callback is
  a fold of the callback over the same list of nodes (`walkFdt_eq_fold`).
-/

import Lockjaw.Fdt.Tree

namespace Lockjaw.Fdt

open Lib List

variable {data : Bytes} {pos : Nat}

/-! ## Alignment -/

theorem le_align4 (n : Nat) : n ≤ align4 n := by
  unfold align4
  omega

theorem align4_mod (n : Nat) : align4 n % 4 = 0 := by
  unfold align4
  omega

theorem align4_add {m : Nat} (hm : m % 4 = 0) (n : Nat) : align4 (m + n) = m + align4 n := by
  unfold align4
  omega

@[simp] theorem length_pad4 (bs : Bytes) : (pad4 bs).length = align4 bs.length := by
  have hle := le_align4 bs.length
  simp only [pad4, length_append, length_replicate]
  omega

theorem Item.token_mod (it : Item) : it.token.length % 4 = 0 := by
  unfold Item.token
  cases it.lexeme with
  | beginNode name =>
    have h := align4_mod (name ++ [0]).length
    simp only [length_append, length_be32, length_pad4] at h ⊢
    omega
  | endNode => exact congrArg (· % 4) (length_be32 _)
  | prop name value =>
    have h := align4_mod value.length
    simp only [length_append, length_be32, length_pad4]
    omega
  | finish => exact congrArg (· % 4) (length_be32 _)

theorem Item.bytes_mod (it : Item) : it.bytes.length % 4 = 0 := by
  have h := it.token_mod
  simp only [Item.bytes, length_append, length_be32s]
  omega

/-! ## Reading what is written -/

theorem readU32Be_of_holds {w : UInt32} (h : Holds data pos (be32 w)) :
    readU32Be data pos = .ok w := by
  simp only [readU32Be, h.readBe32]

theorem readU32Be_in_bounds (h : pos + 4 ≤ data.length) : ∃ w, readU32Be data pos = .ok w := by
  simp only [readU32Be, readBe32, getElem?_eq_getElem (show pos < data.length by omega),
    getElem?_eq_getElem (show pos + 1 < data.length by omega),
    getElem?_eq_getElem (show pos + 2 < data.length by omega),
    getElem?_eq_getElem (show pos + 3 < data.length by omega)]
  exact ⟨_, rfl⟩

@[simp] theorem length_cellWords (cells : UInt32) (v : UInt64) :
    (cellWords cells v).length = cells.toNat := by
  unfold cellWords
  split <;> simp_all

theorem readCells_of_holds {cells : UInt32} {v : UInt64} (hc : cells = 1 ∨ cells = 2)
    (hf : Fits cells v) (h : Holds data pos (be32s (cellWords cells v))) :
    readCells data pos cells = .ok v := by
  rcases hc with rfl | rfl
  · have hw : Holds data pos (be32 v.toUInt32) := by simpa [cellWords] using h
    have hv : v.toUInt32.toUInt64 = v := by
      apply UInt64.toNat_inj.mp
      have hlt : v.toNat < 2 ^ 32 := hf
      simp only [UInt32.toNat_toUInt64, UInt64.toNat_toUInt32]
      omega
    simp only [readCells, if_pos, readU32Be_of_holds hw, bind, Except.bind, pure, Except.pure, hv]
  · have hw : Holds data pos (be32 (v >>> 32).toUInt32 ++ be32 v.toUInt32) := by
      simpa [cellWords] using h
    obtain ⟨hhi, hlo⟩ := holds_append.mp hw
    have hv : ((v >>> 32).toUInt32.toUInt64 <<< 32) ||| v.toUInt32.toUInt64 = v := by
      apply UInt64.toNat_inj.mp
      have hlt := v.toNat_lt
      have h32 : (32 : UInt64).toNat % 64 = 32 := rfl
      have hhigh : (v.toNat / 2 ^ 32 % 2 ^ 32) <<< 32 < 2 ^ 64 := by
        rw [Nat.shiftLeft_eq]
        omega
      simp only [UInt64.toNat_or, UInt64.toNat_shiftLeft, UInt32.toNat_toUInt64,
        UInt64.toNat_toUInt32, UInt64.toNat_shiftRight, h32, Nat.shiftRight_eq_div_pow]
      rw [Nat.mod_eq_of_lt hhigh, ← Nat.shiftLeft_add_eq_or_of_lt (by omega), Nat.shiftLeft_eq]
      omega
    have h21 : ¬ (2 : UInt32) = 1 := by decide
    simp only [readCells, if_neg h21, if_pos, readU32Be_of_holds hhi,
      readU32Be_of_holds (length_be32 _ ▸ hlo), bind, Except.bind, pure, Except.pure, hv]

/-! ## Turns of the loop -/

section Loop

variable {σ : Type} {offDtStrings : Nat} {onNode : σ → Bytes → NodeState → σ} {w w' : Walk σ}

theorem bind_ok {α β : Type} {r : Except Fault α} {k : α → Except Fault β} {b : β}
    (h : (r >>= k) = .ok b) : ∃ a, r = .ok a ∧ k a = .ok b := by
  cases r with
  | error e => cases h
  | ok a => exact ⟨a, rfl, h⟩

theorem beginNode_pos (h : beginNode data w = .ok w') : w.pos ≤ w'.pos := by
  have hle := le_align4 (w.pos + (readString data w.pos).length + 1)
  unfold beginNode at h
  obtain ⟨cells, -, h⟩ := bind_ok h
  dsimp only at h
  split at h
  · cases h
    exact Nat.le_trans (by omega) hle
  · cases h
    exact Nat.le_trans (by omega) hle

theorem endNode_pos (h : endNode data onNode w = .ok w') : w.pos = w'.pos := by
  unfold endNode at h
  split at h
  · cases h
  · dsimp only at h
    split at h
    · obtain ⟨s, -, h⟩ := bind_ok h
      cases h
      rfl
    · cases h
      rfl

theorem readProp_pos (h : readProp data offDtStrings w = .ok w') : w.pos ≤ w'.pos := by
  unfold readProp at h
  split at h
  · cases h
  · obtain ⟨propLen, -, h⟩ := bind_ok h
    obtain ⟨nameOff, -, h⟩ := bind_ok h
    have hle := le_align4 (w.pos + 8 + propLen.toNat)
    dsimp only at h
    split at h
    · cases h
    · split at h
      · obtain ⟨sc, -, h⟩ := bind_ok h
        cases h
        exact Nat.le_trans (by omega) hle
      · cases h
        exact Nat.le_trans (by omega) hle

/-- A turn that does not end the walk: which token it read, and its effect. -/
theorem walkStep_inl (h : walkStep data offDtStrings onNode w = .ok (.inl w')) :
    let w1 := { w with pos := w.pos + 4 }
    beginNode data w1 = .ok w' ∨ endNode data onNode w1 = .ok w' ∨
      readProp data offDtStrings w1 = .ok w' ∨ w1 = w' := by
  intro w1
  unfold walkStep at h
  split at h
  · cases h
  · cases ht : readU32Be data w.pos with
    | error e => rw [ht] at h; cases h
    | ok token =>
      rw [ht] at h
      simp only [bind, Except.bind, pure, Except.pure] at h
      split at h
      · grind
      split at h
      · grind
      grind

theorem walkStep_pos (h : walkStep data offDtStrings onNode w = .ok (.inl w')) :
    w.pos + 4 ≤ w'.pos := by
  rcases walkStep_inl h with h | h | h | h
  · exact beginNode_pos h
  · exact Nat.le_of_eq (endNode_pos h)
  · exact readProp_pos h
  · rw [← h]

theorem walkLoop_succ (fuel : Nat) (w : Walk σ) :
    walkLoop data offDtStrings onNode (fuel + 1) w =
      match walkStep data offDtStrings onNode w with
      | .error e => .error e
      | .ok (.inl w') => walkLoop data offDtStrings onNode fuel w'
      | .ok (.inr acc) => .ok acc := by
  rw [walkLoop]
  cases walkStep data offDtStrings onNode w with
  | error e => rfl
  | ok next => cases next <;> rfl

variable (offDtStrings onNode) in
/-- Once the fuel covers the rest of the blob, more of it changes nothing. -/
theorem walkLoop_fuel {fuel : Nat} (h : data.length < w.pos + 4 * fuel) (extra : Nat) :
    walkLoop data offDtStrings onNode (fuel + extra) w =
      walkLoop data offDtStrings onNode fuel w := by
  induction fuel generalizing w with
  | zero =>
    cases extra with
    | zero => rfl
    | succ extra =>
      rw [Nat.zero_add, walkLoop_succ, walkStep, if_pos (by omega)]
      rfl
  | succ fuel ih =>
    rw [Nat.add_right_comm, walkLoop_succ, walkLoop_succ]
    cases hs : walkStep data offDtStrings onNode w with
    | error e => rfl
    | ok next =>
      cases next with
      | inl w1 =>
        have hpos := walkStep_pos hs
        exact ih (by omega)
      | inr acc => rfl

end Loop

/-! ## A walk is a fold over the nodes of the blob -/

/-- The collected value after some nodes have been delivered. -/
def deliver {σ : Type} (onNode : σ → Bytes → NodeState → σ) (acc : σ)
    (ns : List (Bytes × NodeState)) : σ :=
  ns.foldl (fun acc x => onNode acc x.1 x.2) acc

/-- The callback that keeps every node it is given. -/
def record (acc : List (Bytes × NodeState)) (name : Bytes) (node : NodeState) :
    List (Bytes × NodeState) := acc ++ [(name, node)]

/-- The nodes that `walk_fdt` delivers, in order. -/
def deliveredNodes (data : Bytes) : Except Fault (List (Bytes × NodeState)) := do
  let (offDtStruct, offDtStrings) ← validateHeader data
  walkFdt data offDtStrings record offDtStruct []

section Fold

variable {σ : Type} {offDtStrings : Nat}
  (onNode : σ → Bytes → NodeState → σ) (acc : σ) (w : Walk (List (Bytes × NodeState)))

/-- The walk of `onNode` where the recording walk is in state `w`. -/
def Walk.fold : Walk σ :=
  ⟨w.pos, w.depth, w.state, w.nameStart, w.nameEnd, w.cells, deliver onNode acc w.acc⟩

section Map

variable {α β γ : Type} {f : α → β}

theorem map_ite {c : Prop} [Decidable c] {a b : Except Fault α} {a' b' : Except Fault β}
    (ha : c → a' = a.map f) (hb : ¬ c → b' = b.map f) :
    (if c then a' else b') = (if c then a else b).map f := by
  by_cases hc : c
  · rw [if_pos hc, if_pos hc, ha hc]
  · rw [if_neg hc, if_neg hc, hb hc]

theorem map_bind {r : Except Fault γ} {k : γ → Except Fault α} {k' : γ → Except Fault β}
    (hk : ∀ x, k' x = (k x).map f) : (r >>= k') = (r >>= k).map f := by
  cases r with
  | error e => rfl
  | ok x => exact hk x

end Map

theorem beginNode_fold :
    beginNode data (w.fold onNode acc) = (beginNode data w).map (Walk.fold onNode acc) := by
  unfold beginNode
  exact map_bind fun cells => map_ite (fun _ => rfl) fun _ => rfl

theorem endNode_fold : endNode data onNode (w.fold onNode acc) =
    (endNode data record w).map (Walk.fold onNode acc) := by
  unfold endNode
  refine map_ite (fun _ => rfl) fun _ => map_ite (fun _ => map_bind fun s => ?_) fun _ => rfl
  -- the one place where the callback runs: the fold takes one node more
  refine congrArg Except.ok ?_
  simp [Walk.fold, record, deliver]

theorem readProp_fold : readProp data offDtStrings (w.fold onNode acc) =
    (readProp data offDtStrings w).map (Walk.fold onNode acc) := by
  unfold readProp
  refine map_ite (fun _ => rfl) fun _ => map_bind fun len => map_bind fun off => ?_
  refine map_ite (fun _ => rfl) fun _ => map_ite (fun _ => ?_) fun _ => rfl
  exact map_bind fun sc => rfl

theorem walkStep_fold : walkStep data offDtStrings onNode (w.fold onNode acc) =
    (walkStep data offDtStrings record w).map
      (Sum.map (Walk.fold onNode acc) (deliver onNode acc)) := by
  have hinl {r' : Except Fault (Walk σ)} {r : Except Fault (Walk (List (Bytes × NodeState)))}
      (h : r' = r.map (Walk.fold onNode acc)) :
      (r' >>= fun w' => pure (Sum.inl w')) = (r >>= fun w' => pure (Sum.inl w')).map
        (Sum.map (Walk.fold onNode acc) (deliver onNode acc)) := by
    subst h
    cases r <;> rfl
  unfold walkStep
  refine map_ite (fun _ => rfl) fun _ => map_bind fun token => ?_
  refine map_ite (fun _ => hinl (beginNode_fold onNode acc { w with pos := w.pos + 4 })) fun _ => ?_
  refine map_ite (fun _ => hinl (endNode_fold onNode acc { w with pos := w.pos + 4 })) fun _ => ?_
  refine map_ite (fun _ => hinl (readProp_fold onNode acc { w with pos := w.pos + 4 })) fun _ => ?_
  exact map_ite (fun _ => rfl) fun _ => map_ite (fun _ => rfl) fun _ => rfl

theorem walkLoop_fold (fuel : Nat) :
    walkLoop data offDtStrings onNode fuel (w.fold onNode acc) =
      (walkLoop data offDtStrings record fuel w).map (deliver onNode acc) := by
  induction fuel generalizing w with
  | zero => rfl
  | succ fuel ih =>
    rw [walkLoop_succ, walkLoop_succ, walkStep_fold]
    cases walkStep data offDtStrings record w with
    | error e => rfl
    | ok next =>
      cases next with
      | inl w' => exact ih w'
      | inr nodes => rfl

end Fold

/-- Whatever the callback, a walk of the blob folds it over the delivered nodes. -/
theorem walkFdt_eq_fold {σ : Type} {offDtStrings : Nat} (onNode : σ → Bytes → NodeState → σ)
    (acc : σ) (offDtStruct : Nat) :
    walkFdt data offDtStrings onNode offDtStruct acc =
      (walkFdt data offDtStrings record offDtStruct []).map (deliver onNode acc) :=
  walkLoop_fold onNode acc (walkStart offDtStruct []) (data.length + 1)

/-! ## Tokens -/

section Tokens

variable {σ : Type} (data) (offDtStrings : Nat) (onNode : σ → Bytes → NodeState → σ)

/-- The loop gets from `w` to `w'`. -/
def Reach (w w' : Walk σ) : Prop :=
  ∃ n, ∀ fuel, walkLoop data offDtStrings onNode (n + fuel) w =
    walkLoop data offDtStrings onNode fuel w'

variable {data offDtStrings onNode} {w w' w'' : Walk σ}

theorem Reach.refl (w : Walk σ) : Reach data offDtStrings onNode w w :=
  ⟨0, fun fuel => by rw [Nat.zero_add]⟩

theorem Reach.trans (h : Reach data offDtStrings onNode w w')
    (h' : Reach data offDtStrings onNode w' w'') : Reach data offDtStrings onNode w w'' := by
  obtain ⟨n, hn⟩ := h
  obtain ⟨m, hm⟩ := h'
  refine ⟨n + m, fun fuel => ?_⟩
  rw [Nat.add_assoc, hn, hm]

theorem Reach.of_step (h : walkStep data offDtStrings onNode w = .ok (.inl w')) :
    Reach data offDtStrings onNode w w' := by
  refine ⟨1, fun fuel => ?_⟩
  rw [Nat.add_comm, walkLoop_succ, h]

variable (offDtStrings onNode) in
/-- The token at `w.pos` decides the turn. -/
theorem walkStep_of_token (w : Walk σ) {token : UInt32} (h : Holds data w.pos (be32 token)) :
    walkStep data offDtStrings onNode w =
      let w1 := { w with pos := w.pos + 4 }
      if token = fdtBeginNode then (beginNode data w1).map .inl
      else if token = fdtEndNode then (endNode data onNode w1).map .inl
      else if token = fdtProp then (readProp data offDtStrings w1).map .inl
      else if token = fdtNop then .ok (.inl w1)
      else if token = fdtEnd then .ok (.inr w1.acc)
      else .error (.error .truncated) := by
  have hlen := h.length_le (by simp [be32])
  rw [length_be32] at hlen
  unfold walkStep
  rw [if_neg (by omega), readU32Be_of_holds h]
  rfl

theorem reach_nops {n : Nat} (h : Holds data w.pos (be32s (replicate n fdtNop))) :
    Reach data offDtStrings onNode w { w with pos := w.pos + 4 * n } := by
  induction n generalizing w with
  | zero => exact Reach.refl w
  | succ n ih =>
    rw [replicate_succ, be32s_cons, holds_append, length_be32] at h
    have hstep := walkStep_of_token offDtStrings onNode w h.1
    have hr := ih (w := { w with pos := w.pos + 4 }) h.2
    rw [show w.pos + 4 + 4 * n = w.pos + 4 * (n + 1) by omega] at hr
    exact (Reach.of_step hstep).trans hr

variable {it : Item}

variable (offDtStrings onNode) in
/-- The NOP tokens before a token are skipped. -/
theorem reach_token (h : Holds data w.pos it.bytes) :
    ∃ w1 : Walk σ, Reach data offDtStrings onNode w w1 ∧
      w1 = { w with pos := w.pos + 4 * it.nops } ∧
      Holds data w1.pos it.token ∧ w1.pos + it.token.length = w.pos + it.bytes.length := by
  rw [Item.bytes, holds_append, length_be32s, length_replicate] at h
  refine ⟨_, reach_nops h.1, rfl, h.2, ?_⟩
  simp only [Item.bytes, length_append, length_be32s, length_replicate]
  omega

variable (offDtStrings onNode) in
theorem reach_begin {name : Bytes} {cells : Nat → DepthCells}
    (hl : it.lexeme = .beginNode name) (hname : (0 : UInt8) ∉ name)
    (hh : Holds data w.pos it.bytes) (hmod : w.pos % 4 = 0) (hd : w.depth < maxDepth)
    (hc : finishRanges data w.depth w.cells = .ok cells) :
    ∃ w' : Walk σ, Reach data offDtStrings onNode w w' ∧ w'.pos = w.pos + it.bytes.length ∧
      w'.depth = w.depth + 1 ∧ w'.state = Function.update w.state w.depth {} ∧
      w'.cells = Function.update cells w.depth {} ∧ w'.acc = w.acc := by
  obtain ⟨w1, hr, rfl, ht, hlen⟩ := reach_token offDtStrings onNode hh
  have htok : it.token = be32 fdtBeginNode ++ pad4 (name ++ [0]) := by rw [Item.token, hl]
  rw [htok, holds_append, length_be32] at ht
  have hread : readString data (w.pos + 4 * it.nops + 4) = name :=
    Holds.cstring (holds_append.mp ht.2).1 hname
  have hstep := walkStep_of_token offDtStrings onNode { w with pos := w.pos + 4 * it.nops } ht.1
  rw [if_pos rfl] at hstep
  simp only [beginNode, hc, bind, Except.bind, if_pos hd, hread, pure, Except.pure,
    Except.map] at hstep
  refine ⟨_, hr.trans (Reach.of_step hstep), ?_, rfl, rfl, rfl, rfl⟩
  have halign := align4_add (show (w.pos + 4 * it.nops + 4) % 4 = 0 by omega) (name.length + 1)
  grind [length_be32, length_pad4]

variable (offDtStrings onNode) in
theorem reach_prop {name value : Bytes} (hl : it.lexeme = .prop name value)
    (hs : it.Spelled data offDtStrings) (hname : (0 : UInt8) ∉ name)
    (hh : Holds data w.pos it.bytes) (hmod : w.pos % 4 = 0) (hd : 0 < w.depth)
    (hmax : w.depth ≤ maxDepth) :
    ∃ start, Holds data start value ∧
      ∀ s c, applyProp data name start value.length (w.state (w.depth - 1))
          (w.cells (w.depth - 1)) = .ok (s, c) →
        ∃ w' : Walk σ, Reach data offDtStrings onNode w w' ∧ w'.pos = w.pos + it.bytes.length ∧
          w'.depth = w.depth ∧ w'.state = Function.update w.state (w.depth - 1) s ∧
          w'.cells = Function.update w.cells (w.depth - 1) c ∧ w'.acc = w.acc := by
  obtain ⟨w1, hr, rfl, ht, hlen⟩ := reach_token offDtStrings onNode hh
  have htok : it.token = be32 fdtProp ++
      (be32 (UInt32.ofNat value.length) ++ (be32 it.nameOff ++ pad4 value)) := by
    rw [Item.token, hl]
  simp only [Item.Spelled, hl] at hs
  obtain ⟨hspell, hlt⟩ := hs
  -- the name is at its offset in the strings block, up to the zero byte
  have hread : readString data (offDtStrings + it.nameOff.toNat) = name :=
    Holds.cstring hspell hname
  have htoks := ht
  rw [htok] at ht
  simp only [holds_append, length_be32] at ht
  obtain ⟨h0, h1, h2, h3⟩ := ht
  have hbound := htoks.length_le (by rw [htok]; simp [be32])
  have halign := le_align4 value.length
  rw [htok] at hlen hbound
  simp only [length_append, length_be32, length_pad4] at hlen hbound
  have hvlen : (UInt32.ofNat value.length).toNat = value.length := by
    rw [UInt32.toNat_ofNat', Nat.mod_eq_of_lt hlt]
  refine ⟨w.pos + 4 * it.nops + 4 + 8, (holds_append.mp h3).1, fun s c hap => ?_⟩
  have hstep := walkStep_of_token offDtStrings onNode { w with pos := w.pos + 4 * it.nops } h0
  rw [if_neg (by decide), if_neg (by decide), if_pos rfl] at hstep
  have hlt8 : ¬ data.length < w.pos + 4 * it.nops + 4 + 8 := by omega
  have hstop : ¬ data.length < w.pos + 4 * it.nops + 4 + 8 + value.length := by omega
  have hin : 0 < w.depth ∧ w.depth - 1 < maxDepth := ⟨hd, by omega⟩
  simp only [readProp, if_neg hlt8, readU32Be_of_holds h1, readU32Be_of_holds h2, bind,
    Except.bind, hvlen, if_neg hstop, if_pos hin, hread, hap, pure, Except.pure,
    Except.map] at hstep
  refine ⟨_, hr.trans (Reach.of_step hstep), ?_, rfl, rfl, rfl, rfl⟩
  have hal := align4_add (show (w.pos + 4 * it.nops + 4 + 8) % 4 = 0 by omega) value.length
  show align4 (w.pos + 4 * it.nops + 4 + 8 + value.length) = _
  rw [hal]
  omega

variable (offDtStrings onNode) in
theorem reach_end {s : NodeState} (hl : it.lexeme = .endNode)
    (hh : Holds data w.pos it.bytes) (hd : 0 < w.depth) (hmax : w.depth ≤ maxDepth)
    (hs : finishReg data (w.depth - 1) w.cells (w.state (w.depth - 1)) = .ok s) :
    ∃ (w' : Walk σ) (name : Bytes), Reach data offDtStrings onNode w w' ∧
      w'.pos = w.pos + it.bytes.length ∧ w'.depth = w.depth - 1 ∧
      w'.state = Function.update w.state (w.depth - 1) (translateReg (w.depth - 1) w.cells s) ∧
      w'.cells = w.cells ∧
      w'.acc = onNode w.acc name (translateReg (w.depth - 1) w.cells s) := by
  obtain ⟨w1, hr, rfl, ht, hlen⟩ := reach_token offDtStrings onNode hh
  have htok : it.token = be32 fdtEndNode := by rw [Item.token, hl]
  rw [htok] at ht hlen
  have hstep := walkStep_of_token offDtStrings onNode { w with pos := w.pos + 4 * it.nops } ht
  rw [if_neg (by decide), if_pos rfl] at hstep
  simp only [endNode, if_neg (show ¬ w.depth = 0 by omega),
    if_pos (show w.depth - 1 < maxDepth by omega), hs, bind, Except.bind, pure, Except.pure,
    Except.map] at hstep
  rw [length_be32] at hlen
  exact ⟨_, _, hr.trans (Reach.of_step hstep), hlen, rfl, rfl, rfl, rfl⟩

/-- At FDT_END the walk returns what it has collected. -/
theorem walkLoop_finish (hl : it.lexeme = .finish) (hh : Holds data w.pos it.bytes)
    {fuel : Nat} (hfuel : data.length < w.pos + 4 * fuel) :
    walkLoop data offDtStrings onNode fuel w = .ok w.acc := by
  obtain ⟨w1, ⟨n, hr⟩, rfl, ht, hlen⟩ :=
    reach_token offDtStrings onNode hh
  have htok : it.token = be32 fdtEnd := by rw [Item.token, hl]
  rw [htok] at ht
  have hstep := walkStep_of_token offDtStrings onNode { w with pos := w.pos + 4 * it.nops } ht
  rw [if_neg (by decide), if_neg (by decide), if_neg (by decide), if_neg (by decide),
    if_pos rfl] at hstep
  rw [← walkLoop_fuel offDtStrings onNode hfuel (n + 1), Nat.add_comm, Nat.add_assoc, hr,
    Nat.add_comm, walkLoop_succ,
    hstep]

end Tokens

end Lockjaw.Fdt
