/-
  Lockjaw.Lib.ByteImage

  Reading a byte image at positions.  `Holds data pos bs` says that the bytes
  `bs` stand at position `pos` of `data`; it splits along `++`, so the layout of
  an image can be described by one equation and taken apart as a reader walks
  over it.  `be32` writes a big-endian word and `readBe32` reads one back;
  `readLe` reads a little-endian number; `cstring` reads up to a zero byte.
-/

import Mathlib.Data.List.Infix
import Mathlib.Algebra.GroupWithZero.Nat

namespace Lockjaw.Lib

open List

/-- The bytes `bs` stand at `pos`. -/
def Holds (data : List UInt8) (pos : Nat) (bs : List UInt8) : Prop := bs <+: data.drop pos

instance (data : List UInt8) (pos : Nat) (bs : List UInt8) : Decidable (Holds data pos bs) :=
  inferInstanceAs (Decidable (bs <+: data.drop pos))

variable {data bs bs' : List UInt8} {pos i : Nat}

theorem holds_append :
    Holds data pos (bs ++ bs') ↔ Holds data pos bs ∧ Holds data (pos + bs.length) bs' := by
  unfold Holds
  constructor
  · rintro ⟨rest, h⟩
    refine ⟨⟨bs' ++ rest, by rw [← h, append_assoc]⟩, ⟨rest, ?_⟩⟩
    rw [← drop_drop, ← h, append_assoc, drop_left]
  · rintro ⟨⟨rest, h⟩, ⟨rest', h'⟩⟩
    refine ⟨rest', ?_⟩
    rw [← drop_drop, ← h, drop_left] at h'
    rw [append_assoc, h', h]

theorem Holds.getElem? (h : Holds data pos bs) (hi : i < bs.length) : data[pos + i]? = bs[i]? := by
  obtain ⟨rest, h⟩ := h
  rw [← getElem?_drop, ← h, getElem?_append_left hi]

theorem Holds.length_le (h : Holds data pos bs) (hne : bs ≠ []) :
    pos + bs.length ≤ data.length := by
  have hle := List.IsPrefix.length_le h
  rw [length_drop] at hle
  have hpos := length_pos_iff.mpr hne
  omega

/-! ## Big-endian words -/

/-- A word, most significant byte first. -/
def be32 (w : UInt32) : List UInt8 :=
  [UInt8.ofNat (w.toNat / 2 ^ 24), UInt8.ofNat (w.toNat / 2 ^ 16),
    UInt8.ofNat (w.toNat / 2 ^ 8), UInt8.ofNat w.toNat]

/-- The word at `pos`; `none` if the image ends before it does. -/
def readBe32 (data : List UInt8) (pos : Nat) : Option UInt32 :=
  match data[pos]?, data[pos + 1]?, data[pos + 2]?, data[pos + 3]? with
  | some a, some b, some c, some d =>
    some (UInt32.ofNat (a.toNat * 2 ^ 24 + b.toNat * 2 ^ 16 + c.toNat * 2 ^ 8 + d.toNat))
  | _, _, _, _ => none

@[simp] theorem length_be32 (w : UInt32) : (be32 w).length = 4 := rfl

theorem Holds.readBe32 {w : UInt32} (h : Holds data pos (be32 w)) : readBe32 data pos = some w := by
  have h0 : data[pos]? = _ := h.getElem? (i := 0) (by simp)
  have h1 : data[pos + 1]? = _ := h.getElem? (by simp)
  have h2 : data[pos + 2]? = _ := h.getElem? (by simp)
  have h3 : data[pos + 3]? = _ := h.getElem? (by simp)
  simp only [be32, getElem?_cons_zero, getElem?_cons_succ] at h0 h1 h2 h3
  simp only [Lib.readBe32, h0, h1, h2, h3, Option.some.injEq]
  apply UInt32.toNat_inj.mp
  have hw := w.toNat_lt
  simp only [UInt8.toNat_ofNat', UInt32.toNat_ofNat']
  omega

/-- Words one after another. -/
def be32s (ws : List UInt32) : List UInt8 := ws.flatMap be32

@[simp] theorem be32s_nil : be32s [] = [] := rfl

@[simp] theorem be32s_cons (w : UInt32) (ws : List UInt32) : be32s (w :: ws) = be32 w ++ be32s ws :=
  rfl

@[simp] theorem be32s_append (ws ws' : List UInt32) : be32s (ws ++ ws') = be32s ws ++ be32s ws' :=
  flatMap_append

@[simp] theorem length_be32s (ws : List UInt32) : (be32s ws).length = 4 * ws.length := by
  induction ws with
  | nil => rfl
  | cons w ws ih =>
    rw [be32s_cons, length_append, ih, length_be32, length_cons]
    omega

/-! ## Little-endian numbers -/

/-- The number in the `n` bytes from `pos` on, least significant byte first; `none` if the
    image ends before they do. -/
def readLe (data : List UInt8) : Nat → Nat → Option Nat
  | 0, _ => some 0
  | n + 1, pos =>
    match data[pos]?, readLe data n (pos + 1) with
    | some b, some rest => some (b.toNat + 256 * rest)
    | _, _ => none

theorem readLe_lt {n x : Nat} (h : readLe data n pos = some x) : x < 256 ^ n := by
  induction n generalizing pos x with
  | zero =>
    cases h
    decide
  | succ n ih =>
    unfold readLe at h
    split at h
    · next b rest _ hrest =>
      cases h
      have hb := b.toNat_lt
      have hlt := ih hrest
      rw [Nat.pow_succ]
      omega
    · cases h

/-- The `n` low bytes of a number, least significant byte first. -/
def leBytes : (n : Nat) → Nat → List UInt8
  | 0, _ => []
  | n + 1, v => UInt8.ofNat v :: leBytes n (v / 256)

/-- The number that bytes spell, least significant byte first. -/
def leValue : List UInt8 → Nat
  | [] => 0
  | b :: bs => b.toNat + 256 * leValue bs

@[simp] theorem length_leBytes (n v : Nat) : (leBytes n v).length = n := by
  induction n generalizing v with
  | zero => rfl
  | succ n ih => rw [leBytes, length_cons, ih]

theorem leValue_leBytes {n v : Nat} (h : v < 256 ^ n) : leValue (leBytes n v) = v := by
  induction n generalizing v with
  | zero =>
    rw [Nat.pow_zero] at h
    exact (Nat.lt_one_iff.mp h).symm
  | succ n ih =>
    rw [Nat.pow_succ] at h
    rw [leBytes, leValue, ih (Nat.div_lt_of_lt_mul (by omega)), UInt8.toNat_ofNat']
    omega

theorem leValue_inj {bs bs' : List UInt8} (hlen : bs.length = bs'.length)
    (h : leValue bs = leValue bs') : bs = bs' := by
  induction bs generalizing bs' with
  | nil => exact (eq_nil_of_length_eq_zero hlen.symm).symm
  | cons b bs ih =>
    cases bs' with
    | nil => cases hlen
    | cons b' bs' =>
      have hb := b.toNat_lt
      have hb' := b'.toNat_lt
      rw [leValue, leValue] at h
      rw [ih (Nat.succ.inj hlen) (by omega), UInt8.toNat_inj.mp (show b.toNat = b'.toNat by omega)]

/-! ## Zero-terminated strings -/

/-- The bytes from `pos` up to the next zero byte or the end of the image. -/
def cstring (data : List UInt8) (pos : Nat) : List UInt8 := (data.drop pos).takeWhile (· ≠ 0)

theorem Holds.cstring (h : Holds data pos (bs ++ [0])) (h0 : (0 : UInt8) ∉ bs) :
    cstring data pos = bs := by
  obtain ⟨rest, h⟩ := h
  unfold Lib.cstring
  rw [← h, append_assoc, takeWhile_append_of_pos]
  · simp
  · intro b hb
    simp only [decide_eq_true_eq]
    rintro rfl
    exact h0 hb

end Lockjaw.Lib
