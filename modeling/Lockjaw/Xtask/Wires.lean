/-
  Lockjaw.Xtask.Wires

  The generator of wire structs, xtask/src/gen_wires.rs: `validate_wire`, and what the
  emitted constructor and accessors compute.  An accepted field list tiles the bytes
  of the struct, so both are one walk along the same cut.

  The emitted text is not modelled.  The generator takes field names as they come: a
  name has to be one that the emitted file can use, neither a keyword nor `new` (the
  constructor) nor `b` (the bytes the constructor fills).
-/

import Lockjaw.Lib.Blocks
import Lockjaw.Lib.ByteImage

namespace Lockjaw.Xtask

open Lib List

inductive Endian where
  | big
  | little
  deriving DecidableEq, Repr

structure Field where
  name : String
  offset : Nat
  width : Nat
  endian : Option Endian
  default : Option Nat
  deriving DecidableEq

structure Wire where
  size : Nat
  endian : Endian
  fields : List Field

def Field.bytes (f : Field) : Nat := f.width / 8

/-! ## Validation -/

/-- The ways `validate_wire` panics, with the field and the numbers it names. -/
inductive WireError where
  | zeroSize
  | duplicateField (name : String)
  | unsupportedWidth (name : String) (width : Nat)
  | badOffset (name : String) (offset expected : Nat)
  | pastEnd (name : String) (size : Nat)
  | badDefault (name : String) (default max : Nat)
  | badSize (size total : Nat)

def validateField (w : Wire) (fieldNames : List String) (cursor : Nat) (f : Field) :
    Except WireError Unit :=
  if f.name ∈ fieldNames then .error (.duplicateField f.name)
  else if f.width ∉ [8, 16, 32, 64] then .error (.unsupportedWidth f.name f.width)
  else if f.offset ≠ cursor then .error (.badOffset f.name f.offset cursor)
  else if f.offset + f.bytes > w.size then .error (.pastEnd f.name w.size)
  else
    match f.default with
    | none => .ok ()
    | some d =>
      let max := 2 ^ f.width - 1
      if d > max then .error (.badDefault f.name d max) else .ok ()

/-- The loop over the fields; `total_field_bytes` grows with `cursor`. -/
def validateFields (w : Wire) : (fieldNames : List String) → (cursor : Nat) → List Field →
    Except WireError Nat
  | _, cursor, [] => .ok cursor
  | fieldNames, cursor, f :: fs =>
    match validateField w fieldNames cursor f with
    | .error e => .error e
    | .ok () => validateFields w (f.name :: fieldNames) (cursor + f.bytes) fs

def validateWire (w : Wire) : Except WireError Unit :=
  if w.size = 0 then .error .zeroSize
  else
    match validateFields w [] 0 w.fields with
    | .error e => .error e
    | .ok total => if total ≠ w.size then .error (.badSize w.size total) else .ok ()

/-! ## The emitted code -/

/-- `to_be_bytes` and `to_le_bytes` of an integer of `n` bytes. -/
def toBytes : Endian → (n : Nat) → Nat → List UInt8
  | .big, n, v => (leBytes n v).reverse
  | .little, n, v => leBytes n v

/-- `from_be_bytes` and `from_le_bytes` -/
def fromBytes : Endian → List UInt8 → Nat
  | .big, bs => leValue bs.reverse
  | .little, bs => leValue bs

def Field.slice (f : Field) (b : List UInt8) : List UInt8 := (b.drop f.offset).take f.bytes

/-- What the constructor stores in a field: its default, or else its argument. -/
def Field.value (args : String → Nat) (f : Field) : Nat := f.default.getD (args f.name)

namespace Wire

variable (w : Wire)

def endianOf (f : Field) : Endian := f.endian.getD w.endian

def encode (args : String → Nat) (f : Field) : List UInt8 :=
  toBytes (w.endianOf f) f.bytes (f.value args)

/-- The constructor of `emit_constructor`. -/
def new (args : String → Nat) : List UInt8 :=
  w.fields.foldl (fun b f => writeAt b f.offset (w.encode args f)) (replicate w.size 0)

/-- The accessor of `emit_accessors`. -/
def get (f : Field) (b : List UInt8) : Nat := fromBytes (w.endianOf f) (f.slice b)

end Wire

/-! ## Tilings -/

structure Field.Good (f : Field) : Prop where
  width : f.width ∈ [8, 16, 32, 64]
  default : ∀ d, f.default = some d → d < 2 ^ f.width

/-- The fields lie one after another from `c` to `t`. -/
def Tiles : (c : Nat) → List Field → (t : Nat) → Prop
  | c, [], t => c = t
  | c, f :: fs, t => f.offset = c ∧ f.Good ∧ Tiles (c + f.bytes) fs t

variable {w : Wire} {f : Field} {fs : List Field} {c t : Nat} {names : List String}
  {args : String → Nat} {b : List UInt8}

theorem Field.Good.width_eq (h : f.Good) : f.width = 8 * f.bytes ∧ 0 < f.bytes := by
  have hw := h.width
  simp only [mem_cons, not_mem_nil, or_false] at hw
  unfold bytes
  omega

theorem validateField_ok (h : validateField w names c f = .ok ()) : f.offset = c ∧ f.Good := by
  unfold validateField at h
  have hpos := Nat.two_pow_pos f.width
  grind [Field.Good]

theorem tiles_of_validate (h : validateFields w names c fs = .ok t) : Tiles c fs t := by
  induction fs generalizing names c with
  | nil => exact Except.ok.inj h
  | cons f fs ih =>
    rw [validateFields] at h
    cases hf : validateField w names c f with
    | error e =>
      rw [hf] at h
      cases h
    | ok _ =>
      rw [hf] at h
      obtain ⟨hoff, hgood⟩ := validateField_ok hf
      exact ⟨hoff, hgood, ih h⟩

theorem tiles_of_validateWire (h : validateWire w = .ok ()) : Tiles 0 w.fields w.size := by
  unfold validateWire at h
  cases hf : validateFields w [] 0 w.fields with
  | error e => grind
  | ok total =>
    have htiles := tiles_of_validate hf
    grind

namespace Tiles

theorem le (h : Tiles c fs t) : c ≤ t := by
  induction fs generalizing c with
  | nil => exact Nat.le_of_eq h
  | cons f fs ih => exact (Nat.le_add_right _ _).trans (ih h.2.2)

/-- A struct is its fields' bytes, one after another. -/
theorem drop_eq (h : Tiles c fs t) (hb : b.length = t) :
    b.drop c = fs.flatMap fun f => f.slice b := by
  induction fs generalizing c with
  | nil => exact drop_eq_nil_of_le (by rw [hb]; exact Nat.le_of_eq h.symm)
  | cons f fs ih =>
    obtain ⟨rfl, -, hrest⟩ := h
    rw [flatMap_cons, ← ih hrest, ← drop_drop]
    exact (take_append_drop f.bytes _).symm

theorem foldl_writeAt (h : Tiles c fs t) (hb : b.length = t) {enc : Field → List UInt8}
    (henc : ∀ f, (enc f).length = f.bytes) :
    fs.foldl (fun b f => writeAt b f.offset (enc f)) b = b.take c ++ fs.flatMap enc := by
  induction fs generalizing c b with
  | nil =>
    rw [flatMap_nil, append_nil,
      take_of_length_le (by rw [hb]; exact Nat.le_of_eq h.symm)]
    rfl
  | cons f fs ih =>
    obtain ⟨rfl, -, hrest⟩ := h
    have hle := hrest.le
    rw [foldl_cons, ih hrest (by rw [length_writeAt (by rw [henc]; omega), hb]), ← henc f,
      take_writeAt (by omega), flatMap_cons, append_assoc]

theorem mem (h : Tiles c fs t) :
    ∀ f ∈ fs, c ≤ f.offset ∧ f.offset + f.bytes ≤ t ∧ f.Good := by
  induction fs generalizing c with
  | nil => simp
  | cons f fs ih =>
    obtain ⟨rfl, hgood, hrest⟩ := h
    refine forall_mem_cons.mpr ⟨⟨Nat.le_refl _, hrest.le, hgood⟩, fun f' hf' => ?_⟩
    obtain ⟨hge, hmem⟩ := ih hrest f' hf'
    exact ⟨(Nat.le_add_right _ _).trans hge, hmem⟩

/-- Every byte lies in exactly one field. -/
theorem existsUnique (h : Tiles c fs t) {i : Nat} (hc : c ≤ i) (ht : i < t) :
    ∃! f, f ∈ fs ∧ f.offset ≤ i ∧ i < f.offset + f.bytes := by
  induction fs generalizing c with
  | nil => exact absurd h (by unfold Tiles; omega)
  | cons f fs ih =>
    obtain ⟨rfl, -, hrest⟩ := h
    by_cases hi : i < f.offset + f.bytes
    · refine ⟨f, ⟨mem_cons_self, hc, hi⟩, ?_⟩
      rintro f' ⟨hf', hle, -⟩
      rcases mem_cons.mp hf' with rfl | hf'
      · rfl
      · have := (hrest.mem f' hf').1
        omega
    · obtain ⟨f1, ⟨hf1, hin⟩, huniq⟩ := ih hrest (by omega)
      refine ⟨f1, ⟨mem_cons_of_mem _ hf1, hin⟩, ?_⟩
      rintro f' ⟨hf', hin'⟩
      rcases mem_cons.mp hf' with rfl | hf'
      · omega
      · exact huniq f' ⟨hf', hin'⟩

theorem length_slice (h : Tiles c fs t) (hb : b.length = t) (hf : f ∈ fs) :
    (f.slice b).length = f.bytes := by
  have hend := (h.mem f hf).2.1
  rw [Field.slice, length_take, length_drop]
  omega

/-- Two cuts of one list at the same places give the same pieces. -/
theorem eq_of_flatMap {enc enc' : Field → List UInt8}
    (hlen : ∀ f ∈ fs, (enc f).length = (enc' f).length) (h : fs.flatMap enc = fs.flatMap enc') :
    ∀ f ∈ fs, enc f = enc' f := by
  induction fs with
  | nil => simp
  | cons f fs ih =>
    obtain ⟨hf, hrest⟩ := forall_mem_cons.mp hlen
    obtain ⟨heq, hfs⟩ := append_inj h hf
    exact forall_mem_cons.mpr ⟨heq, ih hrest hfs⟩

end Tiles

/-! ## The round trip -/

theorem length_encode : (w.encode args f).length = f.bytes := by
  unfold Wire.encode toBytes
  cases w.endianOf f <;> simp

theorem fromBytes_encode (hgood : f.Good) (hargs : f.default = none → args f.name < 2 ^ f.width) :
    fromBytes (w.endianOf f) (w.encode args f) = f.value args := by
  have hlt : f.value args < 256 ^ f.bytes := by
    rw [show 256 ^ f.bytes = 2 ^ f.width by rw [hgood.width_eq.1, Nat.pow_mul]]
    unfold Field.value
    cases hd : f.default with
    | none => exact hargs hd
    | some d => exact hgood.default d hd
  unfold Wire.encode toBytes fromBytes
  cases w.endianOf f <;> simp [leValue_leBytes hlt]

theorem fromBytes_inj {e : Endian} {bs bs' : List UInt8} (hlen : bs.length = bs'.length)
    (h : fromBytes e bs = fromBytes e bs') : bs = bs' := by
  cases e with
  | big => exact reverse_inj.mp (leValue_inj (by simpa using hlen) h)
  | little => exact leValue_inj hlen h

/-- The fields of a new struct hold what was written into them. -/
theorem Tiles.slice_new (h : Tiles 0 w.fields w.size) (hf : f ∈ w.fields) :
    f.slice (w.new args) = w.encode args f := by
  have hnew : w.new args = w.fields.flatMap (w.encode args) :=
    h.foldl_writeAt length_replicate fun f => length_encode
  have hlen : (w.new args).length = w.size := by
    refine foldlRecOn (motive := fun b : List UInt8 => b.length = w.size) w.fields _
      length_replicate fun b hb f hf => ?_
    rw [length_writeAt (by rw [length_encode, hb]; exact (h.mem f hf).2.1), hb]
  refine eq_of_flatMap (fun f hf => ?_) ((h.drop_eq hlen).symm.trans hnew) f hf
  rw [h.length_slice hlen hf, length_encode]

/-- What the emitted code of an accepted wire does: the fields of a new struct are its arguments
    and defaults, each byte comes from one field in that field's byte order, and the fields
    determine the struct. -/
theorem wire_roundTrip (w : Wire) (h : validateWire w = .ok ()) :
    (∀ args, (∀ f ∈ w.fields, f.default = none → args f.name < 2 ^ f.width) →
      ∀ f ∈ w.fields, w.get f (w.new args) = f.value args) ∧
    (∀ i < w.size, ∃! f, f ∈ w.fields ∧ (f.offset ≤ i ∧ i < f.offset + f.bytes) ∧
      ∀ args, (w.new args)[i]? = (w.encode args f)[i - f.offset]?) ∧
    ∀ b b', b.length = w.size → b'.length = w.size →
      (∀ f ∈ w.fields, w.get f b = w.get f b') → b = b' := by
  have htiles := tiles_of_validateWire h
  refine ⟨fun args hargs f hf => ?_, fun i hi => ?_, fun b b' hb hb' hget => ?_⟩
  · rw [Wire.get, htiles.slice_new hf]
    exact fromBytes_encode (htiles.mem f hf).2.2 (hargs f hf)
  · obtain ⟨f, ⟨hf, hin⟩, huniq⟩ := htiles.existsUnique (Nat.zero_le i) hi
    refine ⟨f, ⟨hf, hin, fun args => ?_⟩, fun f' h' => huniq f' ⟨h'.1, h'.2.1⟩⟩
    rw [← htiles.slice_new hf, Field.slice, getElem?_take_of_lt (by omega),
      getElem?_drop, Nat.add_sub_cancel' hin.1]
  · rw [← b.drop_zero, ← b'.drop_zero, htiles.drop_eq hb, htiles.drop_eq hb']
    refine flatMap_congr fun f hf => fromBytes_inj ?_ (hget f hf)
    rw [htiles.length_slice hb hf, htiles.length_slice hb' hf]

/-- A tag with a default, then a big-endian word. -/
def taggedWord : Wire :=
  ⟨5, .little, [⟨"tag", 0, 8, none, some 7⟩, ⟨"word", 1, 32, some .big, none⟩]⟩

theorem wire_roundTrip_taggedWord :
    taggedWord.get ⟨"word", 1, 32, some .big, none⟩ (taggedWord.new fun _ => 258) = 258 :=
  (wire_roundTrip taggedWord rfl).1 (fun _ => 258) (by decide) _ (by decide)

end Lockjaw.Xtask
