import Mathlib.Algebra.Group.Nat.Defs
import Mathlib.Data.List.Basic
import Mathlib.Tactic.Common

/-!
# Values in a buffer of cells

A getter and its setter on a list of cells. A lawful accessor of a given size gets back what was
set, and touches and reads only its own cells. `Accessor.ofCodec` makes one from an encoding of
fixed length; a value that does not fit behind its offset is refused.
-/

namespace Lib

/-- The cells `[offset, offset + size)`. -/
def InSpan (offset size i : Nat) : Prop := offset ≤ i ∧ i < offset + size

instance (offset size i : Nat) : Decidable (InSpan offset size i) :=
  inferInstanceAs (Decidable (_ ∧ _))

/-- The two buffers differ only in the given cells. -/
def SameOutside {β : Type} (offset size : Nat) (a b : List β) : Prop :=
  ∀ i, ¬ InSpan offset size i → b[i]? = a[i]?

/-- The two buffers agree in the given cells. -/
def SameInside {β : Type} (offset size : Nat) (a b : List β) : Prop :=
  ∀ i, InSpan offset size i → b[i]? = a[i]?

/-- Cells written over the ones at an offset. -/
def writeAt {β : Type} (cells : List β) (offset : Nat) (new : List β) : List β :=
  cells.take offset ++ new ++ cells.drop (offset + new.length)

def readAt {β : Type} (cells : List β) (offset size : Nat) : List β :=
  (cells.drop offset).take size

structure Accessor (β ε α : Type) where
  get : List β → Nat → α
  /-- A refused value leaves the cells as they are. -/
  set : List β → Nat → α → Except ε (List β)

structure Accessor.Lawful {β ε α : Type} (a : Accessor β ε α) (size : Nat) : Prop where
  get_set {cells cells' : List β} {offset : Nat} {v : α} (h : a.set cells offset v = .ok cells') :
    a.get cells' offset = v
  outside {cells cells' : List β} {offset : Nat} {v : α} (h : a.set cells offset v = .ok cells') :
    SameOutside offset size cells cells'
  inside {cells cells' : List β} {offset : Nat} (h : SameInside offset size cells cells') :
    a.get cells' offset = a.get cells offset

section
variable {β : Type} {a b c : List β} {offset size : Nat}

theorem SameOutside.refl (offset size : Nat) (a : List β) : SameOutside offset size a a :=
  fun _ _ => rfl

theorem SameOutside.trans (hab : SameOutside offset size a b) (hbc : SameOutside offset size b c) :
    SameOutside offset size a c :=
  fun i hi => (hbc i hi).trans (hab i hi)

theorem SameOutside.mono {offset' size' : Nat} (h : SameOutside offset size a b)
    (hoffset : offset' ≤ offset) (hsize : offset + size ≤ offset' + size') :
    SameOutside offset' size' a b := by
  intro i hi
  apply h
  unfold InSpan at hi ⊢
  omega

/-- Cells apart from the changed ones are as before. -/
theorem SameOutside.inside {offset' size' : Nat} (h : SameOutside offset size a b)
    (hapart : offset + size ≤ offset' ∨ offset' + size' ≤ offset) :
    SameInside offset' size' a b := by
  intro i hi
  apply h
  unfold InSpan at hi ⊢
  omega

end

/-! ## Encodings of a fixed length -/

section
variable {β ε α : Type}

theorem writeAt_outside (cells new : List β) {offset : Nat}
    (hfit : offset + new.length ≤ cells.length) :
    SameOutside offset new.length cells (writeAt cells offset new) := by
  intro i hi
  unfold InSpan at hi
  have htake : (cells.take offset).length = offset := by
    rw [List.length_take]
    omega
  unfold writeAt
  by_cases hlow : i < offset
  · rw [List.append_assoc, List.getElem?_append_left (by omega), List.getElem?_take_of_lt hlow]
  · rw [List.getElem?_append_right (by rw [List.length_append]; omega), List.getElem?_drop,
      List.length_append, htake]
    congr 1
    omega

theorem readAt_writeAt (cells new : List β) {offset : Nat}
    (hfit : offset + new.length ≤ cells.length) :
    readAt (writeAt cells offset new) offset new.length = new := by
  have htake : (cells.take offset).length = offset := by
    rw [List.length_take]
    omega
  unfold readAt writeAt
  rw [List.append_assoc, List.drop_left' htake, List.take_left]

theorem readAt_congr {cells cells' : List β} {offset size : Nat}
    (h : SameInside offset size cells cells') :
    readAt cells' offset size = readAt cells offset size := by
  apply List.ext_getElem?
  intro i
  unfold readAt
  rw [List.getElem?_take, List.getElem?_take]
  split
  · rw [List.getElem?_drop, List.getElem?_drop]
    apply h
    unfold InSpan
    omega
  · rfl

/-- A part of the cells that were read. -/
theorem readAt_readAt (cells : List β) {offset size i n : Nat} (h : i + n ≤ size) :
    readAt (readAt cells offset size) i n = readAt cells (offset + i) n := by
  unfold readAt
  rw [List.drop_take, List.drop_drop, List.take_take, Nat.min_eq_left (by omega)]

/-- Values as `size` cells each. -/
def Accessor.ofCodec (size : Nat) (refused : ε) (encode : α → List β) (decode : List β → α) :
    Accessor β ε α where
  get cells offset := decode (readAt cells offset size)
  set cells offset v :=
    if offset + size ≤ cells.length then .ok (writeAt cells offset (encode v)) else .error refused

/-- The cells of a value that was set. -/
theorem Accessor.readAt_ofCodec {size : Nat} {refused : ε} {encode : α → List β}
    {decode : List β → α} (hlength : ∀ v, (encode v).length = size) {cells cells' : List β}
    {offset : Nat} {v : α}
    (h : (Accessor.ofCodec size refused encode decode).set cells offset v = .ok cells') :
    readAt cells' offset size = encode v := by
  unfold ofCodec at h
  dsimp only at h
  split at h
  · cases h
    rename_i hfit
    have hread := readAt_writeAt cells (encode v) ((hlength v).symm ▸ hfit)
    rw [hlength] at hread
    exact hread
  · cases h

theorem Accessor.ofCodec_lawful {size : Nat} {refused : ε} {encode : α → List β}
    {decode : List β → α} (hlength : ∀ v, (encode v).length = size)
    (hdecode : ∀ v, decode (encode v) = v) :
    (Accessor.ofCodec size refused encode decode).Lawful size where
  get_set {cells cells' offset v} h := by
    show decode (readAt cells' offset size) = v
    rw [Accessor.readAt_ofCodec hlength h, hdecode]
  outside {cells cells' offset v} h := by
    unfold ofCodec at h
    dsimp only at h
    split at h
    · cases h
      rename_i hfit
      have houtside := writeAt_outside cells (encode v) ((hlength v).symm ▸ hfit)
      rw [hlength] at houtside
      exact houtside
    · cases h
  inside h := by
    show decode _ = decode _
    rw [readAt_congr h]

end

/-! ## Numbers as cells -/

/-- The low `8 * size` bits of a number, the highest byte first. -/
def bigEndian : Nat → Nat → List UInt8
  | 0, _ => []
  | size + 1, n => bigEndian size (n / 256) ++ [UInt8.ofNat n]

def ofBigEndian (bytes : List UInt8) : Nat := bytes.foldl (fun n b => 256 * n + b.toNat) 0

@[simp] theorem length_bigEndian (size n : Nat) : (bigEndian size n).length = size := by
  induction size generalizing n with
  | zero => rfl
  | succ size ih => rw [bigEndian, List.length_append, ih, List.length_singleton]

theorem ofBigEndian_bigEndian (size n : Nat) :
    ofBigEndian (bigEndian size n) = n % 256 ^ size := by
  induction size generalizing n with
  | zero => exact (Nat.mod_one n).symm
  | succ size ih =>
    have hbyte : (UInt8.ofNat n).toNat = n % 256 := UInt8.toNat_ofNat'
    rw [bigEndian, ofBigEndian, List.foldl_append, List.foldl_cons, List.foldl_nil, hbyte,
      ← ofBigEndian, ih, Nat.pow_succ', Nat.mod_mul]
    omega

/-- Values that are the numbers of `size` bytes. -/
structure Word (α : Type) (size : Nat) where
  toNat : α → Nat
  ofNat : Nat → α
  toNat_lt (v : α) : toNat v < 256 ^ size
  ofNat_toNat (v : α) : ofNat (toNat v) = v

namespace Word

variable {α ε : Type} {size : Nat} (w : Word α size) (refused : ε)

def encode (v : α) : List UInt8 := bigEndian size (w.toNat v)

def decode (bytes : List UInt8) : α := w.ofNat (ofBigEndian bytes)

def accessor : Accessor UInt8 ε α := .ofCodec size refused w.encode w.decode

theorem length_encode (v : α) : (w.encode v).length = size := length_bigEndian _ _

theorem decode_encode (v : α) : w.decode (w.encode v) = v := by
  rw [decode, encode, ofBigEndian_bigEndian, Nat.mod_eq_of_lt (w.toNat_lt v), w.ofNat_toNat]

theorem accessor_lawful : (w.accessor refused).Lawful size :=
  Accessor.ofCodec_lawful w.length_encode w.decode_encode

variable {refused}

/-- The bytes of a value that was set. -/
theorem readAt_set {cells cells' : List UInt8} {offset : Nat} {v : α}
    (h : (w.accessor refused).set cells offset v = .ok cells') :
    readAt cells' offset size = w.encode v :=
  Accessor.readAt_ofCodec w.length_encode h

end Word

end Lib
