import Mathlib.Algebra.Group.Nat.Defs

/-! # Little-endian bytes of naturals

A natural number as a fixed number of bytes, least significant first, and back.
The two maps are mutually inverse on the widths and ranges where they can be,
and a write at an offset of a buffer (`splice`) is read back by `slice`. -/

namespace Bytes

/-- The `width` little-endian bytes of `n`; higher bits are dropped. -/
def toLittleEndian : Nat → Nat → List UInt8
  | 0, _ => []
  | width + 1, n => UInt8.ofNat n :: toLittleEndian width (n / 256)

/-- The natural whose little-endian bytes are given. -/
def ofLittleEndian : List UInt8 → Nat
  | [] => 0
  | byte :: rest => byte.toNat + 256 * ofLittleEndian rest

@[simp] theorem toLittleEndian_length (width n : Nat) : (toLittleEndian width n).length = width := by
  induction width generalizing n with
  | zero => rfl
  | succ width ih => simp [toLittleEndian, ih]

theorem ofLittleEndian_toLittleEndian (width n : Nat) :
    ofLittleEndian (toLittleEndian width n) = n % 256 ^ width := by
  induction width generalizing n with
  | zero => simp [toLittleEndian, ofLittleEndian, Nat.mod_one]
  | succ width ih =>
    rw [toLittleEndian, ofLittleEndian, ih, Nat.pow_succ', Nat.mod_mul]
    simp

theorem ofLittleEndian_toLittleEndian_of_lt {width n : Nat} (bound : n < 256 ^ width) :
    ofLittleEndian (toLittleEndian width n) = n := by
  rw [ofLittleEndian_toLittleEndian, Nat.mod_eq_of_lt bound]

theorem toLittleEndian_ofLittleEndian (bytes : List UInt8) :
    toLittleEndian bytes.length (ofLittleEndian bytes) = bytes := by
  induction bytes with
  | nil => rfl
  | cons byte rest ih =>
    have small := byte.toNat_lt
    have quotient : (byte.toNat + 256 * ofLittleEndian rest) / 256 = ofLittleEndian rest := by omega
    rw [List.length_cons, toLittleEndian, ofLittleEndian, quotient, ih]
    congr 1
    apply UInt8.toNat_inj.mp
    simp only [UInt8.toNat_ofNat']
    omega

theorem ofLittleEndian_lt (bytes : List UInt8) : ofLittleEndian bytes < 256 ^ bytes.length := by
  induction bytes with
  | nil => simp [ofLittleEndian]
  | cons byte rest ih =>
    have small := byte.toNat_lt
    rw [ofLittleEndian, List.length_cons, Nat.pow_succ]
    omega

/-! ## Slices of a buffer -/

/-- The `count` bytes of `buffer` from `offset` on. -/
def slice (buffer : List UInt8) (offset count : Nat) : List UInt8 :=
  (buffer.drop offset).take count

theorem slice_length {buffer : List UInt8} {offset count : Nat}
    (inside : offset + count ≤ buffer.length) : (slice buffer offset count).length = count := by
  simp only [slice, List.length_take, List.length_drop]
  omega

/-- Two slices that meet are one slice. -/
theorem slice_append_slice {buffer : List UInt8} {offset width next count : Nat}
    (meet : offset + width = next) :
    slice buffer offset width ++ slice buffer next count = slice buffer offset (width + count) := by
  subst meet
  rw [slice, slice, slice, List.take_add, List.drop_drop]

theorem slice_append_left {first rest : List UInt8} {count : Nat} (exact : first.length = count) :
    slice (first ++ rest) 0 count = first := by
  subst exact
  simp [slice]

theorem slice_append_right {first rest : List UInt8} {offset count : Nat}
    (past : first.length ≤ offset) :
    slice (first ++ rest) offset count = slice rest (offset - first.length) count := by
  rw [slice, List.drop_append, List.drop_of_length_le past]
  rfl

/-- The byte of `buffer` at `offset`; zero past the end. -/
def byteAt (buffer : List UInt8) (offset : Nat) : UInt8 := buffer.getD offset 0

@[simp] theorem byteAt_cons_zero (byte : UInt8) (rest : List UInt8) : byteAt (byte :: rest) 0 = byte :=
  rfl

@[simp] theorem byteAt_cons_succ (byte : UInt8) (rest : List UInt8) (offset : Nat) :
    byteAt (byte :: rest) (offset + 1) = byteAt rest offset := rfl

theorem byteAt_append_right {first rest : List UInt8} {offset : Nat} (past : first.length ≤ offset) :
    byteAt (first ++ rest) offset = byteAt rest (offset - first.length) := by
  simp [byteAt, List.getElem?_append_right past]

theorem slice_one {buffer : List UInt8} {offset : Nat} (inside : offset < buffer.length) :
    slice buffer offset 1 = [byteAt buffer offset] := by
  rw [slice, List.drop_eq_getElem_cons inside, List.take_succ_cons, List.take_zero]
  simp [byteAt, inside]

/-- Reading a number and writing it back restores the bytes it was read from. -/
theorem toLittleEndian_slice {buffer : List UInt8} {offset width : Nat}
    (inside : offset + width ≤ buffer.length) :
    toLittleEndian width (ofLittleEndian (slice buffer offset width)) = slice buffer offset width := by
  have restored := toLittleEndian_ofLittleEndian (slice buffer offset width)
  rwa [slice_length inside] at restored

theorem ofLittleEndian_slice_lt {buffer : List UInt8} {offset width : Nat}
    (inside : offset + width ≤ buffer.length) :
    ofLittleEndian (slice buffer offset width) < 256 ^ width := by
  have bound := ofLittleEndian_lt (slice buffer offset width)
  rwa [slice_length inside] at bound

/-- `buffer` with `bytes` written over it from `offset` on. -/
def splice (buffer : List UInt8) (offset : Nat) (bytes : List UInt8) : List UInt8 :=
  buffer.take offset ++ bytes ++ buffer.drop (offset + bytes.length)

theorem splice_length {buffer bytes : List UInt8} {offset : Nat}
    (fits : offset + bytes.length ≤ buffer.length) :
    (splice buffer offset bytes).length = buffer.length := by
  simp only [splice, List.length_append, List.length_take, List.length_drop]
  omega

/-- A write that starts where the previous writes ended extends the written prefix. -/
theorem splice_append {written rest bytes : List UInt8} {offset : Nat}
    (reached : written.length = offset) :
    splice (written ++ rest) offset bytes = (written ++ bytes) ++ rest.drop bytes.length := by
  subst reached
  simp [splice, List.drop_append]

end Bytes
