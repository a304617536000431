/-
The byte-level operations of `u16` and `u32`: `to_le_bytes`, `from_le_bytes`, `rotate_left`; and
byte strings.
-/
import KeyboardProject.Rust.Slice
import KeyboardProject.Lib.LittleEndian

namespace Rust

/-- `b"..."`. -/
def ascii (s : String) : List UInt8 := s.toList.map fun c => UInt8.ofNat c.toNat

/-- `u32::to_le_bytes`. -/
def u32ToLeBytes (x : UInt32) : Arr UInt8 4 := ⟨LittleEndian.encode 4 x.toNat, LittleEndian.length_encode _ _⟩

/-- `u32::from_le_bytes`. -/
def u32FromLeBytes (b : Arr UInt8 4) : UInt32 := UInt32.ofNat (LittleEndian.value b.1)

/-- `u16::to_le_bytes`. -/
def u16ToLeBytes (x : UInt16) : Arr UInt8 2 := ⟨LittleEndian.encode 2 x.toNat, LittleEndian.length_encode _ _⟩

/-- `u16::from_le_bytes`. -/
def u16FromLeBytes (b : Arr UInt8 2) : UInt16 := UInt16.ofNat (LittleEndian.value b.1)

/-- `u32::rotate_left`, by less than 32. -/
def u32RotateLeft (x k : UInt32) : UInt32 := (x <<< k) ||| (x >>> (32 - k))

@[simp] theorem u32FromLeBytes_toLeBytes (x : UInt32) : u32FromLeBytes (u32ToLeBytes x) = x := by
  unfold u32FromLeBytes u32ToLeBytes
  rw [LittleEndian.value_encode_of_lt (by have := x.toNat_lt; omega), UInt32.ofNat_toNat]

@[simp] theorem u32ToLeBytes_fromLeBytes (b : Arr UInt8 4) : u32ToLeBytes (u32FromLeBytes b) = b := by
  apply Subtype.ext
  have hlt := LittleEndian.value_lt b.1
  have henc := LittleEndian.encode_value b.1
  rw [b.2] at hlt henc
  show LittleEndian.encode 4 (UInt32.ofNat (LittleEndian.value b.1)).toNat = b.1
  rw [UInt32.toNat_ofNat', Nat.mod_eq_of_lt (by omega), henc]

theorem u32ToLeBytes_inj {x y : UInt32} (h : u32ToLeBytes x = u32ToLeBytes y) : x = y := by
  rw [← u32FromLeBytes_toLeBytes x, h, u32FromLeBytes_toLeBytes]

/-- A length cast to `u16` and written out keeps its low sixteen bits. -/
theorem u16ToLeBytes_ofNat (n : Nat) : (u16ToLeBytes (UInt16.ofNat n)).1 = LittleEndian.encode 2 n := by
  show LittleEndian.encode 2 (UInt16.ofNat n).toNat = _
  rw [UInt16.toNat_ofNat']
  exact LittleEndian.encode_mod 2 n

theorem u16FromLeBytes_toNat (b : Arr UInt8 2) : (u16FromLeBytes b).toNat = LittleEndian.value b.1 := by
  have hlt := LittleEndian.value_lt b.1
  rw [b.2] at hlt
  unfold u16FromLeBytes
  rw [UInt16.toNat_ofNat', Nat.mod_eq_of_lt (by omega)]

end Rust
