/-
Slices, fixed arrays and checked integer arithmetic as the language has them: an index or a range
out of bounds, a failed `try_into().unwrap()` and an overflowing `+` or `-` are panics. A `Vec` and
a `&[T]` are lists; a `[T; N]` is a list that carries its length.
-/
import KeyboardProject.Rust.Outcome

namespace Rust

open Outcome

/-- The target a crate is built for, as far as the code can see it: the width of `usize`. -/
class Target where
  usizeBits : Nat
  wide : 32 ≤ usizeBits

@[reducible] def target64 : Target := ⟨64, by omega⟩

/-- `usize::MAX`. -/
def usizeMax [Target] : Nat := 2 ^ Target.usizeBits - 1

/-- `isize::MAX`, the largest number of bytes a `Vec` or a slice can have. -/
def isizeMax [Target] : Nat := 2 ^ (Target.usizeBits - 1) - 1

/-- `[T; N]`. -/
abbrev Arr (α : Type) (n : Nat) := { l : List α // l.length = n }

variable {ε α : Type}

/-- `[a; n]`. -/
def fill (n : Nat) (a : α) : Arr α n := ⟨List.replicate n a, List.length_replicate⟩

/-- `a + b` on `usize`. -/
def usizeAdd [Target] (a b : Nat) : Outcome ε Nat := if a + b ≤ usizeMax then ok (a + b) else panic

/-- `a + b` on `u32`. -/
def u32Add (a b : UInt32) : Outcome ε UInt32 := if a.toNat + b.toNat < 2 ^ 32 then ok (a + b) else panic

/-- `a - b` on `u32`. -/
def u32Sub (a b : UInt32) : Outcome ε UInt32 := if b ≤ a then ok (a - b) else panic

/-- `&s[i..j]`. -/
def slice (s : List α) (i j : Nat) : Outcome ε (List α) :=
  if i ≤ j ∧ j ≤ s.length then ok ((s.take j).drop i) else panic

/-- `&s[..j]`. -/
def sliceTo (s : List α) (j : Nat) : Outcome ε (List α) := slice s 0 j

/-- `&s[i..]`. -/
def sliceFrom (s : List α) (i : Nat) : Outcome ε (List α) := slice s i s.length

/-- `s[i]`. -/
def index (s : List α) (i : Nat) : Outcome ε α :=
  match s[i]? with
  | some a => ok a
  | none => panic

/-- `s.try_into().unwrap()` at type `[T; N]`, and `copy_from_slice` into a fresh `[T; N]`. -/
def intoArr (n : Nat) (s : List α) : Outcome ε (Arr α n) := if h : s.length = n then ok ⟨s, h⟩ else panic

/-! ## In bounds, no panic -/

theorem usizeMax_wide [Target] : 2 ^ 32 - 1 ≤ usizeMax := by
  unfold usizeMax
  have := Nat.pow_le_pow_right (n := 2) (by omega) Target.wide
  omega

/-- A length that fits a `Vec` leaves room for half the address space. -/
theorem add_isizeMax_le_usizeMax [Target] {a b : Nat} (ha : a ≤ 2 ^ 31) (hb : b ≤ isizeMax) : a + b ≤ usizeMax := by
  unfold isizeMax at hb
  unfold usizeMax
  obtain ⟨k, hk⟩ : ∃ k, Target.usizeBits = k + 1 := ⟨Target.usizeBits - 1, by have := Target.wide; omega⟩
  have h31 : 31 ≤ k := by have := Target.wide; omega
  have := Nat.pow_le_pow_right (n := 2) (by omega) h31
  rw [hk, Nat.add_sub_cancel] at hb
  rw [hk, Nat.pow_succ]
  omega

theorem isizeMax_le_usizeMax [Target] : isizeMax ≤ usizeMax := by
  have h := @add_isizeMax_le_usizeMax _ 0 isizeMax (by omega) le_rfl
  omega

theorem usizeAdd_ok [Target] {a b : Nat} (h : a + b ≤ usizeMax) : (usizeAdd a b : Outcome ε Nat) = ok (a + b) := if_pos h

theorem usizeAdd_overflow [Target] {a b : Nat} (h : ¬a + b ≤ usizeMax) : (usizeAdd a b : Outcome ε Nat) = panic := if_neg h

theorem u32Sub_ok {a b : UInt32} (h : b ≤ a) : (u32Sub a b : Outcome ε UInt32) = ok (a - b) := if_pos h

theorem u32Add_ok {a b : UInt32} (h : a.toNat + b.toNat < 2 ^ 32) : (u32Add a b : Outcome ε UInt32) = ok (a + b) :=
  if_pos h

theorem slice_ok {s : List α} {i j : Nat} (hi : i ≤ j) (hj : j ≤ s.length) :
    (slice s i j : Outcome ε (List α)) = ok ((s.take j).drop i) := if_pos ⟨hi, hj⟩

theorem sliceTo_ok {s : List α} {j : Nat} (hj : j ≤ s.length) : (sliceTo s j : Outcome ε (List α)) = ok (s.take j) := by
  rw [sliceTo, slice_ok (Nat.zero_le _) hj, List.drop_zero]

theorem sliceFrom_ok {s : List α} {i : Nat} (hi : i ≤ s.length) :
    (sliceFrom s i : Outcome ε (List α)) = ok (s.drop i) := by
  rw [sliceFrom, slice_ok hi le_rfl, List.take_length]

theorem intoArr_ok {n : Nat} {s : List α} (h : s.length = n) : (intoArr n s : Outcome ε (Arr α n)) = ok ⟨s, h⟩ := dif_pos h

end Rust
