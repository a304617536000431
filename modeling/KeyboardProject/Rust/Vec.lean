/-
`Vec::swap`, `Vec::remove`, sums on `u64`, saturating ones on `u32`, and products on `usize`. Where one
overflows it panics under the dev profile and wraps under the release profile, so both are here.
-/
import KeyboardProject.Rust.Slice

namespace Rust

open Outcome

variable {ε α : Type}

/-- The compiler profile, as far as arithmetic can see it. -/
class Profile where
  overflowChecks : Bool

@[reducible] def devProfile : Profile := ⟨true⟩
@[reducible] def releaseProfile : Profile := ⟨false⟩

/-- `u64::MAX`. -/
def u64Max : UInt64 := 0xFFFFFFFFFFFFFFFF

/-- `a + b` on `u64`. -/
def u64Add [Profile] (a b : UInt64) : Outcome ε UInt64 :=
  if a.toNat + b.toNat < 2 ^ 64 then ok (a + b)
  else if Profile.overflowChecks then panic else ok (a + b)

/-- `a.saturating_add(b)` on `u64`. -/
def u64SaturatingAdd (a b : UInt64) : UInt64 := if a.toNat + b.toNat < 2 ^ 64 then a + b else u64Max

/-- `a.saturating_add(b)` on `u32`. -/
def u32SaturatingAdd (a b : UInt32) : UInt32 := if a.toNat + b.toNat < 2 ^ 32 then a + b else 0xFFFFFFFF

/-- `a * b` on `usize`. -/
def usizeMul [Target] [Profile] (a b : Nat) : Outcome ε Nat :=
  if a * b ≤ usizeMax then ok (a * b)
  else if Profile.overflowChecks then panic else ok (a * b % 2 ^ Target.usizeBits)

/-- `s.swap(i, j)`. -/
def swap (s : List α) (i j : Nat) : Outcome ε (List α) :=
  match s[i]?, s[j]? with
  | some a, some b => ok ((s.set i b).set j a)
  | _, _ => panic

/-- `s.remove(i)`: the element, and the vector without it. -/
def remove (s : List α) (i : Nat) : Outcome ε (α × List α) :=
  match s[i]? with
  | some a => ok (a, s.eraseIdx i)
  | none => panic

/-- `(0..n).step_by(k)`. -/
def rangeStepBy (n k : Nat) : List Nat := List.range' 0 ((n + k - 1) / k) k

/-! ## Sums -/

theorem u64Max_toNat : u64Max.toNat = 2 ^ 64 - 1 := rfl

theorem u64Add_ok [Profile] {a b : UInt64} (h : a.toNat + b.toNat < 2 ^ 64) : (u64Add a b : Outcome ε UInt64) = ok (a + b) :=
  if_pos h

theorem u64Add_eq_ok [Profile] {a b c : UInt64} (h : (u64Add a b : Outcome ε UInt64) = ok c) : c = a + b := by
  unfold u64Add at h
  split_ifs at h <;> exact (ok.inj h).symm

theorem u64_add_toNat {a b : UInt64} (h : a.toNat + b.toNat < 2 ^ 64) : (a + b).toNat = a.toNat + b.toNat := by
  rw [UInt64.toNat_add, Nat.mod_eq_of_lt h]

theorem u64SaturatingAdd_toNat (a b : UInt64) : (u64SaturatingAdd a b).toNat = min (a.toNat + b.toNat) (2 ^ 64 - 1) := by
  unfold u64SaturatingAdd
  split_ifs with h
  · rw [u64_add_toNat h, Nat.min_eq_left (by omega)]
  · rw [u64Max_toNat, Nat.min_eq_right (by omega)]

theorem u32SaturatingAdd_toNat (a b : UInt32) : (u32SaturatingAdd a b).toNat = min (2 ^ 32 - 1) (a.toNat + b.toNat) := by
  unfold u32SaturatingAdd
  split_ifs with h
  · rw [UInt32.toNat_add, Nat.mod_eq_of_lt h]
    omega
  · show 2 ^ 32 - 1 = _
    omega

/-! ## Products -/

theorem usizeMul_ok [Target] [Profile] {a b : Nat} (h : a * b ≤ usizeMax) : (usizeMul a b : Outcome ε Nat) = ok (a * b) :=
  if_pos h

theorem usizeMul_panics [Target] [Profile] {a b : Nat} (h : ¬a * b ≤ usizeMax) (hchecks : Profile.overflowChecks = true) :
    (usizeMul a b : Outcome ε Nat) = panic := by
  rw [usizeMul, if_neg h, if_pos hchecks]

theorem usizeMul_wraps [Target] [Profile] {a b : Nat} (h : ¬a * b ≤ usizeMax) (hchecks : ¬Profile.overflowChecks = true) :
    (usizeMul a b : Outcome ε Nat) = ok (a * b % 2 ^ Target.usizeBits) := by
  rw [usizeMul, if_neg h, if_neg hchecks]

/-- An even product stays even when it wraps. -/
theorem two_dvd_mul_two_mod [Target] (n : Nat) : 2 ∣ n * 2 % 2 ^ Target.usizeBits := by
  have hbits : Target.usizeBits ≠ 0 := by have := Target.wide; omega
  exact (Nat.dvd_mod_iff (dvd_pow_self 2 hbits)).2 (Nat.dvd_mul_left 2 n)

/-! ## In bounds -/

/-- Swapping the last two. -/
theorem swap_last (s : List α) (a b : α) :
    (swap (s ++ [a, b]) (s.length + 1) s.length : Outcome ε (List α)) = ok (s ++ [b, a]) := by
  simp [swap]

theorem remove_split (s : List α) (a : α) (t : List α) :
    (remove (s ++ a :: t) s.length : Outcome ε (α × List α)) = ok (a, s ++ t) := by
  simp [remove, List.eraseIdx_append_of_length_le]

end Rust
