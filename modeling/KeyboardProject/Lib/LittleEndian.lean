/-
Little-endian byte strings of a fixed width and the naturals they stand for: `encode w` and `value`
are inverse to each other on the naturals below `256 ^ w` and the byte strings of length `w`.
-/
import Mathlib.Tactic

namespace LittleEndian

/-- The `w` low bytes of `n`, least significant first. -/
def encode : Nat → Nat → List UInt8
  | 0, _ => []
  | w + 1, n => UInt8.ofNat n :: encode w (n / 256)

/-- The natural a little-endian byte string stands for. -/
def value : List UInt8 → Nat
  | [] => 0
  | b :: bs => b.toNat + 256 * value bs

@[simp] theorem length_encode : ∀ w n, (encode w n).length = w
  | 0, _ => rfl
  | w + 1, n => by simp [encode, length_encode w]

theorem value_encode : ∀ w n, value (encode w n) = n % 256 ^ w
  | 0, n => by simp [encode, value, Nat.mod_one]
  | w + 1, n => by
    have hb : (UInt8.ofNat n).toNat = n % 256 := by simp
    rw [encode, value, value_encode w, hb, Nat.pow_succ, Nat.mul_comm (256 ^ w), Nat.mod_mul]

theorem value_encode_of_lt {w n : Nat} (h : n < 256 ^ w) : value (encode w n) = n := by
  rw [value_encode, Nat.mod_eq_of_lt h]

theorem value_lt : ∀ bs : List UInt8, value bs < 256 ^ bs.length
  | [] => by simp [value]
  | b :: bs => by
    have ih := value_lt bs
    have hb := b.toNat_lt
    rw [value, List.length_cons, Nat.pow_succ]
    omega

theorem encode_value : ∀ bs : List UInt8, encode bs.length (value bs) = bs
  | [] => rfl
  | b :: bs => by
    have hb := b.toNat_lt
    have hdiv : (b.toNat + 256 * value bs) / 256 = value bs := by omega
    have hlow : UInt8.ofNat (b.toNat + 256 * value bs) = b := by
      apply UInt8.toNat_inj.1
      rw [UInt8.toNat_ofNat']
      omega
    rw [List.length_cons, value, encode, hdiv, hlow, encode_value bs]

/-- Equal encodings of any two naturals agree on the encoded bits. -/
theorem encode_mod (w n : Nat) : encode w (n % 256 ^ w) = encode w n := by
  have h := encode_value (encode w n)
  rwa [length_encode, value_encode] at h

end LittleEndian
