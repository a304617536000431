/-
The dummy tagger detects every change of a single byte: each byte is mixed into the state by a step
that loses nothing, and the first four bytes of the tag are the state.
-/
import KeyboardProject.Lib.Mixing
import KeyboardProject.Proto.Aead

namespace KeyboardProject.Wire

open Rust Rust.Outcome Proto Mixing

/-! ## The mixing step -/

theorem u32RotateLeft_five_toNat (x : UInt32) :
    (u32RotateLeft x 5).toNat = x.toNat % 2 ^ 27 * 2 ^ 5 + x.toNat / 2 ^ 27 := by
  have hlt := x.toNat_lt
  have hhigh : x.toNat <<< 5 % 2 ^ 32 = (x.toNat % 2 ^ 27) <<< 5 := by
    rw [Nat.shiftLeft_eq, Nat.shiftLeft_eq, ← Nat.mul_mod_mul_right, ← Nat.pow_add]
  have hlow : x.toNat / 2 ^ 27 < 2 ^ 5 := Nat.div_lt_of_lt_mul hlt
  have hk : (32 - 5 : UInt32).toNat % 32 = 27 := rfl
  have h5 : (5 : UInt32).toNat % 32 = 5 := rfl
  unfold u32RotateLeft
  rw [UInt32.toNat_or, UInt32.toNat_shiftLeft, UInt32.toNat_shiftRight, hk, h5, hhigh, Nat.shiftRight_eq_div_pow,
    ← Nat.shiftLeft_add_eq_or_of_lt hlow, Nat.shiftLeft_eq]

theorem u32RotateLeft_five_injective : Function.Injective fun x => u32RotateLeft x 5 := by
  intro x y h
  have hnat := congrArg UInt32.toNat h
  simp only [u32RotateLeft_five_toNat] at hnat
  -- a rotated word has the high five bits at the bottom and the rest above them
  have hx : x.toNat / 2 ^ 27 < 2 ^ 5 := Nat.div_lt_of_lt_mul x.toNat_lt
  have hy : y.toNat / 2 ^ 27 < 2 ^ 5 := Nat.div_lt_of_lt_mul y.toNat_lt
  apply UInt32.toNat_inj.1
  rw [← Nat.div_add_mod x.toNat (2 ^ 27), ← Nat.div_add_mod y.toNat (2 ^ 27)]
  generalize x.toNat / 2 ^ 27 = qx at *
  generalize y.toNat / 2 ^ 27 = qy at *
  generalize x.toNat % 2 ^ 27 = rx at *
  generalize y.toNat % 2 ^ 27 = ry at *
  omega

/-- The multiplier is odd, so it has an inverse. -/
theorem mul_injective : Function.Injective fun x : UInt32 => x * 0x45d9f3b := by
  have hinv : (0x45d9f3b : UInt32) * 0x119de1f3 = 1 := by decide
  intro x y h
  have hxy : x * 0x45d9f3b * 0x119de1f3 = y * 0x45d9f3b * 0x119de1f3 := congrArg (· * 0x119de1f3) h
  rwa [UInt32.mul_assoc, UInt32.mul_assoc, hinv, UInt32.mul_one, UInt32.mul_one] at hxy

theorem mixes_mix : Mixes mix where
  state b s t h := u32RotateLeft_five_injective ((UInt32.xor_left_inj _).1 (mul_injective h))
  symbol s a b h := by
    have hx := (UInt32.xor_right_inj _).1 (mul_injective h)
    have hnat := congrArg UInt32.toNat hx
    rw [UInt8.toNat_toUInt32, UInt8.toNat_toUInt32] at hnat
    exact UInt8.toNat_inj.1 hnat

/-! ## The tag shows the state -/

theorem prefix_tagLoop (macLen : Nat) (state : UInt32) (out : List UInt8) : out <+: tagLoop macLen state out := by
  induction state, out using tagLoop.induct macLen with
  | case1 state out hlt ih => rw [tagLoop, if_pos hlt]; exact (List.prefix_append _ _).trans ih
  | case2 state out hge => rw [tagLoop, if_neg hge]

theorem simpleTag_take (aad payload nonce : List UInt8) {macLen : Nat} (h : 4 ≤ macLen) :
    (simpleTag aad payload nonce macLen).take 4 =
      (u32ToLeBytes ((aad ++ payload ++ nonce).foldl mix 0xA5A55A5A)).1 := by
  unfold simpleTag
  rw [List.take_take, Nat.min_eq_left h, tagLoop, if_pos (by rw [List.length_nil]; omega), List.nil_append]
  generalize (aad ++ payload ++ nonce).foldl mix 0xA5A55A5A = state
  obtain ⟨rest, hrest⟩ := prefix_tagLoop macLen (u32RotateLeft state 7 ^^^ 0xA5A5A5A5) (u32ToLeBytes state).1
  rw [← hrest]
  exact List.take_left' (u32ToLeBytes state).2

theorem simpleTag_ne {aad payload nonce aad' payload' nonce' : List UInt8} {macLen : Nat} (h : 4 ≤ macLen)
    (hchange : OneChanged (aad ++ payload ++ nonce) (aad' ++ payload' ++ nonce')) :
    simpleTag aad' payload' nonce' macLen ≠ simpleTag aad payload nonce macLen := by
  intro heq
  have hstate := congrArg (List.take 4) heq
  rw [simpleTag_take _ _ _ h, simpleTag_take _ _ _ h] at hstate
  exact mixes_mix.foldl_ne hchange 0xA5A55A5A (u32ToLeBytes_inj (Subtype.ext hstate)).symm

/-! ## Opening -/

theorem dummyAead_open_of_tag_ne {nonce aad c t : List UInt8} (h : simpleTag aad c nonce t.length ≠ t) :
    dummyAead.open nonce aad c t = .err (.authFailed "DummyAead::open") := if_neg h

/-- Replacing one byte of the nonce, the associated data, the ciphertext or the tag makes `open` fail,
for every tag of four bytes or more. -/
theorem dummyAead_detects {nonce aad x c t : List UInt8} {macLen : Nat} (hmac : 4 ≤ macLen)
    (hseal : dummyAead.seal nonce aad x macLen = .ok (c, t)) {l : List UInt8} :
    (OneChanged nonce l → dummyAead.open l aad c t = .err (.authFailed "DummyAead::open")) ∧
    (OneChanged aad l → dummyAead.open nonce l c t = .err (.authFailed "DummyAead::open")) ∧
    (OneChanged c l → dummyAead.open nonce aad l t = .err (.authFailed "DummyAead::open")) ∧
    (OneChanged t l → dummyAead.open nonce aad c l = .err (.authFailed "DummyAead::open")) := by
  obtain ⟨rfl, rfl⟩ := Prod.mk.inj (ok.inj hseal)
  refine ⟨fun h => ?_, fun h => ?_, fun h => ?_, fun h => ?_⟩
  · apply dummyAead_open_of_tag_ne
    rw [length_simpleTag]
    exact simpleTag_ne hmac (h.append_left _)
  · apply dummyAead_open_of_tag_ne
    rw [length_simpleTag]
    exact simpleTag_ne hmac ((h.append_right _).append_right _)
  · apply dummyAead_open_of_tag_ne
    rw [length_simpleTag]
    exact simpleTag_ne hmac ((h.append_left _).append_right _)
  · -- the tag is computed over unchanged inputs, so it is the unchanged one
    apply dummyAead_open_of_tag_ne
    rw [h.length, length_simpleTag]
    exact h.ne

/-- A report of three keys: its nonce, its header with the length, and its tag. -/
def threeKeysNonce : List UInt8 := List.replicate 24 0x99

def threeKeysAad : List UInt8 := [0x55, 0x66, 0x77, 0x88, 1, 0, 0, 0, 2, 3, 3, 0]

def threeKeysTag : List UInt8 := [155, 212, 243, 45, 51, 232, 79, 92, 11, 188, 81, 130, 100, 160, 123, 141]

/-- Another nonce, another counter, another key, another tag. -/
theorem dummyAead_detects_key :
    dummyAead.open (threeKeysNonce.set 8 0x98) threeKeysAad [4, 5, 6] threeKeysTag = .err (.authFailed "DummyAead::open") ∧
    dummyAead.open threeKeysNonce (threeKeysAad.set 4 2) [4, 5, 6] threeKeysTag = .err (.authFailed "DummyAead::open") ∧
    dummyAead.open threeKeysNonce threeKeysAad [4, 0x15, 6] threeKeysTag = .err (.authFailed "DummyAead::open") ∧
    dummyAead.open threeKeysNonce threeKeysAad [4, 5, 6] (threeKeysTag.set 15 140) =
      .err (.authFailed "DummyAead::open") := by
  have hseal : dummyAead.seal threeKeysNonce threeKeysAad [4, 5, 6] 16 = .ok ([4, 5, 6], threeKeysTag) := by decide +kernel
  refine ⟨(dummyAead_detects (by omega) hseal).1 ?_, (dummyAead_detects (by omega) hseal).2.1 ?_,
    (dummyAead_detects (by omega) hseal).2.2.1 ?_, (dummyAead_detects (by omega) hseal).2.2.2 ?_⟩
  · exact ⟨List.replicate 8 0x99, 0x99, 0x98, List.replicate 15 0x99, by decide, rfl, rfl⟩
  · exact ⟨threeKeysAad.take 4, 1, 2, threeKeysAad.drop 5, by decide, rfl, rfl⟩
  · exact ⟨[4], 5, 0x15, [6], by decide, rfl, rfl⟩
  · exact ⟨threeKeysTag.take 15, 141, 140, [], by decide, rfl, rfl⟩

end KeyboardProject.Wire
