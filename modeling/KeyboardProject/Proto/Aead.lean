/-
The AEAD interface (`proto/src/aead.rs`) and its two implementations: the dummy tagger of the
simulations, and the real one over an XChaCha20-Poly1305 cipher, which is a parameter here.
-/
import KeyboardProject.Proto.Types
import KeyboardProject.Rust.Bytes

namespace KeyboardProject.Proto

open Rust Rust.Outcome

inductive CryptoError where
  | authFailed (context : String)
  | parse (e : ParseError)
  | serialize (e : SerializationError)
  deriving DecidableEq, Repr

/-- The trait `Aead`: both calls return `Ok` or `Err` on every input. -/
structure Aead where
  «seal» (nonce aad plaintext : List UInt8) (macLen : Nat) : Outcome CryptoError (List UInt8 × List UInt8)
  «open» (nonce aad ciphertext mac : List UInt8) : Outcome CryptoError (List UInt8)
  seal_total : ∀ nonce aad plaintext macLen, «seal» nonce aad plaintext macLen ≠ .panic
  open_total : ∀ nonce aad ciphertext mac, «open» nonce aad ciphertext mac ≠ .panic

/-! ## The dummy tagger -/

/-- One byte mixed into the state of `simple_tag`. -/
def mix (state : UInt32) (b : UInt8) : UInt32 := (u32RotateLeft state 5 ^^^ b.toUInt32) * 0x45d9f3b

/-- The output loop of `simple_tag`: four bytes of the state at a time. -/
def tagLoop (macLen : Nat) (state : UInt32) (out : List UInt8) : List UInt8 :=
  if out.length < macLen then
    tagLoop macLen (u32RotateLeft state 7 ^^^ 0xA5A5A5A5) (out ++ (u32ToLeBytes state).1)
  else out
termination_by macLen - out.length
decreasing_by rw [List.length_append, (u32ToLeBytes state).2]; omega

def simpleTag (aad payload nonce : List UInt8) (macLen : Nat) : List UInt8 :=
  (tagLoop macLen ((aad ++ payload ++ nonce).foldl mix 0xA5A55A5A) []).take macLen

theorem le_length_tagLoop (macLen : Nat) (state : UInt32) (out : List UInt8) :
    macLen ≤ (tagLoop macLen state out).length := by
  induction state, out using tagLoop.induct macLen with
  | case1 state out hlt ih => rw [tagLoop, if_pos hlt]; exact ih
  | case2 state out hge => rw [tagLoop, if_neg hge]; omega

/-- The tag has exactly the length asked for. -/
@[simp] theorem length_simpleTag (aad payload nonce : List UInt8) (macLen : Nat) :
    (simpleTag aad payload nonce macLen).length = macLen := by
  unfold simpleTag
  rw [List.length_take]
  exact Nat.min_eq_left (le_length_tagLoop ..)

def dummyAead : Aead where
  «seal» nonce aad plaintext macLen := .ok (plaintext, simpleTag aad plaintext nonce macLen)
  «open» nonce aad ciphertext mac :=
    let expected := simpleTag aad ciphertext nonce mac.length
    if expected = mac then .ok ciphertext else .err (.authFailed "DummyAead::open")
  seal_total := by simp
  open_total := by intros; dsimp only; split_ifs <;> simp

/-! ## The real cipher -/

/-- `XChaCha20Poly1305` of the `chacha20poly1305` crate under one key: detached encryption and
decryption of a buffer, `none` for the crate's opaque error. -/
structure Cipher where
  encryptInPlaceDetached (nonce : Arr UInt8 nonceBytes) (aad buf : List UInt8) : Option (List UInt8 × Arr UInt8 maxMacBytes)
  decryptInPlaceDetached (nonce : Arr UInt8 nonceBytes) (aad buf : List UInt8) (tag : Arr UInt8 maxMacBytes) :
    Option (List UInt8)

/-- `RealAead::seal`; `XNonce::from_slice` panics on any length but 24. -/
def realSeal (cipher : Cipher) (nonce aad plaintext : List UInt8) (macLen : Nat) :
    Outcome CryptoError (List UInt8 × List UInt8) := do
  rejectIf (nonce.length ≠ nonceBytes) (.parse .unexpectedLength)
  rejectIf (macLen ≠ maxMacBytes) (.serialize .macLengthMismatch)
  let xnonce ← intoArr nonceBytes nonce
  match cipher.encryptInPlaceDetached xnonce aad plaintext with
  | none => .err (.authFailed "RealAead::seal")
  | some (buf, tag) =>
    let mac := tag.1
    -- `mac.truncate(..)`: dead behind the check on `mac_len`, since a tag has 16 bytes
    pure (buf, if mac.length ≠ macLen then mac.take (min macLen mac.length) else mac)

/-- `RealAead::open`; `XNonce::from_slice` and `Tag::from_slice` panic on any length but 24 and 16. -/
def realOpen (cipher : Cipher) (nonce aad ciphertext mac : List UInt8) : Outcome CryptoError (List UInt8) := do
  rejectIf (nonce.length ≠ nonceBytes) (.parse .unexpectedLength)
  rejectIf (mac.length ≠ maxMacBytes) (.parse .macLengthMismatch)
  let xnonce ← intoArr nonceBytes nonce
  let tag ← intoArr maxMacBytes mac
  match cipher.decryptInPlaceDetached xnonce aad ciphertext tag with
  | none => .err (.authFailed "RealAead::open")
  | some buf => pure buf

theorem realSeal_ne_panic (cipher : Cipher) (nonce aad plaintext : List UInt8) (macLen : Nat) :
    realSeal cipher nonce aad plaintext macLen ≠ .panic := by
  unfold realSeal
  by_cases hn : nonce.length = nonceBytes
  · rw [rejectIf_neg (not_not.2 hn), ok_bind, intoArr_ok hn]
    by_cases hm : macLen = maxMacBytes
    · rw [rejectIf_neg (not_not.2 hm), ok_bind, ok_bind]
      split <;> simp
    · rw [rejectIf_pos hm]; simp
  · rw [rejectIf_pos hn]; simp

theorem realOpen_ne_panic (cipher : Cipher) (nonce aad ciphertext mac : List UInt8) :
    realOpen cipher nonce aad ciphertext mac ≠ .panic := by
  unfold realOpen
  by_cases hn : nonce.length = nonceBytes
  · rw [rejectIf_neg (not_not.2 hn), ok_bind, intoArr_ok hn]
    by_cases hm : mac.length = maxMacBytes
    · rw [rejectIf_neg (not_not.2 hm), ok_bind, ok_bind, intoArr_ok hm, ok_bind]
      split <;> simp
    · rw [rejectIf_pos hm]; simp
  · rw [rejectIf_pos hn]; simp

/-- `RealAead` under one key. -/
def realAead (cipher : Cipher) : Aead where
  «seal» := realSeal cipher
  «open» := realOpen cipher
  seal_total := realSeal_ne_panic cipher
  open_total := realOpen_ne_panic cipher

/-! ## What is assumed of an AEAD -/

/-- Opening what was sealed gives the plaintext back; the ciphertext is as long as the plaintext and
the tag as long as asked for. -/
def Aead.Lawful (aead : Aead) : Prop :=
  ∀ nonce aad x macLen c t, aead.seal nonce aad x macLen = .ok (c, t) →
    c.length = x.length ∧ t.length = macLen ∧ aead.open nonce aad c t = .ok x

/-- What opens has the length of its ciphertext. -/
def Aead.LengthPreserving (aead : Aead) : Prop :=
  ∀ nonce aad c t x, aead.open nonce aad c t = .ok x → x.length = c.length

theorem dummyAead_open_eq_ok {nonce aad c t x : List UInt8} :
    dummyAead.open nonce aad c t = .ok x ↔ simpleTag aad c nonce t.length = t ∧ x = c := by
  simp only [dummyAead]
  split_ifs with h
  · simp only [ok.injEq, h, true_and]; exact eq_comm
  · simp [h]

/-- The tag loop gives as many bytes as asked for, so `DummyAead` opens what it seals. -/
theorem lawful_dummyAead : dummyAead.Lawful := by
  intro nonce aad x macLen c t h
  obtain ⟨rfl, rfl⟩ := Prod.mk.inj (ok.inj h)
  exact ⟨rfl, length_simpleTag .., dummyAead_open_eq_ok.2 ⟨by rw [length_simpleTag], rfl⟩⟩

theorem lengthPreserving_dummyAead : dummyAead.LengthPreserving := by
  intro nonce aad c t x h
  rw [(dummyAead_open_eq_ok.1 h).2]

/-- The crate's cipher decrypts what it encrypted, and encrypts in place. -/
def Cipher.Lawful (cipher : Cipher) : Prop :=
  ∀ nonce aad x c t, cipher.encryptInPlaceDetached nonce aad x = some (c, t) →
    c.length = x.length ∧ cipher.decryptInPlaceDetached nonce aad c t = some x

/-- The tag the cipher returns has the length asked for, so `RealAead` never truncates it. -/
theorem realSeal_eq_ok {cipher : Cipher} {nonce aad x c t : List UInt8} {macLen : Nat} :
    realSeal cipher nonce aad x macLen = .ok (c, t) ↔
      ∃ xnonce : Arr UInt8 nonceBytes, ∃ tag : Arr UInt8 maxMacBytes, xnonce.1 = nonce ∧ macLen = maxMacBytes ∧
        cipher.encryptInPlaceDetached xnonce aad x = some (c, tag) ∧ t = tag.1 := by
  unfold realSeal
  by_cases hn : nonce.length = nonceBytes
  swap
  · rw [rejectIf_pos hn, err_bind]
    constructor
    · intro h; contradiction
    · rintro ⟨xnonce, -, rfl, -⟩; exact absurd xnonce.2 hn
  rw [rejectIf_neg (not_not.2 hn), ok_bind, intoArr_ok hn]
  by_cases hm : macLen = maxMacBytes
  swap
  · rw [rejectIf_pos hm, err_bind]
    constructor
    · intro h; contradiction
    · rintro ⟨-, -, -, h, -⟩; exact absurd h hm
  rw [rejectIf_neg (not_not.2 hm), ok_bind, ok_bind]
  cases henc : cipher.encryptInPlaceDetached ⟨nonce, hn⟩ aad x with
  | none =>
    constructor
    · intro h; contradiction
    · rintro ⟨xnonce, tag, rfl, -, h, -⟩
      rw [Subtype.eta, h] at henc
      contradiction
  | some out =>
    obtain ⟨buf, tag⟩ := out
    have htag : ¬tag.1.length ≠ macLen := by rw [tag.2, hm]; simp
    simp only [if_neg htag, pure_eq, ok.injEq, Prod.mk.injEq]
    constructor
    · rintro ⟨rfl, rfl⟩; exact ⟨⟨nonce, hn⟩, tag, rfl, hm, henc, rfl⟩
    · rintro ⟨xnonce, tag', rfl, -, h, rfl⟩
      rw [Subtype.eta, h] at henc
      obtain ⟨rfl, rfl⟩ := Prod.mk.inj (Option.some.inj henc)
      exact ⟨rfl, rfl⟩

theorem lawful_realAead {cipher : Cipher} (hc : cipher.Lawful) : (realAead cipher).Lawful := by
  intro nonce aad x macLen c t h
  obtain ⟨xnonce, tag, rfl, rfl, henc, rfl⟩ := realSeal_eq_ok.1 h
  obtain ⟨hlen, hdec⟩ := hc _ _ _ _ _ henc
  refine ⟨hlen, tag.2, ?_⟩
  show realOpen cipher xnonce.1 aad c tag.1 = .ok x
  unfold realOpen
  rw [rejectIf_neg (not_not.2 xnonce.2), ok_bind, rejectIf_neg (not_not.2 tag.2), ok_bind, intoArr_ok xnonce.2,
    ok_bind, intoArr_ok tag.2, ok_bind, hdec]
  rfl

end KeyboardProject.Proto
