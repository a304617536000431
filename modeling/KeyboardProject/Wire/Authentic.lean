/-
What an ideal AEAD gives the framing: a frame that opens was sealed, up to the unused bits of the
flags byte. The associated data is the header decoded and encoded again, so those five bits of the
received bytes never reach the AEAD.
-/
import KeyboardProject.Wire.Sealing

namespace KeyboardProject.Wire

open Rust Rust.Outcome Proto

/-! ## Ideal AEADs -/

/-- One call of `seal`. -/
structure SealCall where
  nonce : List UInt8
  aad : List UInt8
  plaintext : List UInt8
  macLen : Nat
  deriving DecidableEq, Repr

/-- What the call returns. -/
def SealCall.run (call : SealCall) (aead : Aead) : Outcome CryptoError (List UInt8 × List UInt8) :=
  aead.seal call.nonce call.aad call.plaintext call.macLen

/-- The call that `seal_framed` makes. -/
def sealCall (p : Packet) (cfg : ProtocolConfig) (nonce : List UInt8) : SealCall where
  nonce
  aad := (associatedData p.header (encodePayload p.payload).length).1
  plaintext := encodePayload p.payload
  macLen := cfg.security.macLen

/-- An ideal, length-preserving AEAD, relative to the `seal` calls made under its key: what opens was
returned by one of the calls, under that call's nonce and associated data, and what a call returned
opens to its plaintext. -/
structure Ideal (aead : Aead) (calls : List SealCall) : Prop where
  unforgeable : ∀ nonce aad c t x, aead.open nonce aad c t = .ok x →
    ∃ call ∈ calls, call.nonce = nonce ∧ call.aad = aad ∧ call.run aead = .ok (c, t)
  correct : ∀ call ∈ calls, ∀ c t, call.run aead = .ok (c, t) →
    c.length = call.plaintext.length ∧ t.length = call.macLen ∧ aead.open call.nonce call.aad c t = .ok call.plaintext

/-- What opens is the plaintext of a call. -/
theorem Ideal.opens {aead : Aead} {calls : List SealCall} (h : Ideal aead calls) {nonce aad c t x : List UInt8}
    (ho : aead.open nonce aad c t = .ok x) :
    ∃ call ∈ calls, call.nonce = nonce ∧ call.aad = aad ∧ call.plaintext = x ∧ call.run aead = .ok (c, t) := by
  obtain ⟨call, hmem, rfl, rfl, hrun⟩ := h.unforgeable _ _ _ _ _ ho
  obtain ⟨-, -, ho'⟩ := h.correct call hmem c t hrun
  exact ⟨call, hmem, rfl, rfl, ok.inj (ho'.symm.trans ho), hrun⟩

/-- `DummyAead` that remembers its calls and opens nothing else. -/
def rememberingAead (calls : List SealCall) : Aead where
  «seal» := dummyAead.seal
  «open» nonce aad ciphertext mac :=
    if ∃ call ∈ calls, call.nonce = nonce ∧ call.aad = aad ∧ call.run dummyAead = .ok (ciphertext, mac) then .ok ciphertext
    else .err (.authFailed "DummyAead::open")
  seal_total := dummyAead.seal_total
  open_total := by intros; split_ifs <;> simp

/-- Every list of calls has an ideal AEAD. -/
theorem ideal_rememberingAead (calls : List SealCall) : Ideal (rememberingAead calls) calls := by
  refine ⟨?_, ?_⟩
  · intro nonce aad c t x ho
    simp only [rememberingAead] at ho
    split_ifs at ho with h
    exact h
  · intro call hmem c t hrun
    obtain ⟨hc, ht, -⟩ := lawful_dummyAead _ _ _ _ _ _ hrun
    refine ⟨hc, ht, ?_⟩
    have hcall : ∃ call' ∈ calls, call'.nonce = call.nonce ∧ call'.aad = call.aad ∧ call'.run dummyAead = .ok (c, t) :=
      ⟨call, hmem, rfl, rfl, hrun⟩
    obtain rfl : call.plaintext = c := (Prod.mk.inj (ok.inj hrun)).1
    exact if_pos hcall

/-! ## AEADs that tell the nonce -/

/-- A correct AEAD relative to the `seal` calls made under its key: each call succeeds, what it returns has
the lengths asked for and opens to its plaintext, and does not open under the nonce of another call. -/
structure NonceBound (aead : Aead) (calls : List SealCall) : Prop where
  seals : ∀ call ∈ calls, ∃ c t, call.run aead = .ok (c, t)
  correct : ∀ call ∈ calls, ∀ c t, call.run aead = .ok (c, t) →
    c.length = call.plaintext.length ∧ t.length = call.macLen ∧ aead.open call.nonce call.aad c t = .ok call.plaintext
  bound : ∀ call ∈ calls, ∀ c t, call.run aead = .ok (c, t) →
    ∀ other ∈ calls, other.nonce ≠ call.nonce → (aead.open other.nonce call.aad c t).IsErr

/-- `DummyAead` is one for calls whose tags would be others under the nonces of the other calls. -/
theorem nonceBound_dummyAead {calls : List SealCall}
    (h : ∀ call ∈ calls, ∀ other ∈ calls, other.nonce ≠ call.nonce →
      simpleTag call.aad call.plaintext other.nonce call.macLen ≠ simpleTag call.aad call.plaintext call.nonce call.macLen) :
    NonceBound dummyAead calls := by
  refine ⟨fun call _ => ⟨_, _, rfl⟩, fun call _ c t hrun => lawful_dummyAead _ _ _ _ _ _ hrun, ?_⟩
  intro call hmem c t hrun other hother hne
  obtain ⟨rfl, rfl⟩ := Prod.mk.inj (ok.inj hrun)
  refine isErr_iff.2 ⟨dummyAead.open_total _ _ _ _, fun x hx => ?_⟩
  have htag := (dummyAead_open_eq_ok.1 hx).1
  rw [length_simpleTag] at htag
  exact h call hmem other hother hne htag

/-- The frame of a call opens to its packet under its own nonce, and under no nonce of another call. -/
theorem NonceBound.frame [Target] {aead : Aead} {calls : List SealCall} {cfg : ProtocolConfig} {p : Packet}
    {nonce : List UInt8} (h : NonceBound aead calls) (hmem : sealCall p cfg nonce ∈ calls) (hc : FrameFits cfg)
    (hm : matchesValidKindPayload p.header.kind p.payload = true)
    (hle : (encodePayload p.payload).length ≤ payloadLimit p.header.kind cfg) (hmac : p.mac.length = cfg.security.macLen) :
    ∃ b t, sealFramed p cfg aead nonce = .ok b ∧ t.length = cfg.security.macLen ∧
      openFramed b cfg aead nonce = .ok { p with mac := t } ∧
      ∀ other ∈ calls, other.nonce ≠ nonce → (openFramed b cfg aead other.nonce).IsErr := by
  obtain ⟨c, t, hrun⟩ := h.seals _ hmem
  have hseal := sealFramed_eq_ok.2 ⟨hle, hmac, c, t, hrun, rfl⟩
  obtain ⟨f, hf, hlen, hs, hopen⟩ := openFramed_of_opens hc hm (h.correct _ hmem) hseal
  obtain ⟨g, hg, hd, -⟩ := (openFramed_eq_ok hc).1 hopen
  obtain rfl := Frame.bytes_inj (hg.trans hf.symm)
  refine ⟨_, g.tail, hseal, g.tail_length, hopen, fun other hother hne => ?_⟩
  refine isErr_iff.2 ⟨openFramed_ne_panic hc _ _ _, fun q hq => ?_⟩
  -- the frame has one cut and one header, so the AEAD is asked to open the call's own output
  obtain ⟨g', hg', hd', -, -, x, ho, -⟩ := (openFramed_eq_ok hc).1 hq
  obtain rfl := Frame.bytes_inj (hg'.trans hg.symm)
  have hheader : q.header = p.header := ok.inj (hd'.symm.trans hd)
  rw [hheader, hlen] at ho
  obtain ⟨e, he⟩ := h.bound _ hmem _ _ hs other hother hne
  exact nomatch he.symm.trans ho

/-! ## Tampering -/

section Tampering

variable [Target] {b : List UInt8} {cfg : ProtocolConfig} {aead : Aead} {nonce : List UInt8} {p : Packet}
variable {calls : List SealCall}

/-- `open_framed` does not see the unused bits of the flags byte. -/
theorem openFramed_of_clear (h : openFramed (clearUnusedFlags b) cfg aead nonce = .ok p) :
    openFramed b cfg aead nonce = .ok p := by
  have hc := frameFits_of_openFramed h
  obtain ⟨g, hg, hd, hrest⟩ := (openFramed_eq_ok hc).1 h
  obtain ⟨f, rfl, hgh, hgb, hgt⟩ := exists_parts_of_clear hg
  rw [hgh, decodeHeader_clearUnusedFlags] at hd
  rw [hgb, hgt] at hrest
  exact (openFramed_eq_ok hc).2 ⟨f, rfl, hd, hrest⟩

/-- A byte string that differs from the only frame sealed under a nonce in more than the unused bits
does not open under that nonce. -/
theorem openFramed_isErr (hideal : Ideal aead calls)
    (honly : ∀ call ∈ calls, call.nonce = nonce → call = sealCall p cfg nonce) (hc : FrameFits cfg)
    (h : sealFramed p cfg aead nonce = .ok b) {b' : List UInt8} (hne : clearUnusedFlags b' ≠ b) :
    (openFramed b' cfg aead nonce).IsErr := by
  refine isErr_iff.2 ⟨openFramed_ne_panic hc b' aead nonce, fun q hq => hne ?_⟩
  obtain ⟨f, rfl, hd, -, -, x, ho, -⟩ := (openFramed_eq_ok hc).1 hq
  obtain ⟨call, hmem, hn, haad, hrun⟩ := hideal.unforgeable _ _ _ _ _ ho
  obtain rfl := honly call hmem hn
  obtain ⟨hheader, -⟩ := associatedData_inj (Subtype.ext haad)
  obtain ⟨-, -, c, t, hs, rfl⟩ := sealFramed_eq_ok.1 h
  -- ciphertext and tag are the call's, and the re-encoded header is too
  obtain ⟨rfl, rfl⟩ := Prod.mk.inj (ok.inj (hrun.symm.trans hs))
  rw [hheader, (decodeHeader_eq_ok.1 hd).2, clearUnusedFlags_bytes]
  rfl

/-- Every change to the only frame sealed under a nonce is detected, if and only if it changes more
than the unused bits of the flags byte. -/
theorem openFramed_tampered (hideal : Ideal aead calls)
    (honly : ∀ call, (call ∈ calls ∧ call.nonce = nonce) ↔ call = sealCall p cfg nonce)
    (hm : matchesValidKindPayload p.header.kind p.payload = true) (hmac : p.mac.length ≤ isizeMax)
    (h : sealFramed p cfg aead nonce = .ok b) (b' : List UInt8) :
    (b' ≠ b → (openFramed b' cfg aead nonce).IsErr) ↔ b' = b ∨ clearUnusedFlags b' ≠ b := by
  have hc : FrameFits cfg := frameFits_of_length_le (sealFramed_eq_ok.1 h).2.1 hmac
  have hcall : sealCall p cfg nonce ∈ calls := ((honly _).2 rfl).1
  obtain ⟨f, -, -, -, hopen⟩ := openFramed_of_opens hc hm (hideal.correct _ hcall) h
  constructor
  · intro herr
    -- another byte string that clears to the frame would open as the frame does
    by_contra hcon
    obtain ⟨hne, hclear⟩ := not_or.1 hcon
    rw [← not_not.1 hclear] at hopen
    obtain ⟨e, he⟩ := herr hne
    have hopen' : openFramed b' cfg aead nonce = _ := openFramed_of_clear hopen
    rw [hopen'] at he
    contradiction
  · rintro (rfl | hclear) hne
    · exact absurd rfl hne
    · exact openFramed_isErr hideal (fun call hmem hn => (honly call).1 ⟨hmem, hn⟩) hc h hclear

end Tampering

/-- The one call behind the sample frame, and an AEAD that is ideal for it. -/
def sampleCall : SealCall := sealCall (sampleKeyReport demoConfig 1) demoConfig sampleNonce

def sampleAead : Aead := rememberingAead [sampleCall]

/-- A frame cut short by one byte does not open. -/
theorem openFramed_tampered_truncated :
    (@openFramed target64 (sampleFrame.take 28) demoConfig sampleAead sampleNonce).IsErr := by
  have honly : ∀ call, (call ∈ [sampleCall] ∧ call.nonce = sampleNonce) ↔ call = sampleCall :=
    fun call => ⟨fun h => List.mem_singleton.1 h.1, fun h => ⟨List.mem_singleton.2 h, h ▸ rfl⟩⟩
  exact (@openFramed_tampered target64 sampleFrame demoConfig sampleAead sampleNonce (sampleKeyReport demoConfig 1)
    [sampleCall] (ideal_rememberingAead _) honly rfl (by decide) (by decide +kernel) (sampleFrame.take 28)).2
    (Or.inr (by decide)) (by decide)

/-- The sample frame with the high bit of its flags byte set. -/
def flippedFrame : List UInt8 := [0x55, 0x66, 0x77, 0x88, 1, 0, 0, 0, 2, 0x83] ++ [1, 0] ++ [0x04] ++ sampleTag

/-- It is another byte string than the only frame sealed under the nonce, and it opens. -/
theorem flippedFrame_opens :
    Ideal sampleAead [sampleCall] ∧
      sealFramed (sampleKeyReport demoConfig 1) demoConfig sampleAead sampleNonce = .ok sampleFrame ∧
      flippedFrame ≠ sampleFrame ∧
      @openFramed target64 flippedFrame demoConfig sampleAead sampleNonce = .ok openedSample :=
  ⟨ideal_rememberingAead _, by decide +kernel, by decide, by decide +kernel⟩

end KeyboardProject.Wire
