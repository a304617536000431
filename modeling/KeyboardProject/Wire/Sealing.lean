/-
Authenticated framing: what `seal_framed` writes, what `open_framed` accepts, and that opening undoes
sealing for every AEAD whose `open` undoes its `seal`.
-/
import KeyboardProject.Proto.Seal
import KeyboardProject.Wire.Framing

namespace KeyboardProject.Wire

open Rust Rust.Outcome Proto

variable {b : List UInt8} {cfg : ProtocolConfig} {aead : Aead} {nonce : List UInt8} {p : Packet}

/-! ## What is sealed -/

theorem sealFramed_eq_ok :
    sealFramed p cfg aead nonce = .ok b ↔
      (encodePayload p.payload).length ≤ payloadLimit p.header.kind cfg ∧ p.mac.length = cfg.security.macLen ∧
        ∃ c t, aead.seal nonce (associatedData p.header (encodePayload p.payload).length).1 (encodePayload p.payload)
            cfg.security.macLen = .ok (c, t) ∧
          b = (encodeHeader p.header).1 ++ LittleEndian.encode 2 c.length ++ c ++ t := by
  unfold sealFramed
  simp only [bind_eq_ok, mapErr_eq_ok, serializePacket_eq_ok, Prod.exists, pure_eq, ok.injEq, u16ToLeBytes_ofNat]
  constructor
  · rintro ⟨_, ⟨h1, h2, rfl⟩, c, t, hs, rfl⟩; exact ⟨h1, h2, c, t, hs, rfl⟩
  · rintro ⟨h1, h2, c, t, hs, rfl⟩; exact ⟨_, ⟨h1, h2, rfl⟩, c, t, hs, rfl⟩

theorem sealFramed_ne_panic (p : Packet) (cfg : ProtocolConfig) (aead : Aead) (nonce : List UInt8) :
    sealFramed p cfg aead nonce ≠ .panic := by
  unfold sealFramed
  simp [bind_eq_panic, mapErr_eq_panic, serializePacket_ne_panic, aead.seal_total]

/-- Where the ciphertext has the plaintext's length and the tag the length asked for, `seal_framed`
writes a frame of the layout. -/
theorem sealFramed_eq_ok_bytes
    (hlen : ∀ c t, aead.seal nonce (associatedData p.header (encodePayload p.payload).length).1
      (encodePayload p.payload) cfg.security.macLen = .ok (c, t) →
        c.length = (encodePayload p.payload).length ∧ t.length = cfg.security.macLen)
    (h : sealFramed p cfg aead nonce = .ok b) :
    ∃ f : Frame.Parts (layout cfg), f.bytes = b ∧ f.head = (encodeHeader p.header).1 ∧
      f.body.length = (encodePayload p.payload).length ∧ f.body.length ≤ payloadLimit p.header.kind cfg ∧
        aead.seal nonce (associatedData p.header f.body.length).1 (encodePayload p.payload) cfg.security.macLen =
          .ok (f.body, f.tail) := by
  obtain ⟨hle, -, c, t, hs, rfl⟩ := sealFramed_eq_ok.1 h
  obtain ⟨hc, ht⟩ := hlen c t hs
  rw [← hc] at hs hle
  exact ⟨⟨_, c, t, (encodeHeader p.header).2, hle.trans_lt (payloadLimit_lt _ _), ht⟩, rfl, rfl, hc, hle, hs⟩

/-! ## What opens -/

/-- The end of `open_framed`, on the parts of a frame. -/
def openParts (header : PacketHeader) (payloadBytes macBytes : List UInt8) (cfg : ProtocolConfig) (aead : Aead)
    (nonce : List UInt8) : Outcome CryptoError Packet := do
  rejectIf (payloadBytes.length > payloadLimit header.kind cfg) (.parse .unexpectedLength)
  let plaintext ← aead.open nonce (associatedData header payloadBytes.length).1 payloadBytes macBytes
  let payload ← (decodePayload header.kind plaintext).mapErr .parse
  pure { header, payload, mac := macBytes }

theorem openParts_eq_ok {header : PacketHeader} {c t : List UInt8} :
    openParts header c t cfg aead nonce = .ok p ↔
      header = p.header ∧ c.length ≤ payloadLimit header.kind cfg ∧ t = p.mac ∧
        ∃ x, aead.open nonce (associatedData header c.length).1 c t = .ok x ∧
          decodePayload header.kind x = .ok p.payload := by
  unfold openParts
  simp only [bind_eq_ok, mapErr_eq_ok, rejectIf_eq_ok, exists_const, not_lt, gt_iff_lt, pure_eq, ok.injEq]
  constructor
  · rintro ⟨h1, x, h2, payload, h3, rfl⟩; exact ⟨rfl, h1, rfl, x, h2, h3⟩
  · rintro ⟨rfl, h1, rfl, x, h2, h3⟩; exact ⟨h1, x, h2, _, h3, rfl⟩

theorem openParts_ne_panic (header : PacketHeader) (c t : List UInt8) (cfg : ProtocolConfig) (aead : Aead)
    (nonce : List UInt8) : openParts header c t cfg aead nonce ≠ .panic := by
  unfold openParts
  simp [bind_eq_panic, mapErr_eq_panic, aead.open_total, decodePayload_ne_panic]

section Opening

variable [Target]

theorem openFramed_eq (b : List UInt8) (cfg : ProtocolConfig) (aead : Aead) (nonce : List UInt8) :
    openFramed b cfg aead nonce = (do
      rejectIf (b.length < (← usizeAdd (headerLen + 2) cfg.security.macLen)) (.parse .unexpectedLength)
      let headerBytes ← sliceTo b headerLen
      let header ← (decodeHeader headerBytes).mapErr .parse
      let (payloadBytes, macBytes) ← cut .parse b cfg
      openParts header payloadBytes macBytes cfg aead nonce) := by
  simp only [openFramed, cut, openParts, bind_assoc, pure_bind]

theorem openFramed_of_overflow (hc : ¬FrameFits cfg) : openFramed b cfg aead nonce = .panic := by
  rw [openFramed_eq, usizeAdd_overflow hc, panic_bind]

theorem openFramed_of_fits (hc : FrameFits cfg) (h : Frame.Fits (layout cfg) b) :
    openFramed b cfg aead nonce = (do
      let header ← (decodeHeader (Frame.parts b h).head).mapErr .parse
      openParts header (Frame.parts b h).body (Frame.parts b h).tail cfg aead nonce) := by
  have hlen := fits_layout_iff.1 h
  rw [openFramed_eq, usizeAdd_ok hc, ok_bind, rejectIf_neg (by omega), ok_bind, sliceTo_ok (by omega), ok_bind,
    cut_of_fits h]
  rfl

theorem openFramed_of_not_fits (aead : Aead) (nonce : List UInt8) (hc : FrameFits cfg)
    (h : ¬Frame.Fits (layout cfg) b) : (openFramed b cfg aead nonce).IsErr := by
  rw [openFramed_eq, usizeAdd_ok hc, ok_bind]
  by_cases hshort : b.length < headerLen + 2 + cfg.security.macLen
  · rw [rejectIf_pos hshort, err_bind]; exact ⟨_, rfl⟩
  obtain ⟨e, he⟩ := cut_of_not_fits CryptoError.parse (by omega) h
  rw [rejectIf_neg hshort, ok_bind, sliceTo_ok (by omega), ok_bind, he]
  -- the header is decoded before the lengths are compared, so either of the two may be the error
  cases hd : decodeHeader (b.take headerLen) with
  | ok header => exact ⟨e, rfl⟩
  | err e' => exact ⟨_, rfl⟩
  | panic => exact absurd hd (decodeHeader_ne_panic _)

/-- `open_framed` opens the body of a frame under its re-encoded header, and accepts nothing else. -/
theorem openFramed_eq_ok (hc : FrameFits cfg) :
    openFramed b cfg aead nonce = .ok p ↔
      ∃ f : Frame.Parts (layout cfg), f.bytes = b ∧ decodeHeader f.head = .ok p.header ∧
        f.body.length ≤ payloadLimit p.header.kind cfg ∧ f.tail = p.mac ∧
          ∃ x, aead.open nonce (associatedData p.header f.body.length).1 f.body f.tail = .ok x ∧
            decodePayload p.header.kind x = .ok p.payload := by
  by_cases h : Frame.Fits (layout cfg) b
  swap
  · obtain ⟨e, he⟩ := openFramed_of_not_fits aead nonce hc h
    rw [he]
    constructor
    · intro hp; contradiction
    · rintro ⟨f, rfl, -⟩; exact absurd (Frame.fits_bytes f) h
  rw [openFramed_of_fits hc h]
  simp only [bind_eq_ok, mapErr_eq_ok, openParts_eq_ok]
  constructor
  · rintro ⟨header, hd, rfl, hrest⟩
    exact ⟨_, Frame.bytes_parts b h, hd, hrest⟩
  · rintro ⟨f, hf, hd, hrest⟩
    obtain rfl : f = Frame.parts b h := Frame.bytes_inj (hf.trans (Frame.bytes_parts b h).symm)
    exact ⟨_, hd, rfl, hrest⟩

theorem frameFits_of_openFramed (h : openFramed b cfg aead nonce = .ok p) : FrameFits cfg := by
  by_contra hc
  rw [openFramed_of_overflow hc] at h
  contradiction

theorem decodeHeader_of_openFramed (h : openFramed b cfg aead nonce = .ok p) :
    decodeHeader (b.take headerLen) = .ok p.header := by
  obtain ⟨f, rfl, hd, -⟩ := (openFramed_eq_ok (frameFits_of_openFramed h)).1 h
  rw [← hd]
  exact congrArg decodeHeader (Frame.bytes_take_head f)

/-- A sealed frame opens under its own header only, whatever the AEAD and the nonces. -/
theorem header_of_openFramed {nonce' : List UInt8} {q : Packet} (hseal : sealFramed p cfg aead nonce = .ok b)
    (hopen : openFramed b cfg aead nonce' = .ok q) : q.header = p.header := by
  obtain ⟨-, -, c, t, -, rfl⟩ := sealFramed_eq_ok.1 hseal
  have hd := decodeHeader_of_openFramed hopen
  rw [List.append_assoc, List.append_assoc, List.take_left' (encodeHeader p.header).2, decodeHeader_encodeHeader] at hd
  exact (ok.inj hd).symm

theorem openFramed_ne_panic (hc : FrameFits cfg) (b : List UInt8) (aead : Aead) (nonce : List UInt8) :
    openFramed b cfg aead nonce ≠ .panic := by
  by_cases h : Frame.Fits (layout cfg) b
  · rw [openFramed_of_fits hc h]
    simp [bind_eq_panic, mapErr_eq_panic, decodeHeader_ne_panic, openParts_ne_panic]
  · exact (isErr_iff.1 (openFramed_of_not_fits aead nonce hc h)).1

/-- Receiving never panics: whatever the bytes and the nonce, both parsers return, with either AEAD, as
long as the shortest frame's length can be counted. -/
theorem receiving_total (hc : FrameFits cfg) (b nonce : List UInt8) :
    ((∃ p, parseFramed b cfg = .ok p) ∨ (parseFramed b cfg).IsErr) ∧
    ((∃ p, openFramed b cfg dummyAead nonce = .ok p) ∨ (openFramed b cfg dummyAead nonce).IsErr) ∧
    ∀ cipher, (∃ p, openFramed b cfg (realAead cipher) nonce = .ok p) ∨ (openFramed b cfg (realAead cipher) nonce).IsErr :=
  ⟨ok_or_isErr (parseFramed_ne_panic hc b), ok_or_isErr (openFramed_ne_panic hc b _ _),
    fun _ => ok_or_isErr (openFramed_ne_panic hc b _ _)⟩

/-- A key report whose tag was made up without the key. -/
def forgedFrame : List UInt8 := [0x55, 0x66, 0x77, 0x88, 1, 0, 0, 0, 2, 3] ++ [1, 0] ++ [0x04] ++ List.replicate 16 0

omit [Target] in
/-- It is cut into its parts by both parsers, and refused by the one that looks at the tag. -/
theorem receiving_total_forged :
    (∃ p, @parseFramed target64 forgedFrame demoConfig = .ok p) ∧
      (@openFramed target64 forgedFrame demoConfig dummyAead (List.replicate 24 0x99)).IsErr := by
  have hparse : @parseFramed target64 forgedFrame demoConfig =
      .ok { sampleKeyReport demoConfig 1 with mac := List.replicate 16 0 } := by decide +kernel
  have hopen : @openFramed target64 forgedFrame demoConfig dummyAead (List.replicate 24 0x99) =
      .err (.authFailed "DummyAead::open") := by decide +kernel
  obtain ⟨h, h', -⟩ := @receiving_total demoConfig target64 (by decide) forgedFrame (List.replicate 24 0x99)
  refine ⟨h.resolve_right ?_, h'.resolve_left ?_⟩
  · rw [hparse]; rintro ⟨e, he⟩; contradiction
  · rw [hopen]; rintro ⟨p, hp⟩; contradiction

/-! ## Opening undoes sealing -/

/-- If the AEAD opens the one call that `seal_framed` makes, `open_framed` reads the packet back with
the call's tag. -/
theorem openFramed_of_opens (hc : FrameFits cfg) (hm : matchesValidKindPayload p.header.kind p.payload = true)
    (hseal : ∀ c t, aead.seal nonce (associatedData p.header (encodePayload p.payload).length).1
      (encodePayload p.payload) cfg.security.macLen = .ok (c, t) →
        c.length = (encodePayload p.payload).length ∧ t.length = cfg.security.macLen ∧
          aead.open nonce (associatedData p.header (encodePayload p.payload).length).1 c t =
            .ok (encodePayload p.payload))
    (h : sealFramed p cfg aead nonce = .ok b) :
    ∃ f : Frame.Parts (layout cfg), f.bytes = b ∧ f.body.length = (encodePayload p.payload).length ∧
      aead.seal nonce (associatedData p.header (encodePayload p.payload).length).1 (encodePayload p.payload)
        cfg.security.macLen = .ok (f.body, f.tail) ∧ openFramed b cfg aead nonce = .ok { p with mac := f.tail } := by
  obtain ⟨f, rfl, hh, hlen, hle, hs⟩ :=
    sealFramed_eq_ok_bytes (fun c t hs => ⟨(hseal c t hs).1, (hseal c t hs).2.1⟩) h
  rw [hlen] at hs
  obtain ⟨-, -, ho⟩ := hseal _ _ hs
  refine ⟨f, rfl, hlen, hs, (openFramed_eq_ok hc).2 ⟨f, rfl, ?_, hle, rfl, encodePayload p.payload, ?_, ?_⟩⟩
  · rw [hh, decodeHeader_encodeHeader]
  · rw [hlen]; exact ho
  · exact decodePayload_eq_ok.2 ⟨hm, rfl⟩

/-- Opening undoes sealing, for every AEAD whose `open` undoes its `seal`; the packet that comes back
carries the AEAD's tag. `DummyAead` is such an AEAD, and `RealAead` is one when its cipher is. A `Vec`
never holds more than `isizeMax` bytes. -/
theorem openFramed_sealFramed :
    (∀ (aead : Aead), aead.Lawful → ∀ (cfg : ProtocolConfig) (nonce : List UInt8) (p : Packet) (b : List UInt8),
      p.mac.length ≤ isizeMax → matchesValidKindPayload p.header.kind p.payload = true →
      sealFramed p cfg aead nonce = .ok b →
        b.length = 12 + (encodePayload p.payload).length + cfg.security.macLen ∧
        ∃ c t, aead.seal nonce (associatedData p.header (encodePayload p.payload).length).1 (encodePayload p.payload)
            cfg.security.macLen = .ok (c, t) ∧
          openFramed b cfg aead nonce = .ok { p with mac := t }) ∧
    dummyAead.Lawful ∧ ∀ cipher : Cipher, cipher.Lawful → (realAead cipher).Lawful := by
  refine ⟨?_, lawful_dummyAead, fun cipher => lawful_realAead⟩
  intro aead haead cfg nonce p b hmac hm h
  have hc : FrameFits cfg := frameFits_of_length_le (sealFramed_eq_ok.1 h).2.1 hmac
  obtain ⟨f, rfl, hlen, hs, ho⟩ := openFramed_of_opens hc hm (haead _ _ _ _) h
  refine ⟨?_, f.body, f.tail, hs, ho⟩
  rw [Frame.bytes_length, hlen]
  rfl

end Opening

/-- `DummyAead`'s tag on the sample key report, and the sealed frame. -/
def sampleTag : List UInt8 := [224, 111, 72, 25, 169, 85, 146, 1, 37, 113, 143, 108, 19, 55, 29, 226]

/-- The sample key report as it is opened: with the AEAD's tag. -/
def openedSample : Packet := { sampleKeyReport demoConfig 1 with mac := sampleTag }

def sampleNonce : List UInt8 := List.replicate 24 0x99

def sampleFrame : List UInt8 := [0x55, 0x66, 0x77, 0x88, 1, 0, 0, 0, 2, 3] ++ [1, 0] ++ [0x04] ++ sampleTag

theorem openFramed_sealFramed_sample :
    ∃ t, @openFramed target64 sampleFrame demoConfig dummyAead sampleNonce =
      .ok { sampleKeyReport demoConfig 1 with mac := t } := by
  obtain ⟨-, -, t, -, ho⟩ := (@openFramed_sealFramed target64).1 dummyAead lawful_dummyAead demoConfig
    sampleNonce (sampleKeyReport demoConfig 1) sampleFrame (by decide) rfl (by decide +kernel)
  exact ⟨t, ho⟩

end KeyboardProject.Wire
