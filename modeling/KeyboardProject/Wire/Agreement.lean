/-
The gates agree: validation and serialization pass the same packets, whatever either parser accepts
passes them again, and the two parsers accept the same frames up to the AEAD. None of the gates
compares the header's kind with the payload.
-/
import KeyboardProject.Wire.Sealing

namespace KeyboardProject.Wire

open Rust Rust.Outcome Proto

variable {cfg : ProtocolConfig}

/-! ## Validation and serialization -/

theorem wellFormed_none_iff {p : Packet} (hmac : 0 < cfg.security.macLen) :
    WellFormed p cfg none ↔
      (encodePayload p.payload).length ≤ payloadLimit p.header.kind cfg ∧ p.mac.length = cfg.security.macLen := by
  rw [length_encodePayload]
  constructor
  · intro h; exact ⟨h.payload_le, h.mac_length⟩
  · rintro ⟨hle, hlen⟩
    refine ⟨?_, hlen, fun s hs => by contradiction, hle⟩
    intro hnil
    rw [hnil, List.length_nil] at hlen
    omega

theorem validatePacket_none {p : Packet} : validatePacket p cfg none none = .ok () ↔ WellFormed p cfg none := by
  rw [validatePacket_eq_ok]
  simp

theorem validatePacket_iff_serializePacket {p : Packet} (hmac : 0 < cfg.security.macLen) :
    validatePacket p cfg none none = .ok () ↔ ∃ s, serializePacket p cfg = .ok s := by
  rw [validatePacket_none, wellFormed_none_iff hmac]
  simp [serializePacket_eq_ok]

theorem wellFormed_iff_serializeFramed {p : Packet} (hmac : 0 < cfg.security.macLen) :
    WellFormed p cfg none ↔ ∃ b, serializeFramed p cfg = .ok b := by
  rw [wellFormed_none_iff hmac]
  simp [serializeFramed_eq_ok]

/-! ## What the parsers accept -/

/-- The payload field of a frame, `&bytes[12..12 + payload_len]`. -/
def payloadField (b : List UInt8) : List UInt8 :=
  (b.drop (headerLen + 2)).take (LittleEndian.value ((b.drop headerLen).take 2))

theorem payloadField_bytes (f : Frame.Parts (layout cfg)) : payloadField f.bytes = f.body := by
  show (f.bytes.drop ((layout cfg).head + (layout cfg).len)).take (Frame.announced (layout cfg) f.bytes) = f.body
  rw [Frame.bytes_drop_len, Frame.announced_bytes, List.take_left]

section Parsers

variable [Target] {b : List UInt8} {p : Packet} {aead : Aead} {nonce : List UInt8}

theorem wellFormed_of_parseFramed (hmac : 0 < cfg.security.macLen) (h : parseFramed b cfg = .ok p) :
    WellFormed p cfg none := by
  rw [wellFormed_none_iff hmac]
  obtain ⟨f, rfl, hp⟩ := (parseFramed_eq_ok (frameFits_of_parseFramed h)).1 h
  obtain ⟨hlen, -, hle, hd, ht⟩ := parsePacket_eq_ok.1 hp
  obtain ⟨-, hb⟩ := decodePayload_eq_ok.1 hd
  exact ⟨hb ▸ hle, ht ▸ hlen⟩

theorem wellFormed_of_openFramed (hmac : 0 < cfg.security.macLen) (hlp : aead.LengthPreserving)
    (h : openFramed b cfg aead nonce = .ok p) : WellFormed p cfg none := by
  rw [wellFormed_none_iff hmac]
  obtain ⟨f, rfl, -, hle, ht, x, ho, hd⟩ := (openFramed_eq_ok (frameFits_of_openFramed h)).1 h
  obtain ⟨-, hx⟩ := decodePayload_eq_ok.1 hd
  rw [hx, hlp _ _ _ _ _ ho, ← ht]
  exact ⟨hle, f.tail_length⟩

/-- The size and tag gates of validation, serialization and both parsers agree. -/
theorem gates_agree (hmac : 0 < cfg.security.macLen) :
    (∀ p : Packet, payloadLen p.payload = (encodePayload p.payload).length ∧
      (validatePacket p cfg none none = .ok () ↔ ∃ s, serializePacket p cfg = .ok s)) ∧
    (∀ b p, parseFramed b cfg = .ok p →
      validatePacket p cfg none none = .ok () ∧ ∃ b', serializeFramed p cfg = .ok b') ∧
    (∀ aead : Aead, aead.LengthPreserving → ∀ nonce b p, openFramed b cfg aead nonce = .ok p →
      validatePacket p cfg none none = .ok () ∧ ∃ b', serializeFramed p cfg = .ok b') := by
  refine ⟨fun p => ⟨(length_encodePayload _).symm, validatePacket_iff_serializePacket hmac⟩, ?_, ?_⟩
  · intro b p h
    have hw := wellFormed_of_parseFramed hmac h
    exact ⟨validatePacket_none.2 hw, (wellFormed_iff_serializeFramed hmac).1 hw⟩
  · intro aead hlp nonce b p h
    have hw := wellFormed_of_openFramed hmac hlp h
    exact ⟨validatePacket_none.2 hw, (wellFormed_iff_serializeFramed hmac).1 hw⟩

omit [Target] in
theorem openFramed_sampleFrame : @openFramed target64 sampleFrame demoConfig dummyAead sampleNonce = .ok openedSample := by
  decide +kernel

omit [Target] in
theorem gates_agree_sample :
    validatePacket openedSample demoConfig none none = .ok () ∧ ∃ b, serializeFramed openedSample demoConfig = .ok b :=
  (@gates_agree demoConfig target64 (by decide)).2.2 dummyAead lengthPreserving_dummyAead sampleNonce sampleFrame
    openedSample openFramed_sampleFrame

/-! ## The two parsers -/

theorem payloadField_eq_encodePayload (h : parseFramed b cfg = .ok p) : payloadField b = encodePayload p.payload := by
  obtain ⟨f, rfl, hp⟩ := (parseFramed_eq_ok (frameFits_of_parseFramed h)).1 h
  obtain ⟨-, -, -, hd, -⟩ := parsePacket_eq_ok.1 hp
  rw [payloadField_bytes, (decodePayload_eq_ok.1 hd).2]

/-- Once `parse_framed` accepted a frame, whatever a length-preserving AEAD opens its payload to
decodes under the frame's kind. -/
theorem decodePayload_of_parseFramed (hlp : aead.LengthPreserving) (h : parseFramed b cfg = .ok p) {aad x : List UInt8}
    (ho : aead.open nonce aad (payloadField b) p.mac = .ok x) : ∃ payload, decodePayload p.header.kind x = .ok payload := by
  obtain ⟨f, rfl, hp⟩ := (parseFramed_eq_ok (frameFits_of_parseFramed h)).1 h
  obtain ⟨-, -, -, hd, -⟩ := parsePacket_eq_ok.1 hp
  rw [payloadField_bytes] at ho
  rw [decodePayload_isOk, hlp _ _ _ _ _ ho]
  exact decodePayload_isOk.1 ⟨_, hd⟩

/-- `open_framed` is `parse_framed` with the payload field opened in between, for every AEAD that
preserves lengths. -/
theorem openFramed_iff_parseFramed (hlp : aead.LengthPreserving) :
    (openFramed b cfg aead nonce = .ok p ↔
      ∃ q x payload, parseFramed b cfg = .ok q ∧
        aead.open nonce (associatedData q.header (payloadField b).length).1 (payloadField b) q.mac = .ok x ∧
        decodePayload q.header.kind x = .ok payload ∧ p = { q with payload := payload }) ∧
    (∀ q, parseFramed b cfg = .ok q → payloadField b = encodePayload q.payload ∧
      ∀ x, aead.open nonce (associatedData q.header (payloadField b).length).1 (payloadField b) q.mac = .ok x →
        ∃ payload, decodePayload q.header.kind x = .ok payload) := by
  refine ⟨⟨?_, ?_⟩, ?_⟩
  · intro h
    have hc := frameFits_of_openFramed h
    obtain ⟨f, rfl, hh, hle, ht, x, ho, hd⟩ := (openFramed_eq_ok hc).1 h
    -- the ciphertext has the plaintext's length, so it decodes under the same kind
    obtain ⟨payload, hp⟩ : ∃ payload, decodePayload p.header.kind f.body = .ok payload := by
      rw [decodePayload_isOk, ← hlp _ _ _ _ _ ho]
      exact decodePayload_isOk.1 ⟨_, hd⟩
    refine ⟨{ p with payload := payload }, x, p.payload, ?_, ?_, hd, rfl⟩
    · exact (parseFramed_eq_ok hc).2 ⟨f, rfl, parsePacket_eq_ok.2 ⟨f.tail_length, hh, hle, hp, ht⟩⟩
    · rw [payloadField_bytes, ← ht]; exact ho
  · rintro ⟨q, x, payload, hq, ho, hd, rfl⟩
    have hc := frameFits_of_parseFramed hq
    obtain ⟨f, rfl, hp⟩ := (parseFramed_eq_ok hc).1 hq
    obtain ⟨-, hh, hle, -, ht⟩ := parsePacket_eq_ok.1 hp
    rw [payloadField_bytes, ← ht] at ho
    exact (openFramed_eq_ok hc).2 ⟨f, rfl, hh, hle, ht, x, ho, hd⟩
  · intro q hq
    exact ⟨payloadField_eq_encodePayload hq, fun x ho => decodePayload_of_parseFramed hlp hq ho⟩

omit [Target] in
theorem openFramed_iff_parseFramed_sample :
    ∃ q, @parseFramed target64 sampleFrame demoConfig = .ok q := by
  obtain ⟨q, -, -, hq, -⟩ := (@openFramed_iff_parseFramed demoConfig target64 sampleFrame openedSample dummyAead
    sampleNonce lengthPreserving_dummyAead).1.1 openFramed_sampleFrame
  exact ⟨q, hq⟩

/-! ## Reading back what was sent -/

/-- A frame of `serialize_framed` reads back as the packet it came from exactly when the packet's
payload is one of its kind's. -/
theorem parseFramed_reads_back (hc : FrameFits cfg) (h : serializeFramed p cfg = .ok b) :
    (∃ q, parseFramed b cfg = .ok q ∧ q.header = p.header ∧ q.payload = p.payload) ↔
      matchesValidKindPayload p.header.kind p.payload = true := by
  constructor
  · rintro ⟨q, hq, hh, hp⟩
    rw [← hh, ← hp]
    exact ((parseFramed_eq_ok_iff hc).1 hq).1
  · intro hm
    exact ⟨p, parseFramed_serializeFramed hc hm h, rfl, rfl⟩

theorem openFramed_reads_back (hc : FrameFits cfg) (haead : aead.Lawful) (h : sealFramed p cfg aead nonce = .ok b) :
    (∃ q, openFramed b cfg aead nonce = .ok q ∧ q.header = p.header ∧ q.payload = p.payload) ↔
      matchesValidKindPayload p.header.kind p.payload = true := by
  constructor
  · rintro ⟨q, hq, hh, hp⟩
    obtain ⟨f, -, -, -, -, x, -, hd⟩ := (openFramed_eq_ok hc).1 hq
    rw [← hh, ← hp]
    exact (decodePayload_eq_ok.1 hd).1
  · intro hm
    obtain ⟨f, -, -, -, ho⟩ := openFramed_of_opens hc hm (haead _ _ _ _) h
    exact ⟨_, ho, rfl, rfl⟩

/-- A packet that passes the sender's checks is read back as it was sent exactly when its payload is
one of its kind's: `validate_packet` does not compare the two. -/
theorem sent_reads_back {expectedSession lastCounter : Option UInt32}
    (hv : validatePacket p cfg expectedSession lastCounter = .ok ()) (hmac : p.mac.length ≤ isizeMax) :
    (∀ nonce b, sealFramed p cfg dummyAead nonce = .ok b →
      ((∃ q, openFramed b cfg dummyAead nonce = .ok q ∧ q.header = p.header ∧ q.payload = p.payload) ↔
        matchesValidKindPayload p.header.kind p.payload = true)) ∧
    (∀ b, serializeFramed p cfg = .ok b →
      ((∃ q, parseFramed b cfg = .ok q ∧ q.header = p.header ∧ q.payload = p.payload) ↔
        matchesValidKindPayload p.header.kind p.payload = true)) := by
  have hc : FrameFits cfg := frameFits_of_length_le (validatePacket_eq_ok.1 hv).1.mac_length hmac
  exact ⟨fun nonce b h => openFramed_reads_back hc lawful_dummyAead h, fun b h => parseFramed_reads_back hc h⟩

end Parsers

/-- The sample key report, framed and read back. -/
theorem sent_reads_back_sample :
    ∃ q, @parseFramed target64 plainFrame demoConfig = .ok q ∧
      q.header = (sampleKeyReport demoConfig 1).header ∧ q.payload = (sampleKeyReport demoConfig 1).payload :=
  ((@sent_reads_back demoConfig target64 (sampleKeyReport demoConfig 1) none none (by decide) (by decide)).2 plainFrame
    (by decide)).2 rfl

/-- A control packet under a key report's kind. -/
def mismatchedSample : Packet := { sampleKeyReport demoConfig 1 with payload := .control 0x04 [] }

/-- It passes `validate_packet` and both serializers, and is read back as the key report of the same
bytes: a control code arrives as a pressed key. -/
theorem mismatched_read_back :
    validatePacket mismatchedSample demoConfig none none = .ok () ∧
    sealFramed mismatchedSample demoConfig dummyAead sampleNonce = .ok sampleFrame ∧
    (¬∃ q, @openFramed target64 sampleFrame demoConfig dummyAead sampleNonce = .ok q ∧
      q.header = mismatchedSample.header ∧ q.payload = mismatchedSample.payload) ∧
    serializeFramed mismatchedSample demoConfig = .ok plainFrame ∧
    (¬∃ q, @parseFramed target64 plainFrame demoConfig = .ok q ∧
      q.header = mismatchedSample.header ∧ q.payload = mismatchedSample.payload) := by
  have hopen := openFramed_sampleFrame
  have hparse : @parseFramed target64 plainFrame demoConfig = .ok (sampleKeyReport demoConfig 1) := by decide +kernel
  refine ⟨by decide, by decide +kernel, ?_, by decide, ?_⟩
  · rintro ⟨q, hq, -, hp⟩
    obtain rfl := ok.inj (hopen.symm.trans hq)
    exact absurd hp (by decide)
  · rintro ⟨q, hq, -, hp⟩
    obtain rfl := ok.inj (hparse.symm.trans hq)
    exact absurd hp (by decide)

end KeyboardProject.Wire
