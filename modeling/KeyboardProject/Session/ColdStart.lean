/-
The cold start (`cold_handshake_then_keyreport_flow` of `proto/tests/flow_basic.rs`): a handshake under counter 0, its
acceptance, and the first key report. All three are validated; the handshake and the report go through the codec, the
report through the AEAD too.
-/
import KeyboardProject.Session.WarmWake
import KeyboardProject.Wire.Agreement

namespace KeyboardProject.Session

open Rust Rust.Outcome Proto Wire

/-- `assert_eq!`. -/
def assertEq {α : Type} [DecidableEq α] (a b : α) : Outcome Empty Unit := if a = b then .ok () else .panic

def handshake (cfg : ProtocolConfig) (session : SessionKeys) (payload : Payload) (tag : UInt8) : Packet where
  header :=
    { sessionId := session.sessionId
      counter := 0
      kind := .handshake
      flags := { encrypted := false, needsAck := true, retransmit := false } }
  payload
  mac := List.replicate cfg.security.macLen tag

def handshakeInit (cfg : ProtocolConfig) (session : SessionKeys) : Packet :=
  handshake cfg session (.handshakeInit (fill keyBytes 0xAA) session.handshakeNonce) 0x01

def handshakeAccept (cfg : ProtocolConfig) (session : SessionKeys) : Packet :=
  handshake cfg session (.handshakeAccept session.sessionId) 0x02

section Flow

variable [Target]

/-- A packet goes through the codec and comes back. -/
def framesAndParses (cfg : ProtocolConfig) (packet : Packet) : Outcome Empty Unit := do
  let framed ← expect (serializeFramed packet cfg)
  let parsed ← expect (parseFramed framed cfg)
  assertEq packet.header parsed.header
  assertEq packet.payload parsed.payload

/-- A packet is sealed under its own counter and comes back. -/
def sealsAndOpens (cfg : ProtocolConfig) (aead : Aead) (session : SessionKeys) (keyReport : Packet) : Outcome Empty Unit := do
  let nonce := session.nonceFor keyReport.header.counter
  let sealedFrame ← expect (sealFramed keyReport cfg aead nonce.1)
  let opened ← expect (openFramed sealedFrame cfg aead nonce.1)
  assertEq keyReport.header opened.header
  assertEq keyReport.payload opened.payload

/-- The test, from any session and with any keys. -/
def coldStart (cfg : ProtocolConfig) (aead : Aead) (session : SessionKeys) (keys : List UInt8) : Outcome Empty Unit := do
  expect (validatePacket (handshakeInit cfg session) cfg none none)
  framesAndParses cfg (handshakeInit cfg session)
  expect (validatePacket (handshakeAccept cfg session) cfg (some session.sessionId) none)
  let (counter, session) := session.nextCounter
  let counter ← expect counter
  let keyReport := wakeReport cfg session counter keys 0x03
  expect (validatePacket keyReport cfg (some session.sessionId) (some (handshakeAccept cfg session).header.counter))
  framesAndParses cfg keyReport
  sealsAndOpens cfg aead session keyReport

variable {cfg : ProtocolConfig} {aead : Aead} {session : SessionKeys} {keys : List UInt8}

omit [Target] in
theorem assertEq_eq_ok {α : Type} [DecidableEq α] {a b : α} {u : Unit} : assertEq a b = .ok u ↔ a = b := by
  unfold assertEq
  split_ifs with h <;> simp [h]

/-- A well-formed packet of its own kind comes back wherever a frame's length can be computed. -/
theorem framesAndParses_eq_ok {packet : Packet} {u : Unit} (hwf : WellFormed packet cfg none)
    (hkind : matchesValidKindPayload packet.header.kind packet.payload = true) :
    framesAndParses cfg packet = .ok u ↔ FrameFits cfg := by
  have hmac : 0 < cfg.security.macLen := by
    rw [← hwf.mac_length]
    exact List.length_pos_iff.2 hwf.mac_ne
  obtain ⟨b, hb⟩ := (wellFormed_iff_serializeFramed hmac).1 hwf
  unfold framesAndParses
  rw [hb, expect_ok, ok_bind]
  simp only [bind_eq_ok, expect_eq_ok, assertEq_eq_ok]
  constructor
  · rintro ⟨q, hq, -⟩
    exact frameFits_of_parseFramed hq
  · intro hc
    obtain ⟨q, hq, hheader, hpayload⟩ := (parseFramed_reads_back hc hb).2 hkind
    exact ⟨q, hq, (), hheader.symm, hpayload.symm⟩

omit [Target] in
theorem wellFormed_handshake {payload : Payload} (hmac : 0 < cfg.security.macLen)
    (hlen : payloadLen payload ≤ keyBytes + nonceBytes) (tag : UInt8) (expected : Option UInt32)
    (hsession : ∀ s, expected = some s → session.sessionId = s) :
    WellFormed (handshake cfg session payload tag) cfg expected :=
  ⟨replicate_macLen_ne_nil hmac _, List.length_replicate, hsession, hlen⟩

omit [Target] in
theorem validate_handshake {payload : Payload} (hlen : payloadLen payload ≤ keyBytes + nonceBytes) (tag : UInt8)
    {expected : Option UInt32} (hsession : ∀ s, expected = some s → session.sessionId = s) :
    validatePacket (handshake cfg session payload tag) cfg expected none = .ok () ↔ 0 < cfg.security.macLen := by
  rw [validatePacket_eq_ok]
  constructor
  · rintro ⟨hwf, -⟩
    exact Nat.pos_of_ne_zero fun hzero => hwf.mac_ne (by simp [handshake, hzero])
  · intro hmac
    exact ⟨wellFormed_handshake hmac hlen tag expected hsession, nofun⟩

omit [Target] in
theorem validate_firstReport {counter : UInt32} {tag : UInt8} :
    validatePacket (wakeReport cfg session counter keys tag) cfg (some session.sessionId) (some 0) = .ok () ↔
      WellFormed (wakeReport cfg session counter keys tag) cfg (some session.sessionId) ∧ 1 ≤ counter.toNat ∧
        counter.toNat ≤ 50 := by
  have hzero : (0 : UInt32).toNat = 0 := rfl
  have hwindow : InWindow 0 counter ↔ 1 ≤ counter.toNat ∧ counter.toNat ≤ 50 := by
    unfold InWindow Window.Ahead
    rw [hzero]
    omega
  rw [validatePacket_eq_ok, ← hwindow]
  refine and_congr_right fun _ => ⟨fun h => h 0 rfl, fun h last hlast => ?_⟩
  obtain rfl := Option.some.inj hlast
  exact h

theorem sealsAndOpens_eq_ok {packet : Packet} {u : Unit} (haead : aead.Lawful) (hc : FrameFits cfg)
    (hkind : matchesValidKindPayload packet.header.kind packet.payload = true) :
    sealsAndOpens cfg aead session packet = .ok u ↔
      ∃ b, sealFramed packet cfg aead (session.nonceFor packet.header.counter).1 = .ok b := by
  unfold sealsAndOpens
  simp only [bind_eq_ok, expect_eq_ok, assertEq_eq_ok]
  constructor
  · rintro ⟨b, hb, -⟩
    exact ⟨b, hb⟩
  · rintro ⟨b, hb⟩
    obtain ⟨q, hq, hheader, hpayload⟩ := (openFramed_reads_back hc haead hb).2 hkind
    exact ⟨b, hb, q, hq, (), hheader.symm, hpayload.symm⟩

/-- The flow, read apart. -/
theorem coldStart_eq_ok :
    coldStart cfg aead session keys = .ok () ↔
      validatePacket (handshakeInit cfg session) cfg none none = .ok () ∧
        framesAndParses cfg (handshakeInit cfg session) = .ok () ∧
        validatePacket (handshakeAccept cfg session) cfg (some session.sessionId) none = .ok () ∧
        session.counter.toNat < 2 ^ 31 ∧
        validatePacket (wakeReport cfg session session.counter keys 0x03) cfg (some session.sessionId) (some 0) = .ok () ∧
        framesAndParses cfg (wakeReport cfg session session.counter keys 0x03) = .ok () ∧
        sealsAndOpens cfg aead session (wakeReport cfg session session.counter keys 0x03) = .ok () := by
  unfold coldStart
  rw [nextCounter_eq]
  by_cases hlow : session.counter.toNat < 2 ^ 31
  · rw [if_pos hlow]
    simp only [bind_eq_ok, expect_eq_ok]
    constructor
    · rintro ⟨_, hinit, _, hframes, _, haccept, counter, hcounter, _, hreport, _, hparses, hseals⟩
      -- the next counter changes neither the salt nor the session id
      obtain rfl := ok.inj hcounter
      exact ⟨hinit, hframes, haccept, hlow, hreport, hparses, hseals⟩
    · rintro ⟨hinit, hframes, haccept, -, hreport, hparses, hseals⟩
      exact ⟨(), hinit, (), hframes, (), haccept, _, rfl, (), hreport, (), hparses, hseals⟩
  · rw [if_neg hlow]
    constructor
    · intro h
      simp only [bind_eq_ok, expect_eq_ok] at h
      obtain ⟨_, -, _, -, _, -, counter, hcounter, -⟩ := h
      contradiction
    · rintro ⟨-, -, -, hlt, -⟩
      exact absurd hlt hlow

/-- The cold start goes through exactly when a tag is asked for whose frames have a length, the keys fit, the AEAD seals the
report, and the session's counter is one of 1 to 50: the acceptance leaves the peer at counter 0, so a session that
goes on from a higher one cannot start with a handshake. -/
theorem cold_start_iff (haead : aead.Lawful) :
    coldStart cfg aead session keys = .ok () ↔
      0 < cfg.security.macLen ∧ FrameFits cfg ∧ keys.length ≤ cfg.maxPayloadBytes.toNat ∧
        1 ≤ session.counter.toNat ∧ session.counter.toNat ≤ 50 ∧
          ∃ b, sealFramed (wakeReport cfg session session.counter keys 0x03) cfg aead
            (session.nonceFor session.counter).1 = .ok b := by
  have hpayload : payloadLen (handshakeInit cfg session).payload ≤ keyBytes + nonceBytes := le_rfl
  have hinit := @validate_handshake cfg session _ hpayload 0x01 none nofun
  have haccept := @validate_handshake cfg session (.handshakeAccept session.sessionId) (show 4 ≤ 56 by decide) 0x02
    (some session.sessionId) fun _ => Option.some.inj
  rw [coldStart_eq_ok, validate_firstReport, wellFormed_wakeReport fun _ => Option.some.inj]
  constructor
  · rintro ⟨hvalid, hframes, -, -, ⟨⟨hmac, hkeys⟩, hcounter⟩, -, hseals⟩
    have hc := (framesAndParses_eq_ok (wellFormed_handshake hmac hpayload 0x01 none nofun) rfl).1 hframes
    exact ⟨hmac, hc, hkeys, hcounter.1, hcounter.2, (sealsAndOpens_eq_ok haead hc rfl).1 hseals⟩
  · rintro ⟨hmac, hc, hkeys, hpos, hnear, hseal⟩
    have hreport : WellFormed (wakeReport cfg session session.counter keys 0x03) cfg none :=
      wellFormed_wakeReport (by simp) |>.2 ⟨hmac, hkeys⟩
    exact ⟨hinit.2 hmac, (framesAndParses_eq_ok (wellFormed_handshake hmac hpayload 0x01 none nofun) rfl).2 hc,
      haccept.2 hmac, by omega, ⟨⟨hmac, hkeys⟩, hpos, hnear⟩, (framesAndParses_eq_ok hreport rfl).2 hc,
      (sealsAndOpens_eq_ok haead hc rfl).2 hseal⟩

end Flow

/-- The session of the test. -/
def coldSession : SessionKeys := .new 0xCAFEBABE (fill sessionSaltBytes 0x11)

theorem cold_start_test : @coldStart target64 demoConfig dummyAead coldSession [0x04] = .ok () :=
  (@cold_start_iff target64 demoConfig dummyAead coldSession [0x04] lawful_dummyAead).2
    ⟨by decide, by decide, by decide, by decide, by decide, _, rfl⟩

end KeyboardProject.Session
