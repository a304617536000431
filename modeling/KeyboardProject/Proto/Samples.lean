/-
`sample_packets`: one packet of a handshake, a key report and an ack of one session. The ack takes
its counter from the same `next_counter` as the key report.
-/
import KeyboardProject.Proto.Session
import KeyboardProject.Proto.Validate
import KeyboardProject.Rust.Vec

namespace KeyboardProject.Proto

open Rust Rust.Outcome

def sampleSession : SessionKeys := .new 0x88776655 ⟨List.replicate sessionSaltBytes 0xA5, rfl⟩

def sampleHandshake (cfg : ProtocolConfig) : Packet where
  header :=
    { sessionId := sampleSession.sessionId
      counter := 0
      kind := .handshake
      flags := { encrypted := false, needsAck := true, retransmit := false } }
  payload := .handshakeInit ⟨List.replicate keyBytes 0xAA, rfl⟩ sampleSession.handshakeNonce
  mac := List.replicate cfg.security.macLen 0x11

def sampleKeyReport (cfg : ProtocolConfig) (counter : UInt32) : Packet where
  header :=
    { sessionId := sampleSession.sessionId
      counter
      kind := .keyReport
      flags := { encrypted := true, needsAck := true, retransmit := false } }
  payload := .keyReport [0x04]
  mac := List.replicate cfg.security.macLen 0x22

def sampleAck (cfg : ProtocolConfig) (counter ackCounter : UInt32) : Packet where
  header :=
    { sessionId := sampleSession.sessionId
      counter
      kind := .ack
      flags := { encrypted := true, needsAck := false, retransmit := false } }
  payload := .ack ackCounter
  mac := List.replicate cfg.security.macLen 0x33

def samplePackets (cfg : ProtocolConfig) : Outcome Empty (List Packet) := do
  let handshake := sampleHandshake cfg
  let (counter, session) := sampleSession.nextCounter
  let keyReport := sampleKeyReport cfg (← expect counter)
  let (counter, _) := session.nextCounter
  let ack := sampleAck cfg (← expect counter) keyReport.header.counter
  pure [handshake, keyReport, ack]

theorem samplePackets_eq (cfg : ProtocolConfig) :
    samplePackets cfg = .ok [sampleHandshake cfg, sampleKeyReport cfg 1, sampleAck cfg 2 1] := rfl

theorem replicate_macLen_ne_nil {cfg : ProtocolConfig} (hmac : 0 < cfg.security.macLen) (b : UInt8) :
    List.replicate cfg.security.macLen b ≠ [] := by
  rw [ne_eq, List.replicate_eq_nil_iff]; omega

/-- A key report passes wherever a tag is asked for and one key fits. -/
theorem sampleKeyReport_wellFormed {cfg : ProtocolConfig} (hmac : 0 < cfg.security.macLen)
    (hmax : 1 ≤ cfg.maxPayloadBytes.toNat) (counter : UInt32) :
    WellFormed (sampleKeyReport cfg counter) cfg (some sampleSession.sessionId) :=
  ⟨replicate_macLen_ne_nil hmac _, List.length_replicate, fun _ hs => Option.some.inj hs, hmax⟩

/-- The sample packets pass their own protocol's checks wherever a tag is asked for and an ack fits. -/
theorem samplePackets_wellFormed {cfg : ProtocolConfig} {packets : List Packet} (hmac : 0 < cfg.security.macLen)
    (hmax : 4 ≤ cfg.maxPayloadBytes.toNat) (h : samplePackets cfg = .ok packets) :
    ∀ p ∈ packets, WellFormed p cfg (some sampleSession.sessionId) ∧
      matchesValidKindPayload p.header.kind p.payload = true := by
  rw [samplePackets_eq] at h
  obtain rfl := ok.inj h
  simp only [List.mem_cons, List.not_mem_nil, or_false]
  rintro p (rfl | rfl | rfl)
  · exact ⟨⟨replicate_macLen_ne_nil hmac _, List.length_replicate, fun _ hs => Option.some.inj hs, le_rfl⟩, rfl⟩
  · exact ⟨sampleKeyReport_wellFormed hmac (by omega) 1, rfl⟩
  · exact ⟨⟨replicate_macLen_ne_nil hmac _, List.length_replicate, fun _ hs => Option.some.inj hs, hmax⟩, rfl⟩

/-! ## The wake timeline -/

inductive SimEvent where
  | keyboardWakes
  | linkAuthenticated
  | keyReport (keys : List UInt8)
  | idle
  deriving DecidableEq, Repr

structure SimFrame where
  tMs : UInt64
  event : SimEvent
  deriving DecidableEq, Repr

/-- `as_millis() as u64`. -/
def Duration.asMillis (d : Duration) : UInt64 := UInt64.ofNat (d.nanos / 1000000)

def simulateWakeSequence [Profile] (cfg : ProtocolConfig) : Outcome Empty (List SimFrame) := do
  let wakes : UInt64 := 0
  let authenticated ← u64Add wakes cfg.wake.listenWindow.asMillis
  let report ← u64Add authenticated cfg.latency.target.asMillis
  let idle ← u64Add report cfg.wake.idleSleep.asMillis
  pure [⟨wakes, .keyboardWakes⟩, ⟨authenticated, .linkAuthenticated⟩, ⟨report, .keyReport [0x04]⟩, ⟨idle, .idle⟩]

/-- The key report of the demo configuration is sent at 14 ms. -/
def demoFrames : List SimFrame := [⟨0, .keyboardWakes⟩, ⟨8, .linkAuthenticated⟩, ⟨14, .keyReport [0x04]⟩, ⟨214, .idle⟩]

theorem simulateWakeSequence_demo [Profile] : simulateWakeSequence demoConfig = .ok demoFrames := rfl

/-- Where overflow is checked, time never runs back. -/
theorem simulateWakeSequence_sorted [Profile] (hchecks : Profile.overflowChecks = true) {cfg : ProtocolConfig}
    {frames : List SimFrame} (h : simulateWakeSequence cfg = .ok frames) :
    frames.Pairwise fun a b => a.tMs ≤ b.tMs := by
  have hadd : ∀ {a b c : UInt64}, (u64Add a b : Outcome Empty UInt64) = .ok c → a ≤ c := by
    intro a b c hc
    rw [u64Add] at hc
    split_ifs at hc with hfits
    · rw [← ok.inj hc, UInt64.le_iff_toNat_le, u64_add_toNat hfits]
      exact Nat.le_add_right ..
  obtain ⟨authenticated, h₁, h⟩ := bind_eq_ok.1 h
  obtain ⟨report, h₂, h⟩ := bind_eq_ok.1 h
  obtain ⟨idle, h₃, h⟩ := bind_eq_ok.1 h
  obtain rfl := ok.inj h
  simp only [List.pairwise_cons, List.forall_mem_cons, List.not_mem_nil]
  have hreport := UInt64.le_trans (hadd h₁) (hadd h₂)
  have hidle := UInt64.le_trans (hadd h₂) (hadd h₃)
  simp [hadd h₁, hadd h₂, hadd h₃, hreport, hidle, UInt64.le_trans hreport (hadd h₃)]

end KeyboardProject.Proto
