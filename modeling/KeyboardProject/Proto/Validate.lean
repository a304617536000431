/-
`validate_packet`: the checks a packet passes before it is sent and after it is received.
-/
import KeyboardProject.Proto.Types
import KeyboardProject.Lib.Window

namespace KeyboardProject.Proto

open Rust Rust.Outcome

def payloadLen : Payload → Nat
  | .handshakeInit .. => keyBytes + nonceBytes
  | .handshakeAccept .. => 4
  | .control _ data => 1 + data.length
  | .keyReport keys => keys.length
  | .ack .. => 4
  | .keepAlive => 0

def validatePacket (packet : Packet) (cfg : ProtocolConfig) (expectedSession lastCounter : Option UInt32) :
    Outcome ValidationError Unit := do
  rejectIf (packet.mac = [] ∨ packet.mac.length ≠ cfg.security.macLen) .missingMac
  ifLetSome expectedSession fun session =>
    rejectIf (packet.header.sessionId ≠ session) .sessionMismatch
  ifLetSome lastCounter fun last => do
    rejectIf (packet.header.counter = last) .replayDetected
    rejectIf (packet.header.counter < last) .counterJump
    let gap ← u32Sub packet.header.counter last
    rejectIf (gap > 50) .counterJump
  rejectIf (payloadLen packet.payload > payloadLimit packet.header.kind cfg) .payloadTooLarge

/-! ## What passes -/

/-- The part of `validate_packet` that does not look at counters. -/
structure WellFormed (packet : Packet) (cfg : ProtocolConfig) (expectedSession : Option UInt32) : Prop where
  mac_ne : packet.mac ≠ []
  mac_length : packet.mac.length = cfg.security.macLen
  session : ∀ s, expectedSession = some s → packet.header.sessionId = s
  payload_le : payloadLen packet.payload ≤ payloadLimit packet.header.kind cfg

/-- The counter window: ahead of the last accepted counter, by at most 50. -/
def InWindow (last counter : UInt32) : Prop := Window.Ahead 50 last.toNat counter.toNat

instance (last counter : UInt32) : Decidable (InWindow last counter) :=
  inferInstanceAs (Decidable (Window.Ahead 50 last.toNat counter.toNat))

/-- The counter checks alone. -/
def checkCounter (counter last : UInt32) : Outcome ValidationError Unit := do
  rejectIf (counter = last) .replayDetected
  rejectIf (counter < last) .counterJump
  let gap ← u32Sub counter last
  rejectIf (gap > 50) .counterJump

theorem validatePacket_eq (packet : Packet) (cfg : ProtocolConfig) (expectedSession lastCounter : Option UInt32) :
    validatePacket packet cfg expectedSession lastCounter = (do
      rejectIf (packet.mac = [] ∨ packet.mac.length ≠ cfg.security.macLen) .missingMac
      ifLetSome expectedSession fun session => rejectIf (packet.header.sessionId ≠ session) .sessionMismatch
      ifLetSome lastCounter (checkCounter packet.header.counter)
      rejectIf (payloadLen packet.payload > payloadLimit packet.header.kind cfg) .payloadTooLarge) := rfl

/-- The subtraction never underflows: the counters below `last` are already rejected. -/
theorem checkCounter_eq (counter last : UInt32) :
    checkCounter counter last =
      if counter = last then .err .replayDetected
      else if InWindow last counter then .ok () else .err .counterJump := by
  unfold checkCounter
  by_cases heq : counter = last
  · rw [rejectIf_pos heq, if_pos heq, err_bind]
  rw [rejectIf_neg heq, if_neg heq, ok_bind]
  have hne : counter.toNat ≠ last.toNat := fun h => heq (UInt32.toNat_inj.1 h)
  by_cases hlt : counter < last
  · rw [rejectIf_pos hlt, err_bind, if_neg (fun hw => by rw [UInt32.lt_iff_toNat_lt] at hlt; have := hw.1; omega)]
  have hle : last ≤ counter := UInt32.not_lt.1 hlt
  have hgap := UInt32.toNat_sub_of_le counter last hle
  rw [rejectIf_neg hlt, ok_bind, u32Sub_ok hle, ok_bind]
  rw [UInt32.le_iff_toNat_le] at hle
  by_cases hbig : counter - last > 50
  · have h50 : 50 < (counter - last).toNat := UInt32.lt_iff_toNat_lt.1 hbig
    rw [rejectIf_pos hbig, if_neg (fun hw => by have := hw.2; omega)]
  · have h50 : (counter - last).toNat ≤ 50 := UInt32.le_iff_toNat_le.1 (UInt32.not_lt.1 hbig)
    rw [rejectIf_neg hbig, if_pos ⟨by omega, by omega⟩]

/-- A packet passes exactly when it is well formed and its counter is in the window. -/
theorem validatePacket_eq_ok {packet : Packet} {cfg : ProtocolConfig} {expectedSession lastCounter : Option UInt32} :
    validatePacket packet cfg expectedSession lastCounter = .ok () ↔
      WellFormed packet cfg expectedSession ∧ ∀ last, lastCounter = some last → InWindow last packet.header.counter := by
  have hcheck : ∀ last, checkCounter packet.header.counter last = .ok () ↔ InWindow last packet.header.counter := by
    intro last
    have hself : packet.header.counter = last → ¬InWindow last packet.header.counter := by
      rintro rfl ⟨h, -⟩; omega
    rw [checkCounter_eq]
    split_ifs with h1 h2 <;> simp_all
  rw [validatePacket_eq]
  simp only [bind_eq_ok, rejectIf_eq_ok, ifLetSome_eq_ok, exists_const, hcheck, not_or, not_not, not_lt, gt_iff_lt]
  constructor
  · rintro ⟨⟨h1, h2⟩, h3, h4, h5⟩; exact ⟨⟨h1, h2, h3, h5⟩, h4⟩
  · rintro ⟨⟨h1, h2, h3, h5⟩, h4⟩; exact ⟨⟨h1, h2⟩, h3, h4, h5⟩

/-- A well-formed packet is rejected by its counter or not at all. -/
theorem validatePacket_some {packet : Packet} {cfg : ProtocolConfig} {expectedSession : Option UInt32}
    (h : WellFormed packet cfg expectedSession) (last : UInt32) :
    validatePacket packet cfg expectedSession (some last) =
      if packet.header.counter = last then .err .replayDetected
      else if InWindow last packet.header.counter then .ok () else .err .counterJump := by
  have hmac : ¬(packet.mac = [] ∨ packet.mac.length ≠ cfg.security.macLen) := by
    simp [h.mac_ne, h.mac_length]
  have hsession : (ifLetSome expectedSession fun session =>
      rejectIf (packet.header.sessionId ≠ session) ValidationError.sessionMismatch) = .ok () :=
    ifLetSome_eq_ok.2 fun s hs => rejectIf_neg (not_not.2 (h.session s hs))
  have hlimit : ¬payloadLen packet.payload > payloadLimit packet.header.kind cfg := not_lt.2 h.payload_le
  rw [← checkCounter_eq]
  rw [validatePacket_eq, rejectIf_neg hmac, ok_bind, hsession, ok_bind, ifLetSome_some, rejectIf_neg hlimit]
  cases checkCounter packet.header.counter last <;> rfl

theorem validatePacket_ne_panic (packet : Packet) (cfg : ProtocolConfig) (expectedSession lastCounter : Option UInt32) :
    validatePacket packet cfg expectedSession lastCounter ≠ .panic := by
  have hcheck : ∀ last, checkCounter packet.header.counter last ≠ .panic := by
    intro last; rw [checkCounter_eq]; split_ifs <;> simp
  rw [validatePacket_eq]
  simp only [ne_eq, bind_eq_panic, rejectIf_ne_panic, false_or, not_exists, not_and, and_false, exists_const, or_false]
  rintro - - (h | ⟨_, -, h⟩)
  · cases expectedSession <;> simp at h
  · cases lastCounter with
    | none => simp at h
    | some last => exact hcheck last h

end KeyboardProject.Proto
