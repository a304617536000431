/-
The sending half of the codec: header, associated data, payload, and the plaintext framing
`header || payload_len (u16 LE) || payload || mac`.
-/
import KeyboardProject.Proto.Types
import KeyboardProject.Rust.Bytes

namespace KeyboardProject.Proto

open Rust Rust.Outcome

/-- `kind as u8`. -/
def PacketKind.toU8 : PacketKind → UInt8
  | .handshake => 0
  | .control => 1
  | .keyReport => 2
  | .ack => 3
  | .keepAlive => 4

def flagsToByte (flags : PacketFlags) : UInt8 :=
  flags.encrypted.toUInt8 ||| (flags.needsAck.toUInt8 <<< 1) ||| (flags.retransmit.toUInt8 <<< 2)

def encodeHeader (header : PacketHeader) : Arr UInt8 headerLen :=
  ⟨(u32ToLeBytes header.sessionId).1 ++ (u32ToLeBytes header.counter).1 ++
      [header.kind.toU8, flagsToByte header.flags], by simp [(u32ToLeBytes _).2, headerLen]⟩

/-- The associated data of a packet: the header bytes and the payload length cast to `u16`. -/
def associatedData (header : PacketHeader) (payloadLen : Nat) : Arr UInt8 aadLen :=
  ⟨(encodeHeader header).1 ++ (u16ToLeBytes (UInt16.ofNat payloadLen)).1, by
    simp [(encodeHeader _).2, (u16ToLeBytes _).2, aadLen]⟩

def encodePayload : Payload → List UInt8
  | .handshakeInit ephPubkey nonce => ephPubkey.1 ++ nonce.1
  | .handshakeAccept sessionId => (u32ToLeBytes sessionId).1
  | .control code data => code :: data
  | .keyReport keys => keys
  | .ack ackCounter => (u32ToLeBytes ackCounter).1
  | .keepAlive => []

structure SerializedPacket where
  header : Arr UInt8 headerLen
  payload : List UInt8
  mac : List UInt8
  aad : Arr UInt8 aadLen
  deriving DecidableEq, Repr

def serializePacket (packet : Packet) (cfg : ProtocolConfig) : Outcome SerializationError SerializedPacket := do
  let payload := encodePayload packet.payload
  rejectIf (payload.length > payloadLimit packet.header.kind cfg) .payloadTooLarge
  rejectIf (packet.mac.length ≠ cfg.security.macLen) .macLengthMismatch
  let header := encodeHeader packet.header
  let aad := associatedData packet.header payload.length
  pure { header, payload, mac := packet.mac, aad }

def serializeFramed (packet : Packet) (cfg : ProtocolConfig) : Outcome SerializationError (List UInt8) := do
  let serialized ← serializePacket packet cfg
  pure (serialized.header.1 ++ (u16ToLeBytes (UInt16.ofNat serialized.payload.length)).1 ++ serialized.payload ++
    serialized.mac)

/-! ## When serialization succeeds -/

/-- What `serialize_packet` returns when it succeeds. -/
def serialized (packet : Packet) : SerializedPacket where
  header := encodeHeader packet.header
  payload := encodePayload packet.payload
  mac := packet.mac
  aad := associatedData packet.header (encodePayload packet.payload).length

theorem serializePacket_eq_ok {packet : Packet} {cfg : ProtocolConfig} {s : SerializedPacket} :
    serializePacket packet cfg = .ok s ↔
      (encodePayload packet.payload).length ≤ payloadLimit packet.header.kind cfg ∧
        packet.mac.length = cfg.security.macLen ∧ s = serialized packet := by
  unfold serializePacket
  simp only [bind_eq_ok, rejectIf_eq_ok, exists_const, not_not, not_lt, gt_iff_lt, pure_eq, ok.injEq]
  constructor
  · rintro ⟨h1, h2, rfl⟩; exact ⟨h1, h2, rfl⟩
  · rintro ⟨h1, h2, rfl⟩; exact ⟨h1, h2, rfl⟩

theorem serializePacket_ne_panic (packet : Packet) (cfg : ProtocolConfig) : serializePacket packet cfg ≠ .panic := by
  unfold serializePacket
  simp [bind_eq_panic]

/-- The framing of an accepted packet: its length field is the exact payload length. -/
theorem serializeFramed_eq_ok {packet : Packet} {cfg : ProtocolConfig} {b : List UInt8} :
    serializeFramed packet cfg = .ok b ↔
      (encodePayload packet.payload).length ≤ payloadLimit packet.header.kind cfg ∧
        packet.mac.length = cfg.security.macLen ∧
        b = (encodeHeader packet.header).1 ++ LittleEndian.encode 2 (encodePayload packet.payload).length ++
          encodePayload packet.payload ++ packet.mac := by
  unfold serializeFramed
  simp only [bind_eq_ok, serializePacket_eq_ok, pure_eq, ok.injEq]
  constructor
  · rintro ⟨s, ⟨h1, h2, rfl⟩, rfl⟩
    exact ⟨h1, h2, by simp only [serialized, u16ToLeBytes_ofNat]⟩
  · rintro ⟨h1, h2, rfl⟩
    exact ⟨serialized packet, ⟨h1, h2, rfl⟩, by simp only [serialized, u16ToLeBytes_ofNat]⟩

end KeyboardProject.Proto
