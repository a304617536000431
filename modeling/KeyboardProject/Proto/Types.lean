/-
The protocol's data model (`proto/src/lib.rs`): constants, configuration, packets, error types.
-/
import KeyboardProject.Rust.Slice

namespace KeyboardProject.Proto

open Rust

/-! ## Constants -/

def maxMacBytes : Nat := 16
def keyBytes : Nat := 32
/-- The XChaCha20-Poly1305 nonce size. -/
def nonceBytes : Nat := 24
def sessionSaltBytes : Nat := 16
def maxRetransmitAttempts : UInt8 := 1
/-- `session_id` (4), `counter` (4), kind (1), flags (1). -/
def headerLen : Nat := 10
/-- The header and the payload length. -/
def aadLen : Nat := headerLen + 2
def counterRekeyThreshold : UInt32 := (1 : UInt32) <<< 31

/-! ## Configuration -/

/-- `std::time::Duration`, in nanoseconds. -/
structure Duration where
  nanos : Nat
  deriving DecidableEq, Repr

def Duration.fromMillis (ms : Nat) : Duration := ⟨ms * 1000000⟩

structure WakeTiming where
  idleSleep : Duration
  listenWindow : Duration
  reconnectTimeout : Duration
  deriving DecidableEq, Repr

inductive CipherSuite where
  | xChaCha20Poly1305
  deriving DecidableEq, Repr

inductive HandshakeKind where
  | noiseX25519
  | preShared
  deriving DecidableEq, Repr

structure SecurityConfig where
  handshake : HandshakeKind
  forwardSecure : Bool
  replayProtection : Bool
  cipherSuite : CipherSuite
  macLen : Nat
  deriving DecidableEq, Repr

structure LatencyBudget where
  target : Duration
  max : Duration
  deriving DecidableEq, Repr

structure ProtocolConfig where
  wake : WakeTiming
  security : SecurityConfig
  latency : LatencyBudget
  maxPayloadBytes : UInt16
  deriving DecidableEq, Repr

def demoConfig : ProtocolConfig where
  wake :=
    { idleSleep := .fromMillis 200
      listenWindow := .fromMillis 8
      reconnectTimeout := .fromMillis 2 }
  security :=
    { handshake := .noiseX25519
      forwardSecure := true
      replayProtection := true
      cipherSuite := .xChaCha20Poly1305
      macLen := maxMacBytes }
  latency :=
    { target := .fromMillis 6
      max := .fromMillis 10 }
  maxPayloadBytes := 32

/-! ## Packets -/

inductive PacketKind where
  | handshake
  | control
  | keyReport
  | ack
  | keepAlive
  deriving DecidableEq, Repr

structure PacketFlags where
  encrypted : Bool
  needsAck : Bool
  retransmit : Bool
  deriving DecidableEq, Repr

structure PacketHeader where
  sessionId : UInt32
  counter : UInt32
  kind : PacketKind
  flags : PacketFlags
  deriving DecidableEq, Repr

inductive Payload where
  | handshakeInit (ephPubkey : Arr UInt8 keyBytes) (nonce : Arr UInt8 nonceBytes)
  | handshakeAccept (sessionId : UInt32)
  | control (code : UInt8) (data : List UInt8)
  | keyReport (keys : List UInt8)
  | ack (ackCounter : UInt32)
  | keepAlive
  deriving DecidableEq, Repr

structure Packet where
  header : PacketHeader
  payload : Payload
  mac : List UInt8
  deriving DecidableEq, Repr

/-! ## Errors -/

inductive ValidationError where
  | missingMac
  | replayDetected
  | payloadTooLarge
  | counterJump
  | sessionMismatch
  deriving DecidableEq, Repr

inductive SessionError where
  | counterExhausted
  deriving DecidableEq, Repr

inductive SerializationError where
  | payloadTooLarge
  | macLengthMismatch
  deriving DecidableEq, Repr

inductive ParseError where
  | unexpectedLength
  | unknownKind (b : UInt8)
  | macLengthMismatch
  deriving DecidableEq, Repr

/-- The payload variants a header kind stands for (`matches_valid_kind_payload` of the property
tests): a handshake has two shapes, every other kind one. -/
def matchesValidKindPayload : PacketKind → Payload → Bool
  | .handshake, .handshakeInit .. => true
  | .handshake, .handshakeAccept .. => true
  | .control, .control .. => true
  | .keyReport, .keyReport .. => true
  | .ack, .ack .. => true
  | .keepAlive, .keepAlive => true
  | _, _ => false

/-- The payload size a packet kind allows: a handshake may exceed the data payload cap. -/
def payloadLimit (kind : PacketKind) (cfg : ProtocolConfig) : Nat :=
  match kind with
  | .handshake => keyBytes + nonceBytes
  | _ => cfg.maxPayloadBytes.toNat

/-- Every payload limit fits the sixteen bits of the length field. -/
theorem payloadLimit_lt (kind : PacketKind) (cfg : ProtocolConfig) : payloadLimit kind cfg < 256 ^ 2 := by
  have h := cfg.maxPayloadBytes.toNat_lt
  cases kind with
  | handshake => simp [payloadLimit, keyBytes, nonceBytes]
  | control => simpa [payloadLimit] using h
  | keyReport => simpa [payloadLimit] using h
  | ack => simpa [payloadLimit] using h
  | keepAlive => simpa [payloadLimit] using h

end KeyboardProject.Proto
