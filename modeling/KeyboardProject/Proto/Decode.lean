/-
The receiving half of the codec: header, payload, and the parser of the plaintext framing. Every
slice, index and fixed-size conversion is one that panics out of bounds.
-/
import KeyboardProject.Proto.Types
import KeyboardProject.Rust.Bytes

namespace KeyboardProject.Proto

open Rust Rust.Outcome

def flagsFromByte (b : UInt8) : PacketFlags where
  encrypted := b &&& 0x01 != 0
  needsAck := b &&& 0x02 != 0
  retransmit := b &&& 0x04 != 0

/-- The kind byte of a header. -/
def PacketKind.ofU8 (b : UInt8) : Outcome ParseError PacketKind :=
  match b with
  | 0 => .ok .handshake
  | 1 => .ok .control
  | 2 => .ok .keyReport
  | 3 => .ok .ack
  | 4 => .ok .keepAlive
  | other => .err (.unknownKind other)

def decodeHeader (bytes : List UInt8) : Outcome ParseError PacketHeader := do
  rejectIf (bytes.length ≠ headerLen) .unexpectedLength
  let sessionId := u32FromLeBytes (← intoArr 4 (← slice bytes 0 4))
  let counter := u32FromLeBytes (← intoArr 4 (← slice bytes 4 8))
  let kind ← PacketKind.ofU8 (← index bytes 8)
  let flags := flagsFromByte (← index bytes 9)
  pure { sessionId, counter, kind, flags }

def decodePayload (kind : PacketKind) (bytes : List UInt8) : Outcome ParseError Payload :=
  match kind with
  | .handshake =>
    if bytes.length = keyBytes + nonceBytes then do
      let key ← intoArr keyBytes (← sliceTo bytes keyBytes)
      let nonce ← intoArr nonceBytes (← sliceFrom bytes keyBytes)
      pure (.handshakeInit key nonce)
    else if bytes.length = 4 then do
      let sessionId := u32FromLeBytes (← intoArr 4 bytes)
      pure (.handshakeAccept sessionId)
    else .err .unexpectedLength
  | .control => do
    rejectIf (bytes = []) .unexpectedLength
    let code ← index bytes 0
    let data ← sliceFrom bytes 1
    pure (.control code data)
  | .keyReport => pure (.keyReport bytes)
  | .ack => do
    rejectIf (bytes.length ≠ 4) .unexpectedLength
    let ackCounter := u32FromLeBytes (← intoArr 4 bytes)
    pure (.ack ackCounter)
  | .keepAlive => do
    rejectIf (bytes ≠ []) .unexpectedLength
    pure .keepAlive

def parsePacket (headerBytes payloadBytes macBytes : List UInt8) (cfg : ProtocolConfig) : Outcome ParseError Packet := do
  rejectIf (macBytes.length ≠ cfg.security.macLen) .macLengthMismatch
  let header ← decodeHeader headerBytes
  rejectIf (payloadBytes.length > payloadLimit header.kind cfg) .unexpectedLength
  let payload ← decodePayload header.kind payloadBytes
  pure { header, payload, mac := macBytes }

def parseFramed [Target] (bytes : List UInt8) (cfg : ProtocolConfig) : Outcome ParseError Packet := do
  rejectIf (bytes.length < (← usizeAdd (headerLen + 2) cfg.security.macLen)) .unexpectedLength
  let headerBytes ← sliceTo bytes headerLen
  let payloadLen := (u16FromLeBytes (← intoArr 2 (← slice bytes headerLen (headerLen + 2)))).toNat
  let payloadStart := headerLen + 2
  let payloadEnd ← usizeAdd payloadStart payloadLen
  rejectIf (payloadEnd > bytes.length) .unexpectedLength
  let macStart := payloadEnd
  let macLen := bytes.length - macStart
  rejectIf (macLen ≠ cfg.security.macLen) .macLengthMismatch
  let payloadBytes ← slice bytes payloadStart payloadEnd
  let macBytes ← sliceFrom bytes macStart
  parsePacket headerBytes payloadBytes macBytes cfg

end KeyboardProject.Proto
