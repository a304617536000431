/-
Authenticated framing: `seal_framed` and `open_framed`.
-/
import KeyboardProject.Proto.Aead
import KeyboardProject.Proto.Encode
import KeyboardProject.Proto.Decode

namespace KeyboardProject.Proto

open Rust Rust.Outcome

def sealFramed (packet : Packet) (cfg : ProtocolConfig) (aead : Aead) (nonce : List UInt8) :
    Outcome CryptoError (List UInt8) := do
  let serialized ← (serializePacket packet cfg).mapErr .serialize
  let (ciphertext, mac) ← aead.seal nonce serialized.aad.1 serialized.payload cfg.security.macLen
  -- the caller's tag, `packet.mac`, was only checked for its length: the AEAD's takes its place
  pure (serialized.header.1 ++ (u16ToLeBytes (UInt16.ofNat ciphertext.length)).1 ++ ciphertext ++ mac)

/-- The header is decoded from the received bytes and encoded again for the associated data. -/
def openFramed [Target] (bytes : List UInt8) (cfg : ProtocolConfig) (aead : Aead) (nonce : List UInt8) :
    Outcome CryptoError Packet := do
  rejectIf (bytes.length < (← usizeAdd (headerLen + 2) cfg.security.macLen)) (.parse .unexpectedLength)
  let headerBytes ← sliceTo bytes headerLen
  let header ← (decodeHeader headerBytes).mapErr .parse
  let payloadLen := (u16FromLeBytes (← intoArr 2 (← slice bytes headerLen (headerLen + 2)))).toNat
  let payloadStart := headerLen + 2
  let payloadEnd ← usizeAdd payloadStart payloadLen
  rejectIf (payloadEnd > bytes.length) (.parse .unexpectedLength)
  let macStart := payloadEnd
  let macLen := bytes.length - macStart
  rejectIf (macLen ≠ cfg.security.macLen) (.parse .macLengthMismatch)
  let payloadBytes ← slice bytes payloadStart payloadEnd
  let macBytes ← sliceFrom bytes macStart
  rejectIf (payloadBytes.length > payloadLimit header.kind cfg) (.parse .unexpectedLength)
  let aad := associatedData header payloadBytes.length
  let plaintext ← aead.open nonce aad.1 payloadBytes macBytes
  let payload ← (decodePayload header.kind plaintext).mapErr .parse
  pure { header, payload, mac := macBytes }

end KeyboardProject.Proto
