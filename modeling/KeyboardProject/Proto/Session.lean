/-
Session-scoped keys and counters (`SessionKeys`) and the deterministic nonce
`session_salt || counter (LE)`, padded with zeros to 24 bytes.
-/
import KeyboardProject.Proto.Types
import KeyboardProject.Rust.Bytes

namespace KeyboardProject.Proto

open Rust Rust.Outcome

def deriveNonce (sessionSalt : Arr UInt8 sessionSaltBytes) (counter : UInt32) : Arr UInt8 nonceBytes :=
  ⟨sessionSalt.1 ++ (u32ToLeBytes counter).1 ++ List.replicate 4 0, by
    simp [sessionSalt.2, (u32ToLeBytes counter).2, sessionSaltBytes, nonceBytes]⟩

structure SessionKeys where
  sessionId : UInt32
  salt : Arr UInt8 sessionSaltBytes
  counter : UInt32
  deriving DecidableEq, Repr

namespace SessionKeys

/-- A fresh session starts at counter 1, the first data packet after the handshake. -/
def new (sessionId : UInt32) (salt : Arr UInt8 sessionSaltBytes) : SessionKeys := { sessionId, salt, counter := 1 }

def handshakeNonce (self : SessionKeys) : Arr UInt8 nonceBytes := deriveNonce self.salt 0

/-- The result of `next_counter` and the keys after the call. -/
def nextCounter (self : SessionKeys) : Outcome SessionError UInt32 × SessionKeys :=
  if self.counter ≥ counterRekeyThreshold then (.err .counterExhausted, self)
  else
    let current := self.counter
    -- a `+ 1` that overflows would panic before the counter is stored
    match (u32Add current 1 : Outcome SessionError UInt32) with
    | .ok next => (.ok current, { self with counter := next })
    | _ => (.panic, self)

def resetCounter (self : SessionKeys) : SessionKeys := { self with counter := 1 }

def resumeFrom (self : SessionKeys) (nextCounter : UInt32) : SessionKeys := { self with counter := max nextCounter 1 }

def nonceFor (self : SessionKeys) (counter : UInt32) : Arr UInt8 nonceBytes := deriveNonce self.salt counter

end SessionKeys

end KeyboardProject.Proto
