/-
The send loop of the host simulator (`host-sim/src/main.rs`) and what it reports. Attempts are counted as the
frames delivered and the frames dropped, so a frame that the channel still holds at the end is missing.
-/
import KeyboardProject.Proto.Samples
import KeyboardProject.Proto.Seal
import KeyboardProject.Sim.MockRf

namespace KeyboardProject.HostSim

open Rust Rust.Outcome Proto Sim

/-- The options that the send loop and its report read. -/
structure Args where
  realAead : Bool
  aeadKey : Option (Arr UInt8 keyBytes)
  sessionSalt : Option (Arr UInt8 sessionSaltBytes)
  mockRf : Bool
  dropFirst : Bool
  reorder : Bool
  jitterMs : UInt64
  deriving DecidableEq, Repr

structure Metrics where
  attempts : Option UInt32
  delivered : Nat
  dropped : Nat
  latencyMs : UInt64
  jitterMs : UInt64
  dropFirst : Bool
  reorder : Bool
  mockRfEnabled : Bool
  realAead : Bool
  deriving DecidableEq, Repr

variable {α : Type}

/-! ## The loop -/

theorem queue_length_of_pop {rf next : MockRf α} {frame : α} (h : rf.pop = .ok (some frame, next)) :
    next.runtime.queue.length < rf.runtime.queue.length := by
  rcases rf.pop_cases with ⟨-, hpop⟩ | ⟨entry, rest, hleaves, hpop⟩
  · rw [hpop] at h
    exact absurd (Prod.mk.inj (ok.inj h)).1.symm (Option.some_ne_none _)
  · rw [hpop] at h
    obtain ⟨-, rfl⟩ := Prod.mk.inj (ok.inj h)
    show rest.length < _
    rw [hleaves.length]
    omega

/-- `while let Some(delivered) = rf.pop()`. It ends, since every frame popped leaves the queue. -/
def drain (rf : MockRf α) (deliveredFrames : List α) : Outcome Empty (List α × MockRf α) :=
  match h : rf.pop with
  | .ok (some delivered, next) =>
    have := queue_length_of_pop h
    drain next (deliveredFrames ++ [delivered])
  | .ok (none, next) => .ok (deliveredFrames, next)
  | .err e => nomatch e
  | .panic => .panic
termination_by rf.runtime.queue.length

/-- What a turn does with its frame on the channel; the frames delivered so far are collected. -/
def sendFrame [Profile] (s : List α × MockRf α) (sealedFrame : α) : Outcome Empty (List α × MockRf α) := do
  let rf ← s.2.push sealedFrame
  drain (rf.advance 2) s.1

namespace Args

/-- The AEAD of the options. `cipher` makes an XChaCha20-Poly1305 of a key. -/
def aead (args : Args) (cipher : Arr UInt8 keyBytes → Cipher) : Aead :=
  if args.realAead then Proto.realAead (cipher (args.aeadKey.getD (fill keyBytes 0x42))) else dummyAead

def demoSalt (args : Args) : Arr UInt8 sessionSaltBytes :=
  args.sessionSalt.getD (fill sessionSaltBytes 0xA5)

/-- The channel that the options ask for. -/
def rf (args : Args) : Option (MockRf (List UInt8)) :=
  if args.mockRf then some (.new args.dropFirst args.reorder args.jitterMs) else none

end Args

/-- The frame of a packet. -/
def sealPacket (cipher : Arr UInt8 keyBytes → Cipher) (args : Args) (pkt : Packet) : Outcome Empty (List UInt8) := do
  let _framed ← (expect (serializeFramed pkt demoConfig) : Outcome Empty (List UInt8))
  let nonce := deriveNonce args.demoSalt pkt.header.counter
  expect (sealFramed pkt demoConfig (args.aead cipher) nonce.1)

/-- The variables that the send loop changes. -/
structure Sent where
  deliveredFrames : List (List UInt8)
  rf : Option (MockRf (List UInt8))
  deriving DecidableEq, Repr

def sendPacket [Profile] (cipher : Arr UInt8 keyBytes → Cipher) (args : Args) (s : Sent) (pkt : Packet) :
    Outcome Empty Sent := do
  let sealedFrame ← sealPacket cipher args pkt
  match s.rf with
  | none => pure s
  | some rf => do
    let (deliveredFrames, rf) ← sendFrame (s.deliveredFrames, rf) sealedFrame
    pure { deliveredFrames, rf := some rf }

def sendLoop [Profile] (cipher : Arr UInt8 keyBytes → Cipher) (args : Args) (packets : List Packet) : Outcome Empty Sent :=
  packets.foldlM (sendPacket cipher args) { deliveredFrames := [], rf := args.rf }

/-- The metrics of the send loop; `as u32` cuts the number of attempts. -/
def report (args : Args) (s : Sent) : Option Metrics :=
  s.rf.map fun rf =>
    let stats := rf.stats
    { attempts := some (UInt32.ofNat (s.deliveredFrames.length + stats.dropped))
      delivered := stats.delivered
      dropped := stats.dropped
      latencyMs := stats.lastTimeMs
      jitterMs := args.jitterMs
      dropFirst := args.dropFirst
      reorder := args.reorder
      mockRfEnabled := args.mockRf
      realAead := args.realAead }

/-- `main` from the send loop to its report. -/
def sendAndReport [Profile] (cipher : Arr UInt8 keyBytes → Cipher) (args : Args) (packets : List Packet) :
    Outcome Empty (Option Metrics) := do
  let s ← sendLoop cipher args packets
  pure (report args s)

end KeyboardProject.HostSim
