/-
The transmitter of the radio link test (`firmware/radio-tx/src/main.rs`). Every turn of the loop sends one packet with
the next sequence byte; a line on the serial port follows at most every half second.
-/
import KeyboardProject.Lib.Throttle
import KeyboardProject.Rust.Bytes
import KeyboardProject.Rust.Vec

namespace KeyboardProject.Radio

open Rust

def packetLen : Nat := 8

/-- The locals of `main`. -/
structure Tx where
  seq : UInt8
  usbMs : UInt32
  deriving DecidableEq, Repr

def Tx.start : Tx := { seq := 0, usbMs := 0 }

/-- What a turn of the loop sends, and what it writes to the serial port. -/
structure Sent where
  buf : Arr UInt8 packetLen
  writes : List (List UInt8)
  deriving DecidableEq, Repr

/-- `*b"PINGPONG"` with the sequence byte in its last place. -/
def pingPong (seq : UInt8) : Arr UInt8 packetLen := ⟨(ascii "PINGPONG").set 7 seq, rfl⟩

/-- The loop of `main`; the event is what `usb_dev.poll` returns. -/
def transmitter : Machine Tx Bool Sent where
  step s polled :=
    let logs := polled = true ∧ s.usbMs ≥ 500
    ({ seq := s.seq + 1, usbMs := u32SaturatingAdd (if logs then 0 else s.usbMs) 250 },
      [{ buf := pingPong s.seq
         writes := if logs then [ascii "tx seq ", [s.seq], ascii "\r\n"] else [] }])

/-! ## Every turn -/

/-- The throttle of the serial line: 250 ms a turn, at least 500 ms apart. -/
def usbThrottle : Machine Nat Bool Bool := Throttle.counter 500 250 (2 ^ 32 - 1)

/-- Which of the turns wrote a line. -/
def logged (sent : List Sent) : List Bool := sent.map fun s => decide (s.writes ≠ [])

theorem step_throttle (s : Tx) (polled : Bool) :
    usbThrottle.step s.usbMs.toNat polled =
      ((transmitter.step s polled).1.usbMs.toNat, logged (transmitter.step s polled).2) := by
  have hready : 500 ≤ s.usbMs.toNat ↔ s.usbMs ≥ 500 := by rw [ge_iff_le, UInt32.le_iff_toNat_le]; rfl
  have hstep : (250 : UInt32).toNat = 250 := rfl
  simp only [usbThrottle, Throttle.counter, transmitter, logged, u32SaturatingAdd_toNat, hstep, hready, List.map_singleton]
  by_cases hlogs : polled = true ∧ s.usbMs ≥ 500
  · simp [hlogs]
  · simp [hlogs]

theorem run_throttle (polls : List Bool) :
    usbThrottle.run 0 polls = ((transmitter.run .start polls).1.usbMs.toNat, logged (transmitter.run .start polls).2) := by
  have h := @Machine.run_map _ _ _ transmitter _ _ _ usbThrottle (fun s => s.usbMs.toNat) id
    (fun s => decide (s.writes ≠ [])) step_throttle .start polls
  rw [List.map_id] at h
  exact h

theorem run_seq (polls : List Bool) : (transmitter.run .start polls).1.seq = UInt8.ofNat polls.length := by
  induction polls using List.reverseRecOn with
  | nil => rfl
  | append_singleton polls p ih =>
    rw [Machine.run_concat, List.length_append, List.length_singleton]
    show (transmitter.run .start polls).1.seq + 1 = _
    rw [ih, UInt8.ofNat_add]
    rfl

/-- Every turn sends the packet of its number, modulo 256; and it writes the same number to the serial port exactly
when the port was serviced and the latest line, or the start, is at least two turns behind. -/
theorem tx_turn (polls : List Bool) (polled : Bool) :
    (transmitter.run .start (polls ++ [polled])).2 =
      (transmitter.run .start polls).2 ++
        [{ buf := pingPong (UInt8.ofNat polls.length)
           writes :=
            if polled = true ∧ 2 ≤ Throttle.age (logged (transmitter.run .start polls).2) then
              [ascii "tx seq ", [UInt8.ofNat polls.length], ascii "\r\n"]
            else [] }] := by
  have hthrottle : (transmitter.run .start polls).1.usbMs ≥ 500 ↔
      2 ≤ Throttle.age (logged (transmitter.run .start polls).2) := by
    have hrun := @Throttle.run_counter 500 250 (2 ^ 32 - 1) polls
    have h := run_throttle polls
    unfold usbThrottle at h
    rw [h] at hrun
    dsimp only at hrun
    have h500 : (500 : UInt32).toNat = 500 := rfl
    rw [ge_iff_le, UInt32.le_iff_toNat_le, hrun, h500]
    omega
  rw [Machine.run_concat]
  refine congrArg (_ ++ [·]) ?_
  rw [run_seq]
  congr 1
  exact if_congr (and_congr_right fun _ => hthrottle) rfl rfl

end KeyboardProject.Radio
