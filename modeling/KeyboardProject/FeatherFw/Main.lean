/-
The loop of the Feather firmware (`main` of `firmware/feather-fw/src/main.rs`), of a millisecond a turn. The LED is off
and on for 500 turns each; a greeting goes to the serial port at most every thousandth turn.
-/
import KeyboardProject.Lib.Throttle
import KeyboardProject.Rust.Bytes
import KeyboardProject.Rust.Vec

namespace KeyboardProject.FeatherFw

open Rust

/-- The locals of `main`. -/
structure Locals where
  ledMs : UInt32
  helloMs : UInt32
  deriving DecidableEq, Repr

def Locals.start : Locals := { ledMs := 0, helloMs := 0 }

/-- What a turn writes to the serial port, and the levels that it sets the LED's pin to. -/
structure Done where
  writes : List (List UInt8)
  levels : List Bool
  deriving DecidableEq, Repr

/-- The loop of `main`; the event is what `usb_dev.poll` returns. -/
def greeter : Machine Locals Bool Done where
  step s polled :=
    let greets := polled = true ∧ s.helloMs ≥ 1000
    let wraps := s.ledMs ≥ 1000
    ({ ledMs := u32SaturatingAdd (if wraps then 0 else s.ledMs) 1
       helloMs := u32SaturatingAdd (if greets then 0 else s.helloMs) 1 },
      [{ writes := if greets then [ascii "hello usb\r\n"] else []
         levels := (if s.ledMs ≥ 500 then [true] else []) ++ if wraps then [false] else [] }])

/-- Which of the turns greeted. -/
def greeted (done : List Done) : List Bool := done.map fun d => decide (d.writes ≠ [])

/-- The level of the pin, which is low at first. -/
def led (done : List Done) : Bool := ((done.flatMap Done.levels).getLast?).getD false

theorem led_concat (done : List Done) (d : Done) : led (done ++ [d]) = (d.levels.getLast?).getD (led done) := by
  unfold led
  rw [List.flatMap_append, List.flatMap_singleton, List.getLast?_append]
  cases d.levels.getLast? <;> rfl

theorem run_ledMs (polls : List Bool) : (greeter.run .start polls).1.ledMs.toNat = Throttle.phase 1000 polls.length := by
  induction polls using List.reverseRecOn with
  | nil => rfl
  | append_singleton polls p ih =>
    have hle := Throttle.phase_le (T := 1000) (by decide) (polls.length + 1)
    have hone : (1 : UInt32).toNat = 1 := rfl
    have hwraps : (greeter.run .start polls).1.ledMs ≥ 1000 ↔ 0 < polls.length ∧ polls.length % 1000 = 0 := by
      rw [ge_iff_le, UInt32.le_iff_toNat_le, ih]
      exact Throttle.phase_ge (by decide) _
    rw [Throttle.phase_succ (by decide)] at hle
    rw [Machine.run_concat, List.length_append, List.length_singleton, Throttle.phase_succ (by decide)]
    show (u32SaturatingAdd (if _ then 0 else _) 1).toNat = _
    rw [u32SaturatingAdd_toNat, hone, if_congr hwraps rfl rfl]
    split_ifs at hle ⊢
    · rfl
    · rw [ih]
      omega

/-- The throttle of the greeting. -/
def helloThrottle : Machine Nat Bool Bool := Throttle.counter 1000 1 (2 ^ 32 - 1)

theorem step_helloThrottle (s : Locals) (polled : Bool) :
    helloThrottle.step s.helloMs.toNat polled =
      ((greeter.step s polled).1.helloMs.toNat, greeted (greeter.step s polled).2) := by
  have hready : 1000 ≤ s.helloMs.toNat ↔ s.helloMs ≥ 1000 := by rw [ge_iff_le, UInt32.le_iff_toNat_le]; rfl
  have hstep : (1 : UInt32).toNat = 1 := rfl
  simp only [helloThrottle, Throttle.counter, greeter, greeted, u32SaturatingAdd_toNat, hstep, hready, List.map_singleton]
  by_cases hgreets : polled = true ∧ s.helloMs ≥ 1000
  · simp [hgreets]
  · simp [hgreets]

theorem run_helloMs (polls : List Bool) :
    (greeter.run .start polls).1.helloMs.toNat =
      min (2 ^ 32 - 1) (Throttle.age (greeted (greeter.run .start polls).2)) := by
  have hmap := @Machine.run_map _ _ _ greeter _ _ _ helloThrottle (fun s => s.helloMs.toNat) id
    (fun d => decide (d.writes ≠ [])) step_helloThrottle .start polls
  have hrun := @Throttle.run_counter 1000 1 (2 ^ 32 - 1) polls
  rw [List.map_id] at hmap
  have hmap' : (Throttle.counter 1000 1 (2 ^ 32 - 1)).run 0 polls =
      ((greeter.run .start polls).1.helloMs.toNat, greeted (greeter.run .start polls).2) := hmap
  rw [hmap', Nat.one_mul] at hrun
  exact hrun

theorem ledMs_ge (polls : List Bool) {ms : UInt32} :
    (greeter.run .start polls).1.ledMs ≥ ms ↔ ms.toNat ≤ Throttle.phase 1000 polls.length := by
  rw [ge_iff_le, UInt32.le_iff_toNat_le, run_ledMs]

theorem led_run (polls : List Bool) :
    led (greeter.run .start polls).2 = decide (0 < polls.length ∧ 500 ≤ (polls.length - 1) % 1000) := by
  induction polls using List.reverseRecOn with
  | nil => rfl
  | append_singleton polls p ih =>
    have hon : (greeter.run .start polls).1.ledMs ≥ 500 ↔ 500 ≤ Throttle.phase 1000 polls.length := ledMs_ge polls
    have hoff : (greeter.run .start polls).1.ledMs ≥ 1000 ↔ 1000 ≤ Throttle.phase 1000 polls.length := ledMs_ge polls
    have hphase : Throttle.phase 1000 polls.length = if polls.length = 0 then 0 else (polls.length - 1) % 1000 + 1 := rfl
    rw [Machine.run_concat, List.length_append, List.length_singleton, Nat.add_sub_cancel]
    show led ((greeter.run .start polls).2 ++ [_]) = _
    rw [led_concat]
    dsimp only
    rw [if_congr hon rfl rfl, if_congr hoff rfl rfl, ih]
    by_cases hfirst : polls.length = 0
    · rw [if_pos hfirst] at hphase
      rw [hphase, hfirst]
      rfl
    · rw [if_neg hfirst] at hphase
      rw [hphase]
      split_ifs with h₁ h₂ h₂
      · exact (decide_eq_false (by omega)).symm
      · exact (decide_eq_true (by omega)).symm
      · omega
      · exact decide_eq_decide.2 (by omega)

/-- Every turn of every run: turn `n` leaves the LED on when `n` is 500 to 999 modulo 1000 and off else, whatever the
serial port does; and it greets exactly when the port is serviced and the latest greeting, or the start, is at least 1000
turns behind. -/
theorem feather_turn (polls : List Bool) (polled : Bool) :
    led (greeter.run .start (polls ++ [polled])).2 = decide (500 ≤ polls.length % 1000) ∧
      ∃ levels, (greeter.run .start (polls ++ [polled])).2 = (greeter.run .start polls).2 ++
        [{ writes :=
             if polled = true ∧ 1000 ≤ Throttle.age (greeted (greeter.run .start polls).2) then [ascii "hello usb\r\n"]
             else []
           levels }] := by
  refine ⟨?_, (greeter.step (greeter.run .start polls).1 polled).2.flatMap Done.levels, ?_⟩
  · rw [led_run, List.length_append, List.length_singleton, Nat.add_sub_cancel]
    exact decide_eq_decide.2 (and_iff_right (Nat.succ_pos _))
  · have hage : (greeter.run .start polls).1.helloMs ≥ 1000 ↔ 1000 ≤ Throttle.age (greeted (greeter.run .start polls).2) := by
      have h1000 : (1000 : UInt32).toNat = 1000 := rfl
      rw [ge_iff_le, UInt32.le_iff_toNat_le, run_helloMs, h1000]
      omega
    rw [Machine.run_concat, ← if_congr (and_congr_right fun _ => hage) rfl rfl]
    exact congrArg (_ ++ [·]) (congrArg (Done.mk _) (List.append_nil _).symm)

end KeyboardProject.FeatherFw
