/-
The pins that the debugger firmware sets up as inputs (`main` of `firmware/debugger/src/main.rs`), behind
`display_init`, whose pins are on the same ports. The registers are read, changed in one field and written back.
-/
import KeyboardProject.Lib.BitField

namespace KeyboardProject.Debugger

/-- The registers of a GPIO port with two bits for each of its 16 pins. -/
structure Port where
  moder : UInt32
  pupdr : UInt32
  deriving DecidableEq, Repr

structure Ports where
  gpiob : Port
  gpiog : Port
  gpioi : Port
  deriving DecidableEq, Repr

/-- A pin becomes an input with a pull-down. -/
def Port.inputPullDown (port : Port) (pin : UInt32) : Port where
  moder := port.moder &&& ~~~(0b11 <<< (pin * 2))
  pupdr := (port.pupdr &&& ~~~(0b11 <<< (pin * 2))) ||| (0b10 <<< (pin * 2))

/-- PB4 and PG6 for the status inputs, PG7 and the button on PI11 to clear the latch. -/
def Ports.setup (ports : Ports) : Ports where
  gpiob := ports.gpiob.inputPullDown 4
  gpiog := (ports.gpiog.inputPullDown 6).inputPullDown 7
  gpioi := ports.gpioi.inputPullDown 11

/-! ## Pin by pin -/

/-- The two fields of a pin: its mode and its pull. -/
def Port.pin (port : Port) (pin : Fin 16) : BitVec 2 × BitVec 2 :=
  (BitField.read 2 (2 * pin) port.moder.toBitVec, BitField.read 2 (2 * pin) port.pupdr.toBitVec)

/-- Mode 0 is an input, pull 2 a pull-down. -/
def inputDown : BitVec 2 × BitVec 2 := (0, 2)

theorem mask_pin : ∀ pin : Fin 16, ((0b11 : UInt32) <<< (UInt32.ofNat pin * 2)).toBitVec = BitField.mask 32 2 (2 * pin) := by
  decide

theorem pull_pin : ∀ pin : Fin 16,
    ((0b10 : UInt32) <<< (UInt32.ofNat pin * 2)).toBitVec = (2 : BitVec 2).setWidth 32 <<< (2 * pin : Nat) := by
  decide

theorem inputPullDown_registers (port : Port) (pin : Fin 16) :
    (port.inputPullDown (UInt32.ofNat pin)).moder.toBitVec = BitField.write (2 * pin) (0 : BitVec 2) port.moder.toBitVec ∧
      (port.inputPullDown (UInt32.ofNat pin)).pupdr.toBitVec =
        BitField.write (2 * pin) (2 : BitVec 2) port.pupdr.toBitVec := by
  constructor
  · show port.moder.toBitVec &&& ~~~((0b11 : UInt32) <<< (UInt32.ofNat pin * 2)).toBitVec = _
    rw [mask_pin, BitField.write]
    simp
  · show port.pupdr.toBitVec &&& ~~~((0b11 : UInt32) <<< (UInt32.ofNat pin * 2)).toBitVec |||
      ((0b10 : UInt32) <<< (UInt32.ofNat pin * 2)).toBitVec = _
    rw [mask_pin, pull_pin, BitField.write]

/-- The pin is set up, and every other pin of its port is left as it was. -/
theorem pin_inputPullDown (port : Port) (pin other : Fin 16) :
    (port.inputPullDown (UInt32.ofNat pin)).pin other = if other = pin then inputDown else port.pin other := by
  obtain ⟨hmoder, hpupdr⟩ := inputPullDown_registers port pin
  unfold Port.pin
  rw [hmoder, hpupdr]
  split_ifs with hpin
  · rw [hpin, BitField.read_write_same (by omega), BitField.read_write_same (by omega)]
    rfl
  · have hbeside : 2 * (pin : Nat) + 2 ≤ 2 * other ∨ 2 * (other : Nat) + 2 ≤ 2 * pin := by
      have : (other : Nat) ≠ pin := fun h => hpin (Fin.ext h)
      omega
    rw [BitField.read_write_other (by omega) hbeside, BitField.read_write_other (by omega) hbeside]

/-- From any state of the registers, the set-up makes inputs with a pull-down of PB4, PG6, PG7 and PI11, and leaves every
other pin of the three ports as it was: those of the LCD stay as its driver has set them. -/
theorem setup_pins (ports : Ports) (pin : Fin 16) :
    ports.setup.gpiob.pin pin = (if pin = 4 then inputDown else ports.gpiob.pin pin) ∧
      ports.setup.gpiog.pin pin = (if pin = 6 ∨ pin = 7 then inputDown else ports.gpiog.pin pin) ∧
      ports.setup.gpioi.pin pin = if pin = 11 then inputDown else ports.gpioi.pin pin := by
  refine ⟨pin_inputPullDown ports.gpiob 4 pin, ?_, pin_inputPullDown ports.gpioi 11 pin⟩
  show ((ports.gpiog.inputPullDown (UInt32.ofNat (6 : Fin 16))).inputPullDown (UInt32.ofNat (7 : Fin 16))).pin pin = _
  rw [pin_inputPullDown, pin_inputPullDown]
  by_cases hsix : pin = 6
  · rw [if_pos (Or.inl hsix), if_pos hsix]
    split_ifs <;> rfl
  · rw [if_neg hsix, if_congr (or_iff_right hsix) rfl rfl]

end KeyboardProject.Debugger
