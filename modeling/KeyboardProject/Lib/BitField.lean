/-
Fields of a register: so many bits from a position on. Writing a field leaves every field beside it as it was.
-/
import Mathlib.Tactic

namespace BitField

variable {n width width' : Nat}

/-- Ones in the field and zeros beside it. -/
def mask (n width pos : Nat) : BitVec n := (BitVec.allOnes width).setWidth n <<< pos

def read (width pos : Nat) (r : BitVec n) : BitVec width := r.extractLsb' pos width

def write (pos : Nat) (v : BitVec width) (r : BitVec n) : BitVec n := (r &&& ~~~mask n width pos) ||| (v.setWidth n <<< pos)

theorem getLsbD_write {pos : Nat} {v : BitVec width} {r : BitVec n} {i : Nat} (hi : i < n) :
    (write pos v r).getLsbD i = if pos ≤ i ∧ i < pos + width then v.getLsbD (i - pos) else r.getLsbD i := by
  simp only [write, mask, BitVec.getLsbD_or, BitVec.getLsbD_and, BitVec.getLsbD_not, BitVec.getLsbD_shiftLeft,
    BitVec.getLsbD_setWidth, BitVec.getLsbD_allOnes, hi, decide_true, Bool.true_and]
  by_cases hlow : i < pos
  · have hout : ¬(pos ≤ i ∧ i < pos + width) := by omega
    simp [hlow, hout]
  · have hsub : i - pos < n := by omega
    by_cases hhigh : i < pos + width
    · have hin : pos ≤ i ∧ i < pos + width := by omega
      have hwidth : i - pos < width := by omega
      simp [hlow, hin, hsub, hwidth]
    · have hout : ¬(pos ≤ i ∧ i < pos + width) := by omega
      have hwidth : ¬i - pos < width := by omega
      have hv : v.getLsbD (i - pos) = false := BitVec.getLsbD_of_ge v _ (by omega)
      simp [hlow, hout, hsub, hwidth, hv]

theorem getLsbD_read {pos : Nat} {r : BitVec n} {i : Nat} (hi : i < width) :
    (read width pos r).getLsbD i = r.getLsbD (pos + i) := by
  simp [read, hi]

/-- A field holds what was written to it. -/
theorem read_write_same {pos : Nat} (hfits : pos + width ≤ n) (v : BitVec width) (r : BitVec n) :
    read width pos (write pos v r) = v := by
  apply BitVec.eq_of_getLsbD_eq
  intro i hi
  rw [getLsbD_read hi, getLsbD_write (by omega), if_pos (by omega), Nat.add_sub_cancel_left]

/-- A field that is beside the one written stays. -/
theorem read_write_other {pos pos' : Nat} (hfits : pos' + width' ≤ n) (hbeside : pos + width ≤ pos' ∨ pos' + width' ≤ pos)
    (v : BitVec width) (r : BitVec n) : read width' pos' (write pos v r) = read width' pos' r := by
  apply BitVec.eq_of_getLsbD_eq
  intro i hi
  rw [getLsbD_read hi, getLsbD_read hi, getLsbD_write (by omega), if_neg (by omega)]

end BitField
