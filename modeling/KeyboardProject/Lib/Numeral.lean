/-
Positional numerals: the digits of a radix up to 36, the value of a numeral, and bytes written in
hexadecimal.
-/
import Mathlib.Tactic

namespace Numeral

/-! ## Digits -/

/-- The value of a decimal digit or a letter. -/
def digit? (c : Char) : Option Nat :=
  if '0' ≤ c ∧ c ≤ '9' then some (c.toNat - 48)
  else if 'a' ≤ c ∧ c ≤ 'z' then some (c.toNat - 97 + 10)
  else if 'A' ≤ c ∧ c ≤ 'Z' then some (c.toNat - 65 + 10)
  else none

/-- `c` is the digit `d` of the radix. -/
def IsDigit (radix : Nat) (c : Char) (d : Nat) : Prop := digit? c = some d ∧ d < radix

instance (radix : Nat) (c : Char) (d : Nat) : Decidable (IsDigit radix c d) := inferInstanceAs (Decidable (_ ∧ _))

theorem char_le_iff {c d : Char} : c ≤ d ↔ c.toNat ≤ d.toNat := by
  rw [Char.le_def, UInt32.le_iff_toNat_le]
  rfl

/-- The code points of the digits, in three ranges. -/
theorem digit?_eq_some {c : Char} {d : Nat} :
    digit? c = some d ↔
      (48 ≤ c.toNat ∧ c.toNat ≤ 57 ∧ d = c.toNat - 48) ∨ (97 ≤ c.toNat ∧ c.toNat ≤ 122 ∧ d = c.toNat - 87) ∨
        (65 ≤ c.toNat ∧ c.toNat ≤ 90 ∧ d = c.toNat - 55) := by
  unfold digit?
  simp only [char_le_iff, Char.reduceToNat]
  split_ifs
  · rw [Option.some_inj]; omega
  · rw [Option.some_inj]; omega
  · rw [Option.some_inj]; omega
  · simp only [false_iff]; omega

/-! ## Numerals -/

/-- The value of digits, most significant first, that go on from `acc`. -/
def value (radix acc : Nat) (ds : List Nat) : Nat := ds.foldl (fun a d => a * radix + d) acc

/-- `cs` is a numeral of the radix, and `n` is its value. -/
def Denotes (radix : Nat) (cs : List Char) (n : Nat) : Prop :=
  cs ≠ [] ∧ ∃ ds, List.Forall₂ (IsDigit radix) cs ds ∧ n = value radix 0 ds

theorem le_value {radix : Nat} (h : 0 < radix) (acc : Nat) (ds : List Nat) : acc ≤ value radix acc ds := by
  induction ds generalizing acc with
  | nil => exact le_rfl
  | cons d ds ih =>
    calc acc ≤ acc * radix := Nat.le_mul_of_pos_right acc h
      _ ≤ acc * radix + d := Nat.le_add_right ..
      _ ≤ value radix acc (d :: ds) := ih _

/-- Every character of a numeral is a digit. -/
theorem Denotes.isDigit {radix n : Nat} {cs : List Char} (h : Denotes radix cs n) :
    ∀ c ∈ cs, ∃ d, IsDigit radix c d := by
  obtain ⟨-, ds, hds, -⟩ := h
  induction hds with
  | nil => simp
  | cons hd _ ih => exact List.forall_mem_cons.2 ⟨⟨_, hd⟩, ih⟩

/-! ## Hexadecimal -/

/-- `0`-`9`, `a`-`f` or `A`-`F`. -/
def IsHex (c : Char) : Prop := ('0' ≤ c ∧ c ≤ '9') ∨ ('a' ≤ c ∧ c ≤ 'f') ∨ ('A' ≤ c ∧ c ≤ 'F')

instance : DecidablePred IsHex := fun _ => inferInstanceAs (Decidable (_ ∨ _))

/-- Bytes in hexadecimal, two digits a byte, in lower case. -/
def hexEncode (bytes : List UInt8) : List Char :=
  bytes.flatMap fun b => [Nat.digitChar (b.toNat / 16), Nat.digitChar (b.toNat % 16)]

theorem isHex_iff {c : Char} : IsHex c ↔ ∃ d, IsDigit 16 c d := by
  unfold IsHex IsDigit
  simp only [char_le_iff, Char.reduceToNat, digit?_eq_some]
  constructor
  · rintro (h | h | h)
    · exact ⟨c.toNat - 48, by omega⟩
    · exact ⟨c.toNat - 87, by omega⟩
    · exact ⟨c.toNat - 55, by omega⟩
  · rintro ⟨d, h⟩
    omega

/-- A hexadecimal digit is one byte of UTF-8. -/
theorem IsHex.utf8Size {c : Char} (h : IsHex c) : c.utf8Size = 1 := by
  obtain ⟨d, hd, -⟩ := isHex_iff.1 h
  have hle : c.toNat ≤ 127 := by
    have := digit?_eq_some.1 hd
    omega
  exact Char.utf8Size_eq_one_iff.2 (UInt32.le_iff_toNat_le.2 hle)

/-- A digit written back is the digit in lower case. -/
theorem IsDigit.digitChar {c : Char} {d : Nat} (h : IsDigit 16 c d) : Nat.digitChar d = c.toLower := by
  obtain ⟨hd, hlt⟩ := h
  rw [← Char.ofNat_toNat c]
  rcases digit?_eq_some.1 hd with ⟨hge, hle, hval⟩ | ⟨hge, -, hval⟩ | ⟨hge, -, hval⟩
  · have hc : c.toNat = d + 48 := by omega
    have hten : d < 10 := by omega
    rw [hc]
    interval_cases d <;> rfl
  · have hc : c.toNat = d + 87 := by omega
    have hten : 10 ≤ d := by omega
    rw [hc]
    interval_cases d <;> rfl
  · have hc : c.toNat = d + 55 := by omega
    have hten : 10 ≤ d := by omega
    rw [hc]
    interval_cases d <;> rfl

/-- A byte is written as the digits of its halves. -/
theorem hexEncode_cons {x y : Nat} (hx : x < 16) (hy : y < 16) (bytes : List UInt8) :
    hexEncode (UInt8.ofNat (x * 16 + y) :: bytes) = Nat.digitChar x :: Nat.digitChar y :: hexEncode bytes := by
  have hb : (UInt8.ofNat (x * 16 + y)).toNat = x * 16 + y := by
    rw [UInt8.toNat_ofNat', Nat.mod_eq_of_lt (by omega)]
  have hhigh : (x * 16 + y) / 16 = x := by omega
  have hlow : (x * 16 + y) % 16 = y := by omega
  rw [hexEncode, List.flatMap_cons, hb, hhigh, hlow]
  rfl

/-- A byte read from two digits is written as them, in lower case. -/
theorem hexEncode_of_denotes {c d : Char} {n : Nat} (h : Denotes 16 [c, d] n) (bytes : List UInt8) :
    hexEncode (UInt8.ofNat n :: bytes) = c.toLower :: d.toLower :: hexEncode bytes := by
  obtain ⟨-, ds, hds, rfl⟩ := h
  obtain ⟨x, ds, hx, hrest, rfl⟩ := List.forall₂_cons_left_iff.1 hds
  obtain ⟨y, ds, hy, hnil, rfl⟩ := List.forall₂_cons_left_iff.1 hrest
  obtain rfl := List.forall₂_nil_left_iff.1 hnil
  have hval : value 16 0 [x, y] = x * 16 + y := by simp [value]
  rw [hval, hexEncode_cons hx.2 hy.2, hx.digitChar, hy.digitChar]

end Numeral
