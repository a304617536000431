/-
`format!` of unsigned integers: `{}`, `{:0..x}` and `{:#0..x}`. What is written reads back.
-/
import KeyboardProject.Lib.Printing
import KeyboardProject.Rust.Parse

namespace Rust

open Numeral

/-- `{}` of an unsigned integer. -/
def fmtDec (n : Nat) : Str := digits 10 0 n

/-- `{:0..x}` of a width. -/
def fmtHex (width n : Nat) : Str := digits 16 width n

/-- `{:#0..x}` of a width, which counts the prefix. -/
def fmtPrefixedHex (width n : Nat) : Str := '0' :: 'x' :: digits 16 (width - 2) n

theorem denotes_fmtDec (n : Nat) : Denotes 10 (fmtDec n) n := denotes_digits (by decide) (by decide) 0 n

theorem fmtDec_eq (n : Nat) : fmtDec n = Nat.toDigits 10 n := by
  rw [fmtDec, digits, List.leftpad, Nat.zero_sub]
  rfl

theorem fmtDec_inj {n m : Nat} (h : fmtDec n = fmtDec m) : n = m := (denotes_fmtDec n).unique (h ▸ denotes_fmtDec m)

/-- The characters of a decimal number are ASCII digits. -/
theorem mem_fmtDec {n : Nat} {c : Char} (h : c ∈ fmtDec n) : 48 ≤ c.toNat ∧ c.toNat ≤ 57 := by
  obtain ⟨d, hd, hlt⟩ := (denotes_fmtDec n).isDigit c h
  have := digit?_eq_some.1 hd
  omega

theorem fmtDec_append_inj {n m : Nat} {r s : Str} (hr : Stops 10 r) (hs : Stops 10 s) (h : fmtDec n ++ r = fmtDec m ++ s) :
    n = m ∧ r = s :=
  digits_append_inj (by decide) (by decide) hr hs h

theorem fmtHex_append_inj {width n m : Nat} {r s : Str} (hr : Stops 16 r) (hs : Stops 16 s)
    (h : fmtHex width n ++ r = fmtHex width m ++ s) : n = m ∧ r = s :=
  digits_append_inj (by decide) (by decide) hr hs h

end Rust
