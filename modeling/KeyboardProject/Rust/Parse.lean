/-
Integers read from text: `char::to_digit`, and `from_str_radix` and `parse` of the unsigned types. A
numeral may carry a plus sign.
-/
import KeyboardProject.Lib.Numeral
import KeyboardProject.Rust.Str

namespace Rust

open Numeral

/-- The kinds of `ParseIntError` that an unsigned type can give. -/
inductive IntErrorKind where
  | empty
  | invalidDigit
  | posOverflow
  deriving DecidableEq, Repr

/-- The text of the error. -/
def IntErrorKind.toString : IntErrorKind → String
  | .empty => "cannot parse integer from empty string"
  | .invalidDigit => "invalid digit found in string"
  | .posOverflow => "number too large to fit in target type"

/-- `c.to_digit(radix)`. -/
def toDigit (c : Char) (radix : Nat) : Option Nat := (digit? c).filter (· < radix)

/-- The loop of `from_str_radix` over the digits, at a type with the largest value `max`. -/
def digitLoop (max radix : Nat) : Nat → Str → Except IntErrorKind Nat
  | result, [] => .ok result
  | result, c :: digits =>
    match toDigit c radix with
    | none => .error .invalidDigit
    | some d =>
      if result * radix + d ≤ max then digitLoop max radix (result * radix + d) digits else .error .posOverflow

/-- `from_str_radix` of an unsigned type, for a radix from 2 to 36. -/
def fromStrRadix (max : Nat) (src : Str) (radix : Nat) : Except IntErrorKind Nat :=
  match src with
  | [] => .error .empty
  | ['+'] => .error .invalidDigit
  | ['-'] => .error .invalidDigit
  | '+' :: digits => digitLoop max radix 0 digits
  | digits => digitLoop max radix 0 digits

/-- `u8::from_str_radix`. -/
def u8FromStrRadix (src : Str) (radix : Nat) : Except IntErrorKind UInt8 :=
  (fromStrRadix 255 src radix).map UInt8.ofNat

/-- `u32::from_str_radix`. -/
def u32FromStrRadix (src : Str) (radix : Nat) : Except IntErrorKind UInt32 :=
  (fromStrRadix (2 ^ 32 - 1) src radix).map UInt32.ofNat

/-- `src.parse::<u32>()`. -/
def u32Parse (src : Str) : Except IntErrorKind UInt32 := u32FromStrRadix src 10

/-! ## What is read -/

theorem toDigit_eq_some {c : Char} {radix d : Nat} : toDigit c radix = some d ↔ IsDigit radix c d := by
  unfold toDigit IsDigit
  rw [Option.filter_eq_some_iff, decide_eq_true_iff]

theorem not_isDigit_plus {radix d : Nat} : ¬IsDigit radix '+' d := fun h => nomatch h.1
theorem not_isDigit_minus {radix d : Nat} : ¬IsDigit radix '-' d := fun h => nomatch h.1

/-- The loop reads digits, as long as their value fits. -/
theorem digitLoop_eq_ok {max radix acc n : Nat} (hradix : 0 < radix) (hacc : acc ≤ max) {s : Str} :
    digitLoop max radix acc s = .ok n ↔ ∃ ds, List.Forall₂ (IsDigit radix) s ds ∧ n = value radix acc ds ∧ n ≤ max := by
  induction s generalizing acc with
  | nil =>
    constructor
    · intro h
      obtain rfl := Except.ok.inj h
      exact ⟨[], List.Forall₂.nil, rfl, hacc⟩
    · rintro ⟨ds, hds, rfl, -⟩
      rw [List.forall₂_nil_left_iff.1 hds]
      rfl
  | cons c s ih =>
    unfold digitLoop
    cases hdigit : toDigit c radix with
    | none =>
      refine iff_of_false nofun ?_
      rintro ⟨ds, hds, -⟩
      obtain ⟨d, ds, hd, -, rfl⟩ := List.forall₂_cons_left_iff.1 hds
      rw [toDigit_eq_some.2 hd] at hdigit
      contradiction
    | some d =>
      have hd := toDigit_eq_some.1 hdigit
      dsimp only
      split_ifs with hfits
      · rw [ih hfits]
        constructor
        · rintro ⟨ds, hds, hn⟩
          exact ⟨d :: ds, List.Forall₂.cons hd hds, hn⟩
        · rintro ⟨ds, hds, hn⟩
          obtain ⟨d', ds, hd', hrest, rfl⟩ := List.forall₂_cons_left_iff.1 hds
          obtain rfl : d' = d := Option.some.inj (hd'.1.symm.trans hd.1)
          exact ⟨ds, hrest, hn⟩
      · -- the value only grows from here
        refine iff_of_false nofun ?_
        rintro ⟨ds, hds, rfl, hle⟩
        obtain ⟨d', ds, hd', -, rfl⟩ := List.forall₂_cons_left_iff.1 hds
        obtain rfl : d' = d := Option.some.inj (hd'.1.symm.trans hd.1)
        exact hfits ((le_value hradix (acc * radix + d') ds).trans hle)

theorem digitLoop_zero_eq_ok {max radix n : Nat} (hradix : 0 < radix) {digits : Str} (hne : digits ≠ []) :
    digitLoop max radix 0 digits = .ok n ↔ Denotes radix digits n ∧ n ≤ max := by
  rw [digitLoop_eq_ok hradix (Nat.zero_le _)]
  constructor
  · rintro ⟨ds, hds, hn, hle⟩
    exact ⟨⟨hne, ds, hds, hn⟩, hle⟩
  · rintro ⟨⟨-, ds, hds, hn⟩, hle⟩
    exact ⟨ds, hds, hn, hle⟩

theorem not_denotes_plus {radix n : Nat} {s : Str} : ¬Denotes radix ('+' :: s) n := by
  intro h
  obtain ⟨d, hd⟩ := h.isDigit '+' (List.mem_cons_self ..)
  exact not_isDigit_plus hd

/-- `from_str_radix` reads a numeral that fits, with or without a plus sign. -/
theorem fromStrRadix_eq_ok {max radix n : Nat} (hradix : 0 < radix) {src : Str} :
    fromStrRadix max src radix = .ok n ↔
      ∃ digits, (src = digits ∨ src = '+' :: digits) ∧ Denotes radix digits n ∧ n ≤ max := by
  unfold fromStrRadix
  split
  · refine iff_of_false nofun ?_
    rintro ⟨digits, rfl | h, ⟨hne, -⟩, -⟩
    · exact hne rfl
    · contradiction
  · refine iff_of_false nofun ?_
    rintro ⟨digits, rfl | h, hdenotes, -⟩
    · exact not_denotes_plus hdenotes
    · exact hdenotes.1 (List.cons.inj h).2.symm
  · refine iff_of_false nofun ?_
    rintro ⟨digits, rfl | h, hdenotes, -⟩
    · obtain ⟨d, hd⟩ := hdenotes.isDigit '-' (List.mem_cons_self ..)
      exact not_isDigit_minus hd
    · exact absurd (List.cons.inj h).1 (by decide)
  · rename_i digits hplus
    have hne : digits ≠ [] := fun hnil => hplus (by rw [hnil])
    rw [digitLoop_zero_eq_ok hradix hne]
    constructor
    · exact fun h => ⟨digits, Or.inr rfl, h⟩
    · rintro ⟨digits', rfl | h, hdenotes⟩
      · exact absurd hdenotes.1 not_denotes_plus
      · rwa [(List.cons.inj h).2]
  · rename_i hnil _ _ hplus
    rw [digitLoop_zero_eq_ok hradix hnil]
    constructor
    · exact fun h => ⟨src, Or.inl rfl, h⟩
    · rintro ⟨digits, rfl | h, hdenotes⟩
      · exact hdenotes
      · exact absurd h (hplus digits)

theorem u8FromStrRadix_eq_ok {src : Str} {radix : Nat} {b : UInt8} :
    u8FromStrRadix src radix = .ok b ↔ ∃ n, fromStrRadix 255 src radix = .ok n ∧ UInt8.ofNat n = b := by
  unfold u8FromStrRadix
  cases fromStrRadix 255 src radix with
  | ok n => simp [Except.map]
  | error e => simp [Except.map]

theorem u32FromStrRadix_of_denotes {digits : Str} {radix : Nat} {value : UInt32} (hradix : 0 < radix)
    (h : Denotes radix digits value.toNat) : u32FromStrRadix digits radix = .ok value := by
  have hlt := value.toNat_lt
  have hread := (@fromStrRadix_eq_ok (2 ^ 32 - 1) radix value.toNat hradix digits).2 ⟨digits, Or.inl rfl, h, by omega⟩
  rw [u32FromStrRadix, hread]
  exact congrArg Except.ok UInt32.ofNat_toNat

end Rust
