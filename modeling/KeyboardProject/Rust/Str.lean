/-
`str`: a sequence of Unicode scalar values whose length and offsets count the bytes of its UTF-8 encoding.
A range that starts or ends inside a character panics.
-/
import Mathlib.Data.List.DropRight
import KeyboardProject.Rust.Slice

namespace Rust

open Outcome

abbrev Str := List Char

namespace Str

/-- `s.len()`. -/
def len (s : Str) : Nat := (s.map Char.utf8Size).sum

/-- The two parts of `s` at a byte offset; there are none where it is no character boundary. -/
def splitAt? : Str → Nat → Option (Str × Str)
  | s, 0 => some ([], s)
  | [], _ + 1 => none
  | c :: s, i + 1 =>
    if c.utf8Size ≤ i + 1 then (splitAt? s (i + 1 - c.utf8Size)).map fun (front, back) => (c :: front, back) else none

/-- `s.is_char_boundary(i)`. -/
def IsCharBoundary (s : Str) (i : Nat) : Prop := (splitAt? s i).isSome = true

instance (s : Str) (i : Nat) : Decidable (IsCharBoundary s i) := inferInstanceAs (Decidable (_ = true))

/-- `&s[i..j]`. -/
def slice {ε : Type} (s : Str) (i j : Nat) : Outcome ε Str :=
  match splitAt? s j with
  | none => panic
  | some (front, _) =>
    match splitAt? front i with
    | none => panic
    | some (_, mid) => ok mid

/-- `char::is_whitespace`: the property `White_Space`. -/
def isWhitespace (c : Char) : Bool :=
  let n := c.toNat
  (0x9 ≤ n && n ≤ 0xD) || n = 0x20 || n = 0x85 || n = 0xA0 || n = 0x1680 || (0x2000 ≤ n && n ≤ 0x200A) || n = 0x2028 ||
    n = 0x2029 || n = 0x202F || n = 0x205F || n = 0x3000

/-- `s.trim()`. -/
def trim (s : Str) : Str := (s.dropWhile isWhitespace).rdropWhile isWhitespace

/-- `s.strip_prefix(p)`. -/
def stripPrefix : Str → Str → Option Str
  | [], s => some s
  | _ :: _, [] => none
  | p :: ps, c :: s => if p = c then stripPrefix ps s else none

/-- `s.splitn(2, sep)`. -/
def splitn2 (sep : Char) (s : Str) : List Str :=
  match s.dropWhile (· != sep) with
  | [] => [s]
  | _ :: rest => [s.takeWhile (· != sep), rest]

/-- `s.split_inclusive('\n')`. -/
def splitInclusive : Str → List Str
  | [] => []
  | c :: s =>
    if c = '\n' then [c] :: splitInclusive s
    else
      match splitInclusive s with
      | [] => [[c]]
      | line :: lines => (c :: line) :: lines

/-- A line without its ending `\n` or `\r\n`. -/
def stripLineEnding (line : Str) : Str :=
  if line.getLast? = some '\n' then
    if line.dropLast.getLast? = some '\r' then line.dropLast.dropLast else line.dropLast
  else line

/-- `s.lines()`. -/
def lines (s : Str) : List Str := (splitInclusive s).map stripLineEnding

/-! ## Offsets -/

@[simp] theorem len_nil : len [] = 0 := rfl
@[simp] theorem len_cons (c : Char) (s : Str) : len (c :: s) = c.utf8Size + len s := rfl
@[simp] theorem len_append (s t : Str) : len (s ++ t) = len s + len t := by simp [len]

theorem len_eq_zero {s : Str} : len s = 0 ↔ s = [] := by
  cases s with
  | nil => simp
  | cons c s => have := c.utf8Size_pos; simp; omega

@[simp] theorem splitAt?_zero (s : Str) : splitAt? s 0 = some ([], s) := by cases s <;> rfl

theorem splitAt?_cons {i : Nat} (h : 0 < i) (c : Char) (s : Str) :
    splitAt? (c :: s) i =
      if c.utf8Size ≤ i then (splitAt? s (i - c.utf8Size)).map fun (front, back) => (c :: front, back) else none := by
  cases i with
  | zero => contradiction
  | succ i => rfl

/-- Splitting behind a front part splits what follows it. -/
theorem splitAt?_append (front s : Str) (i : Nat) :
    splitAt? (front ++ s) (len front + i) = (splitAt? s i).map fun (mid, back) => (front ++ mid, back) := by
  induction front with
  | nil =>
    rw [len_nil, Nat.zero_add]
    exact Option.map_id'.symm
  | cons c front ih =>
    have hpos := c.utf8Size_pos
    have hrest : len (c :: front) + i - c.utf8Size = len front + i := by rw [len_cons]; omega
    rw [List.cons_append, splitAt?_cons (by rw [len_cons]; omega), if_pos (by rw [len_cons]; omega), hrest, ih, Option.map_map]
    rfl

theorem splitAt?_len (front back : Str) : splitAt? (front ++ back) (len front) = some (front, back) := by
  have h := splitAt?_append front back 0
  simpa using h

/-- The parts of a string at an offset: the front one has that many bytes. -/
theorem splitAt?_eq_some {s front back : Str} {i : Nat} :
    splitAt? s i = some (front, back) ↔ s = front ++ back ∧ len front = i := by
  constructor
  · intro h
    induction s generalizing front i with
    | nil =>
      cases i with
      | zero =>
        obtain ⟨rfl, rfl⟩ := Prod.mk.inj (Option.some.inj h)
        exact ⟨rfl, rfl⟩
      | succ i => contradiction
    | cons c s ih =>
      rcases Nat.eq_zero_or_pos i with rfl | hpos
      · rw [splitAt?_zero] at h
        obtain ⟨rfl, rfl⟩ := Prod.mk.inj (Option.some.inj h)
        exact ⟨rfl, rfl⟩
      · rw [splitAt?_cons hpos] at h
        split_ifs at h with hle
        obtain ⟨⟨front', back'⟩, hsplit, heq⟩ := Option.map_eq_some_iff.1 h
        obtain ⟨rfl, rfl⟩ := Prod.mk.inj heq
        obtain ⟨rfl, hlen⟩ := ih hsplit
        exact ⟨rfl, by rw [len_cons]; omega⟩
  · rintro ⟨rfl, rfl⟩
    exact splitAt?_len front back

theorem not_isCharBoundary {s : Str} {i : Nat} : ¬IsCharBoundary s i ↔ splitAt? s i = none := by
  rw [IsCharBoundary, Option.not_isSome_iff_eq_none]

/-- A range that starts behind a front part is cut from what follows it. -/
theorem slice_append {ε : Type} (front s : Str) (k : Nat) :
    (slice (front ++ s) (len front) (len front + k) : Outcome ε Str) =
      match splitAt? s k with
      | none => panic
      | some (mid, _) => ok mid := by
  unfold slice
  rw [splitAt?_append]
  cases splitAt? s k with
  | none => rfl
  | some parts =>
    obtain ⟨mid, back⟩ := parts
    simp only [Option.map_some, splitAt?_len]

/-! ## Trimming -/

theorem trim_pad {u v : Str} (hu : ∀ c ∈ u, isWhitespace c) (hv : ∀ c ∈ v, isWhitespace c) (s : Str) :
    trim (u ++ s ++ v) = trim s := by
  have hdrop : ∀ t : Str, (t ++ v).rdropWhile isWhitespace = t.rdropWhile isWhitespace := by
    intro t
    unfold List.rdropWhile
    rw [List.reverse_append, List.dropWhile_append_of_pos fun c hc => hv c (List.mem_reverse.1 hc)]
  unfold trim
  rw [List.append_assoc, List.dropWhile_append_of_pos hu, List.dropWhile_append]
  split_ifs with hnil
  · -- all of `s` is whitespace too
    rw [List.isEmpty_iff.1 hnil, List.dropWhile_eq_nil_iff.2 hv]
  · exact hdrop _

theorem trim_of_not_whitespace {s : Str} (h : ∀ c ∈ s, ¬isWhitespace c) : trim s = s := by
  have hdrop : s.dropWhile isWhitespace = s := by
    cases s with
    | nil => rfl
    | cons c s => exact List.dropWhile_cons_of_neg (h c (List.mem_cons_self ..))
  rw [trim, hdrop, List.rdropWhile_eq_self_iff]
  exact fun hne => h _ (List.getLast_mem hne)

/-! ## Splitting and prefixes -/

theorem splitn2_of_mem {sep : Char} {s : Str} (h : sep ∈ s) :
    splitn2 sep s = [s.takeWhile (· != sep), (s.dropWhile (· != sep)).tail] := by
  unfold splitn2
  cases hrest : s.dropWhile (· != sep) with
  | nil =>
    have hne := bne_iff_ne.1 (List.dropWhile_eq_nil_iff.1 hrest sep h)
    exact absurd rfl hne
  | cons c rest => rfl

theorem splitn2_of_not_mem {sep : Char} {s : Str} (h : sep ∉ s) : splitn2 sep s = [s] := by
  have hnil : s.dropWhile (· != sep) = [] :=
    List.dropWhile_eq_nil_iff.2 fun c hc => bne_iff_ne.2 fun heq => h (heq ▸ hc)
  rw [splitn2, hnil]

theorem splitn2_append {sep : Char} {s : Str} (h : sep ∉ s) (rest : Str) : splitn2 sep (s ++ sep :: rest) = [s, rest] := by
  have hne : ∀ c ∈ s, (c != sep) = true := fun c hc => bne_iff_ne.2 fun heq => h (heq ▸ hc)
  rw [splitn2_of_mem (by simp), List.takeWhile_append_of_pos hne, List.dropWhile_append_of_pos hne]
  simp

theorem eq_of_stripPrefix {p s rest : Str} (h : stripPrefix p s = some rest) : s = p ++ rest := by
  induction p generalizing s with
  | nil => exact Option.some.inj h
  | cons c p ih =>
    cases s with
    | nil => contradiction
    | cons d s =>
      unfold stripPrefix at h
      split_ifs at h with heq
      rw [heq, ih h]
      rfl

/-! ## Lines -/

theorem splitInclusive_append {line : Str} (h : '\n' ∉ line) (rest : Str) :
    splitInclusive (line ++ '\n' :: rest) = (line ++ ['\n']) :: splitInclusive rest := by
  induction line with
  | nil => rfl
  | cons c line ih =>
    rw [List.mem_cons, not_or] at h
    rw [List.cons_append, splitInclusive, if_neg (Ne.symm h.1), ih h.2]
    rfl

/-- A text begins with its first line, when that does not end in a carriage return. -/
theorem lines_append {line : Str} (h : '\n' ∉ line) (hend : line.getLast? ≠ some '\r') (rest : Str) :
    lines (line ++ '\n' :: rest) = line :: lines rest := by
  unfold lines
  rw [splitInclusive_append h, List.map_cons]
  simp [stripLineEnding, hend]

end Str

end Rust
