/-
Numbers written out, most significant digit first and padded with zeros to a width. What is written denotes its
number, so it reads back, also when more text follows.
-/
import KeyboardProject.Lib.Numeral

namespace Numeral

/-- `n` in the radix, at least `width` digits long. -/
def digits (radix width n : Nat) : List Char := (Nat.toDigits radix n).leftpad width '0'

/-! ## What a numeral denotes -/

theorem value_append (radix acc : Nat) (ds : List Nat) (d : Nat) :
    value radix acc (ds ++ [d]) = value radix acc ds * radix + d := by
  simp [value, List.foldl_append]

/-- A numeral has one value. -/
theorem Denotes.unique {radix n m : Nat} {cs : List Char} (hn : Denotes radix cs n) (hm : Denotes radix cs m) : n = m := by
  obtain ⟨-, ds, hds, rfl⟩ := hn
  obtain ⟨-, ds', hds', rfl⟩ := hm
  have heq : ds = ds' := by
    induction hds generalizing ds' with
    | nil => exact (List.forall₂_nil_left_iff.1 hds').symm
    | cons hd _ ih =>
      obtain ⟨d', ds', hd', hrest, rfl⟩ := List.forall₂_cons_left_iff.1 hds'
      rw [Option.some.inj (hd.1.symm.trans hd'.1), ih _ hrest]
  rw [heq]

/-- A numeral goes on with one more digit. -/
theorem Denotes.concat {radix n d : Nat} {cs : List Char} {c : Char} (h : Denotes radix cs n) (hd : IsDigit radix c d) :
    Denotes radix (cs ++ [c]) (n * radix + d) := by
  obtain ⟨-, ds, hds, rfl⟩ := h
  exact ⟨by simp, ds ++ [d], List.rel_append hds (.cons hd .nil), (value_append radix 0 ds d).symm⟩

theorem denotes_single {radix d : Nat} {c : Char} (hd : IsDigit radix c d) : Denotes radix [c] d :=
  ⟨List.cons_ne_nil _ _, [d], .cons hd .nil, by simp [value]⟩

/-- Zeros in front leave the value as it is. -/
theorem Denotes.zeros {radix n : Nat} {cs : List Char} (h : Denotes radix cs n) (k : Nat) :
    Denotes radix (List.replicate k '0' ++ cs) n := by
  obtain ⟨hne, ds, hds, rfl⟩ := h
  have hradix : 0 < radix := by
    obtain ⟨c, cs, rfl⟩ := List.exists_cons_of_ne_nil hne
    obtain ⟨d, ds, hd, -, rfl⟩ := List.forall₂_cons_left_iff.1 hds
    exact Nat.zero_lt_of_lt hd.2
  refine ⟨by simp [hne], List.replicate k 0 ++ ds, List.rel_append ?_ hds, ?_⟩
  · induction k with
    | zero => exact .nil
    | succ k ih => exact .cons ⟨rfl, hradix⟩ ih
  · induction k with
    | zero => rfl
    | succ k ih =>
      rw [ih, List.replicate_succ]
      simp [value]

/-! ## Writing -/

theorem isDigit_digitChar {radix d : Nat} (hradix : radix ≤ 16) (hd : d < radix) : IsDigit radix (Nat.digitChar d) d := by
  refine ⟨?_, hd⟩
  have hlt : d < 16 := by omega
  interval_cases d <;> rfl

theorem denotes_toDigits {radix : Nat} (hlow : 1 < radix) (hhigh : radix ≤ 16) (n : Nat) :
    Denotes radix (Nat.toDigits radix n) n := by
  induction n using Nat.strong_induction_on with
  | _ n ih =>
    rw [Nat.toDigits_eq_if hlow]
    split_ifs with hlt
    · exact denotes_single (isDigit_digitChar hhigh hlt)
    · have hdiv := ih (n / radix) (Nat.div_lt_self (by omega) hlow)
      have h := hdiv.concat (isDigit_digitChar hhigh (Nat.mod_lt n (by omega)))
      rwa [Nat.div_add_mod'] at h

/-- What is written denotes the number. -/
theorem denotes_digits {radix : Nat} (hlow : 1 < radix) (hhigh : radix ≤ 16) (width n : Nat) :
    Denotes radix (digits radix width n) n :=
  (denotes_toDigits hlow hhigh n).zeros _

/-- A character that is no digit of any radix up to 16 ends a numeral. -/
def Ends (radix : Nat) (c : Char) : Prop := ∀ d, ¬IsDigit radix c d

theorem ends_iff {radix : Nat} {c : Char} : Ends radix c ↔ ∀ d ∈ digit? c, radix ≤ d := by
  unfold Ends IsDigit
  constructor
  · intro h d hd
    exact Nat.not_lt.1 fun hlt => h d ⟨hd, hlt⟩
  · rintro h d ⟨hd, hlt⟩
    exact absurd (h d hd) (Nat.not_le.2 hlt)

instance (radix : Nat) (c : Char) : Decidable (Ends radix c) :=
  match hc : digit? c with
  | none => isTrue (ends_iff.2 (by rw [hc]; exact fun _ h => by cases h))
  | some d => decidable_of_iff (radix ≤ d) (by rw [ends_iff, hc]; simp)

/-- Two texts that begin alike and end their beginnings alike are alike throughout. -/
theorem append_cons_inj {α : Type*} {P : α → Prop} {a b : List α} {c d : α} {r s : List α} (ha : ∀ x ∈ a, P x)
    (hb : ∀ x ∈ b, P x) (hc : ¬P c) (hd : ¬P d) (h : a ++ c :: r = b ++ d :: s) : a = b ∧ c = d ∧ r = s := by
  induction a generalizing b with
  | nil =>
    cases b with
    | nil => exact ⟨rfl, List.cons.inj h⟩
    | cons y b => exact absurd ((List.cons.inj h).1 ▸ hb y (List.mem_cons_self ..)) hc
  | cons x a ih =>
    cases b with
    | nil => exact absurd ((List.cons.inj h).1 ▸ ha x (List.mem_cons_self ..)) hd
    | cons y b =>
      obtain ⟨hxy, hrest⟩ := List.cons.inj h
      obtain ⟨hab, hcd⟩ := ih (fun z hz => ha z (List.mem_cons_of_mem x hz)) (fun z hz => hb z (List.mem_cons_of_mem y hz)) hrest
      exact ⟨by rw [hxy, hab], hcd⟩

/-- The text goes on with a character that ends a numeral. -/
def Stops (radix : Nat) (rest : List Char) : Prop := ∃ c ∈ rest.head?, Ends radix c

/-- A written number and what follows it can be told apart. -/
theorem digits_append_inj {radix : Nat} (hlow : 1 < radix) (hhigh : radix ≤ 16) {width n m : Nat} {r s : List Char}
    (hr : Stops radix r) (hs : Stops radix s) (h : digits radix width n ++ r = digits radix width m ++ s) : n = m ∧ r = s := by
  obtain ⟨c, hc, hcends⟩ := hr
  obtain ⟨d, hd, hdends⟩ := hs
  obtain ⟨r, rfl⟩ := List.head?_eq_some_iff.1 hc
  obtain ⟨s, rfl⟩ := List.head?_eq_some_iff.1 hd
  have hdigits := fun k => (denotes_digits hlow hhigh width k).isDigit
  obtain ⟨heq, rfl, rfl⟩ :=
    append_cons_inj (hdigits n) (hdigits m) (fun ⟨v, hv⟩ => hcends v hv) (fun ⟨v, hv⟩ => hdends v hv) h
  exact ⟨(denotes_digits hlow hhigh width n).unique (heq ▸ denotes_digits hlow hhigh width m), rfl⟩

end Numeral
