/-
Streaks: how often a list's last value stands at its end in a row, and how that number moves when a
value is appended.
-/
import Mathlib.Tactic

namespace Streak

variable {α : Type*}

theorem replicate_suffix_concat {n : Nat} {x y : α} {l : List α} :
    List.replicate (n + 1) x <:+ l ++ [y] ↔ y = x ∧ List.replicate n x <:+ l := by
  rw [List.suffix_concat_iff, List.replicate_succ']
  constructor
  · rintro (h | ⟨t, h, hs⟩)
    · simp at h
    · obtain ⟨rfl, hd⟩ := List.append_inj' h rfl
      exact ⟨(List.cons.inj hd).1.symm, hs⟩
  · rintro ⟨rfl, hs⟩
    exact Or.inr ⟨_, rfl, hs⟩

theorem replicate_suffix_mono {m n : Nat} (h : m ≤ n) {x : α} {l : List α} (hs : List.replicate n x <:+ l) :
    List.replicate m x <:+ l := by
  refine List.IsSuffix.trans ?_ hs
  rw [← Nat.sub_add_cancel h, List.replicate_add]
  exact List.suffix_append _ _

/-- A streak that is longer than what was appended reaches back before it. -/
theorem replicate_suffix_of_append {n : Nat} {x : α} {l l' : List α} (h : List.replicate n x <:+ l ++ l') :
    List.replicate (n - l'.length) x <:+ l := by
  by_cases hn : n ≤ l'.length
  · rw [Nat.sub_eq_zero_of_le hn]; exact List.nil_suffix
  · obtain ⟨t, ht⟩ := h
    rw [← Nat.sub_add_cancel (show l'.length ≤ n by omega), List.replicate_add, ← List.append_assoc] at ht
    exact ⟨t, (List.append_inj' ht (by simp)).1⟩

/-- Two streaks of one list are of one value. -/
theorem eq_of_replicate_suffix {m n : Nat} (hm : 0 < m) (hn : 0 < n) {x y : α} {l : List α}
    (hx : List.replicate m x <:+ l) (hy : List.replicate n y <:+ l) : x = y := by
  have h1 := replicate_suffix_mono (show 1 ≤ m by omega) hx
  have h2 := replicate_suffix_mono (show 1 ≤ n by omega) hy
  have h := List.suffix_of_suffix_length_le h1 h2 (by simp)
  obtain ⟨t, ht⟩ := h
  have hnil : t = [] := by simpa using congrArg List.length ht
  rw [hnil] at ht
  exact (List.cons.inj ht).1

end Streak
