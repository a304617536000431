/-
A receiver that accepts a number ahead of its last accepted one by at most `W`, and a sender that
numbers consecutively over a channel that loses some of the numbers. The distance from the last
accepted number to the next one sent is all there is to the state: `W` losses in a row push it out
of the window, and from then on it never comes back.
-/
import KeyboardProject.Lib.Streak

namespace Window

open Streak

/-- `c` is ahead of `last`, by at most `W`. -/
def Ahead (W last c : Nat) : Prop := last < c ∧ c ≤ last + W

instance (W last c : Nat) : Decidable (Ahead W last c) := inferInstanceAs (Decidable (_ ∧ _))

/-- The distance from the last accepted number to the next one sent, after packets that were
delivered (`true`) or lost (`false`). -/
def gap (W g : Nat) : List Bool → Nat
  | [] => g
  | delivered :: ds => gap W (if delivered = true ∧ g ≤ W then 1 else g + 1) ds

theorem gap_concat (W g : Nat) (ds : List Bool) (d : Bool) :
    gap W g (ds ++ [d]) = if d = true ∧ gap W g ds ≤ W then 1 else gap W g ds + 1 := by
  induction ds generalizing g with
  | nil => rfl
  | cons d' ds ih => exact ih _

/-- `W` packets in a row were lost. -/
def Burst (W : Nat) (ds : List Bool) : Prop := List.replicate W false <:+: ds

instance (W : Nat) (ds : List Bool) : Decidable (Burst W ds) := inferInstanceAs (Decidable (_ <:+: _))

theorem burst_concat {W : Nat} (hW : 0 < W) {ds : List Bool} {d : Bool} :
    Burst W (ds ++ [d]) ↔ (d = false ∧ List.replicate (W - 1) false <:+ ds) ∨ Burst W ds := by
  obtain ⟨n, rfl⟩ : ∃ n, W = n + 1 := ⟨W - 1, by omega⟩
  rw [Burst, List.infix_concat_iff, replicate_suffix_concat]
  rfl

/-- Starting in step, the gap counts the losses at the end of the run until a burst, and stays
outside the window after it. -/
theorem gap_spec {W : Nat} (hW : 0 < W) (ds : List Bool) :
    (Burst W ds ∧ W < gap W 1 ds) ∨
      (¬Burst W ds ∧ gap W 1 ds ≤ W ∧ ∀ n, List.replicate n false <:+ ds ↔ n < gap W 1 ds) := by
  induction ds using List.reverseRecOn with
  | nil =>
    right
    refine ⟨?_, hW, fun n => ?_⟩
    · rw [Burst, List.infix_nil, List.replicate_eq_nil_iff]; omega
    · rw [List.suffix_nil, List.replicate_eq_nil_iff]; simp [gap]
  | append_singleton ds d ih =>
    rw [gap_concat, burst_concat hW]
    rcases ih with ⟨hb, hg⟩ | ⟨hb, hg, htail⟩
    · -- after a burst the gap only grows
      left
      rw [if_neg (by omega)]
      exact ⟨Or.inr hb, by omega⟩
    · -- no burst yet: the losses at the end decide
      have hsuffix : ∀ n, List.replicate n false <:+ ds ++ [d] ↔ n = 0 ∨ (d = false ∧ n - 1 < gap W 1 ds) := by
        intro n
        cases n with
        | zero => simp
        | succ n => rw [replicate_suffix_concat, htail]; simp
      cases d with
      | true =>
        right
        rw [if_pos ⟨rfl, hg⟩]
        refine ⟨by simp [hb], by omega, fun n => ?_⟩
        rw [hsuffix]; simp
      | false =>
        rw [if_neg (by simp), htail]
        by_cases hfull : gap W 1 ds = W
        · left; exact ⟨Or.inl ⟨rfl, by omega⟩, by omega⟩
        · right
          refine ⟨?_, by omega, fun n => ?_⟩
          · rintro (⟨-, h⟩ | h)
            · omega
            · exact hb h
          · rw [hsuffix]; simp; omega

/-- The next number is in the window exactly as long as no `W` packets in a row were lost. -/
theorem gap_le_iff {W : Nat} (hW : 0 < W) (ds : List Bool) : gap W 1 ds ≤ W ↔ ¬Burst W ds := by
  rcases gap_spec hW ds with ⟨hb, hg⟩ | ⟨hb, hg, -⟩
  · simp [hb]; omega
  · simp [hb, hg]

theorem one_le_gap (W : Nat) {g : Nat} (hg : 1 ≤ g) (ds : List Bool) : 1 ≤ gap W g ds := by
  induction ds generalizing g with
  | nil => exact hg
  | cons d ds ih =>
    apply ih
    split_ifs <;> omega

end Window
