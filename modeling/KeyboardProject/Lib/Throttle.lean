/-
A throttle: a counter that grows by the same amount every turn, up to a limit, and starts again from nothing when a
turn is ready and the counter has grown far enough. It fires on the first ready turn that is far enough behind the
turn before it that fired.
-/
import KeyboardProject.Lib.Machine

namespace Throttle

variable {T d limit : Nat}

/-- The counter, with its threshold `T`, its growth `d` and its limit. The event says whether the turn is ready, the
output whether it fires. -/
def counter (T d limit : Nat) : Machine Nat Bool Bool where
  step c ready := (min limit ((if ready = true ∧ T ≤ c then 0 else c) + d), [decide (ready = true ∧ T ≤ c)])

/-- The turns since the latest one that fired, that one counted, or since the start. -/
def age (fired : List Bool) : Nat := fired.foldl (fun a f => if f then 1 else a + 1) 0

theorem age_concat (fired : List Bool) (f : Bool) : age (fired ++ [f]) = if f then 1 else age fired + 1 := by
  simp [age]

/-- The counter is the age in its own units, cut at the limit. -/
theorem run_counter (ready : List Bool) :
    ((counter T d limit).run 0 ready).1 = min limit (d * age ((counter T d limit).run 0 ready).2) := by
  induction ready using List.reverseRecOn with
  | nil => simp [age]
  | append_singleton ready r ih =>
    rw [Machine.run_concat, ih]
    simp only [counter, age_concat, decide_eq_true_eq]
    split_ifs
    · rw [Nat.zero_add, Nat.mul_one]
    · rw [Nat.mul_add, Nat.mul_one]
      omega

/-! ## Turns that are all ready -/

/-- The counter after `n` turns that are all ready, when it grows by one. -/
def phase (T n : Nat) : Nat := if n = 0 then 0 else (n - 1) % T + 1

theorem phase_succ_eq (T n : Nat) : phase T (n + 1) = n % T + 1 := by simp [phase]

theorem phase_le (hT : 0 < T) (n : Nat) : phase T n ≤ T := by
  unfold phase
  split_ifs
  · exact Nat.zero_le T
  · exact Nat.mod_lt _ hT

/-- Such a turn fires when its number is a multiple of the threshold. -/
theorem phase_ge (hT : 0 < T) (n : Nat) : T ≤ phase T n ↔ 0 < n ∧ n % T = 0 := by
  cases n with
  | zero => exact iff_of_false (Nat.not_le.2 hT) (fun h => Nat.lt_irrefl 0 h.1)
  | succ n =>
    obtain ⟨t, rfl⟩ : ∃ t, T = t + 1 := ⟨T - 1, by omega⟩
    have hlt := Nat.mod_lt n hT
    rw [phase_succ_eq, and_iff_right (Nat.succ_pos n), Nat.succ_mod_succ_eq_zero_iff]
    omega

theorem phase_succ (hT : 0 < T) (n : Nat) : phase T (n + 1) = (if 0 < n ∧ n % T = 0 then 0 else phase T n) + 1 := by
  rw [phase_succ_eq]
  split_ifs with hfires
  · rw [hfires.2]
  · cases n with
    | zero => rw [Nat.zero_mod]; rfl
    | succ n =>
      have hge := mt (phase_ge hT (n + 1)).1 hfires
      rw [phase_succ_eq] at hge ⊢
      rw [← Nat.mod_add_mod, Nat.mod_eq_of_lt (Nat.not_le.1 hge)]

end Throttle
