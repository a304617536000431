/-
Debouncing: a value is accepted once it has been sampled `n` times in a row. The debouncer keeps the last
sample, how often it has come in a row (up to `n`) and the accepted value; what it accepts is the value
of the most recent window of `n` equal samples.
-/
import KeyboardProject.Lib.Streak

namespace Debounce

open Streak

variable {α : Type*}

/-- `v` is the value of the most recent window of `n` equal samples. -/
def Settled (n : Nat) (hist : List α) (v : α) : Prop :=
  ∃ before after, hist = before ++ List.replicate n v ++ after ∧
    ∀ w, ¬List.replicate n w <:+: List.replicate (n - 1) v ++ after

theorem settled_replicate {n : Nat} (hn : 0 < n) (v : α) : Settled n (List.replicate n v) v := by
  refine ⟨[], [], by simp, fun w h => ?_⟩
  have := h.length_le
  simp at this
  omega

theorem settled_of_suffix {n : Nat} (hn : 0 < n) {hist : List α} {v : α} (h : List.replicate n v <:+ hist) :
    Settled n hist v := by
  obtain ⟨before, rfl⟩ := h
  refine ⟨before, [], by simp, fun w h => ?_⟩
  have := h.length_le
  simp at this
  omega

/-- A window at the end is the most recent one. -/
theorem Settled.eq_of_suffix {n : Nat} (hn : 0 < n) {hist : List α} {v x : α} (h : Settled n hist v)
    (hx : List.replicate n x <:+ hist) : v = x := by
  obtain ⟨before, after, rfl, hlater⟩ := h
  cases after with
  | nil => exact eq_of_replicate_suffix hn hn (List.suffix_append _ _) (by simpa using hx)
  | cons y after =>
    -- the end of the list, from the second value of the earlier window on, holds the later one
    have hend : List.replicate (n - 1) v ++ y :: after <:+ before ++ List.replicate n v ++ y :: after := by
      obtain ⟨m, rfl⟩ : ∃ m, n = m + 1 := ⟨n - 1, by omega⟩
      exact ⟨before ++ [v], by simp [List.replicate_succ]⟩
    have hle : (List.replicate n x).length ≤ (List.replicate (n - 1) v ++ y :: after).length := by
      simp; omega
    exact absurd (List.suffix_of_suffix_length_le hx hend hle).isInfix (hlater x)

/-- A sample that does not complete a window leaves the most recent one where it is. -/
theorem Settled.concat {n : Nat} {hist : List α} {v x : α} (h : Settled n hist v)
    (hx : ¬List.replicate n x <:+ hist ++ [x]) : Settled n (hist ++ [x]) v := by
  obtain ⟨before, after, rfl, hlater⟩ := h
  refine ⟨before, after ++ [x], by simp, fun w hw => ?_⟩
  rw [← List.append_assoc, List.infix_concat_iff] at hw
  rcases hw with hw | hw
  · -- a window at the end ends in `x`, so it is one of `x`
    cases n with
    | zero => exact hx (List.nil_suffix)
    | succ n =>
      have hwx : x = w := (replicate_suffix_concat.1 hw).1
      rw [hwx] at hx
      refine hx (hw.trans ?_)
      rw [hwx, List.replicate_succ, Nat.add_sub_cancel]
      exact ⟨before ++ [v], by simp⟩
  · exact hlater w hw

theorem Settled.of_concat {n : Nat} (hn : 0 < n) {hist : List α} {v x : α} (h : Settled n (hist ++ [x]) v)
    (hx : ¬List.replicate n x <:+ hist ++ [x]) : Settled n hist v := by
  obtain ⟨before, after, heq, hlater⟩ := h
  cases after using List.reverseRecOn with
  | nil =>
    obtain ⟨m, rfl⟩ : ∃ m, n = m + 1 := ⟨n - 1, by omega⟩
    have hs : List.replicate (m + 1) v <:+ hist ++ [x] := ⟨before, by rw [heq, List.append_nil]⟩
    obtain rfl : x = v := (replicate_suffix_concat.1 hs).1
    exact absurd hs hx
  | append_singleton after y =>
    rw [← List.append_assoc] at heq hlater
    obtain ⟨hhist, -⟩ := List.append_inj' heq rfl
    exact ⟨before, after, hhist, fun w hw => hlater w (hw.trans (List.prefix_append _ _).isInfix)⟩

theorem not_settled_nil {n : Nat} (hn : 0 < n) (v : α) : ¬Settled n [] v := by
  rintro ⟨before, after, heq, -⟩
  have := congrArg List.length heq
  simp at this
  omega

/-- A window is the most recent one for fewer than `n` further samples, whatever they are. -/
theorem settled_append {n : Nat} {hist : List α} {v : α} (hv : List.replicate n v <:+ hist) {xs : List α}
    (hlen : xs.length < n) : Settled n (hist ++ xs) v := by
  induction xs using List.reverseRecOn with
  | nil => rw [List.append_nil]; exact settled_of_suffix hlen hv
  | append_singleton xs x ih =>
    rw [List.length_append, List.length_singleton] at hlen
    rw [← List.append_assoc]
    by_cases hs : List.replicate n x <:+ hist ++ xs ++ [x]
    · -- a window at the end reaches back into the one before
      have hback := replicate_suffix_of_append (List.append_assoc hist xs [x] ▸ hs)
      rw [List.length_append, List.length_singleton] at hback
      obtain rfl : x = v := eq_of_replicate_suffix (by omega) (by omega) hback hv
      exact settled_of_suffix (by omega) hs
    · exact (ih (by omega)).concat hs

/-- There is one most recent window. -/
theorem Settled.unique {n : Nat} (hn : 0 < n) {hist : List α} {v w : α} (hv : Settled n hist v)
    (hw : Settled n hist w) : v = w := by
  induction hist using List.reverseRecOn with
  | nil => exact absurd hv (not_settled_nil hn v)
  | append_singleton hist x ih =>
    by_cases hs : List.replicate n x <:+ hist ++ [x]
    · rw [hv.eq_of_suffix hn hs, hw.eq_of_suffix hn hs]
    · exact ih (hv.of_concat hn hs) (hw.of_concat hn hs)

/-- The state of a debouncer. -/
structure Debouncer (α : Type*) where
  sample : α
  count : Nat
  accepted : α

/-- A debouncer that has seen `v` long enough. -/
def Debouncer.steady (n : Nat) (v : α) : Debouncer α := { sample := v, count := n, accepted := v }

/-- What a debouncer knows of the samples so far: the last one, how often it came in a row, up to `n`,
and the value of the most recent window. -/
structure Knows (n : Nat) (hist : List α) (f : Debouncer α) : Prop where
  count_pos : 1 ≤ f.count
  count_le : f.count ≤ n
  streak : ∀ k ≤ n, List.replicate k f.sample <:+ hist ↔ k ≤ f.count
  settled : Settled n hist f.accepted

theorem knows_steady {n : Nat} (hn : 0 < n) (v : α) : Knows n (List.replicate n v) (Debouncer.steady n v) where
  count_pos := hn
  count_le := le_rfl
  streak _ hk := iff_of_true (replicate_suffix_mono hk (List.suffix_refl _)) hk
  settled := settled_replicate hn v

/-! ## One sample -/

variable [DecidableEq α] {n : Nat} {hist : List α} {f : Debouncer α}

/-- The effect of one sample. -/
def Debouncer.step (n : Nat) (f : Debouncer α) (x : α) : Debouncer α :=
  let count := if x = f.sample then min n (f.count + 1) else 1
  { sample := x, count, accepted := if n ≤ count then x else f.accepted }

/-- The count says how long the streak of the new sample is. -/
theorem Knows.streak_step (h : Knows n hist f) (x : α) (k : Nat) (hk : k ≤ n) :
    List.replicate k x <:+ hist ++ [x] ↔ k ≤ (f.step n x).count := by
  have hpos := h.count_pos
  have hle := h.count_le
  cases k with
  | zero => exact iff_of_true List.nil_suffix (Nat.zero_le _)
  | succ k =>
    rw [replicate_suffix_concat, and_iff_right rfl]
    simp only [Debouncer.step]
    by_cases hx : x = f.sample
    · rw [if_pos hx, hx, h.streak k (by omega)]; omega
    · rw [if_neg hx]
      constructor
      · intro hs
        -- an `x` before this one would be the last sample
        by_contra hk0
        have h1 : List.replicate 1 f.sample <:+ hist := (h.streak 1 (by omega)).2 hpos
        exact hx (eq_of_replicate_suffix (by omega) Nat.one_pos hs h1)
      · intro hk1
        obtain rfl : k = 0 := by omega
        exact List.nil_suffix

theorem Knows.accepted_step (h : Knows n hist f) (x : α) :
    (f.step n x).accepted = if List.replicate n x <:+ hist ++ [x] then x else f.accepted := by
  have hiff := h.streak_step x n le_rfl
  show (if n ≤ (f.step n x).count then x else f.accepted) = _
  by_cases hn : n ≤ (f.step n x).count
  · rw [if_pos hn, if_pos (hiff.2 hn)]
  · rw [if_neg hn, if_neg (fun hs => hn (hiff.1 hs))]

theorem Knows.step (h : Knows n hist f) (x : α) : Knows n (hist ++ [x]) (f.step n x) where
  count_pos := by
    have := h.count_pos
    have := h.count_le
    simp only [Debouncer.step]
    split_ifs <;> omega
  count_le := by
    have := h.count_pos
    have := h.count_le
    simp only [Debouncer.step]
    split_ifs <;> omega
  streak := h.streak_step x
  settled := by
    have hn : 0 < n := Nat.lt_of_lt_of_le h.count_pos h.count_le
    rw [h.accepted_step]
    by_cases hs : List.replicate n x <:+ hist ++ [x]
    · rw [if_pos hs]; exact settled_of_suffix hn hs
    · rw [if_neg hs]; exact h.settled.concat hs

/-! ## Every sequence of samples -/

theorem Knows.foldl (h : Knows n hist f) (xs : List α) : Knows n (hist ++ xs) (xs.foldl (Debouncer.step n) f) := by
  induction xs generalizing hist f with
  | nil => simpa using h
  | cons x xs ih => simpa using ih (h.step x)

/-- A change is accepted exactly at its `n`th sample in a row. -/
theorem Knows.accepted_ne_iff (h : Knows n hist f) (x : α) :
    (f.step n x).accepted ≠ f.accepted ↔
      x ≠ f.accepted ∧ List.replicate n x <:+ hist ++ [x] ∧ ¬List.replicate (n + 1) x <:+ hist ++ [x] := by
  have hn : 0 < n := Nat.lt_of_lt_of_le h.count_pos h.count_le
  rw [h.accepted_step]
  by_cases hs : List.replicate n x <:+ hist ++ [x]
  · rw [if_pos hs]
    refine ⟨fun hne => ⟨hne, hs, fun hlong => hne ?_⟩, fun h => h.1⟩
    -- with `n + 1` in a row the window before was one of `x`, and accepted
    exact (h.settled.eq_of_suffix hn (replicate_suffix_concat.1 hlong).2).symm
  · rw [if_neg hs]
    exact iff_of_false (fun hne => hne rfl) (fun h => hs h.2.1)

/-! ## The value of the most recent window -/

/-- The value of the most recent window of `n` equal samples, the newest sample first; `v` if there is
none. -/
def latestWindow (n : Nat) (v : α) : List α → α
  | [] => v
  | x :: older => if List.replicate n x <+: x :: older then x else latestWindow n v older

theorem latestWindow_concat (v x : α) (hist : List α) :
    latestWindow n v (hist ++ [x]).reverse =
      if List.replicate n x <:+ hist ++ [x] then x else latestWindow n v hist.reverse := by
  have hsuffix : List.replicate n x <+: x :: hist.reverse ↔ List.replicate n x <:+ hist ++ [x] := by
    rw [← List.reverse_prefix, List.reverse_replicate, List.reverse_concat]
  rw [List.reverse_concat, latestWindow]
  simp only [hsuffix]

/-- There is a window, so its value is the one that is found. -/
theorem settled_latestWindow (hn : 0 < n) (v : α) (xs : List α) :
    Settled n (List.replicate n v ++ xs) (latestWindow n v (List.replicate n v ++ xs).reverse) := by
  induction xs using List.reverseRecOn with
  | nil =>
    obtain ⟨m, rfl⟩ : ∃ m, n = m + 1 := ⟨n - 1, by omega⟩
    rw [List.append_nil, List.reverse_replicate, List.replicate_succ, latestWindow,
      if_pos (by rw [List.replicate_succ]), ← List.replicate_succ]
    exact settled_replicate hn v
  | append_singleton xs x ih =>
    rw [← List.append_assoc, latestWindow_concat]
    by_cases hs : List.replicate n x <:+ List.replicate n v ++ xs ++ [x]
    · rw [if_pos hs]; exact settled_of_suffix hn hs
    · rw [if_neg hs]; exact ih.concat hs

end Debounce
