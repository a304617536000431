/-
Arrivals that overtake. Items are sent with numbers that go up; what arrives may have passed items that were sent
before it. If nothing passes more than `n` of them, and the numbers have no gap, a window of `n + 1` takes every
record, and an item that was passed on the way is followed by a record among the next `n` numbers.
-/
import KeyboardProject.Lib.Acceptor
import KeyboardProject.Lib.Line

namespace Overtaking

open Acceptor

variable {α : Type} {n : Nat} {key : α → Nat}

/-- Each arrival has passed at most `n` of the items that arrive after it or still wait. -/
def Bounded (n : Nat) (key : α → Nat) : List α → List α → Prop
  | [], _ => True
  | a :: arrived, waiting =>
    (arrived ++ waiting).countP (fun b => decide (key b < key a)) ≤ n ∧ Bounded n key arrived waiting

variable {arrived before after waiting rest : List α} {a : α}

/-- An item that is sent later passes nobody yet and is not passed. -/
theorem Bounded.join (h : Bounded n key arrived waiting) (ha : ∀ b ∈ arrived, key b ≤ key a)
    {line : List α} (hline : line.Perm (waiting ++ [a])) : Bounded n key arrived line := by
  induction arrived with
  | nil => trivial
  | cons b arrived ih =>
    obtain ⟨hb, hrest⟩ := List.forall_mem_cons.1 ha
    refine ⟨?_, ih h.2 hrest⟩
    have hperm : (arrived ++ line).Perm (arrived ++ waiting ++ [a]) := by
      rw [List.append_assoc]
      exact hline.append_left arrived
    rw [hperm.countP_eq, List.countP_append, List.countP_singleton, if_neg (by simpa using hb)]
    exact h.1

/-- An item that waits arrives and passes at most `n`. -/
theorem Bounded.leave (h : Bounded n key arrived waiting) (hline : waiting.Perm (a :: rest))
    (ha : rest.countP (fun b => decide (key b < key a)) ≤ n) : Bounded n key (arrived ++ [a]) rest := by
  induction arrived with
  | nil => exact ⟨ha, trivial⟩
  | cons b arrived ih =>
    have hperm : (arrived ++ waiting).Perm (arrived ++ [a] ++ rest) := by
      rw [← List.append_cons]
      exact hline.append_left arrived
    exact ⟨(hperm.countP_eq _).symm.le.trans h.1, ih h.2⟩

theorem Bounded.passed (h : Bounded n key (before ++ a :: after) waiting) :
    (after ++ waiting).countP (fun b => decide (key b < key a)) ≤ n := by
  induction before with
  | nil => exact h.1
  | cons b before ih => exact ih h.2

/-- In order, nothing is passed. -/
theorem bounded_zero (h : (arrived ++ waiting).Pairwise fun a b => key a < key b) : Bounded 0 key arrived waiting := by
  induction arrived with
  | nil => trivial
  | cons a arrived ih =>
    obtain ⟨ha, hrest⟩ := List.pairwise_cons.1 h
    refine ⟨?_, ih hrest⟩
    rw [Nat.le_zero, List.countP_eq_zero]
    intro b hb
    simpa using (ha b hb).le

/-! ## Numbers without a gap -/

section Range

variable {first count : Nat}

/-- If everything before it is below `low`, an arrival is at most `n` above: it has passed all in between. -/
theorem Bounded.key_le (h : Bounded n key (before ++ a :: after) waiting)
    (hkeys : ((before ++ a :: after ++ waiting).map key).Perm (List.range' first count)) {low : Nat} (hfirst : first ≤ low)
    (hbefore : ∀ b ∈ before, key b < low) : key a ≤ low + n := by
  have hmem : key a ∈ List.range' first count := hkeys.mem_iff.1 (List.mem_map_of_mem (by simp))
  have hpassed : List.range' low (key a - low) ⊆ ((after ++ waiting).filter fun b => decide (key b < key a)).map key := by
    intro c hc
    rw [List.mem_range'_1] at hc hmem
    have hc' : c ∈ (before ++ a :: after ++ waiting).map key :=
      hkeys.mem_iff.2 (List.mem_range'_1.2 ⟨hfirst.trans hc.1, by omega⟩)
    obtain ⟨b, hb, rfl⟩ := List.mem_map.1 hc'
    have hlt : key b < key a := by omega
    refine List.mem_map_of_mem (List.mem_filter.2 ⟨?_, decide_eq_true hlt⟩)
    rw [List.append_assoc, List.mem_append, List.cons_append, List.mem_cons] at hb
    rcases hb with hb | rfl | hb
    · exact absurd (hbefore b hb) (not_lt.2 hc.1)
    · exact absurd hlt (lt_irrefl _)
    · exact hb
  have hlen := (List.Nodup.subperm List.nodup_range' hpassed).length_le
  rw [List.length_range', List.length_map, ← List.countP_eq_length_filter] at hlen
  have := h.passed
  omega

theorem Bounded.steady_from (h : Bounded n key (before ++ after) waiting)
    (hkeys : ((before ++ after ++ waiting).map key).Perm (List.range' first count)) {top : Nat} (hfirst : first ≤ top)
    (hbefore : ∀ b ∈ before, key b ≤ top) : Steady (n + 1) key (some top) after := by
  induction after generalizing before top with
  | nil => trivial
  | cons a after ih =>
    constructor
    · rintro l ⟨⟩
      have := h.key_le hkeys (hfirst.trans (Nat.le_succ _)) fun b hb => Nat.lt_succ_of_le (hbefore b hb)
      omega
    · rw [List.append_cons] at h hkeys
      refine ih h hkeys (hfirst.trans (le_max_left _ _)) fun b hb => ?_
      rcases List.mem_append.1 hb with hb | hb
      · exact (hbefore b hb).trans (le_max_left _ _)
      · rw [List.mem_singleton.1 hb]
        exact le_max_right _ _

/-- Arrivals that pass at most `n` others are steady under a window of `n + 1`. -/
theorem Bounded.steady (h : Bounded n key arrived waiting)
    (hkeys : ((arrived ++ waiting).map key).Perm (List.range' first count)) : Steady (n + 1) key none arrived := by
  cases arrived with
  | nil => trivial
  | cons a arrived =>
    have hmem : key a ∈ List.range' first count := hkeys.mem_iff.1 (List.mem_map_of_mem (by simp))
    refine ⟨nofun, ?_⟩
    exact @steady_from _ n key [a] arrived waiting first count h hkeys (key a) (List.mem_range'_1.1 hmem).1 (by simp)

/-- An arrival that is no record was passed by a record, and that is among the `n` numbers that follow. -/
theorem Bounded.exists_record (h : Bounded n key arrived waiting)
    (hkeys : ((arrived ++ waiting).map key).Perm (List.range' first count)) (ha : a ∈ arrived)
    (hlost : a ∉ records key none arrived) : ∃ b ∈ records key none arrived, key a < key b ∧ key b ≤ key a + n := by
  obtain ⟨before, after, rfl⟩ := List.append_of_mem ha
  have hnodup : ((before ++ a :: after ++ waiting).map key).Nodup := hkeys.nodup_iff.2 List.nodup_range'
  have hne : ∀ b ∈ before, key b ≠ key a := by
    rw [List.append_assoc, List.map_append, List.nodup_append] at hnodup
    intro b hb
    exact hnodup.2.2 _ (List.mem_map_of_mem hb) _ (List.mem_map_of_mem (by simp))
  have hmem : key a ∈ List.range' first count := hkeys.mem_iff.1 (List.mem_map_of_mem (by simp))
  -- the first arrival above `a` is a record, and everything before it is below `a`
  rcases Line.exists_leaves (fun b => key a < key b) before with hnone | ⟨b, _, ⟨front, back, rfl, -, hfront⟩, hb⟩
  · exact absurd (mem_records (by simp) fun b hb => lt_of_le_of_ne (not_lt.1 (hnone b hb)) (hne b hb)) hlost
  · have hbelow : ∀ c ∈ front, key c < key a := fun c hc =>
      lt_of_le_of_ne (not_lt.1 (hfront c hc)) (hne c (List.mem_append_left _ hc))
    have hsplit : front ++ b :: back ++ a :: after = front ++ b :: (back ++ a :: after) := by simp
    rw [hsplit] at h hkeys ⊢
    exact ⟨b, mem_records (by simp) fun c hc => (hbelow c hc).trans hb, hb,
      h.key_le hkeys (List.mem_range'_1.1 hmem).1 hbelow⟩

end Range

end Overtaking
