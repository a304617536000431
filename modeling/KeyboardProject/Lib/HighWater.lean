/-
Delivery under a high-water mark: a receiver that puts out only what was sent, one item at a time and
only above the key of the last, delivers a subsequence of what was sent, whatever arrives.
-/
import KeyboardProject.Lib.Machine

namespace Machine

variable {σ ε α κ : Type} [Preorder κ]

/-- Every step puts out nothing and leaves the mark, or puts out one item that was sent, with a key
above the mark, and moves the mark to its key. -/
def HighWater (M : Machine σ ε α) (mark : σ → Option κ) (key : α → κ) (sent : List α) : Prop :=
  ∀ s e, ((M.step s e).2 = [] ∧ mark (M.step s e).1 = mark s) ∨
    ∃ a ∈ sent, (M.step s e).2 = [a] ∧ (∀ m, mark s = some m → m < key a) ∧ mark (M.step s e).1 = some (key a)

variable {M : Machine σ ε α} {mark : σ → Option κ} {key : α → κ} {sent : List α}

/-- What a run has delivered: items that were sent, in increasing order of their keys, up to the mark. -/
structure Delivered (mark : σ → Option κ) (key : α → κ) (sent os : List α) (s : σ) : Prop where
  sent : ∀ a ∈ os, a ∈ sent
  increasing : os.Pairwise (fun a b => key a < key b)
  below : ∀ a ∈ os, ∃ m, mark s = some m ∧ key a ≤ m

theorem HighWater.step_delivered (h : M.HighWater mark key sent) {os : List α} {s : σ}
    (hd : Delivered mark key sent os s) (e : ε) :
    Delivered mark key sent (os ++ (M.step s e).2) (M.step s e).1 := by
  rcases h s e with ⟨hout, hmark⟩ | ⟨a, ha, hout, habove, hmark⟩
  · rw [hout, List.append_nil]
    exact ⟨hd.sent, hd.increasing, by rw [hmark]; exact hd.below⟩
  · -- everything delivered so far is at or below the mark, and the new item is above it
    have hlt : ∀ b ∈ os, key b < key a := by
      intro b hb
      obtain ⟨m, hm, hle⟩ := hd.below b hb
      exact lt_of_le_of_lt hle (habove m hm)
    rw [hout]
    refine ⟨?_, ?_, ?_⟩
    · intro b hb
      rcases List.mem_append.1 hb with hb | hb
      · exact hd.sent b hb
      · exact List.mem_singleton.1 hb ▸ ha
    · exact List.pairwise_append.2 ⟨hd.increasing, List.pairwise_singleton _ _, by simpa using hlt⟩
    · intro b hb
      refine ⟨key a, hmark, ?_⟩
      rcases List.mem_append.1 hb with hb | hb
      · exact (hlt b hb).le
      · rw [List.mem_singleton.1 hb]

/-- A run delivers a subsequence of what was sent, in increasing order of keys. -/
theorem HighWater.run_sublist (h : M.HighWater mark key sent) (hsent : sent.Pairwise (fun a b => key a < key b))
    (s : σ) (es : List ε) :
    (M.run s es).2.Sublist sent ∧ (M.run s es).2.Pairwise (fun a b => key a < key b) := by
  have hd : Delivered mark key sent (M.run s es).2 (M.run s es).1 :=
    Machine.invariant (P := Delivered mark key sent) ⟨by simp, List.Pairwise.nil, by simp⟩
      (fun os t e hd => h.step_delivered hd e) es
  -- both lists are sorted by key, so it is enough that the one is contained in the other
  have : Std.Antisymm fun a b : α => key a < key b := ⟨fun a b hab hba => absurd hab hba.not_gt⟩
  have hnodup : (M.run s es).2.Nodup := hd.increasing.imp fun hab => by rintro rfl; exact lt_irrefl _ hab
  exact ⟨List.sublist_of_subperm_of_pairwise (List.subperm_of_subset hnodup hd.sent) hd.increasing hsent,
    hd.increasing⟩

end Machine
