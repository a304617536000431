/-
Folding a list into a state by a step that is injective in the state and in the symbol: two lists that
differ in exactly one symbol end in different states.
-/
import Mathlib.Tactic

namespace Mixing

variable {σ β : Type*}

/-- A step that loses nothing of the state and tells the symbols apart. -/
structure Mixes (f : σ → β → σ) : Prop where
  state : ∀ b, Function.Injective fun s => f s b
  symbol : ∀ s, Function.Injective (f s)

/-- The second list is the first with exactly one symbol replaced by another. -/
def OneChanged (l l' : List β) : Prop := ∃ before a b after, a ≠ b ∧ l = before ++ a :: after ∧ l' = before ++ b :: after

theorem OneChanged.ne {l l' : List β} (h : OneChanged l l') : l ≠ l' := by
  obtain ⟨before, a, b, after, hab, rfl, rfl⟩ := h
  intro heq
  exact hab (List.cons.inj (List.append_cancel_left heq)).1

theorem OneChanged.length {l l' : List β} (h : OneChanged l l') : l'.length = l.length := by
  obtain ⟨before, a, b, after, -, rfl, rfl⟩ := h
  simp

theorem OneChanged.append_left {l l' : List β} (h : OneChanged l l') (front : List β) :
    OneChanged (front ++ l) (front ++ l') := by
  obtain ⟨before, a, b, after, hab, rfl, rfl⟩ := h
  exact ⟨front ++ before, a, b, after, hab, by simp, by simp⟩

theorem OneChanged.append_right {l l' : List β} (h : OneChanged l l') (rest : List β) :
    OneChanged (l ++ rest) (l' ++ rest) := by
  obtain ⟨before, a, b, after, hab, rfl, rfl⟩ := h
  exact ⟨before, a, b, after ++ rest, hab, by simp, by simp⟩

theorem Mixes.foldl_injective {f : σ → β → σ} (h : Mixes f) (l : List β) : Function.Injective fun s => l.foldl f s := by
  induction l with
  | nil => exact fun s t hst => hst
  | cons b l ih => exact ih.comp (h.state b)

/-- One changed symbol changes the end of the fold, whatever comes before and after it. -/
theorem Mixes.foldl_ne {f : σ → β → σ} (h : Mixes f) {l l' : List β} (hl : OneChanged l l') (s : σ) :
    l.foldl f s ≠ l'.foldl f s := by
  obtain ⟨before, a, b, after, hab, rfl, rfl⟩ := hl
  rw [List.foldl_append, List.foldl_append, List.foldl_cons, List.foldl_cons]
  intro heq
  exact hab (h.symbol _ (h.foldl_injective after heq))

end Mixing
