/-
A receiver that takes an item whose number is ahead of the last one it took, by at most `W`. As long as
nothing arrives more than `W` ahead of everything before it, it takes exactly the records, the items numbered
above all before them; what others have overtaken it never takes.
-/
import KeyboardProject.Lib.Machine
import KeyboardProject.Lib.Window

/-- The state is the number of the last item taken; before the first, anything is. -/
def Machine.acceptor {α : Type} (W : Nat) (key : α → Nat) : Machine (Option Nat) α α where
  step last a := if ∀ l ∈ last, Window.Ahead W l (key a) then (some (key a), [a]) else (last, [])

namespace Acceptor

variable {α : Type} {W : Nat} {key : α → Nat}

/-- The greatest number so far, once `c` has arrived. -/
def raise (top : Option Nat) (c : Nat) : Option Nat := some (top.elim c fun l => max l c)

/-- The items numbered above `top` and above all items before them. -/
def records (key : α → Nat) : Option Nat → List α → List α
  | _, [] => []
  | top, a :: as =>
    if ∀ l ∈ top, l < key a then a :: records key (some (key a)) as else records key top as

/-- No item is more than `W` ahead of `top` and of all items before it. -/
def Steady (W : Nat) (key : α → Nat) : Option Nat → List α → Prop
  | _, [] => True
  | top, a :: as => (∀ l ∈ top, key a ≤ l + W) ∧ Steady W key (raise top (key a)) as

instance decidableSteady (W : Nat) (key : α → Nat) : ∀ (top : Option Nat) (as : List α), Decidable (Steady W key top as)
  | _, [] => isTrue trivial
  | top, a :: as =>
    have := decidableSteady W key (raise top (key a)) as
    inferInstanceAs (Decidable (_ ∧ _))

theorem raise_of_above {top : Option Nat} {c : Nat} (h : ∀ l ∈ top, l < c) : raise top c = some c := by
  cases top with
  | none => rfl
  | some l => exact congrArg some (max_eq_right (h l rfl).le)

theorem raise_of_not_above {top : Option Nat} {c : Nat} (h : ¬∀ l ∈ top, l < c) : raise top c = top := by
  cases top with
  | none => simp at h
  | some l => exact congrArg some (max_eq_left (by simpa using h))

/-- Numbers are all that counts. -/
theorem records_map {β : Type} (f : β → α) (top : Option Nat) (bs : List β) :
    records key top (bs.map f) = (records (fun b => key (f b)) top bs).map f := by
  induction bs generalizing top with
  | nil => rfl
  | cons b bs ih =>
    rw [List.map_cons, records, records]
    split_ifs
    · rw [ih, List.map_cons]
    · exact ih top

theorem steady_map {β : Type} (f : β → α) (top : Option Nat) (bs : List β) :
    Steady W key top (bs.map f) ↔ Steady W (fun b => key (f b)) top bs := by
  induction bs generalizing top with
  | nil => exact Iff.rfl
  | cons b bs ih => exact and_congr_right fun _ => ih _

/-- What is above all that came before it is a record. -/
theorem mem_records {top : Option Nat} {a : α} {before after : List α} (htop : ∀ l ∈ top, l < key a)
    (hbefore : ∀ b ∈ before, key b < key a) : a ∈ records key top (before ++ a :: after) := by
  induction before generalizing top with
  | nil =>
    rw [List.nil_append, records, if_pos htop]
    exact List.mem_cons_self
  | cons b before ih =>
    obtain ⟨hb, hrest⟩ := List.forall_mem_cons.1 hbefore
    rw [List.cons_append, records]
    split_ifs
    · exact List.mem_cons_of_mem _ (ih (by simpa using hb) hrest)
    · exact ih htop hrest

/-- Items whose numbers go up are records, all of them. -/
theorem records_eq_self {top : Option Nat} {as : List α} (htop : ∀ l ∈ top, ∀ a ∈ as, l < key a)
    (has : as.Pairwise fun a b => key a < key b) : records key top as = as := by
  induction as generalizing top with
  | nil => rfl
  | cons a as ih =>
    obtain ⟨ha, hrest⟩ := List.pairwise_cons.1 has
    rw [records, if_pos fun l hl => htop l hl a List.mem_cons_self, ih (by simpa using ha) hrest]

theorem Steady.mono {V : Nat} {top : Option Nat} {as : List α} (h : Steady V key top as) (hle : V ≤ W) :
    Steady W key top as := by
  induction as generalizing top with
  | nil => trivial
  | cons a as ih => exact ⟨fun l hl => (h.1 l hl).trans (Nat.add_le_add_left hle l), ih h.2⟩

/-- While the arrivals are steady the window never cuts a record off. -/
theorem run_of_steady {top : Option Nat} {as : List α} (h : Steady W key top as) :
    ((Machine.acceptor W key).run top as).2 = records key top as := by
  induction as generalizing top with
  | nil => rfl
  | cons a as ih =>
    obtain ⟨hnear, hrest⟩ := h
    rw [Machine.run_cons, records, Machine.acceptor]
    by_cases habove : ∀ l ∈ top, l < key a
    · have hopen : ∀ l ∈ top, Window.Ahead W l (key a) := fun l hl => ⟨habove l hl, hnear l hl⟩
      rw [raise_of_above habove] at hrest
      simp only [if_pos hopen, if_pos habove]
      exact congrArg (a :: ·) (ih hrest)
    · have hshut : ¬∀ l ∈ top, Window.Ahead W l (key a) := fun hopen => habove fun l hl => (hopen l hl).1
      rw [raise_of_not_above habove] at hrest
      simp only [if_neg hshut, if_neg habove]
      exact ih hrest

/-! ## In order -/

/-- The number of the last item taken, after items of these numbers. -/
def lastTaken (W l : Nat) (cs : List Nat) : Nat := cs.foldl (fun l c => if Window.Ahead W l c then c else l) l

/-- The numbers above `l` come within `W` of each other. -/
def Linked (W l : Nat) (cs : List Nat) : Prop := (l :: cs.filter (l < ·)).IsChain fun a b => b ≤ a + W

instance (W l : Nat) (cs : List Nat) : Decidable (Linked W l cs) := inferInstanceAs (Decidable (List.IsChain _ _))

theorem linked_cons_of_le {W l c : Nat} {cs : List Nat} (h : c ≤ l) : Linked W l (c :: cs) ↔ Linked W l cs := by
  rw [Linked, List.filter_cons_of_neg (by simpa using h), Linked]

/-- Above `l`, numbers that go up are linked from the first of them on. -/
theorem linked_cons_of_lt {W l c : Nat} {cs : List Nat} (h : l < c) (hcs : ∀ d ∈ cs, c < d) :
    Linked W l (c :: cs) ↔ c ≤ l + W ∧ Linked W c cs := by
  have hl : cs.filter (l < ·) = cs := List.filter_eq_self.2 fun d hd => decide_eq_true (h.trans (hcs d hd))
  have hc : cs.filter (c < ·) = cs := List.filter_eq_self.2 fun d hd => decide_eq_true (hcs d hd)
  rw [Linked, List.filter_cons_of_pos (by simpa using h), List.isChain_cons_cons, Linked, hl, hc]

theorem le_lastTaken (W l : Nat) (cs : List Nat) : l ≤ lastTaken W l cs := by
  induction cs generalizing l with
  | nil => exact le_rfl
  | cons c cs ih =>
    refine le_trans ?_ (ih _)
    show l ≤ if Window.Ahead W l c then c else l
    split_ifs with h
    · exact h.1.le
    · exact le_rfl

theorem lastTaken_mem (W l : Nat) (cs : List Nat) : lastTaken W l cs = l ∨ lastTaken W l cs ∈ cs := by
  induction cs generalizing l with
  | nil => exact Or.inl rfl
  | cons c cs ih =>
    rw [lastTaken, List.foldl_cons]
    rcases ih (if Window.Ahead W l c then c else l) with h | h
    · rw [lastTaken] at h
      rw [h]
      split_ifs
      · exact Or.inr List.mem_cons_self
      · exact Or.inl rfl
    · exact Or.inr (List.mem_cons_of_mem _ h)

theorem lastTaken_of_far {W l : Nat} {cs : List Nat} (h : ∀ c ∈ cs, l + W < c) : lastTaken W l cs = l := by
  induction cs with
  | nil => rfl
  | cons c cs ih =>
    obtain ⟨hc, hcs⟩ := List.forall_mem_cons.1 h
    rw [lastTaken, List.foldl_cons, if_neg fun hahead => hahead.2.not_gt hc]
    exact ih hcs

/-- Of items whose numbers go up, one is ahead of the last one taken exactly if the numbers that lead to it
are linked. -/
theorem ahead_lastTaken_iff {W l c : Nat} {cs : List Nat} (hinc : (cs ++ [c]).Pairwise (· < ·)) :
    Window.Ahead W (lastTaken W l cs) c ↔ l < c ∧ Linked W l (cs ++ [c]) := by
  induction cs generalizing l with
  | nil =>
    by_cases hlt : l < c
    · simp [lastTaken, Window.Ahead, Linked, hlt]
    · simp [lastTaken, Window.Ahead, hlt]
  | cons d cs ih =>
    rw [List.cons_append] at hinc ⊢
    obtain ⟨habove, hrest⟩ := List.pairwise_cons.1 hinc
    have hdc : d < c := habove c (by simp)
    rw [lastTaken, List.foldl_cons]
    by_cases hle : d ≤ l
    · rw [if_neg fun h => absurd h.1 (by omega), linked_cons_of_le hle]
      exact ih hrest
    · have hlt : l < d := not_le.1 hle
      rw [linked_cons_of_lt hlt habove]
      by_cases hnear : d ≤ l + W
      · have hih := @ih d hrest
        rw [if_pos ⟨hlt, hnear⟩]
        refine hih.trans ?_
        constructor
        · rintro ⟨-, hlinked⟩; exact ⟨hlt.trans hdc, hnear, hlinked⟩
        · rintro ⟨-, -, hlinked⟩; exact ⟨hdc, hlinked⟩
      · -- `d` is out of reach, and so is everything after it
        have hfar : lastTaken W l cs = l :=
          lastTaken_of_far fun e he => (not_le.1 hnear).trans (habove e (List.mem_append_left _ he))
        rw [if_neg fun h => hnear h.2]
        refine iff_of_false (fun h => ?_) fun h => hnear h.2.1
        rw [lastTaken] at hfar
        rw [hfar] at h
        exact hnear (hdc.le.trans h.2)

end Acceptor
