/-
Waiting lines: a newcomer joins at the end, or just ahead of the one at the end, and who leaves is the
first that may, from wherever it stands. Nobody is lost; a line joined at the end is served in order if
who may leave lets everybody ahead leave; a line joined ahead of the end keeps the order of all but the
one at the end.
-/
import Mathlib.Tactic

namespace Line

variable {α β : Type*}

/-! ## Joining -/

/-- Join at the end, or just ahead of the one there. -/
def join (ahead : Bool) (line : List α) (a : α) : List α :=
  if ahead then line.dropLast ++ a :: line.getLast?.toList else line ++ [a]

@[simp] theorem join_false (line : List α) (a : α) : join false line a = line ++ [a] := rfl
@[simp] theorem join_nil (ahead : Bool) (a : α) : join ahead [] a = [a] := by cases ahead <;> rfl

@[simp] theorem join_concat (front : List α) (last a : α) : join true (front ++ [last]) a = front ++ [a, last] := by
  simp [join]

theorem join_perm (ahead : Bool) (line : List α) (a : α) : (join ahead line a).Perm (line ++ [a]) := by
  cases ahead with
  | false => exact List.Perm.refl _
  | true =>
    cases line using List.reverseRecOn with
    | nil => exact List.Perm.refl _
    | append_singleton front last =>
      rw [join_concat, List.append_assoc]
      exact (List.Perm.swap last a []).append_left front

theorem mem_join {ahead : Bool} {line : List α} {a b : α} : b ∈ join ahead line a ↔ b ∈ line ∨ b = a := by
  rw [(join_perm ahead line a).mem_iff]; simp

theorem map_join (f : α → β) (ahead : Bool) (line : List α) (a : α) :
    (join ahead line a).map f = join ahead (line.map f) (f a) := by
  cases ahead with
  | false => simp
  | true =>
    cases line using List.reverseRecOn with
    | nil => rfl
    | append_singleton front last => simp

/-- Joining ahead of the one at the end leaves the order of all but that one. -/
theorem pairwise_dropLast_join {r : α → α → Prop} {line : List α} {a : α} (h : line.dropLast.Pairwise r)
    (ha : ∀ b ∈ line, r b a) : (join true line a).dropLast.Pairwise r := by
  cases line using List.reverseRecOn with
  | nil => exact List.Pairwise.nil
  | append_singleton front last =>
    have hdrop : (front ++ [a, last]).dropLast = front ++ [a] := by simp
    rw [join_concat, hdrop]
    rw [List.dropLast_concat] at h
    refine List.pairwise_append.2 ⟨h, List.pairwise_singleton _ _, fun b hb c hc => ?_⟩
    rw [List.mem_singleton.1 hc]
    exact ha b (List.mem_append_left _ hb)

/-! ## Leaving -/

/-- `a` is the first of the line that may leave, and `rest` is the line without it. -/
structure Leaves (may : α → Prop) (line : List α) (a : α) (rest : List α) : Prop where
  split : ∃ before after, line = before ++ a :: after ∧ rest = before ++ after ∧ ∀ b ∈ before, ¬may b
  may : may a

variable {may : α → Prop} {line rest : List α} {a : α}

theorem Leaves.perm (h : Leaves may line a rest) : line.Perm (a :: rest) := by
  obtain ⟨before, after, rfl, rfl, -⟩ := h.split
  exact List.perm_middle

theorem Leaves.sublist (h : Leaves may line a rest) : rest.Sublist line := by
  obtain ⟨before, after, rfl, rfl, -⟩ := h.split
  exact (List.Sublist.refl before).append (List.sublist_cons_self a after)

theorem Leaves.mem (h : Leaves may line a rest) : a ∈ line := h.perm.mem_iff.2 (List.mem_cons_self ..)

theorem Leaves.length (h : Leaves may line a rest) : line.length = rest.length + 1 := h.perm.length_eq

theorem Leaves.map {f : α → β} {may' : β → Prop} (h : Leaves may line a rest) (hmay : ∀ b, may' (f b) ↔ may b) :
    Leaves may' (line.map f) (f a) (rest.map f) := by
  obtain ⟨before, after, rfl, rfl, hbefore⟩ := h.split
  refine ⟨⟨before.map f, after.map f, by simp, by simp, fun b hb => ?_⟩, (hmay a).2 h.may⟩
  obtain ⟨c, hc, rfl⟩ := List.mem_map.1 hb
  exact fun hm => hbefore c hc ((hmay c).1 hm)

/-- Whoever leaves is the first of those who may; those who may not stay as they are. -/
theorem Leaves.filter [DecidablePred may] (h : Leaves may line a rest) :
    line.filter (fun b => decide (may b)) = a :: rest.filter (fun b => decide (may b)) ∧
      line.filter (fun b => !decide (may b)) = rest.filter (fun b => !decide (may b)) := by
  obtain ⟨before, after, rfl, rfl, hbefore⟩ := h.split
  have hnone : before.filter (fun b => decide (may b)) = [] :=
    List.filter_eq_nil_iff.2 fun b hb => by simpa using hbefore b hb
  constructor
  · rw [List.filter_append, List.filter_append, hnone, List.filter_cons, if_pos (decide_eq_true h.may)]
    rfl
  · rw [List.filter_append, List.filter_append, List.filter_cons, if_neg (by simpa using h.may)]

/-- Somebody leaves, or nobody may. -/
theorem exists_leaves (may : α → Prop) [DecidablePred may] (line : List α) :
    (∀ b ∈ line, ¬may b) ∨ ∃ a rest, Leaves may line a rest := by
  induction line with
  | nil => exact Or.inl (by simp)
  | cons b line ih =>
    by_cases hb : may b
    · exact Or.inr ⟨b, line, ⟨[], line, rfl, rfl, by simp⟩, hb⟩
    · rcases ih with hnone | ⟨a, rest, ⟨before, after, rfl, rfl, hbefore⟩, ha⟩
      · exact Or.inl (List.forall_mem_cons.2 ⟨hb, hnone⟩)
      · exact Or.inr ⟨a, b :: (before ++ after), ⟨b :: before, after, rfl, rfl, List.forall_mem_cons.2 ⟨hb, hbefore⟩⟩, ha⟩

/-- Whoever leaves, all but the one at the end stay in order. -/
theorem Leaves.dropLast_sublist (h : Leaves may line a rest) : rest.dropLast.Sublist line.dropLast := by
  obtain ⟨before, after, rfl, rfl, -⟩ := h.split
  rw [List.dropLast_append_cons]
  cases after with
  | nil =>
    rw [List.append_nil, List.dropLast_singleton, List.append_nil]
    exact List.dropLast_sublist before
  | cons c after =>
    rw [List.dropLast_append_cons, List.dropLast_cons_cons]
    exact (List.Sublist.refl before).append (List.sublist_cons_self a _)

/-- Where whoever may leave lets everybody ahead leave, it is the first in line who leaves. -/
theorem Leaves.eq_cons {r : α → α → Prop} (h : Leaves may line a rest) (hline : line.Pairwise r)
    (hmay : ∀ b c, r b c → may c → may b) : line = a :: rest := by
  obtain ⟨before, after, rfl, rfl, hbefore⟩ := h.split
  cases before with
  | nil => rfl
  | cons b before =>
    have hba : r b a := (List.pairwise_cons.1 hline).1 a (List.mem_append_right _ (List.mem_cons_self ..))
    exact absurd (hmay b a hba h.may) (hbefore b (List.mem_cons_self ..))

/-- Who leaves is the first that may of all but the one at the end; the one at the end leaves only when
nobody else may. -/
theorem Leaves.cases_dropLast {r : α → α → Prop} (h : Leaves may line a rest) (hline : line.dropLast.Pairwise r) :
    (a ∈ line.dropLast ∧ ∀ b ∈ line.dropLast, may b → b = a ∨ r a b) ∨
      (line.getLast? = some a ∧ ∀ b ∈ line.dropLast, ¬may b) := by
  obtain ⟨before, after, rfl, rfl, hbefore⟩ := h.split
  cases after with
  | nil =>
    rw [List.dropLast_concat]
    exact Or.inr ⟨List.getLast?_concat, hbefore⟩
  | cons c after =>
    rw [List.dropLast_append_cons, List.dropLast_cons_cons] at hline ⊢
    refine Or.inl ⟨by simp, fun b hb hmay => ?_⟩
    rcases List.mem_append.1 hb with hb | hb
    · exact absurd hmay (hbefore b hb)
    · rcases List.mem_cons.1 hb with rfl | hb
      · exact Or.inl rfl
      · exact Or.inr ((List.pairwise_cons.1 (List.pairwise_append.1 hline).2.1).1 b hb)

/-! ## Everybody who joined -/

/-- Everybody who joined has left or stands in line. -/
def Accounted (joined left line : List α) : Prop := joined.Perm (left ++ line)

/-- Everybody left in the order of joining, and the line goes on in that order. -/
def InOrder (joined left line : List α) : Prop := joined = left ++ line

variable {joined left : List α}

theorem Accounted.join (h : Accounted joined left line) (ahead : Bool) (a : α) :
    Accounted (joined ++ [a]) left (join ahead line a) := by
  have hline : (joined ++ [a]).Perm (left ++ line ++ [a]) := h.append_right [a]
  rw [List.append_assoc] at hline
  exact hline.trans ((join_perm ahead line a).symm.append_left left)

theorem Accounted.leaves (h : Accounted joined left line) (hl : line.Perm (a :: rest)) :
    Accounted joined (left ++ [a]) rest := by
  have hline : (left ++ line).Perm (left ++ (a :: rest)) := hl.append_left left
  rw [List.append_cons] at hline
  exact h.trans hline

theorem InOrder.join (h : InOrder joined left line) (a : α) : InOrder (joined ++ [a]) left (line ++ [a]) := by
  rw [InOrder, h, List.append_assoc]

theorem InOrder.leaves (h : InOrder joined left (a :: rest)) : InOrder joined (left ++ [a]) rest := by
  rw [InOrder, h, List.append_cons left a rest]

end Line
