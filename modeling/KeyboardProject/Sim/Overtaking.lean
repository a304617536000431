/-
How far frames overtake each other. A frame that is popped is the first due one; with reordering, of those pushed
before it only the one held back at the end can still be in the queue, and without reordering none.
-/
import KeyboardProject.Lib.Overtaking
import KeyboardProject.Sim.Order

namespace KeyboardProject.Sim

open Rust Rust.Outcome Overtaking

variable {α : Type} {key : α → Nat}

/-- A pushed frame is numbered above all pushed before it. -/
def Rising (key : α → Nat) (os : List (Event α)) (_ : Outcome Empty (MockRf α)) (call : Call α) : Prop :=
  ∀ frame, call = .push frame → ∀ x ∈ pushed os, key x < key frame

/-- How many earlier frames a frame can overtake. -/
def passes (reorder : Bool) : Nat := if reorder then 1 else 0

section Frames

variable {config : MockRfConfig} {os : List (Event α)} {rf : MockRf α} {x : α}

theorem accepted_sublist (dropFirst : Bool) (frames : List α) : (accepted dropFirst frames).Sublist frames := by
  cases dropFirst with
  | false => exact List.Sublist.refl frames
  | true => exact List.drop_sublist 1 frames

theorem accepted_map {α β : Type} (f : α → β) (dropFirst : Bool) (frames : List α) :
    (accepted dropFirst frames).map f = accepted dropFirst (frames.map f) := by
  cases dropFirst with
  | false => rfl
  | true => exact List.map_drop

theorem accepted_range (dropFirst : Bool) (first count : Nat) :
    ∃ first' count', accepted dropFirst (List.range' first count) = List.range' first' count' := by
  cases dropFirst with
  | false => exact ⟨first, count, rfl⟩
  | true =>
    cases count with
    | zero => exact ⟨first, 0, rfl⟩
    | succ count => exact ⟨first + 1, count, rfl⟩

theorem popped_map {α β : Type} (f : α → β) (os : List (Event α)) : popped (os.map (Event.map f)) = (popped os).map f := by
  induction os with
  | nil => rfl
  | cons e os ih =>
    cases e with
    | pushed frame => exact ih
    | popped nowMs frame => exact congrArg (f frame :: ·) ih

theorem Conserved.mem_pushed (h : Conserved config os rf) (hx : x ∈ popped os ++ rf.queued) : x ∈ pushed os :=
  (accepted_sublist _ _).subset (h.accounted.mem_iff.2 hx)

theorem Conserved.queued_mem_pushed (h : Conserved config os rf) {entry : UInt64 × α} (hentry : entry ∈ rf.runtime.queue) :
    entry.2 ∈ pushed os :=
  h.mem_pushed (List.mem_append_right _ (List.mem_map_of_mem hentry))

/-- A step puts out no push but its own. -/
theorem pushed_step_sublist [Profile] (s : Outcome Empty (MockRf α)) (call : Call α) :
    (pushed (channel.step s call).2).Sublist (pushes [call]) := by
  cases hstep : (channel.step s call).1 with
  | ok next =>
    obtain ⟨rf, -, h⟩ := step_of_channel hstep
    rw [h.pushed_eq]
  | err e => nomatch e
  | panic =>
    unfold channel at hstep ⊢
    dsimp only at hstep ⊢
    split at hstep
    · contradiction
    · exact List.nil_sublist _

theorem along_rising [Profile] {s : Outcome Empty (MockRf α)} {calls : List (Call α)}
    (h : (pushed os ++ pushes calls).Pairwise fun a b => key a < key b) : channel.Along (Rising key) os s calls := by
  induction calls generalizing os s with
  | nil => trivial
  | cons call calls ih =>
    rw [show call :: calls = [call] ++ calls from rfl, pushes_append, ← List.append_assoc] at h
    refine ⟨?_, ih (h.sublist ?_)⟩
    · rintro frame rfl x hx
      have hpair := (List.pairwise_append.1 h).1
      exact (List.pairwise_append.1 hpair).2.2 x hx frame List.mem_cons_self
    · rw [pushed_append]
      exact ((List.Sublist.refl _).append (pushed_step_sublist s call)).append (List.Sublist.refl _)

end Frames

/-! ## With reordering -/

/-- What a run with reordering keeps: all but the last frame in the queue are in the order of their pushes, earlier
frames are due earlier, and no popped frame has overtaken more than one. -/
structure Overtaken (key : α → Nat) (config : MockRfConfig) (os : List (Event α)) (rf : MockRf α) : Prop
    extends Conserved config os rf where
  ordered : rf.runtime.queue.dropLast.Pairwise fun a b => key a.2 < key b.2
  timely : ∀ a ∈ rf.runtime.queue, ∀ b ∈ rf.runtime.queue, key a.2 < key b.2 → a.1 ≤ b.1
  bounded : Bounded 1 key (popped os) rf.queued

theorem overtaken_new (dropFirst reorder : Bool) (jitterMs : UInt64) :
    Overtaken key { dropFirst, reorder, jitterMs } [] (.new dropFirst reorder jitterMs) where
  toConserved := conserved_new dropFirst reorder jitterMs
  ordered := List.Pairwise.nil
  timely := by simp [MockRf.new]
  bounded := trivial

section Steps

variable {config : MockRfConfig} {os events : List (Event α)} {rf next : MockRf α} {call : Call α}

/-- Of the frames that stay behind the one popped, only the last can be an earlier one: any other stood ahead of it
and was due. -/
theorem Overtaken.countP_rest {entry : UInt64 × α} {rest : List (UInt64 × α)} (h : Overtaken key config os rf)
    (hleaves : Line.Leaves rf.Due rf.runtime.queue entry rest) :
    (rest.map Prod.snd).countP (fun x => decide (key x < key entry.2)) ≤ 1 := by
  obtain ⟨before, after, hqueue, rfl, hbefore⟩ := hleaves.split
  have hentry : entry ∈ rf.runtime.queue := hleaves.mem
  have hahead : before.countP (fun e => decide (key e.2 < key entry.2)) = 0 := by
    rw [List.countP_eq_zero]
    intro e he
    have hmem : e ∈ rf.runtime.queue := by
      rw [hqueue]
      exact List.mem_append_left _ he
    have hlate : ¬e.1 ≤ rf.runtime.nowMs := hbefore e he
    have hnot : ¬key e.2 < key entry.2 := fun hlt => hlate (UInt64.le_trans (h.timely e hmem entry hentry hlt) hleaves.may)
    simpa using hnot
  have hbehind : after.countP (fun e => decide (key e.2 < key entry.2)) ≤ 1 := by
    have hord := h.ordered
    cases after using List.reverseRecOn with
    | nil => exact Nat.zero_le 1
    | append_singleton front last =>
      rw [hqueue, ← List.cons_append, ← List.append_assoc, List.dropLast_concat] at hord
      have hfront : front.countP (fun e => decide (key e.2 < key entry.2)) = 0 := by
        rw [List.countP_eq_zero]
        intro e he
        have hlt := (List.pairwise_cons.1 (List.pairwise_append.1 hord).2.1).1 e he
        simpa using hlt.le
      rw [List.countP_append, hfront, zero_add]
      exact List.countP_le_length
  rw [List.countP_map, Function.comp_def, List.countP_append, hahead, zero_add]
  exact hbehind

theorem Overtaken.ordered_step (h : Overtaken key config os rf) (hreorder : config.reorder = true)
    (hrising : Rising key os (.ok rf) call) (hstep : Step rf call next events) :
    next.runtime.queue.dropLast.Pairwise fun a b => key a.2 < key b.2 := by
  cases hstep with
  | advance deltaMs => exact h.ordered
  | drop frame hdrop => exact h.ordered
  | enqueue frame hdrop =>
    rw [MockRf.enqueue, h.sameConfig, hreorder]
    exact Line.pairwise_dropLast_join h.ordered fun entry hentry => hrising frame rfl _ (h.queued_mem_pushed hentry)
  | idle hnone => exact h.ordered
  | deliver entry rest hleaves => exact h.ordered.sublist hleaves.dropLast_sublist

theorem Overtaken.timely_step (h : Overtaken key config os rf) (hfits : Fits os (.ok rf) call)
    (hrising : Rising key os (.ok rf) call) (hstep : Step rf call next events) :
    ∀ a ∈ next.runtime.queue, ∀ b ∈ next.runtime.queue, key a.2 < key b.2 → a.1 ≤ b.1 := by
  cases hstep with
  | advance deltaMs => exact h.timely
  | drop frame hdrop => exact h.timely
  | enqueue frame hdrop =>
    have hsum := u64_add_toNat (hfits rf rfl)
    intro a ha b hb hlt
    rcases Line.mem_join.1 ha with ha | rfl
    · rcases Line.mem_join.1 hb with hb | rfl
      · exact h.timely a ha b hb hlt
      · have htime := h.times a ha
        rw [h.sameConfig] at hsum
        rw [UInt64.le_iff_toNat_le, h.sameConfig, hsum]
        exact htime
    · -- the new frame is numbered above the whole queue
      rcases Line.mem_join.1 hb with hb | rfl
      · exact absurd hlt (hrising frame rfl _ (h.queued_mem_pushed hb)).not_gt
      · exact absurd hlt (lt_irrefl _)
  | idle hnone => exact h.timely
  | deliver entry rest hleaves =>
    have hsub := hleaves.sublist.subset
    exact fun a ha b hb => h.timely a (hsub ha) b (hsub hb)

theorem Overtaken.bounded_step (h : Overtaken key config os rf) (hrising : Rising key os (.ok rf) call)
    (hstep : Step rf call next events) : Bounded 1 key (popped (os ++ events)) next.queued := by
  cases hstep with
  | advance deltaMs =>
    rw [List.append_nil]
    exact h.bounded
  | drop frame hdrop =>
    rw [popped_append, popped_pushed, List.append_nil]
    exact h.bounded
  | enqueue frame hdrop =>
    have hline : (rf.enqueue (rf.runtime.nowMs + rf.config.jitterMs) frame).queued.Perm (rf.queued ++ [frame]) := by
      rw [MockRf.queued, MockRf.enqueue, Line.map_join]
      exact Line.join_perm _ _ _
    rw [popped_append, popped_pushed, List.append_nil]
    exact h.bounded.join (fun x hx => (hrising frame rfl x (h.mem_pushed (List.mem_append_left _ hx))).le) hline
  | idle hnone =>
    rw [List.append_nil]
    exact h.bounded
  | deliver entry rest hleaves =>
    rw [popped_append, popped_popped]
    exact h.bounded.leave (hleaves.perm.map Prod.snd) (h.countP_rest hleaves)

theorem Overtaken.step (h : Overtaken key config os rf) (hreorder : config.reorder = true) (hfits : Fits os (.ok rf) call)
    (hrising : Rising key os (.ok rf) call) (hstep : Step rf call next events) :
    Overtaken key config (os ++ events) next where
  toConserved := h.toConserved.step hstep
  ordered := h.ordered_step hreorder hrising hstep
  timely := h.timely_step hfits hrising hstep
  bounded := h.bounded_step hrising hstep

end Steps

/-! ## Every run -/

section WholeRuns

variable [Profile] {dropFirst reorder : Bool} {jitterMs : UInt64} {calls : List (Call α)}

theorem run_accounted {rf : MockRf α} (hend : (channel.run (.ok (.new dropFirst reorder jitterMs)) calls).1 = .ok rf) :
    Line.Accounted (accepted dropFirst (pushes calls)) (popped (channel.run (.ok (.new dropFirst reorder jitterMs)) calls).2)
      rf.queued := by
  have hinv := channel_invariant (conserved_new dropFirst reorder jitterMs) (fun _ _ _ _ _ h hstep => h.step hstep) hend
  rw [← (run_counts hend).2]
  exact hinv.accounted

theorem run_inOrder (hclock : (clock 0 calls).toNat + jitterMs.toNat < 2 ^ 64) {rf : MockRf α}
    (hend : (channel.run (.ok (.new dropFirst false jitterMs)) calls).1 = .ok rf) :
    Line.InOrder (accepted dropFirst (pushes calls)) (popped (channel.run (.ok (.new dropFirst false jitterMs)) calls).2)
      rf.queued := by
  have hfits : channel.Along Fits [] (.ok (.new dropFirst false jitterMs)) calls := along_fits hclock
  have hinv := along_channel_invariant (fifo_new dropFirst false jitterMs) hfits
    (fun os rf call next events h hfit hstep => h.step rfl hfit hstep) hend
  rw [← (run_counts hend).2]
  exact hinv.inOrder

/-- After every run on rising frames it is bounded how far they have overtaken each other. -/
theorem run_bounded (hclock : (clock 0 calls).toNat + jitterMs.toNat < 2 ^ 64)
    (hrising : (pushes calls).Pairwise fun a b => key a < key b) {rf : MockRf α}
    (hend : (channel.run (.ok (.new dropFirst reorder jitterMs)) calls).1 = .ok rf) :
    Bounded (passes reorder) key (popped (channel.run (.ok (.new dropFirst reorder jitterMs)) calls).2) rf.queued := by
  cases reorder with
  | false =>
    apply bounded_zero
    rw [← show accepted dropFirst (pushes calls) = _ from run_inOrder hclock hend]
    exact hrising.sublist (accepted_sublist _ _)
  | true =>
    have hfits : channel.Along Fits [] (.ok (.new dropFirst true jitterMs)) calls := along_fits hclock
    have hrise : channel.Along (Rising key) [] (.ok (.new dropFirst true jitterMs)) calls := along_rising hrising
    exact (along_channel_invariant (overtaken_new dropFirst true jitterMs) (hfits.and hrise)
      (fun os rf call next events h hC hstep => h.step rfl hC.1 hC.2 hstep) hend).bounded

end WholeRuns

/-- The tags number the frames in the order of their pushes. -/
theorem pushes_tag_pairwise (index : Nat) (now : UInt64) (calls : List (Call α)) :
    (pushes (tag index now calls)).Pairwise (fun a b => a.index < b.index) ∧
      ∀ x ∈ pushes (tag index now calls), index ≤ x.index := by
  induction index, now, calls using tag.induct with
  | case1 index now => exact ⟨List.Pairwise.nil, by simp [tag, pushes]⟩
  | case2 index now deltaMs calls ih => exact ih
  | case3 index now frame calls ih =>
    obtain ⟨hpair, hle⟩ := ih
    refine ⟨List.pairwise_cons.2 ⟨fun x hx => hle x hx, hpair⟩, fun x hx => ?_⟩
    rcases List.mem_cons.1 hx with rfl | hx
    · exact le_rfl
    · exact (Nat.le_succ index).trans (hle x hx)
  | case4 index now calls ih => exact ih

/-- However pushes, pops and advances follow each other: when a frame is popped, at most one frame pushed before it
stays behind in the channel (to be popped later, or still queued at the end), and without reordering none does. -/
theorem overtakes_at_most_one [Profile] (dropFirst reorder : Bool) (jitterMs : UInt64) (calls : List (Call α))
    (hclock : (clock 0 calls).toNat + jitterMs.toNat < 2 ^ 64) :
    ∃ rf, (traced dropFirst reorder jitterMs calls).1 = .ok rf ∧
      ∀ before x after, popped (traced dropFirst reorder jitterMs calls).2 = before ++ x :: after →
        (after ++ rf.queued).countP (fun y => decide (y.index < x.index)) ≤ if reorder then 1 else 0 := by
  have hclock' : (clock 0 (tag 0 0 calls)).toNat + jitterMs.toNat < 2 ^ 64 := by rwa [clock_tag]
  obtain ⟨rf, hend⟩ := @run_ok (Sent α) (.new dropFirst reorder jitterMs) (tag 0 0 calls) _ hclock'
  refine ⟨rf, hend, fun before x after hpopped => ?_⟩
  have hbounded := run_bounded hclock' (pushes_tag_pairwise 0 0 calls).1 hend
  rw [← traced, hpopped] at hbounded
  exact hbounded.passed

/-- The first of three frames is held back: both later ones overtake it, and it is all that they overtake. -/
theorem overtakes_at_most_one_heldBack :
    ∃ rf : MockRf (Sent (List UInt8)),
      (@traced _ devProfile false true 1 [.push [7], .push [8], .push [9], .advance 1, .pop, .pop]).1 = .ok rf ∧
      (popped (@traced _ devProfile false true 1 [.push [7], .push [8], .push [9], .advance 1, .pop, .pop]).2).map
        (fun x => x.index) = [1, 2] ∧
      rf.queued.countP (fun y => decide (y.index < 2)) ≤ 1 := by
  obtain ⟨rf, hend, hpassed⟩ :=
    @overtakes_at_most_one (List UInt8) devProfile false true 1 [.push [7], .push [8], .push [9], .advance 1, .pop, .pop]
      (by decide)
  exact ⟨rf, hend, rfl, hpassed [⟨1, 0, [8]⟩] ⟨2, 0, [9]⟩ [] rfl⟩

end KeyboardProject.Sim
