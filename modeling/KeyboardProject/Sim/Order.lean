/-
The order of delivery. Without reordering the delivery times in the queue go up, so that the first due
frame is the first in line. With it, the frame at the end is held back: every later one joins ahead of it.
-/
import KeyboardProject.Sim.Tagged

namespace KeyboardProject.Sim

open Rust Rust.Outcome

variable {α : Type}

/-- The jitter fits the clock of the channel. -/
def Fits (_ : List (Event α)) (s : Outcome Empty (MockRf α)) (_ : Call α) : Prop :=
  ∀ rf, s = .ok rf → rf.runtime.nowMs.toNat + rf.config.jitterMs.toNat < 2 ^ 64

theorem along_fits [Profile] {os : List (Event α)} {rf : MockRf α} {calls : List (Call α)}
    (h : (clock rf.runtime.nowMs calls).toNat + rf.config.jitterMs.toNat < 2 ^ 64) :
    channel.Along Fits os (.ok rf) calls := by
  induction calls generalizing os rf with
  | nil => trivial
  | cons call calls ih =>
    have hnow := le_clock rf.runtime.nowMs (call :: calls)
    have hfits : rf.runtime.nowMs.toNat + rf.config.jitterMs.toNat < 2 ^ 64 := by omega
    obtain ⟨next, events, hcall⟩ := exists_call fun (frame : α) (_ : call = .push frame) _ => hfits
    have hstep := step_of_call hcall
    refine ⟨fun rf' hrf => by obtain rfl := ok.inj hrf; exact hfits, ?_⟩
    rw [channel_step_ok hcall]
    refine ih ?_
    rw [hstep.nowMs, hstep.sameConfig]
    exact h

/-! ## Without reordering -/

/-- What a run without reordering keeps: the frames are popped in the order of their pushes, and are
queued in the order of their delivery times. -/
structure Fifo (config : MockRfConfig) (os : List (Event α)) (rf : MockRf α) : Prop extends Conserved config os rf where
  inOrder : Line.InOrder (accepted config.dropFirst (pushed os)) (popped os) rf.queued
  sorted : rf.runtime.queue.Pairwise fun a b => a.1 ≤ b.1

theorem fifo_new (dropFirst reorder : Bool) (jitterMs : UInt64) :
    Fifo { dropFirst, reorder, jitterMs } ([] : List (Event α)) (.new dropFirst reorder jitterMs) where
  toConserved := conserved_new dropFirst reorder jitterMs
  inOrder := by cases dropFirst <;> rfl
  sorted := List.Pairwise.nil

section Steps

variable {config : MockRfConfig}

theorem Fifo.step {os events : List (Event α)} {rf next : MockRf α} {call : Call α} (h : Fifo config os rf)
    (hreorder : config.reorder = false) (hfits : Fits os (.ok rf) call) (hstep : Step rf call next events) :
    Fifo config (os ++ events) next := by
  refine ⟨h.toConserved.step hstep, ?_, ?_⟩
  · cases hstep with
    | advance deltaMs =>
      rw [List.append_nil]
      exact h.inOrder
    | drop frame hdrop =>
      obtain ⟨hfirst, hnone⟩ := h.drops_iff.1 hdrop
      have hord := h.inOrder
      rw [hfirst, hnone] at hord
      rw [pushed_append, popped_append, hfirst, hnone, popped_pushed, List.append_nil]
      exact hord
    | enqueue frame hdrop =>
      have hnot := fun hd => hdrop (h.drops_iff.2 hd)
      rw [pushed_append, pushed_pushed, accepted_concat hnot, popped_append, popped_pushed, List.append_nil,
        MockRf.queued, MockRf.enqueue, h.sameConfig, hreorder, Line.join_false, List.map_append]
      exact h.inOrder.join frame
    | idle hnone =>
      rw [List.append_nil]
      exact h.inOrder
    | deliver entry rest hleaves =>
      -- a later delivery time is due only after an earlier one
      have hqueue : rf.runtime.queue = entry :: rest :=
        hleaves.eq_cons h.sorted fun a b hab hb => UInt64.le_trans hab hb
      have hord := h.inOrder
      rw [MockRf.queued, hqueue] at hord
      rw [pushed_append, pushed_popped, List.append_nil, popped_append, popped_popped]
      exact hord.leaves
  · cases hstep with
    | advance deltaMs => exact h.sorted
    | drop frame hdrop => exact h.sorted
    | enqueue frame hdrop =>
      have hsum := u64_add_toNat (hfits rf rfl)
      rw [MockRf.enqueue, h.sameConfig, hreorder]
      refine List.pairwise_append.2 ⟨h.sorted, List.pairwise_singleton _ _, fun a ha b hb => ?_⟩
      rw [List.mem_singleton.1 hb, UInt64.le_iff_toNat_le]
      rw [h.sameConfig] at hsum
      show a.1.toNat ≤ (rf.runtime.nowMs + config.jitterMs).toNat
      rw [hsum]
      exact h.times a ha
    | idle hnone => exact h.sorted
    | deliver entry rest hleaves => exact h.sorted.sublist hleaves.sublist

/-! ## With reordering -/

/-- What a run with reordering keeps: all but the last frame in the queue are in the order of their pushes. -/
structure HeldBack (config : MockRfConfig) (os : List (Event (Sent α))) (rf : MockRf (Sent α)) : Prop where
  sameConfig : rf.config = config
  below : ∀ entry ∈ rf.runtime.queue, entry.2.index < (pushed os).length
  ordered : rf.runtime.queue.dropLast.Pairwise fun a b => a.2.index < b.2.index

theorem heldBack_new (dropFirst reorder : Bool) (jitterMs : UInt64) :
    HeldBack { dropFirst, reorder, jitterMs } ([] : List (Event (Sent α))) (.new dropFirst reorder jitterMs) :=
  ⟨rfl, by simp [MockRf.new], List.Pairwise.nil⟩

theorem HeldBack.step {os events : List (Event (Sent α))} {rf next : MockRf (Sent α)} {call : Call (Sent α)}
    (h : HeldBack config os rf) (hreorder : config.reorder = true) (htag : Tagged os (.ok rf) call)
    (hstep : Step rf call next events) : HeldBack config (os ++ events) next := by
  refine ⟨hstep.sameConfig.trans h.sameConfig, ?_, ?_⟩
  · rw [pushed_append, List.length_append]
    cases hstep with
    | advance deltaMs => exact h.below
    | drop frame hdrop => exact fun entry hentry => Nat.lt_add_right _ (h.below entry hentry)
    | enqueue frame hdrop =>
      intro entry hentry
      rcases Line.mem_join.1 hentry with hentry | rfl
      · exact Nat.lt_add_right _ (h.below entry hentry)
      · rw [(htag rf frame rfl rfl).1]
        exact Nat.lt_succ_self _
    | idle hnone => exact h.below
    | deliver entry rest hleaves => exact fun e he => h.below e (hleaves.sublist.subset he)
  · cases hstep with
    | advance deltaMs => exact h.ordered
    | drop frame hdrop => exact h.ordered
    | enqueue frame hdrop =>
      rw [MockRf.enqueue, h.sameConfig, hreorder]
      refine Line.pairwise_dropLast_join h.ordered fun entry hentry => ?_
      rw [(htag rf frame rfl rfl).1]
      exact h.below entry hentry
    | idle hnone => exact h.ordered
    | deliver entry rest hleaves => exact h.ordered.sublist hleaves.dropLast_sublist

end Steps

/-! ## Every reachable state -/

/-- A pop takes the frame out of the queue that leaves first, or finds nothing due. -/
theorem leaves_of_pop {rf next : MockRf α} {frame : α} (h : rf.pop = .ok (some frame, next)) :
    ∃ entry rest, Line.Leaves rf.Due rf.runtime.queue entry rest ∧ entry.2 = frame := by
  rcases rf.pop_cases with ⟨-, hpop⟩ | ⟨entry, rest, hleaves, hpop⟩
  · have hframe := (Prod.mk.inj (ok.inj (hpop.symm.trans h))).1
    contradiction
  · have hframe := (Prod.mk.inj (ok.inj (hpop.symm.trans h))).1
    exact ⟨entry, rest, hleaves, Option.some.inj hframe⟩

theorem not_due_of_pop {rf next : MockRf α} (h : rf.pop = .ok (none, next)) :
    ∀ entry ∈ rf.runtime.queue, ¬rf.Due entry := by
  rcases rf.pop_cases with ⟨hnone, -⟩ | ⟨entry, rest, -, hpop⟩
  · exact hnone
  · have hframe := (Prod.mk.inj (ok.inj (hpop.symm.trans h))).1
    contradiction

/-- The order of delivery, in terms of the run on tagged frames, which is the run on the frames themselves.
A pop returns nothing only when nothing is due. Without reordering, the frames are popped in the order in
which they were pushed. With reordering, the queue without its last frame is in push order; a pop returns
the oldest due frame of those, and the last frame only when it is due and none of those is. -/
theorem delivery_order [Profile] (dropFirst reorder : Bool) (jitterMs : UInt64) (calls : List (Call α))
    (hclock : (clock 0 calls).toNat + jitterMs.toNat < 2 ^ 64) :
    ∃ rf, (traced dropFirst reorder jitterMs calls).1 = .ok rf ∧
      channel.run (.ok (.new dropFirst reorder jitterMs)) calls =
        (.ok (rf.map Sent.frame), (traced dropFirst reorder jitterMs calls).2.map (Event.map Sent.frame)) ∧
      (∀ next, rf.pop = .ok (none, next) → ∀ entry ∈ rf.runtime.queue, ¬rf.Due entry) ∧
      (reorder = false →
        popped (traced dropFirst reorder jitterMs calls).2 ++ rf.queued = accepted dropFirst (pushes (tag 0 0 calls))) ∧
      (reorder = true →
        rf.runtime.queue.dropLast.Pairwise (fun a b => a.2.index < b.2.index) ∧
        ∀ frame next, rf.pop = .ok (some frame, next) →
          (∃ entry ∈ rf.runtime.queue.dropLast, entry.2 = frame ∧ rf.Due entry ∧
            ∀ e ∈ rf.runtime.queue.dropLast, rf.Due e → frame.index ≤ e.2.index) ∨
          (∃ entry, rf.runtime.queue.getLast? = some entry ∧ entry.2 = frame ∧ rf.Due entry ∧
            ∀ e ∈ rf.runtime.queue.dropLast, ¬rf.Due e)) := by
  have hclock' : (clock 0 (tag 0 0 calls)).toNat + jitterMs.toNat < 2 ^ 64 := by rwa [clock_tag]
  obtain ⟨rf, hend⟩ := @run_ok (Sent α) (.new dropFirst reorder jitterMs) (tag 0 0 calls) _ hclock'
  have htagged : channel.Along Tagged [] (.ok (.new dropFirst reorder jitterMs)) (tag 0 0 calls) :=
    along_tagged fun rf hrf => by obtain rfl := ok.inj hrf; exact ⟨rfl, rfl⟩
  have hfits : channel.Along Fits [] (.ok (.new dropFirst reorder jitterMs)) (tag 0 0 calls) := along_fits hclock'
  refine ⟨rf, hend, ?_, fun next hpop => not_due_of_pop hpop, fun hreorder => ?_, fun hreorder => ?_⟩
  · rw [traced_erase, show (traced dropFirst reorder jitterMs calls).1 = .ok rf from hend]
    rfl
  · have hinv := along_channel_invariant (fifo_new dropFirst reorder jitterMs) hfits
      (fun os rf call next events h hfit hstep => h.step hreorder hfit hstep) hend
    rw [← (run_counts hend).2]
    exact hinv.inOrder.symm
  · have hinv := along_channel_invariant (heldBack_new dropFirst reorder jitterMs) htagged
      (fun os rf call next events h htag hstep => h.step hreorder htag hstep) hend
    refine ⟨hinv.ordered, fun frame next hpop => ?_⟩
    obtain ⟨entry, rest, hleaves, rfl⟩ := leaves_of_pop hpop
    rcases hleaves.cases_dropLast hinv.ordered with ⟨hmem, hfirst⟩ | ⟨hlast, hnone⟩
    · refine Or.inl ⟨entry, hmem, rfl, hleaves.may, fun e he hdue => ?_⟩
      rcases hfirst e he hdue with rfl | hlt
      · exact le_rfl
      · exact hlt.le
    · exact Or.inr ⟨entry, hlast, rfl, hleaves.may, hnone⟩

/-- The first of three equal frames is held back: of the frames that are due, the second is the oldest. -/
theorem delivery_order_heldBack :
    ∃ rf : MockRf (Sent (List UInt8)), (@traced _ devProfile false true 1 [.push [7], .push [7], .push [7], .advance 1]).1 = .ok rf ∧
      rf.runtime.queue.dropLast.Pairwise (fun a b => a.2.index < b.2.index) ∧
      rf.queued.map (fun x => x.index) = [1, 2, 0] := by
  obtain ⟨rf, hend, -, -, -, hreorder⟩ :=
    @delivery_order (List UInt8) devProfile false true 1 [.push [7], .push [7], .push [7], .advance 1] (by decide)
  refine ⟨rf, hend, (hreorder rfl).1, ?_⟩
  obtain rfl := ok.inj hend
  rfl

end KeyboardProject.Sim
