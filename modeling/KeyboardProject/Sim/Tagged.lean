/-
Frames that carry the number and the time of their push. Two frames with the same bytes are told apart
by their tags, and the channel, which never looks into a frame, does the same with the tags as without.
-/
import KeyboardProject.Sim.Channel

namespace KeyboardProject.Sim

open Rust Rust.Outcome

variable {α β : Type}

/-- A frame, the number of pushes before its own, and the clock at its push. -/
structure Sent (α : Type) where
  index : Nat
  sentAt : UInt64
  frame : α
  deriving DecidableEq, Repr

/-- The calls with every frame tagged, from a number of pushes and a clock on. -/
def tag : Nat → UInt64 → List (Call α) → List (Call (Sent α))
  | _, _, [] => []
  | index, now, .advance deltaMs :: calls => .advance deltaMs :: tag index (u64SaturatingAdd now deltaMs) calls
  | index, now, .push frame :: calls => .push { index, sentAt := now, frame } :: tag (index + 1) now calls
  | index, now, .pop :: calls => .pop :: tag index now calls

/-- The run of a new channel on the tagged calls. -/
def traced [Profile] (dropFirst reorder : Bool) (jitterMs : UInt64) (calls : List (Call α)) :
    Outcome Empty (MockRf (Sent α)) × List (Event (Sent α)) :=
  channel.run (.ok (.new dropFirst reorder jitterMs)) (tag 0 0 calls)

/-! ## Other frames, same run -/

def Call.map (f : α → β) : Call α → Call β
  | .advance deltaMs => .advance deltaMs
  | .push frame => .push (f frame)
  | .pop => .pop

def Event.map (f : α → β) : Event α → Event β
  | .pushed frame => .pushed (f frame)
  | .popped nowMs frame => .popped nowMs (f frame)

/-- An entry of the queue under another frame. -/
def entryMap (f : α → β) (entry : UInt64 × α) : UInt64 × β := (entry.1, f entry.2)

def MockRf.map (f : α → β) (rf : MockRf α) : MockRf β where
  config := rf.config
  runtime :=
    { nowMs := rf.runtime.nowMs
      queue := rf.runtime.queue.map (entryMap f)
      delivered := rf.runtime.delivered
      dropped := rf.runtime.dropped
      firstFrameSeen := rf.runtime.firstFrameSeen }

theorem enqueue_map (f : α → β) (rf : MockRf α) (deliverAt : UInt64) (frame : α) :
    (rf.map f).enqueue deliverAt (f frame) = (rf.enqueue deliverAt frame).map f := by
  have h := Line.map_join (entryMap f) rf.config.reorder rf.runtime.queue (deliverAt, frame)
  simp only [MockRf.enqueue, MockRf.map, h]
  rfl

section Naturality

variable [Profile]

theorem push_map (f : α → β) (rf : MockRf α) (frame : α) :
    (rf.map f).push (f frame) = (rf.push frame >>= fun next => .ok (next.map f)) := by
  rw [MockRf.push_eq, MockRf.push_eq]
  by_cases hdrop : rf.Drops
  · have hdrop' : (rf.map f).Drops := hdrop
    rw [if_pos hdrop, if_pos hdrop']
    rfl
  · have hdrop' : ¬(rf.map f).Drops := hdrop
    rw [if_neg hdrop, if_neg hdrop', bind_assoc]
    simp only [enqueue_map, ok_bind]
    rfl

omit [Profile] in
theorem pop_map (f : α → β) (rf : MockRf α) :
    (rf.map f).pop = (rf.pop >>= fun out => .ok (out.1.map f, out.2.map f)) := by
  rcases rf.pop_cases with ⟨hnone, hpop⟩ | ⟨entry, rest, hleaves, hpop⟩
  · have hnone' : ∀ entry ∈ (rf.map f).runtime.queue, ¬(rf.map f).Due entry := by
      intro _ hmem
      obtain ⟨entry, hentry, rfl⟩ := List.mem_map.1 hmem
      exact hnone entry hentry
    rw [hpop, MockRf.pop_of_not_due hnone']
    rfl
  · have hleaves' : Line.Leaves (rf.map f).Due (rf.map f).runtime.queue (entryMap f entry) (rest.map (entryMap f)) :=
      hleaves.map fun _ => Iff.rfl
    rw [hpop, MockRf.pop_of_leaves hleaves']
    rfl

theorem call_map (f : α → β) (rf : MockRf α) (call : Call α) :
    (rf.map f).call (call.map f) = (rf.call call >>= fun out => .ok (out.1.map f, out.2.map (Event.map f))) := by
  cases call with
  | advance deltaMs => rfl
  | push frame =>
    simp only [Call.map, MockRf.call, push_map, bind_assoc]
    rfl
  | pop =>
    simp only [Call.map, MockRf.call, pop_map, bind_assoc]
    congr 1
    funext out
    cases out.1 <;> rfl

theorem channel_step_map (f : α → β) (s : Outcome Empty (MockRf α)) (call : Call α) :
    channel.step (s >>= fun rf => .ok (rf.map f)) (call.map f) =
      ((channel.step s call).1 >>= fun rf => .ok (rf.map f), (channel.step s call).2.map (Event.map f)) := by
  cases s with
  | ok rf =>
    unfold channel
    simp only [ok_bind, call_map]
    cases rf.call call with
    | ok out => rfl
    | err e => nomatch e
    | panic => rfl
  | err e => nomatch e
  | panic => rfl

end Naturality

theorem tag_map (index : Nat) (now : UInt64) (calls : List (Call α)) : (tag index now calls).map (Call.map Sent.frame) = calls := by
  induction index, now, calls using tag.induct with
  | case1 index now => rfl
  | case2 index now deltaMs calls ih => rw [tag, List.map_cons, ih]; rfl
  | case3 index now frame calls ih => rw [tag, List.map_cons, ih]; rfl
  | case4 index now calls ih => rw [tag, List.map_cons, ih]; rfl

theorem tag_append (index : Nat) (now : UInt64) (calls calls' : List (Call α)) :
    tag index now (calls ++ calls') =
      tag index now calls ++ tag (index + (pushes calls).length) (clock now calls) calls' := by
  induction index, now, calls using tag.induct with
  | case1 index now => rfl
  | case2 index now deltaMs calls ih => exact congrArg (List.cons _) ih
  | case3 index now frame calls ih =>
    have hindex : index + (pushes (.push frame :: calls)).length = index + 1 + (pushes calls).length := by
      show index + (frame :: pushes calls).length = _
      rw [List.length_cons]; omega
    rw [hindex]
    exact congrArg (List.cons _) ih
  | case4 index now calls ih => exact congrArg (List.cons _) ih

theorem pushes_tag_length (index : Nat) (now : UInt64) (calls : List (Call α)) :
    (pushes (tag index now calls)).length = (pushes calls).length := by
  induction index, now, calls using tag.induct with
  | case1 index now => rfl
  | case2 index now deltaMs calls ih => exact ih
  | case3 index now frame calls ih => exact congrArg (· + 1) ih
  | case4 index now calls ih => exact ih

theorem clock_tag (index : Nat) (now start : UInt64) (calls : List (Call α)) :
    clock start (tag index now calls) = clock start calls := by
  induction index, now, calls using tag.induct generalizing start with
  | case1 index now => rfl
  | case2 index now deltaMs calls ih => exact ih _
  | case3 index now frame calls ih => exact ih _
  | case4 index now calls ih => exact ih _

/-- Without the tags, the traced run is the run on the frames themselves. -/
theorem traced_erase [Profile] (dropFirst reorder : Bool) (jitterMs : UInt64) (calls : List (Call α)) :
    channel.run (.ok (.new dropFirst reorder jitterMs)) calls =
      ((traced dropFirst reorder jitterMs calls).1 >>= fun rf => .ok (rf.map Sent.frame),
        (traced dropFirst reorder jitterMs calls).2.map (Event.map Sent.frame)) := by
  have h := Machine.run_map channel (channel_step_map Sent.frame) (.ok (.new dropFirst reorder jitterMs)) (tag 0 0 calls)
  rw [tag_map] at h
  exact h

/-! ## The tags -/

/-- The pushed frame carries the number of pushes before it and the clock. -/
def Tagged (os : List (Event (Sent α))) (s : Outcome Empty (MockRf (Sent α))) (call : Call (Sent α)) : Prop :=
  ∀ rf x, s = .ok rf → call = .push x → x.index = (pushed os).length ∧ x.sentAt = rf.runtime.nowMs

/-- What a call makes of the number of pushes and of the clock. -/
theorem counts_step [Profile] {os : List (Event α)} {s : Outcome Empty (MockRf α)} {index : Nat} {now : UInt64}
    (h : ∀ rf, s = .ok rf → (pushed os).length = index ∧ rf.runtime.nowMs = now) (call : Call α) :
    ∀ next, (channel.step s call).1 = .ok next →
      (pushed (os ++ (channel.step s call).2)).length = index + (pushes [call]).length ∧
        next.runtime.nowMs = clock now [call] := by
  intro next hend
  obtain ⟨rf, hs, hstep⟩ := step_of_channel hend
  obtain ⟨hindex, hnow⟩ := h rf hs
  rw [pushed_append, List.length_append, hstep.pushed_eq, hindex, hstep.nowMs, hnow]
  exact ⟨rfl, rfl⟩

/-- Every push of a traced run is tagged with what it finds. -/
theorem along_tagged [Profile] {os : List (Event (Sent α))} {s : Outcome Empty (MockRf (Sent α))} {index : Nat}
    {now : UInt64} {calls : List (Call α)} (h : ∀ rf, s = .ok rf → (pushed os).length = index ∧ rf.runtime.nowMs = now) :
    channel.Along Tagged os s (tag index now calls) := by
  induction index, now, calls using tag.induct generalizing os s with
  | case1 index now => trivial
  | case2 index now deltaMs calls ih =>
    exact ⟨by rintro rf x - hcall; contradiction, ih (counts_step h _)⟩
  | case3 index now frame calls ih =>
    refine ⟨?_, ih (counts_step h _)⟩
    intro rf x hs hcall
    obtain rfl := Call.push.inj hcall
    obtain ⟨hindex, hnow⟩ := h rf hs
    exact ⟨hindex.symm, hnow.symm⟩
  | case4 index now calls ih =>
    exact ⟨by rintro rf x - hcall; contradiction, ih (counts_step h _)⟩

end KeyboardProject.Sim
