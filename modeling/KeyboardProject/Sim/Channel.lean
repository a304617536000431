/-
Runs of the channel: any sequence of `advance`, `push` and `pop`. No frame is lost, duplicated or
altered: what was pushed was popped, is queued, or was the one frame to drop.
-/
import KeyboardProject.Lib.Machine
import KeyboardProject.Sim.MockRf

namespace KeyboardProject.Sim

open Rust Rust.Outcome

variable {α β : Type}

/-! ## Calls -/

inductive Call (α : Type) where
  | advance (deltaMs : UInt64)
  | push (frame : α)
  | pop
  deriving DecidableEq, Repr

/-- What is seen of a call: the frame pushed, or the frame popped and the clock at that. -/
inductive Event (α : Type) where
  | pushed (frame : α)
  | popped (nowMs : UInt64) (frame : α)
  deriving DecidableEq, Repr

/-- One call on the channel. -/
def MockRf.call [Profile] (self : MockRf α) : Call α → Outcome Empty (MockRf α × List (Event α))
  | .advance deltaMs => .ok (self.advance deltaMs, [])
  | .push frame => do
    let next ← self.push frame
    pure (next, [.pushed frame])
  | .pop => do
    let (frame, next) ← self.pop
    pure (next, (frame.map (Event.popped self.runtime.nowMs)).toList)

/-- The channel under its calls. A panic ends the run. -/
def channel [Profile] : Machine (Outcome Empty (MockRf α)) (Call α) (Event α) where
  step rf call :=
    match rf >>= fun self => self.call call with
    | .ok (next, events) => (.ok next, events)
    | _ => (.panic, [])

/-- The frames pushed in a sequence of calls. -/
def pushes (calls : List (Call α)) : List α :=
  calls.filterMap fun
    | .push frame => some frame
    | _ => none

/-- The clock after a sequence of calls. It never goes back. -/
def clock (nowMs : UInt64) (calls : List (Call α)) : UInt64 :=
  calls.foldl (fun now call =>
    match call with
    | .advance deltaMs => u64SaturatingAdd now deltaMs
    | _ => now) nowMs

/-- The frames popped. -/
def popped (events : List (Event α)) : List α :=
  events.filterMap fun
    | .popped _ frame => some frame
    | _ => none

/-- The frames pushed, as they were seen. -/
def pushed (events : List (Event α)) : List α :=
  events.filterMap fun
    | .pushed frame => some frame
    | _ => none

/-- What the channel drops of the frames pushed into it. -/
def lost (dropFirst : Bool) (frames : List α) : List α := if dropFirst then frames.take 1 else []

/-- What the channel lets join its queue. -/
def accepted (dropFirst : Bool) (frames : List α) : List α := if dropFirst then frames.drop 1 else frames

/-! ## What a call does -/

/-- The effects a call can have. -/
inductive Step (rf : MockRf α) : Call α → MockRf α → List (Event α) → Prop where
  | advance (deltaMs : UInt64) : Step rf (.advance deltaMs) (rf.advance deltaMs) []
  | drop (frame : α) (h : rf.Drops) : Step rf (.push frame) rf.drop [.pushed frame]
  | enqueue (frame : α) (h : ¬rf.Drops) :
    Step rf (.push frame) (rf.enqueue (rf.runtime.nowMs + rf.config.jitterMs) frame) [.pushed frame]
  | idle (h : ∀ entry ∈ rf.runtime.queue, ¬rf.Due entry) : Step rf .pop rf []
  | deliver (entry : UInt64 × α) (rest : List (UInt64 × α)) (h : Line.Leaves rf.Due rf.runtime.queue entry rest) :
    Step rf .pop (rf.deliver rest) [.popped rf.runtime.nowMs entry.2]

section Runs

variable [Profile]

theorem step_of_call {rf next : MockRf α} {call : Call α} {events : List (Event α)}
    (h : rf.call call = .ok (next, events)) : Step rf call next events := by
  cases call with
  | advance deltaMs =>
    obtain ⟨rfl, rfl⟩ := Prod.mk.inj (ok.inj h)
    exact .advance deltaMs
  | push frame =>
    obtain ⟨rf', hpush, hrest⟩ := bind_eq_ok.1 h
    obtain ⟨rfl, rfl⟩ := Prod.mk.inj (ok.inj hrest)
    rcases MockRf.push_eq_ok hpush with ⟨hdrop, rfl⟩ | ⟨hdrop, rfl⟩
    · exact .drop frame hdrop
    · exact .enqueue frame hdrop
  | pop =>
    obtain ⟨⟨frame, rf'⟩, hpop, hrest⟩ := bind_eq_ok.1 h
    obtain ⟨rfl, rfl⟩ := Prod.mk.inj (ok.inj hrest)
    rcases rf.pop_cases with ⟨hnone, hpop'⟩ | ⟨entry, rest, hleaves, hpop'⟩
    · obtain ⟨rfl, rfl⟩ := Prod.mk.inj (ok.inj (hpop.symm.trans hpop'))
      exact .idle hnone
    · obtain ⟨rfl, rfl⟩ := Prod.mk.inj (ok.inj (hpop.symm.trans hpop'))
      exact .deliver entry rest hleaves

theorem channel_step_ok {rf next : MockRf α} {call : Call α} {events : List (Event α)}
    (h : rf.call call = .ok (next, events)) : channel.step (.ok rf) call = (.ok next, events) := by
  unfold channel
  simp only [ok_bind, h]

/-- A step that does not panic is the effect of its call. -/
theorem step_of_channel {s : Outcome Empty (MockRf α)} {call : Call α} {next : MockRf α}
    (h : (channel.step s call).1 = .ok next) : ∃ rf, s = .ok rf ∧ Step rf call next (channel.step s call).2 := by
  cases s with
  | ok rf =>
    refine ⟨rf, rfl, ?_⟩
    cases hcall : rf.call call with
    | ok out =>
      rw [channel_step_ok hcall] at h ⊢
      obtain rfl := ok.inj h
      exact step_of_call hcall
    | err e => nomatch e
    | panic =>
      unfold channel at h
      simp only [ok_bind, hcall] at h
      contradiction
  | err e => nomatch e
  | panic => contradiction

/-- What holds of a channel and of what was seen so far, and is kept by every call that meets the
condition, holds after every run that does not panic and whose calls all meet it. -/
theorem along_channel_invariant {C : List (Event α) → Outcome Empty (MockRf α) → Call α → Prop}
    {P : List (Event α) → MockRf α → Prop} {start rf : MockRf α} {calls : List (Call α)}
    (hinit : P [] start) (h : channel.Along C [] (.ok start) calls)
    (hstep : ∀ os rf call next events, P os rf → C os (.ok rf) call → Step rf call next events → P (os ++ events) next)
    (hend : (channel.run (.ok start) calls).1 = .ok rf) : P (channel.run (.ok start) calls).2 rf := by
  have hall := h.invariant (P := fun os s => ∀ rf, s = .ok rf → P os rf) (fun rf hrf => ok.inj hrf ▸ hinit) ?_
  · exact hall rf hend
  · intro os s call hP hC next hnext
    obtain ⟨rf, rfl, hcall⟩ := step_of_channel hnext
    exact hstep os rf call next _ (hP rf rfl) hC hcall

theorem channel_invariant {P : List (Event α) → MockRf α → Prop} {start rf : MockRf α} {calls : List (Call α)}
    (hinit : P [] start) (hstep : ∀ os rf call next events, P os rf → Step rf call next events → P (os ++ events) next)
    (hend : (channel.run (.ok start) calls).1 = .ok rf) : P (channel.run (.ok start) calls).2 rf :=
  along_channel_invariant hinit (Machine.along_true [] _ calls) (fun os rf call next events hP _ => hstep os rf call next events hP) hend

end Runs

/-! ## What is pushed and what is popped -/

@[simp] theorem pushed_append (os os' : List (Event α)) : pushed (os ++ os') = pushed os ++ pushed os' :=
  List.filterMap_append ..

@[simp] theorem popped_append (os os' : List (Event α)) : popped (os ++ os') = popped os ++ popped os' :=
  List.filterMap_append ..

@[simp] theorem pushed_nil : pushed ([] : List (Event α)) = [] := rfl
@[simp] theorem popped_nil : popped ([] : List (Event α)) = [] := rfl
@[simp] theorem pushed_pushed (frame : α) : pushed [.pushed frame] = [frame] := rfl
@[simp] theorem popped_pushed (frame : α) : popped [.pushed frame] = [] := rfl
@[simp] theorem pushed_popped (nowMs : UInt64) (frame : α) : pushed [.popped nowMs frame] = [] := rfl
@[simp] theorem popped_popped (nowMs : UInt64) (frame : α) : popped [.popped nowMs frame] = [frame] := rfl

theorem lost_concat {dropFirst : Bool} {frames : List α} (h : ¬(dropFirst = true ∧ frames = [])) (frame : α) :
    lost dropFirst (frames ++ [frame]) = lost dropFirst frames := by
  cases dropFirst with
  | false => rfl
  | true =>
    cases frames with
    | nil => exact absurd ⟨rfl, rfl⟩ h
    | cons first frames => rfl

theorem accepted_concat {dropFirst : Bool} {frames : List α} (h : ¬(dropFirst = true ∧ frames = [])) (frame : α) :
    accepted dropFirst (frames ++ [frame]) = accepted dropFirst frames ++ [frame] := by
  cases dropFirst with
  | false => rfl
  | true =>
    cases frames with
    | nil => exact absurd ⟨rfl, rfl⟩ h
    | cons first frames => rfl

theorem lost_append_accepted (dropFirst : Bool) (frames : List α) :
    lost dropFirst frames ++ accepted dropFirst frames = frames := by
  cases dropFirst with
  | false => rfl
  | true => exact List.take_append_drop 1 frames

/-! ## Conservation -/

/-- What every run keeps: the frames accepted were popped or are queued, the counts are exact, and no
frame is to be delivered later than the jitter from now. -/
structure Conserved (config : MockRfConfig) (os : List (Event α)) (rf : MockRf α) : Prop where
  sameConfig : rf.config = config
  seen : rf.runtime.firstFrameSeen = false ↔ pushed os = []
  accounted : Line.Accounted (accepted config.dropFirst (pushed os)) (popped os) rf.queued
  delivered : rf.runtime.delivered = (popped os).length
  dropped : rf.runtime.dropped = (lost config.dropFirst (pushed os)).length
  times : ∀ entry ∈ rf.runtime.queue, entry.1.toNat ≤ rf.runtime.nowMs.toNat + config.jitterMs.toNat

theorem conserved_new (dropFirst reorder : Bool) (jitterMs : UInt64) :
    Conserved { dropFirst, reorder, jitterMs } ([] : List (Event α)) (.new dropFirst reorder jitterMs) where
  sameConfig := rfl
  seen := iff_of_true rfl rfl
  accounted := by cases dropFirst <;> exact List.Perm.refl _
  delivered := rfl
  dropped := by cases dropFirst <;> rfl
  times := by simp [MockRf.new]

section Conservation

variable {config : MockRfConfig} {os events : List (Event α)} {rf next : MockRf α} {call : Call α}

theorem Conserved.drops_iff (h : Conserved config os rf) : rf.Drops ↔ config.dropFirst = true ∧ pushed os = [] := by
  rw [MockRf.Drops, h.sameConfig, h.seen]

theorem le_saturatingAdd (now deltaMs : UInt64) : now.toNat ≤ (u64SaturatingAdd now deltaMs).toNat := by
  have := now.toNat_lt
  rw [u64SaturatingAdd_toNat]
  omega

theorem Conserved.step (h : Conserved config os rf) (hstep : Step rf call next events) :
    Conserved config (os ++ events) next := by
  cases hstep with
  | advance deltaMs =>
    rw [List.append_nil]
    refine ⟨h.sameConfig, h.seen, h.accounted, h.delivered, h.dropped, fun entry hentry => ?_⟩
    exact (h.times entry hentry).trans (Nat.add_le_add_right (le_saturatingAdd _ _) _)
  | drop frame hdrop =>
    obtain ⟨hfirst, hnone⟩ := h.drops_iff.1 hdrop
    have hacc := h.accounted
    have hdropped := h.dropped
    rw [hfirst, hnone] at hacc hdropped
    refine ⟨h.sameConfig, by simp [MockRf.drop], ?_, ?_, ?_, h.times⟩
    · rw [pushed_append, popped_append, hfirst, hnone, popped_pushed, List.append_nil]
      exact hacc
    · rw [popped_append, popped_pushed, List.append_nil]
      exact h.delivered
    · rw [pushed_append, hfirst, hnone]
      show rf.runtime.dropped + 1 = 1
      rw [hdropped]
      rfl
  | enqueue frame hdrop =>
    have hnot := fun hd => hdrop (h.drops_iff.2 hd)
    refine ⟨h.sameConfig, by simp [MockRf.enqueue], ?_, ?_, ?_, fun entry hentry => ?_⟩
    · rw [pushed_append, pushed_pushed, accepted_concat hnot, popped_append, popped_pushed, List.append_nil,
        MockRf.queued, MockRf.enqueue, Line.map_join]
      exact h.accounted.join _ _
    · rw [popped_append, popped_pushed, List.append_nil]
      exact h.delivered
    · rw [pushed_append, pushed_pushed, lost_concat hnot]
      exact h.dropped
    · rcases Line.mem_join.1 hentry with hentry | rfl
      · exact h.times entry hentry
      · show (rf.runtime.nowMs + rf.config.jitterMs).toNat ≤ rf.runtime.nowMs.toNat + config.jitterMs.toNat
        rw [UInt64.toNat_add, h.sameConfig]
        exact Nat.mod_le _ _
  | idle hnone => rwa [List.append_nil]
  | deliver entry rest hleaves =>
    have hqueued : rf.queued.Perm (entry.2 :: rest.map Prod.snd) := hleaves.perm.map Prod.snd
    refine ⟨h.sameConfig, ?_, ?_, ?_, ?_, fun e he => h.times e (hleaves.sublist.subset he)⟩
    · rw [pushed_append, pushed_popped, List.append_nil]
      exact h.seen
    · rw [pushed_append, pushed_popped, List.append_nil, popped_append, popped_popped]
      exact h.accounted.leaves hqueued
    · rw [popped_append, popped_popped, List.length_append, ← h.delivered]
      rfl
    · rw [pushed_append, pushed_popped, List.append_nil]
      exact h.dropped

end Conservation

/-! ## Whole runs -/

section WholeRuns

variable {rf : MockRf α} {calls : List (Call α)}

theorem Step.nowMs {next : MockRf α} {call : Call α} {events : List (Event α)} (h : Step rf call next events) :
    next.runtime.nowMs = clock rf.runtime.nowMs [call] := by
  cases h <;> rfl

theorem Step.sameConfig {next : MockRf α} {call : Call α} {events : List (Event α)} (h : Step rf call next events) :
    next.config = rf.config := by
  cases h <;> rfl

theorem Step.pushed_eq {next : MockRf α} {call : Call α} {events : List (Event α)} (h : Step rf call next events) :
    pushed events = pushes [call] := by
  cases h <;> rfl

theorem clock_append (now : UInt64) (calls calls' : List (Call α)) :
    clock now (calls ++ calls') = clock (clock now calls) calls' := List.foldl_append ..

@[simp] theorem pushes_append (calls calls' : List (Call α)) : pushes (calls ++ calls') = pushes calls ++ pushes calls' :=
  List.filterMap_append ..

theorem le_clock (now : UInt64) (calls : List (Call α)) : now.toNat ≤ (clock now calls).toNat := by
  induction calls generalizing now with
  | nil => exact le_rfl
  | cons call calls ih =>
    refine le_trans ?_ (ih (clock now [call]))
    cases call with
    | advance deltaMs => exact le_saturatingAdd now deltaMs
    | push frame => exact le_rfl
    | pop => exact le_rfl

variable [Profile]

/-- Only a push panics, and only where the jitter of a frame to be queued does not fit. -/
theorem exists_call {call : Call α}
    (h : ∀ frame, call = .push frame → ¬rf.Drops → rf.runtime.nowMs.toNat + rf.config.jitterMs.toNat < 2 ^ 64) :
    ∃ next events, rf.call call = .ok (next, events) := by
  cases call with
  | advance deltaMs => exact ⟨_, _, rfl⟩
  | push frame =>
    by_cases hdrop : rf.Drops
    · exact ⟨_, _, bind_eq_ok.2 ⟨_, MockRf.push_drops hdrop frame, rfl⟩⟩
    · exact ⟨_, _, bind_eq_ok.2 ⟨_, MockRf.push_queues hdrop (h frame rfl hdrop) frame, rfl⟩⟩
  | pop =>
    rcases rf.pop_cases with ⟨-, hpop⟩ | ⟨entry, rest, -, hpop⟩
    · exact ⟨_, _, bind_eq_ok.2 ⟨_, hpop, rfl⟩⟩
    · exact ⟨_, _, bind_eq_ok.2 ⟨_, hpop, rfl⟩⟩

/-- A run that does not panic ends at the clock of its calls, and has seen their pushes. -/
theorem run_counts {last : MockRf α} (hend : (channel.run (.ok rf) calls).1 = .ok last) :
    last.runtime.nowMs = clock rf.runtime.nowMs calls ∧ pushed (channel.run (.ok rf) calls).2 = pushes calls := by
  induction calls using List.reverseRecOn generalizing last with
  | nil =>
    obtain rfl := ok.inj hend
    exact ⟨rfl, rfl⟩
  | append_singleton calls call ih =>
    rw [Machine.run_concat] at hend ⊢
    obtain ⟨mid, hmid, hstep⟩ := step_of_channel hend
    obtain ⟨hnow, hpushed⟩ := ih hmid
    rw [hstep.nowMs, hnow, clock_append, pushed_append, hpushed, hstep.pushed_eq, pushes_append]
    exact ⟨rfl, rfl⟩

theorem run_config {last : MockRf α} (hend : (channel.run (.ok rf) calls).1 = .ok last) : last.config = rf.config :=
  channel_invariant (P := fun _ t => t.config = rf.config) rfl
    (fun _ _ _ _ _ h hstep => hstep.sameConfig.trans h) hend

/-- A run whose clock leaves room for the jitter does not panic. -/
theorem run_ok (h : (clock rf.runtime.nowMs calls).toNat + rf.config.jitterMs.toNat < 2 ^ 64) :
    ∃ last, (channel.run (.ok rf) calls).1 = .ok last := by
  induction calls using List.reverseRecOn with
  | nil => exact ⟨rf, rfl⟩
  | append_singleton calls call ih =>
    rw [clock_append] at h
    have hle := le_clock (clock rf.runtime.nowMs calls) [call]
    obtain ⟨last, hlast⟩ := ih (by omega)
    have hnow := (run_counts hlast).1
    rw [← hnow] at h hle
    have hfits : last.runtime.nowMs.toNat + last.config.jitterMs.toNat < 2 ^ 64 := by
      rw [run_config hlast]; omega
    obtain ⟨next, events, hcall⟩ := exists_call fun (frame : α) (_ : call = .push frame) _ => hfits
    rw [Machine.run_concat, hlast, channel_step_ok hcall]
    exact ⟨next, rfl⟩

theorem run_cons_of_call {next : MockRf α} {call : Call α} {events : List (Event α)}
    (h : rf.call call = .ok (next, events)) (calls : List (Call α)) :
    channel.run (.ok rf) (call :: calls) =
      ((channel.run (.ok next) calls).1, events ++ (channel.run (.ok next) calls).2) := by
  rw [Machine.run_cons, channel_step_ok h]

/-- Popping a queue in which everything is due: each pop returns one of its frames, until it is empty. -/
theorem drain (h : ∀ entry ∈ rf.runtime.queue, rf.Due entry) :
    ∃ (frames : List α) (last : MockRf α), channel.run (.ok rf) (List.replicate rf.queued.length .pop) =
        (.ok last, frames.map (Event.popped rf.runtime.nowMs)) ∧
      frames.Perm rf.queued ∧ last.runtime.queue = [] := by
  generalize hn : rf.queued.length = n
  induction n generalizing rf with
  | zero =>
    have hnil : rf.queued = [] := List.eq_nil_of_length_eq_zero hn
    exact ⟨[], rf, rfl, by rw [hnil], List.map_eq_nil_iff.1 hnil⟩
  | succ n ih =>
    rcases rf.pop_cases with ⟨hnone, -⟩ | ⟨entry, rest, hleaves, hpop⟩
    · -- the queue is not empty, so something is due
      obtain ⟨entry, hentry⟩ : ∃ entry, entry ∈ rf.runtime.queue := by
        apply List.exists_mem_of_ne_nil
        rintro hnil
        simp [MockRf.queued, hnil] at hn
      exact absurd (h entry hentry) (hnone entry hentry)
    · have hperm : rf.queued.Perm (entry.2 :: (rf.deliver rest).queued) := hleaves.perm.map Prod.snd
      have hlen : (rf.deliver rest).queued.length = n := by
        have := hperm.length_eq
        rw [hn, List.length_cons] at this
        omega
      obtain ⟨frames, last, hrun, hframes, hempty⟩ :=
        @ih (rf.deliver rest) (fun e he => h e (hleaves.sublist.subset he)) hlen
      have hcall : rf.call .pop = .ok (rf.deliver rest, [.popped rf.runtime.nowMs entry.2]) :=
        bind_eq_ok.2 ⟨_, hpop, rfl⟩
      refine ⟨entry.2 :: frames, last, ?_, (hframes.cons entry.2).trans hperm.symm, hempty⟩
      rw [List.replicate_succ, run_cons_of_call hcall, hrun]
      rfl

/-- The channel neither loses, duplicates nor alters frames: every frame pushed was popped, is queued, or
is the first one and was dropped; the statistics count them; and after a further advance by the jitter,
each pop returns a queued frame until all are delivered and there is nothing to pop. -/
theorem conserves_frames (dropFirst reorder : Bool) (jitterMs : UInt64) (calls : List (Call α))
    (hclock : (clock 0 calls).toNat + jitterMs.toNat < 2 ^ 64) :
    ∃ rf, (channel.run (.ok (.new dropFirst reorder jitterMs)) calls).1 = .ok rf ∧
      (pushes calls).Perm
        (popped (channel.run (.ok (.new dropFirst reorder jitterMs)) calls).2 ++ rf.queued ++
          lost dropFirst (pushes calls)) ∧
      rf.stats =
        { delivered := (popped (channel.run (.ok (.new dropFirst reorder jitterMs)) calls).2).length
          dropped := (lost dropFirst (pushes calls)).length
          lastTimeMs := clock 0 calls } ∧
      ∀ deltaMs, jitterMs ≤ deltaMs →
        ∃ (frames : List α) (last : MockRf α), channel.run (.ok (rf.advance deltaMs)) (List.replicate rf.queued.length .pop) =
            (.ok last, frames.map (Event.popped (rf.advance deltaMs).runtime.nowMs)) ∧
          frames.Perm rf.queued ∧ last.runtime.queue = [] ∧ last.pop = .ok (none, last) := by
  obtain ⟨rf, hend⟩ := @run_ok α (.new dropFirst reorder jitterMs) calls _ hclock
  obtain ⟨hnow, hpushed⟩ := run_counts hend
  have hinv := channel_invariant (conserved_new dropFirst reorder jitterMs)
    (fun os rf call next events h hstep => h.step hstep) hend
  have hacc := hinv.accounted
  have hdropped := hinv.dropped
  rw [hpushed] at hacc hdropped
  refine ⟨rf, hend, ?_, ?_, fun deltaMs hle => ?_⟩
  · have hperm := hacc.append_left (lost dropFirst (pushes calls))
    rw [lost_append_accepted] at hperm
    exact hperm.trans List.perm_append_comm
  · rw [MockRf.stats, hinv.delivered, hdropped, hnow]
    rfl
  · rw [UInt64.le_iff_toNat_le] at hle
    have hdue : ∀ entry ∈ (rf.advance deltaMs).runtime.queue, (rf.advance deltaMs).Due entry :=
      fun entry hentry => MockRf.due_advance ((hinv.times entry hentry).trans (Nat.add_le_add_left hle _))
    obtain ⟨frames, last, hrun, hframes, hempty⟩ := drain hdue
    exact ⟨frames, last, hrun, hframes, hempty, MockRf.pop_of_not_due (by simp [hempty])⟩

end WholeRuns

/-- Three frames, the first dropped, the third let in ahead of the second and popped. -/
theorem conserves_frames_three :
    ∃ rf, (@channel (List UInt8) devProfile).run (.ok (.new true true 2)) [.push [1], .push [2], .push [3], .advance 2, .pop] =
        (.ok rf, [.pushed [1], .pushed [2], .pushed [3], .popped 2 [3]]) ∧
      rf.stats = { delivered := 1, dropped := 1, lastTimeMs := 2 } := by
  obtain ⟨rf, hend, -, hstats, -⟩ :=
    @conserves_frames (List UInt8) devProfile true true 2 [.push [1], .push [2], .push [3], .advance 2, .pop] (by decide)
  exact ⟨rf, Prod.ext hend rfl, hstats⟩

end KeyboardProject.Sim
