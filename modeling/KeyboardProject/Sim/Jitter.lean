/-
The jitter against the clock. `advance` saturates and `push` does not, so a frame pushed too late in the
life of the clock panics or, with wrapping sums, is due at once.
-/
import KeyboardProject.Sim.Tagged

namespace KeyboardProject.Sim

open Rust Rust.Outcome

variable {α : Type}

/-! ## Clock and elapsed time -/

/-- The time advanced in a sequence of calls. -/
def elapsed (calls : List (Call α)) : Nat :=
  (calls.map fun
    | .advance deltaMs => deltaMs.toNat
    | _ => 0).sum

theorem elapsed_concat (calls : List (Call α)) (call : Call α) : elapsed (calls ++ [call]) = elapsed calls + elapsed [call] := by
  simp [elapsed]

/-- The clock shows the time advanced until it reaches its maximum. -/
theorem clock_toNat (calls : List (Call α)) : (clock 0 calls).toNat = min (elapsed calls) (2 ^ 64 - 1) := by
  induction calls using List.reverseRecOn with
  | nil => rfl
  | append_singleton calls call ih =>
    rw [clock_append, elapsed_concat]
    cases call with
    | advance deltaMs =>
      show (u64SaturatingAdd (clock 0 calls) deltaMs).toNat = min (elapsed calls + deltaMs.toNat) _
      rw [u64SaturatingAdd_toNat, ih]
      omega
    | push frame => exact ih
    | pop => exact ih

theorem fits_iff (calls : List (Call α)) (jitterMs : UInt64) :
    (clock 0 calls).toNat + jitterMs.toNat < 2 ^ 64 ↔ jitterMs = 0 ∨ elapsed calls + jitterMs.toNat < 2 ^ 64 := by
  have hzero : jitterMs = 0 ↔ jitterMs.toNat = 0 := UInt64.toNat_inj.symm
  have hlt := (clock 0 calls).toNat_lt
  rw [hzero]
  rw [clock_toNat] at hlt ⊢
  omega

/-! ## Runs that honour the jitter -/

/-- No sum in `push` has overflowed: the run has not panicked and every queued frame is to be delivered its
jitter after its push. And no frame was popped sooner, unless the clock had reached its maximum. -/
structure Honoured (jitterMs : UInt64) (s : Outcome Empty (MockRf (Sent α))) (os : List (Event (Sent α))) : Prop where
  exact : ∃ rf, s = .ok rf ∧ ∀ entry ∈ rf.runtime.queue, entry.1.toNat = entry.2.sentAt.toNat + jitterMs.toNat
  waited : ∀ nowMs x, .popped nowMs x ∈ os → x.sentAt.toNat + jitterMs.toNat ≤ nowMs.toNat ∨ nowMs = u64Max

/-- Every frame that is not dropped is pushed in time: there is no jitter, or the time advanced before the
push leaves room for it. -/
def InTime (dropFirst : Bool) (jitterMs : UInt64) (calls : List (Call α)) : Prop :=
  ∀ before frame, before ++ [.push frame] <+: calls → (dropFirst = true → pushes before ≠ []) →
    jitterMs = 0 ∨ elapsed before + jitterMs.toNat < 2 ^ 64

/-- A call after the calls `before` is not a push that comes too late. -/
def CallInTime (dropFirst : Bool) (jitterMs : UInt64) (before : List (Call α)) (call : Call α) : Prop :=
  ∀ frame, call = .push frame → (dropFirst = true → pushes before ≠ []) →
    jitterMs = 0 ∨ elapsed before + jitterMs.toNat < 2 ^ 64

theorem inTime_concat {dropFirst : Bool} {jitterMs : UInt64} {calls : List (Call α)} {call : Call α} :
    InTime dropFirst jitterMs (calls ++ [call]) ↔ InTime dropFirst jitterMs calls ∧ CallInTime dropFirst jitterMs calls call := by
  constructor
  · intro h
    refine ⟨fun before frame hpre => h before frame (hpre.trans (List.prefix_append _ _)), ?_⟩
    rintro frame rfl
    exact h calls frame (List.prefix_refl _)
  · rintro ⟨hcalls, hcall⟩ before frame hpre
    rcases List.prefix_concat_iff.1 hpre with heq | hpre
    · obtain ⟨rfl, hpush⟩ := List.append_inj' heq rfl
      exact hcall frame (List.cons.inj hpush).1.symm
    · exact hcalls before frame hpre

section Steps

variable [Profile] {dropFirst reorder : Bool} {jitterMs : UInt64} {calls : List (Call α)} {call : Call α}

/-- A call as it stands in the traced run. -/
def tagCall (calls : List (Call α)) : Call α → Call (Sent α)
  | .advance deltaMs => .advance deltaMs
  | .push frame => .push { index := (pushes calls).length, sentAt := clock 0 calls, frame }
  | .pop => .pop

theorem traced_concat : traced dropFirst reorder jitterMs (calls ++ [call]) =
    ((channel.step (traced dropFirst reorder jitterMs calls).1 (tagCall calls call)).1,
      (traced dropFirst reorder jitterMs calls).2 ++
        (channel.step (traced dropFirst reorder jitterMs calls).1 (tagCall calls call)).2) := by
  have htag : tag (0 + (pushes calls).length) (clock 0 calls) [call] = [tagCall calls call] := by
    rw [Nat.zero_add]
    cases call <;> rfl
  rw [traced, tag_append, htag, Machine.run_concat]
  rfl

/-- What the end of a traced run knows of its calls. -/
theorem traced_end {rf : MockRf (Sent α)} (hend : (traced dropFirst reorder jitterMs calls).1 = .ok rf) :
    rf.config.jitterMs = jitterMs ∧ rf.runtime.nowMs = clock 0 calls ∧
      (rf.Drops ↔ dropFirst = true ∧ pushes calls = []) := by
  have hinv := channel_invariant (conserved_new dropFirst reorder jitterMs)
    (fun os rf call next events h hstep => h.step hstep) hend
  obtain ⟨hnow, hpushed⟩ := run_counts hend
  have hnil : pushes (tag 0 0 calls) = [] ↔ pushes calls = [] := by
    rw [← List.length_eq_zero_iff, pushes_tag_length, List.length_eq_zero_iff]
  rw [hinv.drops_iff, hpushed, hnil, hinv.sameConfig, hnow, clock_tag]
  exact ⟨rfl, rfl, Iff.rfl⟩

omit [Profile] in
/-- A step keeps the jitter honoured if it is not a push that comes too late. -/
theorem Honoured.step {rf next : MockRf (Sent α)} {os events : List (Event (Sent α))} {call : Call (Sent α)}
    (h : Honoured jitterMs (.ok rf) os) (hjitter : rf.config.jitterMs = jitterMs)
    (hpush : ∀ x, call = .push x → ¬rf.Drops →
      rf.runtime.nowMs.toNat + jitterMs.toNat < 2 ^ 64 ∧ x.sentAt = rf.runtime.nowMs)
    (hstep : Step rf call next events) : Honoured jitterMs (.ok next) (os ++ events) := by
  obtain ⟨⟨rf', hrf, hexact⟩, hwaited⟩ := h
  obtain rfl := ok.inj hrf
  cases hstep with
  | advance deltaMs => exact ⟨⟨_, rfl, hexact⟩, by simpa using hwaited⟩
  | drop frame hdrop => exact ⟨⟨_, rfl, hexact⟩, by simpa using hwaited⟩
  | enqueue frame hdrop =>
    obtain ⟨hfits, hsent⟩ := hpush frame rfl hdrop
    refine ⟨⟨_, rfl, fun entry hentry => ?_⟩, by simpa using hwaited⟩
    rcases Line.mem_join.1 hentry with hentry | rfl
    · exact hexact entry hentry
    · show (rf.runtime.nowMs + rf.config.jitterMs).toNat = frame.sentAt.toNat + jitterMs.toNat
      rw [hjitter, u64_add_toNat hfits, hsent]
  | idle hnone => exact ⟨⟨_, rfl, hexact⟩, by simpa using hwaited⟩
  | deliver entry rest hleaves =>
    refine ⟨⟨_, rfl, fun e he => hexact e (hleaves.sublist.subset he)⟩, fun nowMs x hx => ?_⟩
    rcases List.mem_append.1 hx with hx | hx
    · exact hwaited nowMs x hx
    · obtain ⟨rfl, rfl⟩ := Event.popped.inj (List.mem_singleton.1 hx)
      left
      rw [← hexact entry hleaves.mem]
      exact UInt64.le_iff_toNat_le.1 hleaves.may

/-- A push that comes too late overflows: it panics, or leaves a delivery time that is not the sum. -/
theorem honoured_concat
    (h : Honoured jitterMs (traced dropFirst reorder jitterMs calls).1 (traced dropFirst reorder jitterMs calls).2) :
    Honoured jitterMs (traced dropFirst reorder jitterMs (calls ++ [call])).1
        (traced dropFirst reorder jitterMs (calls ++ [call])).2 ↔
      CallInTime dropFirst jitterMs calls call := by
  obtain ⟨rf, hend, -⟩ := h.exact
  obtain ⟨hjitter, hnow, hdrops⟩ := traced_end hend
  rw [traced_concat, hend]
  rw [hend] at h
  constructor
  · rintro ⟨⟨next, hnext, hexact⟩, -⟩ frame rfl hfirst
    obtain ⟨rf', hrf, hstep⟩ := step_of_channel hnext
    obtain rfl := ok.inj hrf
    generalize (channel.step (.ok rf) (tagCall calls (.push frame))).2 = events at hstep
    rw [← fits_iff, ← hnow, ← hjitter]
    cases hstep with
    | drop _ hdrop =>
      obtain ⟨hdropFirst, hnone⟩ := hdrops.1 hdrop
      exact absurd hnone (hfirst hdropFirst)
    | enqueue _ hdrop =>
      have hsum := hexact _ (Line.mem_join.2 (Or.inr rfl))
      have hlt := (rf.runtime.nowMs + rf.config.jitterMs).toNat_lt
      rw [hnow, hjitter]
      rw [hnow, hjitter] at hsum hlt
      exact hsum ▸ hlt
  · intro hcall
    have hpush : ∀ x, tagCall calls call = .push x → ¬rf.Drops →
        rf.runtime.nowMs.toNat + jitterMs.toNat < 2 ^ 64 ∧ x.sentAt = rf.runtime.nowMs := by
      intro x hx hdrop
      cases call with
      | advance deltaMs => contradiction
      | pop => contradiction
      | push frame =>
        obtain rfl := Call.push.inj hx
        rw [hnow, fits_iff]
        exact ⟨hcall frame rfl fun hdropFirst hnone => hdrop (hdrops.2 ⟨hdropFirst, hnone⟩), rfl⟩
    obtain ⟨next, events, hok⟩ := exists_call fun x hx hdrop => by rw [hjitter]; exact (hpush x hx hdrop).1
    rw [channel_step_ok hok]
    exact h.step hjitter hpush (step_of_call hok)

/-- The sum in `push` never overflows and the jitter of every frame is honoured, in every state of a run,
exactly when every frame that is not dropped is pushed in time. -/
theorem jitter_honoured_iff (dropFirst reorder : Bool) (jitterMs : UInt64) (calls : List (Call α)) :
    (∀ before, before <+: calls →
      Honoured jitterMs (traced dropFirst reorder jitterMs before).1 (traced dropFirst reorder jitterMs before).2) ↔
      InTime dropFirst jitterMs calls := by
  induction calls using List.reverseRecOn with
  | nil =>
    constructor
    · intro _ before frame hpre
      simp at hpre
    · intro _ before hpre
      obtain rfl := List.prefix_nil.1 hpre
      exact ⟨⟨_, rfl, by simp [MockRf.new]⟩, by simp [traced, tag]⟩
  | append_singleton calls call ih =>
    rw [inTime_concat, ← ih]
    constructor
    · intro h
      exact ⟨fun before hpre => h before (hpre.trans (List.prefix_append _ _)),
        (honoured_concat (h calls (List.prefix_append _ _))).1 (h _ (List.prefix_refl _))⟩
    · rintro ⟨hcalls, hcall⟩ before hpre
      rcases List.prefix_concat_iff.1 hpre with rfl | hpre
      · exact (honoured_concat (hcalls calls (List.prefix_refl _))).2 hcall
      · exact hcalls before hpre

end Steps

/-- A jitter of 2 ms, and a frame pushed 1 ms before the end of the clock: with overflow checks the push
panics, and without them the frame is popped at once. -/
theorem jitter_overflows :
    (@traced (List UInt8) devProfile false false 2 [.advance (u64Max - 1), .push [4]]).1 = .panic ∧
    ¬Honoured 2 (@traced (List UInt8) releaseProfile false false 2 [.advance (u64Max - 1), .push [4], .pop]).1
      (@traced (List UInt8) releaseProfile false false 2 [.advance (u64Max - 1), .push [4], .pop]).2 := by
  refine ⟨by decide, fun h => ?_⟩
  have hpopped : Event.popped (u64Max - 1) ⟨0, u64Max - 1, [4]⟩ ∈
      (@traced (List UInt8) releaseProfile false false 2 [.advance (u64Max - 1), .push [4], .pop]).2 := by decide
  exact absurd (h.waited _ _ hpopped) (by decide)

end KeyboardProject.Sim
