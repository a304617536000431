/-
`MockRf` (`proto/src/sim.rs`): a radio channel that can drop the first frame, holds every frame back by
a jitter, and can let a new frame in ahead of the last one waiting. The channel never looks into a
frame (a `Vec<u8>`), so the type of frames is a parameter here.
-/
import KeyboardProject.Lib.Line
import KeyboardProject.Rust.Vec

namespace KeyboardProject.Sim

open Rust Rust.Outcome

structure MockRfConfig where
  dropFirst : Bool
  reorder : Bool
  jitterMs : UInt64
  deriving DecidableEq, Repr

/-- The queue holds each frame with its `deliver_at_ms`. The two `usize` counts of frames are numbers. -/
structure MockRfRuntime (α : Type) where
  nowMs : UInt64
  queue : List (UInt64 × α)
  delivered : Nat
  dropped : Nat
  firstFrameSeen : Bool
  deriving DecidableEq, Repr

structure MockRf (α : Type) where
  config : MockRfConfig
  runtime : MockRfRuntime α
  deriving DecidableEq, Repr

structure MockRfStats where
  delivered : Nat
  dropped : Nat
  lastTimeMs : UInt64
  deriving DecidableEq, Repr

namespace MockRf

variable {α β : Type}

def new (dropFirst reorder : Bool) (jitterMs : UInt64) : MockRf α where
  config := { dropFirst, reorder, jitterMs }
  runtime := { nowMs := 0, queue := [], delivered := 0, dropped := 0, firstFrameSeen := false }

def advance (self : MockRf α) (deltaMs : UInt64) : MockRf α :=
  { self with runtime := { self.runtime with nowMs := u64SaturatingAdd self.runtime.nowMs deltaMs } }

/-- The end of `push`: the new frame changes places with the one ahead of it. -/
def swapLast (reorder : Bool) (queue : List (UInt64 × α)) : Outcome Empty (List (UInt64 × α)) :=
  if reorder && decide (queue.length ≥ 2) then swap queue (queue.length - 1) (queue.length - 2) else pure queue

def push [Profile] (self : MockRf α) (frame : α) : Outcome Empty (MockRf α) :=
  if self.config.dropFirst && !self.runtime.firstFrameSeen then
    pure { self with runtime := { self.runtime with firstFrameSeen := true, dropped := self.runtime.dropped + 1 } }
  else do
    let deliverAt ← u64Add self.runtime.nowMs self.config.jitterMs
    let queue ← swapLast self.config.reorder (self.runtime.queue ++ [(deliverAt, frame)])
    pure { self with runtime := { self.runtime with firstFrameSeen := true, queue } }

/-- `pop` returns the first frame in the queue that is due. -/
def pop (self : MockRf α) : Outcome Empty (Option α × MockRf α) :=
  match self.runtime.queue.findIdx? fun entry => decide (entry.1 ≤ self.runtime.nowMs) with
  | some pos => do
    let (entry, queue) ← remove self.runtime.queue pos
    pure (some entry.2, { self with runtime := { self.runtime with delivered := self.runtime.delivered + 1, queue } })
  | none => pure (none, self)

def stats (self : MockRf α) : MockRfStats where
  delivered := self.runtime.delivered
  dropped := self.runtime.dropped
  lastTimeMs := self.runtime.nowMs

/-! ## What `push` does -/

/-- The next frame is the one to drop. -/
def Drops (self : MockRf α) : Prop := self.config.dropFirst = true ∧ self.runtime.firstFrameSeen = false

instance (self : MockRf α) : Decidable self.Drops := inferInstanceAs (Decidable (_ ∧ _))

/-- The channel after it dropped a frame. -/
def drop (self : MockRf α) : MockRf α :=
  { self with runtime := { self.runtime with firstFrameSeen := true, dropped := self.runtime.dropped + 1 } }

/-- The channel after a frame joined its queue. -/
def enqueue (self : MockRf α) (deliverAt : UInt64) (frame : α) : MockRf α :=
  { self with
    runtime :=
      { self.runtime with
        firstFrameSeen := true
        queue := Line.join self.config.reorder self.runtime.queue (deliverAt, frame) } }

/-- The swap never leaves the queue: the new entry joins at the end, or ahead of the last. -/
theorem swapLast_concat (reorder : Bool) (queue : List (UInt64 × α)) (entry : UInt64 × α) :
    swapLast reorder (queue ++ [entry]) = .ok (Line.join reorder queue entry) := by
  cases reorder with
  | false => rfl
  | true =>
    cases queue using List.reverseRecOn with
    | nil => rfl
    | append_singleton front last =>
      have h : (swap (front ++ [last, entry]) (front.length + 1) front.length : Outcome Empty _) = .ok (front ++ [entry, last]) :=
        swap_last front last entry
      simpa [swapLast] using h

variable [Profile]

theorem push_eq (self : MockRf α) (frame : α) :
    self.push frame =
      if self.Drops then .ok self.drop
      else (u64Add self.runtime.nowMs self.config.jitterMs : Outcome Empty UInt64) >>= fun deliverAt =>
        .ok (self.enqueue deliverAt frame) := by
  unfold push
  by_cases hdrop : self.Drops
  · have hcond : (self.config.dropFirst && !self.runtime.firstFrameSeen) = true := by simp [hdrop.1, hdrop.2]
    rw [if_pos hcond, if_pos hdrop]
    rfl
  · have hcond : ¬(self.config.dropFirst && !self.runtime.firstFrameSeen) = true := by simpa [Drops] using hdrop
    rw [if_neg hcond, if_neg hdrop]
    congr 1
    funext deliverAt
    rw [swapLast_concat]
    rfl

theorem push_drops {self : MockRf α} (h : self.Drops) (frame : α) : self.push frame = .ok self.drop := by
  rw [push_eq, if_pos h]

theorem push_queues {self : MockRf α} (h : ¬self.Drops)
    (hfits : self.runtime.nowMs.toNat + self.config.jitterMs.toNat < 2 ^ 64) (frame : α) :
    self.push frame = .ok (self.enqueue (self.runtime.nowMs + self.config.jitterMs) frame) := by
  rw [push_eq, if_neg h, u64Add_ok hfits, ok_bind]

/-- A push drops the frame or lets it join, at the wrapped sum of clock and jitter. -/
theorem push_eq_ok {self rf : MockRf α} {frame : α} (h : self.push frame = .ok rf) :
    (self.Drops ∧ rf = self.drop) ∨
      (¬self.Drops ∧ rf = self.enqueue (self.runtime.nowMs + self.config.jitterMs) frame) := by
  rw [push_eq] at h
  split_ifs at h with hdrop
  · exact Or.inl ⟨hdrop, (ok.inj h).symm⟩
  · obtain ⟨deliverAt, hadd, hrf⟩ := bind_eq_ok.1 h
    rw [u64Add_eq_ok hadd] at hrf
    exact Or.inr ⟨hdrop, (ok.inj hrf).symm⟩

/-! ## What `pop` does -/

omit [Profile]

/-- The entry of the queue can be delivered. -/
def Due (self : MockRf α) (entry : UInt64 × α) : Prop := entry.1 ≤ self.runtime.nowMs

instance (self : MockRf α) : DecidablePred self.Due := fun entry => inferInstanceAs (Decidable (entry.1 ≤ _))

/-- The channel after a frame was delivered. -/
def deliver (self : MockRf α) (queue : List (UInt64 × α)) : MockRf α :=
  { self with runtime := { self.runtime with delivered := self.runtime.delivered + 1, queue } }

theorem pop_of_not_due {self : MockRf α} (h : ∀ entry ∈ self.runtime.queue, ¬self.Due entry) :
    self.pop = .ok (none, self) := by
  have hnone : self.runtime.queue.findIdx? (fun entry => decide (entry.1 ≤ self.runtime.nowMs)) = none :=
    List.findIdx?_eq_none_iff.2 fun entry hentry => decide_eq_false (h entry hentry)
  unfold pop
  rw [hnone]
  rfl

theorem pop_of_leaves {self : MockRf α} {entry : UInt64 × α} {rest : List (UInt64 × α)}
    (h : Line.Leaves self.Due self.runtime.queue entry rest) : self.pop = .ok (some entry.2, self.deliver rest) := by
  obtain ⟨⟨before, after, hqueue, rfl, hbefore⟩, hdue⟩ := h
  have hfirst : self.runtime.queue.findIdx? (fun entry => decide (entry.1 ≤ self.runtime.nowMs)) = some before.length := by
    have hnone : before.findIdx? (fun entry => decide (entry.1 ≤ self.runtime.nowMs)) = none :=
      List.findIdx?_eq_none_iff.2 fun entry hentry => decide_eq_false (hbefore entry hentry)
    have hdue' : decide (entry.1 ≤ self.runtime.nowMs) = true := decide_eq_true hdue
    rw [hqueue, List.findIdx?_append, hnone, List.findIdx?_cons, if_pos hdue']
    simp
  unfold pop
  rw [hfirst]
  simp only [hqueue, remove_split, ok_bind]
  rfl

/-- The first in line, when it is due. -/
theorem pop_cons {self : MockRf α} {entry : UInt64 × α} {rest : List (UInt64 × α)} (hqueue : self.runtime.queue = entry :: rest)
    (hdue : self.Due entry) : self.pop = .ok (some entry.2, self.deliver rest) :=
  pop_of_leaves ⟨⟨[], rest, hqueue, rfl, by simp⟩, hdue⟩

/-- A pop leaves the channel as it is when nothing is due, and takes the first due frame out otherwise. It
never panics: the position it found is in the queue. -/
theorem pop_cases (self : MockRf α) :
    ((∀ entry ∈ self.runtime.queue, ¬self.Due entry) ∧ self.pop = .ok (none, self)) ∨
      ∃ entry rest, Line.Leaves self.Due self.runtime.queue entry rest ∧
        self.pop = .ok (some entry.2, self.deliver rest) := by
  rcases Line.exists_leaves self.Due self.runtime.queue with hnone | ⟨entry, rest, hleaves⟩
  · exact Or.inl ⟨hnone, pop_of_not_due hnone⟩
  · exact Or.inr ⟨entry, rest, hleaves, pop_of_leaves hleaves⟩

/-- The frames in the queue. -/
def queued (self : MockRf α) : List α := self.runtime.queue.map Prod.snd

@[simp] theorem not_drops_drop (self : MockRf α) : ¬self.drop.Drops := fun h => nomatch h.2

@[simp] theorem not_drops_enqueue (self : MockRf α) (deliverAt : UInt64) (frame : α) :
    ¬(self.enqueue deliverAt frame).Drops := fun h => nomatch h.2

@[simp] theorem drops_advance (self : MockRf α) (deltaMs : UInt64) : (self.advance deltaMs).Drops ↔ self.Drops := Iff.rfl

@[simp] theorem drops_deliver (self : MockRf α) (queue : List (UInt64 × α)) : (self.deliver queue).Drops ↔ self.Drops :=
  Iff.rfl

/-! ## The clock -/

@[simp] theorem advance_nowMs (self : MockRf α) (deltaMs : UInt64) :
    (self.advance deltaMs).runtime.nowMs = u64SaturatingAdd self.runtime.nowMs deltaMs := rfl

@[simp] theorem advance_queue (self : MockRf α) (deltaMs : UInt64) :
    (self.advance deltaMs).runtime.queue = self.runtime.queue := rfl

/-- A frame that is to be delivered within `deltaMs` is due after an advance by that, even one that
saturates. -/
theorem due_advance {self : MockRf α} {deltaMs : UInt64} {entry : UInt64 × α}
    (h : entry.1.toNat ≤ self.runtime.nowMs.toNat + deltaMs.toNat) : (self.advance deltaMs).Due entry := by
  have hlt := entry.1.toNat_lt
  rw [Due, UInt64.le_iff_toNat_le, advance_nowMs, u64SaturatingAdd_toNat]
  omega

/-- A frame queued with its jitter is due after an advance by at least that. -/
theorem due_enqueue_advance {self : MockRf α} {deltaMs : UInt64} (hle : self.config.jitterMs.toNat ≤ deltaMs.toNat)
    (hfits : self.runtime.nowMs.toNat + self.config.jitterMs.toNat < 2 ^ 64) (first frame : α) :
    ((self.enqueue (self.runtime.nowMs + self.config.jitterMs) first).advance deltaMs).Due
      (self.runtime.nowMs + self.config.jitterMs, frame) := by
  apply due_advance
  show (self.runtime.nowMs + self.config.jitterMs).toNat ≤ self.runtime.nowMs.toNat + deltaMs.toNat
  rw [u64_add_toNat hfits]
  omega

end MockRf

end KeyboardProject.Sim
