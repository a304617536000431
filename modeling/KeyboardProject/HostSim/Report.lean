/-
What the send loop of the host simulator reports, for any number of packets: the frames that are delivered, dropped and
still in the channel when it ends, or that it panics. A frame is delivered when its time, which wraps, comes before the
end of the last turn.
-/
import KeyboardProject.HostSim.Attempts

namespace KeyboardProject.HostSim

open Rust Rust.Outcome Proto Sim

variable {α : Type} {config : MockRfConfig} {k : Nat} {s s' : List α × MockRf α} {frame : α}

/-! ## The times of the frames -/

/-- The frame of turn `i` joins the queue. -/
def Joins (config : MockRfConfig) (i : Nat) : Prop := ¬(config.dropFirst = true ∧ i = 0)

instance (config : MockRfConfig) (i : Nat) : Decidable (Joins config i) := inferInstanceAs (Decidable (¬_))

/-- When the frame of turn `i` is to be delivered. -/
def deliverAt (config : MockRfConfig) (i : Nat) : Nat := (2 * i + config.jitterMs.toNat) % 2 ^ 64

/-- The times of the frames that joined in the first `k` turns. -/
def times (config : MockRfConfig) (k : Nat) : List Nat :=
  ((List.range k).filter fun i => decide (Joins config i)).map (deliverAt config)

theorem times_succ (config : MockRfConfig) (k : Nat) :
    times config (k + 1) = times config k ++ if Joins config k then [deliverAt config k] else [] := by
  unfold times
  rw [List.range_succ, List.filter_append, List.map_append, List.filter_singleton]
  split_ifs with hjoins <;> simp [hjoins]

theorem length_times (config : MockRfConfig) (k : Nat) :
    (times config k).length + (if config.dropFirst = true ∧ 0 < k then 1 else 0) = k := by
  induction k with
  | zero => simp [times]
  | succ k ih =>
    rw [times_succ, List.length_append]
    by_cases hjoins : Joins config k
    · have hcount : (config.dropFirst = true ∧ 0 < k + 1) ↔ config.dropFirst = true ∧ 0 < k :=
        and_congr_right fun hfirst => ⟨fun _ => Nat.pos_of_ne_zero fun hzero => hjoins ⟨hfirst, hzero⟩, fun _ => Nat.succ_pos k⟩
      rw [if_pos hjoins, List.length_singleton, if_congr hcount rfl rfl]
      omega
    · obtain ⟨hfirst, rfl⟩ := not_not.1 hjoins
      rw [if_neg hjoins, if_pos ⟨hfirst, Nat.succ_pos 0⟩]
      rfl

/-! ## The channel after a turn -/

/-- Where the loop is after `k` turns, with the times of the frames that wait. -/
structure Exactly (config : MockRfConfig) (k : Nat) (s : List α × MockRf α) : Prop extends After config k s where
  delivered : s.2.runtime.delivered = s.1.length
  dropped : s.2.runtime.dropped = if config.dropFirst = true ∧ 0 < k then 1 else 0
  waiting : (s.2.runtime.queue.map fun entry => entry.1.toNat).Perm ((times config k).filter fun t => decide (2 * k < t))

theorem exactly_new (config : MockRfConfig) :
    Exactly config 0 ([], (MockRf.new config.dropFirst config.reorder config.jitterMs : MockRf α)) :=
  { after_new config with delivered := rfl, dropped := by simp [MockRf.new], waiting := .nil }

/-- The frames delivered are those whose time has come. -/
theorem Exactly.length_delivered (h : Exactly config k s) :
    s.1.length = (times config k).countP fun t => decide (t ≤ 2 * k) := by
  have htotal := h.total
  have hdropped := h.dropped
  have hwaiting := h.waiting.length_eq
  have hlength := length_times config k
  have hsplit := (times config k).length_eq_countP_add_countP fun t => decide (t ≤ 2 * k)
  have hlate : (times config k).countP (fun t => decide ¬decide (t ≤ 2 * k) = true) =
      ((times config k).filter fun t => decide (2 * k < t)).length := by
    rw [← List.countP_eq_length_filter]
    refine List.countP_congr fun t _ => ?_
    simp
  rw [List.length_map] at hwaiting
  omega

/-- Draining keeps what is behind the clock. -/
theorem waiting_drained {rf : MockRf α} {times : List Nat} (hclock : rf.runtime.nowMs.toNat = 2 * (k + 1))
    (h : (rf.runtime.queue.map fun entry => entry.1.toNat).Perm times) :
    ((drained rf).runtime.queue.map fun entry => entry.1.toNat).Perm (times.filter fun t => decide (2 * (k + 1) < t)) := by
  have hdue : ∀ entry : UInt64 × α, (!decide (rf.Due entry)) = decide (2 * (k + 1) < entry.1.toNat) := by
    intro entry
    rw [← decide_not]
    refine decide_eq_decide.2 ?_
    show ¬entry.1 ≤ rf.runtime.nowMs ↔ _
    rw [UInt64.le_iff_toNat_le, hclock, Nat.not_le]
  have hqueue : (drained rf).runtime.queue.map (fun entry => entry.1.toNat) =
      (rf.runtime.queue.map fun entry => entry.1.toNat).filter fun t => decide (2 * (k + 1) < t) := by
    rw [List.filter_map]
    exact congrArg _ (List.filter_congr fun entry _ => hdue entry)
  rw [hqueue]
  exact h.filter _

/-- What waits behind a turn was waiting before it. -/
theorem filter_times (times : List Nat) (k : Nat) :
    (times.filter fun t => decide (2 * k < t)).filter (fun t => decide (2 * (k + 1) < t)) =
      times.filter fun t => decide (2 * (k + 1) < t) := by
  rw [List.filter_filter]
  refine List.filter_congr fun t _ => ?_
  rw [← Bool.decide_and]
  exact decide_eq_decide.2 ⟨And.left, fun h => ⟨h, by omega⟩⟩

section Turns

variable [Profile]

theorem Exactly.step (h : Exactly config k s) (hk : k + 1 < 2 ^ 32) (hrun : sendFrame s frame = .ok s') :
    Exactly config (k + 1) s' := by
  have hafter := h.toAfter.step hk hrun
  obtain ⟨rf, hpush, rfl⟩ := push_of_sendFrame hrun
  have hdelivered : rf.runtime.delivered = s.1.length := by
    rw [← h.delivered]
    rcases hpush with ⟨-, rfl⟩ | ⟨-, rfl⟩ <;> rfl
  have hnow : rf.runtime.nowMs = s.2.runtime.nowMs := by rcases hpush with ⟨-, rfl⟩ | ⟨-, rfl⟩ <;> rfl
  have hclock : (rf.advance 2).runtime.nowMs.toNat = 2 * (k + 1) := advance_two_toNat (by rw [hnow, h.clock]) hk
  refine { hafter with delivered := ?_, dropped := ?_, waiting := ?_ }
  · show rf.runtime.delivered + (dueFrames (rf.advance 2)).length = _
    rw [hdelivered, List.length_append]
  · have hdropped := h.dropped
    show rf.runtime.dropped = _
    rcases hpush with ⟨hdrops, rfl⟩ | ⟨hdrops, rfl⟩
    · obtain ⟨hfirst, rfl⟩ := h.toAfter.drops_iff.1 hdrops
      show s.2.runtime.dropped + 1 = _
      rw [hdropped, if_neg (by simp), if_pos ⟨hfirst, Nat.succ_pos 0⟩]
    · rw [h.toAfter.drops_iff] at hdrops
      show s.2.runtime.dropped = _
      rw [hdropped]
      refine if_congr (and_congr_right fun hfirst => ?_) rfl rfl
      have : k ≠ 0 := fun hzero => hdrops ⟨hfirst, hzero⟩
      omega
  · have hwaiting := h.waiting
    rw [times_succ]
    rcases hpush with ⟨hdrops, rfl⟩ | ⟨hdrops, rfl⟩
    · have hjoins : ¬Joins config k := not_not.2 (h.toAfter.drops_iff.1 hdrops)
      rw [if_neg hjoins, List.append_nil, ← filter_times]
      exact waiting_drained hclock hwaiting
    · have hjoins : Joins config k := fun hfirst => hdrops (h.toAfter.drops_iff.2 hfirst)
      have htime : (s.2.runtime.nowMs + s.2.config.jitterMs).toNat = deliverAt config k := by
        rw [UInt64.toNat_add, h.clock, h.sameConfig]
        rfl
      have hjoin : ((s.2.enqueue (s.2.runtime.nowMs + s.2.config.jitterMs) frame).runtime.queue.map fun entry => entry.1.toNat).Perm
          ((times config k).filter (fun t => decide (2 * k < t)) ++ [deliverAt config k]) := by
        refine ((Line.join_perm _ _ _).map _).trans ?_
        rw [List.map_append, List.map_singleton, htime]
        exact hwaiting.append_right _
      have hdrained := waiting_drained hclock hjoin
      rw [List.filter_append, filter_times, ← List.filter_append] at hdrained
      rw [if_pos hjoins]
      exact hdrained

/-- The time of turn `i`'s frame does not overflow where that panics. -/
def FitsTurn (config : MockRfConfig) (i : Nat) : Prop :=
  Profile.overflowChecks = true → Joins config i → 2 * i + config.jitterMs.toNat < 2 ^ 64

theorem After.sendFrame_ok_iff (h : After config k s) (frame : α) :
    (∃ s', sendFrame s frame = .ok s') ↔ FitsTurn config k := by
  have hdrops : s.2.Drops ↔ ¬Joins config k := by rw [h.drops_iff, Joins, not_not]
  constructor
  · rintro ⟨s', hturn⟩ hchecks hjoins
    exact h.fits hchecks (fun hd => hdrops.1 hd hjoins) hturn
  · intro hfits
    rw [sendFrame_eq, MockRf.push_eq]
    by_cases hd : s.2.Drops
    · rw [if_pos hd]
      exact ⟨_, rfl⟩
    · have hjoins : Joins config k := not_not.1 fun hn => hd (hdrops.2 hn)
      rw [if_neg hd, u64Add, h.clock, h.sameConfig]
      by_cases hsum : 2 * k + config.jitterMs.toNat < 2 ^ 64
      · rw [if_pos hsum]
        exact ⟨_, rfl⟩
      · rw [if_neg hsum, if_neg fun hchecks => hsum (hfits hchecks hjoins)]
        exact ⟨_, rfl⟩

theorem After.run_ok_iff {frames : List α} (h : After config k s) (hk : k + frames.length < 2 ^ 32) :
    (∃ s', frames.foldlM sendFrame s = .ok s') ↔ ∀ i, k ≤ i → i < k + frames.length → FitsTurn config i := by
  induction frames generalizing k s with
  | nil =>
    rw [List.length_nil, Nat.add_zero]
    exact iff_of_true ⟨s, rfl⟩ fun i hle hlt => absurd hlt (Nat.not_lt.2 hle)
  | cons frame frames ih =>
    rw [List.length_cons] at hk ⊢
    rw [List.foldlM_cons]
    constructor
    · rintro ⟨s', hrun⟩ i hle hlt
      obtain ⟨mid, hturn, hrest⟩ := bind_eq_ok.1 hrun
      rcases Nat.eq_or_lt_of_le hle with rfl | hlater
      · exact (h.sendFrame_ok_iff frame).1 ⟨mid, hturn⟩
      · exact (ih (h.step (by omega) hturn) (by omega)).1 ⟨s', hrest⟩ i hlater (by omega)
    · intro hfits
      obtain ⟨mid, hturn⟩ := (h.sendFrame_ok_iff frame).2 (hfits k le_rfl (by omega))
      obtain ⟨s', hrest⟩ := (ih (h.step (by omega) hturn) (by omega)).2 fun i hle hlt => hfits i (by omega) (by omega)
      exact ⟨s', by rw [hturn, ok_bind, hrest]⟩

theorem Exactly.run {frames : List α} (h : Exactly config k s) (hk : k + frames.length < 2 ^ 32)
    (hrun : frames.foldlM sendFrame s = .ok s') : Exactly config (k + frames.length) s' := by
  induction frames generalizing k s with
  | nil =>
    obtain rfl := ok.inj hrun
    exact h
  | cons frame frames ih =>
    rw [List.length_cons] at hk ⊢
    rw [List.foldlM_cons] at hrun
    obtain ⟨mid, hturn, hrest⟩ := bind_eq_ok.1 hrun
    have hend := ih (h.step (by omega) hturn) (by omega) hrest
    rwa [Nat.add_right_comm] at hend

/-! ## The report -/

/-- The loop does not panic. -/
def Fits (config : MockRfConfig) (frames : Nat) : Prop := ∀ i < frames, FitsTurn config i

/-- The report behind so many frames. -/
def exactReport (args : Args) (frames : Nat) : Metrics :=
  let delivered := (times args.config frames).countP fun t => decide (t ≤ 2 * frames)
  let dropped := if args.dropFirst = true ∧ 0 < frames then 1 else 0
  { attempts := some (UInt32.ofNat (delivered + dropped))
    delivered
    dropped
    latencyMs := UInt64.ofNat (2 * frames)
    jitterMs := args.jitterMs
    dropFirst := args.dropFirst
    reorder := args.reorder
    mockRfEnabled := args.mockRf
    realAead := args.realAead }

variable {cipher : Arr UInt8 keyBytes → Cipher} {args : Args} {packets : List Packet} {frames : List (List UInt8)}

theorem sendLoop_of_fits (hmock : args.mockRf = true) (hseal : packets.mapM (sealPacket cipher args) = .ok frames)
    (hlt : frames.length < 2 ^ 32) (hfits : Fits args.config frames.length) :
    ∃ s, sendLoop cipher args packets = .ok s ∧ report args s = some (exactReport args frames.length) := by
  have hrf : args.rf = some (.new args.dropFirst args.reorder args.jitterMs) := if_pos hmock
  have hnew : Exactly args.config 0 ([], (.new args.dropFirst args.reorder args.jitterMs : MockRf (List UInt8))) :=
    exactly_new args.config
  obtain ⟨s', hrun⟩ := (@After.run_ok_iff _ _ _ _ _ frames hnew.toAfter (by omega)).2 fun i _ hi => hfits i (by omega)
  have hend := hnew.run (by omega) hrun
  rw [Nat.zero_add] at hend
  have hclock : s'.2.runtime.nowMs = UInt64.ofNat (2 * frames.length) := by rw [← hend.clock, UInt64.ofNat_toNat]
  refine ⟨{ deliveredFrames := s'.1, rf := some s'.2 }, ?_, ?_⟩
  · rw [sendLoop, hrf, foldlM_sendPacket hseal ([], .new args.dropFirst args.reorder args.jitterMs), hrun, ok_bind]
  · rw [report, Option.map_some]
    dsimp only [MockRf.stats]
    rw [hend.delivered, hend.dropped, hclock, hend.length_delivered]
    rfl

theorem sendLoop_panics (hmock : args.mockRf = true) (hseal : packets.mapM (sealPacket cipher args) = .ok frames)
    (hlt : frames.length < 2 ^ 32) (hfits : ¬Fits args.config frames.length) : sendLoop cipher args packets = .panic := by
  have hrf : args.rf = some (.new args.dropFirst args.reorder args.jitterMs) := if_pos hmock
  have hnew : Exactly args.config 0 ([], (.new args.dropFirst args.reorder args.jitterMs : MockRf (List UInt8))) :=
    exactly_new args.config
  rw [sendLoop, hrf, foldlM_sendPacket hseal ([], .new args.dropFirst args.reorder args.jitterMs)]
  cases hrun : frames.foldlM sendFrame ([], .new args.dropFirst args.reorder args.jitterMs) with
  | ok s' =>
    have hturns := (hnew.toAfter.run_ok_iff (by omega)).1 ⟨s', hrun⟩
    exact absurd (fun i hi => hturns i (Nat.zero_le i) (by omega)) hfits
  | err e => exact e.elim
  | panic => rfl

/-- Behind any packets that seal, the loop panics exactly when a time overflows where that is checked; else it reports
the frames whose time has come, the dropped one, and 2 ms for each packet. -/
theorem report_exact (hmock : args.mockRf = true) (hseal : packets.mapM (sealPacket cipher args) = .ok frames)
    (hlt : frames.length < 2 ^ 32) :
    (Fits args.config frames.length →
        sendAndReport cipher args packets = .ok (some (exactReport args frames.length))) ∧
      (¬Fits args.config frames.length → sendAndReport cipher args packets = .panic) := by
  unfold sendAndReport
  refine ⟨fun hfits => ?_, fun hfits => ?_⟩
  · obtain ⟨s, hloop, hreport⟩ := sendLoop_of_fits hmock hseal hlt hfits
    rw [hloop, ok_bind, hreport]
    rfl
  · rw [sendLoop_panics hmock hseal hlt hfits]
    rfl

end Turns

/-- A jitter of 4 ms: of the three sample packets one is dropped, one delivered and one still in the channel. -/
theorem report_exact_sample :
    ∃ packets m, samplePackets demoConfig = .ok packets ∧
      @sendAndReport devProfile noCipher (mockRfArgs 4) packets = .ok (some m) ∧ m.delivered = 1 ∧ m.dropped = 1 ∧
      m.latencyMs = 6 := by
  obtain ⟨a, b, c, hseal⟩ := sampleFrames 4
  have hreport := (@report_exact devProfile _ _ _ _ rfl hseal (show 3 < 2 ^ 32 by decide)).1 (by
    intro i hi _ _
    have hfour : (mockRfArgs 4).config.jitterMs.toNat = 4 := rfl
    have hlt : i < 3 := hi
    omega)
  exact ⟨_, _, samplePackets_eq demoConfig, hreport, rfl, rfl, rfl⟩

end KeyboardProject.HostSim
