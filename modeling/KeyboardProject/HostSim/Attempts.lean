/-
When the host simulator counts its attempts right: exactly when no frame is left in the channel behind the
last turn of the send loop. A turn advances the clock by 2 ms, so a longer jitter leaves one there.
-/
import KeyboardProject.HostSim.Metrics

namespace KeyboardProject.HostSim

open Rust Rust.Outcome Proto Sim

variable {α : Type}

/-! ## Draining -/

/-- The frames that are due, in the order of the queue. -/
def dueFrames (rf : MockRf α) : List α := (rf.runtime.queue.filter fun entry => decide (rf.Due entry)).map Prod.snd

/-- The channel without the frames that were due. -/
def drained (rf : MockRf α) : MockRf α :=
  { rf with
    runtime :=
      { rf.runtime with
        delivered := rf.runtime.delivered + (dueFrames rf).length
        queue := rf.runtime.queue.filter fun entry => !decide (rf.Due entry) } }

/-- One turn of the loop. -/
theorem drain_step (rf : MockRf α) (deliveredFrames : List α) :
    drain rf deliveredFrames =
      rf.pop >>= fun (frame, next) =>
        frame.elim (.ok (deliveredFrames, next)) fun delivered => drain next (deliveredFrames ++ [delivered]) := by
  rw [drain]
  split
  · rename_i hpop
    simp only [hpop, ok_bind, Option.elim_some]
  · rename_i hpop
    simp only [hpop, ok_bind, Option.elim_none]
  · rename_i e _
    exact e.elim
  · rename_i hpop
    rw [hpop]
    rfl

/-- The loop delivers the frames that are due, in the order of the queue. -/
theorem drain_eq (rf : MockRf α) (deliveredFrames : List α) :
    drain rf deliveredFrames = .ok (deliveredFrames ++ dueFrames rf, drained rf) := by
  induction hn : rf.runtime.queue.length using Nat.strong_induction_on generalizing rf deliveredFrames with
  | _ n ih =>
    rcases rf.pop_cases with ⟨hnone, hpop⟩ | ⟨entry, rest, hleaves, hpop⟩
    · have hdue : dueFrames rf = [] := by
        rw [dueFrames, List.map_eq_nil_iff]
        exact List.filter_eq_nil_iff.2 fun entry hentry => by simpa using hnone entry hentry
      have hkept : rf.runtime.queue.filter (fun entry => !decide (rf.Due entry)) = rf.runtime.queue :=
        List.filter_eq_self.2 fun entry hentry => by simpa using hnone entry hentry
      rw [drain_step, hpop, drained, hdue, hkept, List.append_nil]
      rfl
    · obtain ⟨hdue, hkept⟩ := hleaves.filter
      have hframes : dueFrames rf = entry.2 :: dueFrames (rf.deliver rest) := by
        rw [dueFrames, hdue]
        rfl
      have hdrained : drained rf = drained (rf.deliver rest) := by
        rw [drained, hframes, hkept, List.length_cons, Nat.add_comm _ 1, ← Nat.add_assoc]
        rfl
      have hlen : (rf.deliver rest).runtime.queue.length < n := by
        rw [← hn, hleaves.length]
        exact Nat.lt_succ_self _
      rw [drain_step, hpop, ok_bind]
      dsimp only [Option.elim_some]
      rw [ih _ hlen (rf.deliver rest) _ rfl, hframes, hdrained, List.append_assoc]
      rfl

theorem sendFrame_eq [Profile] (s : List α × MockRf α) (frame : α) :
    sendFrame s frame =
      s.2.push frame >>= fun rf => .ok (s.1 ++ dueFrames (rf.advance 2), drained (rf.advance 2)) := by
  unfold sendFrame
  simp only [drain_eq]

/-! ## One turn -/

/-- Where the loop is after `k` turns: the clock, and every frame delivered, dropped or in the queue. -/
structure After (config : MockRfConfig) (k : Nat) (s : List α × MockRf α) : Prop where
  sameConfig : s.2.config = config
  seen : s.2.runtime.firstFrameSeen = decide (k ≠ 0)
  clock : s.2.runtime.nowMs.toNat = 2 * k
  total : s.1.length + s.2.runtime.dropped + s.2.runtime.queue.length = k

theorem after_new (config : MockRfConfig) :
    After config 0 ([], (MockRf.new config.dropFirst config.reorder config.jitterMs : MockRf α)) :=
  ⟨rfl, rfl, rfl, rfl⟩

section Turn

variable {config : MockRfConfig} {k : Nat} {s s' : List α × MockRf α} {frame : α}

theorem After.drops_iff (h : After config k s) : s.2.Drops ↔ config.dropFirst = true ∧ k = 0 := by
  rw [MockRf.Drops, h.sameConfig, h.seen, decide_eq_false_iff_not, not_not]

theorem advance_two_toNat {rf : MockRf α} (hclock : rf.runtime.nowMs.toNat = 2 * k) (hk : k + 1 < 2 ^ 32) :
    (rf.advance 2).runtime.nowMs.toNat = 2 * (k + 1) := by
  have htwo : (2 : UInt64).toNat = 2 := rfl
  rw [MockRf.advance_nowMs, u64SaturatingAdd_toNat, htwo, hclock]
  omega

/-- The end of a turn, from the channel with the turn's frame in it. -/
theorem after_drained {rf : MockRf α} {delivered : List α} (hconfig : rf.config = config)
    (hseen : rf.runtime.firstFrameSeen = true) (hclock : rf.runtime.nowMs.toNat = 2 * k) (hk : k + 1 < 2 ^ 32)
    (htotal : delivered.length + rf.runtime.dropped + rf.runtime.queue.length = k + 1) :
    After config (k + 1) (delivered ++ dueFrames (rf.advance 2), drained (rf.advance 2)) := by
  refine ⟨hconfig, ?_, advance_two_toNat hclock hk, ?_⟩
  · show rf.runtime.firstFrameSeen = _
    rw [hseen]
    simp
  · have hsplit := rf.runtime.queue.length_eq_length_filter_add fun entry => decide ((rf.advance 2).Due entry)
    show (delivered ++ dueFrames (rf.advance 2)).length + rf.runtime.dropped +
      (rf.runtime.queue.filter fun entry => !decide ((rf.advance 2).Due entry)).length = k + 1
    have hdue : (dueFrames (rf.advance 2)).length =
        (rf.runtime.queue.filter fun entry => decide ((rf.advance 2).Due entry)).length := List.length_map _
    rw [List.length_append, hdue]
    omega

variable [Profile]

/-- What a turn does before it drains: the frame is dropped, or joins the queue. -/
theorem push_of_sendFrame (h : sendFrame s frame = .ok s') :
    ∃ rf, (s.2.Drops ∧ rf = s.2.drop ∨ ¬s.2.Drops ∧ rf = s.2.enqueue (s.2.runtime.nowMs + s.2.config.jitterMs) frame) ∧
      s' = (s.1 ++ dueFrames (rf.advance 2), drained (rf.advance 2)) := by
  rw [sendFrame_eq] at h
  obtain ⟨rf, hpush, hs⟩ := bind_eq_ok.1 h
  exact ⟨rf, MockRf.push_eq_ok hpush, (ok.inj hs).symm⟩

theorem After.step (h : After config k s) (hk : k + 1 < 2 ^ 32) (hrun : sendFrame s frame = .ok s') :
    After config (k + 1) s' := by
  have htotal := h.total
  obtain ⟨rf, ⟨-, rfl⟩ | ⟨-, rfl⟩, rfl⟩ := push_of_sendFrame hrun
  · refine after_drained h.sameConfig rfl h.clock hk ?_
    show s.1.length + (s.2.runtime.dropped + 1) + s.2.runtime.queue.length = k + 1
    omega
  · refine after_drained h.sameConfig rfl h.clock hk ?_
    have hjoin := (Line.join_perm s.2.config.reorder s.2.runtime.queue
      (s.2.runtime.nowMs + s.2.config.jitterMs, frame)).length_eq
    rw [List.length_append, List.length_singleton] at hjoin
    show s.1.length + s.2.runtime.dropped + (Line.join _ _ _).length = k + 1
    rw [hjoin]
    omega

/-- A frame that is not due at the end of a turn is still queued there, whether it was before or is the
turn's own. -/
theorem After.keeps (h : After config k s) (hk : k + 1 < 2 ^ 32) (hrun : sendFrame s frame = .ok s') {entry : UInt64 × α}
    (hentry : entry ∈ s.2.runtime.queue ∨ ¬s.2.Drops ∧ entry = (s.2.runtime.nowMs + s.2.config.jitterMs, frame))
    (hlate : 2 * (k + 1) < entry.1.toNat) : entry ∈ s'.2.runtime.queue := by
  have hnot : ∀ rf : MockRf α, rf.runtime.nowMs = s.2.runtime.nowMs → ¬(rf.advance 2).Due entry := by
    intro rf hnow hdue
    have hclock := @advance_two_toNat α k rf (by rw [hnow, h.clock]) hk
    have hle := UInt64.le_iff_toNat_le.1 hdue
    omega
  obtain ⟨rf, ⟨hdrops, rfl⟩ | ⟨-, rfl⟩, rfl⟩ := push_of_sendFrame hrun
  · refine List.mem_filter.2 ⟨hentry.resolve_right fun hown => hown.1 hdrops, ?_⟩
    simpa using hnot s.2.drop rfl
  · refine List.mem_filter.2 ⟨Line.mem_join.2 (hentry.imp_right And.right), ?_⟩
    simpa using hnot (s.2.enqueue (s.2.runtime.nowMs + s.2.config.jitterMs) frame) rfl

/-- The frame of turn `k` leaves the channel in its own turn: it is dropped, its jitter is short, or its
delivery time wraps. -/
def Prompt (config : MockRfConfig) (k : Nat) : Prop :=
  (config.dropFirst = true ∧ k = 0) ∨ config.jitterMs.toNat ≤ 2 ∨
    (Profile.overflowChecks = false ∧ 2 ^ 64 ≤ 2 * k + config.jitterMs.toNat)

/-- A prompt frame that joins the queue is due when its turn drains. -/
theorem After.due_of_prompt (h : After config k s) (hk : k + 1 < 2 ^ 32) (hprompt : Prompt config k) (hdrops : ¬s.2.Drops) :
    (u64Add s.2.runtime.nowMs s.2.config.jitterMs : Outcome Empty UInt64) = .ok (s.2.runtime.nowMs + s.2.config.jitterMs) ∧
      (s.2.runtime.nowMs + s.2.config.jitterMs).toNat ≤ 2 * (k + 1) := by
  have hclock := h.clock
  have hlt := config.jitterMs.toNat_lt
  rw [h.sameConfig, UInt64.toNat_add]
  rcases hprompt with hfirst | hshort | ⟨hchecks, hwraps⟩
  · exact absurd (h.drops_iff.2 hfirst) hdrops
  · exact ⟨u64Add_ok (by omega), by omega⟩
  · refine ⟨?_, by omega⟩
    rw [u64Add, if_neg (by omega), if_neg (by simp [hchecks])]

theorem After.settles (h : After config k s) (hk : k + 1 < 2 ^ 32) (hempty : s.2.runtime.queue = [])
    (hprompt : Prompt config k) (frame : α) : ∃ s', sendFrame s frame = .ok s' ∧ s'.2.runtime.queue = [] := by
  by_cases hdrops : s.2.Drops
  · refine ⟨_, by rw [sendFrame_eq, MockRf.push_drops hdrops, ok_bind], ?_⟩
    show s.2.runtime.queue.filter _ = []
    rw [hempty]
    rfl
  · obtain ⟨hadd, hle⟩ := h.due_of_prompt hk hprompt hdrops
    refine ⟨_, by rw [sendFrame_eq, MockRf.push_eq, if_neg hdrops, hadd, ok_bind, ok_bind], ?_⟩
    have hclock := advance_two_toNat h.clock hk
    show (Line.join s.2.config.reorder s.2.runtime.queue _).filter _ = []
    rw [hempty, Line.join_nil, List.filter_eq_nil_iff]
    intro entry hentry
    rw [List.mem_singleton.1 hentry]
    have hdue : ((s.2.enqueue (s.2.runtime.nowMs + s.2.config.jitterMs) frame).advance 2).Due
        (s.2.runtime.nowMs + s.2.config.jitterMs, frame) := UInt64.le_iff_toNat_le.2 (hle.trans hclock.ge)
    simpa using hdue

/-! ## The whole loop -/

theorem After.run {frames : List α} (h : After config k s) (hk : k + frames.length < 2 ^ 32)
    (hrun : frames.foldlM sendFrame s = .ok s') :
    After config (k + frames.length) s' ∧
      ∀ entry ∈ s.2.runtime.queue, 2 * (k + frames.length) < entry.1.toNat → entry ∈ s'.2.runtime.queue := by
  induction frames generalizing k s with
  | nil =>
    obtain rfl := ok.inj hrun
    exact ⟨h, fun entry hentry _ => hentry⟩
  | cons frame frames ih =>
    rw [List.foldlM_cons] at hrun
    obtain ⟨mid, hturn, hrun⟩ := bind_eq_ok.1 hrun
    rw [List.length_cons] at hk ⊢
    have hturns : k + (frames.length + 1) = k + 1 + frames.length := by omega
    rw [hturns]
    obtain ⟨hafter, hkeeps⟩ := ih (h.step (by omega) hturn) (by omega) hrun
    refine ⟨hafter, fun entry hentry hlate => ?_⟩
    exact hkeeps entry (h.keeps (by omega) hturn (Or.inl hentry) (by omega)) hlate

theorem After.settles_run {frames : List α} (h : After config k s) (hk : k + frames.length < 2 ^ 32)
    (hempty : s.2.runtime.queue = []) (hprompt : ∀ j, k ≤ j → j < k + frames.length → Prompt config j) :
    ∃ s', frames.foldlM sendFrame s = .ok s' ∧ s'.2.runtime.queue = [] := by
  induction frames generalizing k s with
  | nil => exact ⟨s, rfl, hempty⟩
  | cons frame frames ih =>
    rw [List.length_cons] at hk hprompt
    obtain ⟨mid, hturn, hmid⟩ := h.settles (by omega) hempty (hprompt k le_rfl (by omega)) frame
    obtain ⟨s', hrun, hs'⟩ := ih (h.step (by omega) hturn) (by omega) hmid fun j hj hlt => hprompt j (by omega) (by omega)
    exact ⟨s', by rw [List.foldlM_cons, hturn, ok_bind, hrun], hs'⟩

/-- Every frame leaves the channel before the loop ends. -/
def NothingLeft (config : MockRfConfig) (frames : Nat) : Prop :=
  config.jitterMs.toNat ≤ 2 ∨ frames ≤ (if config.dropFirst then 1 else 0) ∨
    (Profile.overflowChecks = false ∧ config.dropFirst = true ∧ 2 ^ 64 ≤ 2 + config.jitterMs.toNat)

theorem NothingLeft.prompt {n : Nat} (h : NothingLeft config n) {j : Nat} (hj : j < n) : Prompt config j := by
  rcases h with hshort | hfew | ⟨hchecks, hfirst, hwraps⟩
  · exact Or.inr (Or.inl hshort)
  · split_ifs at hfew with hfirst
    · exact Or.inl ⟨hfirst, by omega⟩
    · omega
  · by_cases hzero : j = 0
    · exact Or.inl ⟨hfirst, hzero⟩
    · exact Or.inr (Or.inr ⟨hchecks, by omega⟩)

/-- With overflow checks, a turn whose frame joins the queue has room for the jitter. -/
theorem After.fits (h : After config k s) (hchecks : Profile.overflowChecks = true) (hdrops : ¬s.2.Drops)
    (hturn : sendFrame s frame = .ok s') : 2 * k + config.jitterMs.toNat < 2 ^ 64 := by
  by_contra hwraps
  rw [← h.clock, ← h.sameConfig] at hwraps
  rw [sendFrame_eq, MockRf.push_eq, if_neg hdrops, u64Add, if_neg hwraps, if_pos hchecks] at hturn
  contradiction

/-- Turn `i` of a loop that ends, and the turns behind it. -/
theorem After.turn {frames : List α} {i : Nat} (h : After config 0 s) (hlt : frames.length < 2 ^ 32)
    (hrun : frames.foldlM sendFrame s = .ok s') (hi : i < frames.length) :
    ∃ mid next, After config i mid ∧ sendFrame mid frames[i] = .ok next ∧
      (frames.drop (i + 1)).foldlM sendFrame next = .ok s' := by
  have hsplit : frames = frames.take i ++ frames[i] :: frames.drop (i + 1) := by
    rw [List.getElem_cons_drop, List.take_append_drop]
  have htake : (frames.take i).length = i := List.length_take_of_le (by omega)
  rw [hsplit, List.foldlM_append] at hrun
  obtain ⟨mid, hfront, hrun⟩ := bind_eq_ok.1 hrun
  rw [List.foldlM_cons] at hrun
  obtain ⟨next, hturn, hback⟩ := bind_eq_ok.1 hrun
  have hmid := (h.run (by omega) hfront).1
  rw [htake, Nat.zero_add] at hmid
  exact ⟨mid, next, hmid, hturn, hback⟩

/-- A frame that joins the queue in turn `i`, to be delivered behind the last turn, is left there. -/
theorem After.queue_ne_nil {frames : List α} {i : Nat} (h : After config 0 s) (hlt : frames.length < 2 ^ 32)
    (hrun : frames.foldlM sendFrame s = .ok s') (hi : i < frames.length) (hjoins : ¬(config.dropFirst = true ∧ i = 0))
    (hfits : 2 * i + config.jitterMs.toNat < 2 ^ 64) (hlate : 2 * frames.length < 2 * i + config.jitterMs.toNat) :
    s'.2.runtime.queue ≠ [] := by
  obtain ⟨mid, next, hmid, hturn, hback⟩ := h.turn hlt hrun hi
  have hclock := hmid.clock
  have hdrop : (frames.drop (i + 1)).length = frames.length - (i + 1) := List.length_drop
  have htime : (mid.2.runtime.nowMs + mid.2.config.jitterMs).toNat = 2 * i + config.jitterMs.toNat := by
    rw [hmid.sameConfig, UInt64.toNat_add, hclock, Nat.mod_eq_of_lt hfits]
  have hown := hmid.keeps (by omega) hturn
    (Or.inr ⟨fun hdrops => hjoins (hmid.drops_iff.1 hdrops), rfl⟩) (by rw [htime]; omega)
  have hlast := ((hmid.step (by omega) hturn).run (by omega) hback).2 _ hown (by rw [htime]; omega)
  exact List.ne_nil_of_mem hlast

/-- A loop that ends with an empty queue left nothing there: else the last frame is late, or, where its
delivery time wraps, the first one that joins the queue is. -/
theorem After.nothingLeft {frames : List α} (h : After config 0 s) (hlt : frames.length < 2 ^ 32)
    (hrun : frames.foldlM sendFrame s = .ok s') (hempty : s'.2.runtime.queue = []) : NothingLeft config frames.length := by
  by_contra hleft
  obtain ⟨hlong, hmany, hwrap⟩ : 2 < config.jitterMs.toNat ∧ (if config.dropFirst then 1 else 0) < frames.length ∧
      ¬(Profile.overflowChecks = false ∧ config.dropFirst = true ∧ 2 ^ 64 ≤ 2 + config.jitterMs.toNat) := by
    simpa only [NothingLeft, not_or, not_le] using hleft
  have hjitter := config.jitterMs.toNat_lt
  by_cases hlast : 2 * (frames.length - 1) + config.jitterMs.toNat < 2 ^ 64
  · refine h.queue_ne_nil hlt hrun (i := frames.length - 1) (by omega) ?_ hlast (by omega) hempty
    rintro ⟨hfirst, hone⟩
    rw [if_pos hfirst] at hmany
    omega
  · by_cases hfirst : config.dropFirst = true
    · rw [if_pos hfirst] at hmany
      have hfits : 2 * 1 + config.jitterMs.toNat < 2 ^ 64 := by
        by_cases hchecks : Profile.overflowChecks = true
        · obtain ⟨mid, next, hmid, hturn, -⟩ := h.turn hlt hrun hmany
          exact hmid.fits hchecks (fun hdrops => absurd (hmid.drops_iff.1 hdrops).2 (by omega)) hturn
        · by_contra hlate
          exact hwrap ⟨Bool.eq_false_iff.2 hchecks, hfirst, by omega⟩
      exact h.queue_ne_nil hlt hrun hmany (by omega) hfits (by omega) hempty
    · rw [if_neg hfirst] at hmany
      exact h.queue_ne_nil hlt hrun hmany (fun hdrop => hfirst hdrop.1) (by omega) (by omega) hempty

/-- The loop ends with an empty queue exactly when every frame leaves before. -/
theorem settles_iff {frames : List α} (config : MockRfConfig) (hlt : frames.length < 2 ^ 32) :
    (∃ s', frames.foldlM sendFrame ([], MockRf.new config.dropFirst config.reorder config.jitterMs) = .ok s' ∧
        s'.2.runtime.queue = []) ↔ NothingLeft config frames.length := by
  have hnew := @after_new α config
  constructor
  · rintro ⟨s', hrun, hempty⟩
    exact hnew.nothingLeft hlt hrun hempty
  · intro hleft
    exact hnew.settles_run (by omega) rfl fun j _ hj => hleft.prompt (by omega)

end Turn

/-! ## The reported attempts -/

section Report

variable [Profile] {cipher : Arr UInt8 keyBytes → Cipher} {args : Args} {packets : List Packet} {frames : List (List UInt8)}

/-- The channel of the options. -/
def Args.config (args : Args) : MockRfConfig := { dropFirst := args.dropFirst, reorder := args.reorder, jitterMs := args.jitterMs }

theorem sendPacket_eq {pkt : Packet} {frame : List UInt8} (hframe : sealPacket cipher args pkt = .ok frame)
    (s : List (List UInt8) × MockRf (List UInt8)) :
    sendPacket cipher args { deliveredFrames := s.1, rf := some s.2 } pkt =
      sendFrame s frame >>= fun s' => .ok { deliveredFrames := s'.1, rf := some s'.2 } := by
  rw [sendPacket, hframe, ok_bind]
  rfl

/-- The send loop on packets is the loop on their sealed frames. -/
theorem foldlM_sendPacket (hseal : packets.mapM (sealPacket cipher args) = .ok frames) (s : List (List UInt8) × MockRf (List UInt8)) :
    packets.foldlM (sendPacket cipher args) { deliveredFrames := s.1, rf := some s.2 } =
      frames.foldlM sendFrame s >>= fun s' => .ok { deliveredFrames := s'.1, rf := some s'.2 } := by
  induction packets generalizing frames s with
  | nil =>
    obtain rfl := ok.inj hseal
    rfl
  | cons pkt packets ih =>
    rw [List.mapM_cons] at hseal
    obtain ⟨frame, hframe, hseal⟩ := bind_eq_ok.1 hseal
    obtain ⟨rest, hrest, hseal⟩ := bind_eq_ok.1 hseal
    obtain rfl := ok.inj hseal
    rw [List.foldlM_cons, List.foldlM_cons, sendPacket_eq hframe, bind_assoc, bind_assoc]
    congr 1
    funext mid
    exact ih hrest mid

/-- The attempts reported are the frames pushed exactly when fewer than `2^32` are and none is left in the
channel: when the jitter is at most the 2 ms of a turn, or no frame joins the queue, or, where sums wrap and
the first frame is dropped, the delivery times of all others wrap. -/
theorem attempts_exact_iff (hmock : args.mockRf = true) (hseal : packets.mapM (sealPacket cipher args) = .ok frames) :
    (∃ m, sendAndReport cipher args packets = .ok (some m) ∧ m.attempts.map UInt32.toNat = some frames.length) ↔
      frames.length < 2 ^ 32 ∧ NothingLeft args.config frames.length := by
  have hrf : args.rf = some (.new args.dropFirst args.reorder args.jitterMs) := if_pos hmock
  have hloop := foldlM_sendPacket hseal ([], .new args.dropFirst args.reorder args.jitterMs)
  have hnew := @after_new (List UInt8) args.config
  unfold sendAndReport sendLoop
  rw [hrf, hloop]
  constructor
  · rintro ⟨m, hm, hattempts⟩
    obtain ⟨t, ht, hm⟩ := bind_eq_ok.1 hm
    obtain ⟨s', hrun, ht⟩ := bind_eq_ok.1 ht
    obtain rfl := ok.inj ht
    obtain rfl := Option.some.inj (ok.inj hm)
    have hcount : (s'.1.length + s'.2.runtime.dropped) % 2 ^ 32 = frames.length := Option.some.inj hattempts
    have hlt : frames.length < 2 ^ 32 := by omega
    have htotal := (hnew.run (by omega) hrun).1.total
    have hempty : s'.2.runtime.queue = [] := List.eq_nil_of_length_eq_zero (by omega)
    exact ⟨hlt, (settles_iff args.config hlt).1 ⟨s', hrun, hempty⟩⟩
  · rintro ⟨hlt, hleft⟩
    obtain ⟨s', hrun, hempty⟩ := (settles_iff args.config hlt).2 hleft
    have hend : frames.foldlM sendFrame ([], .new args.dropFirst args.reorder args.jitterMs) = .ok s' := hrun
    have htotal := (hnew.run (by omega) hrun).1.total
    rw [hempty, List.length_nil] at htotal
    refine ⟨_, by rw [hend]; rfl, ?_⟩
    show some ((s'.1.length + s'.2.runtime.dropped) % 2 ^ 32) = some frames.length
    rw [Nat.mod_eq_of_lt (by omega)]
    congr 1
    omega

end Report

/-- `host-sim --mock-rf --jitter-ms ..`; dropping the first frame and reordering are on by default. -/
def mockRfArgs (jitterMs : UInt64) : Args where
  realAead := false
  aeadKey := none
  sessionSalt := none
  mockRf := true
  dropFirst := true
  reorder := true
  jitterMs := jitterMs

/-- A crate that is not called: the dummy tagger seals. -/
def noCipher (_key : Arr UInt8 keyBytes) : Cipher := ⟨fun _ _ _ => none, fun _ _ _ _ => none⟩

theorem sampleFrames (jitterMs : UInt64) :
    ∃ a b c, [sampleHandshake demoConfig, sampleKeyReport demoConfig 1, sampleAck demoConfig 2 1].mapM
      (sealPacket noCipher (mockRfArgs jitterMs)) = .ok [a, b, c] := ⟨_, _, _, rfl⟩

/-- The sample packets under the default jitter. -/
theorem attempts_exact_sample :
    ∃ packets m, samplePackets demoConfig = .ok packets ∧
      @sendAndReport devProfile noCipher (mockRfArgs 2) packets = .ok (some m) ∧ m.attempts.map UInt32.toNat = some 3 := by
  obtain ⟨a, b, c, hseal⟩ := sampleFrames 2
  obtain ⟨m, hm, hattempts⟩ := (@attempts_exact_iff devProfile _ _ _ _ rfl hseal).2
    ⟨show 3 < 2 ^ 32 by decide, Or.inl (by decide)⟩
  exact ⟨_, m, samplePackets_eq demoConfig, hm, hattempts⟩

theorem queued_of_three (a b c : List UInt8) :
    ∃ s, [a, b, c].foldlM (@sendFrame _ devProfile) ([], .new true true 3) = .ok s ∧
      s.1.length + s.2.runtime.dropped = 2 := by
  have hturn : @sendFrame (List UInt8) devProfile = fun s frame =>
      @MockRf.push _ devProfile s.2 frame >>= fun rf => .ok (s.1 ++ dueFrames (rf.advance 2), drained (rf.advance 2)) := by
    funext s frame
    exact @sendFrame_eq _ devProfile s frame
  rw [hturn]
  exact ⟨_, rfl, rfl⟩

/-- One more millisecond of jitter: of three frames sent one is dropped, one delivered, and the last is
still queued, so two attempts are reported. -/
theorem attempts_miss_queued :
    ∃ packets frames m, samplePackets demoConfig = .ok packets ∧
      packets.mapM (sealPacket noCipher (mockRfArgs 3)) = .ok frames ∧ frames.length = 3 ∧
      @sendAndReport devProfile noCipher (mockRfArgs 3) packets = .ok (some m) ∧ m.attempts.map UInt32.toNat = some 2 := by
  obtain ⟨a, b, c, hseal⟩ := sampleFrames 3
  obtain ⟨s, hrun, hcount⟩ := queued_of_three a b c
  have hloop := @foldlM_sendPacket devProfile _ _ _ _ hseal ([], .new true true 3)
  rw [hrun, ok_bind] at hloop
  have hreport : @sendAndReport devProfile noCipher (mockRfArgs 3)
      [sampleHandshake demoConfig, sampleKeyReport demoConfig 1, sampleAck demoConfig 2 1] =
        .ok (report (mockRfArgs 3) { deliveredFrames := s.1, rf := some s.2 }) := bind_eq_ok.2 ⟨_, hloop, rfl⟩
  refine ⟨_, _, _, samplePackets_eq demoConfig, hseal, rfl, hreport, ?_⟩
  show some ((s.1.length + s.2.runtime.dropped) % 2 ^ 32) = some 2
  rw [hcount]

end KeyboardProject.HostSim
