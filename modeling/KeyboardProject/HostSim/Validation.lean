/-
The host simulator's validation loop (`host-sim/src/main.rs`). It moves its last counter to that of every
packet, accepted or not, so a rejected packet can make room for a replay.
-/
import KeyboardProject.Lib.Machine
import KeyboardProject.Proto.Samples

namespace KeyboardProject.HostSim

open Rust Rust.Outcome Proto

/-- The validation loop of `main`. Its state is `last_counter`; it puts out each packet's verdict. -/
def validationLoop (cfg : ProtocolConfig) : Machine (Option UInt32) Packet (Packet × Outcome ValidationError Unit) where
  step lastCounter pkt :=
    (some pkt.header.counter, [(pkt, validatePacket pkt cfg (some pkt.header.sessionId) lastCounter)])

/-- The packets that were reported ok. -/
def reportedOk (verdicts : List (Packet × Outcome ValidationError Unit)) : List Packet :=
  (verdicts.filter fun v => v.2 = .ok ()).map Prod.fst

variable {cfg : ProtocolConfig}

@[simp] theorem reportedOk_append (vs ws : List (Packet × Outcome ValidationError Unit)) :
    reportedOk (vs ++ ws) = reportedOk vs ++ reportedOk ws := by simp [reportedOk]

theorem reportedOk_step (lastCounter : Option UInt32) (pkt : Packet) :
    reportedOk ((validationLoop cfg).step lastCounter pkt).2 =
      if validatePacket pkt cfg (some pkt.header.sessionId) lastCounter = .ok () then [pkt] else [] := by
  unfold reportedOk validationLoop
  split_ifs with h <;> simp [h]

/-- A rejected packet is not below any packet that was reported ok before it. -/
def KeepsUp (cfg : ProtocolConfig) (verdicts : List (Packet × Outcome ValidationError Unit))
    (lastCounter : Option UInt32) (pkt : Packet) : Prop :=
  validatePacket pkt cfg (some pkt.header.sessionId) lastCounter ≠ .ok () →
    ∀ q ∈ reportedOk verdicts, q.header.counter ≤ pkt.header.counter

/-- As long as the last counter keeps up, the counters reported ok go up. -/
theorem run_increasing {pkts : List Packet} (h : (validationLoop cfg).Along (KeepsUp cfg) [] none pkts) :
    (reportedOk ((validationLoop cfg).run none pkts).2).Pairwise (fun p q => p.header.counter < q.header.counter) := by
  refine (h.invariant (P := fun vs last => (reportedOk vs).Pairwise (fun p q => p.header.counter < q.header.counter) ∧
    ∀ q ∈ reportedOk vs, ∃ l, last = some l ∧ q.header.counter ≤ l) ⟨List.Pairwise.nil, by simp [reportedOk]⟩ ?_).1
  rintro vs last pkt ⟨hinc, hbelow⟩ hkeeps
  rw [reportedOk_append, reportedOk_step]
  by_cases hok : validatePacket pkt cfg (some pkt.header.sessionId) last = .ok ()
  · rw [if_pos hok]
    have hlt : ∀ q ∈ reportedOk vs, q.header.counter < pkt.header.counter := by
      intro q hq
      obtain ⟨l, hl, hle⟩ := hbelow q hq
      have hwin := (validatePacket_eq_ok.1 hok).2 l hl
      exact UInt32.lt_of_le_of_lt hle (UInt32.lt_iff_toNat_lt.2 hwin.1)
    refine ⟨List.pairwise_append.2 ⟨hinc, List.pairwise_singleton _ _, by simpa using hlt⟩, fun q hq => ?_⟩
    refine ⟨pkt.header.counter, rfl, ?_⟩
    rcases List.mem_append.1 hq with hq | hq
    · exact UInt32.le_of_lt (hlt q hq)
    · rw [List.mem_singleton.1 hq]; exact UInt32.le_refl _
  · rw [if_neg hok, List.append_nil]
    exact ⟨hinc, fun q hq => ⟨pkt.header.counter, rfl, hkeeps hok q hq⟩⟩

/-! ## How a replay gets in -/

/-- The same packet under another counter. -/
def withCounter (q : Packet) (counter : UInt32) : Packet := { q with header := { q.header with counter } }

/-- From any lower last counter, packets that count up to a well-formed one are all accepted, and so is
that one. -/
theorem exists_accepted {q : Packet} (hq : WellFormed q cfg (some q.header.sessionId)) (n : Nat) {l : UInt32}
    (hl : l.toNat + n + 1 = q.header.counter.toNat) :
    ∃ more, q ∈ reportedOk ((validationLoop cfg).run (some l) more).2 := by
  induction n generalizing l with
  | zero =>
    refine ⟨[q], ?_⟩
    have hok : validatePacket q cfg (some q.header.sessionId) (some l) = .ok () :=
      validatePacket_eq_ok.2 ⟨hq, fun last hlast => by
        obtain rfl := Option.some.inj hlast
        exact ⟨by omega, by omega⟩⟩
    rw [Machine.run_cons, reportedOk_append, reportedOk_step, if_pos hok]
    simp
  | succ n ih =>
    have hlt := q.header.counter.toNat_lt
    have hone : (1 : UInt32).toNat = 1 := rfl
    have hsucc : (l + 1).toNat = l.toNat + 1 := by rw [UInt32.toNat_add, hone]; omega
    obtain ⟨more, hmore⟩ := @ih (l + 1) (by omega)
    refine ⟨withCounter q (l + 1) :: more, ?_⟩
    rw [Machine.run_cons, reportedOk_append]
    exact List.mem_append_right _ hmore

/-- A packet reported ok is well formed. -/
theorem wellFormed_of_reportedOk {pkts : List Packet} {last : Option UInt32} {q : Packet}
    (hq : q ∈ reportedOk ((validationLoop cfg).run last pkts).2) : WellFormed q cfg (some q.header.sessionId) := by
  induction pkts generalizing last with
  | nil => simp [reportedOk] at hq
  | cons pkt pkts ih =>
    rw [Machine.run_cons, reportedOk_append, List.mem_append, reportedOk_step] at hq
    rcases hq with hq | hq
    · split_ifs at hq with hok
      · rw [List.mem_singleton.1 hq]; exact (validatePacket_eq_ok.1 hok).1
      · simp at hq
    · exact ih hq

/-- The loop reports no replay ok along the runs in which no rejected packet is below one reported ok; and
whenever the last counter has fallen below a packet reported ok, that packet can be reported ok again. -/
theorem validation_no_replay :
    (∀ pkts, (validationLoop cfg).Along (KeepsUp cfg) [] none pkts →
      (reportedOk ((validationLoop cfg).run none pkts).2).Pairwise (fun p q => p.header.counter < q.header.counter)) ∧
    ∀ pkts l q, ((validationLoop cfg).run none pkts).1 = some l →
      q ∈ reportedOk ((validationLoop cfg).run none pkts).2 → l < q.header.counter →
        ∃ more, ¬(reportedOk ((validationLoop cfg).run none (pkts ++ more)).2).Nodup := by
  refine ⟨fun pkts h => run_increasing h, fun pkts l q hlast hq hlt => ?_⟩
  rw [UInt32.lt_iff_toNat_lt] at hlt
  obtain ⟨more, hmore⟩ := @exists_accepted cfg q (wellFormed_of_reportedOk hq) (q.header.counter.toNat - l.toNat - 1) l
    (by omega)
  refine ⟨more, fun hnodup => ?_⟩
  rw [Machine.run_append, reportedOk_append, hlast] at hnodup
  exact List.disjoint_of_nodup_append hnodup hq hmore

/-- Key reports with the counters 5, 1 and 5: the second is rejected, the replay of the first is not. -/
theorem validation_accepts_replay :
    (reportedOk ((validationLoop demoConfig).run none ([5, 1, 5].map (sampleKeyReport demoConfig))).2).map
      (fun p => p.header.counter) = [5, 5] := by
  decide

end KeyboardProject.HostSim
