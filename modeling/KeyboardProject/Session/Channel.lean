/-
A session over `MockRf`: the sender pushes the frames of its packets, the receiver takes what is popped. Pushes,
pops and advances may follow each other in any order.
-/
import KeyboardProject.Session.Refinement
import KeyboardProject.Sim.Overtaking

namespace KeyboardProject.Session

open Rust Rust.Outcome Proto Wire Sim Acceptor Overtaking

/-- What the receiver delivers of the frames that the channel delivers. -/
def heard [Target] [Profile] (cfg : ProtocolConfig) (aead : Aead) (k : SessionKeys) (dropFirst reorder : Bool) (jitterMs : UInt64)
    (calls : List (Call (List UInt8))) : List (PacketHeader × Payload) :=
  ((receiver cfg aead k.sessionId k.salt).run none (popped (channel.run (.ok (.new dropFirst reorder jitterMs)) calls).2)).2

/-- What the channel delivers when the sender pushes each packet's frame. -/
def arrivals [Profile] (dropFirst reorder : Bool) (jitterMs : UInt64) (calls : List (Call (Packet × List UInt8))) :
    List (Packet × List UInt8) :=
  popped (channel.run (.ok (.new dropFirst reorder jitterMs)) calls).2

/-- The number of a packet on its way. -/
def counterOf (x : Packet × List UInt8) : Nat := x.1.header.counter.toNat

section Runs

variable [Profile] {dropFirst reorder : Bool} {jitterMs : UInt64} {calls : List (Call (Packet × List UInt8))}

/-- The channel carries the frames as it carries the packets with them. -/
theorem popped_frames (dropFirst reorder : Bool) (jitterMs : UInt64) (calls : List (Call (Packet × List UInt8))) :
    popped (channel.run (.ok (.new dropFirst reorder jitterMs)) (calls.map (Call.map Prod.snd))).2 =
      (arrivals dropFirst reorder jitterMs calls).map Prod.snd := by
  have h := Machine.run_map channel (channel_step_map (Prod.snd : Packet × List UInt8 → List UInt8))
    (.ok (.new dropFirst reorder jitterMs)) calls
  have hnew : (MockRf.new dropFirst reorder jitterMs : MockRf (Packet × List UInt8)).map Prod.snd =
      .new dropFirst reorder jitterMs := rfl
  rw [ok_bind, hnew] at h
  rw [h, popped_map, arrivals]

variable {k : SessionKeys} {n : Nat}

omit [Profile] in
theorem counterOf_pushes (hcounters : (pushes calls).map (fun x => x.1.header.counter) = issued k n) :
    (pushes calls).map counterOf = List.range' k.counter.toNat (issued k n).length := by
  rw [← issued_range, ← hcounters, List.map_map]
  rfl

omit [Profile] in
theorem pushes_rising (hcounters : (pushes calls).map (fun x => x.1.header.counter) = issued k n) :
    (pushes calls).Pairwise fun a b => counterOf a < counterOf b := by
  have h : ((pushes calls).map counterOf).Pairwise (· < ·) := by
    rw [counterOf_pushes hcounters]
    exact List.pairwise_lt_range' _ Nat.one_pos
  exact List.pairwise_map.1 h

end Runs

section Channel

variable [Target] [Profile] {cfg : ProtocolConfig} {aead : Aead} {k : SessionKeys} {n : Nat}
  {calls : List (Call (Packet × List UInt8))}

/-- A session over the channel, for any order of pushes, pops and advances. The window of 50 cuts nothing off: the
receiver delivers exactly the packets that no later one has overtaken. Without reordering these are all that
arrives, in the order of sending. With it, of two packets sent in succession one is delivered at least: a packet
that the channel took is still queued, or delivered, or the next one is delivered in its place. -/
theorem session_over_mockRf (haead : aead.Lawful) (hc : FrameFits cfg) (dropFirst reorder : Bool) (jitterMs : UInt64)
    (hclock : (clock 0 calls).toNat + jitterMs.toNat < 2 ^ 64)
    (hcounters : (pushes calls).map (fun x => x.1.header.counter) = issued k n)
    (hgenuine : ∀ x ∈ pushes calls, Genuine cfg aead k x) :
    ∃ rf, (channel.run (.ok (.new dropFirst reorder jitterMs)) calls).1 = .ok rf ∧
      heard cfg aead k dropFirst reorder jitterMs (calls.map (Call.map Prod.snd)) =
        (records counterOf none (arrivals dropFirst reorder jitterMs calls)).map (fun x => (x.1.header, x.1.payload)) ∧
      (reorder = false →
        records counterOf none (arrivals dropFirst reorder jitterMs calls) = arrivals dropFirst reorder jitterMs calls ∧
        arrivals dropFirst reorder jitterMs calls ++ rf.queued = accepted dropFirst (pushes calls)) ∧
      ∀ x ∈ accepted dropFirst (pushes calls),
        x ∈ rf.queued ∨ x ∈ records counterOf none (arrivals dropFirst reorder jitterMs calls) ∨
          ∃ y ∈ records counterOf none (arrivals dropFirst reorder jitterMs calls), counterOf y = counterOf x + 1 := by
  obtain ⟨rf, hend⟩ := @run_ok _ (.new dropFirst reorder jitterMs) calls _ hclock
  have hrising := pushes_rising hcounters
  have hacc := run_accounted hend
  have hbounded := run_bounded hclock hrising hend
  rw [← arrivals] at hacc hbounded
  obtain ⟨first, count, hrange⟩ := accepted_range dropFirst k.counter.toNat (issued k n).length
  have hkeys : ((arrivals dropFirst reorder jitterMs calls ++ rf.queued).map counterOf).Perm (List.range' first count) := by
    rw [← hrange, ← counterOf_pushes hcounters, ← accepted_map]
    exact (hacc.map counterOf).symm
  have hpasses : passes reorder ≤ 1 := by cases reorder <;> decide
  refine ⟨rf, hend, ?_, ?_, fun x hx => ?_⟩
  · have harrived : ∀ x ∈ arrivals dropFirst reorder jitterMs calls, Genuine cfg aead k x := fun x hx =>
      hgenuine x ((accepted_sublist _ _).subset (hacc.mem_iff.2 (List.mem_append_left _ hx)))
    have hsteady : Steady 50 counterOf none (arrivals dropFirst reorder jitterMs calls) :=
      (hbounded.steady hkeys).mono (by omega)
    have hpackets := (@steady_map _ 50 (fun p : Packet => p.header.counter.toNat) _ Prod.fst none _).2 hsteady
    rw [heard, popped_frames, (window.run_filterMap receiver_skip receiver_step none _).2]
    refine (@window_takes_records _ cfg aead k none haead hc _ harrived hpackets).trans ?_
    rw [Option.map_none, records_map, List.map_map]
    rfl
  · rintro rfl
    have hord := run_inOrder hclock hend
    rw [← arrivals] at hord
    refine ⟨records_eq_self (by simp) ?_, hord.symm⟩
    have hsorted := hrising.sublist (accepted_sublist dropFirst (pushes calls))
    rw [hord] at hsorted
    exact (List.pairwise_append.1 hsorted).1
  · rcases List.mem_append.1 (hacc.mem_iff.1 hx) with harrived | hqueued
    · right
      by_cases hrecord : x ∈ records counterOf none (arrivals dropFirst reorder jitterMs calls)
      · exact Or.inl hrecord
      · obtain ⟨y, hy, hlt, hle⟩ := hbounded.exists_record hkeys harrived hrecord
        exact Or.inr ⟨y, hy, by omega⟩
    · exact Or.inl hqueued

end Channel

/-- The first of two reports is held back and arrives behind the second, which is all that is heard. -/
theorem session_over_mockRf_overtaken :
    @heard target64 devProfile demoConfig dummyAead sampleSession false true 1
      [.push firstFrame, .push secondFrame, .advance 1, .pop, .pop] = [(secondReport.header, secondReport.payload)] := by
  have hfirst : Genuine demoConfig dummyAead sampleSession (firstReport, firstFrame) :=
    ⟨rfl, sampleKeyReport_wellFormed (by decide) (by decide) 1, by decide +kernel⟩
  have hsecond : Genuine demoConfig dummyAead sampleSession (secondReport, secondFrame) :=
    ⟨rfl, sampleKeyReport_wellFormed (by decide) (by decide) 2, by decide +kernel⟩
  obtain ⟨rf, -, hheard, -⟩ :=
    @session_over_mockRf target64 devProfile demoConfig dummyAead sampleSession 2
      [.push (firstReport, firstFrame), .push (secondReport, secondFrame), .advance 1, .pop, .pop] lawful_dummyAead (by decide)
      false true 1 (by decide) (by decide) (by simp [pushes, hfirst, hsecond])
  exact hheard.trans rfl

end KeyboardProject.Session
