/-
The receiver's counter window over a channel that loses packets in order: full service until fifty
packets in a row are lost, none after.
-/
import KeyboardProject.Lib.Window
import KeyboardProject.Session.Nonce

namespace KeyboardProject.Session

open Rust Rust.Outcome Proto

/-! ## The receiver -/

/-- A receiver that validates each packet the channel delivers (`true`) against its last accepted
counter, and moves that counter on `Ok` only. The outputs are the verdicts. -/
def validator (cfg : ProtocolConfig) (expectedSession : Option UInt32) :
    Machine UInt32 (Packet × Bool) (Outcome ValidationError Unit) where
  step last packet :=
    match packet with
    | (_, false) => (last, [])
    | (p, true) =>
      let verdict := validatePacket p cfg expectedSession (some last)
      (if verdict = .ok () then p.header.counter else last, [verdict])

variable {cfg : ProtocolConfig} {expectedSession : Option UInt32}

/-- On well-formed packets the window alone decides whether the counter moves. -/
theorem validator_step {p : Packet} (hp : WellFormed p cfg expectedSession) (last : UInt32) (delivered : Bool) :
    ((validator cfg expectedSession).step last (p, delivered)).1 =
      if delivered = true ∧ InWindow last p.header.counter then p.header.counter else last := by
  cases delivered with
  | false => simp [validator]
  | true =>
    have hiff : validatePacket p cfg expectedSession (some last) = .ok () ↔ InWindow last p.header.counter := by
      rw [validatePacket_eq_ok]; simp [hp]
    simp [validator, hiff]

/-- The distance between the sender's next counter and the receiver's last accepted one is the gap
that the channel's losses leave. -/
theorem validator_gap {sent : List (Packet × Bool)} {first : Nat} {last : UInt32}
    (hcounters : sent.map (fun x => x.1.header.counter.toNat) = List.range' first sent.length)
    (hwf : ∀ x ∈ sent, WellFormed x.1 cfg expectedSession) (hlt : last.toNat < first) :
    first + sent.length =
      ((validator cfg expectedSession).run last sent).1.toNat +
        Window.gap 50 (first - last.toNat) (sent.map Prod.snd) := by
  induction sent generalizing first last with
  | nil => simp [Window.gap]; omega
  | cons x sent ih =>
    obtain ⟨p, delivered⟩ := x
    rw [List.map_cons, List.length_cons, List.range'_succ] at hcounters
    obtain ⟨hp, hrest⟩ : p.header.counter.toNat = first ∧ _ := List.cons.inj hcounters
    have hwin : InWindow last p.header.counter ↔ first - last.toNat ≤ 50 := by
      simp only [InWindow, Window.Ahead, hp]; omega
    have hstep := validator_step (hwf (p, delivered) List.mem_cons_self) last delivered
    simp only [hwin] at hstep
    rw [Machine.run_cons, List.map_cons, Window.gap, hstep, List.length_cons]
    have hwf' : ∀ x ∈ sent, WellFormed x.1 cfg expectedSession := fun x hx => hwf x (List.mem_cons_of_mem _ hx)
    by_cases hacc : delivered = true ∧ first - last.toNat ≤ 50
    · -- accepted: the next packet is one ahead again
      have hih := @ih _ p.header.counter hrest hwf' (by omega)
      have hone : first + 1 - p.header.counter.toNat = 1 := by omega
      rw [hone] at hih
      rw [if_pos hacc, if_pos hacc, ← hih]
      omega
    · -- lost or rejected: the sender is one further ahead
      have hih := @ih _ last hrest hwf' (by omega)
      have hsucc : first + 1 - last.toNat = first - last.toNat + 1 := by omega
      rw [hsucc] at hih
      rw [if_neg hacc, if_neg hacc, ← hih]
      omega

/-- The counter window tolerates up to 49 losses in a row and locks out for good after 50: of the
packets of a session issued by successive calls of `next_counter`, a delivered one is accepted as long
as no 50 packets in a row were lost before it, and rejected as a counter jump ever after. -/
theorem window_loss_tolerance {k : SessionKeys} {n : Nat} {sent before after : List (Packet × Bool)} {p : Packet}
    {last : UInt32} (hcounters : sent.map (fun x => x.1.header.counter) = issued k n)
    (hwf : ∀ x ∈ sent, WellFormed x.1 cfg expectedSession) (hlast : last.toNat + 1 = k.counter.toNat)
    (hsent : sent = before ++ (p, true) :: after) :
    validatePacket p cfg expectedSession (some ((validator cfg expectedSession).run last before).1) =
      if Window.Burst 50 (before.map Prod.snd) then .err .counterJump else .ok () := by
  have hrange : sent.map (fun x => x.1.header.counter.toNat) = List.range' k.counter.toNat sent.length := by
    have hmap := congrArg (List.map UInt32.toNat) hcounters
    rw [issued_range, ← hcounters, List.length_map, List.map_map] at hmap
    exact hmap
  -- the packet's counter, and the counters before it
  rw [hsent, List.map_append, List.length_append, ← List.range'_append_1] at hrange
  obtain ⟨hbefore, hrest⟩ := List.append_inj hrange (by simp)
  rw [List.map_cons, List.length_cons, List.range'_succ] at hrest
  have hp : p.header.counter.toNat = k.counter.toNat + before.length := (List.cons.inj hrest).1
  have hmem : ∀ x ∈ before, WellFormed x.1 cfg expectedSession := fun x hx =>
    hwf x (hsent ▸ List.mem_append_left _ hx)
  have hltk : last.toNat < k.counter.toNat := by omega
  have hgap := validator_gap hbefore hmem hltk
  have hone : k.counter.toNat - last.toNat = 1 := by omega
  rw [hone, ← hp] at hgap
  have hpos := Window.one_le_gap 50 le_rfl (before.map Prod.snd)
  have hburst := Window.gap_le_iff (show 0 < 50 by omega) (before.map Prod.snd)
  generalize ((validator cfg expectedSession).run last before).1 = lastAccepted at hgap ⊢
  rw [validatePacket_some (hwf (p, true) (hsent ▸ by simp))]
  have hne : p.header.counter ≠ lastAccepted := by rintro heq; rw [heq] at hgap; omega
  have hwin : InWindow lastAccepted p.header.counter ↔ ¬Window.Burst 50 (before.map Prod.snd) := by
    rw [← hburst]; simp only [InWindow, Window.Ahead]; omega
  rw [if_neg hne]
  by_cases hb : Window.Burst 50 (before.map Prod.snd)
  · rw [if_neg (fun h => hwin.1 h hb), if_pos hb]
  · rw [if_pos (hwin.2 hb), if_neg hb]

/-- Fifty lost key reports. -/
def lostFifty : List (Packet × Bool) :=
  (List.range 50).map fun i => (sampleKeyReport demoConfig (UInt32.ofNat (i + 1)), false)

/-- The fifty-first is rejected. -/
theorem window_loss_tolerance_lostFifty :
    validatePacket (sampleKeyReport demoConfig 51) demoConfig (some sampleSession.sessionId)
        (some ((validator demoConfig (some sampleSession.sessionId)).run 0 lostFifty).1) =
      .err .counterJump := by
  have h := @window_loss_tolerance demoConfig (some sampleSession.sessionId) sampleSession 51
    (lostFifty ++ [(sampleKeyReport demoConfig 51, true)]) lostFifty [] (sampleKeyReport demoConfig 51) 0
    (by decide) ?_ rfl rfl
  · rwa [if_pos (by decide)] at h
  · have hwf := @sampleKeyReport_wellFormed demoConfig (by decide) (by decide)
    simp only [lostFifty, List.mem_append, List.mem_map, List.mem_singleton]
    rintro x (⟨i, -, rfl⟩ | rfl)
    · exact hwf _
    · exact hwf 51

end KeyboardProject.Session
