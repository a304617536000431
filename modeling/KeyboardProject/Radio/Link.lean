/-
The two ends of the radio link test together. Packets are lost or damaged on the way, and the receiver also takes
noise. Two lines of its log tell how many packets between them it has missed.
-/
import KeyboardProject.Radio.Rx

namespace KeyboardProject.Radio

open Rust

/-- What becomes of a packet. Where it is heard, `polled` is what `usb_dev.poll` returns at the receiver. -/
inductive Fate where
  | lost
  | damaged (buf : Arr UInt8 packetLen) (polled : Bool)
  | intact (polled : Bool)
  deriving DecidableEq, Repr

inductive Air where
  /-- A turn of the transmitter; `polled` is what `usb_dev.poll` returns there. -/
  | packet (polled : Bool) (fate : Fate)
  /-- The receiver takes something that nobody sent, and its CRC is wrong. -/
  | noise (buf : Arr UInt8 packetLen) (polled : Bool)
  deriving DecidableEq, Repr

/-- The receiver's turn, if it has one. -/
def Fate.turn (sent : Arr UInt8 packetLen) : Fate → Option Turn
  | .lost => none
  | .damaged buf polled => some { buf, crcOk := false, polled }
  | .intact polled => some { buf := sent, crcOk := true, polled }

/-- Both ends; the outputs are the receiver's. -/
def link : Machine (Tx × Rx) Air Act where
  step s
    | .packet polled fate =>
      let tx := (transmitter.step s.1 polled).1
      match fate.turn (pingPong s.1.seq) with
      | some t => ((tx, (receiver.step s.2 t).1), (receiver.step s.2 t).2)
      | none => ((tx, s.2), [])
    | .noise buf polled =>
      let t := { buf, crcOk := false, polled }
      ((s.1, (receiver.step s.2 t).1), (receiver.step s.2 t).2)

/-! ## What is counted -/

def Air.sent : Air → Bool
  | .packet .. => true
  | .noise .. => false

def Air.heard : Air → Bool
  | .packet _ .lost => false
  | .packet .. => true
  | .noise .. => true

def Air.intact : Air → Bool
  | .packet _ (.intact _) => true
  | _ => false

/-- The packets that the receiver has not got. -/
def missed (airs : List Air) : Nat := airs.countP fun a => a.sent && !a.intact

theorem missed_add_intact (airs : List Air) : missed airs + airs.countP Air.intact = airs.countP Air.sent := by
  induction airs with
  | nil => rfl
  | cons a airs ih =>
    rw [missed] at ih ⊢
    simp only [List.countP_cons, ← ih]
    rcases a with ⟨polled, _ | _ | _⟩ | _ <;> simp [Air.sent, Air.intact] <;> omega

theorem run_link (airs : List Air) :
    (link.run (.start, .start) airs).1.1.seq = UInt8.ofNat (airs.countP Air.sent) ∧
      (link.run (.start, .start) airs).1.2 = stateAfter (airs.countP Air.heard) (airs.countP Air.intact) := by
  induction airs using List.reverseRecOn with
  | nil => exact ⟨rfl, rfl⟩
  | append_singleton airs a ih =>
    obtain ⟨hseq, hrx⟩ := ih
    have hnext : (link.run (.start, .start) airs).1.1.seq + 1 = UInt8.ofNat (airs.countP Air.sent + 1) := by
      rw [hseq, UInt8.ofNat_add]
      rfl
    rw [Machine.run_concat]
    simp only [List.countP_append, List.countP_singleton]
    rcases a with ⟨polled, _ | ⟨buf, polled'⟩ | polled'⟩ | ⟨buf, polled'⟩
    · exact ⟨hnext, hrx⟩
    · refine ⟨hnext, ?_⟩
      show (receiver.step (link.run (.start, .start) airs).1.2 _).1 = _
      rw [hrx, step_stateAfter]
      rfl
    · refine ⟨hnext, ?_⟩
      show (receiver.step (link.run (.start, .start) airs).1.2 _).1 = _
      rw [hrx, step_stateAfter]
      rfl
    · refine ⟨hseq, ?_⟩
      show (receiver.step (link.run (.start, .start) airs).1.2 _).1 = _
      rw [hrx, step_stateAfter]
      rfl

theorem seq_pingPong (seq : UInt8) (crcOk polled : Bool) : Turn.seq { buf := pingPong seq, crcOk, polled } = seq := rfl

/-- The line of an intact packet, once the port is up: its number and the count of intact ones. -/
theorem written_intact (airs : List Air) (polled : Bool) (hup : 300 < airs.countP Air.heard) :
    written (link.step (link.run (.start, .start) airs).1 (.packet polled (.intact true))).2 =
      logPacket (UInt8.ofNat (airs.countP Air.sent)) (UInt32.ofNat (airs.countP Air.intact + 1)) := by
  obtain ⟨hseq, hrx⟩ := run_link airs
  show written (receiver.step (link.run (.start, .start) airs).1.2 _).2 = _
  rw [hrx, hseq, step_stateAfter]
  have hinit : airs.countP Air.heard ≠ 300 := by omega
  simp only [acts, seq_pingPong, hup, hinit, written, if_true, if_false, and_self]
  split_ifs <;> rfl

/-- Two lines of the log, with fewer than 255 packets sent between theirs: how far the sequence bytes are apart, less
how far the totals are apart, is the number of packets missed between them. Noise and damaged packets do not count, and
neither counter's wrapping shows. -/
theorem missed_between (before between : List Air) (polled polled' : Bool) (hup : 300 < before.countP Air.heard)
    (hnear : between.countP Air.sent < 255) :
    ∃ seq total seq' total',
      written (link.step (link.run (.start, .start) before).1 (.packet polled (.intact true))).2 = logPacket seq total ∧
      written (link.step (link.run (.start, .start) (before ++ .packet polled (.intact true) :: between)).1
        (.packet polled' (.intact true))).2 = logPacket seq' total' ∧
      (seq' - seq).toNat - (total' - total).toNat = missed between := by
  have hup' : 300 < (before ++ .packet polled (.intact true) :: between).countP Air.heard := by
    rw [List.countP_append]
    omega
  have hcount := missed_add_intact between
  refine ⟨_, _, _, _, written_intact before polled hup, written_intact _ polled' hup', ?_⟩
  have hsent : (before ++ .packet polled (.intact true) :: between).countP Air.sent =
      before.countP Air.sent + (between.countP Air.sent + 1) := by
    rw [List.countP_append, List.countP_cons]
    rfl
  have hintact : (before ++ .packet polled (.intact true) :: between).countP Air.intact =
      before.countP Air.intact + (between.countP Air.intact + 1) := by
    rw [List.countP_append, List.countP_cons]
    rfl
  rw [hsent, hintact, UInt8.toNat_sub, UInt32.toNat_sub, UInt8.toNat_ofNat', UInt8.toNat_ofNat', UInt32.toNat_ofNat',
    UInt32.toNat_ofNat']
  omega

/-- After 301 turns of noise the port is up. -/
def idle : List Air := List.replicate 301 (.noise (pingPong 0) false)

def fiveLost : List Air := List.replicate 5 (.packet false .lost)

theorem missed_between_five :
    ∃ seq total seq' total',
      written (link.step (link.run (.start, .start) idle).1 (.packet false (.intact true))).2 = logPacket seq total ∧
      written (link.step (link.run (.start, .start) (idle ++ .packet false (.intact true) :: fiveLost)).1
        (.packet false (.intact true))).2 = logPacket seq' total' ∧
      (seq' - seq).toNat - (total' - total).toNat = 5 :=
  missed_between idle fiveLost false false (by rw [idle, List.countP_replicate]; decide) (by decide)

end KeyboardProject.Radio
