/-
The receiver of the radio link test (`firmware/radio-rx/src/main.rs`). A turn of the loop ends with every packet that
the radio takes; a good one is counted, and logged on the serial port once that is up. A heartbeat comes every
thousandth turn, so on an idle channel there is none.
-/
import KeyboardProject.Radio.Tx
import KeyboardProject.Rust.Fmt

namespace KeyboardProject.Radio

open Rust Numeral

/-! ## The log line -/

/-- The loop of `log_packet` that fills `digits` from its end; `i` is the variable of the source. -/
def digitLoop (n : UInt32) (digits : List UInt8) : Nat → List UInt8 × Nat
  | 0 => (digits, 0)
  | i + 1 =>
    if n > 0 then digitLoop (n / 10) (digits.set i (48 + (n % 10).toUInt8)) i
    else (digits, i + 1)

/-- `digits[i..]` when the line is written. -/
def totalDigits (total : UInt32) : List UInt8 :=
  let digits := List.replicate 10 (0 : UInt8)
  let (digits, i) := if total = 0 then (digits.set 9 48, 9) else digitLoop total digits 10
  digits.drop i

/-- What `log_packet` writes. -/
def logPacket (seq : UInt8) (total : UInt32) : List (List UInt8) :=
  [ascii "rx pkt ", [seq], ascii " total=", totalDigits total, ascii "\r\n"]

/-! ## The loop -/

/-- What a turn of the loop gets: a packet and whether its CRC is right, and what `usb_dev.poll` returns. -/
structure Turn where
  buf : Arr UInt8 packetLen
  crcOk : Bool
  polled : Bool
  deriving DecidableEq, Repr

/-- `buf[7]`. -/
def Turn.seq (t : Turn) : UInt8 := t.buf.1.get ⟨7, by rw [t.buf.2]; decide⟩

inductive Act where
  /-- The LED is on for 50 ms. -/
  | blink
  | write (bytes : List UInt8)
  | usbInit
  deriving DecidableEq, Repr

/-- The locals of `main`; `usbdPeriph` is whether the peripheral is still there to be taken. -/
structure Rx where
  blinkMs : UInt32
  packets : UInt32
  usbReady : Bool
  usbdPeriph : Bool
  deriving DecidableEq, Repr

def Rx.start : Rx := { blinkMs := 0, packets := 0, usbReady := false, usbdPeriph := true }

/-- The loop of `main`. -/
def receiver : Machine Rx Turn Act where
  step s t :=
    let packets := if t.crcOk then s.packets + 1 else s.packets
    let heard :=
      if t.crcOk then .blink :: (if s.usbReady = true ∧ t.polled = true then (logPacket t.seq packets).map .write else [])
      else []
    let heartbeat := s.blinkMs ≥ 1000
    let blinkMs := u32SaturatingAdd (if heartbeat then 0 else s.blinkMs) 1
    let init := s.usbReady = false ∧ blinkMs > 300 ∧ s.usbdPeriph = true
    ({ blinkMs
       packets
       usbReady := if init then true else s.usbReady
       usbdPeriph := if init then false else s.usbdPeriph },
      heard ++ (if heartbeat then [.blink] else []) ++ (if init then [.usbInit] else []))

/-! ## Every turn -/

/-- The good packets among the turns. -/
def good (turns : List Turn) : Nat := turns.countP Turn.crcOk

/-- The heartbeat comes with the turns 1000, 2000 and so on. -/
def Heartbeat (n : Nat) : Prop := 0 < n ∧ n % 1000 = 0

instance (n : Nat) : Decidable (Heartbeat n) := inferInstanceAs (Decidable (_ ∧ _))

/-- `blink_ms` after `n` turns. -/
def blinkAfter (n : Nat) : Nat := Throttle.phase 1000 n

/-- The locals after `n` turns with `total` good packets. -/
def stateAfter (n total : Nat) : Rx where
  blinkMs := UInt32.ofNat (blinkAfter n)
  packets := UInt32.ofNat total
  usbReady := decide (300 < n)
  usbdPeriph := !decide (300 < n)

/-- What turn `n` does when its packet, if it is good, is number `total`. -/
def acts (n total : Nat) (t : Turn) : List Act :=
  (if t.crcOk then
    .blink :: (if 300 < n ∧ t.polled = true then (logPacket t.seq (UInt32.ofNat total)).map .write else [])
  else []) ++ (if Heartbeat n then [.blink] else []) ++ if n = 300 then [.usbInit] else []

theorem blinkAfter_le (n : Nat) : blinkAfter n ≤ 1000 := Throttle.phase_le (by decide) n

theorem blinkAfter_ge (n : Nat) : 1000 ≤ blinkAfter n ↔ Heartbeat n := Throttle.phase_ge (by decide) n

theorem blinkAfter_succ (n : Nat) : blinkAfter (n + 1) = (if Heartbeat n then 0 else blinkAfter n) + 1 :=
  Throttle.phase_succ (by decide) n

theorem blinkAfter_toNat (n : Nat) : (UInt32.ofNat (blinkAfter n)).toNat = blinkAfter n := by
  have := blinkAfter_le n
  rw [UInt32.toNat_ofNat', Nat.mod_eq_of_lt (by omega)]

theorem heartbeat_stateAfter (n total : Nat) : (stateAfter n total).blinkMs ≥ 1000 ↔ Heartbeat n := by
  rw [ge_iff_le, UInt32.le_iff_toNat_le, stateAfter, blinkAfter_toNat]
  exact blinkAfter_ge n

theorem blinkMs_stateAfter (n total : Nat) :
    u32SaturatingAdd (if Heartbeat n then 0 else (stateAfter n total).blinkMs) 1 = UInt32.ofNat (blinkAfter (n + 1)) := by
  have hle := blinkAfter_le (n + 1)
  apply UInt32.toNat_inj.1
  rw [u32SaturatingAdd_toNat, blinkAfter_toNat]
  rw [blinkAfter_succ] at hle ⊢
  have hone : (1 : UInt32).toNat = 1 := rfl
  split_ifs at hle ⊢ with hbeat
  · rfl
  · rw [stateAfter, blinkAfter_toNat, hone]
    omega

/-- The USB port is set up in turn 300. -/
theorem init_stateAfter (n total : Nat) :
    ((stateAfter n total).usbReady = false ∧ UInt32.ofNat (blinkAfter (n + 1)) > 300 ∧
      (stateAfter n total).usbdPeriph = true) ↔ n = 300 := by
  have h300 : (300 : UInt32).toNat = 300 := rfl
  rw [gt_iff_lt, UInt32.lt_iff_toNat_lt, blinkAfter_toNat, h300]
  unfold stateAfter blinkAfter Throttle.phase
  simp only [decide_eq_false_iff_not, Bool.not_eq_true', Nat.add_eq_zero_iff]
  split_ifs <;> omega

theorem step_stateAfter (n total : Nat) (t : Turn) :
    receiver.step (stateAfter n total) t =
      (stateAfter (n + 1) (total + if t.crcOk then 1 else 0), acts n (total + if t.crcOk then 1 else 0) t) := by
  have hpackets : (if t.crcOk then (stateAfter n total).packets + 1 else (stateAfter n total).packets) =
      UInt32.ofNat (total + if t.crcOk then 1 else 0) := by
    split_ifs
    · exact (UInt32.ofNat_add ..).symm
    · rfl
  have hready : (stateAfter n total).usbReady = true ↔ 300 < n := by simp [stateAfter]
  simp only [receiver, hpackets, blinkMs_stateAfter, init_stateAfter, heartbeat_stateAfter, hready, acts]
  refine Prod.ext ?_ rfl
  show Rx.mk _ _ _ _ = Rx.mk _ _ _ _
  have hnext : (if n = 300 then true else (stateAfter n total).usbReady) = decide (300 < n + 1) := by
    rw [stateAfter]
    split_ifs with hn
    · rw [hn]; rfl
    · exact decide_eq_decide.2 (by omega)
  have hperiph : (if n = 300 then false else (stateAfter n total).usbdPeriph) = !decide (300 < n + 1) := by
    rw [← hnext]
    split_ifs <;> rfl
  rw [hnext, hperiph]

/-- The locals after a run. -/
theorem run_receiver (turns : List Turn) : (receiver.run .start turns).1 = stateAfter turns.length (good turns) := by
  induction turns using List.reverseRecOn with
  | nil => rfl
  | append_singleton turns t ih =>
    rw [Machine.run_concat, ih, step_stateAfter, List.length_append, List.length_singleton, good, good, List.countP_append,
      List.countP_singleton]

/-- Every turn of every run: a good packet is counted, modulo 2 ^ 32, and logged under its count and its own sequence
byte once the port has been up, from turn 301 on, if the port is serviced; a bad one leaves no trace. The heartbeat
and the set-up of the port come with the number of the turn alone. -/
theorem rx_turn (turns : List Turn) (t : Turn) :
    (receiver.run .start (turns ++ [t])).2 = (receiver.run .start turns).2 ++ acts turns.length (good (turns ++ [t])) t := by
  rw [Machine.run_concat, run_receiver, step_stateAfter, good, good, List.countP_append, List.countP_singleton]

/-! ## Reading the log -/

/-- The bytes of ASCII text. -/
def bytesOf (s : Str) : List UInt8 := s.map fun c => UInt8.ofNat c.toNat

theorem byte_digitChar {d : Nat} (h : d < 10) : UInt8.ofNat (Nat.digitChar d).toNat = 48 + UInt8.ofNat d := by
  interval_cases d <;> rfl

/-- A number ends in its last digit. -/
theorem bytesOf_fmtDec {n : Nat} (hpos : 0 < n) :
    bytesOf (fmtDec n) = (if n / 10 = 0 then [] else bytesOf (fmtDec (n / 10))) ++ [48 + UInt8.ofNat (n % 10)] := by
  have hten : n / 10 = 0 ↔ n < 10 := by omega
  rw [fmtDec_eq, fmtDec_eq, Nat.toDigits_eq_if (by decide), if_congr hten rfl rfl, ← byte_digitChar (Nat.mod_lt n (by decide))]
  split_ifs with hlt
  · rw [Nat.mod_eq_of_lt hlt]
    rfl
  · simp [bytesOf]

theorem drop_set {α : Type} {l : List α} {i : Nat} (h : i < l.length) (a : α) : (l.set i a).drop i = a :: l.drop (i + 1) := by
  rw [List.drop_eq_getElem_cons (by rwa [List.length_set]), List.getElem_set_self, List.drop_set_of_lt (Nat.lt_succ_self i)]

/-- The loop writes the digits of `n` in front of what the buffer holds from `i` on; below ten to the power of `i` the
buffer does not end too early. -/
theorem digitLoop_spec {i : Nat} {n : UInt32} (hlt : n.toNat < 10 ^ i) {digits : List UInt8} (hi : i ≤ digits.length) :
    (digitLoop n digits i).1.drop (digitLoop n digits i).2 =
      (if n = 0 then [] else bytesOf (fmtDec n.toNat)) ++ digits.drop i := by
  induction i generalizing n digits with
  | zero =>
    have hzero : n = 0 := UInt32.toNat_inj.1 (by simpa using hlt)
    rw [if_pos hzero]
    rfl
  | succ i ih =>
    unfold digitLoop
    by_cases hpos : n > 0
    · have hnat : 0 < n.toNat := UInt32.lt_iff_toNat_lt.1 hpos
      have hdiv : (n / 10).toNat = n.toNat / 10 := UInt32.toNat_div ..
      have hmod : (n % 10).toNat = n.toNat % 10 := UInt32.toNat_mod ..
      have hset : i ≤ (digits.set i (48 + (n % 10).toUInt8)).length := by rw [List.length_set]; omega
      have hrest := ih (n := n / 10) (by rw [hdiv]; omega) hset
      have hne : n ≠ 0 := by rintro rfl; exact absurd hnat (by decide)
      have hzero : n / 10 = 0 ↔ n.toNat / 10 = 0 := by rw [← UInt32.toNat_inj, hdiv]; rfl
      have hdigit : (n % 10).toUInt8 = UInt8.ofNat (n.toNat % 10) := by rw [← hmod]; rfl
      rw [if_pos hpos, hrest, if_neg hne, bytesOf_fmtDec hnat, drop_set hi, hdiv, if_congr hzero rfl rfl, hdigit,
        List.append_assoc]
      rfl
    · have hzero : n = 0 := by
        apply UInt32.toNat_inj.1
        have := UInt32.not_lt.1 hpos
        rw [UInt32.le_iff_toNat_le] at this
        simpa using this
      rw [if_neg hpos, if_pos hzero]
      rfl

/-- The total is written in decimal: the buffer of ten digits is large enough for it. -/
theorem totalDigits_eq (total : UInt32) : totalDigits total = bytesOf (fmtDec total.toNat) := by
  unfold totalDigits
  dsimp only
  by_cases hzero : total = 0
  · rw [if_pos hzero, hzero]
    rfl
  · have hlt := total.toNat_lt
    have hloop := digitLoop_spec (i := 10) (n := total) (by omega) (List.length_replicate (n := 10) (a := (0 : UInt8))).ge
    rw [if_neg hzero] at hloop ⊢
    exact hloop.trans (List.append_nil (bytesOf (fmtDec total.toNat)))

/-- A line of the log, as it comes out of the serial port. -/
def lineBytes (entry : UInt8 × UInt32) : List UInt8 := (logPacket entry.1 entry.2).flatten

theorem lineBytes_eq (entry : UInt8 × UInt32) (rest : List UInt8) :
    lineBytes entry ++ rest =
      ascii "rx pkt " ++ (entry.1 :: (ascii " total=" ++ (bytesOf (fmtDec entry.2.toNat) ++ 13 :: 10 :: rest))) := by
  rw [lineBytes, logPacket, totalDigits_eq]
  simp only [List.flatten_cons, List.flatten_nil, List.append_assoc, List.append_nil, List.cons_append, List.nil_append]
  rfl

theorem bytesOf_ne_return {n : Nat} {b : UInt8} (h : b ∈ bytesOf (fmtDec n)) : b ≠ 13 := by
  obtain ⟨c, hc, rfl⟩ := List.mem_map.1 h
  have hdigit := mem_fmtDec hc
  intro heq
  have := congrArg UInt8.toNat heq
  rw [UInt8.toNat_ofNat', Nat.mod_eq_of_lt (by omega)] at this
  have h13 : (13 : UInt8).toNat = 13 := rfl
  omega

theorem bytesOf_fmtDec_inj {n m : Nat} (h : bytesOf (fmtDec n) = bytesOf (fmtDec m)) : n = m := by
  have hback : ∀ k, (bytesOf (fmtDec k)).map (fun b => Char.ofNat b.toNat) = fmtDec k := by
    intro k
    rw [bytesOf, List.map_map]
    calc (fmtDec k).map _ = (fmtDec k).map id := List.map_congr_left fun c hc => ?_
      _ = fmtDec k := List.map_id _
    have hdigit := mem_fmtDec hc
    show Char.ofNat (UInt8.ofNat c.toNat).toNat = c
    rw [UInt8.toNat_ofNat', Nat.mod_eq_of_lt (by omega), Char.ofNat_toNat]
  exact fmtDec_inj (by rw [← hback n, h, hback m])

/-- The lines can be read back from the bytes, although a sequence byte can be any byte, also one that ends a line. -/
theorem flatMap_lineBytes_injective : Function.Injective (List.flatMap lineBytes) := by
  intro entries
  induction entries with
  | nil =>
    rintro (_ | ⟨entry, entries⟩) h
    · rfl
    · rw [List.flatMap_cons, lineBytes_eq] at h
      contradiction
  | cons entry entries ih =>
    rintro (_ | ⟨entry', entries'⟩) h
    · rw [List.flatMap_cons, lineBytes_eq] at h
      contradiction
    · rw [List.flatMap_cons, List.flatMap_cons, lineBytes_eq, lineBytes_eq] at h
      obtain ⟨hseq, htotal⟩ := List.cons.inj (List.append_cancel_left h)
      obtain ⟨hdigits, -, hrest⟩ := append_cons_inj (P := (· ≠ 13)) (fun b hb => bytesOf_ne_return hb)
        (fun b hb => bytesOf_ne_return hb) (by simp) (by simp) (List.append_cancel_left htotal)
      have hentry : entry = entry' := Prod.ext hseq (UInt32.toNat_inj.1 (bytesOf_fmtDec_inj hdigits))
      rw [hentry, ih (List.cons.inj hrest).2]

/-! ## The log of a run -/

/-- What the receiver writes to its serial port. -/
def written (acts : List Act) : List (List UInt8) :=
  acts.filterMap fun
    | .write bytes => some bytes
    | _ => none

theorem written_append (acts acts' : List Act) : written (acts ++ acts') = written acts ++ written acts' :=
  List.filterMap_append ..

theorem written_map (lines : List (List UInt8)) : written (lines.map .write) = lines := by
  induction lines with
  | nil => rfl
  | cons line lines ih => exact congrArg (line :: ·) ih

/-- The line of turn `n`, if it has one, when its packet is number `total`. -/
def entry (n total : Nat) (t : Turn) : List (UInt8 × UInt32) :=
  if t.crcOk = true ∧ t.polled = true ∧ 300 < n then [(t.seq, UInt32.ofNat total)] else []

/-- The lines of a run: the sequence byte of a good packet and how many good ones there have been. -/
def entries (n total : Nat) : List Turn → List (UInt8 × UInt32)
  | [] => []
  | t :: turns =>
    let total := total + if t.crcOk then 1 else 0
    entry n total t ++ entries (n + 1) total turns

theorem written_acts (n total : Nat) (t : Turn) : (written (acts n total t)).flatten = (entry n total t).flatMap lineBytes := by
  have hbeat : written (if Heartbeat n then [.blink] else []) = [] := by split_ifs <;> rfl
  have hinit : written (if n = 300 then [.usbInit] else []) = [] := by split_ifs <;> rfl
  rw [acts, written_append, written_append, hbeat, hinit, List.append_nil, List.append_nil, entry]
  by_cases hgood : t.crcOk = true
  · by_cases hlog : 300 < n ∧ t.polled = true
    · rw [if_pos hgood, if_pos hlog, if_pos ⟨hgood, hlog.2, hlog.1⟩]
      show (written ((logPacket t.seq (UInt32.ofNat total)).map .write)).flatten = _
      rw [written_map, List.flatMap_singleton]
      rfl
    · rw [if_pos hgood, if_neg hlog, if_neg fun h => hlog ⟨h.2.2, h.2.1⟩]
      rfl
  · rw [if_neg hgood, if_neg fun h => hgood h.1]
    rfl

theorem written_run (n total : Nat) (turns : List Turn) :
    (written (receiver.run (stateAfter n total) turns).2).flatten = (entries n total turns).flatMap lineBytes := by
  induction turns generalizing n total with
  | nil => rfl
  | cons t turns ih =>
    rw [Machine.run_cons, step_stateAfter, written_append, List.flatten_append, written_acts, ih, entries, List.flatMap_append]

/-- The bytes on the serial port tell the lines apart: those of two runs agree exactly when the same good packets were
logged under the same counts, although the lines have no fixed length and their sequence byte can also be the byte that
ends a line. -/
theorem serial_determines (turns turns' : List Turn) :
    (written (receiver.run .start turns).2).flatten = (written (receiver.run .start turns').2).flatten ↔
      entries 0 0 turns = entries 0 0 turns' := by
  have hstart : Rx.start = stateAfter 0 0 := rfl
  rw [hstart, written_run, written_run]
  exact flatMap_lineBytes_injective.eq_iff

end KeyboardProject.Radio
