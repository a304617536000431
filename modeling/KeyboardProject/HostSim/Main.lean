/-
The host simulator from end to end (`main` of `host-sim/src/main.rs`): the timeline, the verdicts on the sample packets,
the send loop, the warm wake, and the metrics file, which is written before the warm wake and again behind it.
-/
import KeyboardProject.HostSim.Report
import KeyboardProject.HostSim.Validation
import KeyboardProject.Lib.Csv
import KeyboardProject.Rust.Fmt
import KeyboardProject.Rust.Program
import KeyboardProject.Session.Nonce

namespace KeyboardProject.HostSim

open Rust Rust.Outcome Proto Sim

/-- The command line: what the send loop reads, and the rest. -/
structure Options where
  args : Args
  resumeCounter : Option UInt32
  metricsCsv : Option Str
  deriving DecidableEq, Repr

/-! ## The metrics file -/

/-- `{}` of a `bool`. -/
def fmtBool (b : Bool) : Str := if b then "true".toList else "false".toList

def columns : List Str :=
  ["delivered", "dropped", "latency_ms", "jitter_ms", "drop_first", "reorder", "mock_rf", "real_aead"].map String.toList

def Metrics.values (m : Metrics) : List Str :=
  [fmtDec m.delivered, fmtDec m.dropped, fmtDec m.latencyMs.toNat, fmtDec m.jitterMs.toNat, fmtBool m.dropFirst,
    fmtBool m.reorder, fmtBool m.mockRfEnabled, fmtBool m.realAead]

/-- The file as it is written first. -/
def csvWithAttempts (m : Metrics) : Str :=
  "attempts,delivered,dropped,latency_ms,jitter_ms,drop_first,reorder,mock_rf,real_aead\n".toList ++
    (Csv.line (fmtDec (m.attempts.getD 0).toNat :: m.values) ++ ['\n'])

/-- The file as it is written behind the warm wake. -/
def csv (m : Metrics) : Str :=
  "delivered,dropped,latency_ms,jitter_ms,drop_first,reorder,mock_rf,real_aead\n".toList ++ (Csv.line m.values ++ ['\n'])

def writeMetrics (canWrite : Str → Bool) (o : Options) (text : Metrics → Str) (metrics : Option Metrics) : Program Empty Unit :=
  match metrics, o.metricsCsv with
  | some m, some path => .write canWrite path (text m)
  | _, _ => pure ()

/-! ## The program -/

/-- The counter of the warm wake and its nonce. The salt is not that of the command line. -/
def warmWake (resumeCounter lastCounter : Option UInt32) : Outcome Empty (UInt32 × Arr UInt8 nonceBytes) := do
  let warmSession := SessionKeys.new 0x88776655 (fill sessionSaltBytes 0xA5)
  let warmSession ←
    match resumeCounter, lastCounter with
    | some resume, _ => pure (warmSession.resumeFrom resume)
    | none, some c => do
      let next ← u32Add c 1
      pure (warmSession.resumeFrom next)
    | none, none => pure warmSession
  let (warmCounter, warmSession) := warmSession.nextCounter
  let warmCounter ← (expect warmCounter : Outcome Empty UInt32)
  pure (warmCounter, warmSession.nonceFor warmCounter)

/-- What the program knows when it ends. -/
structure Ended where
  frames : List SimFrame
  verdicts : List (Packet × Outcome ValidationError Unit)
  deliveredFrames : List (List UInt8)
  metrics : Option Metrics
  warmCounter : UInt32
  warmNonce : Arr UInt8 nonceBytes
  deriving DecidableEq, Repr

def main [Profile] (cipher : Arr UInt8 keyBytes → Cipher) (canWrite : Str → Bool) (o : Options) : Program Empty Ended := do
  let frames ← .call (simulateWakeSequence demoConfig)
  let packets ← .call (samplePackets demoConfig)
  let validation := (validationLoop demoConfig).run none packets
  let sent ← .call (sendLoop cipher o.args packets)
  let metrics := report o.args sent
  writeMetrics canWrite o csvWithAttempts metrics
  let warm ← .call (warmWake o.resumeCounter validation.1)
  writeMetrics canWrite o csv (metrics.map fun m => { m with attempts := none })
  pure
    { frames
      verdicts := validation.2
      deliveredFrames := sent.deliveredFrames
      metrics
      warmCounter := warm.1
      warmNonce := warm.2 }

/-! ## The parts -/

def samples : List Packet := [sampleHandshake demoConfig, sampleKeyReport demoConfig 1, sampleAck demoConfig 2 1]

/-- The AEAD of the options seals the sample packets. -/
def Seals (cipher : Arr UInt8 keyBytes → Cipher) (args : Args) : Prop :=
  ∃ frames, samples.mapM (sealPacket cipher args) = .ok frames

/-- The counter that the warm wake goes on from. -/
def Options.resume (o : Options) : UInt32 := o.resumeCounter.getD 3

theorem validation_samples :
    ((validationLoop demoConfig).run none samples).1 = some 2 ∧
      ((validationLoop demoConfig).run none samples).2.map Prod.snd = [.ok (), .ok (), .ok ()] := by
  decide

/-- The warm wake has a counter below the rekey threshold, and panics from there on. -/
theorem warmWake_eq (o : Options) :
    warmWake o.resumeCounter (some 2) =
      if o.resume.toNat < 2 ^ 31 then
        .ok (max o.resume 1, deriveNonce (fill sessionSaltBytes 0xA5) (max o.resume 1))
      else .panic := by
  have hresume : ∀ n : UInt32,
      (do
        let warmSession := (SessionKeys.new 0x88776655 (fill sessionSaltBytes 0xA5)).resumeFrom n
        let warmCounter ← (expect warmSession.nextCounter.1 : Outcome Empty UInt32)
        pure (warmCounter, warmSession.nextCounter.2.nonceFor warmCounter) : Outcome Empty (UInt32 × Arr UInt8 nonceBytes)) =
      if n.toNat < 2 ^ 31 then .ok (max n 1, deriveNonce (fill sessionSaltBytes 0xA5) (max n 1)) else .panic := by
    intro n
    have hmax := Session.resumeFrom_toNat (SessionKeys.new 0x88776655 (fill sessionSaltBytes 0xA5)) n
    have hlow : max n.toNat 1 < 2 ^ 31 ↔ n.toNat < 2 ^ 31 := by omega
    dsimp only
    rw [Session.nextCounter_eq, hmax, if_congr hlow rfl rfl]
    split_ifs <;> rfl
  unfold warmWake Options.resume
  cases o.resumeCounter with
  | some resume => exact hresume resume
  | none => exact hresume 3

/-! ## Reading the metrics file -/

theorem plain_fmtDec (n : Nat) : Csv.Plain (fmtDec n) := by
  refine ⟨fun h => ?_, fun h => ?_, fun h => ?_⟩
  · exact absurd (mem_fmtDec h).1 (by decide)
  · exact absurd (mem_fmtDec h).1 (by decide)
  · exact absurd (mem_fmtDec h).1 (by decide)

theorem plain_fmtBool (b : Bool) : Csv.Plain (fmtBool b) := by cases b <;> decide

theorem plain_values (m : Metrics) : ∀ field ∈ m.values, Csv.Plain field := by
  simp only [Metrics.values, List.mem_cons, List.not_mem_nil, or_false]
  rintro field (rfl | rfl | rfl | rfl | rfl | rfl | rfl | rfl)
  all_goals first | exact plain_fmtDec _ | exact plain_fmtBool _

theorem plain_columns : ∀ field ∈ "attempts".toList :: columns, Csv.Plain field := by decide

theorem header_csv :
    "delivered,dropped,latency_ms,jitter_ms,drop_first,reorder,mock_rf,real_aead\n".toList = Csv.line columns ++ ['\n'] := by
  decide

theorem header_csvWithAttempts :
    "attempts,delivered,dropped,latency_ms,jitter_ms,drop_first,reorder,mock_rf,real_aead\n".toList =
      Csv.line ("attempts".toList :: columns) ++ ['\n'] := by
  decide

/-- A header and a row of fields read back. -/
theorem read_table {header row : List Str} (hheader : header ≠ [] ∧ ∀ field ∈ header, Csv.Plain field)
    (hrow : row ≠ [] ∧ ∀ field ∈ row, Csv.Plain field) :
    Csv.read (Csv.line header ++ ['\n'] ++ (Csv.line row ++ ['\n'])) = [header, row] := by
  have htext : Csv.line header ++ ['\n'] ++ (Csv.line row ++ ['\n']) = Csv.text [header, row] := by
    rw [Csv.text, List.flatMap_cons, List.flatMap_singleton]
  rw [htext]
  exact Csv.read_text (List.forall_mem_cons.2 ⟨hheader, List.forall_mem_singleton.2 hrow⟩)

theorem read_csv (m : Metrics) : Csv.read (csv m) = [columns, m.values] := by
  have htext : csv m = Csv.line columns ++ ['\n'] ++ (Csv.line m.values ++ ['\n']) := congrArg (· ++ _) header_csv
  refine (congrArg Csv.read htext).trans (read_table ⟨List.cons_ne_nil _ _, ?_⟩ ⟨List.cons_ne_nil _ _, plain_values m⟩)
  exact fun field h => plain_columns field (List.mem_cons_of_mem _ h)

theorem read_csvWithAttempts (m : Metrics) :
    Csv.read (csvWithAttempts m) = ["attempts".toList :: columns, fmtDec (m.attempts.getD 0).toNat :: m.values] := by
  have htext : csvWithAttempts m = Csv.line ("attempts".toList :: columns) ++ ['\n'] ++
      (Csv.line (fmtDec (m.attempts.getD 0).toNat :: m.values) ++ ['\n']) := congrArg (· ++ _) header_csvWithAttempts
  refine (congrArg Csv.read htext).trans (read_table ⟨List.cons_ne_nil _ _, plain_columns⟩ ⟨List.cons_ne_nil _ _, ?_⟩)
  exact List.forall_mem_cons.2 ⟨plain_fmtDec _, plain_values m⟩

/-- A run accounts for no more frames than there are. -/
theorem delivered_add_dropped_le (args : Args) (frames : Nat) :
    (exactReport args frames).delivered + (exactReport args frames).dropped ≤ frames := by
  have hle := (times args.config frames).countP_le_length (p := fun t => decide (t ≤ 2 * frames))
  have hlength := length_times args.config frames
  show (times args.config frames).countP _ + (if args.config.dropFirst = true ∧ 0 < frames then 1 else 0) ≤ frames
  omega

/-! ## The send loop -/

section Loop

variable {cipher : Arr UInt8 keyBytes → Cipher} {args : Args}

theorem length_of_mapM {packets : List Packet} {frames : List (List UInt8)}
    (h : packets.mapM (sealPacket cipher args) = .ok frames) : frames.length = packets.length := by
  induction packets generalizing frames with
  | nil =>
    obtain rfl := ok.inj h
    rfl
  | cons pkt packets ih =>
    rw [List.mapM_cons] at h
    obtain ⟨frame, -, h⟩ := bind_eq_ok.1 h
    obtain ⟨rest, hrest, h⟩ := bind_eq_ok.1 h
    obtain rfl := ok.inj h
    rw [List.length_cons, List.length_cons, ih hrest]

variable [Profile]

/-- A loop that ends has sealed every packet. -/
theorem seals_of_foldlM {packets : List Packet} {s s' : Sent} (h : packets.foldlM (sendPacket cipher args) s = .ok s') :
    ∃ frames, packets.mapM (sealPacket cipher args) = .ok frames := by
  induction packets generalizing s with
  | nil => exact ⟨[], rfl⟩
  | cons pkt packets ih =>
    rw [List.foldlM_cons] at h
    obtain ⟨mid, hturn, hrest⟩ := bind_eq_ok.1 h
    obtain ⟨frame, hframe, -⟩ := bind_eq_ok.1 hturn
    obtain ⟨frames, hframes⟩ := ih hrest
    exact ⟨frame :: frames, by rw [List.mapM_cons, hframe, ok_bind, hframes]; rfl⟩

/-- Without the channel the loop only seals. -/
theorem sendLoop_without_rf (hmock : args.mockRf = false) {packets : List Packet} {frames : List (List UInt8)}
    (hseal : packets.mapM (sealPacket cipher args) = .ok frames) :
    sendLoop cipher args packets = .ok { deliveredFrames := [], rf := none } := by
  have hrf : args.rf = none := by rw [Args.rf, hmock]; rfl
  rw [sendLoop, hrf]
  induction packets generalizing frames with
  | nil => rfl
  | cons pkt packets ih =>
    rw [List.mapM_cons] at hseal
    obtain ⟨frame, hframe, hseal⟩ := bind_eq_ok.1 hseal
    obtain ⟨rest, hrest, -⟩ := bind_eq_ok.1 hseal
    rw [List.foldlM_cons, sendPacket, hframe, ok_bind]
    exact ih hrest

/-- The send loop of the sample packets ends when they are sealed and no time overflows where that is checked. -/
theorem sendLoop_samples (hseal : Seals cipher args) (hfits : args.mockRf = true → Fits args.config 3) :
    ∃ s, sendLoop cipher args samples = .ok s ∧ report args s = if args.mockRf then some (exactReport args 3) else none := by
  obtain ⟨frames, hframes⟩ := hseal
  have hlen : frames.length = 3 := length_of_mapM hframes
  by_cases hmock : args.mockRf = true
  · rw [if_pos hmock, ← hlen]
    exact sendLoop_of_fits hmock hframes (by omega) (by rw [hlen]; exact hfits hmock)
  · rw [if_neg hmock]
    exact ⟨_, sendLoop_without_rf (Bool.eq_false_iff.2 hmock) hframes, rfl⟩

theorem fits_of_sendLoop_samples {s : Sent} (h : sendLoop cipher args samples = .ok s) :
    Seals cipher args ∧ (args.mockRf = true → Fits args.config 3) := by
  obtain ⟨frames, hframes⟩ := seals_of_foldlM h
  have hlen : frames.length = 3 := length_of_mapM hframes
  refine ⟨⟨frames, hframes⟩, fun hmock => ?_⟩
  by_contra hfits
  rw [sendLoop_panics hmock hframes (by omega) (by rwa [hlen])] at h
  contradiction

end Loop

/-! ## From end to end -/

section Main

variable {cipher : Arr UInt8 keyBytes → Cipher} {canWrite : Str → Bool} {o : Options} {disk : Disk}

theorem writeMetrics_eq_ok {text : Metrics → Str} {m : Option Metrics} {u : Unit} :
    (writeMetrics canWrite o text m disk).2 = .ok u ↔ (m.isSome = true → ∀ path ∈ o.metricsCsv, canWrite path = true) := by
  unfold writeMetrics
  cases m with
  | none => exact iff_of_true rfl (by simp)
  | some m =>
    cases hpath : o.metricsCsv with
    | none => exact iff_of_true rfl (by simp)
    | some path =>
      dsimp only
      rw [Program.write_eq_ok]
      simp

variable [Profile]

/-- The program behind its send loop. -/
theorem main_of_sendLoop {s : Sent} (h : sendLoop cipher o.args samples = .ok s) :
    main cipher canWrite o =
      writeMetrics canWrite o csvWithAttempts (report o.args s) >>= fun _ =>
        .call (warmWake o.resumeCounter (some 2)) >>= fun warm =>
          writeMetrics canWrite o csv ((report o.args s).map fun m => { m with attempts := none }) >>= fun _ =>
            pure
              { frames := demoFrames
                verdicts := ((validationLoop demoConfig).run none samples).2
                deliveredFrames := s.deliveredFrames
                metrics := report o.args s
                warmCounter := warm.1
                warmNonce := warm.2 } := by
  funext disk
  have hframes : (Program.call (simulateWakeSequence demoConfig) : Program Empty (List SimFrame)) disk =
      (disk, .ok demoFrames) := by
    rw [Program.call_apply, simulateWakeSequence_demo]
  have hpackets : (Program.call (samplePackets demoConfig) : Program Empty (List Packet)) disk = (disk, .ok samples) := by
    rw [Program.call_apply, samplePackets_eq]
    rfl
  have hsent : (Program.call (sendLoop cipher o.args samples) : Program Empty Sent) disk = (disk, .ok s) := by
    rw [Program.call_apply, h]
  rw [main, Program.bind_ok hframes, Program.bind_ok hpackets]
  dsimp only
  rw [Program.bind_ok hsent, validation_samples.1]

theorem sendLoop_of_main {e : Ended} (h : (main cipher canWrite o disk).2 = .ok e) :
    ∃ s, sendLoop cipher o.args samples = .ok s := by
  obtain ⟨frames, -, h⟩ := Program.bind_eq_ok.1 h
  obtain ⟨packets, hpackets, h⟩ := Program.bind_eq_ok.1 h
  rw [Program.call_apply, samplePackets_eq] at hpackets
  obtain rfl := ok.inj hpackets
  obtain ⟨s, hsent, -⟩ := Program.bind_eq_ok.1 h
  exact ⟨s, hsent⟩

/-- How the program ends behind its send loop. -/
theorem main_eq_ok {s : Sent} (h : sendLoop cipher o.args samples = .ok s) {e : Ended} :
    (main cipher canWrite o disk).2 = .ok e ↔
      ((report o.args s).isSome = true → ∀ path ∈ o.metricsCsv, canWrite path = true) ∧ o.resume.toNat < 2 ^ 31 ∧
        e =
          { frames := demoFrames
            verdicts := ((validationLoop demoConfig).run none samples).2
            deliveredFrames := s.deliveredFrames
            metrics := report o.args s
            warmCounter := max o.resume 1
            warmNonce := deriveNonce (fill sessionSaltBytes 0xA5) (max o.resume 1) } := by
  rw [main_of_sendLoop h, Program.bind_eq_ok]
  constructor
  · rintro ⟨u, hfirst, hrest⟩
    obtain ⟨warm, hwarm, hrest⟩ := Program.bind_eq_ok.1 hrest
    obtain ⟨u', -, hend⟩ := Program.bind_eq_ok.1 hrest
    rw [Program.call_apply, warmWake_eq] at hwarm
    split_ifs at hwarm with hlow
    obtain rfl := ok.inj hwarm
    exact ⟨writeMetrics_eq_ok.1 hfirst, hlow, (ok.inj hend).symm⟩
  · rintro ⟨hwrite, hlow, rfl⟩
    refine ⟨(), writeMetrics_eq_ok.2 hwrite, Program.bind_eq_ok.2
      ⟨(max o.resume 1, deriveNonce (fill sessionSaltBytes 0xA5) (max o.resume 1)), ?_, Program.bind_eq_ok.2 ⟨(), ?_, rfl⟩⟩⟩
    · rw [Program.call_apply, warmWake_eq, if_pos hlow]
    · refine writeMetrics_eq_ok.2 fun hsome => hwrite ?_
      rwa [Option.isSome_map] at hsome

/-- The program ends normally exactly when the AEAD seals the sample packets, the channel has no overflow to panic on, the
metrics file can be written, and the counter to go on from is below the rekey threshold. It has then found all three
packets ok, and its warm wake has that counter, or 1 for 0, and the nonce of the built-in salt. -/
theorem main_ends_iff (cipher : Arr UInt8 keyBytes → Cipher) (canWrite : Str → Bool) (o : Options) (disk : Disk) :
    ((∃ e, (main cipher canWrite o disk).2 = .ok e) ↔
      Seals cipher o.args ∧
        (o.args.mockRf = true → Fits o.args.config 3 ∧ ∀ path ∈ o.metricsCsv, canWrite path = true) ∧
        o.resume.toNat < 2 ^ 31) ∧
      ∀ e, (main cipher canWrite o disk).2 = .ok e →
        e.verdicts.map Prod.snd = [.ok (), .ok (), .ok ()] ∧
          e.metrics = (if o.args.mockRf then some (exactReport o.args 3) else none) ∧
          e.warmCounter = max o.resume 1 ∧ e.warmNonce = deriveNonce (fill sessionSaltBytes 0xA5) (max o.resume 1) := by
  refine ⟨⟨?_, ?_⟩, ?_⟩
  · rintro ⟨e, he⟩
    obtain ⟨s, hloop⟩ := sendLoop_of_main he
    obtain ⟨hseal, hfits⟩ := fits_of_sendLoop_samples hloop
    obtain ⟨s', hloop', hreport⟩ := sendLoop_samples hseal hfits
    obtain rfl := ok.inj (hloop.symm.trans hloop')
    obtain ⟨hwrite, hlow, -⟩ := (main_eq_ok hloop).1 he
    refine ⟨hseal, fun hmock => ⟨hfits hmock, hwrite ?_⟩, hlow⟩
    rw [hreport, if_pos hmock]
    rfl
  · rintro ⟨hseal, hmock, hlow⟩
    obtain ⟨s, hloop, hreport⟩ := sendLoop_samples hseal fun h => (hmock h).1
    refine ⟨_, (main_eq_ok hloop).2 ⟨fun hsome => ?_, hlow, rfl⟩⟩
    rw [hreport] at hsome
    split_ifs at hsome with h
    · exact (hmock h).2
    · contradiction
  · intro e he
    obtain ⟨s, hloop⟩ := sendLoop_of_main he
    obtain ⟨hseal, hfits⟩ := fits_of_sendLoop_samples hloop
    obtain ⟨s', hloop', hreport⟩ := sendLoop_samples hseal hfits
    obtain rfl := ok.inj (hloop.symm.trans hloop')
    obtain ⟨-, -, rfl⟩ := (main_eq_ok hloop).1 he
    exact ⟨validation_samples.2, hreport, rfl, rfl⟩

/-- The files behind a program on the channel. -/
theorem main_disk {s : Sent} {m : Metrics} {path : Str} (h : sendLoop cipher o.args samples = .ok s)
    (hreport : report o.args s = some m) (hpath : o.metricsCsv = some path) (hwrite : canWrite path = true) :
    (main cipher canWrite o disk).1 =
      Function.update disk path
        (some (if o.resume.toNat < 2 ^ 31 then csv { m with attempts := none } else csvWithAttempts m)) := by
  have hwrites : ∀ (text : Metrics → Str) (m : Metrics) (disk : Disk), writeMetrics canWrite o text (some m) disk =
      (Function.update disk path (some (text m)), .ok ()) := by
    intro text m disk
    unfold writeMetrics
    rw [hpath]
    exact Program.write_ok hwrite
  rw [main_of_sendLoop h, hreport, Program.bind_ok (hwrites _ m disk), warmWake_eq]
  split_ifs with hlow
  · rw [Program.bind_ok (Program.call_apply _ _), Option.map_some, Program.bind_ok (hwrites _ _ _)]
    exact Function.update_idem ..
  · rw [Program.bind_panic (Program.call_apply _ _)]

/-- The metrics file of a run on the channel, whatever was in it before: with the attempts in it where the warm wake
panicked, without them where the program ended, and in both cases a table that reads back to the exact report. No
other file has changed. -/
theorem main_csv {path : Str} (hmock : o.args.mockRf = true) (hseal : Seals cipher o.args) (hfits : Fits o.args.config 3)
    (hpath : o.metricsCsv = some path) (hwrite : canWrite path = true) (disk : Disk) :
    ∃ text, (main cipher canWrite o disk).1 = Function.update disk path (some text) ∧
      Csv.read text =
        if o.resume.toNat < 2 ^ 31 then [columns, (exactReport o.args 3).values]
        else
          ["attempts".toList :: columns,
            fmtDec ((exactReport o.args 3).delivered + (exactReport o.args 3).dropped) :: (exactReport o.args 3).values] := by
  obtain ⟨s, hloop, hreport⟩ := sendLoop_samples hseal fun _ => hfits
  rw [if_pos hmock] at hreport
  refine ⟨_, main_disk hloop hreport hpath hwrite, ?_⟩
  split_ifs
  · exact read_csv _
  · have hle := delivered_add_dropped_le o.args 3
    have hattempts : (exactReport o.args 3).attempts.getD 0 =
        UInt32.ofNat ((exactReport o.args 3).delivered + (exactReport o.args 3).dropped) := rfl
    rw [read_csvWithAttempts, hattempts, UInt32.toNat_ofNat', Nat.mod_eq_of_lt (by omega)]

end Main

/-- The default options on the channel, a counter to go on from, and a file to write. -/
def warmOptions (resumeCounter : UInt32) : Options where
  args := mockRfArgs 2
  resumeCounter := some resumeCounter
  metricsCsv := some "rf.csv".toList

theorem seals_sample (jitterMs : UInt64) : Seals noCipher (mockRfArgs jitterMs) :=
  let ⟨_, _, _, h⟩ := sampleFrames jitterMs
  ⟨_, h⟩

theorem main_csv_sample :
    ∃ text, (@main devProfile noCipher (fun _ => true) (warmOptions 0x80000000) fun _ => none).1 =
        Function.update (fun _ => none) "rf.csv".toList (some text) ∧
      Csv.read text =
        ["attempts".toList :: columns, fmtDec 3 :: (exactReport (mockRfArgs 2) 3).values] := by
  have hfits : @Fits devProfile (mockRfArgs 2).config 3 := by
    intro i hi _ _
    have htwo : (mockRfArgs 2).config.jitterMs.toNat = 2 := rfl
    omega
  exact @main_csv _ _ (warmOptions 0x80000000) devProfile _ rfl (seals_sample 2) hfits rfl rfl fun _ => none

end KeyboardProject.HostSim
