/-
The RTT log of the debugger firmware. A reader that knows the boot reading can follow the inputs, the error and the
latch from the lines alone, since every change is a line and every line says enough.
-/
import KeyboardProject.Debugger.Main
import KeyboardProject.Rust.Fmt

namespace KeyboardProject.Debugger

open Rust Numeral

/-! ## The lines -/

/-- What `rprintln!` gets in the loop of `main`. -/
inductive Line where
  | tick
  | rx (before after : Bool) (nowMs : UInt32)
  | tx (before after : Bool) (nowMs : UInt32)
  | err (before after nowMs : UInt32)
  | latch (code nowMs : UInt32)
  | latchLive (nowMs : UInt32)
  | clearedByInput (code setMs : UInt32)
  | autoCleared (code : UInt32)
  deriving DecidableEq, Repr

def errReason (code : UInt32) : Str :=
  if code = 0x01 then "RX low".toList
  else if code = 0x02 then "TX low".toList
  else if code = 0x03 then "RX+TX low".toList
  else "ok".toList

def okFail (ok : Bool) : Str := if ok then "OK".toList else "FAIL".toList

/-- ` @ {}ms`. -/
def stamp (nowMs : UInt32) : Str := " @ ".toList ++ (fmtDec nowMs.toNat ++ "ms".toList)

def Line.text : Line → Str
  | .tick => "tick".toList
  | .rx before after nowMs => "[RX] ".toList ++ (okFail before ++ (" -> ".toList ++ (okFail after ++ stamp nowMs)))
  | .tx before after nowMs => "[TX] ".toList ++ (okFail before ++ (" -> ".toList ++ (okFail after ++ stamp nowMs)))
  | .err before after nowMs =>
    "[ERR] 0x".toList ++ (fmtHex 2 before.toNat ++ (" -> 0x".toList ++ (fmtHex 2 after.toNat ++
      (" (".toList ++ (errReason after ++ (")".toList ++ stamp nowMs))))))
  | .latch code nowMs => "[LATCH] ERR=0x".toList ++ (fmtHex 2 code.toNat ++ stamp nowMs)
  | .latchLive nowMs => "[LATCH] cleared (live)".toList ++ stamp nowMs
  | .clearedByInput code setMs =>
    "ERR latch cleared by input (code=0x".toList ++ (fmtHex 2 code.toNat ++ (", set @ ".toList ++
      (fmtDec setMs.toNat ++ "ms)".toList)))
  | .autoCleared code =>
    "ERR latch auto-cleared after ".toList ++ (fmtDec latchAutoClearMs.toNat ++ ("ms (code=0x".toList ++
      (fmtHex 2 code.toNat ++ ")".toList)))

/-- The line of an input that has a new stable value; `c` is the channel after its sample was taken. -/
def Channel.line (c : Channel) (line : Bool → Bool → UInt32 → Line) (nowMs : UInt32) : List Line :=
  if c.sampleCount ≥ stableSamples ∧ c.sample ≠ c.last then [line c.last c.sample nowMs] else []

/-- The lines about the error code. -/
def errLines (lastErr acceptedErr nowMs : UInt32) : List Line :=
  if acceptedErr ≠ lastErr then
    [.err lastErr acceptedErr nowMs, if acceptedErr ≠ 0 then .latch acceptedErr nowMs else .latchLive nowMs]
  else []

/-- The line about a latch that is given up. -/
def clearLines (latchClear : Bool) (nowMs : UInt32) (stickyErr : Option (UInt32 × UInt32)) : List Line :=
  match stickyErr with
  | some (code, ts) =>
    if latchClear then [.clearedByInput code ts]
    else if nowMs - ts ≥ latchAutoClearMs then [.autoCleared code]
    else []
  | none => []

/-- What one pass of the loop prints behind its `tick`. -/
def Monitor.lines (m : Monitor) (r : Reading) : List Line :=
  let acceptedErr := interpretErr (m.rx.poll r.rxOk).last (m.tx.poll r.txOk).last
  (m.rx.debounce r.rxOk).line .rx r.nowMs ++ (m.tx.debounce r.txOk).line .tx r.nowMs ++
    errLines m.lastErr acceptedErr r.nowMs ++
    clearLines (r.clearD4 || r.clearButton) r.nowMs (setLatch m.lastErr acceptedErr r.nowMs m.stickyErr)

/-- The locals of `main` with `tick_count`. -/
structure Logger where
  monitor : Monitor
  tickCount : UInt32
  deriving DecidableEq, Repr

/-- The loop of `main` with its log. -/
def logger : Machine Logger Poll Line where
  step s p :=
    ({ monitor := (s.monitor.poll p.reading).1, tickCount := s.tickCount + 1 },
      (if s.tickCount % 200 = 0 then [.tick] else []) ++ s.monitor.lines p.reading)

/-! ## Following the log -/

/-- What a reader of the log keeps. -/
structure Known where
  rx : Bool
  tx : Bool
  err : UInt32
  latch : Option (UInt32 × UInt32)
  deriving DecidableEq, Repr

def Monitor.known (m : Monitor) : Known := { rx := m.rx.last, tx := m.tx.last, err := m.lastErr, latch := m.stickyErr }

/-- The reader takes a line, unless it contradicts what the lines before it have said. -/
def Known.read (k : Known) : Line → Option Known
  | .tick => some k
  | .rx before after _ => if before = k.rx ∧ after ≠ before then some { k with rx := after } else none
  | .tx before after _ => if before = k.tx ∧ after ≠ before then some { k with tx := after } else none
  | .err before after _ =>
    if before = k.err ∧ after ≠ before ∧ after = interpretErr k.rx k.tx then some { k with err := after } else none
  | .latch code nowMs => if code = k.err ∧ code ≠ 0 then some { k with latch := some (code, nowMs) } else none
  -- the latch outlives the error
  | .latchLive _ => if k.err = 0 then some k else none
  | .clearedByInput code setMs => if k.latch = some (code, setMs) then some { k with latch := none } else none
  | .autoCleared code => if k.latch.map Prod.fst = some code then some { k with latch := none } else none

theorem read_channel_rx (k : Known) (c : Channel) (nowMs : UInt32) (h : c.last = k.rx) :
    (c.line .rx nowMs).foldlM Known.read k = some { k with rx := c.accept.last } := by
  unfold Channel.line Channel.accept
  split_ifs with hchange
  · simp [Known.read, h.symm, hchange.2]
  · simp [h]

theorem read_channel_tx (k : Known) (c : Channel) (nowMs : UInt32) (h : c.last = k.tx) :
    (c.line .tx nowMs).foldlM Known.read k = some { k with tx := c.accept.last } := by
  unfold Channel.line Channel.accept
  split_ifs with hchange
  · simp [Known.read, h.symm, hchange.2]
  · simp [h]

theorem read_errLines (k : Known) (nowMs : UInt32) :
    (errLines k.err (interpretErr k.rx k.tx) nowMs).foldlM Known.read k =
      some { k with err := interpretErr k.rx k.tx, latch := setLatch k.err (interpretErr k.rx k.tx) nowMs k.latch } := by
  unfold errLines setLatch
  by_cases hchange : interpretErr k.rx k.tx ≠ k.err
  · by_cases hfault : interpretErr k.rx k.tx ≠ 0
    · simp [Known.read, hchange, hfault]
    · rw [not_not] at hfault
      rw [hfault] at hchange
      simp [Known.read, hfault, hchange]
  · rw [not_not] at hchange
    simp [hchange]

theorem read_clearLines (k : Known) (latchClear : Bool) (nowMs : UInt32) :
    (clearLines latchClear nowMs k.latch).foldlM Known.read k = some { k with latch := clearLatch latchClear nowMs k.latch } := by
  unfold clearLines clearLatch
  obtain ⟨rx, tx, err, latch⟩ := k
  cases latch with
  | none => cases latchClear <;> rfl
  | some sticky =>
    obtain ⟨code, ts⟩ := sticky
    cases latchClear with
    | true => simp [Known.read]
    | false =>
      dsimp only
      split_ifs <;> simp_all [Known.read]

theorem debounce_last (c : Channel) (ok : Bool) : (c.debounce ok).last = c.last := by
  unfold Channel.debounce; split_ifs <;> rfl

theorem read_append {k k' k'' : Known} {lines lines' : List Line} (h : lines.foldlM Known.read k = some k')
    (h' : lines'.foldlM Known.read k' = some k'') : (lines ++ lines').foldlM Known.read k = some k'' := by
  rw [List.foldlM_append, h]
  exact h'

/-- The lines of one pass take the reader from the state before it to the state after it. -/
theorem read_lines (m : Monitor) (r : Reading) : (m.lines r).foldlM Known.read m.known = some (m.poll r).1.known := by
  have hknown : (m.poll r).1.known =
      { rx := (m.rx.poll r.rxOk).last, tx := (m.tx.poll r.txOk).last, err := (m.poll r).2.acceptedErr,
        latch :=
          clearLatch (r.clearD4 || r.clearButton) r.nowMs
            (setLatch m.lastErr (m.poll r).2.acceptedErr r.nowMs m.stickyErr) } := by
    rw [Monitor.known, poll_rx, poll_tx, poll_lastErr, poll_stickyErr]
    rfl
  rw [hknown]
  have hrx := read_channel_rx m.known (m.rx.debounce r.rxOk) r.nowMs (debounce_last ..)
  have htx := read_channel_tx { m.known with rx := (m.rx.poll r.rxOk).last } (m.tx.debounce r.txOk) r.nowMs (debounce_last ..)
  have herr := read_errLines
    { rx := (m.rx.poll r.rxOk).last, tx := (m.tx.poll r.txOk).last, err := m.lastErr, latch := m.stickyErr } r.nowMs
  have hclear := read_clearLines
    { rx := (m.rx.poll r.rxOk).last, tx := (m.tx.poll r.txOk).last, err := (m.poll r).2.acceptedErr,
      latch := setLatch m.lastErr (m.poll r).2.acceptedErr r.nowMs m.stickyErr } (r.clearD4 || r.clearButton) r.nowMs
  exact read_append (read_append (read_append hrx htx) herr) hclear

theorem run_read (s : Logger) (polls : List Poll) :
    (logger.run s polls).2.foldlM Known.read s.monitor.known = some (logger.run s polls).1.monitor.known := by
  refine @Machine.run_foldlM _ _ _ logger _ Known.read (fun s => s.monitor.known) (fun s p => ?_) s polls
  refine read_append ?_ (read_lines s.monitor p.reading)
  split_ifs <;> rfl

/-! ## The text -/

theorem okFail_append_inj {a b : Bool} {r s : Str} (h : okFail a ++ r = okFail b ++ s) : a = b ∧ r = s := by
  cases a <;> cases b <;> simp_all [okFail]

theorem stops_stamp (nowMs : UInt32) : Stops 16 (stamp nowMs) := ⟨' ', rfl, by decide⟩

theorem stamp_injective : Function.Injective stamp := by
  intro t t' h
  have hstops : Stops 10 "ms".toList := ⟨'m', rfl, by decide⟩
  exact UInt32.toNat_inj.1 (fmtDec_append_inj hstops hstops (List.append_cancel_left h)).1

/-- Which line a text is. -/
def Line.kind : Line → Nat
  | .tick => 0
  | .rx .. => 1
  | .tx .. => 2
  | .err .. => 3
  | .latch .. => 4
  | .latchLive .. => 5
  | .clearedByInput .. => 6
  | .autoCleared .. => 7

/-- The kind, told from four characters. -/
def kindOf (text : Str) : Nat :=
  if text[0]? = some 't' then 0
  else if text[0]? = some 'E' then
    if text[10]? = some 'c' then 6 else 7
  else if text[1]? = some 'R' then 1
  else if text[1]? = some 'T' then 2
  else if text[1]? = some 'E' then 3
  else if text[8]? = some 'E' then 4
  else 5

theorem kindOf_text (line : Line) : kindOf line.text = line.kind := by cases line <;> rfl

/-- The part of a line about an input. -/
theorem change_inj {b a b' a' : Bool} {t t' : UInt32}
    (h : okFail b ++ (" -> ".toList ++ (okFail a ++ stamp t)) = okFail b' ++ (" -> ".toList ++ (okFail a' ++ stamp t'))) :
    b = b' ∧ a = a' ∧ t = t' := by
  obtain ⟨rfl, hafter⟩ := okFail_append_inj h
  obtain ⟨rfl, hstamp⟩ := okFail_append_inj (List.append_cancel_left hafter)
  exact ⟨rfl, rfl, stamp_injective hstamp⟩

/-- No two lines print alike. -/
theorem text_injective : Function.Injective Line.text := by
  intro line line' h
  have hkind : line.kind = line'.kind := by rw [← kindOf_text, h, kindOf_text]
  cases line <;> cases line' <;> first | (simp [Line.kind] at hkind; done) | skip
  case tick.tick => rfl
  case rx.rx =>
    obtain ⟨rfl, rfl, rfl⟩ := change_inj (List.append_cancel_left h)
    rfl
  case tx.tx =>
    obtain ⟨rfl, rfl, rfl⟩ := change_inj (List.append_cancel_left h)
    rfl
  case err.err before after nowMs before' after' nowMs' =>
    have hstops : ∀ rest : Str, Stops 16 (" -> 0x".toList ++ rest) := fun _ => ⟨' ', rfl, by decide⟩
    have hstops' : ∀ rest : Str, Stops 16 (" (".toList ++ rest) := fun _ => ⟨' ', rfl, by decide⟩
    obtain ⟨hbefore, hrest⟩ := fmtHex_append_inj (hstops _) (hstops _) (List.append_cancel_left h)
    obtain ⟨hafter, hreason⟩ := fmtHex_append_inj (hstops' _) (hstops' _) (List.append_cancel_left hrest)
    obtain rfl := UInt32.toNat_inj.1 hbefore
    obtain rfl := UInt32.toNat_inj.1 hafter
    have hstamp := List.append_cancel_left (List.append_cancel_left (List.append_cancel_left hreason))
    rw [stamp_injective hstamp]
  case latch.latch =>
    obtain ⟨hcode, hstamp⟩ := fmtHex_append_inj (stops_stamp _) (stops_stamp _) (List.append_cancel_left h)
    rw [UInt32.toNat_inj.1 hcode, stamp_injective hstamp]
  case latchLive.latchLive => rw [stamp_injective (List.append_cancel_left h)]
  case clearedByInput.clearedByInput =>
    have hstops : ∀ rest : Str, Stops 16 (", set @ ".toList ++ rest) := fun _ => ⟨',', rfl, by decide⟩
    have hstops' : Stops 10 "ms)".toList := ⟨'m', rfl, by decide⟩
    obtain ⟨hcode, hrest⟩ := fmtHex_append_inj (hstops _) (hstops _) (List.append_cancel_left h)
    obtain ⟨hset, -⟩ := fmtDec_append_inj hstops' hstops' (List.append_cancel_left hrest)
    rw [UInt32.toNat_inj.1 hcode, UInt32.toNat_inj.1 hset]
  case autoCleared.autoCleared =>
    have hstops : Stops 16 ")".toList := ⟨')', rfl, by decide⟩
    have hcode := List.append_cancel_left (List.append_cancel_left (List.append_cancel_left h))
    rw [UInt32.toNat_inj.1 (fmtHex_append_inj hstops hstops hcode).1]

/-- The reader follows the log of every run, and no line contradicts those before it. Two runs with the same boot
reading and the same text of their logs so end with the same inputs, error and latch, whatever they read and when. -/
theorem log_determines (lcdOk rxOk txOk : Bool) (tickCount : UInt32) (polls : List Poll) :
    (logger.run { monitor := boot lcdOk rxOk txOk, tickCount } polls).2.foldlM Known.read (boot lcdOk rxOk txOk).known =
        some (logger.run { monitor := boot lcdOk rxOk txOk, tickCount } polls).1.monitor.known ∧
      ∀ (lcdOk' : Bool) (tickCount' : UInt32) (polls' : List Poll),
        (logger.run { monitor := boot lcdOk rxOk txOk, tickCount } polls).2.map Line.text =
          (logger.run { monitor := boot lcdOk' rxOk txOk, tickCount := tickCount' } polls').2.map Line.text →
        (logger.run { monitor := boot lcdOk rxOk txOk, tickCount } polls).1.monitor.known =
          (logger.run { monitor := boot lcdOk' rxOk txOk, tickCount := tickCount' } polls').1.monitor.known := by
  have hread := run_read { monitor := boot lcdOk rxOk txOk, tickCount } polls
  refine ⟨hread, fun lcdOk' tickCount' polls' h => ?_⟩
  have hlines := List.map_injective_iff.2 text_injective h
  have hread' := run_read { monitor := boot lcdOk' rxOk txOk, tickCount := tickCount' } polls'
  rw [← hlines] at hread'
  exact Option.some.inj (hread.symm.trans hread')

end KeyboardProject.Debugger
