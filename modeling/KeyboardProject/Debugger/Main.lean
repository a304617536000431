/-
The debugger firmware's poll loop (`firmware/debugger/src/main.rs`) and the LCD it draws on
(`firmware/debugger/c/display.c`): two debounced inputs, a latched error code that is cleared by input
or after five seconds, and two caches in front of the LCD. The log lines are left out.
-/
import KeyboardProject.Lib.Machine

namespace KeyboardProject.Debugger

def stableSamples : UInt8 := 3
def latchAutoClearMs : UInt32 := 5000

def interpretErr (rxOk txOk : Bool) : UInt32 :=
  match rxOk, txOk with
  | true, true => 0x00
  | false, true => 0x01
  | true, false => 0x02
  | false, false => 0x03

/-! ## The LCD -/

/-- The statics of `display.c`, and the arguments of the last `draw_status`. -/
structure Display where
  lcdReady : Bool
  lastRx : Bool
  lastTx : Bool
  lastErr : UInt32
  drawn : Option (Bool × Bool × UInt32)
  deriving DecidableEq, Repr

/-- The statics before `display_init`. -/
def Display.initial : Display := { lcdReady := false, lastRx := false, lastTx := false, lastErr := 0xffffffff, drawn := none }

/-- `display_init`; `lcdOk` is whether `BSP_LCD_Init` returned `LCD_OK`. -/
def Display.init (d : Display) (lcdOk : Bool) : Display := if lcdOk then { d with lcdReady := true } else d

/-- `display_update`. -/
def Display.update (d : Display) (rxOk txOk : Bool) (errCode : UInt32) : Display :=
  if !d.lcdReady then d
  else if rxOk = d.lastRx ∧ txOk = d.lastTx ∧ errCode = d.lastErr then d
  else { d with lastRx := rxOk, lastTx := txOk, lastErr := errCode, drawn := some (rxOk, txOk, errCode) }

/-! ## The loop's locals -/

/-- The locals of one input: `rx_sample`, `rx_sample_count`, `last_rx`, and the same for `tx`. -/
structure Channel where
  sample : Bool
  sampleCount : UInt8
  last : Bool
  deriving DecidableEq, Repr

/-- The boot reading counts as stable. -/
def Channel.boot (ok : Bool) : Channel := { sample := ok, sampleCount := stableSamples, last := ok }

/-- The count of equal samples, up to `STABLE_SAMPLES`. -/
def Channel.debounce (c : Channel) (ok : Bool) : Channel :=
  if ok = c.sample then
    if c.sampleCount < stableSamples then { c with sampleCount := c.sampleCount + 1 } else c
  else { c with sample := ok, sampleCount := 1 }

/-- `last_rx` after the accepted value was computed; the two are always equal. -/
def Channel.accept (c : Channel) : Channel :=
  if c.sampleCount ≥ stableSamples ∧ c.sample ≠ c.last then { c with last := c.sample } else c

def Channel.poll (c : Channel) (ok : Bool) : Channel := (c.debounce ok).accept

/-- What one pass of the loop reads: the tick, the two inputs, and the two ways to clear the latch. -/
structure Reading where
  nowMs : UInt32
  rxOk : Bool
  txOk : Bool
  clearD4 : Bool
  clearButton : Bool
  deriving DecidableEq, Repr

/-- The locals of `main` and the LCD. -/
structure Monitor where
  rx : Channel
  tx : Channel
  lastErr : UInt32
  shownRx : Bool
  shownTx : Bool
  shownErr : UInt32
  stickyErr : Option (UInt32 × UInt32)
  display : Display
  deriving DecidableEq, Repr

/-- What one pass of the loop computes. -/
structure Status where
  acceptedRx : Bool
  acceptedTx : Bool
  acceptedErr : UInt32
  latchClear : Bool
  displayErr : UInt32
  deriving DecidableEq, Repr

/-- The state before the loop: the first reading is drawn at once, and an error in it is latched at
tick 0. -/
def boot (lcdOk rxOk txOk : Bool) : Monitor where
  rx := .boot rxOk
  tx := .boot txOk
  lastErr := interpretErr rxOk txOk
  shownRx := rxOk
  shownTx := txOk
  shownErr := interpretErr rxOk txOk
  stickyErr := if interpretErr rxOk txOk ≠ 0 then some (interpretErr rxOk txOk, 0) else none
  display := (Display.initial.init lcdOk).update rxOk txOk (interpretErr rxOk txOk)

/-! ## One pass of the loop -/

/-- `sticky_err` after the error code was recomputed. -/
def setLatch (lastErr acceptedErr nowMs : UInt32) (stickyErr : Option (UInt32 × UInt32)) : Option (UInt32 × UInt32) :=
  if acceptedErr ≠ lastErr then
    if acceptedErr ≠ 0 then some (acceptedErr, nowMs) else stickyErr
  else stickyErr

/-- `sticky_err` after the clear inputs and the age of the latch were looked at. -/
def clearLatch (latchClear : Bool) (nowMs : UInt32) (stickyErr : Option (UInt32 × UInt32)) : Option (UInt32 × UInt32) :=
  if latchClear then none
  else
    match stickyErr with
    | some (code, ts) => if nowMs - ts ≥ latchAutoClearMs then none else some (code, ts)
    | none => none

/-- The end of a pass: `display_update` is called only when something changed. -/
def Monitor.redraw (m : Monitor) (displayRx displayTx : Bool) (displayErr : UInt32) : Monitor :=
  if displayErr ≠ m.shownErr ∨ displayRx ≠ m.shownRx ∨ displayTx ≠ m.shownTx then
    { m with
      display := m.display.update displayRx displayTx displayErr
      shownErr := displayErr
      shownRx := displayRx
      shownTx := displayTx }
  else m

/-- One pass of the loop of `main`. -/
def Monitor.poll (m : Monitor) (r : Reading) : Monitor × Status :=
  let rx := m.rx.poll r.rxOk
  let tx := m.tx.poll r.txOk
  let acceptedErr := interpretErr rx.last tx.last
  let latchClear := r.clearD4 || r.clearButton
  let stickyErr := clearLatch latchClear r.nowMs (setLatch m.lastErr acceptedErr r.nowMs m.stickyErr)
  let displayErr := (stickyErr.map fun sticky => sticky.1).getD acceptedErr
  let next := Monitor.redraw { m with rx, tx, lastErr := acceptedErr, stickyErr } rx.last tx.last displayErr
  (next, { acceptedRx := rx.last, acceptedTx := tx.last, acceptedErr, latchClear, displayErr })

/-! ## The loop in time -/

/-- What is there to read when a pass begins, at a time since the start of the tick. -/
structure Poll where
  uptimeMs : Nat
  rxOk : Bool
  txOk : Bool
  clearD4 : Bool
  clearButton : Bool
  deriving DecidableEq, Repr

/-- `HAL_GetTick` gives the low 32 bits of the uptime. -/
def Poll.reading (p : Poll) : Reading where
  nowMs := UInt32.ofNat p.uptimeMs
  rxOk := p.rxOk
  txOk := p.txOk
  clearD4 := p.clearD4
  clearButton := p.clearButton

/-- What a pass computed, and when. -/
structure Seen where
  uptimeMs : Nat
  status : Status
  deriving DecidableEq, Repr

/-- The boot reading, as a pass at tick 0. -/
def Seen.boot (rxOk txOk : Bool) : Seen where
  uptimeMs := 0
  status :=
    { acceptedRx := rxOk
      acceptedTx := txOk
      acceptedErr := interpretErr rxOk txOk
      latchClear := false
      displayErr := interpretErr rxOk txOk }

/-- The loop of `main`. -/
def monitor : Machine Monitor Poll Seen where
  step m p := ((m.poll p.reading).1, [{ uptimeMs := p.uptimeMs, status := (m.poll p.reading).2 }])

/-! ## What one pass keeps -/

section Pass

variable (m : Monitor) (r : Reading)

@[simp] theorem redraw_rx (displayRx displayTx : Bool) (displayErr : UInt32) :
    (m.redraw displayRx displayTx displayErr).rx = m.rx := by
  unfold Monitor.redraw; split_ifs <;> rfl

@[simp] theorem redraw_tx (displayRx displayTx : Bool) (displayErr : UInt32) :
    (m.redraw displayRx displayTx displayErr).tx = m.tx := by
  unfold Monitor.redraw; split_ifs <;> rfl

@[simp] theorem redraw_lastErr (displayRx displayTx : Bool) (displayErr : UInt32) :
    (m.redraw displayRx displayTx displayErr).lastErr = m.lastErr := by
  unfold Monitor.redraw; split_ifs <;> rfl

@[simp] theorem redraw_stickyErr (displayRx displayTx : Bool) (displayErr : UInt32) :
    (m.redraw displayRx displayTx displayErr).stickyErr = m.stickyErr := by
  unfold Monitor.redraw; split_ifs <;> rfl

@[simp] theorem poll_rx : (m.poll r).1.rx = m.rx.poll r.rxOk := redraw_rx ..
@[simp] theorem poll_tx : (m.poll r).1.tx = m.tx.poll r.txOk := redraw_tx ..
@[simp] theorem poll_lastErr : (m.poll r).1.lastErr = (m.poll r).2.acceptedErr := redraw_lastErr ..

@[simp] theorem poll_stickyErr : (m.poll r).1.stickyErr =
    clearLatch (m.poll r).2.latchClear r.nowMs (setLatch m.lastErr (m.poll r).2.acceptedErr r.nowMs m.stickyErr) :=
  redraw_stickyErr ..

theorem poll_displayErr : (m.poll r).2.displayErr =
    ((m.poll r).1.stickyErr.map fun sticky => sticky.1).getD (m.poll r).2.acceptedErr := by
  rw [poll_stickyErr]; rfl

end Pass

end KeyboardProject.Debugger
