/-
What the LCD of the debugger shows (`draw_status` of `firmware/debugger/c/display.c`). The texts on it are those of the
latest status, they tell statuses apart, and a pass that changes nothing leaves the LCD alone.
-/
import KeyboardProject.Debugger.Fault
import KeyboardProject.Rust.Str

namespace KeyboardProject.Debugger

open Rust

/-! ## Drawing -/

inductive Color where
  | black
  | white
  | green
  | red
  deriving DecidableEq, Repr

inductive LineMode where
  | centerMode
  | leftMode
  deriving DecidableEq, Repr

/-- The calls of the board's LCD driver. -/
inductive LcdCall where
  | clear (color : Color)
  | setBackColor (color : Color)
  | setTextColor (color : Color)
  | displayStringAt (y : Nat) (text : Str) (mode : LineMode)
  deriving DecidableEq, Repr

def hexDigits : Str := "0123456789ABCDEF".toList

theorem and_15_lt (b : UInt8) : (b &&& 0xF).toNat < hexDigits.length := by
  rw [UInt8.toNat_and]
  exact Nat.lt_succ_of_le Nat.and_le_right

/-- `hex[b & 0xF]`. -/
def hexDigit (b : UInt8) : Char := hexDigits.get ⟨(b &&& 0xF).toNat, and_15_lt b⟩

/-- The text about the error code, of which it has the low byte. -/
def errText (err : UInt32) : Str :=
  let val := (err &&& 0xFF).toUInt8
  ("ERR CODE : 0x00".toList.set 13 (hexDigit (val >>> 4))).set 14 (hexDigit val)

def drawStatus (rxOk txOk : Bool) (err : UInt32) : List LcdCall :=
  [.clear .black,
    .setTextColor .white,
    .displayStringAt 20 "DEBUG STATUS".toList .centerMode,
    .setTextColor (if rxOk then .green else .red),
    .displayStringAt 80 (if rxOk then "RX (D2) : OK".toList else "RX (D2) : FAIL".toList) .leftMode,
    .setTextColor (if txOk then .green else .red),
    .displayStringAt 120 (if txOk then "TX (D3) : OK".toList else "TX (D3) : FAIL".toList) .leftMode,
    .setTextColor (if err = 0 then .white else .red),
    .displayStringAt 180 (errText err) .leftMode]

/-- The calls of `display_init`. -/
def initCalls (lcdOk : Bool) : List LcdCall :=
  if lcdOk then [.clear .black, .setBackColor .black, .setTextColor .white] else []

/-- The calls of `display_update`. -/
def Display.calls (d : Display) (rxOk txOk : Bool) (errCode : UInt32) : List LcdCall :=
  if !d.lcdReady then []
  else if rxOk = d.lastRx ∧ txOk = d.lastTx ∧ errCode = d.lastErr then []
  else drawStatus rxOk txOk errCode

/-- The calls of one pass of the loop. -/
def Monitor.calls (m : Monitor) (r : Reading) : List LcdCall :=
  let s := (m.poll r).2
  if s.displayErr ≠ m.shownErr ∨ s.acceptedRx ≠ m.shownRx ∨ s.acceptedTx ≠ m.shownTx then
    m.display.calls s.acceptedRx s.acceptedTx s.displayErr
  else []

/-- The loop of `main` with its calls. -/
def drawing : Machine Monitor Poll LcdCall where
  step m p := ((m.poll p.reading).1, m.calls p.reading)

/-- Every call from the start of `main` on. -/
def lcdCalls (lcdOk rxOk txOk : Bool) (polls : List Poll) : List LcdCall :=
  initCalls lcdOk ++ (Display.initial.init lcdOk).calls rxOk txOk (interpretErr rxOk txOk) ++
    (drawing.run (boot lcdOk rxOk txOk) polls).2

/-! ## The screen -/

structure Text where
  y : Nat
  color : Color
  text : Str
  mode : LineMode
  deriving DecidableEq, Repr

/-- What the driver keeps and what stands on the screen, which a clear takes off it. -/
structure Screen where
  ground : Color
  backColor : Color
  textColor : Color
  texts : List Text
  deriving DecidableEq, Repr

def Screen.call (s : Screen) : LcdCall → Screen
  | .clear color => { s with ground := color, texts := [] }
  | .setBackColor color => { s with backColor := color }
  | .setTextColor color => { s with textColor := color }
  | .displayStringAt y text mode => { s with texts := s.texts ++ [{ y, color := s.textColor, text, mode }] }

/-- The driver's own defaults. -/
def Screen.blank : Screen := { ground := .white, backColor := .white, textColor := .black, texts := [] }

def screen (rxOk txOk : Bool) (polls : List Poll) : Screen := (lcdCalls true rxOk txOk polls).foldl Screen.call .blank

/-- The texts of a status. -/
def page (rxOk txOk : Bool) (err : UInt32) : List Text :=
  [{ y := 20, color := .white, text := "DEBUG STATUS".toList, mode := .centerMode },
    { y := 80, color := if rxOk then .green else .red
      text := if rxOk then "RX (D2) : OK".toList else "RX (D2) : FAIL".toList, mode := .leftMode },
    { y := 120, color := if txOk then .green else .red
      text := if txOk then "TX (D3) : OK".toList else "TX (D3) : FAIL".toList, mode := .leftMode },
    { y := 180, color := if err = 0 then .white else .red, text := errText err, mode := .leftMode }]

theorem texts_drawStatus (s : Screen) (rxOk txOk : Bool) (err : UInt32) :
    ((drawStatus rxOk txOk err).foldl Screen.call s).texts = page rxOk txOk err := rfl

/-! ## Reading the screen -/

theorem hexDigit_inj {b c : UInt8} (h : hexDigit b = hexDigit c) : b.toNat % 16 = c.toNat % 16 := by
  have hnodup : hexDigits.Nodup := by decide
  have hindex := Fin.mk.inj_iff.1 (List.nodup_iff_injective_get.1 hnodup h)
  have hmod : ∀ x : UInt8, (x &&& 0xF).toNat = x.toNat % 16 := by
    intro x
    rw [UInt8.toNat_and]
    exact Nat.and_two_pow_sub_one_eq_mod _ 4
  rwa [hmod, hmod] at hindex

theorem lowByte_toNat {err : UInt32} (hlt : err.toNat < 256) : (err &&& 0xFF).toUInt8.toNat = err.toNat := by
  have hmask : (err &&& 0xFF).toNat = err.toNat % 2 ^ 8 := by
    rw [UInt32.toNat_and]
    exact Nat.and_two_pow_sub_one_eq_mod _ 8
  rw [UInt32.toNat_toUInt8, hmask]
  omega

/-- The two digits tell the codes of one byte apart. -/
theorem errText_inj {err err' : UInt32} (hlt : err.toNat < 256) (hlt' : err'.toNat < 256) (h : errText err = errText err') :
    err = err' := by
  have hhigh : some (hexDigit ((err &&& 0xFF).toUInt8 >>> 4)) = some (hexDigit ((err' &&& 0xFF).toUInt8 >>> 4)) :=
    congrArg (fun text : Str => text[13]?) h
  have hlow : some (hexDigit (err &&& 0xFF).toUInt8) = some (hexDigit (err' &&& 0xFF).toUInt8) :=
    congrArg (fun text : Str => text[14]?) h
  have hhigh' := hexDigit_inj (Option.some.inj hhigh)
  have hlow' := hexDigit_inj (Option.some.inj hlow)
  have hshift : ∀ b : UInt8, (b >>> 4).toNat = b.toNat / 16 := by
    intro b
    rw [UInt8.toNat_shiftRight]
    exact Nat.shiftRight_eq_div_pow _ 4
  rw [hshift, hshift, lowByte_toNat hlt, lowByte_toNat hlt'] at hhigh'
  rw [lowByte_toNat hlt, lowByte_toNat hlt'] at hlow'
  apply UInt32.toNat_inj.1
  omega

theorem page_inj {rx tx rx' tx' : Bool} {err err' : UInt32} (hlt : err.toNat < 256) (hlt' : err'.toNat < 256)
    (h : page rx tx err = page rx' tx' err') : rx = rx' ∧ tx = tx' ∧ err = err' := by
  simp only [page, List.cons.injEq, Text.mk.injEq, true_and, and_true] at h
  obtain ⟨⟨hrx, -⟩, ⟨htx, -⟩, -, herr⟩ := h
  refine ⟨?_, ?_, errText_inj hlt hlt' herr⟩
  · cases rx <;> cases rx' <;> simp_all
  · cases tx <;> cases tx' <;> simp_all

/-! ## Every run -/

/-- The loop with its calls goes through the states of the loop. -/
theorem run_drawing (m : Monitor) (polls : List Poll) : (drawing.run m polls).1 = (monitor.run m polls).1 := by
  induction polls generalizing m with
  | nil => rfl
  | cons p polls ih => exact ih _

theorem lcdCalls_concat (lcdOk rxOk txOk : Bool) (polls : List Poll) (p : Poll) :
    lcdCalls lcdOk rxOk txOk (polls ++ [p]) =
      lcdCalls lcdOk rxOk txOk polls ++ (monitor.run (boot lcdOk rxOk txOk) polls).1.calls p.reading := by
  unfold lcdCalls
  rw [Machine.run_concat, ← List.append_assoc, ← run_drawing]
  rfl

/-- A pass draws the status that it computed, unless that stands on the LCD already. -/
theorem Draws.calls {m : Monitor} {rx tx : Bool} {err : UInt32} (h : Draws m rx tx err) (r : Reading) :
    m.calls r =
      let s := (m.poll r).2
      if (s.acceptedRx, s.acceptedTx, s.displayErr) = (rx, tx, err) then []
      else drawStatus s.acceptedRx s.acceptedTx s.displayErr := by
  obtain ⟨hready, hshown, hcached, -⟩ := h
  simp only [Prod.mk.injEq] at hshown hcached
  obtain ⟨hrx, htx, herr⟩ := hshown
  obtain ⟨hlastRx, hlastTx, hlastErr⟩ := hcached
  simp only [Monitor.calls, Display.calls, hready, hrx, htx, herr, hlastRx, hlastTx, hlastErr, Prod.mk.injEq]
  by_cases hsame : (m.poll r).2.acceptedRx = rx ∧ (m.poll r).2.acceptedTx = tx ∧ (m.poll r).2.displayErr = err
  · simp [hsame]
  · have hchange : (m.poll r).2.displayErr ≠ err ∨ (m.poll r).2.acceptedRx ≠ rx ∨ (m.poll r).2.acceptedTx ≠ tx := by tauto
    rw [if_pos hchange, if_neg hsame]
    rfl

/-- A code is one of the four of `interpret_err`, also where it is latched. -/
def Coded (m : Monitor) : Prop := ∀ sticky ∈ m.stickyErr, sticky.1.toNat < 4

theorem interpretErr_lt (rxOk txOk : Bool) : (interpretErr rxOk txOk).toNat < 4 := by
  cases rxOk <;> cases txOk <;> decide

theorem coded_boot (lcdOk rxOk txOk : Bool) : Coded (boot lcdOk rxOk txOk) := by
  cases rxOk <;> cases txOk <;> simp [Coded, boot, interpretErr]

theorem Coded.poll {m : Monitor} (h : Coded m) (r : Reading) :
    Coded (m.poll r).1 ∧ (m.poll r).2.displayErr.toNat < 4 := by
  have haccepted : (m.poll r).2.acceptedErr.toNat < 4 := interpretErr_lt _ _
  have hset : ∀ sticky ∈ setLatch m.lastErr (m.poll r).2.acceptedErr r.nowMs m.stickyErr, sticky.1.toNat < 4 := by
    unfold setLatch
    split_ifs
    · intro sticky hsticky
      obtain rfl := Option.some.inj hsticky
      exact haccepted
    · exact h
    · exact h
  have hcoded : Coded (m.poll r).1 := by
    intro sticky hsticky
    rw [poll_stickyErr] at hsticky
    unfold clearLatch at hsticky
    split_ifs at hsticky
    · cases hsticky
    · split at hsticky
      · rename_i heq
        split_ifs at hsticky
        · cases hsticky
        · obtain rfl := Option.some.inj hsticky
          exact hset _ heq
      · cases hsticky
  refine ⟨hcoded, ?_⟩
  rw [poll_displayErr]
  cases hsticky : (m.poll r).1.stickyErr with
  | none => exact haccepted
  | some sticky => exact hcoded sticky hsticky

/-- What holds after every pass on a LCD that came up. -/
structure Shows (rxOk txOk : Bool) (polls : List Poll) : Prop where
  coded : Coded (monitor.run (boot true rxOk txOk) polls).1
  code : (latest true rxOk txOk polls).displayErr.toNat < 4
  texts : (screen rxOk txOk polls).texts = page (latest true rxOk txOk polls).acceptedRx
    (latest true rxOk txOk polls).acceptedTx (latest true rxOk txOk polls).displayErr

theorem shows (rxOk txOk : Bool) (polls : List Poll) : Shows rxOk txOk polls := by
  induction polls using List.reverseRecOn with
  | nil =>
    refine ⟨coded_boot true rxOk txOk, interpretErr_lt rxOk txOk, ?_⟩
    cases rxOk <;> cases txOk <;> rfl
  | append_singleton polls p ih =>
    obtain ⟨hcoded, -, htexts⟩ := ih
    have hstep := hcoded.poll p.reading
    have hpage := (run_draws rxOk txOk polls).calls p.reading
    have hscreen : screen rxOk txOk (polls ++ [p]) =
        ((monitor.run (boot true rxOk txOk) polls).1.calls p.reading).foldl Screen.call (screen rxOk txOk polls) := by
      rw [screen, lcdCalls_concat, List.foldl_append]
      rfl
    constructor
    · rw [Machine.run_concat]
      exact hstep.1
    · rw [latest_concat]
      exact hstep.2
    · rw [latest_concat, hscreen, hpage]
      dsimp only
      split_ifs with hsame
      · obtain ⟨hrx, htx, herr⟩ := by simpa only [Prod.mk.injEq] using hsame
        rw [List.foldl_nil, htexts, hrx, htx, herr]
      · exact texts_drawStatus _ _ _ _

/-- A LCD that did not come up is never drawn on. -/
theorem lcdCalls_not_ready (rxOk txOk : Bool) (polls : List Poll) :
    (monitor.run (boot false rxOk txOk) polls).1.display.lcdReady = false ∧ lcdCalls false rxOk txOk polls = [] := by
  induction polls using List.reverseRecOn with
  | nil => cases rxOk <;> cases txOk <;> exact ⟨rfl, rfl⟩
  | append_singleton polls p ih =>
    obtain ⟨hready, hcalls⟩ := ih
    rw [lcdCalls_concat, hcalls, Machine.run_concat]
    refine ⟨?_, ?_⟩
    · show (Monitor.redraw _ _ _ _).display.lcdReady = false
      unfold Monitor.redraw Display.update
      split_ifs <;> simp_all
    · unfold Monitor.calls Display.calls
      simp [hready]

/-- What a status has the LCD show. -/
def Status.shown (s : Status) : Bool × Bool × UInt32 := (s.acceptedRx, s.acceptedTx, s.displayErr)

/-- After every run the LCD holds the texts of the latest status and nothing else, and they can be read: the LCDs of
two runs hold the same texts exactly when the statuses are the same. A pass touches the LCD only when its status is
another one than that of the pass before, and then draws all of it; and where the LCD did not come up, never. -/
theorem lcd_readable (rxOk txOk : Bool) (polls : List Poll) :
    ((screen rxOk txOk polls).texts = page (latest true rxOk txOk polls).acceptedRx (latest true rxOk txOk polls).acceptedTx
        (latest true rxOk txOk polls).displayErr) ∧
      (∀ (rxOk' txOk' : Bool) (polls' : List Poll),
        (screen rxOk txOk polls).texts = (screen rxOk' txOk' polls').texts ↔
          (latest true rxOk txOk polls).shown = (latest true rxOk' txOk' polls').shown) ∧
      (∀ p, lcdCalls true rxOk txOk (polls ++ [p]) = lcdCalls true rxOk txOk polls ++
        let next := latest true rxOk txOk (polls ++ [p])
        if next.shown = (latest true rxOk txOk polls).shown then []
        else drawStatus next.acceptedRx next.acceptedTx next.displayErr) ∧
      lcdCalls false rxOk txOk polls = [] := by
  have hshows := shows rxOk txOk polls
  refine ⟨hshows.texts, fun rxOk' txOk' polls' => ?_, fun p => ?_, (lcdCalls_not_ready rxOk txOk polls).2⟩
  · have hshows' := shows rxOk' txOk' polls'
    rw [hshows.texts, hshows'.texts]
    constructor
    · intro h
      have hcode := hshows.code
      have hcode' := hshows'.code
      obtain ⟨hrx, htx, herr⟩ := page_inj (by omega) (by omega) h
      exact Prod.ext hrx (Prod.ext htx herr)
    · intro h
      obtain ⟨hrx, hrest⟩ := Prod.mk.inj h
      obtain ⟨htx, herr⟩ := Prod.mk.inj hrest
      rw [hrx, htx, herr]
  · rw [lcdCalls_concat, (run_draws rxOk txOk polls).calls, latest_concat]
    rfl

end KeyboardProject.Debugger
