/-
What the debugger's LCD shows after every pass: the debounced error while there is one, then the latched
one until a clear input is there or it is five seconds old, all told by the polls alone. The latch compares
wrapping ticks, which tell the age exactly as long as no two passes are too far apart.
-/
import KeyboardProject.Debugger.Debounced

namespace KeyboardProject.Debugger

/-! ## The fault that is to be shown -/

/-- A pass by what goes into it: what there is to read, and what the inputs are debounced to by then. -/
structure Pass where
  poll : Poll
  rx : Bool
  tx : Bool
  deriving DecidableEq, Repr

def Pass.err (x : Pass) : UInt32 := interpretErr x.rx x.tx

/-- The latest pass over the polls. The boot reading is a pass at tick 0, where no clear input is read. -/
def passAfter (rxOk txOk : Bool) (polls : List Poll) : Pass where
  poll := polls.getLastD { uptimeMs := 0, rxOk, txOk, clearD4 := false, clearButton := false }
  rx := debouncedTo rxOk (polls.map Poll.rxOk)
  tx := debouncedTo txOk (polls.map Poll.txOk)

/-- Every pass from the boot reading on. -/
def passes (rxOk txOk : Bool) (polls : List Poll) : List Pass := polls.inits.map (passAfter rxOk txOk)

/-- `x` is the most recent change of the debounced error to a nonzero code, the boot reading counted as
a change, and `since` are the passes after it. -/
structure LastChange (hist : List Pass) (x : Pass) (since : List Pass) : Prop where
  split : ∃ before, hist = before ++ x :: since ∧ ∀ y ∈ before.getLast?, x.err ≠ y.err
  fault : x.err ≠ 0
  latest : (x :: since).IsChain fun y z => z.err = y.err ∨ z.err = 0

/-- Fewer than five seconds have passed since the change, and neither clear input was there from it on. -/
def Alive (x : Pass) (since : List Pass) (nowMs : Nat) : Prop :=
  nowMs - x.poll.uptimeMs < 5000 ∧ ∀ y ∈ x :: since, (y.poll.clearD4 || y.poll.clearButton) = false

instance (x : Pass) (since : List Pass) (nowMs : Nat) : Decidable (Alive x since nowMs) :=
  inferInstanceAs (Decidable (_ ∧ _))

/-- The code to be shown at the end of a pass `now`: the error if there is one; if there is none, the most
recent one as long as it is alive; and 0 otherwise. -/
structure ShowsFault (hist : List Pass) (now : Pass) (shown : UInt32) : Prop where
  live : now.err ≠ 0 → shown = now.err
  latched : now.err = 0 → ∀ x since, LastChange hist x since →
    shown = if Alive x since now.poll.uptimeMs then x.err else 0
  unlatched : now.err = 0 → (¬∃ x since, LastChange hist x since) → shown = 0

@[simp] theorem passAfter_poll_concat (rxOk txOk : Bool) (polls : List Poll) (p : Poll) :
    (passAfter rxOk txOk (polls ++ [p])).poll = p := List.getLastD_concat ..

theorem passes_concat (rxOk txOk : Bool) (polls : List Poll) (p : Poll) :
    passes rxOk txOk (polls ++ [p]) = passes rxOk txOk polls ++ [passAfter rxOk txOk (polls ++ [p])] := by
  simp [passes, List.inits_append]

theorem getLast?_since {front before since : List Pass} {last x : Pass}
    (h : front ++ [last] = before ++ x :: since) : (x :: since).getLast? = some last := by
  rw [← List.getLast?_append_cons before, ← h]
  exact List.getLast?_concat

/-- What a new pass does to the most recent change: it is one, or it leaves the one before. -/
theorem lastChange_concat {front since : List Pass} {last z x : Pass} :
    LastChange (front ++ [last] ++ [z]) x since ↔
      (z.err ≠ 0 ∧ z.err ≠ last.err ∧ x = z ∧ since = []) ∨
      (z.err = last.err ∨ z.err = 0) ∧
        ∃ since', since = since' ++ [z] ∧ LastChange (front ++ [last]) x since' := by
  constructor
  · rintro ⟨⟨before, hsplit, hbefore⟩, hfault, hlatest⟩
    cases since using List.reverseRecOn with
    | nil =>
      left
      obtain ⟨rfl, hx⟩ := List.append_inj' hsplit rfl
      obtain rfl : z = x := (List.cons.inj hx).1
      exact ⟨hfault, hbefore last (by simp), rfl, rfl⟩
    | append_singleton since z' =>
      right
      rw [← List.cons_append, ← List.append_assoc] at hsplit
      obtain ⟨hfront, hz⟩ := List.append_inj' hsplit rfl
      obtain rfl : z = z' := (List.cons.inj hz).1
      rw [← List.cons_append, List.isChain_append] at hlatest
      obtain ⟨hchain, -, hend⟩ := hlatest
      have hlast : last ∈ (x :: since).getLast? := getLast?_since hfront
      exact ⟨hend last hlast z (by simp), since, rfl, ⟨before, hfront, hbefore⟩, hfault, hchain⟩
  · rintro (⟨hne, hchange, rfl, rfl⟩ | ⟨hkeep, since', rfl, ⟨before, hsplit, hbefore⟩, hfault, hlatest⟩)
    · refine ⟨⟨front ++ [last], rfl, ?_⟩, hne, List.isChain_singleton _⟩
      simpa using hchange
    · refine ⟨⟨before, by rw [hsplit]; simp, hbefore⟩, hfault, ?_⟩
      rw [← List.cons_append, List.isChain_append, getLast?_since hsplit]
      exact ⟨hlatest, List.isChain_singleton _, by simpa using hkeep⟩

/-! ## The latch -/

/-- The wrapping difference of two ticks is the time between them, as long as that is less than a turn
of the counter. -/
theorem elapsed_toNat {t t' : Nat} (hle : t ≤ t') (hlt : t' < t + 2 ^ 32) :
    (UInt32.ofNat t' - UInt32.ofNat t).toNat = t' - t := by
  rw [UInt32.toNat_sub, UInt32.toNat_ofNat', UInt32.toNat_ofNat']
  omega

theorem clearLatch_some {t t' : Nat} (hle : t ≤ t') (hlt : t' < t + 2 ^ 32) (latchClear : Bool) (code : UInt32) :
    clearLatch latchClear (UInt32.ofNat t') (some (code, UInt32.ofNat t)) =
      if t' - t < 5000 ∧ latchClear = false then some (code, UInt32.ofNat t) else none := by
  have hage : UInt32.ofNat t' - UInt32.ofNat t ≥ latchAutoClearMs ↔ ¬t' - t < 5000 := by
    have h5000 : latchAutoClearMs.toNat = 5000 := rfl
    rw [ge_iff_le, UInt32.le_iff_toNat_le, elapsed_toNat hle hlt, h5000, not_lt]
  cases latchClear with
  | true => simp [clearLatch]
  | false =>
    show (if UInt32.ofNat t' - UInt32.ofNat t ≥ latchAutoClearMs then none else some (code, UInt32.ofNat t)) = _
    by_cases hyoung : t' - t < 5000
    · rw [if_neg (fun h => hage.1 h hyoung), if_pos ⟨hyoung, rfl⟩]
    · rw [if_pos (hage.2 hyoung), if_neg (fun h => hyoung h.1)]

theorem clearLatch_none (latchClear : Bool) (nowMs : UInt32) : clearLatch latchClear nowMs none = none := by
  unfold clearLatch; split_ifs <;> rfl

/-- A pass sets the latch on a change to an error, and nowhere else. -/
theorem setLatch_eq (lastErr acceptedErr nowMs : UInt32) (stickyErr : Option (UInt32 × UInt32)) :
    setLatch lastErr acceptedErr nowMs stickyErr =
      if acceptedErr ≠ 0 ∧ acceptedErr ≠ lastErr then some (acceptedErr, nowMs) else stickyErr := by
  unfold setLatch
  split_ifs <;> simp_all

/-- What the state knows of the passes so far, `last` being the latest: its latch is the most recent change
as long as that is alive. -/
structure Tracks (front : List Pass) (last : Pass) (m : Monitor) : Prop where
  lastErr : m.lastErr = last.err
  times : ∀ x ∈ front ++ [last], x.poll.uptimeMs ≤ last.poll.uptimeMs
  code : ∀ x since, LastChange (front ++ [last]) x since → last.err = 0 ∨ last.err = x.err
  latched : ∀ x since, LastChange (front ++ [last]) x since →
    m.stickyErr = if Alive x since last.poll.uptimeMs then some (x.err, UInt32.ofNat x.poll.uptimeMs) else none
  unlatched : (¬∃ x since, LastChange (front ++ [last]) x since) → m.stickyErr = none

/-- The next pass is soon enough for the ticks to tell the age of a live latch: less than a turn of the
counter minus five seconds away, or within the first turn after tick 0. -/
def Soon (nowMs nextMs : Nat) : Prop :=
  nowMs ≤ nextMs ∧ (nextMs < nowMs + (2 ^ 32 - 5000) ∨ nowMs = 0 ∧ nextMs < 2 ^ 32)

instance (nowMs nextMs : Nat) : Decidable (Soon nowMs nextMs) := inferInstanceAs (Decidable (_ ∧ _))

theorem alive_concat {x z : Pass} {since : List Pass} {nowMs : Nat} :
    Alive x (since ++ [z]) nowMs ↔
      (nowMs - x.poll.uptimeMs < 5000 ∧ (z.poll.clearD4 || z.poll.clearButton) = false) ∧
        ∀ y ∈ x :: since, (y.poll.clearD4 || y.poll.clearButton) = false := by
  unfold Alive
  rw [← List.cons_append, List.forall_mem_append, List.forall_mem_singleton]
  tauto

section Pass

variable {front : List Pass} {last z : Pass} {m : Monitor}

/-- The latch after a pass: set if the error is a new one, kept if it is not, and cleared by the pass's own
clear inputs. -/
theorem Tracks.poll_stickyErr_eq (h : Tracks front last m) (hz : (m.poll z.poll.reading).2.acceptedErr = z.err) :
    (m.poll z.poll.reading).1.stickyErr =
      clearLatch (z.poll.clearD4 || z.poll.clearButton) (UInt32.ofNat z.poll.uptimeMs)
        (if z.err ≠ 0 ∧ z.err ≠ last.err then some (z.err, UInt32.ofNat z.poll.uptimeMs) else m.stickyErr) := by
  rw [poll_stickyErr, setLatch_eq, h.lastErr, hz]
  rfl

/-- The latch of the fault before, one pass older. -/
theorem Tracks.latched_keep (h : Tracks front last m) (hsoon : Soon last.poll.uptimeMs z.poll.uptimeMs) {x : Pass}
    {since : List Pass} (hold : LastChange (front ++ [last]) x since) :
    clearLatch (z.poll.clearD4 || z.poll.clearButton) (UInt32.ofNat z.poll.uptimeMs) m.stickyErr =
      if Alive x (since ++ [z]) z.poll.uptimeMs then some (x.err, UInt32.ofNat x.poll.uptimeMs) else none := by
  obtain ⟨before, hsplit, -⟩ := hold.split
  have hx : x.poll.uptimeMs ≤ last.poll.uptimeMs := h.times x (by rw [hsplit]; simp)
  have hz : last.poll.uptimeMs ≤ z.poll.uptimeMs := hsoon.1
  rw [h.latched x since hold]
  by_cases halive : Alive x since last.poll.uptimeMs
  · have hlt : z.poll.uptimeMs < x.poll.uptimeMs + 2 ^ 32 := by
      have hyoung := halive.1
      rcases hsoon.2 with h1 | ⟨h1, h2⟩ <;> omega
    rw [if_pos halive, clearLatch_some (hx.trans hz) hlt]
    simp only [alive_concat, and_iff_left halive.2]
  · have hdead : ¬Alive x (since ++ [z]) z.poll.uptimeMs := by
      intro hlater
      obtain ⟨⟨hyoung, -⟩, hclear⟩ := alive_concat.1 hlater
      exact halive ⟨by omega, hclear⟩
    rw [if_neg halive, if_neg hdead, clearLatch_none]

theorem Tracks.step (h : Tracks front last m) (hz : (m.poll z.poll.reading).2.acceptedErr = z.err)
    (hsoon : Soon last.poll.uptimeMs z.poll.uptimeMs) : Tracks (front ++ [last]) z (m.poll z.poll.reading).1 where
  lastErr := (poll_lastErr ..).trans hz
  times := by
    intro x hx
    rcases List.mem_append.1 hx with hx | hx
    · exact (h.times x hx).trans hsoon.1
    · rw [List.mem_singleton.1 hx]
  code := by
    intro x since hchange
    rcases lastChange_concat.1 hchange with ⟨-, -, rfl, -⟩ | ⟨hkeep | hzero, since', -, hold⟩
    · exact Or.inr rfl
    · rw [hkeep]; exact h.code x since' hold
    · exact Or.inl hzero
  latched := by
    intro x since hchange
    rw [h.poll_stickyErr_eq hz]
    rcases lastChange_concat.1 hchange with ⟨hne, hdiff, rfl, rfl⟩ | ⟨hkeep, since', rfl, hold⟩
    · -- a new fault: latched at this pass, unless a clear input is there
      rw [if_pos ⟨hne, hdiff⟩, clearLatch_some le_rfl (by omega)]
      simp [Alive]
    · rw [if_neg (by tauto)]
      exact h.latched_keep hsoon hold
  unlatched := by
    intro hnone
    have hno : ¬(z.err ≠ 0 ∧ z.err ≠ last.err) := by
      rintro ⟨hne, hdiff⟩
      exact hnone ⟨_, [], lastChange_concat.2 (Or.inl ⟨hne, hdiff, rfl, rfl⟩)⟩
    have hold : ¬∃ x since, LastChange (front ++ [last]) x since := by
      rintro ⟨x, since, hold⟩
      exact hnone ⟨x, since ++ [z], lastChange_concat.2 (Or.inr ⟨by tauto, since, rfl, hold⟩)⟩
    rw [h.poll_stickyErr_eq hz, if_neg hno, h.unlatched hold, clearLatch_none]

/-- A latch that tracks the passes has the right code shown. -/
theorem Tracks.showsFault (h : Tracks front last m) :
    ShowsFault (front ++ [last]) last ((m.stickyErr.map fun sticky => sticky.1).getD last.err) where
  live := by
    intro hne
    by_cases hexists : ∃ x since, LastChange (front ++ [last]) x since
    · obtain ⟨x, since, hchange⟩ := hexists
      have hcode := (h.code x since hchange).resolve_left hne
      rw [h.latched x since hchange]
      split_ifs
      · exact hcode.symm
      · rfl
    · rw [h.unlatched hexists]; rfl
  latched := by
    intro hzero x since hchange
    rw [h.latched x since hchange]
    split_ifs
    · rfl
    · exact hzero
  unlatched := by
    intro hzero hnone
    rw [h.unlatched hnone]
    exact hzero

end Pass

theorem lastChange_singleton {x now : Pass} {since : List Pass} :
    LastChange ([] ++ [now]) x since ↔ now.err ≠ 0 ∧ x = now ∧ since = [] := by
  constructor
  · rintro ⟨⟨before, hsplit, -⟩, hfault, -⟩
    cases before with
    | nil =>
      obtain ⟨rfl, rfl⟩ := List.cons.inj hsplit
      exact ⟨hfault, rfl, rfl⟩
    | cons y before => simp at hsplit
  · rintro ⟨hne, rfl, rfl⟩
    exact ⟨⟨[], rfl, by simp⟩, hne, List.isChain_singleton _⟩

theorem err_boot (rxOk txOk : Bool) : (passAfter rxOk txOk []).err = interpretErr rxOk txOk := by
  cases rxOk <;> cases txOk <;> rfl

/-- An error in the boot reading is a change at tick 0. -/
theorem tracks_boot (lcdOk rxOk txOk : Bool) : Tracks [] (passAfter rxOk txOk []) (boot lcdOk rxOk txOk) where
  lastErr := (err_boot rxOk txOk).symm
  times := by simp
  code := by
    intro x since hchange
    obtain ⟨-, rfl, -⟩ := lastChange_singleton.1 hchange
    exact Or.inr rfl
  latched := by
    intro x since hchange
    obtain ⟨hne, rfl, rfl⟩ := lastChange_singleton.1 hchange
    have halive : Alive (passAfter rxOk txOk []) [] 0 := ⟨by show 0 - 0 < 5000; omega, by simp [passAfter]⟩
    refine Eq.trans ?_ (if_pos halive).symm
    rw [err_boot] at hne ⊢
    exact if_pos hne
  unlatched := by
    intro hnone
    have hzero : ¬(passAfter rxOk txOk []).err ≠ 0 := fun hne => hnone ⟨_, _, lastChange_singleton.2 ⟨hne, rfl, rfl⟩⟩
    rw [err_boot] at hzero
    exact if_neg hzero

/-! ## The LCD -/

/-- Both caches in front of the LCD hold what is drawn on it. -/
structure Draws (m : Monitor) (rx tx : Bool) (err : UInt32) : Prop where
  ready : m.display.lcdReady = true
  shown : (m.shownRx, m.shownTx, m.shownErr) = (rx, tx, err)
  cached : (m.display.lastRx, m.display.lastTx, m.display.lastErr) = (rx, tx, err)
  drawn : m.display.drawn = some (rx, tx, err)

theorem draws_boot (rxOk txOk : Bool) : Draws (boot true rxOk txOk) rxOk txOk (interpretErr rxOk txOk) := by
  cases rxOk <;> cases txOk <;> exact ⟨rfl, rfl, rfl, rfl⟩

/-- A redraw that is suppressed would have drawn what is there. -/
theorem Draws.redraw {m : Monitor} {rx tx : Bool} {err : UInt32} (h : Draws m rx tx err) (rx' tx' : Bool)
    (err' : UInt32) : Draws (m.redraw rx' tx' err') rx' tx' err' := by
  obtain ⟨hready, hshown, hcached, hdrawn⟩ := h
  simp only [Prod.mk.injEq] at hshown hcached
  obtain ⟨hrx, htx, herr⟩ := hshown
  unfold Monitor.redraw
  by_cases hchange : err' ≠ m.shownErr ∨ rx' ≠ m.shownRx ∨ tx' ≠ m.shownTx
  · rw [if_pos hchange]
    have hdiff : ¬(rx' = m.display.lastRx ∧ tx' = m.display.lastTx ∧ err' = m.display.lastErr) := by
      rw [hcached.1, hcached.2.1, hcached.2.2]
      rw [hrx, htx, herr] at hchange
      tauto
    have hupdate : m.display.update rx' tx' err' =
        { m.display with lastRx := rx', lastTx := tx', lastErr := err', drawn := some (rx', tx', err') } := by
      unfold Display.update
      rw [if_neg (by simp [hready]), if_neg hdiff]
    exact ⟨by rw [hupdate]; exact hready, rfl, by rw [hupdate], by rw [hupdate]⟩
  · rw [if_neg hchange]
    obtain ⟨rfl, rfl, rfl⟩ : rx' = rx ∧ tx' = tx ∧ err' = err := by
      rw [hrx, htx, herr] at hchange
      tauto
    exact ⟨hready, by rw [hrx, htx, herr], by rw [hcached.1, hcached.2.1, hcached.2.2], hdrawn⟩

/-- What a pass puts out. -/
def Monitor.seen (m : Monitor) (p : Poll) : Seen := { uptimeMs := p.uptimeMs, status := (m.poll p.reading).2 }

theorem Draws.poll {m : Monitor} {rx tx : Bool} {err : UInt32} (h : Draws m rx tx err) (p : Poll) :
    Draws (m.poll p.reading).1 (m.seen p).status.acceptedRx (m.seen p).status.acceptedTx
      (m.seen p).status.displayErr := by
  apply Draws.redraw
  exact ⟨h.ready, h.shown, h.cached, h.drawn⟩

/-! ## Every run -/

/-- What the latest pass computed, or the boot reading. -/
def latest (lcdOk rxOk txOk : Bool) (polls : List Poll) : Status :=
  ((Seen.boot rxOk txOk :: (monitor.run (boot lcdOk rxOk txOk) polls).2).getLast (List.cons_ne_nil _ _)).status

theorem latest_concat (lcdOk rxOk txOk : Bool) (polls : List Poll) (p : Poll) :
    latest lcdOk rxOk txOk (polls ++ [p]) = ((monitor.run (boot lcdOk rxOk txOk) polls).1.poll p.reading).2 := by
  unfold latest
  have hseen : Seen.boot rxOk txOk :: (monitor.run (boot lcdOk rxOk txOk) (polls ++ [p])).2 =
      (Seen.boot rxOk txOk :: (monitor.run (boot lcdOk rxOk txOk) polls).2) ++
        [(monitor.run (boot lcdOk rxOk txOk) polls).1.seen p] := by
    rw [Machine.run_append]
    rfl
  simp only [hseen, List.getLast_append_singleton]
  rfl

/-- The inputs that a pass accepts are the debounced ones, and its error code is theirs. -/
theorem latest_accepted (lcdOk rxOk txOk : Bool) (polls : List Poll) :
    (latest lcdOk rxOk txOk polls).acceptedRx = (passAfter rxOk txOk polls).rx ∧
      (latest lcdOk rxOk txOk polls).acceptedTx = (passAfter rxOk txOk polls).tx ∧
      (latest lcdOk rxOk txOk polls).acceptedErr = (passAfter rxOk txOk polls).err := by
  have hrun := run_channels (boot lcdOk rxOk txOk) polls
  have hrx : (monitor.run (boot lcdOk rxOk txOk) polls).1.rx.last = (passAfter rxOk txOk polls).rx := by
    rw [hrun.1]; exact foldl_last rxOk _
  have htx : (monitor.run (boot lcdOk rxOk txOk) polls).1.tx.last = (passAfter rxOk txOk polls).tx := by
    rw [hrun.2]; exact foldl_last txOk _
  unfold Pass.err
  rw [← hrx, ← htx]
  cases polls using List.reverseRecOn with
  | nil => exact ⟨rfl, rfl, rfl⟩
  | append_singleton polls p =>
    rw [latest_concat, Machine.run_concat]
    simp only [monitor, poll_rx, poll_tx]
    exact ⟨rfl, rfl, rfl⟩

theorem latest_displayErr (lcdOk rxOk txOk : Bool) (polls : List Poll) : (latest lcdOk rxOk txOk polls).displayErr =
    ((monitor.run (boot lcdOk rxOk txOk) polls).1.stickyErr.map fun sticky => sticky.1).getD
      (latest lcdOk rxOk txOk polls).acceptedErr := by
  cases polls using List.reverseRecOn with
  | nil => cases rxOk <;> cases txOk <;> rfl
  | append_singleton polls p =>
    rw [latest_concat, Machine.run_concat]
    exact poll_displayErr ..

theorem run_draws (rxOk txOk : Bool) (polls : List Poll) :
    Draws (monitor.run (boot true rxOk txOk) polls).1 (latest true rxOk txOk polls).acceptedRx
      (latest true rxOk txOk polls).acceptedTx (latest true rxOk txOk polls).displayErr := by
  induction polls using List.reverseRecOn with
  | nil => exact draws_boot rxOk txOk
  | append_singleton polls p ih =>
    rw [latest_concat, Machine.run_concat]
    exact ih.poll p

/-- Every pass comes soon after the one before it, the first one soon after tick 0. -/
def Paced (polls : List Poll) : Prop := (0 :: polls.map Poll.uptimeMs).IsChain Soon

theorem getLast?_uptimeMs (rxOk txOk : Bool) (polls : List Poll) :
    (0 :: polls.map Poll.uptimeMs).getLast? = some (passAfter rxOk txOk polls).poll.uptimeMs := by
  cases polls using List.reverseRecOn with
  | nil => rfl
  | append_singleton polls p =>
    rw [List.map_append, ← List.cons_append, List.map_singleton, List.getLast?_concat, passAfter_poll_concat]

theorem run_tracks (lcdOk rxOk txOk : Bool) {polls : List Poll} (hpaced : Paced polls) :
    ∃ front, passes rxOk txOk polls = front ++ [passAfter rxOk txOk polls] ∧
      Tracks front (passAfter rxOk txOk polls) (monitor.run (boot lcdOk rxOk txOk) polls).1 := by
  induction polls using List.reverseRecOn with
  | nil => exact ⟨[], rfl, tracks_boot lcdOk rxOk txOk⟩
  | append_singleton polls p ih =>
    unfold Paced at hpaced
    rw [List.map_append, ← List.cons_append, List.isChain_append] at hpaced
    obtain ⟨hpolls, -, hsoon⟩ := hpaced
    obtain ⟨front, hfront, htracks⟩ := ih hpolls
    refine ⟨_, passes_concat rxOk txOk polls p, ?_⟩
    have hp : (passAfter rxOk txOk (polls ++ [p])).poll = p := passAfter_poll_concat ..
    have herr := (latest_accepted lcdOk rxOk txOk (polls ++ [p])).2.2
    rw [latest_concat] at herr
    have hstep := @Tracks.step front _ (passAfter rxOk txOk (polls ++ [p])) _ htracks (by rw [hp]; exact herr)
      (hsoon _ (getLast?_uptimeMs rxOk txOk polls) _ (by rw [hp]; rfl))
    rw [hp] at hstep
    rw [hfront, Machine.run_concat]
    exact hstep

/-- After every pass the loop has accepted the debounced inputs. The LCD shows their error if there is one; if
there is none, the most recent one as long as its change is less than five seconds old and neither clear input
was there from then on; and 0 otherwise. What is drawn are the debounced inputs and that code. -/
theorem lcd_shows_fault {rxOk txOk : Bool} {polls : List Poll} (hpaced : Paced polls) :
    ((latest true rxOk txOk polls).acceptedRx = (passAfter rxOk txOk polls).rx ∧
      (latest true rxOk txOk polls).acceptedTx = (passAfter rxOk txOk polls).tx ∧
      (latest true rxOk txOk polls).acceptedErr = (passAfter rxOk txOk polls).err) ∧
    ShowsFault (passes rxOk txOk polls) (passAfter rxOk txOk polls) (latest true rxOk txOk polls).displayErr ∧
    (monitor.run (boot true rxOk txOk) polls).1.display.drawn =
      some ((passAfter rxOk txOk polls).rx, (passAfter rxOk txOk polls).tx, (latest true rxOk txOk polls).displayErr) := by
  obtain ⟨front, hfront, htracks⟩ := run_tracks true rxOk txOk hpaced
  obtain ⟨hrx, htx, herr⟩ := latest_accepted true rxOk txOk polls
  refine ⟨⟨hrx, htx, herr⟩, ?_, ?_⟩
  · rw [latest_displayErr, herr, hfront]
    exact htracks.showsFault
  · rw [← hrx, ← htx]
    exact (run_draws rxOk txOk polls).drawn

/-- RX fails for three passes and is back for three. -/
def outage : List Poll :=
  [(5, false), (10, false), (15, false), (20, true), (25, true), (30, true)].map fun (uptimeMs, rxOk) =>
    { uptimeMs, rxOk, txOk := true, clearD4 := false, clearButton := false }

/-- D4 is there at the next pass. -/
def clearing : Poll := { uptimeMs := 35, rxOk := true, txOk := true, clearD4 := true, clearButton := false }

/-- The fault still shows when everything is well again, and is gone when D4 is there. -/
theorem lcd_shows_fault_outage :
    (monitor.run (boot true true true) outage).1.display.drawn = some (true, true, 0x01) ∧
      (monitor.run (boot true true true) (outage ++ [clearing])).1.display.drawn = some (true, true, 0) := by
  have hpaced : Paced outage := by unfold Paced; decide
  have hpaced' : Paced (outage ++ [clearing]) := by unfold Paced; decide
  -- the third failed reading is the change, in both runs
  have hchange : LastChange (passes true true outage) (passAfter true true (outage.take 3))
      ((passes true true outage).drop 4) :=
    ⟨⟨(passes true true outage).take 3, by decide, by decide⟩, by decide, by decide⟩
  have hchange' : LastChange (passes true true (outage ++ [clearing])) (passAfter true true (outage.take 3))
      ((passes true true (outage ++ [clearing])).drop 4) :=
    ⟨⟨(passes true true outage).take 3, by decide, by decide⟩, by decide, by decide⟩
  obtain ⟨-, hshows, hdrawn⟩ := @lcd_shows_fault true true outage hpaced
  obtain ⟨-, hshows', hdrawn'⟩ := @lcd_shows_fault true true (outage ++ [clearing]) hpaced'
  rw [hdrawn, hdrawn', hshows.latched (by decide) _ _ hchange, hshows'.latched (by decide) _ _ hchange']
  decide

end KeyboardProject.Debugger
