/-
Debouncing on the debugger's two inputs: the accepted value of each is that of the most recent window of
three equal samples, the boot reading counted as three.
-/
import KeyboardProject.Lib.Debounce
import KeyboardProject.Debugger.Main

namespace KeyboardProject.Debugger

open Debounce

/-! ## One input -/

/-- The locals of an input as a general debouncer's state. -/
def Channel.debouncer (c : Channel) : Debouncer Bool where
  sample := c.sample
  count := c.sampleCount.toNat
  accepted := c.last

theorem debouncer_boot (ok : Bool) : (Channel.boot ok).debouncer = Debouncer.steady 3 ok := rfl

theorem stableSamples_toNat : stableSamples.toNat = 3 := rfl

/-- The count goes up to three and stays there, so it never overflows. -/
theorem debounce_eq {c : Channel} (h : c.sampleCount.toNat ≤ 3) (ok : Bool) :
    (c.debounce ok).sampleCount.toNat = (if ok = c.sample then min 3 (c.sampleCount.toNat + 1) else 1) ∧
      (c.debounce ok).sample = ok ∧ (c.debounce ok).last = c.last := by
  unfold Channel.debounce
  by_cases hok : ok = c.sample
  · rw [if_pos hok, if_pos hok]
    split_ifs with hfull
    · rw [UInt8.lt_iff_toNat_lt, stableSamples_toNat] at hfull
      have hone : (1 : UInt8).toNat = 1 := rfl
      refine ⟨?_, hok.symm, rfl⟩
      rw [UInt8.toNat_add, hone]
      omega
    · rw [UInt8.lt_iff_toNat_lt, stableSamples_toNat] at hfull
      exact ⟨by omega, hok.symm, rfl⟩
  · rw [if_neg hok, if_neg hok]
    exact ⟨rfl, rfl, rfl⟩

theorem accept_last (c : Channel) : c.accept.last = if 3 ≤ c.sampleCount.toNat then c.sample else c.last := by
  have hge : c.sampleCount ≥ stableSamples ↔ 3 ≤ c.sampleCount.toNat := by
    rw [ge_iff_le, UInt8.le_iff_toNat_le, stableSamples_toNat]
  unfold Channel.accept
  simp only [hge]
  by_cases hfull : 3 ≤ c.sampleCount.toNat
  · by_cases hsame : c.sample = c.last
    · rw [if_neg (fun h => h.2 hsame), if_pos hfull, hsame]
    · rw [if_pos ⟨hfull, hsame⟩, if_pos hfull]
  · rw [if_neg (fun h => hfull h.1), if_neg hfull]

theorem accept_sample (c : Channel) : c.accept.sample = c.sample ∧ c.accept.sampleCount = c.sampleCount := by
  unfold Channel.accept
  split_ifs <;> exact ⟨rfl, rfl⟩

/-- A pass is a step of the debouncer. -/
theorem debouncer_poll {c : Channel} (h : c.sampleCount.toNat ≤ 3) (ok : Bool) :
    (c.poll ok).debouncer = c.debouncer.step 3 ok := by
  obtain ⟨hcount, hsample, hlast⟩ := debounce_eq h ok
  obtain ⟨hs, hc⟩ := accept_sample (c.debounce ok)
  simp only [Channel.debouncer, Channel.poll, Debouncer.step, accept_last, hs, hc, hcount, hsample, hlast]
  rfl

/-- Any passes are steps of the debouncer: its count never leaves the range. -/
theorem debouncer_foldl {c : Channel} (h : c.sampleCount.toNat ≤ 3) (samples : List Bool) :
    (samples.foldl Channel.poll c).debouncer = samples.foldl (Debouncer.step 3) c.debouncer := by
  induction samples generalizing c with
  | nil => rfl
  | cons x samples ih =>
    have hstep := debouncer_poll h x
    have hcount : (c.poll x).sampleCount.toNat ≤ 3 := by
      rw [show (c.poll x).sampleCount.toNat = (c.debouncer.step 3 x).count from congrArg Debouncer.count hstep]
      simp only [Debouncer.step]
      split_ifs <;> omega
    rw [List.foldl_cons, List.foldl_cons, ← hstep]
    exact ih hcount

/-- After any samples the debouncer knows the boot reading, three times, and the samples. -/
theorem knows_foldl (ok : Bool) (samples : List Bool) :
    Knows 3 (List.replicate 3 ok ++ samples) (samples.foldl Channel.poll (.boot ok)).debouncer := by
  rw [debouncer_foldl le_rfl, debouncer_boot]
  exact (knows_steady (by omega) ok).foldl samples

/-- What an input is debounced to by its samples, the boot reading counted as three of them. -/
def debouncedTo (ok : Bool) (samples : List Bool) : Bool :=
  latestWindow 3 ok (List.replicate 3 ok ++ samples).reverse

/-- That is the value which the locals of the input end with. -/
theorem foldl_last (ok : Bool) (samples : List Bool) :
    (samples.foldl Channel.poll (.boot ok)).last = debouncedTo ok samples :=
  (knows_foldl ok samples).settled.unique (by omega) (settled_latestWindow (by omega) ok samples)

/-! ## The loop -/

theorem run_channels (m : Monitor) (polls : List Poll) :
    (monitor.run m polls).1.rx = (polls.map Poll.rxOk).foldl Channel.poll m.rx ∧
      (monitor.run m polls).1.tx = (polls.map Poll.txOk).foldl Channel.poll m.tx := by
  induction polls generalizing m with
  | nil => exact ⟨rfl, rfl⟩
  | cons p polls ih =>
    rw [Machine.run_cons, List.map_cons, List.map_cons, List.foldl_cons, List.foldl_cons]
    have h := ih (m.poll p.reading).1
    rwa [poll_rx, poll_tx] at h

/-- How an input's accepted value goes from one pass to the next, given all samples before (`hist`) and
the new one: it is the value of the most recent window, which a window of `v` stays for fewer than three
further samples; and it changes exactly at the third sample in a row. -/
structure Debounces (hist : List Bool) (sample before after : Bool) : Prop where
  settled : Settled 3 (hist ++ [sample]) after
  undisturbed : ∀ older recent v, hist ++ [sample] = older ++ List.replicate 3 v ++ recent → recent.length < 3 → after = v
  changes : after ≠ before ↔ sample ≠ before ∧ List.replicate 3 sample <:+ hist ++ [sample] ∧
    ¬List.replicate 4 sample <:+ hist ++ [sample]

theorem debounces_of_knows {hist : List Bool} {c : Channel} (h : Knows 3 hist c.debouncer) (sample : Bool) :
    Debounces hist sample c.last (c.poll sample).last := by
  have hstep := debouncer_poll h.count_le sample
  have hlast : (c.poll sample).last = (c.debouncer.step 3 sample).accepted := congrArg Debouncer.accepted hstep
  have hsettled : Settled 3 (hist ++ [sample]) (c.poll sample).last := by
    rw [hlast]; exact (h.step sample).settled
  refine ⟨hsettled, ?_, ?_⟩
  · intro older recent v heq hlen
    rw [heq] at hsettled
    exact hsettled.unique (by omega) (settled_append (List.suffix_append _ _) hlen)
  · rw [hlast]
    exact h.accepted_ne_iff sample

/-- Both inputs are debounced, each by its own samples, from the boot reading on. -/
theorem debounced (lcdOk rxOk txOk : Bool) (polls : List Poll) (p : Poll) :
    Debounces (List.replicate 3 rxOk ++ polls.map Poll.rxOk) p.rxOk
      (monitor.run (boot lcdOk rxOk txOk) polls).1.rx.last
      ((monitor.run (boot lcdOk rxOk txOk) polls).1.poll p.reading).2.acceptedRx ∧
    Debounces (List.replicate 3 txOk ++ polls.map Poll.txOk) p.txOk
      (monitor.run (boot lcdOk rxOk txOk) polls).1.tx.last
      ((monitor.run (boot lcdOk rxOk txOk) polls).1.poll p.reading).2.acceptedTx := by
  obtain ⟨hrx, htx⟩ := run_channels (boot lcdOk rxOk txOk) polls
  have hknows := knows_foldl rxOk (polls.map Poll.rxOk)
  have hknows' := knows_foldl txOk (polls.map Poll.txOk)
  rw [show Channel.boot rxOk = (boot lcdOk rxOk txOk).rx from rfl, ← hrx] at hknows
  rw [show Channel.boot txOk = (boot lcdOk rxOk txOk).tx from rfl, ← htx] at hknows'
  exact ⟨debounces_of_knows hknows p.rxOk, debounces_of_knows hknows' p.txOk⟩

end KeyboardProject.Debugger
