/-
Warm wakes (`keyboard_task` of the firmware skeleton). The keyboard goes on with a cached session from a
persisted counter and needs no handshake. Whether the peer hears it is up to that counter: when it is not past
what the peer has taken it is a replay, and when it has moved too far it is a jump, for good.
-/
import KeyboardProject.Session.Loss
import KeyboardProject.Session.Refinement

namespace KeyboardProject.Session

open Rust Rust.Outcome Proto Wire

/-! ## The wake -/

def wakeReport (cfg : ProtocolConfig) (session : SessionKeys) (counter : UInt32) (keys : List UInt8) (tag : UInt8) :
    Packet where
  header :=
    { sessionId := session.sessionId
      counter
      kind := .keyReport
      flags := { encrypted := true, needsAck := true, retransmit := false } }
  payload := .keyReport keys
  mac := List.replicate cfg.security.macLen tag

/-- `keyboard_task` from a cached session and a persisted counter: the counter it sends under, and the frame. -/
def warmWake (cfg : ProtocolConfig) (aead : Aead) (session : SessionKeys) (persisted : UInt32) (keys : List UInt8)
    (tag : UInt8) : Outcome Empty (UInt32 × List UInt8) := do
  let (counter, session) := (session.resumeFrom persisted).nextCounter
  let counter ← expect counter
  let keyReport := wakeReport cfg session counter keys tag
  let last ← u32Sub counter 1
  expect (validatePacket keyReport cfg (some session.sessionId) (some last))
  let nonce := deriveNonce session.salt counter
  let frame ← expect (sealFramed keyReport cfg aead nonce.1)
  pure (counter, frame)

def cachedSession : SessionKeys := .new 0xFEEDF00D (fill sessionSaltBytes 0x99)

/-- What `keyboard_task` prints: the counter and the frame's length. -/
def keyboardTask : Outcome Empty (UInt32 × Nat) := do
  let (counter, frame) ← warmWake demoConfig dummyAead cachedSession 7 [0x04] 0x55
  pure (counter, frame.length)

section Wake

variable {cfg : ProtocolConfig} {aead : Aead} {session : SessionKeys} {persisted : UInt32} {keys : List UInt8} {tag : UInt8}

theorem wellFormed_wakeReport {counter : UInt32} {expected : Option UInt32}
    (hsession : ∀ s, expected = some s → session.sessionId = s) :
    WellFormed (wakeReport cfg session counter keys tag) cfg expected ↔
      0 < cfg.security.macLen ∧ keys.length ≤ cfg.maxPayloadBytes.toNat := by
  constructor
  · intro hwf
    exact ⟨Nat.pos_of_ne_zero fun hzero => hwf.mac_ne (by simp [wakeReport, hzero]), hwf.payload_le⟩
  · rintro ⟨hmac, hkeys⟩
    exact ⟨replicate_macLen_ne_nil hmac _, List.length_replicate, hsession, hkeys⟩

theorem validate_wakeReport {counter : UInt32} (hpos : 1 ≤ counter.toNat) :
    validatePacket (wakeReport cfg session counter keys tag) cfg (some session.sessionId) (some (counter - 1)) = .ok () ↔
      0 < cfg.security.macLen ∧ keys.length ≤ cfg.maxPayloadBytes.toNat := by
  have hlast : (counter - 1).toNat = counter.toNat - 1 := UInt32.toNat_sub_of_le _ _ (UInt32.le_iff_toNat_le.2 hpos)
  rw [validatePacket_eq_ok, wellFormed_wakeReport fun _ => Option.some.inj]
  refine and_iff_left fun l hl => ?_
  obtain rfl := Option.some.inj hl
  show (counter - 1).toNat < counter.toNat ∧ counter.toNat ≤ (counter - 1).toNat + 50
  omega

/-- A peer that has taken this counter last, or none yet, takes `counter` next. -/
def Hears (last : Option UInt32) (counter : UInt32) : Prop := ∀ l ∈ last, InWindow l counter

instance : (last : Option UInt32) → (counter : UInt32) → Decidable (Hears last counter)
  | none, _ => isTrue nofun
  | some l, counter => decidable_of_iff (InWindow l counter) (by simp [Hears])

/-- A wake sends under the persisted counter, or 1, and panics otherwise. -/
theorem warmWake_eq_ok {c : UInt32} {b : List UInt8} :
    warmWake cfg aead session persisted keys tag = .ok (c, b) ↔
      c = max persisted 1 ∧ c < counterRekeyThreshold ∧ 0 < cfg.security.macLen ∧
        keys.length ≤ cfg.maxPayloadBytes.toNat ∧
          sealFramed (wakeReport cfg session c keys tag) cfg aead (session.nonceFor c).1 = .ok b := by
  have hpos := one_le_resumeFrom session persisted
  rw [UInt32.lt_iff_toNat_lt, counterRekeyThreshold_toNat]
  unfold warmWake
  rw [nextCounter_eq]
  by_cases hlt : (session.resumeFrom persisted).counter.toNat < 2 ^ 31
  swap
  · rw [if_neg hlt]
    constructor
    · intro h; contradiction
    · rintro ⟨rfl, h, -⟩; exact absurd h hlt
  rw [if_pos hlt]
  have hsub : (u32Sub (session.resumeFrom persisted).counter 1 : Outcome Empty UInt32) = .ok _ := u32Sub_ok hpos
  simp only [expect_ok, ok_bind, hsub, bind_eq_ok, expect_eq_ok, pure_eq, ok.injEq, Prod.mk.injEq]
  constructor
  · rintro ⟨_, hcheck, frame, hseal, rfl, rfl⟩
    obtain ⟨hmac, hkeys⟩ := (validate_wakeReport (UInt32.le_iff_toNat_le.1 hpos)).1 hcheck
    exact ⟨rfl, hlt, hmac, hkeys, hseal⟩
  · rintro ⟨rfl, -, hmac, hkeys, hseal⟩
    exact ⟨(), (validate_wakeReport (UInt32.le_iff_toNat_le.1 hpos)).2 ⟨hmac, hkeys⟩, b, hseal, rfl, rfl⟩

/-- A warm wake needs no handshake: it sends one frame under the persisted counter, exactly if that is below the
threshold, a tag is asked for, the keys fit and the AEAD seals; and the peer hears that frame, whatever it has
taken before, exactly if the counter is ahead of its own by at most 50. -/
theorem warm_wake_heard [Target] (haead : aead.Lawful) (hc : FrameFits cfg) {c : UInt32} {b : List UInt8} :
    (warmWake cfg aead session persisted keys tag = .ok (c, b) ↔
      c = max persisted 1 ∧ c < counterRekeyThreshold ∧ 0 < cfg.security.macLen ∧
        keys.length ≤ cfg.maxPayloadBytes.toNat ∧
          sealFramed (wakeReport cfg session c keys tag) cfg aead (session.nonceFor c).1 = .ok b) ∧
    (warmWake cfg aead session persisted keys tag = .ok (c, b) → ∀ last : Option UInt32,
      (receiver cfg aead session.sessionId session.salt).run last [b] =
        if Hears last c then (some c, [((wakeReport cfg session c keys tag).header, .keyReport keys)])
        else (last, [])) := by
  refine ⟨warmWake_eq_ok, fun h last => ?_⟩
  obtain ⟨-, -, hmac, hkeys, hseal⟩ := warmWake_eq_ok.1 h
  have hwf : WellFormed (wakeReport cfg session c keys tag) cfg (some session.sessionId) :=
    (wellFormed_wakeReport fun _ => Option.some.inj).2 ⟨hmac, hkeys⟩
  obtain ⟨t, ht⟩ := unframe_frame haead hc rfl hwf hseal
  have hiff : (∀ l ∈ last.map UInt32.toNat, Window.Ahead 50 l c.toNat) ↔ Hears last c := by
    cases last <;> simp [Hears, InWindow]
  have hreceive : receive cfg aead session.sessionId session.salt last b =
      if Hears last c then some { wakeReport cfg session c keys tag with mac := t } else none := by
    rw [receive_eq_filter, ht, Option.filter_some]
    exact if_congr (decide_eq_true_iff.trans hiff) rfl rfl
  rw [Machine.run_cons, Machine.run_nil, List.append_nil]
  by_cases hopens : Hears last c
  · rw [if_pos hopens] at hreceive ⊢
    simp only [receiver, hreceive]
    rfl
  · rw [if_neg hopens] at hreceive ⊢
    simp only [receiver, hreceive]

end Wake

example : keyboardTask = .ok (7, 29) := by decide +kernel

/-- The peer of the firmware skeleton has taken the counter 6 and hears the wake. -/
theorem warm_wake_heard_task :
    ∃ b, warmWake demoConfig dummyAead cachedSession 7 [0x04] 0x55 = .ok (7, b) ∧
      ((@receiver target64 demoConfig dummyAead cachedSession.sessionId cachedSession.salt).run (some 6) [b]).1 = some 7 := by
  have htask : keyboardTask = .ok (7, 29) := by decide +kernel
  obtain ⟨⟨c, b⟩, hwake, hprint⟩ := bind_eq_ok.1 htask
  obtain rfl : c = 7 := (Prod.mk.inj (ok.inj hprint)).1
  obtain ⟨-, hheard⟩ := @warm_wake_heard demoConfig dummyAead cachedSession 7 [0x04] 0x55 target64 lawful_dummyAead
    (by decide) 7 b
  refine ⟨b, hwake, ?_⟩
  rw [hheard hwake (some 6), if_pos (by decide)]

/-! ## A life with any number of wakes -/

/-- The counters of the packets that the channel delivered. -/
def deliveredCounters (sent : List (Packet × Bool)) : List Nat :=
  (sent.filter Prod.snd).map fun x => x.1.header.counter.toNat

section Wakes

variable {cfg : ProtocolConfig} {expectedSession : Option UInt32}

/-- The validator takes the packets that the window takes. -/
theorem validator_last {sent : List (Packet × Bool)} (hwf : ∀ x ∈ sent, WellFormed x.1 cfg expectedSession) (last : UInt32) :
    ((validator cfg expectedSession).run last sent).1.toNat = Acceptor.lastTaken 50 last.toNat (deliveredCounters sent) := by
  induction sent generalizing last with
  | nil => rfl
  | cons x sent ih =>
    obtain ⟨p, delivered⟩ := x
    obtain ⟨hp, hrest⟩ := List.forall_mem_cons.1 hwf
    rw [Machine.run_cons, validator_step hp, ih hrest]
    cases delivered with
    | false => rfl
    | true =>
      have hstep : Acceptor.lastTaken 50 last.toNat (deliveredCounters ((p, true) :: sent)) =
          Acceptor.lastTaken 50 (if InWindow last p.header.counter then p.header.counter.toNat else last.toNat)
            (deliveredCounters sent) := rfl
      rw [hstep]
      by_cases hwin : InWindow last p.header.counter
      · rw [if_pos ⟨rfl, hwin⟩, if_pos hwin]
      · rw [if_neg fun h => hwin h.2, if_neg hwin]

/-- Every verdict over the life of a session with any number of warm wakes, as long as no counter that is set
falls below one that was issued: from whatever counter the peer starts, and whatever an in-order channel loses,
a delivered packet is accepted exactly if it is ahead of that counter and the delivered counters that lead to it
come within 50 of each other; it is a replay exactly if it repeats the peer's counter, and a jump otherwise. -/
theorem wakes_verdict {k : SessionKeys} {ops : List SessionOp} (hforward : session.Along MovesForward [] k ops)
    {sent before after : List (Packet × Bool)} {p : Packet}
    (hcounters : sent.map (fun x => x.1.header.counter) = (session.run k ops).2)
    (hwf : ∀ x ∈ sent, WellFormed x.1 cfg expectedSession) (hsent : sent = before ++ (p, true) :: after) (last : UInt32) :
    validatePacket p cfg expectedSession (some ((validator cfg expectedSession).run last before).1) =
      if p.header.counter = last then .err .replayDetected
      else if last < p.header.counter ∧ Acceptor.Linked 50 last.toNat (deliveredCounters (before ++ [(p, true)])) then .ok ()
      else .err .counterJump := by
  subst hsent
  have hbefore : ∀ x ∈ before, WellFormed x.1 cfg expectedSession := fun x hx => hwf x (List.mem_append_left _ hx)
  have hlast := validator_last hbefore last
  generalize ((validator cfg expectedSession).run last before).1 = taken at hlast
  -- the counters of the delivered packets go up to that of `p`
  have hconcat : deliveredCounters (before ++ [(p, true)]) = deliveredCounters before ++ [p.header.counter.toNat] := by
    simp [deliveredCounters]
  have hinc : (deliveredCounters before ++ [p.header.counter.toNat]).Pairwise (· < ·) := by
    have hissued := (run_pairwise hforward).1
    rw [← hcounters, List.pairwise_map] at hissued
    have hprefix : (before ++ [(p, true)]).Sublist (before ++ (p, true) :: after) :=
      (List.Sublist.refl _).append (List.singleton_sublist.2 List.mem_cons_self)
    have hdelivered := hissued.sublist ((List.filter_sublist (p := Prod.snd)).trans hprefix)
    rw [← hconcat, deliveredCounters, List.pairwise_map]
    exact hdelivered.imp UInt32.lt_iff_toNat_lt.1
  have hwin : InWindow taken p.header.counter ↔ last < p.header.counter ∧
      Acceptor.Linked 50 last.toNat (deliveredCounters before ++ [p.header.counter.toNat]) := by
    rw [InWindow, hlast, UInt32.lt_iff_toNat_lt]
    exact Acceptor.ahead_lastTaken_iff hinc
  have hreplay : p.header.counter = taken ↔ p.header.counter = last := by
    rw [← UInt32.toNat_inj, ← UInt32.toNat_inj, hlast]
    rcases Acceptor.lastTaken_mem 50 last.toNat (deliveredCounters before) with h | h
    · rw [h]
    · -- what was taken is below `p`, and nothing is taken but above `last`
      have hbelow := (List.pairwise_append.1 hinc).2.2 _ h _ (List.mem_singleton_self _)
      have hle := Acceptor.le_lastTaken 50 last.toNat (deliveredCounters before)
      omega
  rw [validatePacket_some (hwf (p, true) (by simp)), hconcat]
  simp only [hreplay, hwin]

end Wakes

/-- A fresh session sends one report, and another after each of two wakes, 30 and 60 counters on. -/
def twoWakes : List SessionOp := [.nextCounter, .resumeFrom 31, .nextCounter, .resumeFrom 91, .nextCounter]

/-- The report of the first wake is lost, and so the second wake is not heard. -/
theorem wakes_verdict_twoWakes :
    validatePacket (sampleKeyReport demoConfig 91) demoConfig (some sampleSession.sessionId)
        (some ((validator demoConfig (some sampleSession.sessionId)).run 0
          [(sampleKeyReport demoConfig 1, true), (sampleKeyReport demoConfig 31, false)]).1) =
      .err .counterJump := by
  have h := @wakes_verdict demoConfig (some sampleSession.sessionId) sampleSession twoWakes (by decide)
    [(sampleKeyReport demoConfig 1, true), (sampleKeyReport demoConfig 31, false), (sampleKeyReport demoConfig 91, true)]
    [(sampleKeyReport demoConfig 1, true), (sampleKeyReport demoConfig 31, false)] [] (sampleKeyReport demoConfig 91)
    (by decide) ?_ rfl 0
  · rwa [if_neg (by decide), if_neg (by decide)] at h
  · have hwf := @sampleKeyReport_wellFormed demoConfig (by decide) (by decide)
    simp [hwf]

end KeyboardProject.Session
