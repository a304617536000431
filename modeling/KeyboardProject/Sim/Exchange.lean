/-
The exchange of the RF tests (`proto/tests/mock_rf.rs`): a key report goes over the channel, and once more
if no ack has come. Both ends read from the one channel and tell their frames apart by the nonce they open
under. One retry is enough to mask the loss of the first frame.
-/
import KeyboardProject.Session.Nonce
import KeyboardProject.Sim.MockRf
import KeyboardProject.Wire.Authentic

namespace KeyboardProject.Sim

open Rust Rust.Outcome Proto Wire Session

/-- The bound on the turns of the inner loop was too small. -/
inductive Unfinished where
  | outOfFuel
  deriving DecidableEq, Repr

/-- What the loops of the exchange do not change: the AEAD, the session after `next_counter`, the counter it
returned, the keys to report, and the time the clock is advanced by. -/
structure Setting where
  aead : Aead
  session : SessionKeys
  counter : UInt32
  keys : List UInt8
  stepMs : UInt64

namespace Setting

/-! ## The packets -/

def keyReport (x : Setting) : Packet where
  header :=
    { sessionId := x.session.sessionId
      counter := x.counter
      kind := .keyReport
      flags := { encrypted := true, needsAck := true, retransmit := false } }
  payload := .keyReport x.keys
  mac := List.replicate demoConfig.security.macLen 0xAA

def ack (x : Setting) (counter ackCounter : UInt32) : Packet where
  header :=
    { sessionId := x.session.sessionId
      counter
      kind := .ack
      flags := { encrypted := true, needsAck := false, retransmit := false } }
  payload := .ack ackCounter
  mac := List.replicate demoConfig.security.macLen 0xBB

def keepalive (x : Setting) (counter : UInt32) : Packet where
  header :=
    { sessionId := x.session.sessionId
      counter
      kind := .keepAlive
      flags := { encrypted := true, needsAck := false, retransmit := false } }
  payload := .keepAlive
  mac := List.replicate demoConfig.security.macLen 0xCC

/-- The call of `seal_framed` on a packet, under the nonce of its own counter. -/
def sealPacket (x : Setting) (p : Packet) : Outcome CryptoError (List UInt8) :=
  sealFramed p demoConfig x.aead (x.session.nonceFor p.header.counter).1

/-! ## The loops -/

/-- The calls of the channel have no `Err`. -/
def infallible {ε α : Type} (call : Outcome Empty α) : Outcome ε α := call.mapErr Empty.elim

/-- What a frame that opened as data leads to: it is validated, and an ack and a keep-alive are sent. -/
def answer [Profile] (x : Setting) (parsed : Packet) (rf : MockRf (List UInt8)) :
    Outcome Unfinished (MockRf (List UInt8)) := do
  let last ← u32Sub x.counter 1
  expect (validatePacket parsed demoConfig (some x.session.sessionId) (some last))
  let ack := x.ack (← u32Add x.counter 1) parsed.header.counter
  let ackFrame ← expect (x.sealPacket ack)
  let rf ← infallible (rf.push ackFrame)
  let keepalive := x.keepalive (← u32Add ack.header.counter 1)
  let keepFrame ← expect (x.sealPacket keepalive)
  let rf ← infallible (rf.push keepFrame)
  pure (rf.advance x.stepMs)

/-- The frame opens as the ack of the key report. -/
def isAck [Target] (x : Setting) (rxFrame : List UInt8) : Outcome Unfinished Bool := do
  let ackNonce := deriveNonce x.session.salt (← u32Add x.counter 1)
  match openFramed rxFrame demoConfig x.aead ackNonce.1 with
  | .ok parsedAck => pure (decide (parsedAck.payload = .ack x.counter))
  | .err _ => pure false
  | .panic => .panic

/-- `while let Some(rx_frame) = rf.pop()`: whether the ack came, and the channel. -/
def receiveLoop [Target] [Profile] (x : Setting) : Nat → MockRf (List UInt8) → Outcome Unfinished (Bool × MockRf (List UInt8))
  | 0, _ => .err .outOfFuel
  | fuel + 1, rf => do
    match ← infallible rf.pop with
    | (none, rf) => pure (false, rf)
    | (some rxFrame, rf) =>
      match openFramed rxFrame demoConfig x.aead (x.session.nonceFor x.counter).1 with
      | .ok parsed => do
        let rf ← x.answer parsed rf
        x.receiveLoop fuel rf
      | .err _ => do
        if ← x.isAck rxFrame then pure (true, rf) else x.receiveLoop fuel rf
      | .panic => .panic

/-- One attempt: the key report is sealed and sent, and everything in flight is processed. -/
def attempt [Target] [Profile] (x : Setting) (fuel : Nat) (rf : MockRf (List UInt8)) :
    Outcome Unfinished (Bool × MockRf (List UInt8)) := do
  let frame ← expect (x.sealPacket x.keyReport)
  let rf ← infallible (rf.push frame)
  x.receiveLoop fuel (rf.advance x.stepMs)

end Setting

/-- The variables of the exchange that its outer loop changes. -/
structure Progress where
  acked : Bool
  attempts : Nat
  rf : MockRf (List UInt8)
  deriving DecidableEq, Repr

/-- `for attempt in 0..=MAX_RETRANSMIT_ATTEMPTS`, from an attempt on. -/
def attemptLoop [Target] [Profile] (x : Setting) (fuel : Nat) : List Nat → Progress → Outcome Unfinished Progress
  | [], s => pure s
  | attempt :: rest, s => do
    let attempts := attempt + 1
    let (acked, rf) ← x.attempt fuel s.rf
    if acked then pure { acked, attempts, rf }
    else if attempt = maxRetransmitAttempts.toNat then .panic
    else attemptLoop x fuel rest { acked, attempts, rf }

/-- The exchange, from a session on; `assert!(acked)` at its end. -/
def exchange [Target] [Profile] (fuel : Nat) (aead : Aead) (session : SessionKeys) (keys : List UInt8)
    (dropFirst reorder : Bool) (jitterMs stepMs : UInt64) : Outcome Unfinished Progress := do
  let (counter, session) := session.nextCounter
  let counter ← expect counter
  let x : Setting := { aead, session, counter, keys, stepMs }
  let s ← attemptLoop x fuel (List.range (maxRetransmitAttempts.toNat + 1))
    { acked := false, attempts := 0, rf := .new dropFirst reorder jitterMs }
  if s.acked then pure s else .panic

/-! ## The three frames -/

namespace Setting

/-- The call of `seal` on a packet. -/
def call (x : Setting) (p : Packet) : SealCall := sealCall p demoConfig (x.session.nonceFor p.header.counter).1

/-- The calls of `seal` that the exchange makes, retransmissions aside. -/
def calls (x : Setting) : List SealCall :=
  [x.call x.keyReport, x.call (x.ack (x.counter + 1) x.counter), x.call (x.keepalive (x.counter + 1 + 1))]

end Setting

theorem frameFits_demoConfig [Target] : FrameFits demoConfig := by
  have h := usizeMax_wide
  have hlen : headerLen + 2 + demoConfig.security.macLen = 28 := rfl
  rw [FrameFits, hlen]
  omega

theorem infallible_of_ok {ε α : Type} {call : Outcome Empty α} {a : α} (h : call = .ok a) :
    (Setting.infallible call : Outcome ε α) = .ok a := by rw [h]; rfl

/-- The keys fit a payload, and the counter is one that `next_counter` issues. -/
structure Setting.Valid (x : Setting) : Prop where
  keys_le : x.keys.length ≤ demoConfig.maxPayloadBytes.toNat
  counter_pos : 1 ≤ x.counter.toNat
  counter_lt : x.counter.toNat < 2 ^ 31

theorem counter_succ_succ_toNat {c : UInt32} (h : c.toNat < 2 ^ 31) : (c + 1 + 1).toNat = c.toNat + 2 := by
  have hone : (1 : UInt32).toNat = 1 := rfl
  rw [UInt32.toNat_add, counter_succ_toNat h, hone, Nat.mod_eq_of_lt (by omega)]

/-- Two counters have two nonces. -/
theorem nonceFor_ne (k : SessionKeys) {c d : UInt32} (h : c.toNat ≠ d.toNat) : (k.nonceFor c).1 ≠ (k.nonceFor d).1 :=
  fun heq => h (congrArg UInt32.toNat (nonceFor_inj k (Subtype.ext heq)))

section Exchange

variable [Target] {x : Setting} {data ack keep : List UInt8}

/-- A packet of the exchange is sealed into a frame that opens to it under its own nonce, and not under the
nonce of another packet of the exchange. -/
theorem exists_frame (haead : NonceBound x.aead x.calls) {p : Packet} (hp : x.call p ∈ x.calls)
    (hm : matchesValidKindPayload p.header.kind p.payload = true)
    (hle : payloadLen p.payload ≤ payloadLimit p.header.kind demoConfig) (hmac : p.mac.length = demoConfig.security.macLen) :
    ∃ b t, x.sealPacket p = .ok b ∧ t.length = demoConfig.security.macLen ∧
      openFramed b demoConfig x.aead (x.session.nonceFor p.header.counter).1 = .ok { p with mac := t } ∧
      ∀ q, x.call q ∈ x.calls → q.header.counter.toNat ≠ p.header.counter.toNat →
        (openFramed b demoConfig x.aead (x.session.nonceFor q.header.counter).1).IsErr := by
  have hlen : (encodePayload p.payload).length ≤ payloadLimit p.header.kind demoConfig := by
    rw [length_encodePayload]
    exact hle
  obtain ⟨b, t, hseal, ht, hopen, hother⟩ :=
    @NonceBound.frame _ x.aead x.calls demoConfig p (x.session.nonceFor p.header.counter).1 haead hp
      frameFits_demoConfig hm hlen hmac
  refine ⟨b, t, hseal, ht, hopen, fun q hq hne => ?_⟩
  exact hother (x.call q) hq (nonceFor_ne x.session hne)

/-- The frames of the exchange and under which of its nonces they open. -/
structure Frames (x : Setting) (data ack keep : List UInt8) : Prop where
  sealData : x.sealPacket x.keyReport = .ok data
  sealAck : x.sealPacket (x.ack (x.counter + 1) x.counter) = .ok ack
  sealKeep : x.sealPacket (x.keepalive (x.counter + 1 + 1)) = .ok keep
  openData : ∃ t, t.length = demoConfig.security.macLen ∧
    openFramed data demoConfig x.aead (x.session.nonceFor x.counter).1 = .ok { x.keyReport with mac := t }
  isAck : x.isAck ack = .ok true
  ack_not_data : (openFramed ack demoConfig x.aead (x.session.nonceFor x.counter).1).IsErr
  keep_not_data : (openFramed keep demoConfig x.aead (x.session.nonceFor x.counter).1).IsErr
  keep_not_ack : x.isAck keep = .ok false

theorem isAck_of_opens (hx : x.Valid) {rxFrame : List UInt8} {parsedAck : Packet}
    (h : openFramed rxFrame demoConfig x.aead (x.session.nonceFor (x.counter + 1)).1 = .ok parsedAck) :
    x.isAck rxFrame = .ok (decide (parsedAck.payload = .ack x.counter)) := by
  have hlt := hx.counter_lt
  rw [SessionKeys.nonceFor] at h
  rw [Setting.isAck, u32Add_one (by omega), ok_bind]
  simp only [h, pure_eq]

theorem isAck_of_isErr (hx : x.Valid) {rxFrame : List UInt8}
    (h : (openFramed rxFrame demoConfig x.aead (x.session.nonceFor (x.counter + 1)).1).IsErr) :
    x.isAck rxFrame = .ok false := by
  have hlt := hx.counter_lt
  obtain ⟨e, he⟩ := h
  rw [SessionKeys.nonceFor] at he
  rw [Setting.isAck, u32Add_one (by omega), ok_bind]
  simp only [he, pure_eq]

theorem exists_frames (hx : x.Valid) (haead : NonceBound x.aead x.calls) : ∃ data ack keep, Frames x data ack keep := by
  have hsucc := counter_succ_toNat hx.counter_lt
  have hsucc' := counter_succ_succ_toNat hx.counter_lt
  have hdata : x.call x.keyReport ∈ x.calls := by simp [Setting.calls]
  have hack : x.call (x.ack (x.counter + 1) x.counter) ∈ x.calls := by simp [Setting.calls]
  have hkeep : x.call (x.keepalive (x.counter + 1 + 1)) ∈ x.calls := by simp [Setting.calls]
  have hack_ne : x.keyReport.header.counter.toNat ≠ (x.ack (x.counter + 1) x.counter).header.counter.toNat := by
    show x.counter.toNat ≠ (x.counter + 1).toNat; omega
  have hkeep_ne : x.keyReport.header.counter.toNat ≠ (x.keepalive (x.counter + 1 + 1)).header.counter.toNat := by
    show x.counter.toNat ≠ (x.counter + 1 + 1).toNat; omega
  have hkeep_ne' : (x.ack (x.counter + 1) x.counter).header.counter.toNat ≠
      (x.keepalive (x.counter + 1 + 1)).header.counter.toNat := by
    show (x.counter + 1).toNat ≠ (x.counter + 1 + 1).toNat; omega
  obtain ⟨data, t, hsealData, ht, hopenData, -⟩ := exists_frame haead hdata rfl hx.keys_le List.length_replicate
  obtain ⟨ack, t', hsealAck, -, hopenAck, hotherAck⟩ :=
    exists_frame haead hack rfl (by show 4 ≤ 32; omega) List.length_replicate
  obtain ⟨keep, -, hsealKeep, -, -, hotherKeep⟩ :=
    exists_frame haead hkeep rfl (Nat.zero_le _) List.length_replicate
  have hisAck : x.isAck ack = .ok true := by
    rw [isAck_of_opens hx hopenAck]
    simp [Setting.ack]
  have hackData := hotherAck x.keyReport hdata hack_ne
  have hkeepData := hotherKeep x.keyReport hdata hkeep_ne
  have hkeepAck := hotherKeep (x.ack (x.counter + 1) x.counter) hack hkeep_ne'
  exact ⟨data, ack, keep, hsealData, hsealAck, hsealKeep, ⟨t, ht, hopenData⟩, hisAck, hackData, hkeepData,
    isAck_of_isErr hx hkeepAck⟩

/-! ## The inner loop -/

variable [Profile] {rf next : MockRf (List UInt8)}

omit [Target] [Profile] in
/-- The key report passes the receiver's checks against the counter before its own. -/
theorem validate_keyReport (hx : x.Valid) {t : List UInt8} (ht : t.length = demoConfig.security.macLen) :
    validatePacket { x.keyReport with mac := t } demoConfig (some x.session.sessionId) (some (x.counter - 1)) = .ok () := by
  have hpos := hx.counter_pos
  have hlast : (x.counter - 1).toNat = x.counter.toNat - 1 := UInt32.toNat_sub_of_le _ _ (UInt32.le_iff_toNat_le.2 hpos)
  have hmac : t ≠ [] := by rintro rfl; exact absurd ht (by decide)
  refine validatePacket_eq_ok.2 ⟨⟨hmac, ht, fun s hs => Option.some.inj hs, hx.keys_le⟩, fun last hl => ?_⟩
  obtain rfl := Option.some.inj hl
  show (x.counter - 1).toNat < x.counter.toNat ∧ x.counter.toNat ≤ (x.counter - 1).toNat + 50
  omega

/-- The channel after the answer to a key report: the ack and the keep-alive are on it. -/
def answered (x : Setting) (ack keep : List UInt8) (rf : MockRf (List UInt8)) : MockRf (List UInt8) :=
  let deliverAt := rf.runtime.nowMs + rf.config.jitterMs
  ((rf.enqueue deliverAt ack).enqueue deliverAt keep).advance x.stepMs

/-- Answering seals, validates and pushes without a failure. -/
theorem answer_eq (hx : x.Valid) (hf : Frames x data ack keep) {t : List UInt8} (ht : t.length = demoConfig.security.macLen)
    (hdrops : ¬rf.Drops) (hfits : rf.runtime.nowMs.toNat + rf.config.jitterMs.toNat < 2 ^ 64) :
    x.answer { x.keyReport with mac := t } rf = .ok (answered x ack keep rf) := by
  have hlt := hx.counter_lt
  have hsucc := counter_succ_toNat hlt
  have hsub : (u32Sub x.counter 1 : Outcome Unfinished UInt32) = .ok (x.counter - 1) :=
    u32Sub_ok (UInt32.le_iff_toNat_le.2 hx.counter_pos)
  have hdrops' := MockRf.not_drops_enqueue rf (rf.runtime.nowMs + rf.config.jitterMs) ack
  -- each line of the body in turn
  refine bind_eq_ok.2 ⟨_, hsub, ?_⟩
  refine bind_eq_ok.2 ⟨(), expect_of_ok (validate_keyReport hx ht), ?_⟩
  refine bind_eq_ok.2 ⟨_, u32Add_one (by omega), ?_⟩
  refine bind_eq_ok.2 ⟨ack, expect_of_ok hf.sealAck, ?_⟩
  refine bind_eq_ok.2 ⟨_, infallible_of_ok (MockRf.push_queues hdrops hfits ack), ?_⟩
  refine bind_eq_ok.2 ⟨_, @u32Add_one Unfinished (x.counter + 1) (by omega), ?_⟩
  refine bind_eq_ok.2 ⟨keep, expect_of_ok hf.sealKeep, ?_⟩
  exact bind_eq_ok.2 ⟨_, infallible_of_ok (MockRf.push_queues hdrops' hfits keep), rfl⟩

theorem receive_none (fuel : Nat) (h : rf.pop = .ok (none, next)) : x.receiveLoop (fuel + 1) rf = .ok (false, next) := by
  rw [Setting.receiveLoop, infallible_of_ok h, ok_bind]
  rfl

theorem receive_data (hf : Frames x data ack keep) (fuel : Nat) (h : rf.pop = .ok (some data, next)) :
    ∃ t, t.length = demoConfig.security.macLen ∧
      x.receiveLoop (fuel + 1) rf = (x.answer { x.keyReport with mac := t } next >>= x.receiveLoop fuel) := by
  obtain ⟨t, ht, hopen⟩ := hf.openData
  refine ⟨t, ht, ?_⟩
  rw [Setting.receiveLoop, infallible_of_ok h, ok_bind]
  simp only [hopen]

/-- A frame that does not open as data is an ack, or is ignored. -/
theorem receive_other {rxFrame : List UInt8} {isAck : Bool} (fuel : Nat) (h : rf.pop = .ok (some rxFrame, next))
    (hdata : (openFramed rxFrame demoConfig x.aead (x.session.nonceFor x.counter).1).IsErr)
    (hack : x.isAck rxFrame = .ok isAck) :
    x.receiveLoop (fuel + 1) rf = if isAck then .ok (true, next) else x.receiveLoop fuel next := by
  obtain ⟨e, he⟩ := hdata
  rw [Setting.receiveLoop, infallible_of_ok h, ok_bind]
  simp only [he, hack, ok_bind]
  rfl

/-- After the answer the ack is found, whether or not the keep-alive has got in ahead of it. -/
theorem receive_answered (hf : Frames x data ack keep) (hempty : rf.runtime.queue = [])
    (hle : rf.config.jitterMs.toNat ≤ x.stepMs.toNat)
    (hfits : rf.runtime.nowMs.toNat + rf.config.jitterMs.toNat < 2 ^ 64) :
    ∃ last, ∀ fuel, x.receiveLoop (fuel + 2) (answered x ack keep rf) = .ok (true, last) := by
  have hdue : ∀ frame, (answered x ack keep rf).Due (rf.runtime.nowMs + rf.config.jitterMs, frame) :=
    MockRf.due_enqueue_advance hle hfits ack
  have hqueue : (answered x ack keep rf).runtime.queue =
      Line.join rf.config.reorder [(rf.runtime.nowMs + rf.config.jitterMs, ack)] (rf.runtime.nowMs + rf.config.jitterMs, keep) := by
    simp [answered, MockRf.enqueue, hempty]
  cases hreorder : rf.config.reorder with
  | false =>
    rw [hreorder, Line.join_false, List.singleton_append] at hqueue
    have hpop := MockRf.pop_cons hqueue (hdue ack)
    exact ⟨_, fun fuel => receive_other (fuel + 1) hpop hf.ack_not_data hf.isAck⟩
  | true =>
    rw [hreorder, ← List.nil_append [_], Line.join_concat] at hqueue
    -- the keep-alive is ignored, and then the ack is the first in line
    have hpop := MockRf.pop_cons hqueue (hdue keep)
    generalize hrest : (answered x ack keep rf).deliver [(rf.runtime.nowMs + rf.config.jitterMs, ack)] = rest at hpop
    have hpop' := @MockRf.pop_cons _ rest _ [] (by rw [← hrest]; rfl) (by rw [← hrest]; exact hdue ack)
    refine ⟨rest.deliver [], fun fuel => ?_⟩
    rw [receive_other (fuel + 1) hpop hf.keep_not_data hf.keep_not_ack]
    exact receive_other fuel hpop' hf.ack_not_data hf.isAck

/-- An attempt whose frame is not dropped is acknowledged. -/
theorem attempt_acked (hx : x.Valid) (hf : Frames x data ack keep) (hdrops : ¬rf.Drops) (hempty : rf.runtime.queue = [])
    (hle : rf.config.jitterMs.toNat ≤ x.stepMs.toNat)
    (hclock : rf.runtime.nowMs.toNat + x.stepMs.toNat + rf.config.jitterMs.toNat < 2 ^ 64) :
    ∃ last, ∀ fuel, x.attempt (fuel + 3) rf = .ok (true, last) := by
  have hfits : rf.runtime.nowMs.toNat + rf.config.jitterMs.toNat < 2 ^ 64 := by omega
  generalize hsent : (rf.enqueue (rf.runtime.nowMs + rf.config.jitterMs) data).advance x.stepMs = sent
  have hqueue : sent.runtime.queue = [(rf.runtime.nowMs + rf.config.jitterMs, data)] := by
    simp [← hsent, MockRf.enqueue, hempty]
  have hpop := MockRf.pop_cons hqueue (hsent ▸ MockRf.due_enqueue_advance hle hfits data data)
  -- the answer finds an empty channel, one step of the clock later at most
  have hconfig : (sent.deliver []).config = rf.config := by rw [← hsent]; rfl
  have hnow : (sent.deliver []).runtime.nowMs.toNat ≤ rf.runtime.nowMs.toNat + x.stepMs.toNat := by
    rw [← hsent]
    show (u64SaturatingAdd rf.runtime.nowMs x.stepMs).toNat ≤ _
    rw [u64SaturatingAdd_toNat]
    omega
  have hseen : ¬(sent.deliver []).Drops := by rw [← hsent]; simp
  have hfits' : (sent.deliver []).runtime.nowMs.toNat + (sent.deliver []).config.jitterMs.toNat < 2 ^ 64 := by
    rw [hconfig]; omega
  have hempty' : (sent.deliver []).runtime.queue = [] := rfl
  obtain ⟨last, hlast⟩ := receive_answered hf hempty' (by rw [hconfig]; exact hle) hfits'
  refine ⟨last, fun fuel => ?_⟩
  obtain ⟨t, ht, hreceive⟩ := receive_data hf (fuel + 2) hpop
  refine bind_eq_ok.2 ⟨_, expect_of_ok hf.sealData, ?_⟩
  refine bind_eq_ok.2 ⟨_, infallible_of_ok (MockRf.push_queues hdrops hfits data), ?_⟩
  rw [hsent, hreceive, answer_eq hx hf ht hseen hfits', ok_bind]
  exact hlast fuel

/-- An attempt whose frame is dropped finds nothing on the channel. -/
theorem attempt_dropped (hf : Frames x data ack keep) (hdrops : rf.Drops) (hempty : rf.runtime.queue = []) (fuel : Nat) :
    x.attempt (fuel + 1) rf = .ok (false, rf.drop.advance x.stepMs) := by
  have hnone : ∀ entry ∈ (rf.drop.advance x.stepMs).runtime.queue, ¬(rf.drop.advance x.stepMs).Due entry := by
    have hqueue : (rf.drop.advance x.stepMs).runtime.queue = [] := hempty
    rw [hqueue]
    exact fun _ hentry => nomatch hentry
  refine bind_eq_ok.2 ⟨_, expect_of_ok hf.sealData, ?_⟩
  refine bind_eq_ok.2 ⟨_, infallible_of_ok (MockRf.push_drops hdrops data), ?_⟩
  exact receive_none fuel (MockRf.pop_of_not_due hnone)

/-! ## One retry -/

/-- The outer loop: one attempt is enough, or two if the first frame is dropped. -/
theorem attemptLoop_acked (hx : x.Valid) (hf : Frames x data ack keep) (dropFirst reorder : Bool) {jitterMs : UInt64}
    (hle : jitterMs.toNat ≤ x.stepMs.toNat)
    (hclock : (if dropFirst then 2 else 1) * x.stepMs.toNat + jitterMs.toNat < 2 ^ 64) :
    ∃ rf, ∀ fuel, 3 ≤ fuel →
      attemptLoop x fuel [0, 1] { acked := false, attempts := 0, rf := .new dropFirst reorder jitterMs } =
        .ok { acked := true, attempts := if dropFirst then 2 else 1, rf } := by
  have hzero : (0 : UInt64).toNat = 0 := rfl
  have hmax : ¬(0 = maxRetransmitAttempts.toNat) := by decide
  cases dropFirst with
  | false =>
    have hdrops : ¬(MockRf.new false reorder jitterMs : MockRf (List UInt8)).Drops := by simp [MockRf.Drops, MockRf.new]
    have hclock' : (0 : UInt64).toNat + x.stepMs.toNat + jitterMs.toNat < 2 ^ 64 := by
      simp only [Bool.false_eq_true, if_false] at hclock; omega
    obtain ⟨last, hlast⟩ := attempt_acked hx hf hdrops rfl hle hclock'
    refine ⟨last, fun fuel hfuel => ?_⟩
    obtain ⟨n, rfl⟩ := Nat.exists_eq_add_of_le' hfuel
    rw [attemptLoop, hlast n, ok_bind]
    rfl
  | true =>
    -- the first frame is dropped, and the channel is left empty
    generalize hrf : (MockRf.new true reorder jitterMs : MockRf (List UInt8)) = rf₀
    have hdrops : rf₀.Drops := by rw [← hrf]; exact ⟨rfl, rfl⟩
    have hempty : rf₀.runtime.queue = [] := by rw [← hrf]; rfl
    have hdrops' : ¬(rf₀.drop.advance x.stepMs).Drops := by simp
    have hconfig : (rf₀.drop.advance x.stepMs).config.jitterMs = jitterMs := by rw [← hrf]; rfl
    have hnow : (rf₀.drop.advance x.stepMs).runtime.nowMs.toNat ≤ x.stepMs.toNat := by
      rw [← hrf]
      show (u64SaturatingAdd 0 x.stepMs).toNat ≤ _
      rw [u64SaturatingAdd_toNat]
      omega
    simp only [if_true] at hclock
    obtain ⟨last, hlast⟩ := attempt_acked hx hf hdrops' hempty (by rw [hconfig]; exact hle)
      (by rw [hconfig]; omega)
    refine ⟨last, fun fuel hfuel => ?_⟩
    obtain ⟨n, rfl⟩ := Nat.exists_eq_add_of_le' hfuel
    rw [attemptLoop, attempt_dropped hf hdrops hempty (n + 2), ok_bind]
    simp only [Bool.false_eq_true, if_false, if_neg hmax]
    rw [attemptLoop, hlast n, ok_bind]
    rfl

end Exchange

/-- The session of the RF test. -/
def testSession : SessionKeys := .new 0x778899AA ⟨List.replicate sessionSaltBytes 0xCC, rfl⟩

end KeyboardProject.Sim
