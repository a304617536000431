/-
Two more exchanges of the RF tests. A warm wake (`proto/tests/warm_wake_rf.rs`) sends its report before the clock
moves, and once more a step later; an exchange whose first ack is withheld (`mock_rf_drop_ack_stops_after_retry`)
never moves the clock. So the one waits for a step of the clock and no longer, and the other for nothing.
-/
import KeyboardProject.Sim.Exchange

namespace KeyboardProject.Sim

open Rust Rust.Outcome Proto Wire Session

namespace Setting

/-! ## The loops -/

/-- `while let Some(rx) = rf.pop()` of the RF tests. They differ in what a frame that opened as data leads to, and
in whether the ack ends the loop. -/
def pump [Target] [Profile] (x : Setting) (answer : Packet → MockRf (List UInt8) → Outcome Unfinished (MockRf (List UInt8)))
    (breaks : Bool) : Nat → Bool → MockRf (List UInt8) → Outcome Unfinished (Bool × MockRf (List UInt8))
  | 0, _, _ => .err .outOfFuel
  | fuel + 1, acked, rf => do
    match ← infallible rf.pop with
    | (none, rf) => pure (acked, rf)
    | (some rxFrame, rf) =>
      match openFramed rxFrame demoConfig x.aead (x.session.nonceFor x.counter).1 with
      | .ok parsed => do
        let rf ← answer parsed rf
        x.pump answer breaks fuel acked rf
      | .err _ => do
        if ← x.isAck rxFrame then
          if breaks then pure (true, rf) else x.pump answer breaks fuel true rf
        else x.pump answer breaks fuel acked rf
      | .panic => .panic

/-- The receiver's checks. -/
def check (x : Setting) (parsed : Packet) : Outcome Unfinished Unit := do
  let last ← u32Sub x.counter 1
  expect (validatePacket parsed demoConfig (some x.session.sessionId) (some last))

def pushAck [Profile] (x : Setting) (parsed : Packet) (rf : MockRf (List UInt8)) :
    Outcome Unfinished (MockRf (List UInt8)) := do
  let ack := x.ack (← u32Add x.counter 1) parsed.header.counter
  let ackFrame ← expect (x.sealPacket ack)
  infallible (rf.push ackFrame)

/-- The answer of the warm wake's peer. -/
def answerWake [Profile] (x : Setting) (parsed : Packet) (rf : MockRf (List UInt8)) :
    Outcome Unfinished (MockRf (List UInt8)) := do
  x.check parsed
  let rf ← x.pushAck parsed rf
  pure (rf.advance x.stepMs)

/-- The answer of a peer whose ack to the first attempt is lost. -/
def answerLate [Profile] (x : Setting) (attempts : Nat) (parsed : Packet) (rf : MockRf (List UInt8)) :
    Outcome Unfinished (MockRf (List UInt8)) := do
  x.check parsed
  if attempts = 1 then pure rf else x.pushAck parsed rf

/-- `while retries <= MAX_RETRANSMIT_ATTEMPTS` of the warm wake, with the retries that are left. -/
def wakeLoop [Target] [Profile] (x : Setting) (fuel : Nat) : Nat → Progress → Outcome Unfinished Progress
  | left, s => do
    let attempts := s.attempts + 1
    let (acked, rf) ← x.pump x.answerWake true fuel s.acked s.rf
    if acked then pure { acked, attempts, rf }
    else
      match left with
      | 0 => pure { acked, attempts, rf }
      | left + 1 => do
        let frame ← expect (x.sealPacket x.keyReport)
        let rf ← infallible (rf.push frame)
        x.wakeLoop fuel left { acked, attempts, rf := rf.advance x.stepMs }

/-- `while attempts <= MAX_RETRANSMIT_ATTEMPTS` of the exchange whose first ack is lost, with the attempts that are
left. -/
def lateLoop [Target] [Profile] (x : Setting) (fuel : Nat) : Nat → Progress → Outcome Unfinished Progress
  | 0, s => pure s
  | left + 1, s => do
    let attempts := s.attempts + 1
    let frame ← expect (x.sealPacket x.keyReport)
    let rf ← infallible (s.rf.push frame)
    let (acked, rf) ← x.pump (x.answerLate attempts) false fuel s.acked rf
    if acked then pure { acked, attempts, rf } else x.lateLoop fuel left { acked, attempts, rf }

end Setting

/-- The warm wake, from a cached session and a persisted counter; `assert!(acked)` at its end. -/
def warmWakeExchange [Target] [Profile] (fuel : Nat) (aead : Aead) (session : SessionKeys) (persisted : UInt32)
    (keys : List UInt8) (dropFirst reorder : Bool) (jitterMs stepMs : UInt64) : Outcome Unfinished Progress := do
  let (counter, session) := (session.resumeFrom persisted).nextCounter
  let counter ← expect counter
  let x : Setting := { aead, session, counter, keys, stepMs }
  let frame ← expect (x.sealPacket x.keyReport)
  let rf ← Setting.infallible ((MockRf.new dropFirst reorder jitterMs).push frame)
  let s ← x.wakeLoop fuel maxRetransmitAttempts.toNat { acked := false, attempts := 0, rf }
  if s.acked then pure s else .panic

/-- The exchange whose first ack is lost, with the two assertions at its end. -/
def lateAckExchange [Target] [Profile] (fuel : Nat) (aead : Aead) (session : SessionKeys) (keys : List UInt8)
    (dropFirst reorder : Bool) (jitterMs : UInt64) : Outcome Unfinished Progress := do
  let (counter, session) := session.nextCounter
  let counter ← expect counter
  let x : Setting := { aead, session, counter, keys, stepMs := 0 }
  let s ← x.lateLoop fuel (maxRetransmitAttempts.toNat + 1)
    { acked := false, attempts := 0, rf := .new dropFirst reorder jitterMs }
  if s.attempts = maxRetransmitAttempts.toNat + 1 ∧ s.acked then pure s else .panic

/-! ## The two frames -/

/-- The calls of `seal` that the exchanges make, retransmissions aside. -/
def Setting.twoCalls (x : Setting) : List SealCall := [x.call x.keyReport, x.call (x.ack (x.counter + 1) x.counter)]

/-- The frames of the exchanges and what they open as. -/
structure TwoFrames [Target] (x : Setting) (data ack : List UInt8) : Prop where
  sealData : x.sealPacket x.keyReport = .ok data
  sealAck : x.sealPacket (x.ack (x.counter + 1) x.counter) = .ok ack
  openData : ∃ t, t.length = demoConfig.security.macLen ∧
    openFramed data demoConfig x.aead (x.session.nonceFor x.counter).1 = .ok { x.keyReport with mac := t }
  isAck : x.isAck ack = .ok true
  ack_not_data : (openFramed ack demoConfig x.aead (x.session.nonceFor x.counter).1).IsErr

section Retry

variable [Target] {x : Setting} {data ack : List UInt8}

theorem exists_twoFrames (hx : x.Valid) (haead : NonceBound x.aead x.twoCalls) : ∃ data ack, TwoFrames x data ack := by
  have hsucc := counter_succ_toNat hx.counter_lt
  have hdata : x.call x.keyReport ∈ x.twoCalls := by simp [Setting.twoCalls]
  have hack : x.call (x.ack (x.counter + 1) x.counter) ∈ x.twoCalls := by simp [Setting.twoCalls]
  have hdataLen : (encodePayload x.keyReport.payload).length ≤ payloadLimit .keyReport demoConfig := by
    rw [length_encodePayload]; exact hx.keys_le
  have hackLen : (encodePayload (.ack x.counter)).length ≤ payloadLimit .ack demoConfig := by
    rw [length_encodePayload]; show 4 ≤ 32; omega
  obtain ⟨data, t, hsealData, ht, hopenData, -⟩ :=
    haead.frame hdata frameFits_demoConfig rfl hdataLen List.length_replicate
  obtain ⟨ack, t', hsealAck, -, hopenAck, hotherAck⟩ :=
    haead.frame hack frameFits_demoConfig rfl hackLen List.length_replicate
  have hne : (x.session.nonceFor x.counter).1 ≠ (x.session.nonceFor (x.counter + 1)).1 := nonceFor_ne _ (by omega)
  have hisAck : x.isAck ack = .ok true := by
    rw [isAck_of_opens hx hopenAck]
    simp [Setting.ack]
  have hackData : (openFramed ack demoConfig x.aead (x.session.nonceFor x.counter).1).IsErr :=
    hotherAck (x.call x.keyReport) hdata hne
  exact ⟨data, ack, hsealData, hsealAck, ⟨t, ht, hopenData⟩, hisAck, hackData⟩

/-- A data frame opens as data, and an ack does not. -/
theorem TwoFrames.ne (hf : TwoFrames x data ack) : data ≠ ack := by
  obtain ⟨t, -, hopen⟩ := hf.openData
  obtain ⟨e, he⟩ := hf.ack_not_data
  rintro rfl
  rw [hopen] at he
  contradiction

/-! ## The inner loop -/

variable [Profile] {rf next : MockRf (List UInt8)}
  {answer : Packet → MockRf (List UInt8) → Outcome Unfinished (MockRf (List UInt8))} {breaks acked : Bool}

omit [Target] [Profile] in
theorem check_keyReport (hx : x.Valid) {t : List UInt8} (ht : t.length = demoConfig.security.macLen) :
    x.check { x.keyReport with mac := t } = .ok () := by
  have hsub : (u32Sub x.counter 1 : Outcome Unfinished UInt32) = .ok (x.counter - 1) :=
    u32Sub_ok (UInt32.le_iff_toNat_le.2 hx.counter_pos)
  exact bind_eq_ok.2 ⟨_, hsub, expect_of_ok (validate_keyReport hx ht)⟩

theorem pushAck_eq (hx : x.Valid) (hf : TwoFrames x data ack) (t : List UInt8) (hdrops : ¬rf.Drops)
    (hfits : rf.runtime.nowMs.toNat + rf.config.jitterMs.toNat < 2 ^ 64) :
    x.pushAck { x.keyReport with mac := t } rf = .ok (rf.enqueue (rf.runtime.nowMs + rf.config.jitterMs) ack) := by
  have hlt := hx.counter_lt
  refine bind_eq_ok.2 ⟨_, u32Add_one (by omega), ?_⟩
  refine bind_eq_ok.2 ⟨ack, expect_of_ok hf.sealAck, ?_⟩
  exact infallible_of_ok (MockRf.push_queues hdrops hfits ack)

/-- The inner loop of the exchange is the one whose answer also sends a keep-alive. -/
theorem receiveLoop_eq_pump (x : Setting) (fuel : Nat) (rf : MockRf (List UInt8)) :
    x.receiveLoop fuel rf = x.pump x.answer true fuel false rf := by
  induction fuel generalizing rf with
  | zero => rfl
  | succ fuel ih =>
    rw [Setting.receiveLoop, Setting.pump]
    congr 1
    funext popped
    rcases popped with ⟨_ | rx, rf⟩
    · rfl
    · dsimp only
      cases openFramed rx demoConfig x.aead (x.session.nonceFor x.counter).1 with
      | ok parsed => exact congrArg (x.answer parsed rf >>= ·) (funext ih)
      | err e =>
        refine congrArg (x.isAck rx >>= ·) (funext fun isAck => ?_)
        cases isAck with
        | false => exact ih rf
        | true => rfl
      | panic => rfl

theorem pump_none (fuel : Nat) (h : rf.pop = .ok (none, next)) :
    x.pump answer breaks (fuel + 1) acked rf = .ok (acked, next) := by
  rw [Setting.pump, infallible_of_ok h, ok_bind]
  rfl

theorem pump_data (hf : TwoFrames x data ack) (h : rf.pop = .ok (some data, next)) :
    ∃ t, t.length = demoConfig.security.macLen ∧ ∀ fuel, x.pump answer breaks (fuel + 1) acked rf =
      (answer { x.keyReport with mac := t } next >>= x.pump answer breaks fuel acked) := by
  obtain ⟨t, ht, hopen⟩ := hf.openData
  refine ⟨t, ht, fun fuel => ?_⟩
  rw [Setting.pump, infallible_of_ok h, ok_bind]
  simp only [hopen]

theorem pump_ack (hf : TwoFrames x data ack) (fuel : Nat) (h : rf.pop = .ok (some ack, next)) :
    x.pump answer breaks (fuel + 1) acked rf =
      if breaks then .ok (true, next) else x.pump answer breaks fuel true next := by
  obtain ⟨e, he⟩ := hf.ack_not_data
  rw [Setting.pump, infallible_of_ok h, ok_bind]
  simp only [he, hf.isAck, ok_bind]
  rfl

omit [Target] [Profile] in
/-- What is due stays due as the clock moves on. -/
theorem due_advance_of_due {entry : UInt64 × List UInt8} (h : rf.Due entry) (deltaMs : UInt64) :
    (rf.advance deltaMs).Due entry :=
  MockRf.due_advance (le_add_right (UInt64.le_iff_toNat_le.1 h))

/-- The frames on the channel are data and acks, and due. -/
def Ready (data ack : List UInt8) (rf : MockRf (List UInt8)) : Prop :=
  ∀ entry ∈ rf.runtime.queue, rf.Due entry ∧ (entry.2 = data ∨ entry.2 = ack)

/-- There is something on the channel, all of it due, `n` frames of it data, and the clock has room to answer them. -/
structure Pending (x : Setting) (data ack : List UInt8) (n : Nat) (rf : MockRf (List UInt8)) : Prop where
  ready : Ready data ack rf
  nonempty : rf.runtime.queue ≠ []
  count : rf.runtime.queue.countP (fun entry => entry.2 = data) = n
  drops : ¬rf.Drops
  jitter : rf.config.jitterMs.toNat ≤ x.stepMs.toNat
  clock : rf.runtime.nowMs.toNat + n * x.stepMs.toNat + rf.config.jitterMs.toNat < 2 ^ 64

/-- The channel after a frame was popped and its ack pushed. -/
def Setting.answered (x : Setting) (ack : List UInt8) (rf : MockRf (List UInt8)) (rest : List (UInt64 × List UInt8)) :
    MockRf (List UInt8) :=
  ((rf.deliver rest).enqueue (rf.runtime.nowMs + rf.config.jitterMs) ack).advance x.stepMs

variable {n : Nat} {entry : UInt64 × List UInt8} {rest : List (UInt64 × List UInt8)}

theorem answerWake_eq (hx : x.Valid) (hf : TwoFrames x data ack) {t : List UInt8}
    (ht : t.length = demoConfig.security.macLen) (hdrops : ¬rf.Drops)
    (hfits : rf.runtime.nowMs.toNat + rf.config.jitterMs.toNat < 2 ^ 64) :
    x.answerWake { x.keyReport with mac := t } (rf.deliver rest) = .ok (x.answered ack rf rest) := by
  refine bind_eq_ok.2 ⟨(), check_keyReport hx ht, ?_⟩
  exact bind_eq_ok.2 ⟨_, pushAck_eq hx hf t hdrops hfits, rfl⟩

omit [Profile] in
/-- The answer takes one data frame off the channel and puts an ack on it, which a step of the clock makes due. -/
theorem Pending.answered (h : Pending x data ack (n + 1) rf) (hf : TwoFrames x data ack)
    (hcons : rf.runtime.queue = entry :: rest) (hdata : entry.2 = data) : Pending x data ack n (x.answered ack rf rest) := by
  have hclock := h.clock
  rw [Nat.succ_mul] at hclock
  have hfits : rf.runtime.nowMs.toNat + rf.config.jitterMs.toNat < 2 ^ 64 := by omega
  have hqueue : (x.answered ack rf rest).runtime.queue =
      Line.join rf.config.reorder rest (rf.runtime.nowMs + rf.config.jitterMs, ack) := rfl
  refine ⟨?_, ?_, ?_, by simp [Setting.answered], h.jitter, ?_⟩
  · intro e he
    rw [hqueue, Line.mem_join] at he
    rcases he with he | rfl
    · obtain ⟨hdue, hframe⟩ := h.ready e (by simp [hcons, he])
      exact ⟨@due_advance_of_due ((rf.deliver rest).enqueue _ ack) e hdue x.stepMs, hframe⟩
    · exact ⟨@MockRf.due_enqueue_advance _ (rf.deliver rest) x.stepMs h.jitter hfits ack ack, Or.inr rfl⟩
  · rw [hqueue]
    exact List.ne_nil_of_mem (Line.mem_join.2 (Or.inr rfl))
  · have hsplit : rest.countP (fun e => e.2 = data) = n := by
      simpa [hcons, List.countP_cons, hdata] using h.count
    rw [hqueue, (Line.join_perm _ _ _).countP_eq, List.countP_append, hsplit]
    simp [hf.ne.symm]
  · have hnow : (x.answered ack rf rest).runtime.nowMs.toNat ≤ rf.runtime.nowMs.toNat + x.stepMs.toNat := by
      show (u64SaturatingAdd rf.runtime.nowMs x.stepMs).toNat ≤ _
      rw [u64SaturatingAdd_toNat]
      omega
    show (x.answered ack rf rest).runtime.nowMs.toNat + n * x.stepMs.toNat + rf.config.jitterMs.toNat < 2 ^ 64
    omega

/-- A channel with something on it, all of it due, brings the ack: every data frame is answered by one. -/
theorem pump_acked (hx : x.Valid) (hf : TwoFrames x data ack) (h : Pending x data ack n rf) :
    ∃ last, ∀ fuel, n < fuel → x.pump x.answerWake true fuel acked rf = .ok (true, last) := by
  induction n generalizing rf with
  | zero =>
    obtain ⟨entry, rest, hcons⟩ := List.exists_cons_of_ne_nil h.nonempty
    have hentry : entry ∈ rf.runtime.queue := by simp [hcons]
    obtain ⟨hdue, hframe⟩ := h.ready entry hentry
    have hack : entry.2 = ack := hframe.resolve_left fun hdata =>
      List.countP_eq_zero.1 h.count entry hentry (decide_eq_true hdata)
    have hpop := MockRf.pop_cons hcons hdue
    rw [hack] at hpop
    refine ⟨rf.deliver rest, fun fuel hfuel => ?_⟩
    obtain ⟨m, rfl⟩ := Nat.exists_eq_add_of_le' hfuel
    exact pump_ack hf m hpop
  | succ n ih =>
    obtain ⟨entry, rest, hcons⟩ := List.exists_cons_of_ne_nil h.nonempty
    obtain ⟨hdue, hframe⟩ := h.ready entry (by simp [hcons])
    have hpop := MockRf.pop_cons hcons hdue
    rcases hframe with hdata | hack
    · rw [hdata] at hpop
      obtain ⟨t, ht, hpump⟩ := @pump_data _ x data ack _ rf _ x.answerWake true acked hf hpop
      obtain ⟨last, hlast⟩ := ih (h.answered hf hcons hdata)
      refine ⟨last, fun fuel hfuel => ?_⟩
      obtain ⟨m, rfl⟩ := Nat.exists_eq_add_of_le' (Nat.zero_lt_of_lt hfuel)
      have hclock := h.clock
      rw [hpump, answerWake_eq hx hf ht h.drops (by omega), ok_bind]
      exact hlast m (by omega)
    · rw [hack] at hpop
      refine ⟨rf.deliver rest, fun fuel hfuel => ?_⟩
      obtain ⟨m, rfl⟩ := Nat.exists_eq_add_of_le' (Nat.zero_lt_of_lt hfuel)
      exact pump_ack hf m hpop

omit [Target] [Profile] in
theorem not_due_of_late {entry : UInt64 × List UInt8} (h : rf.runtime.nowMs.toNat < entry.1.toNat) : ¬rf.Due entry :=
  fun hdue => absurd (UInt64.le_iff_toNat_le.1 hdue) (by omega)

/-! ## The warm wake -/

omit [Target] [Profile] in
theorem u64_zero_add (jitterMs : UInt64) : (0 : UInt64) + jitterMs = jitterMs := by
  rw [UInt64.zero_add]

/-- The channel before the first attempt. -/
def wakeStart (data : List UInt8) (dropFirst reorder : Bool) (jitterMs : UInt64) : MockRf (List UInt8) :=
  let rf : MockRf (List UInt8) := .new dropFirst reorder jitterMs
  if dropFirst then rf.drop else rf.enqueue jitterMs data

omit [Target] in
theorem push_wakeStart (data : List UInt8) (dropFirst reorder : Bool) (jitterMs : UInt64) :
    (MockRf.new dropFirst reorder jitterMs).push data = .ok (wakeStart data dropFirst reorder jitterMs) := by
  cases dropFirst with
  | true => exact MockRf.push_drops ⟨rfl, rfl⟩ data
  | false =>
    have hlt := jitterMs.toNat_lt
    have hdrops : ¬(MockRf.new false reorder jitterMs : MockRf (List UInt8)).Drops := fun h => nomatch h.1
    have hfits : (0 : UInt64).toNat + jitterMs.toNat < 2 ^ 64 := by
      have hzero : (0 : UInt64).toNat = 0 := rfl
      omega
    have hpush := MockRf.push_queues hdrops hfits data
    rw [hpush]
    show Outcome.ok ((MockRf.new false reorder jitterMs).enqueue (0 + jitterMs) data) = _
    rw [u64_zero_add]
    rfl

omit [Target] [Profile] in
theorem mem_wakeStart {dropFirst reorder : Bool} {jitterMs : UInt64} {entry : UInt64 × List UInt8} :
    entry ∈ (wakeStart data dropFirst reorder jitterMs).runtime.queue ↔ dropFirst = false ∧ entry = (jitterMs, data) := by
  cases dropFirst <;> simp [wakeStart, MockRf.enqueue, MockRf.new, MockRf.drop]

omit [Target] [Profile] in
theorem wakeStart_spec (data : List UInt8) (dropFirst reorder : Bool) (jitterMs : UInt64) :
    (wakeStart data dropFirst reorder jitterMs).runtime.nowMs = 0 ∧
      (wakeStart data dropFirst reorder jitterMs).config.jitterMs = jitterMs ∧
      ¬(wakeStart data dropFirst reorder jitterMs).Drops := by
  cases dropFirst <;> simp [wakeStart, MockRf.enqueue, MockRf.new, MockRf.drop, MockRf.Drops]

/-- The first attempt finds its frame if it is neither dropped nor held back. -/
theorem first_attempt (hx : x.Valid) (hf : TwoFrames x data ack) (dropFirst reorder : Bool) {jitterMs : UInt64}
    (hclock : x.stepMs.toNat + jitterMs.toNat < 2 ^ 64) :
    if dropFirst = false ∧ jitterMs = 0 then
      ∃ last, ∀ fuel, 1 < fuel →
        x.pump x.answerWake true fuel false (wakeStart data dropFirst reorder jitterMs) = .ok (true, last)
    else
      ∀ fuel, 0 < fuel → x.pump x.answerWake true fuel false (wakeStart data dropFirst reorder jitterMs) =
        .ok (false, wakeStart data dropFirst reorder jitterMs) := by
  obtain ⟨hnow, hjitter, hdrops⟩ := wakeStart_spec data dropFirst reorder jitterMs
  split_ifs with hfast
  · obtain ⟨rfl, rfl⟩ := hfast
    have hqueue : (wakeStart data false reorder 0).runtime.queue = [(0, data)] := by
      simp [wakeStart, MockRf.enqueue, MockRf.new]
    refine pump_acked hx hf ⟨?_, by simp [hqueue], by simp [hqueue], hdrops, ?_, ?_⟩
    · intro entry hentry
      obtain ⟨-, rfl⟩ := mem_wakeStart.1 hentry
      exact ⟨by rw [MockRf.Due, hnow]; exact UInt64.le_refl _, Or.inl rfl⟩
    · rw [hjitter]; exact Nat.zero_le _
    · rw [hjitter, hnow]
      simpa using hclock
  · have hnone : ∀ entry ∈ (wakeStart data dropFirst reorder jitterMs).runtime.queue,
        ¬(wakeStart data dropFirst reorder jitterMs).Due entry := by
      intro entry hentry
      obtain ⟨hsent, rfl⟩ := mem_wakeStart.1 hentry
      have hpos : jitterMs.toNat ≠ 0 := fun h => hfast ⟨hsent, UInt64.toNat_inj.1 h⟩
      refine not_due_of_late ?_
      rw [hnow]
      exact Nat.pos_of_ne_zero hpos
    intro fuel hfuel
    obtain ⟨n, rfl⟩ := Nat.exists_eq_add_of_le' hfuel
    exact pump_none n (MockRf.pop_of_not_due hnone)

/-- The channel before the second attempt. -/
def wakeAgain (x : Setting) (data : List UInt8) (dropFirst reorder : Bool) (jitterMs : UInt64) : MockRf (List UInt8) :=
  ((wakeStart data dropFirst reorder jitterMs).enqueue jitterMs data).advance x.stepMs

omit [Target] in
theorem push_wakeAgain (data : List UInt8) (dropFirst reorder : Bool) (jitterMs : UInt64) :
    (wakeStart data dropFirst reorder jitterMs).push data =
      .ok ((wakeStart data dropFirst reorder jitterMs).enqueue jitterMs data) := by
  obtain ⟨hnow, hjitter, hdrops⟩ := wakeStart_spec data dropFirst reorder jitterMs
  have hlt := jitterMs.toNat_lt
  have hzero : (0 : UInt64).toNat = 0 := rfl
  have hpush := MockRf.push_queues hdrops (by rw [hnow, hjitter]; omega) data
  rw [hpush, hnow, hjitter, u64_zero_add]

omit [Target] [Profile] in
theorem mem_wakeAgain {dropFirst reorder : Bool} {jitterMs : UInt64} {entry : UInt64 × List UInt8}
    (h : entry ∈ (wakeAgain x data dropFirst reorder jitterMs).runtime.queue) : entry = (jitterMs, data) := by
  rcases Line.mem_join.1 h with h | rfl
  · exact (mem_wakeStart.1 h).2
  · rfl

omit [Target] [Profile] in
theorem wakeAgain_nowMs (x : Setting) (data : List UInt8) (dropFirst reorder : Bool) (jitterMs : UInt64) :
    (wakeAgain x data dropFirst reorder jitterMs).runtime.nowMs.toNat = x.stepMs.toNat := by
  obtain ⟨hnow, -, -⟩ := wakeStart_spec data dropFirst reorder jitterMs
  have hlt := x.stepMs.toNat_lt
  have hzero : (0 : UInt64).toNat = 0 := rfl
  show (u64SaturatingAdd (wakeStart data dropFirst reorder jitterMs).runtime.nowMs x.stepMs).toNat = _
  rw [u64SaturatingAdd_toNat, hnow]
  omega

omit [Target] [Profile] in
/-- Within the jitter, both copies that the channel may hold are due. -/
theorem pending_wakeAgain (dropFirst reorder : Bool) {jitterMs : UInt64} (hle : jitterMs.toNat ≤ x.stepMs.toNat)
    (hclock : 3 * x.stepMs.toNat + jitterMs.toNat < 2 ^ 64) :
    ∃ n ≤ 2, Pending x data ack n (wakeAgain x data dropFirst reorder jitterMs) := by
  have hjitter : (wakeAgain x data dropFirst reorder jitterMs).config.jitterMs = jitterMs :=
    (wakeStart_spec data dropFirst reorder jitterMs).2.1
  have hnow := wakeAgain_nowMs x data dropFirst reorder jitterMs
  have hcount : (wakeAgain x data dropFirst reorder jitterMs).runtime.queue.countP (fun entry => entry.2 = data) ≤ 2 := by
    refine List.countP_le_length.trans ?_
    cases dropFirst <;> cases reorder <;> simp [wakeAgain, wakeStart, MockRf.enqueue, MockRf.new, MockRf.drop, Line.join]
  refine ⟨_, hcount, ?_, List.ne_nil_of_mem (Line.mem_join.2 (Or.inr rfl)), rfl, by simp [wakeAgain], ?_, ?_⟩
  · intro entry hentry
    obtain rfl := mem_wakeAgain hentry
    refine ⟨?_, Or.inl rfl⟩
    rw [MockRf.Due, UInt64.le_iff_toNat_le, hnow]
    exact hle
  · rw [hjitter]
    exact hle
  · have hmul := Nat.mul_le_mul_right x.stepMs.toNat hcount
    rw [hjitter, hnow]
    omega

/-- The second attempt finds a frame if a step of the clock is as long as the jitter. -/
theorem second_attempt (hx : x.Valid) (hf : TwoFrames x data ack) (dropFirst reorder : Bool) {jitterMs : UInt64}
    (hclock : 3 * x.stepMs.toNat + jitterMs.toNat < 2 ^ 64) :
    if jitterMs ≤ x.stepMs then
      ∃ last, ∀ fuel, 2 < fuel →
        x.pump x.answerWake true fuel false (wakeAgain x data dropFirst reorder jitterMs) = .ok (true, last)
    else
      ∀ fuel, 0 < fuel → x.pump x.answerWake true fuel false (wakeAgain x data dropFirst reorder jitterMs) =
        .ok (false, wakeAgain x data dropFirst reorder jitterMs) := by
  split_ifs with hle
  · obtain ⟨n, hn, hpending⟩ := @pending_wakeAgain x data ack dropFirst reorder _ (UInt64.le_iff_toNat_le.1 hle) hclock
    obtain ⟨last, hlast⟩ := @pump_acked _ _ _ _ _ _ false _ hx hf hpending
    exact ⟨last, fun fuel hfuel => hlast fuel (lt_of_le_of_lt hn hfuel)⟩
  · have hnone : ∀ entry ∈ (wakeAgain x data dropFirst reorder jitterMs).runtime.queue,
        ¬(wakeAgain x data dropFirst reorder jitterMs).Due entry := by
      intro entry hentry
      obtain rfl := mem_wakeAgain hentry
      refine not_due_of_late ?_
      rw [wakeAgain_nowMs]
      exact UInt64.lt_iff_toNat_lt.1 (UInt64.not_le.1 hle)
    intro fuel hfuel
    obtain ⟨n, rfl⟩ := Nat.exists_eq_add_of_le' hfuel
    exact pump_none n (MockRf.pop_of_not_due hnone)

theorem wakeLoop_acked {fuel left : Nat} {s : Progress} (h : x.pump x.answerWake true fuel s.acked s.rf = .ok (true, rf)) :
    x.wakeLoop fuel left s = .ok { acked := true, attempts := s.attempts + 1, rf } := by
  unfold Setting.wakeLoop
  rw [h, ok_bind]
  rfl

theorem wakeLoop_retries (hf : TwoFrames x data ack) {fuel left : Nat} {s : Progress}
    (h : x.pump x.answerWake true fuel s.acked s.rf = .ok (false, rf)) (hpush : rf.push data = .ok next) :
    x.wakeLoop fuel (left + 1) s =
      x.wakeLoop fuel left { acked := false, attempts := s.attempts + 1, rf := next.advance x.stepMs } := by
  rw [Setting.wakeLoop, h, ok_bind]
  simp only [Bool.false_eq_true, if_false]
  rw [expect_of_ok hf.sealData, ok_bind, infallible_of_ok hpush, ok_bind]

theorem wakeLoop_gives_up {fuel : Nat} {s : Progress} (h : x.pump x.answerWake true fuel s.acked s.rf = .ok (false, rf)) :
    x.wakeLoop fuel 0 s = .ok { acked := false, attempts := s.attempts + 1, rf } := by
  rw [Setting.wakeLoop, h, ok_bind]
  rfl

end Retry

/-- The warm wake waits for one step of the clock and no longer. From any cached session and persisted counter,
and whatever the channel drops or reorders, it ends with the ack of its report if the jitter is at most that
step, after one attempt if the first frame is neither dropped nor held back, and two otherwise; if the jitter is
longer, no attempt finds a frame and the assertion fails. -/
theorem warm_wake_acked_iff [Target] [Profile] (aead : Aead) (session : SessionKeys) (persisted : UInt32)
    (keys : List UInt8) (dropFirst reorder : Bool) (jitterMs stepMs : UInt64)
    (hcounter : persisted < counterRekeyThreshold) (hkeys : keys.length ≤ demoConfig.maxPayloadBytes.toNat)
    (hclock : 3 * stepMs.toNat + jitterMs.toNat < 2 ^ 64)
    (haead : NonceBound aead (Setting.twoCalls { aead, session, counter := max persisted 1, keys, stepMs })) :
    (jitterMs ≤ stepMs → ∃ rf, ∀ fuel, 3 ≤ fuel →
      warmWakeExchange fuel aead session persisted keys dropFirst reorder jitterMs stepMs =
        .ok { acked := true, attempts := if dropFirst = false ∧ jitterMs = 0 then 1 else 2, rf }) ∧
    (stepMs < jitterMs → ∀ fuel, 0 < fuel →
      warmWakeExchange fuel aead session persisted keys dropFirst reorder jitterMs stepMs = .panic) := by
  rw [UInt32.lt_iff_toNat_lt, counterRekeyThreshold_toNat] at hcounter
  have hlt : (session.resumeFrom persisted).counter.toNat < 2 ^ 31 := by rw [resumeFrom_toNat]; omega
  have hnext := nextCounter_eq (session.resumeFrom persisted)
  rw [if_pos hlt] at hnext
  let x : Setting :=
    { aead, session := { session.resumeFrom persisted with counter := (session.resumeFrom persisted).counter + 1 },
      counter := max persisted 1, keys, stepMs }
  have hx : x.Valid := ⟨hkeys, UInt32.le_iff_toNat_le.1 (one_le_resumeFrom session persisted), hlt⟩
  obtain ⟨data, ack, hf⟩ := exists_twoFrames hx haead
  have hrun : ∀ fuel, warmWakeExchange fuel aead session persisted keys dropFirst reorder jitterMs stepMs = (do
      let s ← x.wakeLoop fuel 1 { acked := false, attempts := 0, rf := wakeStart data dropFirst reorder jitterMs }
      if s.acked then pure s else .panic) := by
    intro fuel
    unfold warmWakeExchange
    rw [hnext]
    have hdata : (expect (x.sealPacket x.keyReport) : Outcome Unfinished (List UInt8)) = .ok data := expect_of_ok hf.sealData
    have hpush := push_wakeStart data dropFirst reorder jitterMs
    have hstart : (Setting.infallible ((MockRf.new dropFirst reorder jitterMs).push data) : Outcome Unfinished _) = .ok _ :=
      infallible_of_ok hpush
    refine Eq.trans (b := (expect (x.sealPacket x.keyReport) >>= fun frame => do
      let rf ← Setting.infallible ((MockRf.new dropFirst reorder jitterMs).push frame)
      let s ← x.wakeLoop fuel 1 { acked := false, attempts := 0, rf }
      if s.acked then pure s else .panic)) rfl ?_
    rw [hdata, ok_bind, hstart, ok_bind]
  have hfirst := first_attempt hx hf dropFirst reorder (show x.stepMs.toNat + jitterMs.toNat < 2 ^ 64 from by
    show stepMs.toNat + jitterMs.toNat < 2 ^ 64; omega)
  have hsecond := @second_attempt _ _ _ _ _ hx hf dropFirst reorder jitterMs hclock
  have hpush := push_wakeAgain data dropFirst reorder jitterMs
  constructor
  · intro hle
    rw [if_pos hle] at hsecond
    obtain ⟨last, hlast⟩ := hsecond
    by_cases hfast : dropFirst = false ∧ jitterMs = 0
    · rw [if_pos hfast] at hfirst
      obtain ⟨last', hlast'⟩ := hfirst
      refine ⟨last', fun fuel hfuel => ?_⟩
      rw [hrun, wakeLoop_acked (hlast' fuel (by omega)), if_pos hfast]
      rfl
    · rw [if_neg hfast] at hfirst
      refine ⟨last, fun fuel hfuel => ?_⟩
      rw [hrun, wakeLoop_retries hf (hfirst fuel (by omega)) hpush, wakeLoop_acked (hlast fuel (by omega)), if_neg hfast]
      rfl
  · intro hlate fuel hfuel
    rw [if_neg (UInt64.not_le.2 hlate)] at hsecond
    have hfast : ¬(dropFirst = false ∧ jitterMs = 0) := by
      rintro ⟨-, rfl⟩
      rw [UInt64.lt_iff_toNat_lt] at hlate
      exact absurd hlate (Nat.not_lt_zero _)
    rw [if_neg hfast] at hfirst
    rw [hrun, wakeLoop_retries hf (hfirst fuel hfuel) hpush, wakeLoop_gives_up (hsecond fuel hfuel)]
    rfl

/-- The test's own wake: a frame dropped, reordering, 1 ms of jitter and a step of 1 ms. -/
theorem warm_wake_acked_iff_test :
    ∃ rf, ∀ fuel, 3 ≤ fuel → @warmWakeExchange target64 devProfile fuel dummyAead
        (.new 0xAABBCCDD (fill sessionSaltBytes 0x11)) 10 [4] true true 1 1 =
      .ok { acked := true, attempts := 2, rf } :=
  (@warm_wake_acked_iff target64 devProfile dummyAead (.new 0xAABBCCDD (fill sessionSaltBytes 0x11)) 10 [4] true true
    1 1 (by decide) (by decide) (by decide) (nonceBound_dummyAead (by decide +kernel))).1 (by decide)

/-! ## The lost ack -/

section LateAck

variable [Target] [Profile] {x : Setting} {data ack : List UInt8} {rf next : MockRf (List UInt8)}

theorem lateLoop_step (hf : TwoFrames x data ack) {fuel left : Nat} {s : Progress} {acked : Bool} (hpush : s.rf.push data = .ok rf)
    (h : x.pump (x.answerLate (s.attempts + 1)) false fuel s.acked rf = .ok (acked, next)) :
    x.lateLoop fuel (left + 1) s =
      if acked then .ok { acked, attempts := s.attempts + 1, rf := next }
      else x.lateLoop fuel left { acked, attempts := s.attempts + 1, rf := next } := by
  rw [Setting.lateLoop, expect_of_ok hf.sealData, ok_bind, infallible_of_ok hpush, ok_bind, h, ok_bind]
  rfl

/-- Nothing is on the channel, and what is sent is due at once. -/
structure Idle (rf : MockRf (List UInt8)) : Prop where
  queue : rf.runtime.queue = []
  nowMs : rf.runtime.nowMs = 0
  jitterMs : rf.config.jitterMs = 0
  not_drops : ¬rf.Drops

omit [Target] in
theorem Idle.push (h : Idle rf) (frame : List UInt8) : rf.push frame = .ok (rf.enqueue 0 frame) := by
  have hzero : (0 : UInt64).toNat = 0 := rfl
  have hpush := MockRf.push_queues h.not_drops (by rw [h.nowMs, h.jitterMs]; omega) frame
  rwa [h.nowMs, h.jitterMs, u64_zero_add] at hpush

omit [Target] [Profile] in
theorem Idle.pop (h : Idle rf) (frame : List UInt8) :
    (rf.enqueue 0 frame).pop = .ok (some frame, (rf.enqueue 0 frame).deliver []) := by
  refine @MockRf.pop_cons _ _ (0, frame) [] ?_ ?_
  · simp [MockRf.enqueue, h.queue]
  · show (0 : UInt64) ≤ rf.runtime.nowMs
    rw [h.nowMs]
    exact UInt64.le_refl _

omit [Target] [Profile] in
theorem Idle.delivered (h : Idle rf) (frame : List UInt8) : Idle ((rf.enqueue 0 frame).deliver []) :=
  ⟨rfl, h.nowMs, h.jitterMs, by simp⟩

omit [Target] [Profile] in
theorem Idle.pop_none (h : Idle rf) : rf.pop = .ok (none, rf) :=
  MockRf.pop_of_not_due (by simp [h.queue])

/-- The first attempt is heard and not answered. -/
theorem Idle.unanswered (hx : x.Valid) (hf : TwoFrames x data ack) (h : Idle rf) {fuel : Nat} (hfuel : 2 ≤ fuel) :
    x.pump (x.answerLate 1) false fuel false (rf.enqueue 0 data) = .ok (false, (rf.enqueue 0 data).deliver []) := by
  obtain ⟨n, rfl⟩ := Nat.exists_eq_add_of_le' hfuel
  obtain ⟨t, ht, hpump⟩ := @pump_data _ x data ack _ _ _ (x.answerLate 1) false false hf (h.pop data)
  have hanswer : x.answerLate 1 { x.keyReport with mac := t } ((rf.enqueue 0 data).deliver []) =
      .ok ((rf.enqueue 0 data).deliver []) :=
    bind_eq_ok.2 ⟨(), check_keyReport hx ht, rfl⟩
  rw [hpump (n + 1), hanswer, ok_bind]
  exact pump_none n (h.delivered data).pop_none

/-- Every later one is answered. -/
theorem Idle.answered (hx : x.Valid) (hf : TwoFrames x data ack) (h : Idle rf) {attempts : Nat} (hlate : attempts ≠ 1) :
    ∃ last, ∀ fuel, 3 ≤ fuel →
      x.pump (x.answerLate attempts) false fuel false (rf.enqueue 0 data) = .ok (true, last) := by
  obtain ⟨t, ht, hpump⟩ := @pump_data _ x data ack _ _ _ (x.answerLate attempts) false false hf (h.pop data)
  have hidle := h.delivered data
  generalize (rf.enqueue 0 data).deliver [] = heard at hidle hpump
  have hanswer : x.answerLate attempts { x.keyReport with mac := t } heard = .ok (heard.enqueue 0 ack) := by
    refine bind_eq_ok.2 ⟨(), check_keyReport hx ht, ?_⟩
    have hzero : (0 : UInt64).toNat = 0 := rfl
    have hpush := pushAck_eq hx hf t hidle.not_drops (by rw [hidle.nowMs, hidle.jitterMs]; omega)
    rw [if_neg hlate, hpush, hidle.nowMs, hidle.jitterMs, u64_zero_add]
  refine ⟨(heard.enqueue 0 ack).deliver [], fun fuel hfuel => ?_⟩
  obtain ⟨n, rfl⟩ := Nat.exists_eq_add_of_le' hfuel
  rw [hpump (n + 2), hanswer, ok_bind, pump_ack hf (n + 1) (hidle.pop ack), if_neg Bool.false_ne_true]
  exact pump_none n (hidle.delivered ack).pop_none

/-- The first attempt leaves an idle channel, whether its frame is dropped or heard. -/
theorem first_unanswered (hx : x.Valid) (hf : TwoFrames x data ack) (dropFirst reorder : Bool) :
    ∃ rf, Idle rf ∧ ∀ fuel, 2 ≤ fuel →
      x.pump (x.answerLate 1) false fuel false (wakeStart data dropFirst reorder 0) = .ok (false, rf) := by
  cases dropFirst with
  | true =>
    have hidle : Idle (wakeStart data true reorder 0) := ⟨rfl, rfl, rfl, by simp [wakeStart]⟩
    refine ⟨_, hidle, fun fuel hfuel => ?_⟩
    obtain ⟨n, rfl⟩ := Nat.exists_eq_add_of_le' hfuel
    exact pump_none (n + 1) hidle.pop_none
  | false =>
    have hidle : Idle (MockRf.new false reorder 0) := ⟨rfl, rfl, rfl, fun h => nomatch h.1⟩
    exact ⟨_, hidle.delivered data, fun fuel hfuel => hidle.unanswered hx hf hfuel⟩

/-- Frames that are held back are never heard, since the clock stands still. -/
theorem pump_of_held_back {answer : Packet → MockRf (List UInt8) → Outcome Unfinished (MockRf (List UInt8))}
    {jitterMs : UInt64} (hpos : jitterMs ≠ 0) (hnow : rf.runtime.nowMs = 0)
    (hentries : ∀ entry ∈ rf.runtime.queue, entry = (jitterMs, data)) {fuel : Nat} (hfuel : 0 < fuel) :
    x.pump answer false fuel false rf = .ok (false, rf) := by
  obtain ⟨n, rfl⟩ := Nat.exists_eq_add_of_le' hfuel
  refine pump_none n (MockRf.pop_of_not_due fun entry hentry => ?_)
  obtain rfl := hentries entry hentry
  have hne : jitterMs.toNat ≠ 0 := fun h => hpos (UInt64.toNat_inj.1 h)
  refine not_due_of_late ?_
  rw [hnow]
  exact Nat.pos_of_ne_zero hne

end LateAck

/-- One retry masks a lost ack exactly where nothing is held back: the exchange, from a session that has been
through any calls, ends with the ack after two attempts if the channel has no jitter, whatever it drops or
reorders; with any jitter its assertion fails, since it never moves the clock. -/
theorem late_ack_iff [Target] [Profile] (aead : Aead) (id : UInt32) (salt : Arr UInt8 sessionSaltBytes)
    (ops : List SessionOp) (keys : List UInt8) (dropFirst reorder : Bool) (jitterMs : UInt64) {k : SessionKeys}
    (hk : (session.run (.new id salt) ops).1 = k) (hcounter : k.counter < counterRekeyThreshold)
    (hkeys : keys.length ≤ demoConfig.maxPayloadBytes.toNat)
    (haead : NonceBound aead (Setting.twoCalls { aead, session := k, counter := k.counter, keys, stepMs := 0 })) :
    (jitterMs = 0 → ∃ rf, ∀ fuel, 3 ≤ fuel →
      lateAckExchange fuel aead k keys dropFirst reorder jitterMs = .ok { acked := true, attempts := 2, rf }) ∧
    (jitterMs ≠ 0 → ∀ fuel, 0 < fuel → lateAckExchange fuel aead k keys dropFirst reorder jitterMs = .panic) := by
  rw [UInt32.lt_iff_toNat_lt, counterRekeyThreshold_toNat] at hcounter
  have hpos : 1 ≤ k.counter.toNat := hk ▸ (run_one_le id salt ops).1
  have hnext := nextCounter_eq k
  rw [if_pos hcounter] at hnext
  let x : Setting := { aead, session := { k with counter := k.counter + 1 }, counter := k.counter, keys, stepMs := 0 }
  have hx : x.Valid := ⟨hkeys, hpos, hcounter⟩
  obtain ⟨data, ack, hf⟩ := exists_twoFrames hx haead
  have hrun : ∀ fuel, lateAckExchange fuel aead k keys dropFirst reorder jitterMs = (do
      let s ← x.lateLoop fuel 2 { acked := false, attempts := 0, rf := .new dropFirst reorder jitterMs }
      if s.attempts = 2 ∧ s.acked then pure s else .panic) := by
    intro fuel
    unfold lateAckExchange
    rw [hnext]
    rfl
  have hpush := push_wakeStart data dropFirst reorder jitterMs
  constructor
  · rintro rfl
    obtain ⟨rf, hidle, hfirst⟩ := first_unanswered hx hf dropFirst reorder
    obtain ⟨last, hlast⟩ := hidle.answered hx hf (show 2 ≠ 1 by omega)
    refine ⟨last, fun fuel hfuel => ?_⟩
    rw [hrun, lateLoop_step hf hpush (hfirst fuel (by omega)), if_neg Bool.false_ne_true,
      lateLoop_step hf (hidle.push data) (hlast fuel hfuel), if_pos rfl]
    rfl
  · intro hheld fuel hfuel
    obtain ⟨hnow, -, -⟩ := wakeStart_spec data dropFirst reorder jitterMs
    have hfirst : x.pump (x.answerLate 1) false fuel false (wakeStart data dropFirst reorder jitterMs) = .ok (false, _) :=
      pump_of_held_back hheld hnow (fun entry hentry => (mem_wakeStart.1 hentry).2) hfuel
    generalize hagain : (wakeStart data dropFirst reorder jitterMs).enqueue jitterMs data = again
    have hentries : ∀ entry ∈ again.runtime.queue, entry = (jitterMs, data) := by
      rw [← hagain]
      intro entry hentry
      rcases Line.mem_join.1 hentry with h | rfl
      · exact (mem_wakeStart.1 h).2
      · rfl
    have hsecond : x.pump (x.answerLate 2) false fuel false again = .ok (false, again) :=
      pump_of_held_back hheld (by rw [← hagain]; exact hnow) hentries hfuel
    have hpush' : (wakeStart data dropFirst reorder jitterMs).push data = .ok again := by
      rw [← hagain]; exact push_wakeAgain data dropFirst reorder jitterMs
    rw [hrun, lateLoop_step hf hpush hfirst, if_neg Bool.false_ne_true, lateLoop_step hf hpush' hsecond,
      if_neg Bool.false_ne_true]
    rfl

/-- The test itself: nothing dropped, reordered or held back. -/
theorem late_ack_iff_test :
    ∃ rf, ∀ fuel, 3 ≤ fuel → @lateAckExchange target64 devProfile fuel dummyAead
        (.new 0x01234567 (fill sessionSaltBytes 0xDD)) [4] false false 0 =
      .ok { acked := true, attempts := 2, rf } :=
  (@late_ack_iff target64 devProfile dummyAead 0x01234567 (fill sessionSaltBytes 0xDD) [] [4] false false 0 _ rfl
    (by decide) (by decide) (nonceBound_dummyAead (by decide +kernel))).1 rfl

end KeyboardProject.Sim
