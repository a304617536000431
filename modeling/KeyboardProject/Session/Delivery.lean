/-
A session over an arbitrary channel: whatever bytes arrive, the receiver accepts a subsequence of the
packets that were sent, in order and none twice.
-/
import KeyboardProject.Lib.HighWater
import KeyboardProject.Session.Nonce
import KeyboardProject.Wire.Authentic

namespace KeyboardProject.Session

open Rust Rust.Outcome Proto Wire

/-! ## The receiver -/

/-- One arriving byte string: opened under the nonce of the counter in its own header, then validated
against the session and the last accepted counter. -/
def receive [Target] (cfg : ProtocolConfig) (aead : Aead) (sessionId : UInt32) (salt : Arr UInt8 sessionSaltBytes)
    (last : Option UInt32) (bytes : List UInt8) : Option Packet :=
  match decodeHeader (bytes.take headerLen) with
  | .ok header =>
    -- nothing has vouched for the header yet: a forged counter only picks another nonce
    match openFramed bytes cfg aead (deriveNonce salt header.counter).1 with
    | .ok p => if validatePacket p cfg (some sessionId) last = .ok () then some p else none
    | _ => none
  | _ => none

/-- The receiver of a session. Its state is the last accepted counter; it puts out the header and the
payload of each packet it accepts. -/
def receiver [Target] (cfg : ProtocolConfig) (aead : Aead) (sessionId : UInt32) (salt : Arr UInt8 sessionSaltBytes) :
    Machine (Option UInt32) (List UInt8) (PacketHeader × Payload) where
  step last bytes :=
    match receive cfg aead sessionId salt last bytes with
    | some p => (some p.header.counter, [(p.header, p.payload)])
    | none => (last, [])

section Delivery

variable [Target] {cfg : ProtocolConfig} {aead : Aead} {sessionId : UInt32} {salt : Arr UInt8 sessionSaltBytes}

theorem receive_eq_some {last : Option UInt32} {bytes : List UInt8} {p : Packet} :
    receive cfg aead sessionId salt last bytes = some p ↔
      openFramed bytes cfg aead (deriveNonce salt p.header.counter).1 = .ok p ∧
        validatePacket p cfg (some sessionId) last = .ok () := by
  unfold receive
  constructor
  · intro h
    cases hd : decodeHeader (bytes.take headerLen) with
    | ok header =>
      simp only [hd] at h
      cases ho : openFramed bytes cfg aead (deriveNonce salt header.counter).1 with
      | ok q =>
        simp only [ho, Option.ite_none_right_eq_some, Option.some.injEq] at h
        obtain ⟨hv, rfl⟩ := h
        obtain rfl := ok.inj (hd.symm.trans (decodeHeader_of_openFramed ho))
        exact ⟨ho, hv⟩
      | err e => simp [ho] at h
      | panic => simp [ho] at h
    | err e => simp [hd] at h
    | panic => simp [hd] at h
  · rintro ⟨ho, hv⟩
    simp only [decodeHeader_of_openFramed ho, ho, hv, if_true]

/-- What `receive` accepts is ahead of the last accepted counter. -/
theorem receive_above {last : Option UInt32} {bytes : List UInt8} {p : Packet}
    (h : receive cfg aead sessionId salt last bytes = some p) (l : UInt32) (hl : last = some l) :
    l.toNat < p.header.counter.toNat :=
  ((validatePacket_eq_ok.1 (receive_eq_some.1 h).2).2 l hl).1

/-- The calls of a sender that seals each packet under the nonce of its own counter. -/
def sentCalls (cfg : ProtocolConfig) (k : SessionKeys) (sent : List Packet) : List SealCall :=
  sent.map fun p => sealCall p cfg (k.nonceFor p.header.counter).1

/-- What opens under an AEAD that is ideal for the sender's calls has the header and the payload of a
packet that was sent. -/
theorem exists_sent_of_openFramed {k : SessionKeys} {sent : List Packet} {nonce bytes : List UInt8} {p : Packet}
    (hideal : Ideal aead (sentCalls cfg k sent))
    (hkind : ∀ q ∈ sent, matchesValidKindPayload q.header.kind q.payload = true)
    (h : openFramed bytes cfg aead nonce = .ok p) :
    (p.header, p.payload) ∈ sent.map fun q => (q.header, q.payload) := by
  obtain ⟨f, -, -, -, -, x, ho, hd⟩ := (openFramed_eq_ok (frameFits_of_openFramed h)).1 h
  obtain ⟨call, hmem, -, haad, hplain, -⟩ := hideal.opens ho
  obtain ⟨q, hq, rfl⟩ := List.mem_map.1 hmem
  obtain ⟨hheader, -⟩ := associatedData_inj (Subtype.ext haad)
  -- header and plaintext are the call's; under one kind the plaintext fixes the payload
  obtain ⟨hm, hx⟩ := decodePayload_eq_ok.1 hd
  rw [← hheader] at hm
  have hpayload : q.payload = p.payload := encodePayload_inj (hkind q hq) hm (hplain.trans hx.symm)
  exact List.mem_map.2 ⟨q, hq, by rw [hheader, hpayload]⟩

/-- The receiver delivers under a high-water mark. -/
theorem receiver_highWater {k : SessionKeys} {sent : List Packet} (hideal : Ideal aead (sentCalls cfg k sent))
    (hkind : ∀ q ∈ sent, matchesValidKindPayload q.header.kind q.payload = true) :
    (receiver cfg aead sessionId salt).HighWater (fun last => last.map UInt32.toNat) (fun a => a.1.counter.toNat)
      (sent.map fun q => (q.header, q.payload)) := by
  intro last bytes
  simp only [receiver]
  cases h : receive cfg aead sessionId salt last bytes with
  | none => exact Or.inl ⟨rfl, rfl⟩
  | some p =>
    refine Or.inr ⟨_, exists_sent_of_openFramed hideal hkind (receive_eq_some.1 h).1, rfl, ?_, rfl⟩
    intro m hm
    obtain ⟨l, hl, rfl⟩ := Option.map_eq_some_iff.1 hm
    exact receive_above h l hl

/-- Authenticity, order and at-most-once delivery: over a channel that loses, duplicates, reorders,
truncates and forges at will, the receiver of a session accepts a subsequence of the packets sent, in
the order of sending and none twice. -/
theorem session_delivery {k : SessionKeys} {n : Nat} {sent : List Packet}
    (hcounters : sent.map (fun p => p.header.counter) = issued k n)
    (hkind : ∀ p ∈ sent, matchesValidKindPayload p.header.kind p.payload = true)
    (hideal : Ideal aead (sentCalls cfg k sent)) (last : Option UInt32) (arriving : List (List UInt8)) :
    ((receiver cfg aead k.sessionId k.salt).run last arriving).2.Sublist (sent.map fun p => (p.header, p.payload)) ∧
      ((receiver cfg aead k.sessionId k.salt).run last arriving).2.Pairwise
        (fun a b => a.1.counter.toNat < b.1.counter.toNat) := by
  have hsent : (sent.map fun p => (p.header, p.payload)).Pairwise (fun a b => a.1.counter.toNat < b.1.counter.toNat) := by
    have hinc := issued_pairwise k n
    rw [← hcounters, List.pairwise_map] at hinc
    exact List.pairwise_map.2 (hinc.imp fun hlt => UInt32.lt_iff_toNat_lt.1 hlt)
  exact (receiver_highWater hideal hkind).run_sublist hsent last arriving

end Delivery

/-- The first key report of the sample session, and its frame under `DummyAead`. -/
def firstReport : Packet := sampleKeyReport demoConfig 1

def firstFrame : List UInt8 :=
  [0x55, 0x66, 0x77, 0x88, 1, 0, 0, 0, 2, 3] ++ [1, 0] ++ [0x04] ++
    [230, 166, 223, 37, 183, 214, 118, 74, 0, 254, 206, 158, 234, 165, 218, 194]

/-- The receiver of the sample session, when the first report is all that was sealed. -/
def firstReceiver : Machine (Option UInt32) (List UInt8) (PacketHeader × Payload) :=
  @receiver target64 demoConfig (rememberingAead (sentCalls demoConfig sampleSession [firstReport]))
    sampleSession.sessionId sampleSession.salt

/-- Cut short, delivered, and delivered again, the report is accepted once. -/
theorem session_delivery_replayed :
    (firstReceiver.run none [firstFrame.take 20, firstFrame, firstFrame]).2.Sublist
      [(firstReport.header, firstReport.payload)] :=
  (@session_delivery target64 demoConfig (rememberingAead (sentCalls demoConfig sampleSession [firstReport]))
    sampleSession 1 [firstReport] (by decide) (fun p hp => by rw [List.mem_singleton.1 hp]; rfl)
    (ideal_rememberingAead _) none [firstFrame.take 20, firstFrame, firstFrame]).1

example : (firstReceiver.run none [firstFrame.take 20, firstFrame, firstFrame]).2 =
    [(firstReport.header, firstReport.payload)] := by
  decide +kernel

end KeyboardProject.Session
