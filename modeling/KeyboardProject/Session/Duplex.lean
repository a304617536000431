/-
Both ends of a session under one salt. The keyboard takes the counters of its data packets from
`next_counter`; the peer acknowledges the data packet of counter `c` by an ack of counter `c + 1`.
The nonce carries neither direction nor kind, so the ack of `c` and the data packet `c + 1` share it.
-/
import KeyboardProject.Session.Delivery

namespace KeyboardProject.Session

open Rust Rust.Outcome Proto Wire

/-! ## The two ends -/

/-- What the keyboard chooses of a data packet. -/
structure Data where
  kind : PacketKind
  flags : PacketFlags
  payload : Payload
  mac : List UInt8
  kind_ne : kind ≠ .ack

def Data.packet (d : Data) (sessionId counter : UInt32) : Packet where
  header := { sessionId, counter, kind := d.kind, flags := d.flags }
  payload := d.payload
  mac := d.mac

/-- The ack of the data packet of a counter, as the RF tests build it. -/
def ackPacket (cfg : ProtocolConfig) (sessionId counter : UInt32) : Packet where
  header :=
    { sessionId
      counter := counter + 1
      kind := .ack
      flags := { encrypted := true, needsAck := false, retransmit := false } }
  payload := .ack counter
  mac := List.replicate cfg.security.macLen 0xBB

/-- The keyboard's keys, the peer's last accepted counter, the data packets and the acks sealed so far,
and every frame the keyboard has put on the air. -/
structure Duplex where
  keyboard : SessionKeys
  last : Option UInt32
  data : List Packet
  acks : List Packet
  air : List (List UInt8)

inductive Event where
  | send (d : Data)
  | retransmit (i : Nat)
  | retransmitAck (i : Nat)
  | deliver (i : Nat)

namespace Duplex

/-- A packet that passes `serialize_packet` is passed on to `seal`. -/
def sealable (cfg : ProtocolConfig) (p : Packet) : Option Packet :=
  match serializePacket p cfg with
  | .ok _ => some p
  | _ => none

/-- The data packet that a send seals. -/
def outgoing (cfg : ProtocolConfig) (s : Duplex) (d : Data) : Option Packet :=
  match s.keyboard.nextCounter.1 with
  | .ok c => sealable cfg (d.packet s.keyboard.sessionId c)
  | _ => none

/-- What the peer accepts when it receives a frame from the air. -/
def accepts [Target] (cfg : ProtocolConfig) (aead : Aead) (s : Duplex) (i : Nat) : Option Packet :=
  s.air[i]?.bind (receive cfg aead s.keyboard.sessionId s.keyboard.salt s.last)

/-- The ack that it seals. -/
def reply [Target] (cfg : ProtocolConfig) (aead : Aead) (s : Duplex) (i : Nat) : Option Packet :=
  (s.accepts cfg aead i).bind fun p => sealable cfg (ackPacket cfg s.keyboard.sessionId p.header.counter)

/-- The call of `seal` on a packet, under the nonce of its own counter. -/
def call (cfg : ProtocolConfig) (k : SessionKeys) (p : Packet) : SealCall :=
  sealCall p cfg (k.nonceFor p.header.counter).1

/-- The frame that sealing a packet puts on the air, if the AEAD returns one. -/
def frame (cfg : ProtocolConfig) (aead : Aead) (k : SessionKeys) (p : Packet) : List (List UInt8) :=
  match sealFramed p cfg aead (k.nonceFor p.header.counter).1 with
  | .ok bytes => [bytes]
  | _ => []

end Duplex

/-- Both ends under one channel. A frame on the air can be delivered any number of times, at any time,
or never. The outputs are the calls of `seal` at both ends. -/
def duplex [Target] (cfg : ProtocolConfig) (aead : Aead) : Machine Duplex Event SealCall where
  step s event :=
    match event with
    | .send d =>
      let packets := (s.outgoing cfg d).toList
      ({ s with
          keyboard := s.keyboard.nextCounter.2
          data := s.data ++ packets
          air := s.air ++ packets.flatMap (Duplex.frame cfg aead s.keyboard) },
        packets.map (Duplex.call cfg s.keyboard))
    | .retransmit i =>
      -- the packet is sealed again as it was
      let packets := s.data[i]?.toList
      ({ s with air := s.air ++ packets.flatMap (Duplex.frame cfg aead s.keyboard) },
        packets.map (Duplex.call cfg s.keyboard))
    -- no ack's frame is kept: the keyboard seals nothing in answer to one
    | .retransmitAck i => (s, s.acks[i]?.toList.map (Duplex.call cfg s.keyboard))
    | .deliver i =>
      ({ s with
          last := match s.accepts cfg aead i with
            | some p => some p.header.counter
            | none => s.last
          acks := s.acks ++ (s.reply cfg aead i).toList },
        (s.reply cfg aead i).toList.map (Duplex.call cfg s.keyboard))

/-- The start of a session: nothing is sealed. -/
def Duplex.start (keyboard : SessionKeys) (last : Option UInt32) : Duplex :=
  { keyboard, last, data := [], acks := [], air := [] }

/-! ## What one step does -/

section Steps

variable {cfg : ProtocolConfig} {aead : Aead} {s : Duplex}

theorem nextCounter_sessionId (k : SessionKeys) : k.nextCounter.2.sessionId = k.sessionId := by
  rw [nextCounter_eq]; split_ifs <;> rfl

theorem nextCounter_salt (k : SessionKeys) : k.nextCounter.2.salt = k.salt := by
  rw [nextCounter_eq]; split_ifs <;> rfl

theorem counter_le_nextCounter (k : SessionKeys) : k.counter.toNat ≤ k.nextCounter.2.counter.toNat := by
  rw [nextCounter_eq]
  split_ifs with h
  · show k.counter.toNat ≤ (k.counter + 1).toNat
    rw [counter_succ_toNat h]; omega
  · exact le_rfl

theorem sealable_eq_some {p q : Packet} (h : Duplex.sealable cfg p = some q) : p = q := by
  unfold Duplex.sealable at h
  split at h
  · exact Option.some.inj h
  · contradiction

/-- A data packet takes the counter of the keyboard, which moves past it. -/
theorem outgoing_eq_some {d : Data} {p : Packet} (h : s.outgoing cfg d = some p) :
    p = d.packet s.keyboard.sessionId s.keyboard.counter ∧
      p.header.counter.toNat < s.keyboard.nextCounter.2.counter.toNat := by
  unfold Duplex.outgoing at h
  rw [nextCounter_eq] at h ⊢
  by_cases hlt : s.keyboard.counter.toNat < 2 ^ 31
  · rw [if_pos hlt] at h ⊢
    obtain rfl := sealable_eq_some h
    refine ⟨rfl, ?_⟩
    show s.keyboard.counter.toNat < (s.keyboard.counter + 1).toNat
    rw [counter_succ_toNat hlt]; omega
  · rw [if_neg hlt] at h
    contradiction

/-- An ack is sealed wherever its four bytes fit: its tag always has the length asked for. -/
theorem sealable_ackPacket (cfg : ProtocolConfig) (sessionId counter : UInt32) :
    Duplex.sealable cfg (ackPacket cfg sessionId counter) =
      if 4 ≤ cfg.maxPayloadBytes.toNat then some (ackPacket cfg sessionId counter) else none := by
  have hlen : (encodePayload (ackPacket cfg sessionId counter).payload).length = 4 := length_encodePayload _
  have hiff : (∃ x, serializePacket (ackPacket cfg sessionId counter) cfg = .ok x) ↔ 4 ≤ cfg.maxPayloadBytes.toNat := by
    simp only [serializePacket_eq_ok, hlen]
    simp [ackPacket, payloadLimit]
  unfold Duplex.sealable
  cases h : serializePacket (ackPacket cfg sessionId counter) cfg with
  | ok x => rw [if_pos (hiff.1 ⟨x, h⟩)]
  | err e => rw [if_neg fun hmax => by obtain ⟨x, hx⟩ := hiff.2 hmax; rw [h] at hx; contradiction]
  | panic => exact absurd h (serializePacket_ne_panic _ _)

theorem reply_eq_some [Target] {i : Nat} {a : Packet} :
    s.reply cfg aead i = some a ↔ ∃ p, s.accepts cfg aead i = some p ∧ 4 ≤ cfg.maxPayloadBytes.toNat ∧
      ackPacket cfg s.keyboard.sessionId p.header.counter = a := by
  unfold Duplex.reply
  simp only [Option.bind_eq_some_iff, sealable_ackPacket, Option.ite_none_right_eq_some, Option.some.injEq]

end Steps

/-! ## The invariant -/

section Invariant

variable {cfg : ProtocolConfig} {aead : Aead} {k : SessionKeys}

/-- What every run of a session under the keys `k` keeps: the data packets have increasing counters
below the keyboard's, the acks are determined by their counters, and the calls of `seal` are those on
the data packets and the acks. -/
structure Inv (cfg : ProtocolConfig) (k : SessionKeys) (log : List SealCall) (s : Duplex) : Prop where
  sessionId : s.keyboard.sessionId = k.sessionId
  salt : s.keyboard.salt = k.salt
  data_lt : ∀ p ∈ s.data, p.header.counter.toNat < s.keyboard.counter.toNat
  data_increasing : s.data.Pairwise (fun p q => p.header.counter.toNat < q.header.counter.toNat)
  data_kind : ∀ p ∈ s.data, p.header.kind ≠ .ack
  acks_eq : ∀ a ∈ s.acks, ∃ c, a = ackPacket cfg k.sessionId c
  calls : ∀ x, x ∈ log ↔ ∃ p, (p ∈ s.data ∨ p ∈ s.acks) ∧ Duplex.call cfg k p = x

theorem call_congr {k k' : SessionKeys} (h : k.salt = k'.salt) : Duplex.call cfg k = Duplex.call cfg k' := by
  funext p
  simp only [Duplex.call, SessionKeys.nonceFor, h]

theorem inv_start (cfg : ProtocolConfig) (k : SessionKeys) (last : Option UInt32) : Inv cfg k [] (.start k last) where
  sessionId := rfl
  salt := rfl
  data_lt := by simp [Duplex.start]
  data_increasing := List.Pairwise.nil
  data_kind := by simp [Duplex.start]
  acks_eq := by simp [Duplex.start]
  calls := by simp [Duplex.start]

/-- The calls of a step are those on the packets it seals, new ones or old ones. -/
theorem Inv.calls_append {log : List SealCall} {s : Duplex} (h : Inv cfg k log s) {packets : List Packet}
    {P : Packet → Prop} (hP : ∀ p, P p ↔ (p ∈ s.data ∨ p ∈ s.acks) ∨ p ∈ packets) (x : SealCall) :
    x ∈ log ++ packets.map (Duplex.call cfg s.keyboard) ↔ ∃ p, P p ∧ Duplex.call cfg k p = x := by
  rw [call_congr h.salt, List.mem_append, h.calls, List.mem_map]
  simp only [hP, or_and_right, exists_or]

theorem mem_of_mem_getElem? {l : List Packet} {i : Nat} {p : Packet} (h : p ∈ l[i]?.toList) : p ∈ l :=
  List.mem_of_getElem? (Option.mem_toList.1 h)

theorem Inv.step [Target] {log : List SealCall} {s : Duplex} (h : Inv cfg k log s) (event : Event) :
    Inv cfg k (log ++ ((duplex cfg aead).step s event).2) ((duplex cfg aead).step s event).1 := by
  cases event with
  | send d =>
    have hnew : ∀ p ∈ (s.outgoing cfg d).toList, p = d.packet s.keyboard.sessionId s.keyboard.counter ∧
        p.header.counter.toNat < s.keyboard.nextCounter.2.counter.toNat := fun p hp =>
      outgoing_eq_some (Option.mem_toList.1 hp)
    refine ⟨(nextCounter_sessionId _).trans h.sessionId, (nextCounter_salt _).trans h.salt, ?_, ?_, ?_, h.acks_eq,
      h.calls_append fun p => ?_⟩
    · intro p hp
      rcases List.mem_append.1 hp with hp | hp
      · exact (h.data_lt p hp).trans_le (counter_le_nextCounter _)
      · exact (hnew p hp).2
    · -- the new packet has the keyboard's counter, above those of the packets before it
      refine List.pairwise_append.2 ⟨h.data_increasing, ?_, fun p hp q hq => ?_⟩
      · cases s.outgoing cfg d <;> simp
      · rw [(hnew q hq).1]; exact h.data_lt p hp
    · intro p hp
      rcases List.mem_append.1 hp with hp | hp
      · exact h.data_kind p hp
      · rw [(hnew p hp).1]; exact d.kind_ne
    · show (p ∈ s.data ++ (s.outgoing cfg d).toList ∨ p ∈ s.acks) ↔ _
      rw [List.mem_append]; tauto
  | retransmit i =>
    refine { h with calls := h.calls_append fun p => ?_ }
    have hmem : p ∈ s.data[i]?.toList → p ∈ s.data := mem_of_mem_getElem?
    tauto
  | retransmitAck i =>
    refine { h with calls := h.calls_append fun p => ?_ }
    have hmem : p ∈ s.acks[i]?.toList → p ∈ s.acks := mem_of_mem_getElem?
    tauto
  | deliver i =>
    refine { h with acks_eq := ?_, calls := h.calls_append fun p => ?_ }
    · intro a ha
      rcases List.mem_append.1 ha with ha | ha
      · exact h.acks_eq a ha
      · obtain ⟨p, -, -, rfl⟩ := reply_eq_some.1 (Option.mem_toList.1 ha)
        exact ⟨_, by rw [h.sessionId]⟩
    · show (p ∈ s.data ∨ p ∈ s.acks ++ (s.reply cfg aead i).toList) ↔ _
      rw [List.mem_append]; tauto

end Invariant

/-! ## Nonce safety -/

/-- No nonce is passed to `seal` with two different pairs of associated data and payload. -/
def NonceSafe (log : List SealCall) : Prop :=
  ∀ x ∈ log, ∀ y ∈ log, x.nonce = y.nonce → x.aad = y.aad ∧ x.plaintext = y.plaintext

instance (log : List SealCall) : Decidable (NonceSafe log) :=
  inferInstanceAs (Decidable (∀ x ∈ log, ∀ y ∈ log, x.nonce = y.nonce → x.aad = y.aad ∧ x.plaintext = y.plaintext))

/-- No ack sealed so far has the counter of a data packet sealed so far. -/
def Apart (s : Duplex) : Prop := ∀ p ∈ s.data, ∀ a ∈ s.acks, p.header.counter ≠ a.header.counter

section Safety

variable {cfg : ProtocolConfig} {aead : Aead} {k : SessionKeys} {log : List SealCall} {s : Duplex}

/-- Two packets sealed by the same end under one counter are the same packet. -/
theorem Inv.eq_of_counter (h : Inv cfg k log s) {p q : Packet}
    (hpq : (p ∈ s.data ∧ q ∈ s.data) ∨ (p ∈ s.acks ∧ q ∈ s.acks)) (heq : p.header.counter = q.header.counter) : p = q := by
  rcases hpq with ⟨hp, hq⟩ | ⟨hp, hq⟩
  · have hnodup : (s.data.map fun p => p.header.counter.toNat).Nodup :=
      List.pairwise_map.2 (h.data_increasing.imp ne_of_lt)
    exact List.inj_on_of_nodup_map hnodup hp hq (congrArg UInt32.toNat heq)
  · obtain ⟨c, rfl⟩ := h.acks_eq p hp
    obtain ⟨c', rfl⟩ := h.acks_eq q hq
    have hc : c = c' := by simpa [ackPacket] using heq
    rw [hc]

theorem nonce_call_inj {k : SessionKeys} {p q : Packet} (h : (Duplex.call cfg k p).nonce = (Duplex.call cfg k q).nonce) :
    p.header.counter = q.header.counter := (deriveNonce_inj (Subtype.ext h)).2

/-- The log is safe exactly as long as the acks' counters stay apart from the data packets'. -/
theorem Inv.nonceSafe_iff (h : Inv cfg k log s) : NonceSafe log ↔ Apart s := by
  constructor
  · intro hsafe p hp a ha heq
    -- the two calls have one nonce, so one header, but only one of them is an ack
    have hx := (h.calls _).2 ⟨p, Or.inl hp, rfl⟩
    have hy := (h.calls _).2 ⟨a, Or.inr ha, rfl⟩
    have hnonce : (Duplex.call cfg k p).nonce = (Duplex.call cfg k a).nonce := by
      simp only [Duplex.call, sealCall, heq]
    obtain ⟨haad, -⟩ := hsafe _ hx _ hy hnonce
    have hheader := (associatedData_inj (Subtype.ext haad)).1
    obtain ⟨c, rfl⟩ := h.acks_eq a ha
    exact h.data_kind p hp (congrArg PacketHeader.kind hheader)
  · intro hapart x hx y hy hnonce
    obtain ⟨p, hp, rfl⟩ := (h.calls x).1 hx
    obtain ⟨q, hq, rfl⟩ := (h.calls y).1 hy
    have hcounter := nonce_call_inj hnonce
    -- at one end a counter fixes the packet, and the two ends are apart
    have hpq : p = q := by
      rcases hp with hp | hp <;> rcases hq with hq | hq
      · exact h.eq_of_counter (Or.inl ⟨hp, hq⟩) hcounter
      · exact absurd hcounter (hapart p hp q hq)
      · exact absurd hcounter.symm (hapart q hq p hp)
      · exact h.eq_of_counter (Or.inr ⟨hp, hq⟩) hcounter
    rw [hpq]
    exact ⟨rfl, rfl⟩

/-- The step does not bring an ack and a data packet together: nothing is sealed under the keyboard's
counter while an ack has it, that is, while the data packet of the counter below has been acknowledged;
and no data packet is acknowledged while the one of the counter above has been sealed. -/
def Clear [Target] (cfg : ProtocolConfig) (aead : Aead) (_log : List SealCall) (s : Duplex) : Event → Prop
  | .send d => (s.outgoing cfg d).isSome → ∀ a ∈ s.acks, a.header.counter ≠ s.keyboard.counter
  | .deliver i => ∀ p, s.accepts cfg aead i = some p → 4 ≤ cfg.maxPayloadBytes.toNat →
      ∀ q ∈ s.data, q.header.counter ≠ p.header.counter + 1
  | .retransmit _ => True
  | .retransmitAck _ => True

variable [Target]

theorem apart_of_step (s : Duplex) (event : Event) (h : Apart ((duplex cfg aead).step s event).1) : Apart s := by
  cases event with
  | send d =>
    have hdata : s.data ⊆ ((duplex cfg aead).step s (.send d)).1.data := List.subset_append_left _ _
    exact fun p hp => h p (hdata hp)
  | retransmit i => exact h
  | retransmitAck i => exact h
  | deliver i =>
    have hacks : s.acks ⊆ ((duplex cfg aead).step s (.deliver i)).1.acks := List.subset_append_left _ _
    exact fun p hp a ha => h p hp a (hacks ha)

theorem clear_iff (log : List SealCall) (s : Duplex) (event : Event) (h : Apart s) :
    Clear cfg aead log s event ↔ Apart ((duplex cfg aead).step s event).1 := by
  cases event with
  | send d =>
    show _ ↔ ∀ p ∈ s.data ++ (s.outgoing cfg d).toList, ∀ a ∈ s.acks, p.header.counter ≠ a.header.counter
    simp only [Clear]
    cases ho : s.outgoing cfg d with
    | none => simpa [Apart] using h
    | some p =>
      have hp : p.header.counter = s.keyboard.counter := by rw [(outgoing_eq_some ho).1]; rfl
      simp only [Option.isSome_some, true_imp_iff, Option.toList_some, List.forall_mem_append, List.forall_mem_singleton, hp]
      exact ⟨fun hc => ⟨h, fun a ha => (hc a ha).symm⟩, fun hc a ha => (hc.2 a ha).symm⟩
  | retransmit i => exact ⟨fun _ => h, fun _ => trivial⟩
  | retransmitAck i => exact ⟨fun _ => h, fun _ => trivial⟩
  | deliver i =>
    show _ ↔ ∀ p ∈ s.data, ∀ a ∈ s.acks ++ (s.reply cfg aead i).toList, p.header.counter ≠ a.header.counter
    simp only [Clear]
    constructor
    · intro hc q hq a ha
      rcases List.mem_append.1 ha with ha | ha
      · exact h q hq a ha
      · obtain ⟨p, hp, hmax, rfl⟩ := reply_eq_some.1 (Option.mem_toList.1 ha)
        exact hc p hp hmax q hq
    · intro hc p hp hmax q hq
      have hr : s.reply cfg aead i = some (ackPacket cfg s.keyboard.sessionId p.header.counter) :=
        reply_eq_some.2 ⟨p, hp, hmax, rfl⟩
      exact hc q hq _ (List.mem_append_right _ (Option.mem_toList.2 hr))

/-- In a session of both ends, no nonce is used for two different messages exactly along the runs that
never bring an ack and a data packet together: the ack of a data packet uses up the nonce of the next. -/
theorem duplex_nonceSafe_iff (k : SessionKeys) (last : Option UInt32) (events : List Event) :
    NonceSafe ((duplex cfg aead).run (.start k last) events).2 ↔
      (duplex cfg aead).Along (Clear cfg aead) [] (.start k last) events := by
  have hinv : Inv cfg k ((duplex cfg aead).run (.start k last) events).2 ((duplex cfg aead).run (.start k last) events).1 :=
    Machine.invariant (P := Inv cfg k) (inv_start cfg k last) (fun _ _ event h => h.step event) events
  rw [hinv.nonceSafe_iff]
  have hstart : Apart (.start k last) := by intro p hp; simp [Duplex.start] at hp
  exact (Machine.along_iff apart_of_step clear_iff events hstart).symm

end Safety

/-- A key report of one key, as the keyboard sends it. -/
def keyData (key : UInt8) : Data where
  kind := .keyReport
  flags := { encrypted := true, needsAck := true, retransmit := false }
  payload := .keyReport [key]
  mac := List.replicate 16 0xAA
  kind_ne := by decide

/-- The flow of the RF tests: the first frame is lost, the second delivered, its ack sent twice. -/
example : NonceSafe ((@duplex target64 demoConfig dummyAead).run (.start sampleSession (some 0))
    [.send (keyData 4), .retransmit 0, .deliver 1, .retransmitAck 0]).2 := by
  decide +kernel

/-- Two key reports, the first delivered before the second is sent: the ack of the first and the second
report are sealed under one nonce. -/
theorem ack_reuses_nonce :
    ¬NonceSafe ((@duplex target64 demoConfig dummyAead).run (.start sampleSession (some 0))
      [.send (keyData 4), .deliver 0, .send (keyData 5)]).2 := by
  decide +kernel

end KeyboardProject.Session
