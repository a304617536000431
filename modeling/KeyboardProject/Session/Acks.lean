/-
What an ack tells the keyboard. While the peer hears the keyboard's frames and no others, an ack that opens
was sent for a packet the peer accepted, whatever else reaches the keyboard. An ack that is reflected to the
peer itself is taken for the next data packet: neither header nor nonce has a direction.
-/
import KeyboardProject.Session.Duplex

namespace KeyboardProject.Session

open Rust Rust.Outcome Proto Wire

/-! ## The keyboard's side -/

/-- The keyboard takes a byte string for the ack of its data packet of a counter. -/
def takesAsAck [Target] (cfg : ProtocolConfig) (aead : Aead) (k : SessionKeys) (counter : UInt32) (bytes : List UInt8) :
    Bool :=
  match openFramed bytes cfg aead (k.nonceFor (counter + 1)).1 with
  | .ok parsedAck => decide (parsedAck.payload = .ack counter)
  | _ => false

/-- The packets that an event makes the peer accept. -/
def Duplex.acceptedIn [Target] (cfg : ProtocolConfig) (aead : Aead) (s : Duplex) : Event → List Packet
  | .deliver i => (s.accepts cfg aead i).toList
  | _ => []

/-- Both ends, beside every packet the peer has accepted so far. -/
def history [Target] (cfg : ProtocolConfig) (aead : Aead) : Machine (Duplex × List Packet) Event SealCall where
  step s event :=
    ((((duplex cfg aead).step s.1 event).1, s.2 ++ s.1.acceptedIn cfg aead event), ((duplex cfg aead).step s.1 event).2)

/-- Header and payload bytes of a packet. -/
def content (p : Packet) : PacketHeader × List UInt8 := (p.header, encodePayload p.payload)

section Histories

variable [Target] {cfg : ProtocolConfig} {aead : Aead} {k : SessionKeys}

/-- The record changes nothing. -/
theorem run_history (s : Duplex) (accepted : List Packet) (events : List Event) :
    (duplex cfg aead).run s events =
      (((history cfg aead).run (s, accepted) events).1.1, ((history cfg aead).run (s, accepted) events).2) := by
  have hstep : ∀ (t : Duplex × List Packet) (event : Event), (duplex cfg aead).step t.1 (id event) =
      (((history cfg aead).step t event).1.1, (((history cfg aead).step t event).2).map id) := by
    intro t event
    rw [List.map_id]
    rfl
  have h := (history cfg aead).run_map (f := Prod.fst) hstep (s, accepted) events
  simpa using h

/-- What a session keeps beside `Inv`, under any AEAD: the peer accepted packets in order of their counters, none
above its last one, and acknowledged what it accepted. -/
structure Acknowledges (cfg : ProtocolConfig) (k : SessionKeys) (s : Duplex × List Packet) : Prop where
  increasing : s.2.Pairwise fun p q => p.header.counter.toNat < q.header.counter.toNat
  below : ∀ p ∈ s.2, ∃ l, s.1.last = some l ∧ p.header.counter.toNat ≤ l.toNat
  acks : s.1.acks =
    if 4 ≤ cfg.maxPayloadBytes.toNat then s.2.map fun p => ackPacket cfg k.sessionId p.header.counter else []

/-- And under an ideal one: every frame on the air is that of a data packet, and the peer accepted data packets. -/
structure Records (cfg : ProtocolConfig) (aead : Aead) (k : SessionKeys) (s : Duplex × List Packet) : Prop where
  air : ∀ b ∈ s.1.air, ∃ d ∈ s.1.data, sealFramed d cfg aead (k.nonceFor d.header.counter).1 = .ok b
  sent : ∀ p ∈ s.2, ∃ d ∈ s.1.data, content d = content p

theorem history_step (s : Duplex) (accepted : List Packet) (event : Event) :
    ((history cfg aead).step (s, accepted) event).1 =
      (((duplex cfg aead).step s event).1, accepted ++ s.acceptedIn cfg aead event) := rfl

theorem history_step_of_nil {s : Duplex} {event : Event} (h : s.acceptedIn cfg aead event = []) (accepted : List Packet) :
    ((history cfg aead).step (s, accepted) event).1 = (((duplex cfg aead).step s event).1, accepted) := by
  rw [history_step, h, List.append_nil]

omit [Target] in
theorem acknowledges_start (k : SessionKeys) (last : Option UInt32) : Acknowledges cfg k (.start k last, []) := by
  constructor <;> simp [Duplex.start]

omit [Target] in
theorem records_start (k : SessionKeys) (last : Option UInt32) : Records cfg aead k (.start k last, []) := by
  constructor <;> simp [Duplex.start]

/-- What the peer accepts is ahead of everything it has accepted. -/
theorem Acknowledges.ahead {s : Duplex} {accepted : List Packet} (h : Acknowledges cfg k (s, accepted)) {i : Nat}
    {p : Packet} (hp : s.accepts cfg aead i = some p) :
    ∀ q ∈ accepted, q.header.counter.toNat < p.header.counter.toNat := by
  obtain ⟨b, -, hreceive⟩ := Option.bind_eq_some_iff.1 hp
  intro q hq
  obtain ⟨l, hl, hle⟩ := h.below q hq
  exact hle.trans_lt (receive_above hreceive l hl)

/-- A delivery that the peer accepts. -/
theorem Acknowledges.deliver {s : Duplex} {accepted : List Packet} (h : Acknowledges cfg k (s, accepted))
    (hid : s.keyboard.sessionId = k.sessionId) {i : Nat} {p : Packet} (hp : s.accepts cfg aead i = some p) :
    Acknowledges cfg k ({ s with last := some p.header.counter, acks := s.acks ++ (s.reply cfg aead i).toList },
      accepted ++ [p]) := by
  have hahead := h.ahead hp
  refine ⟨?_, ?_, ?_⟩
  · exact List.pairwise_append.2 ⟨h.increasing, List.pairwise_singleton _ _, by simpa using hahead⟩
  · intro q hq
    refine ⟨p.header.counter, rfl, ?_⟩
    rcases List.mem_append.1 hq with hq | hq
    · exact (hahead q hq).le
    · rw [List.mem_singleton.1 hq]
  · have hreply : s.reply cfg aead i =
        if 4 ≤ cfg.maxPayloadBytes.toNat then some (ackPacket cfg k.sessionId p.header.counter) else none := by
      rw [Duplex.reply, hp, Option.bind_some, sealable_ackPacket, hid]
    have hacks := h.acks
    simp only at hacks ⊢
    rw [hreply, hacks]
    split_ifs <;> simp

theorem Acknowledges.step {s : Duplex × List Packet} (h : Acknowledges cfg k s)
    (hid : s.1.keyboard.sessionId = k.sessionId) (event : Event) :
    Acknowledges cfg k ((history cfg aead).step s event).1 := by
  obtain ⟨s, accepted⟩ := s
  cases event with
  | send d =>
    rw [history_step_of_nil rfl]
    exact ⟨h.increasing, h.below, h.acks⟩
  | retransmit i =>
    rw [history_step_of_nil rfl]
    exact ⟨h.increasing, h.below, h.acks⟩
  | retransmitAck i =>
    rw [history_step_of_nil rfl]
    exact h
  | deliver i =>
    cases hp : s.accepts cfg aead i with
    | none =>
      have hreply : s.reply cfg aead i = none := by rw [Duplex.reply, hp, Option.bind_none]
      simpa [history, duplex, Duplex.acceptedIn, hp, hreply] using h
    | some p =>
      have hnext := h.deliver hid hp
      simpa [history, duplex, Duplex.acceptedIn, hp] using hnext

/-- In every run, under any AEAD. -/
theorem run_acknowledges (k : SessionKeys) (last : Option UInt32) (events : List Event) :
    Inv cfg k ((duplex cfg aead).run (.start k last) events).2 ((duplex cfg aead).run (.start k last) events).1 ∧
      Acknowledges cfg k ((history cfg aead).run (.start k last, []) events).1 := by
  rw [run_history (.start k last) [] events]
  exact Machine.invariant (M := history cfg aead) (s := (.start k last, []))
    (P := fun log s => Inv cfg k log s.1 ∧ Acknowledges cfg k s) ⟨inv_start cfg k last, acknowledges_start k last⟩
    (fun log s event hs => ⟨hs.1.step event, hs.2.step hs.1.sessionId event⟩) events

/-- The frame of a packet that was sealed opens to its content, and to no other. -/
theorem content_of_openFramed {calls : List SealCall} (hideal : Ideal aead calls) {d p : Packet} {b : List UInt8}
    (hcall : sealCall d cfg (k.nonceFor d.header.counter).1 ∈ calls)
    (hseal : sealFramed d cfg aead (k.nonceFor d.header.counter).1 = .ok b)
    (hopen : openFramed b cfg aead (k.nonceFor p.header.counter).1 = .ok p) : content d = content p := by
  obtain ⟨f, hf, -, hlen, -, hs⟩ := sealFramed_eq_ok_bytes
    (fun c t hs => ⟨(hideal.correct _ hcall c t hs).1, (hideal.correct _ hcall c t hs).2.1⟩) hseal
  obtain ⟨g, hg, -, -, -, x, ho, hp⟩ := (openFramed_eq_ok (frameFits_of_openFramed hopen)).1 hopen
  obtain rfl := Frame.bytes_inj (hg.trans hf.symm)
  have hheader : p.header = d.header := header_of_openFramed hseal hopen
  rw [hlen] at hs ho
  rw [hheader] at ho
  obtain ⟨-, -, ho'⟩ := hideal.correct _ hcall _ _ hs
  obtain rfl := ok.inj (ho'.symm.trans ho)
  exact Prod.ext hheader.symm (decodePayload_eq_ok.1 hp).2.symm

omit [Target] in
theorem mem_frame {p : Packet} {b : List UInt8} (h : b ∈ Duplex.frame cfg aead k p) :
    sealFramed p cfg aead (k.nonceFor p.header.counter).1 = .ok b := by
  unfold Duplex.frame at h
  split at h
  · rename_i bytes hbytes
    rw [List.mem_singleton.1 h, hbytes]
  · simp at h

omit [Target] in
/-- A step that puts frames of data packets on the air and leaves the peer alone. -/
theorem Records.send {s s' : Duplex} {accepted packets : List Packet} (h : Records cfg aead k (s, accepted))
    (hsalt : s.keyboard.salt = k.salt) (hdata : s.data ⊆ s'.data) (hpackets : packets ⊆ s'.data)
    (hair : s'.air = s.air ++ packets.flatMap (Duplex.frame cfg aead s.keyboard)) : Records cfg aead k (s', accepted) where
  air := by
    intro b hb
    rcases List.mem_append.1 (hair ▸ hb) with hb | hb
    · obtain ⟨d, hd, hs⟩ := h.air b hb
      exact ⟨d, hdata hd, hs⟩
    · obtain ⟨d, hd, hs⟩ := List.mem_flatMap.1 hb
      have hs := mem_frame hs
      simp only [SessionKeys.nonceFor, hsalt] at hs
      exact ⟨d, hpackets hd, hs⟩
  sent := by
    intro p hp
    obtain ⟨d, hd, heq⟩ := h.sent p hp
    exact ⟨d, hdata hd, heq⟩

/-- What the peer accepts was sent. -/
theorem Records.accepts {calls : List SealCall} (hideal : Ideal aead calls) {s : Duplex} {accepted : List Packet}
    (h : Records cfg aead k (s, accepted)) (hsalt : s.keyboard.salt = k.salt)
    (hcalls : ∀ d ∈ s.data, Duplex.call cfg k d ∈ calls) {i : Nat} {p : Packet} (hp : s.accepts cfg aead i = some p) :
    ∃ d ∈ s.data, content d = content p := by
  obtain ⟨b, hb, hreceive⟩ := Option.bind_eq_some_iff.1 hp
  obtain ⟨d, hd, hseal⟩ := h.air b (List.mem_of_getElem? hb)
  obtain ⟨hopen, -⟩ := receive_eq_some.1 hreceive
  rw [hsalt] at hopen
  exact ⟨d, hd, content_of_openFramed hideal (hcalls d hd) hseal hopen⟩

theorem Records.step {calls log : List SealCall} (hideal : Ideal aead calls) {s : Duplex × List Packet}
    (h : Records cfg aead k s) (hinv : Inv cfg k log s.1) (hlog : ∀ x ∈ log, x ∈ calls) (event : Event) :
    Records cfg aead k ((history cfg aead).step s event).1 := by
  obtain ⟨s, accepted⟩ := s
  cases event with
  | send d =>
    rw [history_step_of_nil rfl]
    exact h.send hinv.salt (List.subset_append_left _ _) (List.subset_append_right _ _) rfl
  | retransmit i =>
    rw [history_step_of_nil rfl]
    exact h.send hinv.salt (List.Subset.refl _) (fun p hp => mem_of_mem_getElem? hp) rfl
  | retransmitAck i =>
    rw [history_step_of_nil rfl]
    exact h
  | deliver i =>
    have hcalls : ∀ d ∈ s.data, Duplex.call cfg k d ∈ calls := fun d hd => hlog _ ((hinv.calls _).2 ⟨d, Or.inl hd, rfl⟩)
    refine ⟨h.air, fun p hp => ?_⟩
    rcases List.mem_append.1 hp with hp | hp
    · exact h.sent p hp
    · exact h.accepts hideal hinv.salt hcalls (Option.mem_toList.1 hp)

/-- In every run whose calls of `seal` the AEAD is ideal for. -/
theorem run_records (last : Option UInt32) (events : List Event)
    (hideal : Ideal aead ((duplex cfg aead).run (.start k last) events).2) :
    Records cfg aead k ((history cfg aead).run (.start k last, []) events).1 := by
  have hrun := @run_history _ cfg aead (.start k last) [] events
  generalize hcalls : ((duplex cfg aead).run (.start k last) events).2 = calls at hideal
  have hboth := Machine.invariant (M := history cfg aead) (s := (.start k last, []))
    (P := fun log s => Inv cfg k log s.1 ∧ ((∀ x ∈ log, x ∈ calls) → Records cfg aead k s))
    ⟨inv_start cfg k last, fun _ => records_start k last⟩
    (fun log s event hs => ⟨hs.1.step event, fun hlog => by
      have hbefore : ∀ x ∈ log, x ∈ calls := fun x hx => hlog x (List.mem_append_left _ hx)
      exact (hs.2 hbefore).step hideal hs.1 hbefore event⟩) events
  rw [hrun] at hcalls
  subst hcalls
  exact hboth.2 fun x hx => hx

/-- What the keyboard takes for the ack of a counter was sealed as that ack. -/
theorem exists_ack_of_takesAsAck {log : List SealCall} {s : Duplex} (hinv : Inv cfg k log s) (hideal : Ideal aead log)
    {c : UInt32} {bytes : List UInt8} (h : takesAsAck cfg aead k c bytes = true) : ackPacket cfg k.sessionId c ∈ s.acks := by
  unfold takesAsAck at h
  split at h
  · rename_i parsedAck hopen
    have hpayload : parsedAck.payload = .ack c := of_decide_eq_true h
    obtain ⟨f, -, -, -, -, x, ho, hd⟩ := (openFramed_eq_ok (frameFits_of_openFramed hopen)).1 hopen
    obtain ⟨call, hmem, -, haad, hplain, -⟩ := hideal.opens ho
    obtain ⟨q, hq, rfl⟩ := (hinv.calls call).1 hmem
    obtain ⟨hheader, -⟩ := associatedData_inj (Subtype.ext haad)
    obtain ⟨hm, hx⟩ := decodePayload_eq_ok.1 hd
    -- an ack's payload is read under an ack's header, and no data packet has one
    have hkind : q.header.kind = .ack := by
      rw [hheader]
      rw [hpayload] at hm
      cases hk : parsedAck.header.kind <;> rw [hk] at hm <;> first | rfl | cases hm
    have hq : q ∈ s.acks := hq.resolve_left fun hdata => hinv.data_kind q hdata hkind
    obtain ⟨c', rfl⟩ := hinv.acks_eq q hq
    have hbytes : encodePayload (.ack c') = encodePayload (.ack c) := by
      rw [← hpayload, hx]
      exact hplain
    have hc : Payload.ack c' = Payload.ack c := @encodePayload_inj .ack _ _ rfl rfl hbytes
    rw [← (Payload.ack.inj hc)]
    exact hq
  · contradiction

/-- Acks are sound and delivery is in order, for every number of data packets and every order of sends, losses,
retransmissions and deliveries: the peer accepts a subsequence of what the keyboard sent, and bytes that the
keyboard takes for the ack of a counter, wherever they come from, were sealed for a data packet of that
counter that the peer has accepted. -/
theorem acks_sound (k : SessionKeys) (last : Option UInt32) (events : List Event)
    (hideal : Ideal aead ((duplex cfg aead).run (.start k last) events).2) :
    (((history cfg aead).run (.start k last, []) events).1.2.map content).Sublist
        (((duplex cfg aead).run (.start k last) events).1.data.map content) ∧
      ∀ c bytes, takesAsAck cfg aead k c bytes = true →
        ∃ d ∈ ((duplex cfg aead).run (.start k last) events).1.data,
          ∃ p ∈ ((history cfg aead).run (.start k last, []) events).1.2, d.header.counter = c ∧ content d = content p := by
  obtain ⟨hinv, hacknowledges⟩ := @run_acknowledges _ cfg aead k last events
  have hrecords := run_records last events hideal
  have hrun := congrArg Prod.fst (@run_history _ cfg aead (.start k last) [] events)
  generalize ((history cfg aead).run (.start k last, []) events).1 = s at hrun hrecords hacknowledges ⊢
  generalize (duplex cfg aead).run (.start k last) events = r at hrun hinv hideal ⊢
  constructor
  · -- both lists go up by counter, so it is enough that the one is contained in the other
    have hlt : Std.Antisymm fun a b : PacketHeader × List UInt8 => a.1.counter.toNat < b.1.counter.toNat :=
      ⟨fun a b hab hba => absurd hab hba.not_gt⟩
    have haccepted : (s.2.map content).Pairwise fun a b => a.1.counter.toNat < b.1.counter.toNat :=
      List.pairwise_map.2 hacknowledges.increasing
    have hdata : (r.1.data.map content).Pairwise fun a b => a.1.counter.toNat < b.1.counter.toNat :=
      List.pairwise_map.2 hinv.data_increasing
    have hnodup : (s.2.map content).Nodup := haccepted.imp fun hab => by rintro rfl; exact lt_irrefl _ hab
    refine List.sublist_of_subperm_of_pairwise (List.subperm_of_subset hnodup fun a ha => ?_) haccepted hdata
    obtain ⟨p, hp, rfl⟩ := List.mem_map.1 ha
    obtain ⟨d, hd, heq⟩ := hrecords.sent p hp
    rw [← heq, hrun]
    exact List.mem_map_of_mem hd
  · intro c bytes htakes
    have hack := exists_ack_of_takesAsAck hinv hideal htakes
    rw [hrun] at hack
    rw [hacknowledges.acks] at hack
    obtain ⟨p, hp, heq⟩ : ∃ p ∈ s.2, ackPacket cfg k.sessionId p.header.counter = ackPacket cfg k.sessionId c := by
      split_ifs at hack
      · exact List.mem_map.1 hack
      · contradiction
    obtain ⟨d, hd, hcontent⟩ := hrecords.sent p hp
    refine ⟨d, hrun ▸ hd, p, hp, ?_, hcontent⟩
    have hheader : d.header = p.header := congrArg Prod.fst hcontent
    have hcounter : Payload.ack p.header.counter = Payload.ack c := congrArg Packet.payload heq
    rw [hheader, Payload.ack.inj hcounter]

/-- The frame of a packet that the peer has accepted is not accepted again: it opens under its own header, and
its counter would be ahead of itself. -/
theorem Acknowledges.not_accepts {s : Duplex} {accepted : List Packet} (h : Acknowledges cfg k (s, accepted))
    {d p : Packet} (hp : p ∈ accepted) (hcontent : content d = content p) {nonce b : List UInt8} {i : Nat}
    (hb : s.air[i]? = some b) (hseal : sealFramed d cfg aead nonce = .ok b) : s.accepts cfg aead i = none := by
  rw [Option.eq_none_iff_forall_ne_some]
  intro q hq
  have hahead := h.ahead hq p hp
  obtain ⟨b', hb', hreceive⟩ := Option.bind_eq_some_iff.1 hq
  obtain rfl := Option.some.inj (hb.symm.trans hb')
  have hheader : q.header = d.header := header_of_openFramed hseal (receive_eq_some.1 hreceive).1
  have hsame : d.header = p.header := congrArg Prod.fst hcontent
  rw [hheader, hsame] at hahead
  exact lt_irrefl _ hahead

end Histories

/-- The calls of one key report, delivered and acknowledged. -/
def reportCalls : List SealCall :=
  [Duplex.call demoConfig sampleSession ((keyData 4).packet sampleSession.sessionId 1),
    Duplex.call demoConfig sampleSession (ackPacket demoConfig sampleSession.sessionId 1)]

/-- The frame of that ack. -/
def reportAck : List UInt8 :=
  [0x55, 0x66, 0x77, 0x88, 2, 0, 0, 0, 3, 1] ++ [4, 0] ++ [1, 0, 0, 0] ++
    [179, 157, 192, 104, 17, 124, 235, 197, 71, 173, 27, 80, 13, 6, 115, 168]

/-- One key report is sent and delivered; the bytes of its ack are taken for one, so it was accepted. -/
theorem acks_sound_report :
    ∃ d ∈ ((@duplex target64 demoConfig (rememberingAead reportCalls)).run (.start sampleSession (some 0))
        [.send (keyData 4), .deliver 0]).1.data,
      ∃ p ∈ ((@history target64 demoConfig (rememberingAead reportCalls)).run (.start sampleSession (some 0), [])
        [.send (keyData 4), .deliver 0]).1.2, d.header.counter = 1 ∧ content d = content p := by
  have hcalls : ((@duplex target64 demoConfig (rememberingAead reportCalls)).run (.start sampleSession (some 0))
      [.send (keyData 4), .deliver 0]).2 = reportCalls := by decide +kernel
  exact (@acks_sound target64 demoConfig (rememberingAead reportCalls) sampleSession (some 0)
    [.send (keyData 4), .deliver 0] (by rw [hcalls]; exact ideal_rememberingAead _)).2 1 reportAck (by decide +kernel)

/-- The report is delivered, its ack is lost, and it is sent again. -/
def lostAck : List Event := [.send (keyData 4), .deliver 0, .retransmit 0]

section Reflection

variable [Target] {cfg : ProtocolConfig} {aead : Aead} {k : SessionKeys} {c : UInt32} {b : List UInt8}

/-- The receiver's last counter never goes back. -/
theorem receiver_above {sessionId : UInt32} {salt : Arr UInt8 sessionSaltBytes} {m : Nat} {last : UInt32}
    (hm : m ≤ last.toNat) (arriving : List (List UInt8)) :
    ∀ a ∈ ((receiver cfg aead sessionId salt).run (some last) arriving).2, m < a.1.counter.toNat := by
  induction arriving generalizing last with
  | nil => simp
  | cons bytes arriving ih =>
    rw [Machine.run_cons]
    intro a ha
    rcases List.mem_append.1 ha with ha | ha
    · simp only [receiver] at ha
      cases hp : receive cfg aead sessionId salt (some last) bytes with
      | none => simp [hp] at ha
      | some p =>
        simp only [hp, List.mem_singleton] at ha
        rw [ha]
        exact hm.trans_lt (receive_above hp last rfl)
    · simp only [receiver] at ha
      cases hp : receive cfg aead sessionId salt (some last) bytes with
      | none =>
        simp only [hp] at ha
        exact ih hm a ha
      | some p =>
        simp only [hp] at ha
        exact ih (hm.trans (receive_above hp last rfl).le) a ha

/-- The peer's own ack passes the peer's checks: with its last packet acknowledged, a peer that hears the ack
takes it for the next packet of the session, and never accepts the data packet of that counter. -/
theorem reflected_ack_accepted (haead : aead.Lawful) (hc : FrameFits cfg) (hmac : 0 < cfg.security.macLen)
    (hlt : c.toNat + 1 < 2 ^ 32)
    (hseal : sealFramed (ackPacket cfg k.sessionId c) cfg aead (k.nonceFor (c + 1)).1 = .ok b) (arriving : List (List UInt8)) :
    ∃ more, ((receiver cfg aead k.sessionId k.salt).run (some c) (b :: arriving)).2 =
        ((ackPacket cfg k.sessionId c).header, .ack c) :: more ∧
      ∀ a ∈ more, c.toNat + 1 < a.1.counter.toNat := by
  have hone : (1 : UInt32).toNat = 1 := rfl
  have hsucc : (c + 1).toNat = c.toNat + 1 := by rw [UInt32.toNat_add, hone, Nat.mod_eq_of_lt hlt]
  obtain ⟨f, -, -, -, hopen⟩ := openFramed_of_opens (p := ackPacket cfg k.sessionId c) hc rfl (haead _ _ _ _) hseal
  have hle := (sealFramed_eq_ok.1 hseal).1
  rw [length_encodePayload] at hle
  have hwf : WellFormed { ackPacket cfg k.sessionId c with mac := f.tail } cfg (some k.sessionId) := by
    refine ⟨?_, f.tail_length, fun s hs => Option.some.inj hs, hle⟩
    rintro hnil
    have htail := f.tail_length
    rw [show f.tail = [] from hnil] at htail
    exact absurd htail.symm hmac.ne'
  have haccept : receive cfg aead k.sessionId k.salt (some c) b =
      some { ackPacket cfg k.sessionId c with mac := f.tail } := by
    refine receive_eq_some.2 ⟨hopen, validatePacket_eq_ok.2 ⟨hwf, fun last hl => ?_⟩⟩
    obtain rfl := Option.some.inj hl
    show c.toNat < (c + 1).toNat ∧ (c + 1).toNat ≤ c.toNat + 50
    omega
  refine ⟨((receiver cfg aead k.sessionId k.salt).run (some (c + 1)) arriving).2, ?_, receiver_above hsucc.ge arriving⟩
  rw [Machine.run_cons]
  simp only [receiver, haccept]
  rfl

end Reflection

/-- The ack of the first report, heard by the peer that sent it. -/
theorem reflected_ack_accepted_report :
    ∃ more, ((@receiver target64 demoConfig dummyAead sampleSession.sessionId sampleSession.salt).run (some 1)
        [reportAck, firstFrame]).2 = ((ackPacket demoConfig sampleSession.sessionId 1).header, .ack 1) :: more ∧
      ∀ a ∈ more, (1 : UInt32).toNat + 1 < a.1.counter.toNat :=
  @reflected_ack_accepted target64 demoConfig dummyAead sampleSession 1 reportAck lawful_dummyAead (by decide)
    (by decide) (by decide) (by decide +kernel) [firstFrame]

end KeyboardProject.Session
